import ChatServer.Service.SendGuarantees
import ChatServer.Redis.SessionGuarantees
import ChatServer.Service.SessionFlows
import ChatServer.Stream.PushGuarantees
import ChatServer.App.Guarantees
import ChatServer.Remote.Guarantees
import ChatServer.Db.PoolAccounting
import ChatServer.Redis.RedisPool
import ChatServer.Cache.KeySpace
import ChatServer.Service.MessageKeys
import ChatServer.Net.HalfClose
import ChatServer.Service.FriendStates
import ChatServer.Net.Transport
import ChatServer.Service.Pagination
import ChatServer.Service.GroupFanout
import ChatServer.Remote.PushConsumer
import ChatServer.Handler.Unauthenticated
import ChatServer.Service.GroupMembers
import ChatServer.Service.SessionMaps
import ChatServer.Net.TimeoutScan
import ChatServer.Handler.Correlation
import ChatServer.Handler.OfflinePacket
import ChatServer.Net.RequestQueue
import ChatServer.Security.PasswordHasher
