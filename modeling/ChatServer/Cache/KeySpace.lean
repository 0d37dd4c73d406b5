import ChatServer.Base.Separated
import ChatServer.Cache.UserRepository
import ChatServer.Stream.PushStream

/-!
# The keys in Redis

Twelve builders in five classes join a prefix, a word of their own and one to three
arguments with colons. `RedisKey` is a builder with its arguments and
`RedisKey.text` the key it builds.

* `Builder.word_free` — no builder's word begins another's, so that a key says which
  builder made it;
* `RedisKey.arguments_inj` — within a builder the arguments can be read off again:
  the server ids and the types end at their first colon, the numbers have none;
* `redis_keys_distinct` — equal keys come from one builder with the same arguments.
-/

namespace ChatServer.Cache

open Redis ChatServer.Stream

/-- `MessageDedupCache::Key`. -/
def messageDedupKey (keyPrefix : Bytes) (fromUserId : UserId) (clientMsgId : Bytes) : Bytes :=
  keyPrefix ++ str ":dedup:msg:" ++ intText fromUserId ++ str ":" ++ clientMsgId

/-- The key `RedisRateLimiter::Allow` builds. -/
def rateLimitKey (keyPrefix type identity : Bytes) (bucket : Int) : Bytes :=
  keyPrefix ++ str ":ratelimit:" ++ type ++ str ":" ++ identity ++ str ":" ++ intText bucket

/-- The builders. -/
inductive Builder where
  | tokenKey
  | userPresenceKey
  | userSessionKey
  | connectionPresenceKey
  | pushStreamKey
  | retryStreamKey
  | deadLetterStreamKey
  | deliveryDedupKey
  | userKey
  | usernameKey
  | messageDedupKey
  | rateLimitKey
  deriving DecidableEq, Repr

/-- What a builder puts after the prefix. -/
def Builder.word : Builder → Bytes
  | .tokenKey => str ":session:token:"
  | .userPresenceKey => str ":presence:user:"
  | .userSessionKey => str ":session:user:"
  | .connectionPresenceKey => str ":presence:conn:"
  | .pushStreamKey => str ":push:stream:"
  | .retryStreamKey => str ":delivery:retry:"
  | .deadLetterStreamKey => str ":push:dlq:"
  | .deliveryDedupKey => str ":push:dedup:"
  | .userKey => str ":user:id:"
  | .usernameKey => str ":user:name:"
  | .messageDedupKey => str ":dedup:msg:"
  | .rateLimitKey => str ":ratelimit:"

/-- A builder with its arguments. -/
inductive RedisKey where
  | token (token : Bytes)
  | userPresence (user : UserId)
  | userSession (user : UserId)
  | connectionPresence (server : Bytes) (conn : ConnId)
  | pushStream (server : Bytes)
  | retryStream (server : Bytes)
  | deadLetterStream (server : Bytes)
  /-- built by the server `server` -/
  | deliveryDedup (server messageId : Bytes)
  | user (user : UserId)
  | username (username : Bytes)
  | messageDedup (sender : UserId) (clientMsgId : Bytes)
  | rateLimit (type identity : Bytes) (bucket : Int)
  deriving DecidableEq, Repr

namespace RedisKey

/-- The key under the prefix `p`. -/
def text (p : Bytes) : RedisKey → Bytes
  | .token t => tokenKey p t
  | .userPresence u => userPresenceKey p u
  | .userSession u => userSessionKey p u
  | .connectionPresence server conn => connectionPresenceKey p server conn
  | .pushStream server => pushStreamKey p server
  | .retryStream server => retryStreamKey p server
  | .deadLetterStream server => deadLetterStreamKey p server
  | .deliveryDedup server messageId => deliveryDedupKey ⟨p, server, 0, 0⟩ messageId
  | .user u => userKey p u
  | .username name => usernameKey p name
  | .messageDedup sender clientMsgId => messageDedupKey p sender clientMsgId
  | .rateLimit type identity bucket => rateLimitKey p type identity bucket

def builder : RedisKey → Builder
  | .token _ => .tokenKey
  | .userPresence _ => .userPresenceKey
  | .userSession _ => .userSessionKey
  | .connectionPresence _ _ => .connectionPresenceKey
  | .pushStream _ => .pushStreamKey
  | .retryStream _ => .retryStreamKey
  | .deadLetterStream _ => .deadLetterStreamKey
  | .deliveryDedup _ _ => .deliveryDedupKey
  | .user _ => .userKey
  | .username _ => .usernameKey
  | .messageDedup _ _ => .messageDedupKey
  | .rateLimit _ _ _ => .rateLimitKey

/-- What follows the builder's word. -/
def arguments : RedisKey → Bytes
  | .token t | .pushStream t | .retryStream t | .deadLetterStream t | .username t => t
  | .userPresence u | .userSession u | .user u => intText u
  | .connectionPresence server conn => server ++ 58 :: natText conn
  | .deliveryDedup server messageId => server ++ 58 :: messageId
  | .messageDedup sender clientMsgId => intText sender ++ 58 :: clientMsgId
  | .rateLimit type identity bucket => type ++ 58 :: (identity ++ 58 :: intText bucket)

/-- Server ids, and the types of the rate limiter, have no colon; nothing is asked of
the other arguments. -/
def Colonless : RedisKey → Prop
  | .connectionPresence server _ | .pushStream server | .retryStream server
  | .deadLetterStream server | .deliveryDedup server _ => (58 : UInt8) ∉ server
  | .rateLimit type _ _ => (58 : UInt8) ∉ type
  | _ => True

theorem text_eq (p : Bytes) (k : RedisKey) : k.text p = p ++ (k.builder.word ++ k.arguments) := by
  cases k <;>
    simp [text, builder, arguments, Builder.word, tokenKey, userPresenceKey, userSessionKey,
      connectionPresenceKey, pushStreamKey, retryStreamKey, deadLetterStreamKey,
      deliveryDedupKey, userKey, usernameKey, messageDedupKey, rateLimitKey, str]

end RedisKey

theorem Builder.word_free : ∀ b b' : Builder, b.word <+: b'.word → b = b' := by
  intro b b'
  cases b <;> cases b' <;> decide

namespace RedisKey

/-- The arguments of one builder can be told apart. -/
theorem arguments_inj {k k' : RedisKey} (hk : k.Colonless) (hk' : k'.Colonless)
    (hbuilder : k.builder = k'.builder) (h : k.arguments = k'.arguments) : k = k' := by
  cases k with
  | token _ | pushStream _ | retryStream _ | deadLetterStream _ | username _ =>
    cases k' <;> simp only [builder, reduceCtorEq] at hbuilder
    simpa [arguments] using h
  | userPresence _ | userSession _ | user _ =>
    cases k' <;> simp only [builder, reduceCtorEq] at hbuilder
    rw [intText_injective h]
  | connectionPresence server conn =>
    cases k' <;> simp only [builder, reduceCtorEq] at hbuilder
    obtain ⟨rfl, hconn⟩ := Base.split_first hk hk' h
    rw [natText_injective hconn]
  | deliveryDedup server messageId =>
    cases k' <;> simp only [builder, reduceCtorEq] at hbuilder
    obtain ⟨rfl, rfl⟩ := Base.split_first hk hk' h
    rfl
  | messageDedup sender clientMsgId =>
    cases k' <;> simp only [builder, reduceCtorEq] at hbuilder
    obtain ⟨hsender, rfl⟩ :=
      Base.split_first (colon_not_mem_intText _) (colon_not_mem_intText _) h
    rw [intText_injective hsender]
  | rateLimit type identity bucket =>
    cases k' <;> simp only [builder, reduceCtorEq] at hbuilder
    -- the identity may have colons: the type is cut off in front, the bucket behind
    obtain ⟨rfl, hrest⟩ := Base.split_first hk hk' h
    obtain ⟨rfl, hbucket⟩ :=
      Base.split_last (colon_not_mem_intText _) (colon_not_mem_intText _) hrest
    rw [intText_injective hbucket]

end RedisKey

/-- Under one prefix, two keys are equal only if they come from the same builder with
the same arguments. -/
theorem redis_keys_distinct (p : Bytes) {k k' : RedisKey} (hk : k.Colonless)
    (hk' : k'.Colonless) (h : k.text p = k'.text p) : k = k' := by
  rw [k.text_eq, k'.text_eq] at h
  obtain ⟨hbuilder, harguments⟩ :=
    Base.split_word Builder.word_free (List.append_cancel_left h)
  exact RedisKey.arguments_inj hk hk' hbuilder harguments

theorem redis_keys_distinct_address :
    (RedisKey.rateLimit (str "login") (str "::1") 7).text (str "chat") =
        str "chat:ratelimit:login:::1:7" ∧
      ∀ k : RedisKey, k.Colonless → k.text (str "chat") = str "chat:ratelimit:login:::1:7" →
        k = .rateLimit (str "login") (str "::1") 7 := by
  have hkey : (RedisKey.rateLimit (str "login") (str "::1") 7).text (str "chat") =
      str "chat:ratelimit:login:::1:7" := by decide +kernel
  refine ⟨hkey, fun k hk h => ?_⟩
  exact redis_keys_distinct (str "chat") hk (show (58 : UInt8) ∉ str "login" by decide)
    (h.trans hkey.symm)

end ChatServer.Cache
