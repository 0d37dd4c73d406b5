import ChatServer.Handler.MessageHandler

/-!
# What `MessageHandler` hands to the server

Every result of `handle` has a response, and a session it wants bound is one
that `SessionManager::BindSession` accepts: it comes from a row of `users` or
from a token that `GetToken` could read. Nothing else is assumed about the
answers of the interfaces, and `handle` may throw.
-/

namespace ChatServer.Handler

open Base Json Codec Service Net

/-! ## The answers of the interfaces -/

/-- A row of `users`: the id is an `AUTO_INCREMENT` column, and `registerUser`
inserts valid usernames only. -/
structure StoredUser (user : Db.UserRecord) : Prop where
  id : 0 < user.id
  username : Validator.username user.username = none

/-- Users are rows of the table, and tokens are read by `GetToken`. -/
def Stored : ∀ γ, Call γ → γ → Prop
  | _, .findByUsername _, r => ∀ user ∈ r.user, StoredUser user
  | _, .getToken token, r => ∃ cfg hashes, r = (Redis.getToken cfg hashes token).1
  | _, _, _ => True

/-- `SessionManager::BindSession` accepts the session. -/
structure Bindable (session : ConnectionSession) : Prop where
  authenticated : session.authenticated = true
  userId : 0 < session.userId
  username : session.username ≠ []

theorem StoredUser.username_ne_nil {user : Db.UserRecord} (h : StoredUser user) :
    user.username ≠ [] := by
  intro hnil
  have husername := h.username
  rw [hnil] at husername
  exact absurd husername (by decide)

/-- `GetToken` refuses what cannot be bound. -/
theorem getToken_bindable {cfg : Redis.RedisConfig} {hashes : Redis.Hashes} {token : Bytes}
    {stored : Redis.StoredSessionToken} (h : (Redis.getToken cfg hashes token).1 = some stored) :
    Bindable ⟨true, stored.userId, stored.username, token⟩ := by
  unfold Redis.getToken at h
  split at h
  · cases h
  · split at h
    · cases h
    · cases h
    · rename_i stored' hread
      obtain rfl := Option.some.inj h
      simp only [Redis.readToken, Option.bind_eq_bind, Option.bind_eq_some_iff,
        Option.some.injEq] at hread
      obtain ⟨_, -, username, -, _, -, userId, -, issuedAt, -, hstored⟩ := hread
      split at hstored
      · cases hstored
      · rename_i hvalid
        obtain rfl := Option.some.inj hstored
        simp only [not_or, Int.not_le] at hvalid
        exact ⟨rfl, hvalid.1, hvalid.2.1⟩

/-! ## Results -/

/-- What the server relies on. -/
structure Answered (r : HandleResult) : Prop where
  response : r.response ≠ []
  session : r.sessionAction = .bind → Bindable r.pendingSession

/-- A response that binds nothing. -/
structure Quiet (r : HandleResult) : Prop where
  response : r.response ≠ []
  session : r.sessionAction ≠ .bind

theorem Quiet.answered {r : HandleResult} (h : Quiet r) : Answered r :=
  ⟨h.response, fun hbind => absurd hbind h.session⟩

theorem encodeResponse_ne_nil {resp : Response} {body : Bytes}
    (h : encodeResponse resp = .ok body) : body ≠ [] := by
  unfold encodeResponse Response.toJson at h
  rw [dump] at h
  cases hfields : dumpFields _ with
  | error e =>
    rw [hfields] at h
    cases h
  | ok fields =>
    rw [hfields] at h
    obtain rfl := Except.ok.inj h
    simp [str]

variable {admits : ∀ γ, Call γ → γ → Prop}

theorem encode_then {resp : Response} {f : Bytes → Action HandleResult} {Q : HandleResult → Prop}
    (hf : ∀ body, body ≠ [] → (f body).Ensures admits Q) : (encode resp >>= f).Ensures admits Q :=
  .bind (Q := fun body => body ≠ []) (.ofExcept fun _ h => encodeResponse_ne_nil h) hf

theorem reply_quiet (resp : Response) : (reply resp).Ensures admits Quiet :=
  encode_then fun _ hbody => .pure ⟨hbody, nofun⟩

/-! ## Sessions to bind -/

theorem login_bindable (w : Wiring) (req : LoginRequest) (identity : Bytes) :
    (Account.login w req identity).Ensures Stored fun r => r.code = .ok → Bindable r.session := by
  unfold Account.login
  split
  · exact .pure fun hcode => nomatch hcode
  refine .after fun limited => ?_
  split
  · exact .pure fun hcode => nomatch hcode
  refine .call fun found hfound => ?_
  refine .exit (fun hcode => nomatch hcode) fun _ => ?_
  refine .exit (fun hcode => nomatch hcode) fun _ => ?_
  refine .exit (fun hcode => nomatch hcode) fun _ => ?_
  split
  next user huser =>
    have hstored : StoredUser user := hfound user huser
    refine .after fun verified => .exit (fun hcode => nomatch hcode) fun _ => ?_
    refine .after fun upgraded => .exit (fun hcode => nomatch hcode) fun _ => ?_
    refine .after fun token => .exit (fun hcode => nomatch hcode) fun _ => ?_
    exact .pure fun _ => ⟨rfl, hstored.id, hstored.username_ne_nil⟩
  next => exact .pure fun hcode => nomatch hcode

theorem resumeSession_bindable (w : Wiring) (token : Bytes) :
    (Account.resumeSession w token).Ensures Stored fun r => r.code = .ok → Bindable r.session := by
  refine .exit (fun hcode => nomatch hcode) fun _ => ?_
  refine .call fun answer hanswer => ?_
  split
  next stored =>
    obtain ⟨cfg, hashes, hread⟩ := hanswer
    exact .pure fun _ => getToken_bindable hread.symm
  next => exact .pure fun hcode => nomatch hcode

/-- The two handlers that bind: an error is answered, a success is encoded. -/
theorem bind_answered {resp : Response} {code : ErrorCode} {full : Response}
    {session : ConnectionSession} (h : code = .ok → Bindable session) :
    (if code ≠ .ok then reply resp else do
      let body ← encode full
      return { response := body, sessionAction := .bind, pendingSession := session } :
        Action HandleResult).Ensures Stored Answered := by
  refine .ite (fun _ => (reply_quiet resp).mono fun _ => Quiet.answered) fun hcode => ?_
  exact encode_then fun body hbody => .pure ⟨hbody, fun _ => h (not_not.mp hcode)⟩

/-! ## The handlers -/

section

variable (w : Wiring) (msg : Message) (conn : ConnId)

theorem handleLogin_answered (identity : Bytes) :
    (handleLogin w msg identity).Ensures Stored Answered := by
  unfold handleLogin
  split
  · exact (reply_quiet _).mono fun _ => Quiet.answered
  · exact .bind (login_bindable w _ identity) fun _ hresult => bind_answered hresult

theorem handleResumeSession_answered : (handleResumeSession w msg).Ensures Stored Answered :=
  .bind (resumeSession_bindable w msg.token) fun _ hresult => bind_answered hresult

theorem handleRegister_quiet (identity : Bytes) :
    (handleRegister w msg identity).Ensures admits Quiet := by
  unfold handleRegister
  split
  · exact reply_quiet _
  · exact .after fun _ => reply_quiet _

theorem handleLogout_quiet : (handleLogout msg conn).Ensures admits Quiet := by
  refine .after fun result => encode_then fun body hbody => .pure ⟨hbody, fun haction => ?_⟩
  simp only at haction
  split at haction
  all_goals cases haction

theorem handleSendMessage_quiet : (handleSendMessage w msg conn).Ensures admits Quiet := by
  unfold handleSendMessage
  split
  · exact reply_quiet _
  · refine .after fun result => .ite (fun _ => reply_quiet _) fun _ => .after fun payload => ?_
    refine .ite (fun _ => .after fun _ => ?_) fun _ => ?_
    all_goals exact .after fun _ => encode_then fun _ hbody => .pure ⟨hbody, nofun⟩

theorem handlePullOfflineMessages_quiet :
    (handlePullOfflineMessages msg conn).Ensures admits Quiet := by
  unfold handlePullOfflineMessages
  split
  · exact reply_quiet _
  · exact .after fun _ => reply_quiet _

theorem handleStateUpdate_quiet (msgType : String)
    (update : ConnId → List Bytes → Action MessageStateUpdateResult) :
    (handleStateUpdate msgType update msg conn).Ensures admits Quiet := by
  unfold handleStateUpdate
  split
  · exact reply_quiet _
  · exact .after fun _ => reply_quiet _

theorem handleFriendAction_quiet (msgType : String) (parse : Json → Except String UserId)
    (act : ConnId → UserId → Action FriendshipActionResult)
    (fill : Response → FriendshipActionResult → Response) :
    (handleFriendAction msgType parse act fill w msg conn).Ensures admits Quiet := by
  refine .ite (fun _ => reply_quiet _) fun _ => ?_
  split
  · exact reply_quiet _
  · exact .after fun _ => reply_quiet _

theorem handleListFriends_quiet : (handleListFriends w msg conn).Ensures admits Quiet :=
  .ite (fun _ => reply_quiet _) fun _ => .after fun _ => reply_quiet _

theorem handleCreateGroup_quiet : (handleCreateGroup w msg conn).Ensures admits Quiet := by
  refine .ite (fun _ => reply_quiet _) fun _ => ?_
  split
  · exact reply_quiet _
  · refine .after fun _ => ?_
    split <;> exact reply_quiet _

theorem handleAddGroupMember_quiet : (handleAddGroupMember w msg conn).Ensures admits Quiet := by
  refine .ite (fun _ => reply_quiet _) fun _ => ?_
  split
  · exact reply_quiet _
  · refine .after fun _ => ?_
    split <;> exact reply_quiet _

theorem handleSendGroupMessage_quiet :
    (handleSendGroupMessage w msg conn).Ensures admits Quiet := by
  refine .ite (fun _ => reply_quiet _) fun _ => ?_
  split
  · exact reply_quiet _
  · refine .after fun result => .ite (fun _ => reply_quiet _) fun _ => .after fun _ => ?_
    exact encode_then fun _ hbody => .pure ⟨hbody, nofun⟩

/-- Of the handlers in the chain, only that of `login` binds. -/
theorem dispatch_quiet (peerIp : Bytes) (hlogin : msg.msgType ≠ str "login") :
    (dispatch w msg conn peerIp).Ensures admits Quiet := by
  unfold dispatch
  refine .ite (fun _ => handleRegister_quiet w msg peerIp) fun _ => ?_
  refine .ite (fun hmsg => absurd hmsg hlogin) fun _ => ?_
  refine .ite (fun _ => handleLogout_quiet msg conn) fun _ => ?_
  refine .ite (fun _ => .after fun _ => reply_quiet _) fun _ => ?_
  refine .ite (fun _ => .after fun _ => reply_quiet _) fun _ => ?_
  refine .ite (fun _ => handleSendMessage_quiet w msg conn) fun _ => ?_
  refine .ite (fun _ => handlePullOfflineMessages_quiet msg conn) fun _ => ?_
  refine .ite (fun _ => handleStateUpdate_quiet msg conn _ _) fun _ => ?_
  refine .ite (fun _ => handleStateUpdate_quiet msg conn _ _) fun _ => ?_
  refine .ite (fun _ => handleFriendAction_quiet w msg conn _ _ _ _) fun _ => ?_
  refine .ite (fun _ => handleFriendAction_quiet w msg conn _ _ _ _) fun _ => ?_
  refine .ite (fun _ => handleFriendAction_quiet w msg conn _ _ _ _) fun _ => ?_
  refine .ite (fun _ => handleListFriends_quiet w msg conn) fun _ => ?_
  refine .ite (fun _ => handleCreateGroup_quiet w msg conn) fun _ => ?_
  refine .ite (fun _ => handleAddGroupMember_quiet w msg conn) fun _ => ?_
  exact .ite (fun _ => handleSendGroupMessage_quiet w msg conn) fun _ => reply_quiet _

theorem dispatch_login (peerIp : Bytes) (hlogin : msg.msgType = str "login") :
    dispatch w msg conn peerIp = handleLogin w msg peerIp := by
  unfold dispatch
  rw [if_neg (by rw [hlogin]; decide), if_pos hlogin]

theorem dispatch_answered (peerIp : Bytes) :
    (dispatch w msg conn peerIp).Ensures Stored Answered := by
  by_cases hlogin : msg.msgType = str "login"
  · rw [dispatch_login w msg conn peerIp hlogin]
    exact handleLogin_answered w msg peerIp
  · exact (dispatch_quiet w msg conn peerIp hlogin).mono fun _ => Quiet.answered

/-- Whatever `handle` returns has a response, and a session to bind is one that
can be bound. -/
theorem handle_answered (raw peerIp : Bytes) :
    (handle w raw conn peerIp).Ensures Stored Answered := by
  unfold handle
  split
  · exact (reply_quiet _).mono fun _ => Quiet.answered
  next msg _ =>
    refine .ite (fun _ => handleResumeSession_answered w msg) fun _ => .after fun refused => ?_
    exact .ite (fun _ => (reply_quiet _).mono fun _ => Quiet.answered) fun _ => .after fun _ =>
      dispatch_answered w msg conn peerIp

end

end ChatServer.Handler
