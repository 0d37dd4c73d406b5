import ChatServer.Base.Observed
import ChatServer.Handler.Requests
import ChatServer.Service.UserService

/-!
# Requests without a session

A protected request on a connection that has no authenticated session, or with a
token that is not the session's. `handle` looks up the session of the connection
and touches nothing else: the token check and `refreshPresence` come to nothing
without a session, and every service asks for the session before its first call.
-/

namespace ChatServer.Handler

open Base Json Codec Service Net Utf8

/-! ## What a request may see and do -/

/-- The connection has no authenticated session, or the request carries a token
that is not the session's. -/
def Stranger (m : SessionManager) (conn : ConnId) (token : Bytes) : Prop :=
  ∀ s, m.getSession conn = some s → s.authenticated = true → token ≠ [] ∧ s.token ≠ token

/-- The answers to such a request. The session manager may change between two
calls; everything else answers as it likes. -/
def asStranger (conn : ConnId) (token : Bytes) : ∀ γ, Call γ → γ → Prop
  | _, .getSession c, r =>
    ∃ m : SessionManager, m.Built ∧ Stranger m conn token ∧ r = m.getSession c
  | _, _, _ => True

/-- Looking up the connection's own session is the only call. -/
def ReadsSession (conn : ConnId) : ∀ γ, Call γ → Prop
  | _, .getSession c => c = conn
  | _, _ => False

/-- An error response, and nothing else. -/
structure Refused (r : HandleResult) : Prop where
  response : ∃ resp, encodeResponse resp = .ok r.response ∧ resp.code ≠ .ok
  pushes : r.pushes = []
  deliveredMessageIds : r.deliveredMessageIds = []
  sessionAction : r.sessionAction = .none

section

variable {admits : ∀ γ, Call γ → γ → Prop} {allowed : ∀ γ, Call γ → Prop}

theorem reply_refused {resp : Response} (hclean : resp.Clean) (hcode : resp.code ≠ .ok) :
    (reply resp).Confined admits allowed Refused := by
  have hencode : (encode resp).Confined admits allowed
      fun body => encodeResponse resp = .ok body :=
    .ofExcept ((encodeResponse_isOk resp).mpr hclean) fun _ hbody => hbody
  exact .bind hencode fun body hbody => .pure ⟨⟨resp, hbody, hcode⟩, rfl, rfl, rfl⟩

theorem invalidParam_refused {msg : Message} (hmsg : MessageClean msg) (err : String) :
    (reply (makeInvalidParamResponse msg (str err))).Confined admits allowed Refused :=
  reply_refused (responseTo_clean hmsg.msgType .invalidParam (str_wellFormed err)) nofun

end

/-! ## Services without a session -/

section

variable {conn : ConnId}

/-- What a service reports: an error with a text that can be sent. -/
structure Fails (code : ErrorCode) (message : Bytes) : Prop where
  code : code ≠ .ok
  message : WellFormed message

/-- A program that fails after it found no session. -/
abbrev Fruitless (conn : ConnId) (Q : α → Prop) (p : Action α) : Prop :=
  p.Confined (asStranger conn []) (ReadsSession conn) Q

/-- Without a token the connection has no session at all. -/
theorem asStranger_none {r : Option ConnectionSession}
    (h : asStranger conn [] _ (.getSession conn) r) : r = none := by
  obtain ⟨m, hbuilt, hstranger, rfl⟩ := h
  cases hsession : m.getSession conn with
  | none => rfl
  | some s => exact absurd rfl (hstranger s hsession (hbuilt.authenticated hsession)).1

theorem getSession_fruitless {f : Option ConnectionSession → Action α} {Q : α → Prop}
    (hf : Fruitless conn Q (f none)) :
    Fruitless conn Q (Prog.perform (.getSession conn) >>= f) := by
  refine .call rfl fun r hr => ?_
  rw [asStranger_none hr]
  exact hf

theorem getAuthenticatedSession_fruitless {f : Option ConnectionSession → Action α} {Q : α → Prop}
    (hf : Fruitless conn Q (f none)) :
    Fruitless conn Q (getAuthenticatedSession conn >>= f) := getSession_fruitless hf

/-- A handler whose service asks for the session first. -/
theorem service_fruitless {f : Option ConnectionSession → Action α} {k : α → Action β} {r : α}
    {Q : β → Prop} (hnone : f none = pure r) (hk : Fruitless conn Q (k r)) :
    Fruitless conn Q (getAuthenticatedSession conn >>= f >>= k) := by
  refine .bind (Q := (· = r)) (getAuthenticatedSession_fruitless (hnone ▸ .pure rfl)) ?_
  rintro _ rfl
  exact hk

theorem sendMessage_fruitless (w : Wiring) (req : SendMessageRequest) :
    Fruitless conn (fun r => Fails r.code r.message) (ChatService.sendMessage w conn req) := by
  unfold ChatService.sendMessage
  split
  · refine .pure ⟨?_, str_wellFormed _⟩
    dsimp only
    split_ifs <;> nofun
  split
  · exact .pure ⟨nofun, str_wellFormed _⟩
  refine .exit ⟨nofun, str_wellFormed _⟩ fun _ => ?_
  exact getAuthenticatedSession_fruitless (.pure ⟨nofun, str_wellFormed _⟩)

theorem addFriend_fruitless (userId : UserId) :
    Fruitless conn (fun r => Fails r.code r.message) (FriendService.addFriend conn userId) :=
  .exit ⟨nofun, str_wellFormed _⟩ fun _ =>
    getAuthenticatedSession_fruitless (.pure ⟨nofun, str_wellFormed _⟩)

theorem acceptFriend_fruitless (userId : UserId) :
    Fruitless conn (fun r => Fails r.code r.message) (FriendService.acceptFriend conn userId) :=
  .exit ⟨nofun, str_wellFormed _⟩ fun _ =>
    getAuthenticatedSession_fruitless (.pure ⟨nofun, str_wellFormed _⟩)

theorem deleteFriend_fruitless (userId : UserId) :
    Fruitless conn (fun r => Fails r.code r.message) (FriendService.deleteFriend conn userId) :=
  .exit ⟨nofun, str_wellFormed _⟩ fun _ =>
    getAuthenticatedSession_fruitless (.pure ⟨nofun, str_wellFormed _⟩)

/-! ## Handlers without a session -/

/-- The handler of a failed service call. -/
theorem failed_refused {resp full : Response} (hclean : resp.Clean) (hcode : resp.code ≠ .ok) :
    Fruitless conn Refused (reply (if resp.code = .ok then full else resp)) := by
  rw [if_neg hcode]
  exact reply_refused hclean hcode

theorem unavailable_refused (msgType : String) (msg : Message) (message : String) :
    Fruitless conn Refused (reply (response msgType msg .internalError (str message))) :=
  reply_refused (response_clean _ _ _ (str_wellFormed _)) nofun

variable {msg : Message} (hmsg : MessageClean msg)

include hmsg

theorem handleLogout_refused : Fruitless conn Refused (handleLogout msg conn) := by
  have hlogout : Fruitless conn (fun r => Fails r.code r.message) (Account.logout conn) :=
    getSession_fruitless (.pure ⟨nofun, str_wellFormed _⟩)
  refine .bind hlogout fun result h => ?_
  rw [if_neg h.code]
  exact reply_refused (responseTo_clean hmsg.msgType result.code h.message) h.code

theorem handleWhoAmI_refused : Fruitless conn Refused (handleWhoAmI msg conn) :=
  service_fruitless rfl
    (failed_refused (responseTo_clean hmsg.msgType _ (str_wellFormed _)) nofun)

theorem handleSendMessage_refused (w : Wiring) :
    Fruitless conn Refused (handleSendMessage w msg conn) := by
  unfold handleSendMessage
  split
  · exact invalidParam_refused hmsg _
  · refine .bind (sendMessage_fruitless w _) fun result h => ?_
    refine .ite (fun _ => reply_refused (withRetry_clean (response_clean _ _ _ h.message) _) ?_)
      fun hok => absurd h.code hok
    unfold withRetry
    split_ifs <;> exact h.code

theorem handlePullOfflineMessages_refused :
    Fruitless conn Refused (handlePullOfflineMessages msg conn) := by
  unfold handlePullOfflineMessages
  split
  · exact invalidParam_refused hmsg _
  · exact service_fruitless rfl (failed_refused (response_clean _ _ _ (str_wellFormed _)) nofun)

theorem handleStateUpdate_refused (msgType : String)
    (update : UserId → List Bytes → Call Db.UpdateResult) (failure : String) :
    Fruitless conn Refused
      (handleStateUpdate msgType (ChatService.updateState update failure) msg conn) := by
  unfold handleStateUpdate
  split
  · exact invalidParam_refused hmsg _
  · exact service_fruitless rfl (failed_refused (response_clean _ _ _ (str_wellFormed _)) nofun)

theorem handleFriendAction_refused (msgType : String) (parse : Json → Except String UserId)
    {act : ConnId → UserId → Action FriendshipActionResult}
    (hact : ∀ userId, Fruitless conn (fun r => Fails r.code r.message) (act conn userId))
    (fill : Response → FriendshipActionResult → Response) (w : Wiring) :
    Fruitless conn Refused (handleFriendAction msgType parse act fill w msg conn) := by
  refine .ite (fun _ => unavailable_refused _ _ _) fun _ => ?_
  split
  · exact invalidParam_refused hmsg _
  · exact .bind (hact _) fun _ h =>
      failed_refused (response_clean _ _ _ h.message) h.code

omit hmsg in
theorem handleListFriends_refused (w : Wiring) :
    Fruitless conn Refused (handleListFriends w msg conn) :=
  .ite (fun _ => unavailable_refused _ _ _) fun _ =>
    service_fruitless rfl (failed_refused (response_clean _ _ _ (str_wellFormed _)) nofun)

theorem handleCreateGroup_refused (w : Wiring) :
    Fruitless conn Refused (handleCreateGroup w msg conn) := by
  refine .ite (fun _ => unavailable_refused _ _ _) fun _ => ?_
  split
  · exact invalidParam_refused hmsg _
  · exact service_fruitless rfl (reply_refused (response_clean _ _ _ (str_wellFormed _)) nofun)

theorem handleAddGroupMember_refused (w : Wiring) :
    Fruitless conn Refused (handleAddGroupMember w msg conn) := by
  refine .ite (fun _ => unavailable_refused _ _ _) fun _ => ?_
  split
  · exact invalidParam_refused hmsg _
  · exact service_fruitless rfl (reply_refused (response_clean _ _ _ (str_wellFormed _)) nofun)

theorem handleSendGroupMessage_refused (w : Wiring) :
    Fruitless conn Refused (handleSendGroupMessage w msg conn) := by
  refine .ite (fun _ => unavailable_refused _ _ _) fun _ => ?_
  split
  · exact invalidParam_refused hmsg _
  · exact service_fruitless rfl (reply_refused (response_clean _ _ _ (str_wellFormed _)) nofun)

/-! ## Routing -/

/-- Every protected type is routed to a handler that finds no session. -/
theorem dispatch_refused (w : Wiring) (peerIp : Bytes)
    (hprotected : isProtectedMessage msg.msgType = true) :
    Fruitless conn Refused (dispatch w msg conn peerIp) := by
  -- the types that need no session are not protected
  have hopen : ∀ t, isProtectedMessage t = false → msg.msgType ≠ t := by
    rintro t ht rfl
    exact Bool.false_ne_true (ht.symm.trans hprotected)
  unfold dispatch
  refine .ite (fun h => absurd h (hopen _ (by decide))) fun _ => ?_
  refine .ite (fun h => absurd h (hopen _ (by decide))) fun _ => ?_
  refine .ite (fun _ => handleLogout_refused hmsg) fun _ => ?_
  refine .ite (fun h => absurd h (hopen _ (by decide))) fun _ => ?_
  refine .ite (fun _ => handleWhoAmI_refused hmsg) fun _ => ?_
  refine .ite (fun _ => handleSendMessage_refused hmsg w) fun _ => ?_
  refine .ite (fun _ => handlePullOfflineMessages_refused hmsg) fun _ => ?_
  refine .ite (fun _ => handleStateUpdate_refused hmsg _ _ _) fun _ => ?_
  refine .ite (fun _ => handleStateUpdate_refused hmsg _ _ _) fun _ => ?_
  refine .ite (fun _ => handleFriendAction_refused hmsg _ _ addFriend_fruitless _ w) fun _ => ?_
  refine .ite (fun _ => handleFriendAction_refused hmsg _ _ acceptFriend_fruitless _ w) fun _ => ?_
  refine .ite (fun _ => handleFriendAction_refused hmsg _ _ deleteFriend_fruitless _ w) fun _ => ?_
  refine .ite (fun _ => handleListFriends_refused w) fun _ => ?_
  refine .ite (fun _ => handleCreateGroup_refused hmsg w) fun _ => ?_
  refine .ite (fun _ => handleAddGroupMember_refused hmsg w) fun _ => ?_
  refine .ite (fun _ => handleSendGroupMessage_refused hmsg w) fun _ => ?_
  exact reply_refused
    (responseTo_clean hmsg.msgType _ ((str_wellFormed _).append hmsg.msgType)) nofun

omit hmsg in
/-- A token that is not the session's is refused before the session store is asked. -/
theorem requestTokenMatches_stranger (w : Wiring) {token : Bytes} :
    (Account.requestTokenMatches w conn token).Confined (asStranger conn token)
      (ReadsSession conn) fun matched => matched = false := by
  have hsession : (getAuthenticatedSession conn).Confined (asStranger conn token)
      (ReadsSession conn) fun found => ∀ s ∈ found, s.token ≠ token := by
    refine .call rfl fun r hr => .pure fun s hs => ?_
    obtain ⟨m, -, hstranger, rfl⟩ := hr
    obtain ⟨hfound, hauth⟩ := Option.filter_eq_some_iff.mp hs
    exact (hstranger s hfound hauth).2
  refine .exit rfl fun _ => .bind hsession fun found hfound => ?_
  split
  next s => exact .ite (fun _ => .pure rfl) fun hsame => absurd (hfound s rfl) hsame
  next => exact .pure rfl

end

/-- A protected request whose connection has no authenticated session, or whose
token is not the session's, has no effect: `handle` returns an error response
with no push, no delivered id and no session action, and looks up the session of
the connection and calls nothing else. -/
theorem stranger_refused (w : Wiring) {raw : Bytes} {msg : Message} (conn : ConnId)
    (peerIp : Bytes) (hmsg : decodeMessage raw = .ok msg)
    (hprotected : isProtectedMessage msg.msgType = true) :
    (handle w raw conn peerIp).Confined (asStranger conn msg.token) (ReadsSession conn)
      Refused := by
  have hclean := decodeMessage_clean hmsg
  unfold handle
  rw [hmsg]
  refine .ite (fun h => ?_) fun _ => ?_
  · rw [h] at hprotected
    exact absurd hprotected (by decide)
  cases htoken : msg.token with
  | nil =>
    -- no token, so no session: neither check nor `refreshPresence` does anything
    have hchecked : tokenRefused w msg conn = pure false := by
      unfold tokenRefused
      rw [htoken, if_pos (by simp)]
    rw [hchecked]
    refine getSession_fruitless ?_
    exact dispatch_refused hclean w peerIp hprotected
  | cons b rest =>
    have hrefused : (tokenRefused w msg conn).Confined (asStranger conn (b :: rest))
        (ReadsSession conn) fun refused => refused = true := by
      unfold tokenRefused
      rw [hprotected, htoken, if_neg (by simp)]
      refine .bind (requestTokenMatches_stranger w) fun matched h => ?_
      rw [h]
      exact .pure rfl
    refine .bind hrefused fun refused h => ?_
    rw [if_pos h]
    exact reply_refused (responseTo_clean hclean.msgType _ (str_wellFormed _)) nofun

/-- A client asks who it is before it has logged in. -/
def earlyWhoAmI : Bytes := str "\x7b\"msg_type\":\"whoami\",\"seq\":1,\"data\":\x7b\x7d\x7d"

/-- No connection has a session, and nothing else is asked. -/
def nobodyKnown : ∀ γ, Call γ → Option γ
  | _, .getSession _ => some none
  | _, _ => none

theorem nobodyKnown_stranger (γ : Type) (op : Call γ) :
    ∀ r ∈ nobodyKnown γ op, asStranger 1 [] γ op r := by
  cases op with
  | getSession c =>
    intro r hr
    refine ⟨{}, .new, fun s hs => ?_, (Option.some.inj hr).symm⟩
    cases hs
  | _ => exact fun _ _ => trivial

theorem stranger_refused_whoami :
    ∃ τ r, (handle plainWiring earlyWhoAmI 1 []).Runs τ r ∧ Refused r ∧
      ∀ e ∈ τ, ReadsSession 1 _ e.op := by
  have hdecoded : ((decodeMessage earlyWhoAmI).toOption.any fun msg =>
      isProtectedMessage msg.msgType && msg.token.isEmpty) = true := by decide +kernel
  obtain ⟨msg, hmsg, hcheck⟩ := (Option.any_eq_true _ _).mp hdecoded
  obtain ⟨hprotected, htoken⟩ := (Bool.and_eq_true _ _).mp hcheck
  have hdecode : decodeMessage earlyWhoAmI = .ok msg := by
    cases hresult : decodeMessage earlyWhoAmI with
    | error e => rw [hresult] at hmsg; cases hmsg
    | ok m => rw [hresult] at hmsg; exact congrArg _ (Option.some.inj hmsg)
  have hsome : ((handle plainWiring earlyWhoAmI 1 []).trace nobodyKnown).isSome = true := by
    decide +kernel
  obtain ⟨⟨τ, r⟩, htrace⟩ := Option.isSome_iff_exists.mp hsome
  have hrefused := stranger_refused plainWiring 1 [] hdecode hprotected
  rw [List.isEmpty_iff.mp htoken] at hrefused
  have hrun := Prog.runs_of_trace htrace
  exact ⟨τ, r, hrun, hrefused.of_runs hrun (Prog.admits_of_trace nobodyKnown_stranger htrace)⟩

end ChatServer.Handler
