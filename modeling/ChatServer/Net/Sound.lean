import ChatServer.Net.IoStep

/-!
# Where the I/O thread and the workers can be

Facts about the threads' positions that hold in every reachable state: the I/O
thread reads and writes registered connections only, the locals of a response
round agree with the result the round is for, and a worker clears a queue only
after the server was told to stop.
-/

namespace ChatServer.Net

open ChatServer.Codec ConnectionContext

/-- The connection the I/O thread is reading from or writing to. -/
def Io.owner : Io → Option ConnId
  | .reading d => some d
  | .packets d _ => some d
  | .submitRead d _ _ => some d
  | .writing d => some d
  | _ => none

namespace Server

/-- What the locals of a round say about the result it is for: an early
deferral is for the delivered batch, a noted message id is from a push to the
round's own connection. -/
structure RespLocals.Sound (loc : RespLocals) : Prop where
  deferred : loc.deferred = true →
    loc.task.result.response ≠ [] ∧ loc.task.result.deliveredMessageIds ≠ []
  pushes : ∀ p ∈ loc.pushes, p ∈ loc.task.result.pushes
  same : loc.sameIds ≠ [] → ∃ p ∈ loc.task.result.pushes,
    p.targetConnId = loc.task.connId ∧ p.payload ≠ [] ∧ p.messageId ≠ []

/-- A position of the I/O thread that fits the registered connections. The
locals are not used any more once a round is finishing. -/
structure Fits (registered : ConnId → Bool) (io : Io) : Prop where
  owner : ∀ d, io.owner = some d → registered d = true
  locals : ∀ pos loc ops, io = .round pos loc ops → pos ≠ .finish → RespLocals.Sound loc

/-- The positions of all threads fit. -/
structure Sound (s : Server) : Prop where
  io : Fits s.registered s.io
  clearing : ∀ d, Worker.clearing d ∈ s.workers → s.stopping = true

section

variable {s s' : Server} {c d : ConnId} {reg : ConnId → Bool}

theorem fits_idle : Fits reg .idle :=
  ⟨fun _ h => by simp [Io.owner] at h, fun _ _ _ h => by simp at h⟩

theorem fits_drain (ops : List IoOp) : Fits reg (.drain ops) :=
  ⟨fun _ h => by simp [Io.owner] at h, fun _ _ _ h => by simp at h⟩

theorem fits_submitNext (d : ConnId) (p : Bytes) (ops : List IoOp) :
    Fits reg (.submitNext d p ops) :=
  ⟨fun _ h => by simp [Io.owner] at h, fun _ _ _ h => by simp at h⟩

variable {pos : RoundPos} {loc : RespLocals} {env : Env} {b : Bool}

theorem fits_round (ops : List IoOp) (h : RespLocals.Sound loc) :
    Fits reg (.round pos loc ops) := by
  refine ⟨fun _ h => by simp [Io.owner] at h, fun _ _ _ heq _ => ?_⟩
  cases heq
  exact h

theorem fits_finish (loc : RespLocals) (ops : List IoOp) : Fits reg (.round .finish loc ops) := by
  refine ⟨fun _ h => by simp [Io.owner] at h, fun _ _ _ heq hne => ?_⟩
  cases heq
  exact absurd rfl hne

/-- A position of a connection that is registered. -/
theorem fits_owner {io : Io} (hio : io.owner = some d) (hreg : reg d = true) : Fits reg io := by
  refine ⟨fun _ h => ?_, fun _ _ _ heq => ?_⟩
  · rw [hio] at h
    cases h
    exact hreg
  · rw [heq] at hio
    simp [Io.owner] at hio

theorem submitRequestTask_registered {p : Bytes} (h : s.submitRequestTask d p b = some s') :
    s'.registered = s.registered := by
  unfold submitRequestTask at h
  split at h
  · cases h
  · cases h
    rfl

/-! ## Response rounds -/

theorem locals_sound {t : ResponseTask}
    (hb : b = true → t.result.response ≠ [] ∧ t.result.deliveredMessageIds ≠ []) :
    RespLocals.Sound (locals t b) :=
  ⟨hb, fun _ h => h, fun h => absurd rfl h⟩

theorem note_sound (hl : RespLocals.Sound loc) {p : OutboundMessage}
    (hp : p ∈ loc.task.result.pushes) (hpay : p.payload ≠ []) :
    RespLocals.Sound (RespLocals.note loc p) := by
  unfold RespLocals.note
  split
  · exact hl
  · rename_i hid
    split
    · rename_i hown
      exact ⟨hl.deferred, hl.pushes, fun _ => ⟨p, hp, hown, hpay, by simpa using hid⟩⟩
    · exact ⟨hl.deferred, hl.pushes, hl.same⟩

/-- Every step of the I/O thread leaves it in a fitting position. -/
theorem ioStep_fits (hfits : Fits s.registered s.io) (h : s.ioStep env = some s') :
    Fits s'.registered s'.io := by
  obtain ⟨t, io, hstep, rfl⟩ := ioStep_cases h
  have hreg : ∀ {d io}, s.io = io → io.owner = some d → s.registered d = true := fun hio hd =>
    hfits.owner _ (hio ▸ hd)
  have hloc : ∀ {pos loc ops}, s.io = .round pos loc ops → pos ≠ .finish → RespLocals.Sound loc :=
    hfits.locals _ _ _
  cases hstep with
  | readNothing | readError | oversized | readRefused | writeNothing | writeError | drained =>
    exact fits_idle
  | received chunk hio | packetsDone hio | packetEmpty hio | wrote n hio =>
    exact fits_owner rfl (hreg hio rfl)
  | packet hio =>
    have hd := hreg hio rfl
    refine fits_owner ?_ hd
    simp only
    split <;> rfl
  | readSubmitted hio hsub =>
    have hsame := submitRequestTask_registered hsub
    exact fits_owner rfl ((congrFun hsame _).trans (hreg hio rfl))
  | respondSilent | responded => exact fits_round _ (locals_sound (by simp))
  | respondedDeferred _ _ hresponse _ hids =>
    exact fits_round _ (locals_sound fun _ => ⟨hresponse, hids⟩)
  | sessionNone hio | sessionBound hio | sessionUnbound hio | pushesDone hio | crossDone hio
  | crossSubmitted hio | crossRefused hio => exact fits_round _ (hloc hio (by simp))
  | crossGone hio | crossRaised _ _ hio =>
    have hl := hloc hio (by simp)
    exact fits_round _ ⟨hl.deferred, hl.pushes, hl.same⟩
  | pushSkipped hio hpushes | pushFailed hio hpushes =>
    have hl := hloc hio (by simp)
    exact fits_round _ ⟨hl.deferred, fun q hq => hl.pushes q (by simp [hpushes, hq]), hl.same⟩
  | @pushed loc ops p rest hio hpushes _ _ hpayload =>
    have hl := hloc hio (by simp)
    have hrest : RespLocals.Sound { loc with pushes := rest } :=
      ⟨hl.deferred, fun q hq => hl.pushes q (by simp [hpushes, hq]), hl.same⟩
    exact fits_round _ (note_sound hrest (hl.pushes p (by simp [hpushes])) hpayload)
  | sameNone | sameDeferred => exact fits_finish _ _
  | eventFinished | eventWoke | finished =>
    unfold afterPop
    split
    · exact fits_drain _
    · exact fits_submitNext _ _ _
  | _ => exact fits_drain _

/-! ## The pool -/

/-- What the I/O thread does not touch except in `accept`. -/
def pool (s : Server) : Bool × List Worker × ConnId := (s.stopping, s.workers, s.nextConnId)

@[simp] theorem closeClientFd_io (b : Bool) : (s.closeClientFd d b).io = s.io := by
  unfold closeClientFd
  split
  · cases b <;> rfl
  · rfl

theorem closeClientFd_pool (b : Bool) : (s.closeClientFd d b).pool = s.pool := by
  unfold closeClientFd
  split
  · cases b <;> rfl
  · rfl

theorem submitRequestTask_pool {p : Bytes} (h : s.submitRequestTask d p b = some s') :
    s'.pool = s.pool := by
  unfold submitRequestTask at h
  split at h
  · cases h
  · cases h
    rfl

theorem ioStep_pool (h : s.ioStep env = some s') : s'.pool = s.pool := by
  obtain ⟨t, io, hstep, rfl⟩ := ioStep_cases h
  cases hstep with
  | readSubmitted _ hsub | nextSubmitted _ hsub =>
    have hpool := submitRequestTask_pool hsub
    exact hpool
  | readError | oversized | readRefused | writeError | remoteFailed | respondClosed
  | respondFailed | nextRefused | pushFailed => exact closeClientFd_pool _
  | _ => rfl

/-- A worker starts clearing only in a stopping server. -/
theorem workerStep_clearing {i : Nat} {o : Option HandleResult}
    (hc : ∀ d, Worker.clearing d ∈ s.workers → s.stopping = true)
    (h : s.workerStep i o = some s') (hw : Worker.clearing d ∈ s'.workers) :
    s'.stopping = true := by
  have hset : ∀ {w : Worker}, Worker.clearing d ∈ s.workers.set i w → w ≠ .clearing d →
      s.stopping = true := by
    intro w hmem hne
    rcases List.mem_or_eq_of_mem_set hmem with hmem | heq
    · exact hc d hmem
    · exact absurd heq.symm hne
  have herase : Worker.clearing d ∈ s.workers.eraseIdx i → s.stopping = true := fun hmem =>
    hc d (List.mem_of_mem_eraseIdx hmem)
  unfold workerStep at h
  split at h
  · cases h
  · cases h
    exact hset hw (by simp)
  · split at h
    · cases h
      exact hset hw (by simp)
    · cases h
      exact herase hw
  · cases h
    unfold enqueueResponseTask at hw ⊢
    split
    · assumption
    · rename_i hst
      rw [if_neg hst] at hw
      exact hset hw (by simp)
  · cases h
    exact hset hw (by simp)
  · cases h
    exact herase hw
  · cases h
    exact hset hw (by simp)
  · split at h
    · cases h
      exact herase hw
    · split at h
      · cases h
        exact hset hw (by simp)
      · cases h
        exact herase hw
  · cases h
    exact hset hw (by simp)
  · cases h
    exact herase hw
  · cases h
    exact herase hw

/-- Workers leave the I/O thread and the registrations alone. -/
theorem workerStep_io {i : Nat} {o : Option HandleResult} (h : s.workerStep i o = some s') :
    s'.registered = s.registered ∧ s'.io = s.io ∧ s'.nextConnId = s.nextConnId := by
  unfold workerStep enqueueResponseTask at h
  repeat' split at h
  all_goals cases h
  all_goals exact ⟨rfl, rfl, rfl⟩

theorem takeTask_sound (hs : s.Sound) (h : s.takeTask = some s') : s'.Sound := by
  unfold takeTask at h
  repeat' split at h
  all_goals cases h
  all_goals refine ⟨hs.io, fun d hw => hs.clearing d ?_⟩
  all_goals simpa [record, setHistory] using hw

theorem takeTask_nextConnId (h : s.takeTask = some s') : s'.nextConnId = s.nextConnId := by
  unfold takeTask at h
  repeat' split at h
  all_goals cases h
  all_goals rfl

/-- Connection ids are given out by `accept` only. -/
theorem step_nextConnId {l : Label} (h : s.step l = some s') (hl : ∀ peerIp, l ≠ .accept peerIp) :
    s'.nextConnId = s.nextConnId := by
  cases l with
  | accept peerIp => exact absurd rfl (hl peerIp)
  | io env => exact congrArg (·.2.2) (ioStep_pool h)
  | take => exact takeTask_nextConnId h
  | worker i o => exact (workerStep_io h).2.2
  | close d reason b =>
    simp only [step, eventStep] at h
    repeat' split at h
    all_goals cases h
    exact congrArg (·.2.2) (closeClientFd_pool b)
  | _ =>
    simp only [step, eventStep] at h
    repeat' split at h
    all_goals cases h
    all_goals rfl

end

/-- `Sound` is an inductive invariant. -/
theorem sound_inductive : lts.Inductive (fun _ _ => True) Sound where
  init := by
    rintro s rfl
    exact ⟨fits_idle, fun _ h => by simp at h⟩
  step := by
    intro s l s' hs _ hstep
    have hevent : ∀ l, (if s.io = .idle then s.eventStep l else none) = some s' → s'.Sound := by
      intro l h
      split at h
      · rename_i hio
        cases l with
        | accept peerIp =>
          cases h
          exact ⟨by rw [registerConnection, hio]; exact fits_idle, hs.clearing⟩
        | readable d | writable d =>
          simp only [eventStep] at h
          split at h
          · rename_i hreg
            cases h
            exact ⟨fits_owner (d := d) rfl hreg, hs.clearing⟩
          · cases h
        | workerResult =>
          cases h
          exact ⟨fits_drain _, hs.clearing⟩
        | close d reason b =>
          simp only [eventStep] at h
          split at h
          · cases h
            have hpool : (s.closeClientFd d b).pool = s.pool := closeClientFd_pool b
            simp only [pool, Prod.mk.injEq] at hpool
            refine ⟨?_, fun e hw => ?_⟩
            · rw [closeClientFd_io, hio]
              exact fits_idle
            · rw [hpool.1]
              exact hs.clearing e (hpool.2.1 ▸ hw)
          · cases h
        | _ => cases h
      · cases h
    cases l with
    | io env =>
      have hpool := ioStep_pool hstep
      simp only [pool, Prod.mk.injEq] at hpool
      refine ⟨ioStep_fits hs.io hstep, fun e hw => ?_⟩
      rw [hpool.1]
      exact hs.clearing e (hpool.2.1 ▸ hw)
    | take => exact takeTask_sound hs hstep
    | worker i o =>
      obtain ⟨hreg, hio, _⟩ := workerStep_io hstep
      exact ⟨by rw [hreg, hio]; exact hs.io, fun _ => workerStep_clearing hs.clearing hstep⟩
    | remotePush e =>
      cases hstep
      exact ⟨hs.io, hs.clearing⟩
    | stop =>
      cases hstep
      exact ⟨hs.io, fun _ _ => rfl⟩
    | accept peerIp | readable d | writable d | workerResult | close d reason b =>
      exact hevent _ hstep

end Server
end ChatServer.Net
