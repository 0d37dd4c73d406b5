import ChatServer.Net.ConnectionContext
import ChatServer.Net.ConnectionTables

/-!
# The timeout scanner

`scanConnectionTimeouts` over `timeout_scan_queue_`. The queue is filled by
`registerConnection` only and emptied by the scanner only: a close leaves a
stale number in it. Everything here runs on the I/O thread, so a scan is one
step.

* `scanLoop` — the loop over a batch of the queue, with the connections it
  looked at;
* `Queued` — every registered connection is in the queue, no number is twice;
* `Queued.scanLoop` — a batch leaves the queue at the front and what stays is
  appended, so a number moves forward by a whole batch with each scan.
-/

namespace ChatServer.Net

/-- The times of `ConnectionMeta` the scanner reads, in nanoseconds of the
steady clock. -/
structure ConnectionMeta where
  lastRecvAt : Int := 0
  lastSendAt : Int := 0
  lastActiveAt : Int := 0

structure TimeoutOptions where
  idleTimeoutMs : Nat := 300000
  heartbeatTimeoutMs : Nat := 90000

def kMaxTimeoutScanBatch : Nat := 256

/-- The tables, the contexts and the queue of the scanner. -/
structure TimeoutScan where
  tables : ConnectionTables := {}
  contexts : ContextPtr → ConnectionContext := fun _ => {}
  metas : ContextPtr → ConnectionMeta := fun _ => {}
  timeoutScanQueue : List ConnId := []

inductive ScanLabel
  /-- an operation on the tables; a new context takes its times from the clock -/
  | table (l : TableLabel) (now : Int)
  /-- a connection receives, sends or works on a request -/
  | traffic (p : ContextPtr) (context : ConnectionContext) (times : ConnectionMeta)
  | scanConnectionTimeouts (now : Int)

namespace TimeoutScan

/-- `duration_cast<milliseconds>`. -/
def millis (duration : Int) : Int := duration.tdiv 1000000

/-- The test of one context: the reason to close it, if any. -/
def timeoutReason (opts : TimeoutOptions) (now : Int) (authenticatedUserId : UserId)
    (context : ConnectionContext) (times : ConnectionMeta) : Option String :=
  if context.shouldDeferTimeout then none
  else if opts.idleTimeoutMs ≤ millis (now - max times.lastRecvAt times.lastSendAt) then
    some "idle_timeout"
  else if authenticatedUserId > 0 ∧
      opts.heartbeatTimeoutMs ≤ millis (now - times.lastActiveAt) then
    some "heartbeat_timeout"
  else none

/-- The scanner when an operation has left the tables as `t`:
`registerConnection` makes a context and queues it. -/
def afterTable (s : TimeoutScan) (now : Int) (t : ConnectionTables) : TableLabel → TimeoutScan
  | .registerConnection _ =>
    { tables := t
      contexts := Function.update s.contexts s.tables.allocated {}
      metas := Function.update s.metas s.tables.allocated ⟨now, now, now⟩
      timeoutScanQueue := s.timeoutScanQueue ++ [s.tables.nextConnId] }
  | _ => { s with tables := t }

/-- The rest of the loop body, for a connection that has a context. -/
def examine (opts : TimeoutOptions) (now : Int) (s : TimeoutScan) (connId : ConnId)
    (p : ContextPtr) : TimeoutScan :=
  match timeoutReason opts now (s.tables.objects p).authenticatedUserId (s.contexts p)
      (s.metas p) with
  | some _ => { s with tables := s.tables.closeClientFd (s.tables.objects p).fd }
  | none =>
    if (s.tables.connections connId).isSome then
      { s with timeoutScanQueue := s.timeoutScanQueue ++ [connId] }
    else s

/-- The loop of `scanConnectionTimeouts`, and the connections whose context it
found. -/
def scanLoop (opts : TimeoutOptions) (now : Int) : Nat → TimeoutScan → TimeoutScan × List ConnId
  | 0, s => (s, [])
  | n + 1, s =>
    match s.timeoutScanQueue with
    | [] => (s, [])
    | connId :: rest =>
      let s := { s with timeoutScanQueue := rest }
      match s.tables.connections connId with
      | none => scanLoop opts now n s
      | some p =>
        let r := scanLoop opts now n (examine opts now s connId p)
        (r.1, connId :: r.2)

def scanCount (s : TimeoutScan) : Nat := min kMaxTimeoutScanBatch s.timeoutScanQueue.length

/-- `scanConnectionTimeouts`. -/
def scanConnectionTimeouts (opts : TimeoutOptions) (now : Int) (s : TimeoutScan) : TimeoutScan :=
  (scanLoop opts now s.scanCount s).1

/-- The connections a scan looks at. -/
def examined (opts : TimeoutOptions) (now : Int) (s : TimeoutScan) : List ConnId :=
  (scanLoop opts now s.scanCount s).2

def step (opts : TimeoutOptions) (s : TimeoutScan) : ScanLabel → Option TimeoutScan
  | .table l now => (s.tables.step l).map fun t => s.afterTable now t l
  | .traffic p context times =>
    some
      { s with
        contexts := Function.update s.contexts p context
        metas := Function.update s.metas p times }
  | .scanConnectionTimeouts now => some (s.scanConnectionTimeouts opts now)

/-- A server that starts. -/
def lts (opts : TimeoutOptions) : Base.Lts TimeoutScan ScanLabel where
  Init s := s = {}
  step := step opts

/-- The connection is in `connections_`. -/
def Registered (s : TimeoutScan) (c : ConnId) : Prop := (s.tables.connections c).isSome = true

instance (s : TimeoutScan) (c : ConnId) : Decidable (s.Registered c) :=
  inferInstanceAs (Decidable (_ = true))

variable {opts : TimeoutOptions} {now : Int} {s s' : TimeoutScan} {c : ConnId} {p : ContextPtr}

/-! ## One connection -/

/-- Every registered connection is in the queue, and no number is in it twice
or was not given out. -/
structure Queued (s : TimeoutScan) : Prop where
  indexed : s.tables.Indexed
  nodup : s.timeoutScanQueue.Nodup
  given : ∀ c ∈ s.timeoutScanQueue, c < s.tables.nextConnId
  listed : ∀ c, s.Registered c → c ∈ s.timeoutScanQueue

/-- Closing a registered context takes out its own connection only. -/
theorem closeClientFd_registered {t : ConnectionTables} (h : t.Indexed)
    (hc : t.connections c = some p) :
    (t.closeClientFd (t.objects p).fd).Indexed ∧
      (t.closeClientFd (t.objects p).fd).nextConnId = t.nextConnId ∧
      (t.closeClientFd (t.objects p).fd).connections =
        Function.update t.connections c none := by
  obtain ⟨hp, hid⟩ := h.ofConnId c p hc
  have hconn : t.connections (t.objects p).connId = some p := hid ▸ hc
  have hfd : t.fdToContext (t.objects p).fd = some p := (h.same p hp).mp hconn
  have hclose : t.closeClientFd (t.objects p).fd =
      ((t.eraseIndex p).dropAuthenticated p).closeConnection p := by
    simp only [ConnectionTables.closeClientFd, hfd, ConnectionTables.unregisterConnection,
      if_pos hconn]
  rw [hclose]
  refine ⟨?_, rfl, ?_⟩
  · exact (h.close ⟨hp, hconn⟩).congr rfl rfl rfl rfl fun _ => ⟨rfl, rfl⟩
  · rw [← hid]
    rfl

/-- The state after one round of the loop that took `c` off the queue. -/
structure Round (c : ConnId) (rest : List ConnId) (s s' : TimeoutScan) : Prop where
  queued : Queued s'
  queue : ∃ kept, s'.timeoutScanQueue = rest ++ kept
  others : ∀ c', c' ≠ c → (s'.Registered c' ↔ s.Registered c')

/-- A stale number is dropped. -/
theorem Queued.stale {rest : List ConnId} (h : Queued s) (hqueue : s.timeoutScanQueue = c :: rest)
    (hc : s.tables.connections c = none) :
    Round c rest s { s with timeoutScanQueue := rest } := by
  have hnodup := h.nodup
  rw [hqueue] at hnodup
  refine ⟨⟨h.indexed, hnodup.of_cons, fun c' hc' => ?_, fun c' hc' => ?_⟩, ⟨[], ?_⟩,
    fun _ _ => Iff.rfl⟩
  · exact h.given c' (hqueue ▸ List.mem_cons_of_mem c hc')
  · have hmem := h.listed c' hc'
    rw [hqueue] at hmem
    obtain rfl | hmem := List.mem_cons.mp hmem
    · have hsome : (s.tables.connections c').isSome = true := hc'
      rw [hc] at hsome
      cases hsome
    · exact hmem
  · exact (List.append_nil rest).symm

/-- A context that is looked at is closed, or its number goes to the back. -/
theorem Queued.examine {rest : List ConnId} (opts : TimeoutOptions) (now : Int) (h : Queued s)
    (hqueue : s.timeoutScanQueue = c :: rest) (hc : s.tables.connections c = some p) :
    Round c rest s (examine opts now { s with timeoutScanQueue := rest } c p) := by
  have hnodup := h.nodup
  rw [hqueue] at hnodup
  obtain ⟨hnot, hrest⟩ := List.nodup_cons.mp hnodup
  have hgiven : ∀ c' ∈ c :: rest, c' < s.tables.nextConnId := hqueue ▸ h.given
  have hlisted : ∀ c', s.Registered c' → c' ∈ c :: rest := hqueue ▸ h.listed
  unfold TimeoutScan.examine
  split
  · obtain ⟨hindexed, hnext, hconns⟩ := closeClientFd_registered h.indexed hc
    have hothers : ∀ c', c' ≠ c →
        ((s.tables.closeClientFd (s.tables.objects p).fd).connections c' =
          s.tables.connections c') := fun c' hne => by
      rw [hconns, Function.update_of_ne hne]
    refine ⟨⟨hindexed, hrest, fun c' hc' => ?_, fun c' hc' => ?_⟩, ⟨[], ?_⟩, fun c' hne => ?_⟩
    · show c' < (s.tables.closeClientFd _).nextConnId
      rw [hnext]
      exact hgiven c' (List.mem_cons_of_mem c hc')
    · have hsome : ((s.tables.closeClientFd (s.tables.objects p).fd).connections c').isSome = true :=
        hc'
      by_cases hne : c' = c
      · rw [hne, hconns, Function.update_self] at hsome
        cases hsome
      · rw [hothers c' hne] at hsome
        obtain rfl | hmem := List.mem_cons.mp (hlisted c' hsome)
        · exact absurd rfl hne
        · exact hmem
    · exact (List.append_nil rest).symm
    · show (_ : Option ContextPtr).isSome = true ↔ _
      rw [hothers c' hne]
      rfl
  · rw [if_pos (by rw [hc]; rfl)]
    have hperm : (rest ++ [c]).Perm (c :: rest) := List.perm_append_singleton c rest
    refine ⟨⟨h.indexed, hperm.nodup_iff.mpr hnodup, fun c' hc' => ?_, fun c' hc' => ?_⟩,
      ⟨[c], rfl⟩, fun _ _ => Iff.rfl⟩
    · exact hgiven c' (hperm.mem_iff.mp hc')
    · exact hperm.mem_iff.mpr (hlisted c' hc')

/-! ## One scan -/

/-- A batch leaves the queue at the front, and its registered connections are
looked at. -/
theorem Queued.scanLoop (opts : TimeoutOptions) (now : Int) {n : Nat} (h : Queued s)
    (hn : n ≤ s.timeoutScanQueue.length) :
    Queued (scanLoop opts now n s).1 ∧
      (∃ kept, (scanLoop opts now n s).1.timeoutScanQueue = s.timeoutScanQueue.drop n ++ kept) ∧
      ∀ c ∈ s.timeoutScanQueue.take n, s.Registered c → c ∈ (scanLoop opts now n s).2 := by
  induction n generalizing s with
  | zero => exact ⟨h, ⟨[], (List.append_nil _).symm⟩, fun _ hc => nomatch hc⟩
  | succ n ih =>
    cases hqueue : s.timeoutScanQueue with
    | nil => rw [hqueue] at hn; cases hn
    | cons c rest =>
      have hle : n ≤ rest.length := by
        rw [hqueue] at hn
        exact Nat.le_of_succ_le_succ hn
      have hnodup := h.nodup
      rw [hqueue] at hnodup
      -- the round leaves the rest of the queue, and of the connections, alone
      have hround : ∀ s', Round c rest s s' →
          Queued (TimeoutScan.scanLoop opts now n s').1 ∧
            (∃ kept, (TimeoutScan.scanLoop opts now n s').1.timeoutScanQueue =
              rest.drop n ++ kept) ∧
            ∀ c' ∈ rest.take n, s.Registered c' →
              c' ∈ (TimeoutScan.scanLoop opts now n s').2 := by
        rintro s' ⟨hqueued, ⟨kept, hkept⟩, hothers⟩
        have hlen : n ≤ s'.timeoutScanQueue.length := by
          rw [hkept, List.length_append]
          omega
        obtain ⟨hend, ⟨back, hback⟩, hseen⟩ := ih hqueued hlen
        refine ⟨hend, ⟨kept ++ back, ?_⟩, fun c' hc' hreg => ?_⟩
        · rw [hback, hkept, List.drop_append_of_le_length hle, List.append_assoc]
        · have hne : c' ≠ c := fun heq =>
            (List.nodup_cons.mp hnodup).1 (heq ▸ List.mem_of_mem_take hc')
          refine hseen c' ?_ ((hothers c' hne).mpr hreg)
          rw [hkept, List.take_append_of_le_length hle]
          exact hc'
      rw [TimeoutScan.scanLoop, hqueue]
      dsimp only
      cases hc : s.tables.connections c with
      | none =>
        obtain ⟨hend, hkept, hseen⟩ := hround _ (h.stale hqueue hc)
        refine ⟨hend, hkept, fun c' hc' hreg => ?_⟩
        rw [List.take_succ_cons] at hc'
        obtain rfl | hc' := List.mem_cons.mp hc'
        · have hsome : (s.tables.connections c').isSome = true := hreg
          rw [hc] at hsome
          cases hsome
        · exact hseen c' hc' hreg
      | some p =>
        obtain ⟨hend, hkept, hseen⟩ := hround _ (h.examine opts now hqueue hc)
        refine ⟨hend, hkept, fun c' hc' hreg => ?_⟩
        rw [List.take_succ_cons] at hc'
        obtain rfl | hc' := List.mem_cons.mp hc'
        · exact List.mem_cons_self
        · exact List.mem_cons_of_mem _ (hseen c' hc' hreg)

theorem Queued.scan (h : Queued s) (opts : TimeoutOptions) (now : Int) :
    Queued (s.scanConnectionTimeouts opts now) ∧
      (∃ kept, (s.scanConnectionTimeouts opts now).timeoutScanQueue =
        s.timeoutScanQueue.drop kMaxTimeoutScanBatch ++ kept) ∧
      ∀ c ∈ s.timeoutScanQueue.take kMaxTimeoutScanBatch, s.Registered c →
        c ∈ s.examined opts now := by
  have hcount : s.scanCount ≤ s.timeoutScanQueue.length := Nat.min_le_right _ _
  have hdrop : s.timeoutScanQueue.drop s.scanCount =
      s.timeoutScanQueue.drop kMaxTimeoutScanBatch := by
    unfold scanCount
    rcases Nat.le_total kMaxTimeoutScanBatch s.timeoutScanQueue.length with hle | hle
    · rw [Nat.min_eq_left hle]
    · rw [Nat.min_eq_right hle, List.drop_length, List.drop_eq_nil_of_le hle]
  have htake : s.timeoutScanQueue.take s.scanCount =
      s.timeoutScanQueue.take kMaxTimeoutScanBatch := by
    unfold scanCount
    rw [← List.take_eq_take_min]
  have hloop := h.scanLoop opts now hcount
  rwa [hdrop, htake] at hloop

/-! ## Every run -/

theorem afterTable_of_ne {l : TableLabel} {t : ConnectionTables}
    (h : ∀ fd, l ≠ .registerConnection fd) : s.afterTable now t l = { s with tables := t } := by
  cases l with
  | registerConnection fd => exact absurd rfl (h fd)
  | closeClientFd fd => rfl
  | bindAuthenticatedConnection p u => rfl
  | unbindAuthenticatedConnection p => rfl

/-- A new connection is queued; its number was not in use. -/
theorem Queued.register {fd : Fd} (h : Queued s)
    (hindexed : (s.tables.registerConnection fd).Indexed) :
    Queued (s.afterTable now (s.tables.registerConnection fd) (.registerConnection fd)) := by
  have hnew : s.tables.nextConnId ∉ s.timeoutScanQueue := fun hmem =>
    Nat.lt_irrefl _ (h.given _ hmem)
  refine ⟨hindexed, ?_, fun c hc => ?_, fun c hc => ?_⟩
  · exact List.nodup_append.mpr ⟨h.nodup, List.nodup_singleton _, fun a ha b hb hab =>
      hnew (List.mem_singleton.mp hb ▸ hab ▸ ha)⟩
  · show c < s.tables.nextConnId + 1
    obtain hc | hc := List.mem_append.mp hc
    · exact Nat.lt_succ_of_lt (h.given c hc)
    · rw [List.mem_singleton.mp hc]
      exact Nat.lt_succ_self _
  · by_cases hself : c = s.tables.nextConnId
    · rw [hself]
      exact List.mem_append_right _ (List.mem_singleton_self _)
    · have hold : (Function.update s.tables.connections _ _ c).isSome = true := hc
      rw [Function.update_of_ne hself] at hold
      exact List.mem_append_left _ (h.listed c hold)

theorem Queued.step {l : ScanLabel} (h : Queued s) (hstep : step opts s l = some s') :
    Queued s' := by
  cases l with
  | traffic p context times =>
    obtain rfl := Option.some.inj hstep
    exact ⟨h.indexed, h.nodup, h.given, h.listed⟩
  | scanConnectionTimeouts now =>
    obtain rfl := Option.some.inj hstep
    exact (h.scan opts now).1
  | table l now =>
    obtain ⟨t, ht, rfl⟩ := Option.map_eq_some_iff.mp hstep
    have hindexed := h.indexed.step ht
    obtain ⟨fd, rfl, rfl⟩ | ⟨hother, hnext, hconns⟩ :=
      ConnectionTables.step_connections h.indexed ht
    · exact h.register hindexed
    · rw [afterTable_of_ne hother]
      exact ⟨hindexed, h.nodup, fun c hc => hnext ▸ h.given c hc,
        fun c hc => h.listed c (hconns c hc)⟩

theorem inductive_queued (opts : TimeoutOptions) :
    (lts opts).Inductive (fun _ _ => True) Queued where
  init s hs := by
    subst hs
    have htables := ConnectionTables.inductive_coherent.init {} rfl
    exact ⟨htables.1, .nil, nofun, nofun⟩
  step s l s' h _ hstep := h.step hstep

/-- Calls of `scanConnectionTimeouts`. -/
def isScan : ScanLabel → Bool
  | .scanConnectionTimeouts _ => true
  | _ => false

/-- Apart from a scan, the queue grows at its end only. -/
theorem step_queue {l : ScanLabel} (h : Queued s) (hscan : isScan l = false)
    (hstep : step opts s l = some s') :
    ∃ new, s'.timeoutScanQueue = s.timeoutScanQueue ++ new := by
  cases l with
  | scanConnectionTimeouts now => cases hscan
  | traffic p context times =>
    obtain rfl := Option.some.inj hstep
    exact ⟨[], (List.append_nil _).symm⟩
  | table l now =>
    obtain ⟨t, ht, rfl⟩ := Option.map_eq_some_iff.mp hstep
    obtain ⟨fd, rfl, -⟩ | ⟨hother, -, -⟩ := ConnectionTables.step_connections h.indexed ht
    · exact ⟨[s.tables.nextConnId], rfl⟩
    · rw [afterTable_of_ne hother]
      exact ⟨[], (List.append_nil _).symm⟩

/-- The scan that reaches position `q`: each one before moves the number
forward by a batch. -/
theorem exists_scan {q : Nat} {ls : List ScanLabel} {t : TimeoutScan} (h : Queued s)
    (hq : s.timeoutScanQueue[q]? = some c) (hrun : (lts opts).run s ls = some t)
    (hcount : ls.countP isScan = q / kMaxTimeoutScanBatch + 1) :
    ∃ before now after s', ls = before ++ .scanConnectionTimeouts now :: after ∧
      (lts opts).run s before = some s' ∧ (s'.Registered c → c ∈ s'.examined opts now) := by
  induction ls generalizing s q with
  | nil => cases hcount
  | cons l ls ih =>
    obtain ⟨s₁, hstep, hrest⟩ := Option.bind_eq_some_iff.mp hrun
    -- what a later scan does for the state after `l`
    have hlater : (∃ before now after s', ls = before ++ .scanConnectionTimeouts now :: after ∧
        (lts opts).run s₁ before = some s' ∧ (s'.Registered c → c ∈ s'.examined opts now)) →
        ∃ before now after s', l :: ls = before ++ .scanConnectionTimeouts now :: after ∧
          (lts opts).run s before = some s' ∧
            (s'.Registered c → c ∈ s'.examined opts now) := by
      rintro ⟨before, now, after, s', rfl, hbefore, hexamined⟩
      refine ⟨l :: before, now, after, s', rfl, ?_, hexamined⟩
      exact Option.bind_eq_some_iff.mpr ⟨s₁, hstep, hbefore⟩
    have hlt : q < s.timeoutScanQueue.length := (List.getElem?_eq_some_iff.mp hq).1
    cases hscan : isScan l with
    | false =>
      obtain ⟨new, hnew⟩ := step_queue h hscan hstep
      rw [List.countP_cons_of_neg (by simp [hscan])] at hcount
      refine hlater (ih (h.step hstep) ?_ hrest hcount)
      rw [hnew, List.getElem?_append_left hlt, hq]
    | true =>
      cases l with
      | table l now => cases hscan
      | traffic p context times => cases hscan
      | scanConnectionTimeouts now =>
        obtain rfl := Option.some.inj hstep
        obtain ⟨hqueued, ⟨kept, hkept⟩, hexamined⟩ := h.scan opts now
        rw [List.countP_cons_of_pos hscan] at hcount
        by_cases hbatch : q < kMaxTimeoutScanBatch
        · refine ⟨[], now, ls, s, rfl, rfl, hexamined c ?_⟩
          refine List.mem_of_getElem? (i := q) ?_
          rw [List.getElem?_take_of_lt hbatch, hq]
        · have hfar : kMaxTimeoutScanBatch ≤ q := Nat.le_of_not_lt hbatch
          refine hlater (ih (q := q - kMaxTimeoutScanBatch) hqueued ?_ hrest ?_)
          · rw [hkept, List.getElem?_append_left
              (by rw [List.length_drop]; omega), List.getElem?_drop,
              Nat.add_sub_cancel' hfar, hq]
          · have hdiv := Nat.sub_mul_div q kMaxTimeoutScanBatch 1
            rw [Nat.mul_one] at hdiv
            have hpos : 0 < q / kMaxTimeoutScanBatch := Nat.div_pos hfar (by decide)
            omega

/-- In every state the queue has each registered connection exactly once and no
number twice, and the connection at position `q` is looked at, unless it was
closed before, by one of the next `q / 256 + 1` scans. -/
theorem scanner_fair (hs : (lts opts).Reachable s) :
    s.timeoutScanQueue.Nodup ∧
      (∀ c, s.Registered c → s.timeoutScanQueue.count c = 1) ∧
      ∀ q c, s.timeoutScanQueue[q]? = some c → ∀ ls t, (lts opts).run s ls = some t →
        ls.countP isScan = q / 256 + 1 →
        ∃ before now after s', ls = before ++ .scanConnectionTimeouts now :: after ∧
          (lts opts).run s before = some s' ∧
            (s'.Registered c → c ∈ s'.examined opts now) := by
  have h := (inductive_queued opts).invariant hs
  refine ⟨h.nodup, fun c hc => ?_, fun q c hq ls t hrun hcount => exists_scan h hq hrun hcount⟩
  exact List.count_eq_one_of_mem h.nodup (h.listed c hc)

/-- Two connections, the first of them closed. -/
def oneClosed : List ScanLabel :=
  [.table (.registerConnection 5) 0, .table (.registerConnection 6) 0,
    .table (.closeClientFd 5) 0]

theorem scanner_fair_oneClosed :
    ∃ s, (lts {}).Reachable s ∧ s.timeoutScanQueue = [1, 2] ∧ ¬ s.Registered 1 ∧
      s.timeoutScanQueue.count 2 = 1 ∧ 2 ∈ s.examined {} 7 := by
  obtain ⟨s, hs, h⟩ := Base.Lts.exists_reach_of_run (M := lts {}) (s := {})
    (fun s => decide (s.timeoutScanQueue = [1, 2] ∧ ¬ s.Registered 1 ∧ s.Registered 2))
    oneClosed rfl Base.Lts.runOk_true (by decide +kernel)
  obtain ⟨hqueue, hclosed, hopen⟩ := of_decide_eq_true h
  obtain ⟨-, honce, hfair⟩ := scanner_fair hs
  refine ⟨s, hs, hqueue, hclosed, honce 2 hopen, ?_⟩
  obtain ⟨before, now, after, s', hls, hrun, hexamined⟩ :=
    hfair 1 2 (by rw [hqueue]; rfl) [.scanConnectionTimeouts 7] _ rfl rfl
  cases before with
  | nil =>
    obtain ⟨hlabel, -⟩ := List.cons.inj hls
    obtain rfl := ScanLabel.scanConnectionTimeouts.inj hlabel
    obtain rfl := Option.some.inj hrun
    exact hexamined hopen
  | cons l before => simp at hls

end TimeoutScan
end ChatServer.Net
