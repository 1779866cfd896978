import Mathlib
/-! `handleMsgBatch` of the shard repair manager (`unnamed/part_000`): one `handleOneMsg`
goroutine per message, in any interleaving with the collecting loop, and any repair error. -/

namespace BlobStore.Tinker

/-- `shardRepairStatus`. -/
inductive ShardRepairStatus where
  | done
  | failed
  | unexpect
  | orphan
  deriving DecidableEq, Repr

/-- The fields of `proto.ShardRepairMsg` (not in the sources) the manager reads: the job
(`Vid`, `Bid`, `BadIdx`) and `Retry`. -/
structure ShardRepairMsg where
  vid : Nat
  bid : Nat
  badIdx : List Nat
  retry : Nat
  deriving DecidableEq, Repr

/-- The errors of a result: that of `json.Unmarshal`, `proto.ErrInvalidMsg`, and that of the
repair, by its status code (`rpc.DetectStatusCode`). -/
inductive RetErr where
  | unmarshal
  | invalidMsg
  | repair (code : Int)
  deriving DecidableEq, Repr

/-- `shardRepairRet`. -/
structure ShardRepairRet where
  status : ShardRepairStatus
  err : Option RetErr
  repairMsg : Option ShardRepairMsg
  deriving DecidableEq, Repr

/-- `isOrphanShard` of the repair's error, by its status code; a nil error has the status of a
success, which is not `CodeOrphanShard`. -/
def isOrphanShard (codeOrphanShard : Int) : Option Int → Bool
  | some code => code == codeOrphanShard
  | none => false

/-- `handleOneMsg` for a message that decodes to `decoded`; `isValid` is `IsValid` (not in the
sources), and `repairErr` the code of the repair's error. -/
def handleOneMsg (codeOrphanShard : Int) (isValid : ShardRepairMsg → Bool)
    (decoded : Option ShardRepairMsg) (repairErr : Option Int) : ShardRepairRet :=
  match decoded with
  | none => ⟨.unexpect, some .unmarshal, none⟩
  | some repairMsg =>
    if isValid repairMsg = false then ⟨.unexpect, some .invalidMsg, none⟩
    else if isOrphanShard codeOrphanShard repairErr then
      ⟨.orphan, repairErr.map .repair, some repairMsg⟩
    else
      match repairErr with
      | some code => ⟨.failed, some (.repair code), some repairMsg⟩
      | none => ⟨.done, none, some repairMsg⟩

/-- The message `send2FailQueue` sends for `msg`: `msg` with `Retry` one higher. -/
def send2FailQueue (msg : ShardRepairMsg) : ShardRepairMsg := { msg with retry := msg.retry + 1 }

/-- What the collecting loop has done: its success and failure counters, the errors it counted,
and the messages `send2FailQueue` sent. -/
structure Collector where
  success : Nat
  failed : Nat
  errStats : List RetErr
  failQueue : List ShardRepairMsg
  deriving DecidableEq, Repr

namespace Collector

def init : Collector := ⟨0, 0, [], []⟩

/-- The body of the collecting loop for one result, the `switch ret.status`. The sends to the
fail queue are retried by `LoopExecUntilSuccess` until one succeeds. -/
def take (c : Collector) (ret : ShardRepairRet) : Collector :=
  match ret.status with
  | .done => { c with success := c.success + 1 }
  | .failed =>
    { c with
      failed := c.failed + 1, errStats := c.errStats ++ ret.err.toList,
      failQueue := c.failQueue ++ (ret.repairMsg.map send2FailQueue).toList }
  | .unexpect | .orphan =>
    { c with failed := c.failed + 1, errStats := c.errStats ++ ret.err.toList }

/-- The messages the fail queue gets for the results `rets`. -/
def failedMsgs (rets : List ShardRepairRet) : List ShardRepairMsg :=
  rets.flatMap fun r => if r.status = .failed then (r.repairMsg.map send2FailQueue).toList else []

/-- The errors `AddFail` gets for the results `rets`. -/
def failErrs (rets : List ShardRepairRet) : List RetErr :=
  rets.flatMap fun r => if r.status = .done then [] else r.err.toList

theorem foldl_take (rets : List ShardRepairRet) (c : Collector) :
    rets.foldl take c = ⟨c.success + rets.countP (·.status == .done),
      c.failed + rets.countP (·.status != .done), c.errStats ++ failErrs rets,
      c.failQueue ++ failedMsgs rets⟩ := by
  induction rets generalizing c with
  | nil => simp [failErrs, failedMsgs]
  | cons r rets ih =>
    rw [List.foldl_cons, ih]
    cases hs : r.status <;> simp [take, hs, failErrs, failedMsgs, List.countP_cons] <;> omega

end Collector

/-- A batch of `consumerAndRepair`: the value of each message `ConsumeMessages` returned, as
`json.Unmarshal` decodes it, in order. -/
structure BatchEnv where
  codeOrphanShard : Int
  isValid : ShardRepairMsg → Bool
  decoded : List (Option ShardRepairMsg)

/-- `consumerAndRepair` on one batch: `handleMsgBatch` with its handler goroutines, then the
commit of the offset. -/
structure BatchState where
  /-- Handlers handed to `taskPool.Run` so far, the index of the submitting loop. -/
  submitted : Nat
  /-- What each handler sent on `finishCh`; `none` while it has not. -/
  rets : List (Option ShardRepairRet)
  /-- The results buffered in `finishCh`, in the order they were sent. -/
  finishCh : List ShardRepairRet
  /-- The results the collecting loop has received, its index `i`. -/
  received : Nat
  coll : Collector
  /-- `consumer.CommitOffset` has succeeded. -/
  committed : Bool
  deriving DecidableEq, Repr

def BatchState.init (env : BatchEnv) : BatchState :=
  ⟨0, List.replicate env.decoded.length none, [], 0, Collector.init, false⟩

/-- One step of one goroutine of a batch. A handler's repair ends with any error `repairErr`. -/
inductive BatchStep (env : BatchEnv) : BatchState → BatchState → Prop where
  /-- The submitting loop hands the next message's handler to `taskPool.Run`. -/
  | submit {s : BatchState} (h : s.submitted < env.decoded.length) :
      BatchStep env s { s with submitted := s.submitted + 1 }
  /-- A submitted handler runs `handleOneMsg` and sends its result; a send waits while
  `finishCh` holds `len(msgs)` results. -/
  | handle {s : BatchState} (i : Nat) (repairErr : Option Int) (hi : i < s.submitted)
      (hr : s.rets[i]? = some none) (hc : s.finishCh.length < env.decoded.length) :
      BatchStep env s { s with
        rets := s.rets.set i (some (handleOneMsg env.codeOrphanShard env.isValid
          (env.decoded.getD i none) repairErr)),
        finishCh := s.finishCh ++ [handleOneMsg env.codeOrphanShard env.isValid
          (env.decoded.getD i none) repairErr] }
  /-- After the submitting loop, the collecting loop receives a result and takes it. -/
  | receive {s : BatchState} {ret : ShardRepairRet} {rest : List ShardRepairRet}
      (hs : s.submitted = env.decoded.length) (hr : s.received < env.decoded.length)
      (hc : s.finishCh = ret :: rest) :
      BatchStep env s
        { s with finishCh := rest, received := s.received + 1, coll := s.coll.take ret }
  /-- After the collecting loop, `LoopExecUntilSuccess` commits the consumer's offset. -/
  | commit {s : BatchState} (hs : s.submitted = env.decoded.length)
      (hr : s.received = env.decoded.length) (hc : s.committed = false) :
      BatchStep env s { s with committed := true }

/-- The states of every run of a batch. -/
inductive BatchReach (env : BatchEnv) : BatchState → Prop where
  | init : BatchReach env (BatchState.init env)
  | step {s s' : BatchState} : BatchReach env s → BatchStep env s s' → BatchReach env s'

section Results

variable {α : Type}

theorem filterMap_set_some {l : List (Option α)} {i : Nat} (h : l[i]? = some none) (r : α) :
    ((l.set i (some r)).filterMap id).Perm (l.filterMap id ++ [r]) := by
  induction l generalizing i with
  | nil => simp at h
  | cons a l ih =>
    cases i with
    | zero =>
      obtain rfl : a = none := by simpa using h
      simpa using (List.perm_append_singleton r _).symm
    | succ j =>
      cases a with
      | none => simpa using ih (by simpa using h)
      | some x => simpa using (ih (by simpa using h)).cons x

theorem eq_map_some_of_length {l : List (Option α)} (h : (l.filterMap id).length = l.length) :
    l = (l.filterMap id).map some := by
  induction l with
  | nil => rfl
  | cons a l ih =>
    cases a with
    | none =>
      have := List.length_filterMap_le id l
      simp at h
      omega
    | some x => simpa using ih (by simpa using h)

end Results

/-- What every run of a batch keeps: each result sent is `handleOneMsg` of its message, and the
results sent are, up to order, those taken followed by those still in `finishCh`. -/
structure BatchInv (env : BatchEnv) (s : BatchState) : Prop where
  length : s.rets.length = env.decoded.length
  submitted : s.submitted ≤ env.decoded.length
  results : ∀ i r, s.rets[i]? = some (some r) →
    ∃ e, r = handleOneMsg env.codeOrphanShard env.isValid (env.decoded.getD i none) e
  taken : ∃ taken : List ShardRepairRet, (s.rets.filterMap id).Perm (taken ++ s.finishCh) ∧
    s.coll = taken.foldl Collector.take Collector.init ∧ s.received = taken.length
  committed : s.committed = true → s.received = env.decoded.length

theorem BatchInv.init (env : BatchEnv) : BatchInv env (BatchState.init env) :=
  ⟨by simp [BatchState.init], Nat.zero_le _, fun i r h => by
    simp only [BatchState.init, List.getElem?_replicate] at h
    split at h <;> simp at h,
    ⟨[], by simp [BatchState.init], rfl, rfl⟩, nofun⟩

theorem BatchInv.step {env : BatchEnv} {s s' : BatchState} (hi : BatchInv env s)
    (hs : BatchStep env s s') : BatchInv env s' := by
  obtain ⟨hlen, hsub, hres, ⟨taken, hperm, hcoll, hrec⟩, hcom⟩ := hi
  cases hs with
  | submit h => exact ⟨hlen, h, hres, ⟨taken, hperm, hcoll, hrec⟩, hcom⟩
  | handle i e _ hr _ =>
    refine ⟨by simpa using hlen, hsub, fun j r hj => ?_,
      ⟨taken, ((filterMap_set_some hr _).trans (hperm.append_right _)).trans
        (by rw [List.append_assoc]), hcoll, hrec⟩, hcom⟩
    rw [List.getElem?_set] at hj
    split_ifs at hj with hij
    · subst hij
      exact ⟨e, by simpa using hj.symm⟩
    · exact hres j r hj
  | @receive ret rest _ hr hc =>
    refine ⟨hlen, hsub, hres, ⟨taken ++ [ret], ?_, by simp [hcoll], by simp [hrec]⟩,
      fun h => absurd (hcom h) (Nat.ne_of_lt hr)⟩
    rw [hc] at hperm
    simpa using hperm
  | commit _ hr _ => exact ⟨hlen, hsub, hres, ⟨taken, hperm, hcoll, hrec⟩, fun _ => hr⟩

theorem BatchReach.inv {env : BatchEnv} {s : BatchState} (hr : BatchReach env s) :
    BatchInv env s := by
  induction hr with
  | init => exact BatchInv.init env
  | step _ hs ih => exact ih.step hs

/-- At commit every message's result is counted once, success or failure, and the errors and
fail-queue messages are those of the results, whatever order they arrived in. -/
theorem handleMsgBatch_counts_each_once {env : BatchEnv} {s : BatchState}
    (hr : BatchReach env s) (hc : s.committed = true) :
    ∃ results : List ShardRepairRet, s.rets = results.map some ∧
      (∀ i r, results[i]? = some r →
        ∃ e, r = handleOneMsg env.codeOrphanShard env.isValid (env.decoded.getD i none) e) ∧
      s.coll.success = results.countP (·.status == .done) ∧
      s.coll.success + s.coll.failed = env.decoded.length ∧
      s.coll.errStats.Perm (Collector.failErrs results) ∧
      s.coll.failQueue.Perm (Collector.failedMsgs results) := by
  obtain ⟨hlen, -, hres, ⟨taken, hperm, hcoll, hrec⟩, hcom⟩ := hr.inv
  have hn := hcom hc
  have hle := List.length_filterMap_le id s.rets
  have hsum := hperm.length_eq
  rw [List.length_append] at hsum
  rw [List.eq_nil_of_length_eq_zero (l := s.finishCh) (by omega), List.append_nil] at hperm
  have hall := eq_map_some_of_length (l := s.rets) (by omega)
  have hsplit := List.length_eq_countP_add_countP (·.status == .done) taken
  refine ⟨s.rets.filterMap id, hall,
    fun i r h => hres i r (by rw [hall, List.getElem?_map, h]; rfl), ?_, ?_, ?_, ?_⟩ <;>
    rw [hcoll, Collector.foldl_take]
  · simpa [Collector.init] using hperm.symm.countP_eq _
  · simp only [Bool.not_eq_true, Bool.decide_eq_false] at hsplit
    simp only [Collector.init, Nat.zero_add, bne]
    omega
  · simpa [Collector.init, Collector.failErrs] using hperm.symm.flatMap_right _
  · simpa [Collector.init, Collector.failedMsgs] using hperm.symm.flatMap_right _

/-- A batch of two messages: a valid one, and one that does not decode. -/
def twoMsgEnv : BatchEnv := ⟨933, fun _ => true, [some ⟨1, 2, [3], 0⟩, none]⟩

/-- The batch of `twoMsgEnv` after the first repair failed with status 500 and the offset was
committed. -/
def committedBatch : BatchState :=
  ⟨2, [some ⟨.failed, some (.repair 500), some ⟨1, 2, [3], 0⟩⟩,
      some ⟨.unexpect, some .unmarshal, none⟩], [], 2,
    ⟨0, 2, [.repair 500, .unmarshal], [⟨1, 2, [3], 1⟩]⟩, true⟩

theorem committedBatch_reachable : BatchReach twoMsgEnv committedBatch :=
  .step (.step (.step (.step (.step (.step (.step .init
    (.submit (by decide))) (.submit (by decide))) (.handle 0 (some 500) (by decide) rfl (by decide)))
    (.handle 1 none (by decide) rfl (by decide))) (.receive rfl (by decide) rfl))
    (.receive rfl (by decide) rfl)) (.commit rfl rfl rfl)

theorem handleMsgBatch_counts_each_once_committedBatch :
    BatchReach twoMsgEnv committedBatch ∧ committedBatch.committed = true ∧
      ∃ results : List ShardRepairRet, committedBatch.rets = results.map some ∧
        (∀ i r, results[i]? = some r → ∃ e, r = handleOneMsg twoMsgEnv.codeOrphanShard
          twoMsgEnv.isValid (twoMsgEnv.decoded.getD i none) e) ∧
        committedBatch.coll.success = results.countP (·.status == .done) ∧
        committedBatch.coll.success + committedBatch.coll.failed = twoMsgEnv.decoded.length ∧
        committedBatch.coll.errStats.Perm (Collector.failErrs results) ∧
        committedBatch.coll.failQueue.Perm (Collector.failedMsgs results) :=
  ⟨committedBatch_reachable, rfl,
    handleMsgBatch_counts_each_once committedBatch_reachable rfl⟩

/-- Handlers not yet submitted, results not yet sent, results not yet received, and the
commit. -/
def BatchState.measure (env : BatchEnv) (s : BatchState) : Nat :=
  (env.decoded.length - s.submitted) + (s.rets.length - (s.rets.filterMap id).length) +
    (env.decoded.length - s.received) + (if s.committed then 0 else 1)

theorem BatchStep.measure_lt {env : BatchEnv} {s s' : BatchState} (h : BatchStep env s s') :
    s'.measure env < s.measure env := by
  cases h with
  | submit h => simp only [BatchState.measure]; omega
  | handle i e _ hr _ =>
    have hp := (filterMap_set_some hr (handleOneMsg env.codeOrphanShard env.isValid
      (env.decoded.getD i none) e)).length_eq
    have := List.length_filterMap_le id (s.rets.set i (some (handleOneMsg env.codeOrphanShard
      env.isValid (env.decoded.getD i none) e)))
    simp only [List.length_append, List.length_singleton, List.length_set] at hp this
    simp only [BatchState.measure, List.length_set]
    omega
  | receive _ hr _ => simp only [BatchState.measure]; omega
  | commit _ _ hc => simp [BatchState.measure, hc]

end BlobStore.Tinker
