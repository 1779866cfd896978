import BlobStore.Access.Location
import BlobStore.ClusterMgr.Config

/-! `worker/task_runner.go` as goroutines in any interleaving: `Run`, one per tasklet, one per
`Stop` call, and the caller, who may cancel the context. The task pool (not in the sources) is
not modelled, so every interleaving it allows is included. -/

namespace BlobStore.Worker

open BlobStore.Access (u64 u64sub)
open BlobStore.ClusterMgr (toInt64)

/-- The constants `TaskInit`, `TaskRunning`, `TaskStopping`, `TaskSuccess` and `TaskStopped`,
the values `TaskState.state` takes. -/
inductive TaskStatus where
  | init
  | running
  | stopping
  | success
  | stopped
  deriving DecidableEq, Repr

/-- `TaskState.stoppedState`. -/
def stoppedState : TaskStatus → Bool
  | .success | .stopped => true
  | _ => false

/-- `TaskState.alive`. -/
def alive : TaskStatus → Bool
  | .init | .running => true
  | _ => false

/-- `TaskState.setStatus`: the new state of `state` after `setStatus(s)`. -/
def setStatus (state s : TaskStatus) : TaskStatus :=
  if s = state then state
  else if s = .running ∧ stoppedState state = true then state
  else s

/-- `WokeErrorType`. -/
inductive WokeErrorType where
  | dstErr
  | srcErr
  | otherErr
  deriving DecidableEq, Repr

/-- An `error` as the runner reads it: the code `rpc.DetectStatusCode` finds in it and its
text (`Error()`). -/
structure Err where
  code : Int
  text : String
  deriving DecidableEq, Repr

/-- `WorkError`. Its `err` is never `nil`: `genWorkError` returns `nil` for a `nil` error. -/
structure WorkError where
  errType : WokeErrorType
  err : Err
  deriving DecidableEq, Repr

/-- `WorkError.Error`. -/
def WorkError.error (e : WorkError) : String := e.err.text

def statusInterrupt : Int := 596

/-- `ShouldReclaim`; `codeOverload` is `comerrors.CodeOverload`. -/
def shouldReclaim (codeOverload : Int) (e : WorkError) : Bool :=
  if e.errType ≠ .dstErr then false
  else if e.err.code = statusInterrupt then false
  else if e.err.code = codeOverload then false
  else true

/-- `OtherError(errKilled)`, the failure `Stop` reports; `code` is the status code
`rpc.DetectStatusCode` gives `errKilled`. -/
def killedError (code : Int) : WorkError := ⟨.otherErr, ⟨code, "task killed"⟩⟩

/-- `ShardInfoSimple` (not in the sources): the runner reads only its `Size`. -/
structure ShardInfoSimple where
  size : Int
  deriving DecidableEq, Repr

/-- `uint64(x)` of a signed integer. -/
def toUint64 (x : Int) : Nat := (x % 2 ^ 64).toNat

structure Tasklet where
  bids : List ShardInfoSimple
  deriving DecidableEq, Repr

/-- The loop `dataSize += uint64(info.Size)` that `DataSizeByte` and `totalDataSizeAndShardCnt`
both run. -/
def sumSize (bids : List ShardInfoSimple) : Nat :=
  bids.foldl (fun dataSize info => u64 (dataSize + toUint64 info.size)) 0

/-- `Tasklet.DataSizeByte`. -/
def Tasklet.dataSizeByte (t : Tasklet) : Nat := sumSize t.bids

/-- `totalDataSizeAndShardCnt`. -/
def totalDataSizeAndShardCnt (bids : List ShardInfoSimple) : Nat × Nat :=
  (sumSize bids, u64 bids.length)

/-- The inner copying loop of `totalDataSizeAndShardCntByTasklets`: `bids[idx] = bid; idx++`. -/
def copyBids : List ShardInfoSimple → List (Option ShardInfoSimple) × Nat →
    List (Option ShardInfoSimple) × Nat
  | [], acc => acc
  | bid :: rest, (bids, idx) => copyBids rest (bids.set idx (some bid), idx + 1)

/-- The outer copying loop of `totalDataSizeAndShardCntByTasklets`. -/
def copyTasklets : List Tasklet → List (Option ShardInfoSimple) × Nat →
    List (Option ShardInfoSimple) × Nat
  | [], acc => acc
  | tasklet :: rest, acc => copyTasklets rest (copyBids tasklet.bids acc)

/-- `totalDataSizeAndShardCntByTasklets`: the bids are copied into a slice of `nil` pointers of
the right length; `none` where a `nil` pointer would be read. -/
def totalDataSizeAndShardCntByTasklets (tasklets : List Tasklet) : Option (Nat × Nat) :=
  let bidsCnt := (tasklets.map fun t => t.bids.length).sum
  let bids := (copyTasklets tasklets (List.replicate bidsCnt none, 0)).1
  (bids.mapM id).map totalDataSizeAndShardCnt

/-- A call the runner makes on its `proto.TaskStatistics` (not in the sources). -/
inductive StatsCall where
  | initTotal (dataSize shardCnt : Nat)
  | add (dataSize shardCnt : Nat)
  deriving DecidableEq, Repr

/-- A call to the scheduler client. The task's id, type, IDC and locations, the same in every
call, are left out. -/
inductive SchedulerCall where
  | reportTask (taskStats : List StatsCall) (increaseDataSizeByte increaseShardCnt : Int)
  | reclaimTask (reason : String)
  | cancelTask (reason : String)
  | completeTask
  deriving DecidableEq, Repr

def SchedulerCall.isReport : SchedulerCall → Bool
  | .reportTask .. => true
  | _ => false

/-- The call `cancelOrReclaim(e)` makes. -/
def cancelOrReclaimCall (codeOverload : Int) (e : WorkError) : SchedulerCall :=
  if shouldReclaim codeOverload e then .reclaimTask e.error else .cancelTask e.error

/-- Where `Run` is: before `setStatus(TaskRunning)`, at `GenTasklets`, `wg.Wait()`, the read of
`stopReason`, `Check`, a scheduler call or its deferred `setStatus`, or returned. -/
inductive RunPc where
  | start
  | gen
  | wait
  | readStop
  | check
  | cancelOrReclaim (e : WorkError)
  | setStopped
  | complete
  | setSuccess
  | done
  deriving DecidableEq, Repr

/-- Where a tasklet's goroutine is: queued, before `stopWithFail(e)`, before the `Add` or the
`ReportTask`, or finished: skipped, failed or reported. -/
inductive TaskletPc where
  | queued
  | failing (e : WorkError)
  | adding
  | reporting
  | skipped
  | failed
  | reported
  deriving DecidableEq, Repr

/-- Where a `Stop` call is: before `setStatus(TaskStopping)`, before `stopWithFail`, returned. -/
inductive StopPc where
  | start
  | failing
  | done
  deriving DecidableEq, Repr

def TaskletPc.finished : TaskletPc → Bool
  | .skipped | .failed | .reported => true
  | _ => false

/-- The tasklet finished without a report. -/
def TaskletPc.unreported : TaskletPc → Bool
  | .skipped | .failed => true
  | _ => false

/-- The tasklet's increment is in the stats. -/
def TaskletPc.added : TaskletPc → Bool
  | .reporting | .reported => true
  | _ => false

/-- `TaskRunner`: the task state, whether `r.ctx` and the caller's context are cancelled, the
stats, the scheduler calls and the goroutines; `fails` lists the `stopWithFail` arguments. -/
structure TaskRunner where
  state : TaskStatus
  cancelled : Bool
  parentCancelled : Bool
  stopReason : Option WorkError
  fails : List WorkError
  stats : List StatsCall
  sent : List SchedulerCall
  run : RunPc
  tasklets : List TaskletPc
  stops : List StopPc

/-- What the surroundings fix: `GetBenchmarkBids`, the result of `GenTasklets`, the number of
`Stop` calls, `comerrors.CodeOverload`, and the code of `errKilled`. -/
structure Env where
  benchmarkBids : List ShardInfoSimple
  genTasklets : Except WorkError (List Tasklet)
  stopCalls : Nat
  codeOverload : Int
  killedCode : Int

def Env.tasklets (env : Env) : List Tasklet :=
  match env.genTasklets with
  | .ok ts => ts
  | .error _ => []

def Env.tasklet (env : Env) (i : Nat) : Tasklet := env.tasklets.getD i ⟨[]⟩

/-- `NewTaskRunner`, with no `Stop` call started yet. -/
def init (env : Env) : TaskRunner :=
  ⟨.init, false, false, none, [], [], [], .start, [], List.replicate env.stopCalls .start⟩

/-- `stopWithFail(fail)`: the first reason is kept; the context is cancelled. -/
def TaskRunner.stopWithFail (r : TaskRunner) (fail : WorkError) : TaskRunner :=
  { r with stopReason := if r.stopReason.isNone then some fail else r.stopReason,
           fails := r.fails ++ [fail], cancelled := true }

/-- `Run` from a successful `GenTasklets` to the last pool submission: the first stats calls and
report, and one queued goroutine per tasklet. -/
def TaskRunner.startTasklets (r : TaskRunner) (benchmarkBids : List ShardInfoSimple)
    (tasklets : List Tasklet) (remain : Nat × Nat) : TaskRunner :=
  let total := totalDataSizeAndShardCnt benchmarkBids
  let stats := r.stats ++ [.initTotal total.1 total.2,
    .add (u64sub total.1 remain.1) (u64sub total.2 remain.2), .add 0 0]
  { r with stats := stats, sent := r.sent ++ [.reportTask stats (toInt64 0) (toInt64 0)],
           run := .wait, tasklets := tasklets.map fun _ => .queued }

/-- The `Add` of `statsAndReportTask` for a tasklet. -/
def addCall (t : Tasklet) : StatsCall := .add t.dataSizeByte (u64 t.bids.length)

variable (env : Env)

/-- One atomic action of one goroutine. -/
inductive Step : TaskRunner → TaskRunner → Prop where
  | runStart {r : TaskRunner} : r.run = .start →
      Step r { r with state := setStatus r.state .running, run := .gen }
  | genErr {r : TaskRunner} {e : WorkError} : r.run = .gen → env.genTasklets = .error e →
      Step r { r with run := .cancelOrReclaim e }
  | genOk {r : TaskRunner} {ts : List Tasklet} {remain : Nat × Nat} : r.run = .gen →
      env.genTasklets = .ok ts → totalDataSizeAndShardCntByTasklets ts = some remain →
      Step r (r.startTasklets env.benchmarkBids ts remain)
  | wait {r : TaskRunner} : r.run = .wait → (∀ p ∈ r.tasklets, p.finished = true) →
      Step r { r with cancelled := true, run := .readStop }
  | readStopSome {r : TaskRunner} {e : WorkError} : r.run = .readStop → r.stopReason = some e →
      Step r { r with run := .cancelOrReclaim e }
  | readStopNone {r : TaskRunner} : r.run = .readStop → r.stopReason = none →
      Step r { r with run := .check }
  | checkErr {r : TaskRunner} (e : WorkError) : r.run = .check →
      Step r { r with run := .cancelOrReclaim e }
  | checkOk {r : TaskRunner} : r.run = .check → Step r { r with run := .complete }
  | cancelOrReclaim {r : TaskRunner} {e : WorkError} : r.run = .cancelOrReclaim e →
      Step r { r with sent := r.sent ++ [cancelOrReclaimCall env.codeOverload e],
                      run := .setStopped }
  | setStopped {r : TaskRunner} : r.run = .setStopped →
      Step r { r with state := setStatus r.state .stopped, run := .done }
  | complete {r : TaskRunner} : r.run = .complete →
      Step r { r with sent := r.sent ++ [.completeTask], run := .setSuccess }
  | setSuccess {r : TaskRunner} : r.run = .setSuccess →
      Step r { r with state := setStatus r.state .success, run := .done }
  | skip {r : TaskRunner} {i : Nat} : r.tasklets[i]? = some .queued → r.cancelled = true →
      Step r { r with tasklets := r.tasklets.set i .skipped }
  | execErr {r : TaskRunner} {i : Nat} (e : WorkError) : r.tasklets[i]? = some .queued →
      r.cancelled = false → Step r { r with tasklets := r.tasklets.set i (.failing e) }
  | execOk {r : TaskRunner} {i : Nat} : r.tasklets[i]? = some .queued → r.cancelled = false →
      Step r { r with tasklets := r.tasklets.set i .adding }
  | fail {r : TaskRunner} {i : Nat} {e : WorkError} : r.tasklets[i]? = some (.failing e) →
      Step r { r.stopWithFail e with tasklets := r.tasklets.set i .failed }
  | add {r : TaskRunner} {i : Nat} : r.tasklets[i]? = some .adding →
      Step r { r with stats := r.stats ++ [addCall (env.tasklet i)],
                      tasklets := r.tasklets.set i .reporting }
  | report {r : TaskRunner} {i : Nat} : r.tasklets[i]? = some .reporting →
      Step r { r with
        sent := r.sent ++ [.reportTask r.stats (toInt64 (env.tasklet i).dataSizeByte)
          (toInt64 (u64 (env.tasklet i).bids.length))],
        tasklets := r.tasklets.set i .reported }
  | stopStatus {r : TaskRunner} {j : Nat} : r.stops[j]? = some .start →
      Step r { r with state := setStatus r.state .stopping, stops := r.stops.set j .failing }
  | stopFail {r : TaskRunner} {j : Nat} : r.stops[j]? = some .failing →
      Step r { r.stopWithFail (killedError env.killedCode) with stops := r.stops.set j .done }
  /-- The caller cancels the context `NewTaskRunner` derived `r.ctx` from. -/
  | callerCancel {r : TaskRunner} : r.parentCancelled = false →
      Step r { r with parentCancelled := true, cancelled := true }

/-- The states the goroutines reach in some interleaving. -/
inductive Reachable : TaskRunner → Prop where
  | init : Reachable (init env)
  | step {r r' : TaskRunner} : Reachable r → Step env r r' → Reachable r'

/-- Every goroutine has returned. -/
def Final (r : TaskRunner) : Prop :=
  r.run = .done ∧ (∀ p ∈ r.tasklets, p.finished = true) ∧ ∀ p ∈ r.stops, p = .done

theorem sumSize_go (f : Nat) (bids : List ShardInfoSimple) (hf : f < 2 ^ 64) :
    bids.foldl (fun dataSize info => u64 (dataSize + toUint64 info.size)) f =
      u64 (f + (bids.map fun info => toUint64 info.size).sum) := by
  induction bids generalizing f with
  | nil => exact (BlobStore.Access.u64_of_lt hf).symm
  | cons info rest ih =>
    rw [List.foldl_cons, ih (u64 (f + toUint64 info.size)) (Nat.mod_lt _ (by norm_num)),
      List.map_cons, List.sum_cons]
    simp only [u64, Nat.mod_add_mod, Nat.add_assoc]

theorem sumSize_eq (bids : List ShardInfoSimple) :
    sumSize bids = u64 (bids.map fun info => toUint64 info.size).sum := by
  rw [sumSize, sumSize_go 0 bids (by norm_num), Nat.zero_add]

theorem copyBids_eq (bids : List ShardInfoSimple) (done : List ShardInfoSimple) (k : Nat) :
    copyBids bids (done.map some ++ List.replicate (bids.length + k) none, done.length) =
      ((done ++ bids).map some ++ List.replicate k none, done.length + bids.length) := by
  induction bids generalizing done with
  | nil => simp [copyBids]
  | cons bid rest ih =>
    have hset : (done.map some ++ List.replicate ((bid :: rest).length + k) none).set
        done.length (some bid) = (done ++ [bid]).map some ++ List.replicate (rest.length + k) none := by
      rw [List.set_append_right _ _ (by simp), List.length_map, Nat.sub_self, List.length_cons,
        Nat.add_right_comm, List.replicate_succ, List.set_cons_zero]
      simp
    have hrest := ih (done ++ [bid])
    rw [List.length_append, List.length_singleton] at hrest
    rw [copyBids, hset, hrest]
    simp only [List.append_assoc, List.singleton_append, List.length_cons, Nat.add_assoc,
      Nat.add_comm 1]

theorem copyTasklets_eq (tasklets : List Tasklet) (done : List ShardInfoSimple) (k : Nat) :
    copyTasklets tasklets
        (done.map some ++ List.replicate ((tasklets.map fun t => t.bids.length).sum + k) none,
          done.length) =
      ((done ++ (tasklets.map Tasklet.bids).flatten).map some ++ List.replicate k none,
        done.length + (tasklets.map fun t => t.bids.length).sum) := by
  induction tasklets generalizing done with
  | nil => simp [copyTasklets]
  | cons t rest ih =>
    have hrest := ih (done ++ t.bids)
    rw [List.length_append] at hrest
    simp only [copyTasklets, List.map_cons, List.sum_cons, Nat.add_assoc, copyBids_eq, hrest,
      List.flatten_cons, List.append_assoc]

theorem mapM_id_map_some (xs : List ShardInfoSimple) : (xs.map some).mapM id = some xs := by
  induction xs with
  | nil => rfl
  | cons x xs ih => rw [List.map_cons, List.mapM_cons, ih]; rfl

theorem totalDataSizeAndShardCntByTasklets_eq (tasklets : List Tasklet) :
    totalDataSizeAndShardCntByTasklets tasklets =
      some (totalDataSizeAndShardCnt (tasklets.map Tasklet.bids).flatten) := by
  have h := copyTasklets_eq tasklets [] 0
  simp only [List.map_nil, List.nil_append, List.length_nil, Nat.add_zero, List.replicate_zero,
    List.append_nil] at h
  simp only [totalDataSizeAndShardCntByTasklets, h, mapM_id_map_some, Option.map_some']

/-- Steps left to `Run`; `n` tasklets are still to be run before `wg.Wait()`. -/
def RunPc.rank (n : Nat) : RunPc → Nat
  | .start => 7 + 3 * n
  | .gen => 6 + 3 * n
  | .wait => 5
  | .readStop => 4
  | .check => 3
  | .cancelOrReclaim _ => 2
  | .complete => 2
  | .setStopped => 1
  | .setSuccess => 1
  | .done => 0

def TaskletPc.rank : TaskletPc → Nat
  | .queued => 3
  | .adding => 2
  | .failing _ | .reporting => 1
  | _ => 0

def StopPc.rank : StopPc → Nat
  | .start => 2
  | .failing => 1
  | .done => 0

/-- The steps left to all goroutines and to the caller. -/
def TaskRunner.measure (r : TaskRunner) : Nat :=
  r.run.rank env.tasklets.length + (r.tasklets.map TaskletPc.rank).sum +
    (r.stops.map StopPc.rank).sum + (if r.parentCancelled then 0 else 1)

theorem sum_map_set_lt {α : Type} (f : α → Nat) {l : List α} {i : Nat} {p q : α}
    (hi : l[i]? = some p) (hq : f q < f p) : ((l.set i q).map f).sum < (l.map f).sum := by
  induction l generalizing i with
  | nil => simp at hi
  | cons a l ih =>
    cases i with
    | zero =>
      simp only [List.getElem?_cons_zero, Option.some.injEq] at hi
      subst hi
      simp only [List.set_cons_zero, List.map_cons, List.sum_cons]
      omega
    | succ i =>
      simp only [List.getElem?_cons_succ] at hi
      simp only [List.set_cons_succ, List.map_cons, List.sum_cons]
      have := ih hi
      omega

theorem Step.measure_lt {r r' : TaskRunner} (h : Step env r r') :
    r'.measure env < r.measure env := by
  cases h with
  | genOk h0 hg _ =>
    have hq (ts : List Tasklet) : (ts.map fun _ => TaskletPc.queued.rank).sum = 3 * ts.length := by
      induction ts with
      | nil => rfl
      | cons _ ts ih =>
        rw [List.map_cons, List.sum_cons, ih, List.length_cons]
        simp only [TaskletPc.rank]
        omega
    simp only [TaskRunner.measure, TaskRunner.startTasklets, h0, RunPc.rank, Env.tasklets, hg,
      List.map_map, Function.comp_def, hq]
    omega
  | skip hi _ | execErr _ hi _ | execOk hi _ | add hi | report hi | fail hi =>
    simp only [TaskRunner.measure, TaskRunner.stopWithFail]
    exact Nat.add_lt_add_right (Nat.add_lt_add_right
      (Nat.add_lt_add_left (sum_map_set_lt _ hi (by simp [TaskletPc.rank])) _) _) _
  | stopStatus hj | stopFail hj =>
    simp only [TaskRunner.measure, TaskRunner.stopWithFail]
    exact Nat.add_lt_add_right
      (Nat.add_lt_add_left (sum_map_set_lt _ hj (by simp [StopPc.rank])) _) _
  | callerCancel h0 => simp only [TaskRunner.measure, h0]; simp
  | runStart h0 | genErr h0 _ | wait h0 _ | readStopSome h0 _ | readStopNone h0 _
  | checkErr _ h0 | checkOk h0 | cancelOrReclaim h0 | setStopped h0 | complete h0
  | setSuccess h0 => simp only [TaskRunner.measure, h0, RunPc.rank]; omega

theorem final_of_stuck {r : TaskRunner} (h : ∀ r', ¬ Step env r r') : Final r := by
  have htasklets : ∀ p ∈ r.tasklets, p.finished = true := by
    intro p hp
    obtain ⟨i, hi⟩ := List.mem_iff_getElem?.1 hp
    cases p with
    | queued =>
      cases hc : r.cancelled
      · exact (h _ (.execOk hi hc)).elim
      · exact (h _ (.skip hi hc)).elim
    | failing e => exact (h _ (.fail hi)).elim
    | adding => exact (h _ (.add hi)).elim
    | reporting => exact (h _ (.report hi)).elim
    | skipped | failed | reported => rfl
  refine ⟨?_, htasklets, ?_⟩
  · cases hr : r.run with
    | start => exact (h _ (.runStart hr)).elim
    | gen =>
      cases hg : env.genTasklets with
      | error e => exact (h _ (.genErr hr hg)).elim
      | ok ts => exact (h _ (.genOk hr hg (totalDataSizeAndShardCntByTasklets_eq ts))).elim
    | wait => exact (h _ (.wait hr htasklets)).elim
    | readStop =>
      cases hs : r.stopReason with
      | none => exact (h _ (.readStopNone hr hs)).elim
      | some e => exact (h _ (.readStopSome hr hs)).elim
    | check => exact (h _ (.checkOk hr)).elim
    | cancelOrReclaim e => exact (h _ (.cancelOrReclaim hr)).elim
    | setStopped => exact (h _ (.setStopped hr)).elim
    | complete => exact (h _ (.complete hr)).elim
    | setSuccess => exact (h _ (.setSuccess hr)).elim
    | done => rfl
  · intro p hp
    obtain ⟨j, hj⟩ := List.mem_iff_getElem?.1 hp
    cases p with
    | start => exact (h _ (.stopStatus hj)).elim
    | failing => exact (h _ (.stopFail hj)).elim
    | done => rfl

/-- `Run` always returns: no interleaving goes on forever, and one that cannot be extended ends
with every goroutine returned. -/
theorem run_returns (r : TaskRunner) :
    Acc (fun r' r => Step env r r') r ∧ ((∀ r', ¬ Step env r r') → Final r) :=
  ⟨Subrelation.accessible (fun h => Step.measure_lt env h)
    ((measure (TaskRunner.measure env)).wf.apply r), final_of_stuck env⟩

end BlobStore.Worker
