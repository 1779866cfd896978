import BlobStore.Worker.TaskRunner

/-! What holds in every interleaving of the task runner: `Shape` at each point of `Run`,
`FailInv` of the failures, `StatusInv` of the task state, and `EndInv` of `Run`'s last call. -/

namespace BlobStore.Worker

open BlobStore.Access (u64 u64sub)

/-- `Run` has not yet submitted the tasklets to the pool. -/
def RunPc.beforeTasklets : RunPc → Bool
  | .start | .gen => true
  | _ => false

/-- `Run` is on the path of a successful `GenTasklets` and has not yet called
`cancelOrReclaim`. -/
def RunPc.afterGenOk : RunPc → Bool
  | .wait | .readStop | .check | .complete | .setSuccess => true
  | _ => false

/-- `Run` is past `wg.Wait()`, or past a failed `GenTasklets`. -/
def RunPc.pastWait : RunPc → Bool
  | .start | .gen | .wait => false
  | _ => true

/-- `Run` has made its last call to the scheduler. -/
def RunPc.returning : RunPc → Bool
  | .setStopped | .setSuccess | .done => true
  | _ => false

/-- `Run` is on its way to `completeTask`. -/
def RunPc.completing : RunPc → Bool
  | .check | .complete | .setSuccess => true
  | _ => false

variable {env : Env}

theorem setStatus_of_ne_running {state s : TaskStatus} (h : s ≠ .running) :
    setStatus state s = s := by
  unfold setStatus
  split_ifs with h1 h2
  · exact h1.symm
  · exact absurd h2.1 h
  · rfl

theorem stoppedState_setStatus_running {state : TaskStatus}
    (h : stoppedState (setStatus state .running) = true) : stoppedState state = true := by
  unfold setStatus at h
  split_ifs at h with h1 h2
  · exact h
  · exact h2.2
  · cases h

theorem isReport_cancelOrReclaimCall (codeOverload : Int) (e : WorkError) :
    (cancelOrReclaimCall codeOverload e).isReport = false := by
  unfold cancelOrReclaimCall
  split <;> rfl

theorem cancelOrReclaimCall_ne_completeTask (codeOverload : Int) (e : WorkError) :
    cancelOrReclaimCall codeOverload e ≠ .completeTask := by
  unfold cancelOrReclaimCall
  split <;> nofun

theorem RunPc.pastWait_of_returning {pc : RunPc} (h : pc.returning = true) :
    pc.pastWait = true := by
  cases pc <;> first | rfl | cases h

theorem RunPc.beforeTasklets_of_returning {pc : RunPc} (h : pc.returning = true) :
    pc.beforeTasklets = false := by
  cases pc <;> first | rfl | cases h

/-- What holds at each point of `Run`. -/
structure Shape (env : Env) (r : TaskRunner) : Prop where
  fresh : r.run.beforeTasklets = true → r.tasklets = [] ∧ r.stats = [] ∧ r.sent = []
  genOk : r.run.afterGenOk = true → ∃ ts, env.genTasklets = .ok ts
  length : r.run.beforeTasklets = false → ∀ ts, env.genTasklets = .ok ts →
    r.tasklets.length = ts.length
  joined : r.run.pastWait = true → ∀ p ∈ r.tasklets, p.finished = true
  reports : r.run.returning = false → ∀ m ∈ r.sent, m.isReport = true
  last : r.run.returning = true → ∃ reports t, (∀ m ∈ reports, m.isReport = true) ∧
    t.isReport = false ∧ r.sent = reports ++ [t]

theorem Shape.run_wait {r : TaskRunner} (hs : Shape env r) {i : Nat} {p : TaskletPc}
    (hi : r.tasklets[i]? = some p) (hp : p.finished = false) : r.run = .wait := by
  have hmem := List.getElem?_mem hi
  cases hr : r.run
  case wait => rfl
  case start | gen =>
    rw [(hs.fresh (by rw [hr]; rfl)).1] at hmem
    cases hmem
  all_goals
    have := hs.joined (by rw [hr]; rfl) p hmem
    rw [hp] at this
    cases this

theorem Shape.of_wait {r r' : TaskRunner} (hs : Shape env r) (hw : r.run = .wait)
    (hw' : r'.run = .wait) (hlen : r'.tasklets.length = r.tasklets.length)
    (hsent : ∀ m ∈ r'.sent, m ∈ r.sent ∨ m.isReport = true) : Shape env r' where
  fresh h := by rw [hw'] at h; cases h
  genOk _ := hs.genOk (by rw [hw]; rfl)
  length _ ts hts := hlen.trans (hs.length (by rw [hw]; rfl) ts hts)
  joined h := by rw [hw'] at h; cases h
  reports _ m hm := (hsent m hm).elim (hs.reports (by rw [hw]; rfl) m) id
  last h := by rw [hw'] at h; cases h

theorem shape_init : Shape env (init env) where
  fresh _ := ⟨rfl, rfl, rfl⟩
  genOk h := by cases h
  length h := by cases h
  joined h := by cases h
  reports _ m hm := by cases hm
  last h := by cases h

theorem Shape.step {r r' : TaskRunner} (hs : Shape env r) (h : Step env r r') :
    Shape env r' := by
  cases h with
  | runStart h0 =>
    exact ⟨fun _ => hs.fresh (by rw [h0]; rfl), nofun, nofun, nofun,
      fun _ => hs.reports (by rw [h0]; rfl), nofun⟩
  | genErr h0 hg =>
    obtain ⟨hl, -, hsent⟩ := hs.fresh (by rw [h0]; rfl)
    refine ⟨nofun, nofun, fun _ ts hts => ?_, fun _ p hp => ?_, fun _ m hm => ?_, nofun⟩
    · rw [hg] at hts
      cases hts
    · simp only [hl] at hp
      cases hp
    · simp only [hsent] at hm
      cases hm
  | genOk h0 hg _ =>
    obtain ⟨-, -, hsent⟩ := hs.fresh (by rw [h0]; rfl)
    refine ⟨nofun, fun _ => ⟨_, hg⟩, fun _ ts' hts => ?_, nofun, fun _ m hm => ?_, nofun⟩
    · rw [hg] at hts
      cases hts
      simp [TaskRunner.startTasklets]
    · simp only [TaskRunner.startTasklets, hsent, List.nil_append, List.mem_singleton] at hm
      rw [hm]
      rfl
  | wait h0 hall =>
    exact ⟨nofun, fun _ => hs.genOk (by rw [h0]; rfl), fun _ => hs.length (by rw [h0]; rfl),
      fun _ => hall, fun _ => hs.reports (by rw [h0]; rfl), nofun⟩
  | readStopSome h0 _ | readStopNone h0 _ | checkErr _ h0 | checkOk h0 =>
    exact ⟨nofun, fun _ => hs.genOk (by rw [h0]; rfl), fun _ => hs.length (by rw [h0]; rfl),
      fun _ => hs.joined (by rw [h0]; rfl), fun _ => hs.reports (by rw [h0]; rfl), nofun⟩
  | cancelOrReclaim h0 =>
    exact ⟨nofun, nofun, fun _ => hs.length (by rw [h0]; rfl),
      fun _ => hs.joined (by rw [h0]; rfl), nofun,
      fun _ => ⟨_, _, hs.reports (by rw [h0]; rfl), isReport_cancelOrReclaimCall _ _, rfl⟩⟩
  | complete h0 =>
    exact ⟨nofun, fun _ => hs.genOk (by rw [h0]; rfl), fun _ => hs.length (by rw [h0]; rfl),
      fun _ => hs.joined (by rw [h0]; rfl), nofun,
      fun _ => ⟨_, .completeTask, hs.reports (by rw [h0]; rfl), rfl, rfl⟩⟩
  | setStopped h0 =>
    exact ⟨nofun, nofun, fun _ => hs.length (by rw [h0]; rfl),
      fun _ => hs.joined (by rw [h0]; rfl), nofun, fun _ => hs.last (by rw [h0]; rfl)⟩
  | setSuccess h0 =>
    exact ⟨nofun, nofun, fun _ => hs.length (by rw [h0]; rfl),
      fun _ => hs.joined (by rw [h0]; rfl), nofun, fun _ => hs.last (by rw [h0]; rfl)⟩
  | skip hi _ | execErr _ hi _ | execOk hi _ | add hi =>
    have hw := hs.run_wait hi rfl
    exact hs.of_wait hw hw (by simp) fun m hm => .inl hm
  | report hi =>
    have hw := hs.run_wait hi rfl
    refine hs.of_wait hw hw (by simp) fun m hm => ?_
    rcases List.mem_append.1 hm with hm | hm
    · exact .inl hm
    · rw [List.mem_singleton.1 hm]
      exact .inr rfl
  | fail hi =>
    have hw := hs.run_wait hi rfl
    exact hs.of_wait hw hw (by simp [TaskRunner.stopWithFail]) fun m hm => .inl hm
  | stopStatus _ | stopFail _ | callerCancel _ =>
    exact ⟨hs.fresh, hs.genOk, hs.length, hs.joined, hs.reports, hs.last⟩

theorem Reachable.shape {r : TaskRunner} (h : Reachable env r) : Shape env r := by
  induction h with
  | init => exact shape_init
  | step _ hs ih => exact ih.step hs

theorem Shape.completeTask_last {r : TaskRunner} (hs : Shape env r)
    (hc : .completeTask ∈ r.sent) :
    r.run.returning = true ∧ r.sent.getLast? = some .completeTask := by
  cases hr : r.run.returning
  · cases hs.reports hr _ hc
  · obtain ⟨reports, t, hrep, -, hsent⟩ := hs.last hr
    rw [hsent] at hc ⊢
    rcases List.mem_append.1 hc with hc | hc
    · cases hrep _ hc
    · exact ⟨rfl, by rw [List.mem_singleton.1 hc, List.getLast?_concat]⟩

/-- A task of one tasklet with a 5-byte bid, out of benchmark bids of 5 and 7 bytes. -/
def oneTaskletEnv (stopCalls : Nat) : Env := ⟨[⟨5⟩, ⟨7⟩], .ok [⟨[⟨5⟩]⟩], stopCalls, 0, 0⟩

/-- `InitTotal` of 12 bytes and 2 shards, `Add` of the 7 bytes and 1 shard not in a tasklet,
`Add(0, 0)`. -/
def startedStats : List StatsCall := [.initTotal 12 2, .add 7 1, .add 0 0]

/-- The tasklet runs and reports, and the task is completed. -/
def completedRun : TaskRunner :=
  ⟨.success, true, false, none, [], startedStats ++ [.add 5 1],
    [.reportTask startedStats 0 0, .reportTask (startedStats ++ [.add 5 1]) 5 1, .completeTask],
    .done, [.reported], []⟩

theorem completedRun_reachable : Reachable (oneTaskletEnv 0) completedRun :=
  .step (.step (.step (.step (.step (.step (.step (.step (.step (.step .init
    (.runStart rfl)) (.genOk rfl rfl (totalDataSizeAndShardCntByTasklets_eq _)))
    (.execOk (i := 0) rfl rfl)) (.add (i := 0) rfl)) (.report (i := 0) rfl))
    (.wait rfl (by decide))) (.readStopNone rfl rfl)) (.checkOk rfl)) (.complete rfl))
    (.setSuccess rfl)

/-- A `Stop` call comes first, the tasklet is skipped, and the task is cancelled. -/
def stoppedRun : TaskRunner :=
  ⟨.stopped, true, false, some (killedError 0), [killedError 0], startedStats,
    [.reportTask startedStats 0 0, .cancelTask "task killed"], .done, [.skipped], [.done]⟩

theorem stoppedRun_reachable : Reachable (oneTaskletEnv 1) stoppedRun :=
  .step (.step (.step (.step (.step (.step (.step (.step (.step .init
    (.stopStatus (j := 0) rfl)) (.stopFail (j := 0) rfl)) (.runStart rfl))
    (.genOk rfl rfl (totalDataSizeAndShardCntByTasklets_eq _))) (.skip (i := 0) rfl rfl))
    (.wait rfl (by decide))) (.readStopSome rfl rfl)) (.cancelOrReclaim rfl)) (.setStopped rfl)

/-- The caller cancels the context before the tasklet runs: it is skipped, no failure is
recorded, and `Check` passing completes the task. -/
def callerCancelledRun : TaskRunner :=
  ⟨.success, true, true, none, [], startedStats, [.reportTask startedStats 0 0, .completeTask],
    .done, [.skipped], []⟩

theorem callerCancelledRun_reachable : Reachable (oneTaskletEnv 0) callerCancelledRun :=
  .step (.step (.step (.step (.step (.step (.step (.step (.step .init
    (.runStart rfl)) (.genOk rfl rfl (totalDataSizeAndShardCntByTasklets_eq _)))
    (.callerCancel rfl)) (.skip (i := 0) rfl rfl)) (.wait rfl (by decide)))
    (.readStopNone rfl rfl)) (.checkOk rfl)) (.complete rfl)) (.setSuccess rfl)

/-- Before `Run`'s last call, the scheduler got only reports; after it, exactly that one call
more, whatever the tasklets and the `Stop` calls do: no report follows the verdict on the task. -/
theorem sent_reports_then_last {r : TaskRunner} (h : Reachable env r) :
    ∃ reports, (∀ m ∈ reports, m.isReport = true) ∧
      (r.run.returning = false → r.sent = reports) ∧
      (r.run.returning = true → ∃ t, t.isReport = false ∧ r.sent = reports ++ [t]) := by
  have hs := h.shape
  cases hr : r.run.returning
  · exact ⟨r.sent, hs.reports hr, fun _ => rfl, nofun⟩
  · obtain ⟨reports, t, hrep, ht, hsent⟩ := hs.last hr
    exact ⟨reports, hrep, nofun, fun _ => ⟨t, ht, hsent⟩⟩

theorem sent_reports_then_last_stoppedRun : Reachable (oneTaskletEnv 1) stoppedRun ∧
    ∃ reports, (∀ m ∈ reports, m.isReport = true) ∧
      (stoppedRun.run.returning = false → stoppedRun.sent = reports) ∧
      (stoppedRun.run.returning = true → ∃ t, t.isReport = false ∧
        stoppedRun.sent = reports ++ [t]) :=
  ⟨stoppedRun_reachable, sent_reports_then_last stoppedRun_reachable⟩

/-- `stopReason` is the first failure; a context cancelled before `wg.Wait()`, and a tasklet
that returned without a report, mean that a failure was recorded or the caller cancelled. -/
structure FailInv (r : TaskRunner) : Prop where
  first : r.stopReason = r.fails.head?
  cancelled : r.cancelled = true → r.fails ≠ [] ∨ r.parentCancelled = true ∨ r.run.pastWait = true
  unreported : ∀ p ∈ r.tasklets, p.unreported = true →
    r.fails ≠ [] ∨ p = .skipped ∧ r.parentCancelled = true

theorem stopWithFail_first {r : TaskRunner} (h : r.stopReason = r.fails.head?) (e : WorkError) :
    (r.stopWithFail e).stopReason = (r.stopWithFail e).fails.head? := by
  simp only [TaskRunner.stopWithFail, h]
  cases r.fails <;> rfl

theorem FailInv.of_pastWait {r r' : TaskRunner} (hf : FailInv r) (hrun : r'.run.pastWait = true)
    (hstop : r'.stopReason = r.stopReason) (hfails : r'.fails = r.fails)
    (htasklets : r'.tasklets = r.tasklets) (hpar : r'.parentCancelled = r.parentCancelled) :
    FailInv r' where
  first := by rw [hstop, hfails, hf.first]
  cancelled _ := .inr (.inr hrun)
  unreported p hp hu := by
    rw [hfails, hpar]
    exact hf.unreported p (htasklets ▸ hp) hu

theorem FailInv.of_stopWithFail {r : TaskRunner} (hf : FailInv r) (e : WorkError) :
    FailInv (r.stopWithFail e) where
  first := stopWithFail_first hf.first e
  cancelled _ := .inl (by simp [TaskRunner.stopWithFail])
  unreported _ _ _ := .inl (by simp [TaskRunner.stopWithFail])

theorem FailInv.of_nil {r : TaskRunner} (hf : FailInv r) (hnil : r.fails = []) {p : TaskletPc}
    (hp : p ∈ r.tasklets) (hu : p.unreported = true) : p = .skipped ∧ r.parentCancelled = true :=
  (hf.unreported p hp hu).resolve_left (not_not.2 hnil)

theorem FailInv.step {r r' : TaskRunner} (hs : Shape env r) (hf : FailInv r)
    (h : Step env r r') : FailInv r' := by
  cases h with
  | runStart h0 | genOk h0 =>
    refine ⟨hf.first, fun hc => (hf.cancelled hc).imp id (.imp id (by rw [h0]; nofun)),
      fun p hp hu => ?_⟩
    first
      | exact hf.unreported p hp hu
      | simp only [TaskRunner.startTasklets, List.mem_map] at hp
        obtain ⟨_, -, rfl⟩ := hp
        cases hu
  | genErr | wait | readStopSome | readStopNone | checkErr | checkOk | cancelOrReclaim
  | setStopped | complete | setSuccess => apply hf.of_pastWait <;> rfl
  | skip hi hc =>
    refine ⟨hf.first, hf.cancelled, fun p hp hu => ?_⟩
    rcases List.mem_or_eq_of_mem_set hp with hp | rfl
    · exact hf.unreported p hp hu
    · rcases hf.cancelled hc with hc | hc | hc
      · exact .inl hc
      · exact .inr ⟨rfl, hc⟩
      · rw [hs.run_wait hi rfl] at hc
        cases hc
  | execErr _ _ _ | execOk _ _ | add _ | report _ =>
    refine ⟨hf.first, hf.cancelled, fun p hp hu => ?_⟩
    rcases List.mem_or_eq_of_mem_set hp with hp | rfl
    · exact hf.unreported p hp hu
    · cases hu
  | fail _ =>
    have := hf.of_stopWithFail
    exact ⟨(this _).first, (this _).cancelled,
      fun _ _ _ => .inl (by simp [TaskRunner.stopWithFail])⟩
  | stopStatus _ => exact ⟨hf.first, hf.cancelled, hf.unreported⟩
  | stopFail _ =>
    have := hf.of_stopWithFail (killedError env.killedCode)
    exact ⟨this.first, this.cancelled, this.unreported⟩
  | callerCancel _ =>
    exact ⟨hf.first, fun _ => .inr (.inl rfl),
      fun p hp hu => (hf.unreported p hp hu).imp id fun h => ⟨h.1, rfl⟩⟩

theorem Reachable.failInv {r : TaskRunner} (h : Reachable env r) : FailInv r := by
  induction h with
  | init => exact ⟨rfl, nofun, fun _ hp => by cases hp⟩
  | step hr hs ih => exact ih.step hr.shape hs

/-- `TaskState` against `Run`: alive only before `Run` returns, stopped only after. -/
structure StatusInv (r : TaskRunner) : Prop where
  alive : alive r.state = true → r.run ≠ .done
  stopped : stoppedState r.state = true → r.run = .done

theorem StatusInv.of_run {r r' : TaskRunner} (hi : StatusInv r) (hstate : r'.state = r.state)
    (hr : r.run ≠ .done) (hr' : r'.run ≠ .done) : StatusInv r' where
  alive _ := hr'
  stopped h := absurd (hi.stopped (hstate ▸ h)) hr

theorem StatusInv.step {r r' : TaskRunner} (hi : StatusInv r) (h : Step env r r') :
    StatusInv r' := by
  cases h with
  | runStart h0 =>
    exact ⟨fun _ => nofun, fun h => absurd (hi.stopped (stoppedState_setStatus_running h))
      (by rw [h0]; nofun)⟩
  | setStopped _ | setSuccess _ =>
    exact ⟨fun h => by simp [setStatus_of_ne_running, Worker.alive] at h, fun _ => rfl⟩
  | stopStatus _ =>
    exact ⟨fun h => by simp [setStatus_of_ne_running, Worker.alive] at h,
      fun h => by simp [setStatus_of_ne_running, stoppedState] at h⟩
  | genErr h0 _ | genOk h0 _ _ | wait h0 _ | readStopSome h0 _ | readStopNone h0 _
  | checkErr _ h0 | checkOk h0 | cancelOrReclaim h0 | complete h0 =>
    exact hi.of_run rfl (by rw [h0]; nofun) nofun
  | skip _ _ | execErr _ _ _ | execOk _ _ | fail _ | add _ | report _ | stopFail _
  | callerCancel _ => exact ⟨hi.alive, hi.stopped⟩

/-- `Stopped()` holds only once `Run` has returned, and `Alive()` never holds again after it
returns, however `Stop` calls interleave with it. -/
theorem stopped_only_after_return {r : TaskRunner} (h : Reachable env r) :
    (stoppedState r.state = true → r.run = .done) ∧ (r.run = .done → alive r.state = false) := by
  have hi : StatusInv r := by
    induction h with
    | init => exact ⟨fun _ => nofun, nofun⟩
    | step _ hs ih => exact ih.step hs
  refine ⟨hi.stopped, fun hd => ?_⟩
  cases ha : alive r.state
  · rfl
  · exact absurd hd (hi.alive ha)

theorem stopped_only_after_return_stoppedRun : Reachable (oneTaskletEnv 1) stoppedRun ∧
    (stoppedState stoppedRun.state = true → stoppedRun.run = .done) ∧
    (stoppedRun.run = .done → alive stoppedRun.state = false) :=
  ⟨stoppedRun_reachable, stopped_only_after_return stoppedRun_reachable⟩

/-- What decides `Run`'s last call: the first failure, unless no tasklet failed and the caller
cancelled; `completeTask` only when each tasklet reported or was skipped after the cancel. -/
structure EndInv (env : Env) (r : TaskRunner) : Prop where
  reported : r.run.completing = true ∨ .completeTask ∈ r.sent →
    (∃ ts, env.genTasklets = .ok ts) ∧
      ∀ p ∈ r.tasklets, p = .reported ∨ p = .skipped ∧ r.parentCancelled = true
  unreported : (∃ p ∈ r.tasklets, p.unreported = true) → r.run.pastWait = true →
    (∃ e, r.fails.head? = some e ∧ (r.run = .readStop ∨ r.run = .cancelOrReclaim e ∨
      r.run.returning = true ∧ r.sent.getLast? = some (cancelOrReclaimCall env.codeOverload e))) ∨
    r.parentCancelled = true ∧ .failed ∉ r.tasklets

theorem TaskletPc.eq_reported {p : TaskletPc} (h1 : p.finished = true)
    (h2 : p.unreported = false) : p = .reported := by
  cases p <;> simp_all [TaskletPc.finished, TaskletPc.unreported]

theorem completeTask_mem_append_report {sent : List SchedulerCall} {m : SchedulerCall}
    (h : .completeTask ∈ sent ++ [m]) (hm : m.isReport = true) : .completeTask ∈ sent := by
  rcases List.mem_append.1 h with h | h
  · exact h
  · rw [← List.mem_singleton.1 h] at hm
    cases hm

theorem fails_head?_append {fails : List WorkError} {e : WorkError} (h : fails.head? = some e)
    (x : WorkError) : (fails ++ [x]).head? = some e := by
  cases fails
  · cases h
  · exact h

theorem not_first_failure_decides {r : TaskRunner} {pc : RunPc} (h0 : r.run = pc)
    (hpc : pc = .check ∨ pc = .complete) {e : WorkError} {codeOverload : Int}
    (hcase : r.run = .readStop ∨ r.run = .cancelOrReclaim e ∨ r.run.returning = true ∧
      r.sent.getLast? = some (cancelOrReclaimCall codeOverload e)) : False := by
  rcases hpc with rfl | rfl <;> rw [h0] at hcase <;>
    rcases hcase with hcase | hcase | ⟨hcase, -⟩ <;> cases hcase

theorem EndInv.step {r r' : TaskRunner} (hs : Shape env r) (hf : FailInv r)
    (hi : EndInv env r) (h : Step env r r') : EndInv env r' := by
  cases h with
  | runStart h0 => exact ⟨fun hc => hi.reported (hc.imp nofun id), fun _ => nofun⟩
  | genErr h0 _ =>
    refine ⟨fun hc => hi.reported (hc.imp nofun id), fun ⟨p, hp, _⟩ => ?_⟩
    rw [(hs.fresh (by rw [h0]; rfl)).1] at hp
    cases hp
  | genOk h0 _ _ =>
    refine ⟨fun hc => ?_, fun _ => nofun⟩
    rcases hc with hc | hc
    · cases hc
    · simp [TaskRunner.startTasklets, (hs.fresh (by rw [h0]; rfl)).2.2] at hc
  | wait h0 _ =>
    refine ⟨fun hc => hi.reported (hc.imp nofun id), fun ⟨p, hp, hu⟩ _ => ?_⟩
    cases hnil : r.fails with
    | nil => exact .inr ⟨(hf.of_nil hnil hp hu).2, fun hfl => nomatch (hf.of_nil hnil hfl rfl).1⟩
    | cons e _ => exact .inl ⟨e, rfl, .inl rfl⟩
  | readStopSome h0 hstop =>
    exact ⟨fun hc => hi.reported (hc.imp nofun id),
      fun _ _ => .inl ⟨_, hf.first ▸ hstop, .inr (.inl rfl)⟩⟩
  | readStopNone h0 hstop =>
    have hnil : r.fails = [] := List.head?_eq_none_iff.1 (hf.first ▸ hstop)
    refine ⟨fun _ => ⟨hs.genOk (by rw [h0]; rfl), fun p hp => ?_⟩,
      fun ⟨p, hp, hu⟩ _ => .inr ⟨(hf.of_nil hnil hp hu).2,
        fun hfl => nomatch (hf.of_nil hnil hfl rfl).1⟩⟩
    cases hu : p.unreported
    · exact .inl (TaskletPc.eq_reported (hs.joined (by rw [h0]; rfl) p hp) hu)
    · exact .inr (hf.of_nil hnil hp hu)
  | checkErr _ h0 | checkOk h0 | complete h0 =>
    refine ⟨fun _ => hi.reported (.inl (by rw [h0]; rfl)), fun hu hp => ?_⟩
    exact .inr ((hi.unreported hu (by rw [h0]; rfl)).resolve_left fun ⟨_, _, hcase⟩ =>
      not_first_failure_decides h0 (by simp) hcase)
  | cancelOrReclaim h0 =>
    refine ⟨fun hc => ?_, fun hu _ => (hi.unreported hu (by rw [h0]; rfl)).imp ?_ id⟩
    · rcases hc with hc | hc
      · cases hc
      · rcases List.mem_append.1 hc with hc | hc
        · exact hi.reported (.inr hc)
        · exact absurd (List.mem_singleton.1 hc).symm (cancelOrReclaimCall_ne_completeTask _ _)
    · rintro ⟨e, he, hcase⟩
      rw [h0] at hcase
      rcases hcase with hcase | hcase | ⟨hcase, -⟩
      · cases hcase
      · cases hcase
        exact ⟨_, he, .inr (.inr ⟨rfl, List.getLast?_concat _⟩)⟩
      · cases hcase
  | setStopped h0 | setSuccess h0 =>
    refine ⟨fun hc => hi.reported (.inr (hc.resolve_left nofun)),
      fun hu _ => (hi.unreported hu (by rw [h0]; rfl)).imp ?_ id⟩
    rintro ⟨e, he, hcase⟩
    rw [h0] at hcase
    rcases hcase with hcase | hcase | ⟨-, hlast⟩
    · cases hcase
    · cases hcase
    · exact ⟨e, he, .inr (.inr ⟨rfl, hlast⟩)⟩
  | skip hi' _ | execErr _ hi' _ | execOk hi' _ | add hi' | report hi' | fail hi' =>
    have hw := hs.run_wait hi' rfl
    refine ⟨fun hc => ?_, fun _ hp => ?_⟩
    · simp only [TaskRunner.stopWithFail, hw] at hc
      rcases hc with hc | hc
      · cases hc
      · have hc' : .completeTask ∈ r.sent := by
          first
            | exact hc
            | exact completeTask_mem_append_report hc rfl
        cases hs.reports (by rw [hw]; rfl) _ hc'
    · simp only [TaskRunner.stopWithFail, hw] at hp
      cases hp
  | stopStatus _ => exact ⟨hi.reported, hi.unreported⟩
  | stopFail _ =>
    refine ⟨hi.reported, fun hu hp => (hi.unreported hu hp).imp ?_ id⟩
    rintro ⟨e, he, hcase⟩
    exact ⟨e, fails_head?_append he _, hcase⟩
  | callerCancel _ =>
    refine ⟨fun hc => ⟨(hi.reported hc).1,
      fun p hp => ((hi.reported hc).2 p hp).imp id fun h => ⟨h.1, rfl⟩⟩,
      fun hu hp => (hi.unreported hu hp).imp id fun h => ⟨rfl, h.2⟩⟩

theorem Reachable.endInv {r : TaskRunner} (h : Reachable env r) : EndInv env r := by
  induction h with
  | init => exact ⟨fun hc => hc.elim nofun nofun, fun ⟨_, hp, _⟩ => nomatch hp⟩
  | step hr hs ih => exact ih.step hr.shape hr.failInv hs

/-- After a failed or skipped tasklet, `Run`'s last call is the first failure's reclaim or cancel
call, or else no tasklet failed and the caller had cancelled the context. -/
theorem unreported_tasklet_first_failure_or_caller_cancel {r : TaskRunner} (h : Reachable env r)
    (hu : ∃ p ∈ r.tasklets, p.unreported = true) (hr : r.run.returning = true) :
    (∃ e, r.fails.head? = some e ∧
      r.sent.getLast? = some (cancelOrReclaimCall env.codeOverload e) ∧
      .completeTask ∉ r.sent) ∨
    r.parentCancelled = true ∧ .failed ∉ r.tasklets := by
  refine (h.endInv.unreported hu (RunPc.pastWait_of_returning hr)).imp ?_ id
  rintro ⟨e, he, hcase⟩
  have hlast : r.sent.getLast? = some (cancelOrReclaimCall env.codeOverload e) := by
    rcases hcase with hcase | hcase | ⟨-, hlast⟩
    · rw [hcase] at hr
      cases hr
    · rw [hcase] at hr
      cases hr
    · exact hlast
  refine ⟨e, he, hlast, fun hc => ?_⟩
  rw [(h.shape.completeTask_last hc).2, Option.some.injEq] at hlast
  exact cancelOrReclaimCall_ne_completeTask _ _ hlast.symm

theorem unreported_tasklet_first_failure_or_caller_cancel_callerCancelledRun :
    Reachable (oneTaskletEnv 0) callerCancelledRun ∧
      (∃ p ∈ callerCancelledRun.tasklets, p.unreported = true) ∧
      callerCancelledRun.run.returning = true ∧
      ((∃ e, callerCancelledRun.fails.head? = some e ∧
        callerCancelledRun.sent.getLast? =
          some (cancelOrReclaimCall (oneTaskletEnv 0).codeOverload e) ∧
        .completeTask ∉ callerCancelledRun.sent) ∨
      callerCancelledRun.parentCancelled = true ∧ .failed ∉ callerCancelledRun.tasklets) :=
  ⟨callerCancelledRun_reachable, ⟨_, List.mem_singleton_self _, rfl⟩, rfl,
    unreported_tasklet_first_failure_or_caller_cancel callerCancelledRun_reachable
      ⟨_, List.mem_singleton_self _, rfl⟩ rfl⟩

/-- A task is completed only when `GenTasklets` succeeded and each of its tasklets ran and
reported, or was skipped after the caller cancelled the context; none failed. -/
theorem completed_only_if_reported_or_caller_cancelled {r : TaskRunner} (h : Reachable env r)
    (hc : .completeTask ∈ r.sent) :
    ∃ ts, env.genTasklets = .ok ts ∧ r.tasklets.length = ts.length ∧
      ∀ p ∈ r.tasklets, p = .reported ∨ p = .skipped ∧ r.parentCancelled = true := by
  obtain ⟨⟨ts, hts⟩, hall⟩ := h.endInv.reported (.inr hc)
  have hbefore := RunPc.beforeTasklets_of_returning (h.shape.completeTask_last hc).1
  exact ⟨ts, hts, h.shape.length hbefore ts hts, hall⟩

theorem completed_only_if_reported_or_caller_cancelled_callerCancelledRun :
    Reachable (oneTaskletEnv 0) callerCancelledRun ∧ .completeTask ∈ callerCancelledRun.sent ∧
      ∃ ts, (oneTaskletEnv 0).genTasklets = .ok ts ∧
        callerCancelledRun.tasklets.length = ts.length ∧ ∀ p ∈ callerCancelledRun.tasklets,
          p = .reported ∨ p = .skipped ∧ callerCancelledRun.parentCancelled = true :=
  ⟨callerCancelledRun_reachable, by decide,
    completed_only_if_reported_or_caller_cancelled callerCancelledRun_reachable (by decide)⟩

end BlobStore.Worker
