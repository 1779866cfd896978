import BlobStore.Worker.TaskRunnerSafe

/-! The task's statistics under the runner: `InitTotal`, the `Add` of the part migrated before,
and one `Add` per tasklet that runs, in any order. -/

namespace BlobStore.Worker

open BlobStore.Access (u64 u64sub)

/-- What an `Add` call adds to the data size and to the shard count. -/
def StatsCall.addedData : StatsCall → Nat
  | .add dataSize _ => dataSize
  | .initTotal .. => 0

def StatsCall.addedShards : StatsCall → Nat
  | .add _ shardCnt => shardCnt
  | .initTotal .. => 0

/-- The tasklets whose goroutine is at a point where `P` holds, in order. -/
def taskletsWhere (P : TaskletPc → Bool) : List Tasklet → List TaskletPc → List Tasklet
  | t :: ts, p :: ps => if P p then t :: taskletsWhere P ts ps else taskletsWhere P ts ps
  | _, _ => []

def TaskletPc.isSkipped : TaskletPc → Bool
  | .skipped => true
  | _ => false

/-- The stats calls of `Run`'s start, for the tasklets `ts`. -/
def startStats (benchmarkBids : List ShardInfoSimple) (ts : List Tasklet) : List StatsCall :=
  [.initTotal (totalDataSizeAndShardCnt benchmarkBids).1 (totalDataSizeAndShardCnt benchmarkBids).2,
    .add (u64sub (totalDataSizeAndShardCnt benchmarkBids).1
        (totalDataSizeAndShardCnt (ts.map Tasklet.bids).flatten).1)
      (u64sub (totalDataSizeAndShardCnt benchmarkBids).2
        (totalDataSizeAndShardCnt (ts.map Tasklet.bids).flatten).2),
    .add 0 0]

theorem taskletsWhere_set_of_eq {P : TaskletPc → Bool} {ts : List Tasklet}
    {pcs : List TaskletPc} {i : Nat} {p q : TaskletPc} (hi : pcs[i]? = some p) (hq : P q = P p) :
    taskletsWhere P ts (pcs.set i q) = taskletsWhere P ts pcs := by
  induction pcs generalizing i ts with
  | nil => simp at hi
  | cons a pcs ih =>
    cases ts with
    | nil => cases i <;> rfl
    | cons t ts =>
      cases i with
      | zero =>
        simp only [List.getElem?_cons_zero, Option.some.injEq] at hi
        subst hi
        simp only [List.set_cons_zero, taskletsWhere, hq]
      | succ i =>
        simp only [List.getElem?_cons_succ] at hi
        simp only [List.set_cons_succ, taskletsWhere, ih hi]

theorem taskletsWhere_set_reporting {ts : List Tasklet} {pcs : List TaskletPc} {i : Nat}
    (hi : pcs[i]? = some .adding) (hlen : pcs.length = ts.length) :
    (taskletsWhere TaskletPc.added ts (pcs.set i .reporting)).Perm
      (ts.getD i ⟨[]⟩ :: taskletsWhere TaskletPc.added ts pcs) := by
  induction pcs generalizing i ts with
  | nil => simp at hi
  | cons a pcs ih =>
    cases ts with
    | nil => cases hlen
    | cons t ts =>
      cases i with
      | zero =>
        simp only [List.getElem?_cons_zero, Option.some.injEq] at hi
        subst hi
        simp only [List.set_cons_zero, taskletsWhere, TaskletPc.added, List.getD_cons_zero,
          if_true, if_false, Bool.false_eq_true]
        exact List.Perm.refl _
      | succ i =>
        simp only [List.getElem?_cons_succ] at hi
        simp only [List.length_cons, Nat.add_right_cancel_iff] at hlen
        simp only [List.set_cons_succ, taskletsWhere, List.getD_cons_succ]
        split
        · exact ((ih hi hlen).cons t).trans (List.Perm.swap _ _ _)
        · exact ih hi hlen

theorem taskletsWhere_append_perm {P Q : TaskletPc → Bool} {ts : List Tasklet}
    {pcs : List TaskletPc} (hPQ : ∀ p ∈ pcs, Q p = !P p) (hlen : pcs.length = ts.length) :
    (taskletsWhere P ts pcs ++ taskletsWhere Q ts pcs).Perm ts := by
  induction pcs generalizing ts with
  | nil => cases ts with
    | nil => exact List.Perm.nil
    | cons => cases hlen
  | cons p pcs ih =>
    cases ts with
    | nil => cases hlen
    | cons t ts =>
      simp only [List.mem_cons, forall_eq_or_imp] at hPQ
      simp only [List.length_cons, Nat.add_right_cancel_iff] at hlen
      have hrest := ih hPQ.2 hlen
      simp only [taskletsWhere, hPQ.1]
      cases P p
      · exact List.perm_middle.trans (hrest.cons t)
      · exact hrest.cons t

theorem taskletsWhere_queued {P : TaskletPc → Bool} (hq : P .queued = false)
    (ts ts' : List Tasklet) : taskletsWhere P ts (ts'.map fun _ => .queued) = [] := by
  induction ts' generalizing ts with
  | nil => cases ts <;> rfl
  | cons _ ts' ih =>
    cases ts with
    | nil => rfl
    | cons t ts => simp only [List.map_cons, taskletsWhere, hq, ih]; rfl

/-- After the start, the stats are the start and one `Add` per tasklet past its `Add`. -/
structure StatsInv (env : Env) (r : TaskRunner) : Prop where
  stats : r.run.beforeTasklets = false → ∀ ts, env.genTasklets = .ok ts →
    ∃ rest, r.stats = startStats env.benchmarkBids ts ++ rest ∧
      rest.Perm ((taskletsWhere TaskletPc.added ts r.tasklets).map addCall)

variable {env : Env}

theorem StatsInv.of_same {r r' : TaskRunner} (hi : StatsInv env r)
    (hb : r.run.beforeTasklets = false) (hstats : r'.stats = r.stats)
    (hadded : ∀ ts : List Tasklet,
      taskletsWhere TaskletPc.added ts r'.tasklets = taskletsWhere TaskletPc.added ts r.tasklets) :
    StatsInv env r' where
  stats _ ts hts := by
    rw [hstats, hadded]
    exact hi.stats hb ts hts

theorem StatsInv.step {r r' : TaskRunner} (hs : Shape env r) (hi : StatsInv env r)
    (h : Step env r r') : StatsInv env r' := by
  cases h with
  | runStart _ => exact ⟨nofun⟩
  | genErr h0 hg => exact ⟨fun _ ts hts => by rw [hg] at hts; cases hts⟩
  | @genOk ts remain h0 hg hrem =>
    refine ⟨fun _ ts' hts => ?_⟩
    rw [hg] at hts
    cases hts
    rw [totalDataSizeAndShardCntByTasklets_eq, Option.some.injEq] at hrem
    subst hrem
    refine ⟨[], ?_, by
      simp only [TaskRunner.startTasklets, taskletsWhere_queued (P := TaskletPc.added) rfl,
        List.map_nil]
      exact List.Perm.nil⟩
    simp only [TaskRunner.startTasklets, (hs.fresh (by rw [h0]; rfl)).2.1, startStats,
      List.nil_append, List.append_nil]
  | wait h0 _ | readStopSome h0 _ | readStopNone h0 _ | checkErr _ h0 | checkOk h0
  | cancelOrReclaim h0 | setStopped h0 | complete h0 | setSuccess h0 =>
    exact hi.of_same (by rw [h0]; rfl) rfl fun _ => rfl
  | skip hi' _ | execErr _ hi' _ | execOk hi' _ | report hi' =>
    exact hi.of_same (by rw [hs.run_wait hi' rfl]; rfl) rfl fun _ =>
      taskletsWhere_set_of_eq hi' rfl
  | fail hi' =>
    exact hi.of_same (by rw [hs.run_wait hi' rfl]; rfl) rfl fun _ =>
      taskletsWhere_set_of_eq hi' rfl
  | @add i hi' =>
    have hw := hs.run_wait hi' rfl
    refine ⟨fun _ ts hts => ?_⟩
    obtain ⟨rest, hstats, hperm⟩ := hi.stats (by rw [hw]; rfl) ts hts
    have hlen := hs.length (by rw [hw]; rfl) ts hts
    have ht : env.tasklet i = ts.getD i ⟨[]⟩ := by simp only [Env.tasklet, Env.tasklets, hts]
    refine ⟨rest ++ [addCall (env.tasklet i)], by rw [hstats, List.append_assoc], ?_⟩
    refine (List.perm_append_singleton _ _).trans ?_
    rw [ht]
    exact ((hperm.cons _).trans (by rw [← List.map_cons])).trans
      ((taskletsWhere_set_reporting hi' hlen).map addCall).symm
  | stopStatus _ | stopFail _ | callerCancel _ => exact ⟨hi.stats⟩

theorem Reachable.statsInv {r : TaskRunner} (h : Reachable env r) : StatsInv env r := by
  induction h with
  | init => exact ⟨nofun⟩
  | step hr hs ih => exact ih.step hr.shape hs

theorem u64_sum_dataSizeByte (ts : List Tasklet) :
    u64 (ts.map Tasklet.dataSizeByte).sum = sumSize (ts.map Tasklet.bids).flatten := by
  induction ts with
  | nil => rfl
  | cons t ts ih =>
    simp only [List.map_cons, List.sum_cons, List.flatten_cons, Tasklet.dataSizeByte] at ih ⊢
    rw [sumSize_eq, sumSize_eq, List.map_append, List.sum_append] at *
    simp only [u64] at ih ⊢
    omega

theorem u64_sum_shardCnt (ts : List Tasklet) :
    u64 (ts.map fun t => u64 t.bids.length).sum = u64 (ts.map Tasklet.bids).flatten.length := by
  induction ts with
  | nil => rfl
  | cons t ts ih =>
    simp only [List.map_cons, List.sum_cons, List.flatten_cons, List.length_append, u64] at ih ⊢
    omega

theorem sumSize_lt (bids : List ShardInfoSimple) : sumSize bids < 2 ^ 64 := by
  rw [sumSize_eq]
  exact Nat.mod_lt _ (by norm_num)

theorem u64_start_add_all (total remain rest : Nat) (ht : total < 2 ^ 64)
    (hrest : u64 rest = remain) : u64 (u64sub total remain + rest) = total := by
  simp only [u64, u64sub] at hrest ⊢
  omega

/-- At completion the stats start with `InitTotal` of the totals, and all `Add`s with the skipped
tasklets' bids sum, in `uint64`, to exactly those totals. -/
theorem completed_stats_account_for_skipped {r : TaskRunner} (h : Reachable env r)
    (hc : .completeTask ∈ r.sent) :
    r.stats.head? = some (.initTotal (totalDataSizeAndShardCnt env.benchmarkBids).1
      (totalDataSizeAndShardCnt env.benchmarkBids).2) ∧
    u64 ((r.stats.map StatsCall.addedData).sum +
      ((taskletsWhere TaskletPc.isSkipped env.tasklets r.tasklets).map
        Tasklet.dataSizeByte).sum) = (totalDataSizeAndShardCnt env.benchmarkBids).1 ∧
    u64 ((r.stats.map StatsCall.addedShards).sum +
      ((taskletsWhere TaskletPc.isSkipped env.tasklets r.tasklets).map
        fun t => u64 t.bids.length).sum) = (totalDataSizeAndShardCnt env.benchmarkBids).2 := by
  obtain ⟨⟨ts, hts⟩, hall⟩ := h.endInv.reported (.inr hc)
  have hbefore := RunPc.beforeTasklets_of_returning (h.shape.completeTask_last hc).1
  have hlen := h.shape.length hbefore ts hts
  obtain ⟨rest, hstats, hperm⟩ := h.statsInv.stats hbefore ts hts
  have hsplit := taskletsWhere_append_perm (P := TaskletPc.added) (Q := TaskletPc.isSkipped)
    (fun p hp => by rcases hall p hp with rfl | ⟨rfl, -⟩ <;> rfl) hlen
  have hts' : env.tasklets = ts := by simp only [Env.tasklets, hts]
  have hdata := ((hperm.map StatsCall.addedData).append_right
    ((taskletsWhere TaskletPc.isSkipped ts r.tasklets).map Tasklet.dataSizeByte)).sum_eq
  have hshards := ((hperm.map StatsCall.addedShards).append_right
    ((taskletsWhere TaskletPc.isSkipped ts r.tasklets).map fun t => u64 t.bids.length)).sum_eq
  simp only [List.map_map, ← List.map_append, Function.comp_def, addCall, StatsCall.addedData,
    StatsCall.addedShards] at hdata hshards
  rw [(hsplit.map _).sum_eq] at hdata hshards
  refine ⟨by rw [hstats]; rfl, ?_, ?_⟩
  · rw [hts', hstats, List.map_append, List.sum_append, Nat.add_assoc, ← List.sum_append, hdata]
    simp only [startStats, List.map_cons, List.map_nil, List.sum_cons, List.sum_nil,
      StatsCall.addedData, Nat.add_zero, Nat.zero_add]
    exact u64_start_add_all _ _ _ (sumSize_lt _) (u64_sum_dataSizeByte ts)
  · rw [hts', hstats, List.map_append, List.sum_append, Nat.add_assoc, ← List.sum_append, hshards]
    simp only [startStats, List.map_cons, List.map_nil, List.sum_cons, List.sum_nil,
      StatsCall.addedShards, Nat.add_zero, Nat.zero_add]
    exact u64_start_add_all _ _ _ (Nat.mod_lt _ (by norm_num)) (u64_sum_shardCnt ts)

theorem completed_stats_account_for_skipped_callerCancelledRun :
    Reachable (oneTaskletEnv 0) callerCancelledRun ∧ .completeTask ∈ callerCancelledRun.sent ∧
    callerCancelledRun.stats.head? = some
      (.initTotal (totalDataSizeAndShardCnt (oneTaskletEnv 0).benchmarkBids).1
        (totalDataSizeAndShardCnt (oneTaskletEnv 0).benchmarkBids).2) ∧
    u64 ((callerCancelledRun.stats.map StatsCall.addedData).sum +
      ((taskletsWhere TaskletPc.isSkipped (oneTaskletEnv 0).tasklets
        callerCancelledRun.tasklets).map Tasklet.dataSizeByte).sum) =
      (totalDataSizeAndShardCnt (oneTaskletEnv 0).benchmarkBids).1 ∧
    u64 ((callerCancelledRun.stats.map StatsCall.addedShards).sum +
      ((taskletsWhere TaskletPc.isSkipped (oneTaskletEnv 0).tasklets
        callerCancelledRun.tasklets).map fun t => u64 t.bids.length).sum) =
      (totalDataSizeAndShardCnt (oneTaskletEnv 0).benchmarkBids).2 :=
  ⟨callerCancelledRun_reachable, by decide,
    completed_stats_account_for_skipped callerCancelledRun_reachable (by decide)⟩

end BlobStore.Worker
