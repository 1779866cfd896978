import BlobStore.VolumeMgr.IdleVolumes

/-! The volume allocator of `clustermgr/volumemgr/alloc.go`: `activeVolumes`, whose `diskLoad`
counts the allocated units on each disk (`vUnits vid` lists a volume's disks), and `PreAlloc`
with its `RETRY` loop that relaxes its thresholds after each pass. -/

namespace BlobStore.VolumeMgr

/-- `activeVolumes`: `allocatorVols` maps a host to the vids of its `volumeMap`. -/
structure ActiveVolumes where
  allocatorVols : AList (fun _ : String => List Nat)
  diskLoad : Nat → Int

namespace ActiveVolumes

/-- The empty accounting that `newVolumeAllocator` makes. -/
def empty : ActiveVolumes := ⟨∅, fun _ => 0⟩

variable (vUnits : Nat → List Nat)

/-- `diskLoad[unit.vuInfo.DiskID] += delta` for every unit, in order. -/
def addLoad (delta : Int) (units : List Nat) (load : Nat → Int) : Nat → Int :=
  units.foldl (fun load d => Function.update load d (load d + delta)) load

/-- `insertAllocatedVolumes(v, host)`: create the host's map if needed, set `volM[v.vid] = v`,
and count every unit of `v` on its disk. -/
def insertAllocatedVolumes (a : ActiveVolumes) (vid : Nat) (host : String) : ActiveVolumes :=
  let volM := (a.allocatorVols.lookup host).getD []
  { allocatorVols := a.allocatorVols.insert host (if vid ∈ volM then volM else volM ++ [vid]),
    diskLoad := addLoad 1 (vUnits vid) a.diskLoad }

/-- `removeAllocatedVolumes(vid, host)`: when the host has a map, uncount the volume's units if
it is recorded there, and delete it. -/
def removeAllocatedVolumes (a : ActiveVolumes) (vid : Nat) (host : String) : ActiveVolumes :=
  match a.allocatorVols.lookup host with
  | none => a
  | some volM =>
    { allocatorVols := a.allocatorVols.insert host (volM.erase vid),
      diskLoad := if vid ∈ volM then addLoad (-1) (vUnits vid) a.diskLoad else a.diskLoad }

/-- `isOverload(vUnits, diskLoadThreshold)`: some unit's disk carries at least the threshold. -/
def isOverload (a : ActiveVolumes) (units : List Nat) (diskLoadThreshold : Int) : Bool :=
  units.any fun d => decide (diskLoadThreshold ≤ a.diskLoad d)

/-- A call made by `VolumeStatusActiveCallback` or `VolumeStatusIdleCallback` with the host
decoded from the volume's token. -/
inductive Op where
  | insert (vid : Nat) (host : String)
  | remove (vid : Nat) (host : String)
  deriving DecidableEq, Repr

/-- The vid a call is about. -/
def Op.vid : Op → Nat
  | .insert vid _ => vid
  | .remove vid _ => vid

def apply (a : ActiveVolumes) : Op → ActiveVolumes
  | .insert vid host => insertAllocatedVolumes vUnits a vid host
  | .remove vid host => removeAllocatedVolumes vUnits a vid host

def run (a : ActiveVolumes) (ops : List Op) : ActiveVolumes := ops.foldl (apply vUnits) a

/-- The units on disk `d` of the volumes `vids`. -/
def volLoad (vids : List Nat) (d : Nat) : Nat := (vids.map fun v => (vUnits v).count d).sum

/-- The units on disk `d` summed over every volume recorded in `allocatorVols`, host by host:
what `diskLoad[d]` stands for. -/
def load (a : ActiveVolumes) (d : Nat) : Nat :=
  (a.allocatorVols.entries.map fun e => volLoad vUnits e.2 d).sum

/-- How far `diskLoad[d]` is above the load of the recorded volumes. -/
def drift (a : ActiveVolumes) (d : Nat) : Int := a.diskLoad d - load vUnits a d

/-- An insertion that finds the volume already recorded under its host. -/
def overwrites (a : ActiveVolumes) : Op → Bool
  | .insert vid host => vid ∈ (a.allocatorVols.lookup host).getD []
  | .remove _ _ => false

/-- A run in which no insertion finds its volume already recorded under its host. -/
def freshRun : ActiveVolumes → List Op → Bool
  | _, [] => true
  | a, op :: ops => !overwrites a op && freshRun (apply vUnits a op) ops

@[simp] theorem addLoad_apply (delta : Int) (units : List Nat) (load : Nat → Int) (d : Nat) :
    addLoad delta units load d = load d + delta * units.count d := by
  induction units generalizing load with
  | nil => simp [addLoad]
  | cons u us ih =>
    rw [addLoad, List.foldl_cons, ← addLoad, ih, List.count_cons]
    by_cases h : u = d
    · subst h; simp only [Function.update_same, beq_self_eq_true, if_true]; push_cast; ring
    · simp only [Function.update_noteq (Ne.symm h), beq_iff_eq, h, if_false, add_zero]

theorem load_split (a : ActiveVolumes) (host : String) (d : Nat) :
    load vUnits a d = volLoad vUnits ((a.allocatorVols.lookup host).getD []) d +
      ((a.allocatorVols.entries.kerase host).map fun e => volLoad vUnits e.2 d).sum := by
  unfold load
  by_cases hk : host ∈ a.allocatorVols.entries.keys
  · obtain ⟨b, l₁, l₂, hn, he, hke⟩ := List.exists_of_kerase hk
    have hl : a.allocatorVols.lookup host = some b := by
      rw [AList.lookup, he, List.dlookup_append, List.dlookup_eq_none.mpr hn, List.dlookup_cons_eq]
      rfl
    rw [hl, hke, he]
    simp only [List.map_append, List.map_cons, List.sum_append, List.sum_cons, Option.getD_some]
    omega
  · rw [List.kerase_of_not_mem_keys hk, AList.lookup_eq_none.mpr hk]
    simp [volLoad]

theorem load_of_insert {a a' : ActiveVolumes} {host : String} {vids : List Nat}
    (h : a'.allocatorVols = a.allocatorVols.insert host vids) (d : Nat) :
    load vUnits a' d = volLoad vUnits vids d +
      ((a.allocatorVols.entries.kerase host).map fun e => volLoad vUnits e.2 d).sum := by
  simp only [load, h, AList.insert_entries, List.map_cons, List.sum_cons]

theorem volLoad_append (vids : List Nat) (vid d : Nat) :
    volLoad vUnits (vids ++ [vid]) d = volLoad vUnits vids d + (vUnits vid).count d := by
  simp [volLoad]

theorem volLoad_erase {vids : List Nat} {vid : Nat} (h : vid ∈ vids) (d : Nat) :
    volLoad vUnits vids d = volLoad vUnits (vids.erase vid) d + (vUnits vid).count d := by
  rw [volLoad, ((List.perm_cons_erase h).map _).sum_eq, List.map_cons, List.sum_cons, volLoad,
    Nat.add_comm]

theorem drift_apply (a : ActiveVolumes) (op : Op) (d : Nat) :
    drift vUnits (apply vUnits a op) d =
      drift vUnits a d + if overwrites a op then ((vUnits op.vid).count d : Int) else 0 := by
  cases op with
  | insert vid host =>
    simp only [apply, overwrites, drift, insertAllocatedVolumes, Op.vid]
    rw [load_of_insert vUnits rfl, load_split vUnits a host d, addLoad_apply]
    by_cases h : vid ∈ (a.allocatorVols.lookup host).getD []
    · simp only [h, if_true, decide_True]; ring
    · simp only [h, if_false, decide_False, volLoad_append]; push_cast; ring
  | remove vid host =>
    simp only [apply, overwrites, Bool.false_eq_true, if_false, add_zero, drift,
      removeAllocatedVolumes]
    cases hl : a.allocatorVols.lookup host with
    | none => rfl
    | some vids =>
      rw [load_of_insert vUnits rfl, load_split vUnits a host d, hl, Option.getD_some]
      dsimp only
      by_cases h : vid ∈ vids
      · rw [if_pos h, volLoad_erase vUnits h d, addLoad_apply]; push_cast; ring
      · rw [if_neg h, List.erase_of_not_mem h]

theorem drift_le_run (a : ActiveVolumes) (ops : List Op) (d : Nat) :
    drift vUnits a d ≤ drift vUnits (run vUnits a ops) d := by
  induction ops generalizing a with
  | nil => exact le_refl _
  | cons op ops ih =>
    refine le_trans ?_ (ih (apply vUnits a op))
    rw [drift_apply]
    split_ifs
    · exact Int.le_add_of_nonneg_right (Int.ofNat_nonneg _)
    · rw [add_zero]

theorem drift_run_of_fresh (a : ActiveVolumes) (ops : List Op)
    (h : freshRun vUnits a ops = true) (d : Nat) :
    drift vUnits (run vUnits a ops) d = drift vUnits a d := by
  induction ops generalizing a with
  | nil => rfl
  | cons op ops ih =>
    simp only [freshRun, Bool.and_eq_true, Bool.not_eq_true'] at h
    rw [run, List.foldl_cons, ← run, ih _ h.2, drift_apply, h.1]
    simp

@[simp] theorem drift_empty (d : Nat) : drift vUnits empty d = 0 := rfl

/-- In every run, `diskLoad[d]` is at least the units on `d` of the recorded volumes, so never
negative, and exactly those units when no volume is inserted twice under one host. -/
theorem diskLoad_accounts_recorded_units (ops : List Op) (d : Nat) :
    (load vUnits (run vUnits empty ops) d : Int) ≤ (run vUnits empty ops).diskLoad d ∧
      0 ≤ (run vUnits empty ops).diskLoad d ∧
      (freshRun vUnits empty ops = true →
        (run vUnits empty ops).diskLoad d = load vUnits (run vUnits empty ops) d) := by
  have hle := drift_le_run vUnits empty ops d
  rw [drift_empty, drift] at hle
  refine ⟨by omega, by omega, fun h => ?_⟩
  have := drift_run_of_fresh vUnits empty ops h d
  rw [drift_empty, drift] at this
  omega

/-- Two volumes on disk 7 inserted and one removed, no volume twice. -/
theorem diskLoad_accounts_recorded_units_fresh :
    freshRun (fun _ => [7]) empty [.insert 1 "h", .insert 2 "h", .remove 1 "h"] = true ∧
    ((load (fun _ => [7]) (run (fun _ => [7]) empty
        [.insert 1 "h", .insert 2 "h", .remove 1 "h"]) 7 : Int) ≤
      (run (fun _ => [7]) empty [.insert 1 "h", .insert 2 "h", .remove 1 "h"]).diskLoad 7 ∧
      0 ≤ (run (fun _ => [7]) empty [.insert 1 "h", .insert 2 "h", .remove 1 "h"]).diskLoad 7 ∧
      (freshRun (fun _ => [7]) empty [.insert 1 "h", .insert 2 "h", .remove 1 "h"] = true →
        (run (fun _ => [7]) empty [.insert 1 "h", .insert 2 "h", .remove 1 "h"]).diskLoad 7 =
          load (fun _ => [7])
            (run (fun _ => [7]) empty [.insert 1 "h", .insert 2 "h", .remove 1 "h"]) 7)) :=
  ⟨by decide, diskLoad_accounts_recorded_units _ _ 7⟩

/-- Two insertions of one volume and host, then one removal: nothing is recorded, yet disk 7 still
carries one unit, which `isOverload` reports at threshold 1. -/
theorem double_insert_leaves_phantom_load :
    (run (fun _ => [7]) empty [.insert 1 "h", .insert 1 "h", .remove 1 "h"]).diskLoad 7 = 1 ∧
    load (fun _ => [7]) (run (fun _ => [7]) empty [.insert 1 "h", .insert 1 "h", .remove 1 "h"]) 7 = 0 ∧
    isOverload (run (fun _ => [7]) empty [.insert 1 "h", .insert 1 "h", .remove 1 "h"]) [7] 1 =
      true := by
  decide

end ActiveVolumes

/-- `healthiestScore`, where the score threshold of `PreAlloc` starts. -/
def healthiestScore : Int := 0

/-- `MinimumDiskLoad`, where its disk-load threshold starts. -/
def minimumDiskLoad : Int := 0

/-- `NoDiskLoadThreshold`, `int(^uint(0) >> 1)` on a 64-bit platform. -/
def noDiskLoadThreshold : Int := 2 ^ 63 - 1

def isEnableDiskLoad (allocatableDiskLoadThreshold : Int) : Bool :=
  allocatableDiskLoadThreshold ≠ noDiskLoadThreshold

/-- What `PreAlloc` reads besides the idle index; `canAlloc` and `canInsert` (not in the sources)
are any predicates of the volume, modelled from the spec. -/
structure PreAllocEnv where
  canAlloc : Volume → Int → Bool
  canInsert : Volume → Bool
  vUnits : Nat → List Nat
  actives : ActiveVolumes
  allocatableDiskLoadThreshold : Int
  /-- `PutQuorum - getShardNum(mode)` of the mode's tactic. -/
  allocatableScoreThreshold : Int

/-- The variables of the `RETRY` loop of `PreAlloc`. -/
structure Retry where
  allIdles : List Volume
  scoreThreshold : Int
  diskLoadThreshold : Int
  isEnableDiskLoad : Bool
  optionalVids : List Nat
  idles : IdleVolumes

namespace Retry

variable (env : PreAllocEnv)

/-- The body of the loop over `allIdles` for one volume: append it to `optionalVids`, move it to
the not-allocatable list, or keep it in `assignable`. -/
def visit (st : Retry) (acc : List Nat × IdleVolumes × List Volume) (volume : Volume) :
    List Nat × IdleVolumes × List Volume :=
  if env.canAlloc volume st.scoreThreshold && (!st.isEnableDiskLoad ||
      !env.actives.isOverload (env.vUnits volume.vid) st.diskLoadThreshold) then
    (acc.1 ++ [volume.vid], acc.2)
  else if !env.canAlloc volume env.allocatableScoreThreshold && env.canInsert volume then
    (acc.1, acc.2.1.addNotAllocatable volume, acc.2.2)
  else (acc.1, acc.2.1, acc.2.2 ++ [volume])

/-- The thresholds at the last volume of a pass: raise the disk-load threshold, then turn disk
load off, then lower the score threshold to `allocatableScoreThreshold`. -/
def relax (st : Retry) : Retry :=
  if st.isEnableDiskLoad && st.diskLoadThreshold < env.allocatableDiskLoadThreshold then
    { st with diskLoadThreshold := st.diskLoadThreshold + 1 }
  else if st.isEnableDiskLoad then { st with isEnableDiskLoad := false }
  else if st.scoreThreshold > env.allocatableScoreThreshold then
    { st with scoreThreshold := st.scoreThreshold - 1 }
  else st

/-- One pass over a non-empty `allIdles`, ended at its last volume by `relax`,
`allIdles = assignable` and `goto RETRY`. -/
def pass (st : Retry) : Retry :=
  let acc := st.allIdles.foldl (visit env st) (st.optionalVids, st.idles, [])
  { relax env st with allIdles := acc.2.2, optionalVids := acc.1, idles := acc.2.1 }

/-- The `RETRY` loop with at most `fuel` passes, `none` when it has not left by then. It leaves
when `allIdles` is empty: the loop over it then never reaches its last index. -/
def loop : Nat → Retry → Option Retry
  | 0, _ => none
  | fuel + 1, st => if st.allIdles = [] then some st else loop fuel (pass env st)

end Retry

/-- `PreAlloc(mode, count)` with at most `fuel` passes of its `RETRY` loop; `none` when the loop has
not left within `fuel` passes. -/
def preAlloc (env : PreAllocEnv) (idleVolumes : Option IdleVolumes) (count : Int) (fuel : Nat) :
    Option (List Nat × Int × Option IdleVolumes) :=
  match idleVolumes with
  | none => some ([], minimumDiskLoad, none)
  | some idleVolumes =>
    (Retry.loop env fuel ⟨idleVolumes.getAllIdles, healthiestScore, minimumDiskLoad,
      isEnableDiskLoad env.allocatableDiskLoadThreshold, [], idleVolumes⟩).map fun st =>
        let r := st.idles.allocFromOptions st.optionalVids count
        (r.1, st.diskLoadThreshold, some r.2)

namespace Retry

variable {env : PreAllocEnv}

theorem visit_assignable (st : Retry) (acc : List Nat × IdleVolumes × List Volume) (w : Volume) :
    (visit env st acc w).2.2 =
      if (env.canAlloc w st.scoreThreshold && (!st.isEnableDiskLoad ||
          !env.actives.isOverload (env.vUnits w.vid) st.diskLoadThreshold)) ||
          (!env.canAlloc w env.allocatableScoreThreshold && env.canInsert w)
      then acc.2.2 else acc.2.2 ++ [w] := by
  unfold visit
  cases (env.canAlloc w st.scoreThreshold && (!st.isEnableDiskLoad ||
      !env.actives.isOverload (env.vUnits w.vid) st.diskLoadThreshold)) <;>
    cases (!env.canAlloc w env.allocatableScoreThreshold && env.canInsert w) <;> rfl

theorem mem_visit_of_mem (st : Retry) {acc : List Nat × IdleVolumes × List Volume} {v : Volume}
    (hv : v ∈ acc.2.2) (w : Volume) : v ∈ (visit env st acc w).2.2 := by
  rw [visit_assignable]
  split_ifs <;> simp [hv]

theorem mem_foldl_visit (st : Retry) {v : Volume} (ha : env.canAlloc v st.scoreThreshold = false)
    (hs : env.canAlloc v env.allocatableScoreThreshold = false) (hi : env.canInsert v = false) :
    ∀ (L : List Volume) (acc : List Nat × IdleVolumes × List Volume),
      v ∈ acc.2.2 ∨ v ∈ L → v ∈ (L.foldl (visit env st) acc).2.2
  | [], _, h => h.resolve_right (List.not_mem_nil v)
  | w :: L, acc, h => by
    refine mem_foldl_visit st ha hs hi L _ ?_
    rcases h with h | h
    · exact .inl (mem_visit_of_mem st h w)
    rcases List.mem_cons.mp h with rfl | h
    · left
      simp [visit_assignable, ha, hs, hi]
    · exact .inr h

theorem le_relax_scoreThreshold (st : Retry)
    (h : env.allocatableScoreThreshold ≤ st.scoreThreshold) :
    env.allocatableScoreThreshold ≤ (relax env st).scoreThreshold := by
  unfold relax
  split_ifs <;> simp only [gt_iff_lt] at * <;> omega

/-- What keeps the loop going: a volume `v` that fails `canInsert`, and `canAlloc` at
`allocatableScoreThreshold`, is left in `allIdles` with the score threshold not below it. -/
def Stuck (env : PreAllocEnv) (v : Volume) (st : Retry) : Prop :=
  v ∈ st.allIdles ∧ env.allocatableScoreThreshold ≤ st.scoreThreshold

section

variable {v : Volume}
  (hmono : ∀ t t', t' ≤ t → env.canAlloc v t = true → env.canAlloc v t' = true)
  (hs : env.canAlloc v env.allocatableScoreThreshold = false) (hi : env.canInsert v = false)
include hmono hs hi

theorem Stuck.pass {st : Retry} (h : Stuck env v st) : Stuck env v (pass env st) := by
  have ha : env.canAlloc v st.scoreThreshold = false :=
    Bool.eq_false_iff.mpr fun hc => by rw [hmono _ _ h.2 hc] at hs; cases hs
  exact ⟨mem_foldl_visit st ha hs hi _ _ (.inr h.1), le_relax_scoreThreshold st h.2⟩

theorem Stuck.loop_eq_none :
    ∀ (fuel : Nat) {st : Retry}, Stuck env v st → loop env fuel st = none
  | 0, _, _ => rfl
  | fuel + 1, st, h => by
    rw [loop, if_neg (List.ne_nil_of_mem h.1)]
    exact Stuck.loop_eq_none fuel (h.pass hmono hs hi)

end

/-- The passes left before the thresholds stop moving. -/
def slack (env : PreAllocEnv) (st : Retry) : Nat :=
  (if st.isEnableDiskLoad then (env.allocatableDiskLoadThreshold - st.diskLoadThreshold).toNat + 1
    else 0) + (st.scoreThreshold - env.allocatableScoreThreshold).toNat

theorem slack_pass (st : Retry) : slack env (pass env st) = slack env st - 1 := by
  show slack env (relax env st) = _
  unfold relax
  cases he : st.isEnableDiskLoad <;>
    simp only [Bool.true_and, Bool.false_and, decide_eq_true_eq, Bool.false_eq_true, if_false,
      if_true] <;>
    split_ifs <;> simp only [slack, he, Bool.false_eq_true, if_true, if_false] <;> omega

theorem foldl_visit_subset (st : Retry) :
    ∀ (L : List Volume) (acc : List Nat × IdleVolumes × List Volume),
      ∀ w ∈ (L.foldl (visit env st) acc).2.2, w ∈ acc.2.2 ∨ w ∈ L
  | [], _, _, hw => .inl hw
  | u :: L, acc, w, hw => by
    rcases foldl_visit_subset st L _ w hw with h | h
    · rw [visit_assignable] at h
      split_ifs at h
      · exact .inl h
      · rcases List.mem_append.mp h with h | h
        · exact .inl h
        · exact .inr (List.mem_singleton.mp h ▸ List.mem_cons_self u L)
    · exact .inr (List.mem_cons_of_mem u h)

theorem foldl_visit_settled (st : Retry)
    (hmono : ∀ v t t', t' ≤ t → env.canAlloc v t = true → env.canAlloc v t' = true)
    (he : st.isEnableDiskLoad = false) (hsc : st.scoreThreshold ≤ env.allocatableScoreThreshold) :
    ∀ (L : List Volume) (acc : List Nat × IdleVolumes × List Volume),
      (∀ v ∈ L, env.canAlloc v env.allocatableScoreThreshold = true ∨
        env.canInsert v = true) →
      (L.foldl (visit env st) acc).2.2 = acc.2.2
  | [], _, _ => rfl
  | u :: L, acc, hok => by
    rw [List.foldl_cons, foldl_visit_settled st hmono he hsc L _
      fun v hv => hok v (List.mem_cons_of_mem u hv), visit_assignable, if_pos]
    by_cases h : env.canAlloc u env.allocatableScoreThreshold = true
    · simp [he, hmono _ _ _ hsc h]
    · simp [h, (hok u (List.mem_cons_self u L)).resolve_left h]

theorem loop_isSome
    (hmono : ∀ v t t', t' ≤ t → env.canAlloc v t = true → env.canAlloc v t' = true) :
    ∀ (fuel : Nat) (st : Retry), slack env st + 2 ≤ fuel →
      (∀ v ∈ st.allIdles, env.canAlloc v env.allocatableScoreThreshold = true ∨
        env.canInsert v = true) → (loop env fuel st).isSome
  | 0, _, hf, _ => by omega
  | fuel + 1, st, hf, hok => by
    rw [loop]
    split_ifs with hnil
    · rfl
    have hok' : ∀ v ∈ (pass env st).allIdles,
        env.canAlloc v env.allocatableScoreThreshold = true ∨ env.canInsert v = true :=
      fun v hv => (foldl_visit_subset st st.allIdles _ v hv).elim
        (fun h => absurd h (List.not_mem_nil v)) (hok v)
    by_cases hs : slack env st = 0
    · -- the thresholds have stopped moving: this pass empties `allIdles`
      have he : st.isEnableDiskLoad = false := by
        by_contra h; simp only [slack, Bool.not_eq_false, h, if_true] at hs; omega
      have hsc : st.scoreThreshold ≤ env.allocatableScoreThreshold := by
        simp only [slack, he] at hs; omega
      have hemp : (pass env st).allIdles = [] := foldl_visit_settled st hmono he hsc _ _ hok
      cases fuel with
      | zero => omega
      | succ fuel => rw [loop, if_pos hemp]; rfl
    · exact loop_isSome hmono fuel _ (by rw [slack_pass]; omega) hok'

end Retry

/-- With `canAlloc` monotone, `PreAlloc` returns within `slack + 2` passes when every idle volume
passes `canAlloc` at `allocatableScoreThreshold` or `canInsert`. -/
theorem preAlloc_isSome_of_not_stuck (env : PreAllocEnv) (idleVolumes : IdleVolumes) (count : Int)
    (hmono : ∀ v t t', t' ≤ t → env.canAlloc v t = true → env.canAlloc v t' = true)
    (hok : ∀ v ∈ idleVolumes.getAllIdles,
      env.canAlloc v env.allocatableScoreThreshold = true ∨ env.canInsert v = true) :
    (preAlloc env (some idleVolumes) count
      (Retry.slack env ⟨idleVolumes.getAllIdles, healthiestScore, minimumDiskLoad,
        isEnableDiskLoad env.allocatableDiskLoadThreshold, [], idleVolumes⟩ + 2)).isSome := by
  simp only [preAlloc, Option.isSome_map']
  exact Retry.loop_isSome hmono _ _ (Nat.le_refl _) hok

/-- One idle volume that `canAlloc` admits only once the score threshold is relaxed to
`allocatableScoreThreshold = -1`. -/
def relaxEnv : PreAllocEnv :=
  ⟨fun _ t => decide (t ≤ -1), fun _ => false, fun _ => [], ActiveVolumes.empty, 0, -1⟩

theorem preAlloc_isSome_of_not_stuck_relax :
    (∀ v t t', t' ≤ t → relaxEnv.canAlloc v t = true → relaxEnv.canAlloc v t' = true) ∧
    (∀ v ∈ (IdleVolumes.empty.addAllocatable ⟨1⟩).getAllIdles,
      relaxEnv.canAlloc v relaxEnv.allocatableScoreThreshold = true ∨
        relaxEnv.canInsert v = true) ∧
    (preAlloc relaxEnv (some (IdleVolumes.empty.addAllocatable ⟨1⟩)) 1
      (Retry.slack relaxEnv ⟨(IdleVolumes.empty.addAllocatable ⟨1⟩).getAllIdles, healthiestScore,
        minimumDiskLoad, isEnableDiskLoad relaxEnv.allocatableDiskLoadThreshold, [],
        IdleVolumes.empty.addAllocatable ⟨1⟩⟩ + 2)).isSome :=
  have hmono : ∀ v t t', t' ≤ t → relaxEnv.canAlloc v t = true →
      relaxEnv.canAlloc v t' = true := fun _ _ _ h ht => by
    simp only [relaxEnv, decide_eq_true_eq] at ht ⊢
    omega
  ⟨hmono, by decide, preAlloc_isSome_of_not_stuck relaxEnv _ 1 hmono (by decide)⟩

/-- With `canAlloc` monotone, a volume that fails `canInsert` and `canAlloc` at
`allocatableScoreThreshold` stays in `assignable` after every pass: `RETRY` never ends. -/
theorem preAlloc_retry_never_ends (env : PreAllocEnv) (idleVolumes : IdleVolumes) (count : Int)
    {v : Volume} (hv : v ∈ idleVolumes.getAllIdles)
    (hmono : ∀ t t', t' ≤ t → env.canAlloc v t = true → env.canAlloc v t' = true)
    (hs : env.canAlloc v env.allocatableScoreThreshold = false) (hi : env.canInsert v = false)
    (hh : env.allocatableScoreThreshold ≤ healthiestScore) (fuel : Nat) :
    preAlloc env (some idleVolumes) count fuel = none := by
  simp only [preAlloc, Option.map_eq_none']
  exact Retry.Stuck.loop_eq_none hmono hs hi fuel ⟨hv, hh⟩

/-- One idle volume that no threshold admits and that cannot be moved: `PreAlloc` spins for
ever. -/
theorem preAlloc_spins_on_stuck_volume :
    (⟨1⟩ : Volume) ∈ (IdleVolumes.empty.addAllocatable ⟨1⟩).getAllIdles ∧
    (-1 : Int) ≤ healthiestScore ∧
    ∀ fuel, preAlloc ⟨fun _ _ => false, fun _ => false, fun _ => [], ActiveVolumes.empty, 0, -1⟩
      (some (IdleVolumes.empty.addAllocatable ⟨1⟩)) 1 fuel = none :=
  ⟨by decide, by decide, preAlloc_retry_never_ends
    ⟨fun _ _ => false, fun _ => false, fun _ => [], ActiveVolumes.empty, 0, -1⟩
    (IdleVolumes.empty.addAllocatable ⟨1⟩) 1 (v := ⟨1⟩) (by decide) (fun _ _ _ h => h) rfl rfl
    (by decide)⟩

end BlobStore.VolumeMgr
