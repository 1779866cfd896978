import Mathlib

/-! `Config.checkAndFix` of `clustermgr/svr.go`: defaults, then the checks of the code-mode
policies sorted by `MinSize`. `MinSize` and `MaxSize` are `int64`; `MaxSize + 1` wraps. -/

namespace BlobStore.ClusterMgr

/-- `int64(z)`: the conversion to `int64`, and the result of an `int64` addition, which wraps. -/
def toInt64 (z : Int) : Int := (z + 2 ^ 63) % 2 ^ 64 - 2 ^ 63

/-- Modelled from the spec: `codemode.Policy` is not in `src/`. The fields `checkAndFix` reads,
as `svr.go` and its tests use them; `MinSize` and `MaxSize` are `int64`. -/
structure Policy where
  modeName : String
  minSize : Int
  maxSize : Int
  enable : Bool
  minSize_mem : -2 ^ 63 ≤ minSize ∧ minSize < 2 ^ 63
  maxSize_mem : -2 ^ 63 ≤ maxSize ∧ maxSize < 2 ^ 63

/-- Modelled from the spec: the `codemode` package is not in `src/`. `GetCodeMode` of a mode
name, and the `AZCount` of a code mode's `Tactic()`. -/
structure CodeModeTable where
  getCodeMode : String → Nat
  azCount : Nat → Nat

/-- The entries of `ClusterCfg` that `checkAndFix` reads or writes, under keys of `proto` (not in
the sources); `none` is a missing entry. -/
structure ClusterCfg where
  volumeReserveSize : Option Nat
  volumeChunkSize : Option Nat
  codeModeConfig : Option (List Policy)

/-- `volumemgr.VolumeMgrConfig`, with the fields `checkAndFix` writes. -/
structure VolumeMgrConfig where
  chunkSize : Nat
  codeModePolicies : List Policy
  idc : List String
  unavailableIDC : String
  region : String
  clusterID : Nat

/-- `diskmgr.DiskMgrConfig`, with the fields `checkAndFix` writes. -/
structure DiskMgrConfig where
  chunkSize : Int
  codeModes : List Nat
  idc : List String

structure RaftConfig where
  snapshotPatchNum : Int

/-- `Config`, with the fields `checkAndFix` reads or writes; `clusterCfg` is `none` for a nil
map. -/
structure Config where
  region : String
  idc : List String
  unavailableIDC : String
  clusterID : Nat
  volumeMgrConfig : VolumeMgrConfig
  codeModePolicies : List Policy
  clusterCfg : Option ClusterCfg
  raftConfig : RaftConfig
  diskMgrConfig : DiskMgrConfig
  chunkSize : Nat

/-- What `checkAndFix` leaves: the config as it fixed it in place, and the error it returned,
`none` for nil. -/
structure Fixed where
  config : Config
  err : Option String

def defaultChunkSize : Nat := 17179869184

def defaultVolumeReserveSize : Nat := 10485760

/-- The loop that builds `sortedPolicies`: the enabled policies, in list order. -/
def enabledPolicies (policies : List Policy) : List Policy := policies.filter (·.enable)

/-- The loop `for i := 0; i < len(sortedPolicies)-1; i++`: each policy starts at the
`MaxSize + 1` of the one before. -/
def serial : List Policy → Bool
  | p :: q :: rest => q.minSize == toInt64 (p.maxSize + 1) && serial (q :: rest)
  | _ => true

/-- The last loop, over `sortedPolicies`: it stops at a repeated mode name or a wrong `AZCount`,
and otherwise appends the policy's code mode. -/
def addCodeModes (tbl : CodeModeTable) (idcCount : Nat) (unavailableIDC : String) :
    List String → List Policy → List Nat → List Nat × Option String
  | _, [], codeModes => (codeModes, none)
  | seen, p :: ps, codeModes =>
    if p.modeName ∈ seen then (codeModes, some " code mode repeat")
    else if unavailableIDC = "" ∧ tbl.azCount (tbl.getCodeMode p.modeName) ≠ idcCount then
      (codeModes, some "idc count not match modeTactic AZCount")
    else
      addCodeModes tbl idcCount unavailableIDC (p.modeName :: seen) ps
        (codeModes ++ [tbl.getCodeMode p.modeName])

/-- `checkAndFix` before the policy checks: defaults, `ClusterCfg`, the managers' chunk sizes, and
the policies in the order `sort.Slice` left them, in place. -/
def fixSizes (c : Config) (cfg : ClusterCfg) (policies : List Policy) : Config :=
  let chunkSize := if c.chunkSize = 0 then defaultChunkSize else c.chunkSize
  { c with
    chunkSize := chunkSize
    clusterCfg := some
      { volumeReserveSize := some (cfg.volumeReserveSize.getD defaultVolumeReserveSize)
        volumeChunkSize := some chunkSize
        codeModeConfig := some policies }
    volumeMgrConfig.chunkSize := chunkSize
    diskMgrConfig.chunkSize := toInt64 chunkSize
    codeModePolicies := policies }

/-- The lines after the checks: the shared fields copied into the volume and disk managers'
configs, and the default `SnapshotPatchNum`. -/
def copyShared (c : Config) : Config :=
  { c with
    volumeMgrConfig :=
      { c.volumeMgrConfig with
        codeModePolicies := c.codeModePolicies, idc := c.idc,
        unavailableIDC := c.unavailableIDC, region := c.region, clusterID := c.clusterID }
    diskMgrConfig.idc := c.idc
    raftConfig.snapshotPatchNum :=
      if c.raftConfig.snapshotPatchNum = 0 then 64 else c.raftConfig.snapshotPatchNum }

/-- The checks of the sorted policies; each error returns the config with the code modes
appended so far. -/
def checkPolicies (tbl : CodeModeTable) (c : Config) : Fixed :=
  let sortedPolicies := enabledPolicies c.codeModePolicies
  let codeModes := if sortedPolicies.isEmpty then
      c.diskMgrConfig.codeModes ++ c.codeModePolicies.map fun p => tbl.getCodeMode p.modeName
    else c.diskMgrConfig.codeModes
  let fail (e : String) (codeModes : List Nat) : Fixed :=
    ⟨{ c with diskMgrConfig.codeModes := codeModes }, some e⟩
  if sortedPolicies.head?.any (fun p => p.minSize != 0) then
    fail "min size range must be started with 0" codeModes
  else if !serial sortedPolicies then fail "size range must be serially" codeModes
  else
    let r := addCodeModes tbl c.idc.length c.unavailableIDC [] sortedPolicies codeModes
    match r.2 with
    | some e => fail e r.1
    | none => ⟨copyShared { c with diskMgrConfig.codeModes := r.1 }, none⟩

/-- `checkAndFix`, with `sortSlice` the order `sort.Slice` leaves the policies in; `none` when
it panics, on the assignment into a nil `ClusterCfg`. -/
def checkAndFix (tbl : CodeModeTable) (sortSlice : List Policy → List Policy) (c : Config) :
    Option Fixed :=
  if c.idc = [] then some ⟨c, some "IDC is nil"⟩
  else c.clusterCfg.map fun cfg =>
    if c.codeModePolicies.isEmpty then
      ⟨fixSizes c cfg c.codeModePolicies, some "invalid code mode config"⟩
    else checkPolicies tbl (fixSizes c cfg (sortSlice c.codeModePolicies))

/-- `p` holds the object size `x`: `MinSize ≤ x ≤ MaxSize`. -/
def Policy.Covers (p : Policy) (x : Int) : Prop := p.minSize ≤ x ∧ x ≤ p.maxSize

instance (p : Policy) (x : Int) : Decidable (p.Covers x) :=
  inferInstanceAs (Decidable (_ ∧ _))

theorem toInt64_add_one {a : Int} (h : -2 ^ 63 ≤ a ∧ a < 2 ^ 63) (h0 : 0 ≤ toInt64 (a + 1)) :
    toInt64 (a + 1) = a + 1 := by
  unfold toInt64 at *
  omega

theorem addCodeModes_nodup (tbl : CodeModeTable) (idcCount : Nat) (unavailableIDC : String) :
    ∀ (seen : List String) (ps : List Policy) (codeModes : List Nat),
      (addCodeModes tbl idcCount unavailableIDC seen ps codeModes).2 = none →
      (ps.map (·.modeName)).Nodup ∧ ∀ p ∈ ps, p.modeName ∉ seen
  | _, [], _, _ => ⟨List.nodup_nil, fun _ h => absurd h (List.not_mem_nil _)⟩
  | seen, p :: ps, codeModes, h => by
    unfold addCodeModes at h
    split_ifs at h with h₁ h₂
    obtain ⟨hn, hs⟩ := addCodeModes_nodup tbl idcCount unavailableIDC _ ps _ h
    refine ⟨List.nodup_cons.mpr ⟨fun hm => ?_, hn⟩, fun q hq => ?_⟩
    · obtain ⟨q, hq, hqe⟩ := List.mem_map.mp hm
      exact hs q hq (hqe ▸ List.mem_cons_self _ _)
    · rcases List.mem_cons.mp hq with rfl | hq
      · exact h₁
      · exact fun hm => hs q hq (List.mem_cons_of_mem _ hm)

theorem checkPolicies_err_eq_none {tbl : CodeModeTable} {c : Config}
    (h : (checkPolicies tbl c).err = none) :
    (∀ p ∈ (enabledPolicies c.codeModePolicies).head?, p.minSize = 0) ∧
      serial (enabledPolicies c.codeModePolicies) ∧
      ((enabledPolicies c.codeModePolicies).map (·.modeName)).Nodup := by
  unfold checkPolicies at h
  dsimp only at h
  by_cases h₁ : (enabledPolicies c.codeModePolicies).head?.any (fun p => p.minSize != 0)
  · rw [if_pos h₁] at h; cases h
  by_cases h₂ : serial (enabledPolicies c.codeModePolicies)
  · rw [if_neg h₁, h₂, if_neg (by decide)] at h
    refine ⟨fun p hp => ?_, h₂, ?_⟩
    · rw [hp] at h₁
      simpa using h₁
    · split at h
      · cases h
      · exact (addCodeModes_nodup tbl _ _ [] _ _ ‹_›).1
  · rw [if_neg h₁, Bool.eq_false_iff.mpr h₂, Bool.not_false, if_pos rfl] at h; cases h

theorem checkAndFix_err_eq_none {tbl : CodeModeTable} {sortSlice : List Policy → List Policy}
    {c : Config} (h : (checkAndFix tbl sortSlice c).map Fixed.err = some none) :
    (∀ p ∈ (enabledPolicies (sortSlice c.codeModePolicies)).head?, p.minSize = 0) ∧
      serial (enabledPolicies (sortSlice c.codeModePolicies)) ∧
      ((enabledPolicies (sortSlice c.codeModePolicies)).map (·.modeName)).Nodup := by
  unfold checkAndFix at h
  split_ifs at h with h₀ h₁
  · cases h
  all_goals
    rw [Option.map_map] at h
    obtain ⟨cfg, -, h⟩ := Option.map_eq_some'.mp h
  · cases h
  · exact checkPolicies_err_eq_none h

theorem serial_cover : ∀ (p : Policy) (rest : List Policy), 0 ≤ p.minSize →
    (p :: rest).Pairwise (fun p q => p.minSize ≤ q.minSize) → serial (p :: rest) →
    (p :: rest).Pairwise (fun p q => ∀ x, ¬ (p.Covers x ∧ q.Covers x)) ∧
      ∃ m ∈ p :: rest, (∀ q ∈ p :: rest, q.maxSize ≤ m.maxSize) ∧
        ∀ x, (∃ q ∈ p :: rest, q.Covers x) ↔ p.minSize ≤ x ∧ x ≤ m.maxSize
  | p, [], _, _, _ =>
    ⟨List.pairwise_singleton _ _, p, List.mem_singleton_self p, by simp, by simp [Policy.Covers]⟩
  | p, q :: rest, h0, hs, hc => by
    rw [List.pairwise_cons] at hs
    simp only [serial, Bool.and_eq_true, beq_iff_eq] at hc
    have hpq := hs.1 q (List.mem_cons_self q rest)
    -- the sorted order keeps `q.minSize ≥ 0`, so `p.MaxSize + 1` did not wrap
    have hq : q.minSize = p.maxSize + 1 :=
      hc.1.trans (toInt64_add_one p.maxSize_mem (by rw [← hc.1]; omega))
    obtain ⟨hd, m, hm, hmax, hcov⟩ := serial_cover q rest (by omega) hs.2 hc.2
    have hafter : ∀ r ∈ q :: rest, p.maxSize < r.minSize := fun r hr => by
      rcases List.mem_cons.mp hr with rfl | hr
      · omega
      · have := (List.pairwise_cons.mp hs.2).1 r hr; omega
    refine ⟨List.pairwise_cons.mpr ⟨fun r hr x hx => ?_, hd⟩, ?_⟩
    · have := hafter r hr
      simp only [Policy.Covers] at hx
      omega
    have hunion : ∀ x, (∃ r ∈ p :: q :: rest, r.Covers x) ↔
        (p.minSize ≤ x ∧ x ≤ p.maxSize) ∨ (q.minSize ≤ x ∧ x ≤ m.maxSize) := fun x => by
      rw [List.exists_mem_cons_iff, hcov, Policy.Covers]
    by_cases hle : p.maxSize ≤ m.maxSize
    · refine ⟨m, List.mem_cons_of_mem p hm, fun r hr => ?_, fun x => by rw [hunion]; omega⟩
      rcases List.mem_cons.mp hr with rfl | hr
      exacts [hle, hmax r hr]
    · refine ⟨p, List.mem_cons_self p _, fun r hr => ?_, fun x => by rw [hunion]; omega⟩
      rcases List.mem_cons.mp hr with rfl | hr
      exacts [Int.le_refl _, Int.le_trans (hmax r hr) (by omega)]

theorem existsUnique_covers {l : List Policy}
    (hd : l.Pairwise fun p q => ∀ x, ¬ (p.Covers x ∧ q.Covers x)) {x : Int}
    (hx : ∃ p ∈ l, p.Covers x) : ∃! p, p ∈ l ∧ p.Covers x := by
  have hsymm : Symmetric fun p q : Policy => ∀ x, ¬ (p.Covers x ∧ q.Covers x) :=
    fun _ _ h x hx => h x hx.symm
  obtain ⟨p, hp, hpx⟩ := hx
  refine ⟨p, ⟨hp, hpx⟩, fun q ⟨hq, hqx⟩ => by_contra fun hne => ?_⟩
  exact hd.forall hsymm hq hp hne x ⟨hqx, hpx⟩

/-- When `checkAndFix` returns nil with an enabled policy, the enabled policies have distinct
names and disjoint ranges covering `[0, M]`, `M` their largest `MaxSize`, whatever the sort. -/
theorem checkAndFix_partitions_sizes (tbl : CodeModeTable)
    (sortSlice : List Policy → List Policy) (c : Config)
    (hperm : (sortSlice c.codeModePolicies).Perm c.codeModePolicies)
    (hsorted : (sortSlice c.codeModePolicies).Pairwise fun p q => p.minSize ≤ q.minSize)
    (hnil : (checkAndFix tbl sortSlice c).map Fixed.err = some none)
    (henable : ∃ p ∈ c.codeModePolicies, p.enable = true) :
    ((enabledPolicies c.codeModePolicies).map (·.modeName)).Nodup ∧
    (enabledPolicies c.codeModePolicies).Pairwise
      (fun p q => ∀ x, ¬ (p.Covers x ∧ q.Covers x)) ∧
    ∃ m ∈ enabledPolicies c.codeModePolicies,
      (∀ p ∈ enabledPolicies c.codeModePolicies, p.maxSize ≤ m.maxSize) ∧
      (∀ x, (∃ p ∈ enabledPolicies c.codeModePolicies, p.Covers x) ↔ 0 ≤ x ∧ x ≤ m.maxSize) ∧
      ∀ x, 0 ≤ x → x ≤ m.maxSize →
        ∃! p, p ∈ enabledPolicies c.codeModePolicies ∧ p.Covers x := by
  obtain ⟨hfirst, hserial, hnames⟩ := checkAndFix_err_eq_none hnil
  have hp : (enabledPolicies (sortSlice c.codeModePolicies)).Perm
      (enabledPolicies c.codeModePolicies) := hperm.filter _
  -- the sorted enabled policies are not empty
  obtain ⟨p, rest, hs⟩ : ∃ p rest, enabledPolicies (sortSlice c.codeModePolicies) = p :: rest := by
    obtain ⟨q, hq, he⟩ := henable
    have hq' := hp.symm.subset (List.mem_filter.mpr ⟨hq, he⟩)
    cases h : enabledPolicies (sortSlice c.codeModePolicies) with
    | nil => rw [h] at hq'; cases hq'
    | cons p rest => exact ⟨p, rest, rfl⟩
  rw [hs] at hfirst hserial hnames hp
  have hsorted' : (p :: rest).Pairwise fun p q => p.minSize ≤ q.minSize :=
    hs ▸ hsorted.sublist (List.filter_sublist _)
  obtain ⟨hd, m, hm, hmax, hcov⟩ := serial_cover p rest (hfirst p rfl ▸ Int.le_refl 0) hsorted' hserial
  have hdisj := (hp.pairwise_iff fun h x hx => h x hx.symm).mp hd
  have hunion : ∀ x, (∃ q ∈ enabledPolicies c.codeModePolicies, q.Covers x) ↔
      0 ≤ x ∧ x ≤ m.maxSize := fun x => by
    rw [← hfirst p rfl, ← hcov x]
    exact ⟨fun ⟨q, hq, h⟩ => ⟨q, hp.symm.subset hq, h⟩, fun ⟨q, hq, h⟩ => ⟨q, hp.subset hq, h⟩⟩
  exact ⟨(hp.map _).nodup_iff.mp hnames, hdisj, m, hp.subset hm,
    fun q hq => hmax q (hp.symm.subset hq), hunion,
    fun x hx hx' => existsUnique_covers hdisj ((hunion x).mpr ⟨hx, hx'⟩)⟩

/-- The policies of the service tests, the larger sizes first, and a config that holds them. -/
private def testPolicies : List Policy :=
  [⟨"EC15P12", 1048577, 1073741824, true, by decide, by decide⟩,
    ⟨"EC6P6", 0, 1048576, true, by decide, by decide⟩]

private def testConfig : Config :=
  { region := "test-region", idc := ["z0", "z1", "z2"], unavailableIDC := "", clusterID := 1,
    volumeMgrConfig := ⟨0, [], [], "", "", 0⟩, codeModePolicies := testPolicies,
    clusterCfg := some ⟨none, none, none⟩, raftConfig := ⟨0⟩, diskMgrConfig := ⟨0, [], []⟩,
    chunkSize := 17179869184 }

/-- With three IDCs and both code modes over three AZs, the check sorts the two policies of the
service tests and passes, and every size in `[0, 1073741824]` is held by exactly one of them. -/
theorem checkAndFix_test_policies :
    (checkAndFix ⟨fun name => if name = "EC15P12" then 1 else 2, fun _ => 3⟩ List.reverse
      testConfig).map Fixed.err = some none ∧
    ∀ x, 0 ≤ x → x ≤ 1073741824 → ∃! p, p ∈ enabledPolicies testPolicies ∧ p.Covers x := by
  have hnil : (checkAndFix ⟨fun name => if name = "EC15P12" then 1 else 2, fun _ => 3⟩
      List.reverse testConfig).map Fixed.err = some none := rfl
  obtain ⟨-, -, m, -, hmax, -, huniq⟩ := checkAndFix_partitions_sizes _ List.reverse testConfig
    (List.reverse_perm _) (by decide) hnil ⟨_, List.mem_cons_self _ _, rfl⟩
  exact ⟨hnil, fun x hx hx' => huniq x hx
    (Int.le_trans hx' (hmax _ (List.mem_filter.mpr ⟨List.mem_cons_self _ _, rfl⟩)))⟩

end BlobStore.ClusterMgr
