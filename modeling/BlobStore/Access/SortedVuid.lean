import BlobStore.Access.Get

/-! The read order of a blob's units, `genSortedVuidByIDC`: groups by distance from the access
node's IDC, in ascending distance, each in the order `rand.Shuffle` leaves it. -/

namespace BlobStore.Controller

/-- Modelled from the spec: `controller.Unit` is not in `src/`; the fields `genSortedVuidByIDC`
copies. -/
structure Unit where
  vuid : Nat
  diskID : Nat
  host : String
  deriving DecidableEq, Repr

/-- Modelled from the spec: `controller.HostIDC` is not in `src/`; the fields
`genSortedVuidByIDC` reads. -/
structure HostIDC where
  idc : String
  punished : Bool
  deriving DecidableEq, Repr

end BlobStore.Controller

namespace BlobStore.Access

open Controller (HostIDC)

/-- `distance(idc1, idc2, punished)`: 0 for the same IDC, 1 for another, 2 and 3 for the same
on a punished disk. -/
def distance (idc1 idc2 : String) (punished : Bool) : Nat :=
  if punished then
    if idc1 = idc2 then 2 else 3
  else if idc1 = idc2 then 0 else 1

/-- The groups of `genSortedVuidByIDC`, by distance. -/
abbrev SortMap := AList fun _ : Nat => List SortedVuid

/-- One pass of the first loop: when `GetDiskHost` found the unit's host, append the unit to the
group of its distance. -/
def addUnit (hostOf : Nat → Option HostIDC) (idc : String) (sortMap : SortMap) (idx : Nat)
    (phy : Controller.Unit) : SortMap :=
  match hostOf idx with
  | none => sortMap
  | some hostIDC =>
    let dis := distance idc hostIDC.idc hostIDC.punished
    sortMap.insert dis ((sortMap.lookup dis).getD [] ++ [⟨idx, phy.vuid, phy.diskID, phy.host⟩])

/-- `genSortedVuidByIDC`: group the units by distance, sort the distances, and append each group
as `shuffle dis ids` leaves it. -/
def genSortedVuidByIDC (hostOf : Nat → Option HostIDC)
    (shuffle : Nat → List SortedVuid → List SortedVuid) (idc : String)
    (vuidPhys : List Controller.Unit) : List SortedVuid :=
  let sortMap := vuidPhys.enum.foldl (fun m p => addUnit hostOf idc m p.1 p.2) ∅
  let keys := sortMap.keys.insertionSort (· ≤ ·)
  keys.foldl (fun vuids dis => vuids ++ shuffle dis ((sortMap.lookup dis).getD [])) []

/-- The units whose host was found, in input order, each with its position as index. -/
def located (hostOf : Nat → Option HostIDC) (vuidPhys : List Controller.Unit) :
    List SortedVuid :=
  vuidPhys.enum.filterMap fun p => (hostOf p.1).map fun _ => ⟨p.1, p.2.vuid, p.2.diskID, p.2.host⟩

section

variable (hostOf : Nat → Option HostIDC) (idc : String)

/-- The distance of a listed unit, from the lookup of its index. -/
def vuidDistance (v : SortedVuid) : Nat :=
  ((hostOf v.index).map fun h => distance idc h.idc h.punished).getD 0

/-- Whether a listed unit's disk is punished. -/
def isPunished (v : SortedVuid) : Bool := ((hostOf v.index).map (·.punished)).getD false

theorem punished_iff_two_le_distance (h : HostIDC) :
    h.punished = true ↔ 2 ≤ distance idc h.idc h.punished := by
  unfold distance
  split_ifs <;> simp_all

theorem lookup_foldl_addUnit (L : List (Nat × Controller.Unit)) (m : SortMap) (dis : Nat) :
    ((L.foldl (fun m p => addUnit hostOf idc m p.1 p.2) m).lookup dis).getD [] =
      (m.lookup dis).getD [] ++
        (L.filterMap fun p => (hostOf p.1).map fun _ =>
          (⟨p.1, p.2.vuid, p.2.diskID, p.2.host⟩ : SortedVuid)).filter
          (vuidDistance hostOf idc · = dis) := by
  induction L generalizing m with
  | nil => simp
  | cons p L ih =>
    rw [List.foldl_cons, ih, List.filterMap_cons]
    cases hp : hostOf p.1 with
    | none => simp only [addUnit, hp, Option.map_none']
    | some h =>
      by_cases hd : distance idc h.idc h.punished = dis
      · subst hd
        simp [addUnit, hp, vuidDistance]
      · simp [addUnit, hp, vuidDistance, hd, AList.lookup_insert_ne (Ne.symm hd)]

theorem mem_foldl_addUnit (L : List (Nat × Controller.Unit)) (m : SortMap) (dis : Nat) :
    dis ∈ L.foldl (fun m p => addUnit hostOf idc m p.1 p.2) m ↔
      dis ∈ m ∨ ∃ v ∈ L.filterMap (fun p => (hostOf p.1).map fun _ =>
        (⟨p.1, p.2.vuid, p.2.diskID, p.2.host⟩ : SortedVuid)),
          vuidDistance hostOf idc v = dis := by
  induction L generalizing m with
  | nil => simp
  | cons p L ih =>
    rw [List.foldl_cons, ih, List.filterMap_cons]
    cases hp : hostOf p.1 with
    | none => simp only [addUnit, hp, Option.map_none']
    | some h =>
      simp only [addUnit, hp, AList.mem_insert, Option.map_some', List.mem_cons,
        exists_eq_or_imp, vuidDistance, Option.getD_some, @eq_comm _ dis, or_assoc, or_left_comm]

theorem sortMap_lookup (vuidPhys : List Controller.Unit) (dis : Nat) :
    ((vuidPhys.enum.foldl (fun m p => addUnit hostOf idc m p.1 p.2) ∅).lookup dis).getD [] =
      (located hostOf vuidPhys).filter (vuidDistance hostOf idc · = dis) := by
  rw [lookup_foldl_addUnit]
  rfl

theorem mem_sortMap (vuidPhys : List Controller.Unit) (dis : Nat) :
    dis ∈ vuidPhys.enum.foldl (fun m p => addUnit hostOf idc m p.1 p.2) ∅ ↔
      ∃ v ∈ located hostOf vuidPhys, vuidDistance hostOf idc v = dis := by
  rw [mem_foldl_addUnit, or_iff_right (AList.not_mem_empty dis)]
  rfl

end

theorem foldl_append_eq_flatMap {α β : Type} (f : α → List β) (l : List α) (acc : List β) :
    l.foldl (fun acc a => acc ++ f a) acc = acc ++ l.flatMap f := by
  induction l generalizing acc with
  | nil => simp
  | cons a l ih => rw [List.foldl_cons, ih, List.flatMap_cons, List.append_assoc]

theorem flatMap_filter_perm {α : Type} (f : α → Nat) (l : List α) :
    ∀ {K : List Nat}, K.Nodup →
      (K.flatMap fun k => l.filter (f · = k)).Perm (l.filter (f · ∈ K))
  | [], _ => by simp
  | k :: K, hK => by
    rw [List.nodup_cons] at hK
    rw [List.flatMap_cons]
    refine ((flatMap_filter_perm f l hK.2).append_left _).trans ?_
    have h := List.filter_append_perm (fun a => decide (f a = k)) (l.filter (f · ∈ k :: K))
    rw [List.filter_filter, List.filter_filter] at h
    convert h using 2 <;> refine List.filter_congr fun a _ => ?_
    · by_cases ha : f a = k <;> simp [ha]
    · by_cases ha : f a = k
      · simp [ha, hK.1]
      · simp [ha]

section

variable (hostOf : Nat → Option HostIDC) (idc : String) (vuidPhys : List Controller.Unit)

theorem mem_located {v : SortedVuid} :
    v ∈ located hostOf vuidPhys ↔ ∃ phy h, vuidPhys[v.index]? = some phy ∧
      hostOf v.index = some h ∧ v = ⟨v.index, phy.vuid, phy.diskID, phy.host⟩ := by
  simp only [located, List.mem_filterMap, Option.map_eq_some', Prod.exists,
    List.mem_enum_iff_getElem?]
  constructor
  · rintro ⟨i, phy, hphy, h, hh, rfl⟩
    exact ⟨phy, h, hphy, hh, rfl⟩
  · rintro ⟨phy, h, hphy, hh, hv⟩
    exact ⟨v.index, phy, hphy, h, hh, hv.symm⟩

theorem located_index_nodup : ((located hostOf vuidPhys).map (·.index)).Nodup := by
  have h : (located hostOf vuidPhys).map (·.index) =
      (List.range vuidPhys.length).filterMap fun i => (hostOf i).map fun _ => i := by
    rw [located, List.map_filterMap, ← List.enum_map_fst, List.filterMap_map]
    simp only [Option.map_map]
    rfl
  rw [h]
  refine List.Nodup.filterMap (fun a a' b hb hb' => ?_) (List.nodup_range _)
  simp only [Option.mem_def, Option.map_eq_some'] at hb hb'
  obtain ⟨-, -, rfl⟩ := hb
  obtain ⟨-, -, rfl⟩ := hb'
  rfl

variable (shuffle : Nat → List SortedVuid → List SortedVuid)

theorem genSortedVuidByIDC_eq :
    genSortedVuidByIDC hostOf shuffle idc vuidPhys =
      (((vuidPhys.enum.foldl (fun m p => addUnit hostOf idc m p.1 p.2) ∅).keys.insertionSort
        (· ≤ ·)).flatMap fun dis =>
          shuffle dis ((located hostOf vuidPhys).filter (vuidDistance hostOf idc · = dis))) := by
  rw [genSortedVuidByIDC, foldl_append_eq_flatMap, List.nil_append]
  simp only [sortMap_lookup]

variable {shuffle} (hshuffle : ∀ dis ids, (shuffle dis ids).Perm ids)
include hshuffle

theorem genSortedVuidByIDC_perm :
    (genSortedVuidByIDC hostOf shuffle idc vuidPhys).Perm (located hostOf vuidPhys) := by
  rw [genSortedVuidByIDC_eq]
  refine ((List.Perm.flatMap_left _ fun dis _ => hshuffle dis _).trans
    ((List.Perm.flatMap_right _ (List.perm_insertionSort _ _)).trans
      (flatMap_filter_perm _ _ (AList.keys_nodup _)))).trans ?_
  rw [List.filter_eq_self.mpr fun v hv => decide_eq_true
    (AList.mem_keys.mp ((mem_sortMap hostOf idc vuidPhys _).mpr ⟨v, hv, rfl⟩))]

theorem genSortedVuidByIDC_sorted :
    (genSortedVuidByIDC hostOf shuffle idc vuidPhys).Pairwise
      (vuidDistance hostOf idc · ≤ vuidDistance hostOf idc ·) := by
  have hmem : ∀ dis v, v ∈ shuffle dis ((located hostOf vuidPhys).filter
      (vuidDistance hostOf idc · = dis)) → vuidDistance hostOf idc v = dis := fun dis v hv => by
    simpa using (List.mem_filter.mp ((hshuffle _ _).subset hv)).2
  rw [genSortedVuidByIDC_eq, List.pairwise_flatMap]
  refine ⟨fun dis _ => List.pairwise_of_forall_mem_list fun a ha b hb => ?_,
    (List.sorted_insertionSort _ _).imp fun h x hx y hy => ?_⟩
  · rw [hmem _ _ ha, hmem _ _ hb]
  · rwa [hmem _ _ hx, hmem _ _ hy]

theorem index_lt_of_mem_genSortedVuidByIDC {u : SortedVuid}
    (hu : u ∈ genSortedVuidByIDC hostOf shuffle idc vuidPhys) : u.index < vuidPhys.length := by
  obtain ⟨phy, -, hphy, -⟩ := (mem_located hostOf vuidPhys).mp
    ((genSortedVuidByIDC_perm hostOf idc vuidPhys hshuffle).subset hu)
  exact (List.getElem?_eq_some_iff.mp hphy).1

theorem genSortedVuidByIDC_punished_last :
    (genSortedVuidByIDC hostOf shuffle idc vuidPhys).Pairwise
      (fun a b => isPunished hostOf a = true → isPunished hostOf b = true) := by
  refine (genSortedVuidByIDC_sorted hostOf idc vuidPhys hshuffle).imp_of_mem
    fun ha hb hd hpa => ?_
  obtain ⟨-, h, -, hh, -⟩ := (mem_located hostOf vuidPhys).mp
    ((genSortedVuidByIDC_perm hostOf idc vuidPhys hshuffle).subset ha)
  obtain ⟨-, h', -, hh', -⟩ := (mem_located hostOf vuidPhys).mp
    ((genSortedVuidByIDC_perm hostOf idc vuidPhys hshuffle).subset hb)
  simp only [isPunished, vuidDistance, hh, hh', Option.map_some', Option.getD_some] at hd hpa ⊢
  rw [punished_iff_two_le_distance idc] at hpa ⊢
  omega

/-- For every shuffle, each unit whose host was found comes once with its index, distances never
decrease, and every punished disk comes after every unpunished one. -/
theorem genSortedVuidByIDC_read_order :
    (genSortedVuidByIDC hostOf shuffle idc vuidPhys).Perm (located hostOf vuidPhys) ∧
    (∀ v, v ∈ genSortedVuidByIDC hostOf shuffle idc vuidPhys ↔ ∃ phy h,
      vuidPhys[v.index]? = some phy ∧ hostOf v.index = some h ∧
        v = ⟨v.index, phy.vuid, phy.diskID, phy.host⟩) ∧
    (genSortedVuidByIDC hostOf shuffle idc vuidPhys).Pairwise
      (vuidDistance hostOf idc · ≤ vuidDistance hostOf idc ·) ∧
    ((genSortedVuidByIDC hostOf shuffle idc vuidPhys).map (·.index)).Nodup ∧
    (genSortedVuidByIDC hostOf shuffle idc vuidPhys).Pairwise
      (fun a b => isPunished hostOf a = true → isPunished hostOf b = true) :=
  have hp := genSortedVuidByIDC_perm hostOf idc vuidPhys hshuffle
  ⟨hp, fun _ => hp.mem_iff.trans (mem_located hostOf vuidPhys),
    genSortedVuidByIDC_sorted hostOf idc vuidPhys hshuffle,
    (hp.map _).nodup_iff.mpr (located_index_nodup hostOf vuidPhys),
    genSortedVuidByIDC_punished_last hostOf idc vuidPhys hshuffle⟩

end

theorem GStep.volume_genSortedVuidByIDC (rule : BufferRule) (locTactic : Tactic)
    (minReadShardsX : Nat) (layout : Nat → Tactic) (enc : Nat × Nat → EncoderRule)
    (units : Nat × Nat → Nat → List UInt8) (writeOk : Nat → Bool) (blobs : List BlobGetArgs)
    (hostOf : Nat → Option HostIDC) {shuffle : Nat → List SortedVuid → List SortedVuid}
    (hshuffle : ∀ dis ids, (shuffle dis ids).Perm ids) (idc : String) {s : GState} {k : Nat}
    {blob : BlobGetArgs} (hp : s.pipe = .read k) (hb : blobs[k]? = some blob)
    (hv : needVolume s.blobVolume blob.vid) (vuidPhys : List Controller.Unit)
    (hlen : vuidPhys.length = (layout blob.vid).n + (layout blob.vid).m)
    (hn : (layout blob.vid).n ≤ (genSortedVuidByIDC hostOf shuffle idc vuidPhys).length) :
    GStep rule locTactic minReadShardsX layout enc units writeOk blobs s { s with
      blobVolume :=
        some ⟨blob.vid, layout blob.vid, genSortedVuidByIDC hostOf shuffle idc vuidPhys⟩ } :=
  .volume hp hb hv _
    (fun _ hu => hlen ▸ index_lt_of_mem_genSortedVuidByIDC hostOf idc vuidPhys hshuffle hu) hn

/-- Five units in two IDCs: the second unit's host is not found, the fourth's disk is punished,
and the shuffles reverse their groups. -/
example : (genSortedVuidByIDC
    (fun i => if i = 1 then none else some ⟨if i = 0 then "z1" else "z0", decide (i = 3)⟩)
    (fun _ ids => ids.reverse) "z0"
    [⟨10, 0, "a"⟩, ⟨11, 1, "b"⟩, ⟨12, 2, "c"⟩, ⟨13, 3, "d"⟩, ⟨14, 4, "e"⟩]).map (·.index) =
    [4, 2, 0, 3] := by
  decide

theorem genSortedVuidByIDC_two_idcs :
    (∀ ids : List SortedVuid, ids.reverse.Perm ids) ∧
    ((genSortedVuidByIDC
      (fun i => if i = 1 then none else some ⟨if i = 0 then "z1" else "z0", decide (i = 3)⟩)
      (fun _ ids => ids.reverse) "z0"
      [⟨10, 0, "a"⟩, ⟨11, 1, "b"⟩, ⟨12, 2, "c"⟩, ⟨13, 3, "d"⟩, ⟨14, 4, "e"⟩]).map
        (·.index)).Nodup :=
  ⟨List.reverse_perm, (genSortedVuidByIDC_read_order
    (fun i => if i = 1 then none else some ⟨if i = 0 then "z1" else "z0", decide (i = 3)⟩) "z0"
    [⟨10, 0, "a"⟩, ⟨11, 1, "b"⟩, ⟨12, 2, "c"⟩, ⟨13, 3, "d"⟩, ⟨14, 4, "e"⟩]
    (fun _ ids => List.reverse_perm ids)).2.2.2.1⟩

end BlobStore.Access
