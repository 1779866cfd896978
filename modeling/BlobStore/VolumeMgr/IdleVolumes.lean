import Mathlib

/-! `idleVolumes` of `clustermgr/volumemgr/alloc.go`: two lists of volumes and a map from vid to
its list and element; an element is an identity `id`, handed out by `nextId`, and a volume. -/

namespace BlobStore.VolumeMgr

/-- `volume`, with the field the idle index reads. -/
structure Volume where
  vid : Nat
  deriving DecidableEq, Repr

/-- The two lists of `idleVolumes`; `idleItem.head` names one of them. -/
inductive Head where
  | allocatable
  | notAllocatable
  deriving DecidableEq, Repr

/-- A `container/list` element. -/
structure Element where
  id : Nat
  vol : Volume
  deriving DecidableEq, Repr

/-- `idleItem`: the list that holds a volume and the element on it. -/
structure IdleItem where
  head : Head
  element : Nat
  deriving DecidableEq, Repr

structure IdleVolumes where
  m : Nat → Option IdleItem
  allocatable : List Element
  notAllocatable : List Element
  nextId : Nat

namespace IdleVolumes

/-- The index that `newVolumeAllocator` makes for each code mode. -/
def empty : IdleVolumes := ⟨fun _ => none, [], [], 0⟩

def list (i : IdleVolumes) : Head → List Element
  | .allocatable => i.allocatable
  | .notAllocatable => i.notAllocatable

def withList (i : IdleVolumes) : Head → List Element → IdleVolumes
  | .allocatable, l => { i with allocatable := l }
  | .notAllocatable, l => { i with notAllocatable := l }

/-- `item.head.Remove(item.element)`. -/
def remove (i : IdleVolumes) (item : IdleItem) : IdleVolumes :=
  i.withList item.head ((i.list item.head).filter (·.id != item.element))

/-- `item.head.Remove(item.element); delete(i.m, vid)`, shared by `delete` and
`allocFromOptions`. -/
def removeVid (i : IdleVolumes) (vid : Nat) (item : IdleItem) : IdleVolumes :=
  { i.remove item with m := Function.update i.m vid none }

/-- `e := head.PushFront(vol); i.m[vol.vid] = idleItem{element: e, head: head}`. -/
def pushFront (i : IdleVolumes) (head : Head) (vol : Volume) : IdleVolumes :=
  { i.withList head (⟨i.nextId, vol⟩ :: i.list head) with
    m := Function.update i.m vol.vid (some ⟨head, i.nextId⟩), nextId := i.nextId + 1 }

/-- The body of `addAllocatable` and `addNotAllocatable`: drop the volume's old element, if
any, and push a new one to the front of the list `head`. -/
def add (i : IdleVolumes) (head : Head) (vol : Volume) : IdleVolumes :=
  (match i.m vol.vid with
    | some item => i.remove item
    | none => i).pushFront head vol

def addAllocatable (i : IdleVolumes) (vol : Volume) : IdleVolumes := i.add .allocatable vol

def addNotAllocatable (i : IdleVolumes) (vol : Volume) : IdleVolumes := i.add .notAllocatable vol

def delete (i : IdleVolumes) (vid : Nat) : IdleVolumes :=
  match i.m vid with
  | some item => i.removeVid vid item
  | none => i

/-- The loop of `allocFromOptions`, with the vids `succeed` taken so far. -/
def allocLoop (count : Int) : List Nat → List Nat → IdleVolumes → List Nat × IdleVolumes
  | [], succeed, i => (succeed, i)
  | vid :: rest, succeed, i =>
    match i.m vid with
    | some item =>
      if count ≤ (succeed ++ [vid]).length then (succeed ++ [vid], i.removeVid vid item)
      else allocLoop count rest (succeed ++ [vid]) (i.removeVid vid item)
    | none => allocLoop count rest succeed i

def allocFromOptions (i : IdleVolumes) (optionalVids : List Nat) (count : Int) :
    List Nat × IdleVolumes :=
  allocLoop count optionalVids [] i

def getAllIdles (i : IdleVolumes) : List Volume := i.allocatable.map (·.vol)

@[simp] theorem list_withList (i : IdleVolumes) (h h' : Head) (l : List Element) :
    (i.withList h l).list h' = if h' = h then l else i.list h' := by
  cases h <;> cases h' <;> rfl

@[simp] theorem m_withList (i : IdleVolumes) (h : Head) (l : List Element) :
    (i.withList h l).m = i.m := by cases h <;> rfl

@[simp] theorem nextId_withList (i : IdleVolumes) (h : Head) (l : List Element) :
    (i.withList h l).nextId = i.nextId := by cases h <;> rfl

@[simp] theorem list_removeVid (i : IdleVolumes) (vid : Nat) (item : IdleItem) (h : Head) :
    (i.removeVid vid item).list h = (i.remove item).list h := by cases h <;> rfl

@[simp] theorem m_removeVid (i : IdleVolumes) (vid : Nat) (item : IdleItem) :
    (i.removeVid vid item).m = Function.update i.m vid none := rfl

@[simp] theorem nextId_removeVid (i : IdleVolumes) (vid : Nat) (item : IdleItem) :
    (i.removeVid vid item).nextId = i.nextId := by simp [removeVid, remove]

@[simp] theorem m_remove (i : IdleVolumes) (item : IdleItem) : (i.remove item).m = i.m := by
  simp [remove]

@[simp] theorem nextId_remove (i : IdleVolumes) (item : IdleItem) :
    (i.remove item).nextId = i.nextId := by simp [remove]

@[simp] theorem list_pushFront (i : IdleVolumes) (head h : Head) (vol : Volume) :
    (i.pushFront head vol).list h = if h = head then ⟨i.nextId, vol⟩ :: i.list h else i.list h := by
  cases h <;> cases head <;> rfl

@[simp] theorem m_pushFront (i : IdleVolumes) (head : Head) (vol : Volume) :
    (i.pushFront head vol).m = Function.update i.m vol.vid (some ⟨head, i.nextId⟩) := by
  cases head <;> rfl

@[simp] theorem nextId_pushFront (i : IdleVolumes) (head : Head) (vol : Volume) :
    (i.pushFront head vol).nextId = i.nextId + 1 := by
  cases head <;> rfl

@[simp] theorem list_remove (i : IdleVolumes) (item : IdleItem) (h : Head) :
    (i.remove item).list h =
      if h = item.head then (i.list item.head).filter (·.id != item.element) else i.list h := by
  simp [remove]

/-- The elements of both lists. -/
def elems (i : IdleVolumes) : List Element := i.allocatable ++ i.notAllocatable

theorem mem_elems {i : IdleVolumes} {e : Element} : e ∈ i.elems ↔ ∃ h, e ∈ i.list h := by
  simp only [elems, List.mem_append]
  exact ⟨fun h => h.elim (⟨.allocatable, ·⟩) (⟨.notAllocatable, ·⟩),
    fun ⟨h, he⟩ => by cases h; exacts [.inl he, .inr he]⟩

/-- The index is consistent: distinct element identities below `nextId`, each vid listed once, and
the map names exactly the list and element of each vid. -/
structure WF (i : IdleVolumes) : Prop where
  id_lt : ∀ e ∈ i.elems, e.id < i.nextId
  ids_nodup : (i.elems.map Element.id).Nodup
  vids_nodup : (i.elems.map (·.vol.vid)).Nodup
  m_of_mem : ∀ h, ∀ e ∈ i.list h, i.m e.vol.vid = some ⟨h, e.id⟩
  mem_of_m : ∀ vid item, i.m vid = some item →
    ∃ e ∈ i.list item.head, e.id = item.element ∧ e.vol.vid = vid

theorem wf_empty : WF empty where
  id_lt := by simp [empty, elems]
  ids_nodup := by simp [empty, elems]
  vids_nodup := by simp [empty, elems]
  m_of_mem := by intro h; cases h <;> simp [empty, list]
  mem_of_m := by simp [empty]

theorem WF.eq_of_vid {i : IdleVolumes} (hw : WF i) {e e' : Element} (he : e ∈ i.elems)
    (he' : e' ∈ i.elems) (hv : e.vol.vid = e'.vol.vid) : e = e' :=
  List.inj_on_of_nodup_map hw.vids_nodup he he' hv

theorem WF.eq_of_id {i : IdleVolumes} (hw : WF i) {e e' : Element} (he : e ∈ i.elems)
    (he' : e' ∈ i.elems) (hv : e.id = e'.id) : e = e' :=
  List.inj_on_of_nodup_map hw.ids_nodup he he' hv

theorem WF.head_eq {i : IdleVolumes} (hw : WF i) {e : Element} {h h' : Head}
    (he : e ∈ i.list h) (he' : e ∈ i.list h') : h = h' := by
  have h1 := hw.m_of_mem h e he
  rw [hw.m_of_mem h' e he'] at h1
  exact (IdleItem.mk.inj (Option.some.inj h1)).1.symm

theorem WF.mem_removeVid {i : IdleVolumes} (hw : WF i) {vid : Nat} {item : IdleItem}
    (hm : i.m vid = some item) (h : Head) (e : Element) :
    e ∈ (i.removeVid vid item).list h ↔ e ∈ i.list h ∧ e.vol.vid ≠ vid := by
  obtain ⟨e₀, he₀, hid, hvid⟩ := hw.mem_of_m vid item hm
  have hel : ∀ {h'}, e ∈ i.list h' → e₀ ∈ i.list item.head → (e.id = e₀.id ↔ e.vol.vid = vid) :=
    fun hh he0 => ⟨fun hi => hvid ▸ congrArg (·.vol.vid)
        (hw.eq_of_id (mem_elems.mpr ⟨_, hh⟩) (mem_elems.mpr ⟨_, he0⟩) hi),
      fun hv => congrArg Element.id
        (hw.eq_of_vid (mem_elems.mpr ⟨_, hh⟩) (mem_elems.mpr ⟨_, he0⟩) (hv.trans hvid.symm))⟩
  simp only [list_removeVid, list_remove]
  split
  · subst h
    simp only [List.mem_filter, bne_iff_ne, ne_eq]
    exact and_congr_right fun hh => not_congr (hid ▸ hel hh he₀)
  · rename_i hne
    refine ⟨fun hh => ⟨hh, fun hv => hne ?_⟩, fun hh => hh.1⟩
    have := hw.eq_of_vid (mem_elems.mpr ⟨_, hh⟩) (mem_elems.mpr ⟨_, he₀⟩) (hv.trans hvid.symm)
    exact hw.head_eq hh (this ▸ he₀)

theorem elems_eq (i : IdleVolumes) : i.elems = i.list .allocatable ++ i.list .notAllocatable := rfl

theorem removeVid_sublist (i : IdleVolumes) (vid : Nat) (item : IdleItem) :
    List.Sublist (i.removeVid vid item).elems i.elems := by
  simp only [elems_eq, list_removeVid, list_remove]
  cases item.head <;> simp only [↓reduceIte, reduceCtorEq]
  · exact (List.filter_sublist _).append (List.Sublist.refl _)
  · exact (List.Sublist.refl _).append (List.filter_sublist _)

theorem WF.removeVid {i : IdleVolumes} (hw : WF i) {vid : Nat} {item : IdleItem}
    (hm : i.m vid = some item) : WF (i.removeVid vid item) where
  id_lt e he := by
    rw [nextId_removeVid]; exact hw.id_lt e ((removeVid_sublist i vid item).subset he)
  ids_nodup := hw.ids_nodup.sublist ((removeVid_sublist i vid item).map _)
  vids_nodup := hw.vids_nodup.sublist ((removeVid_sublist i vid item).map _)
  m_of_mem h e he := by
    obtain ⟨he, hv⟩ := (hw.mem_removeVid hm h e).mp he
    rw [m_removeVid, Function.update_noteq hv]
    exact hw.m_of_mem h e he
  mem_of_m v it hv := by
    rw [m_removeVid] at hv
    have hne : v ≠ vid := by rintro rfl; simp at hv
    rw [Function.update_noteq hne] at hv
    obtain ⟨e, he, hid, hev⟩ := hw.mem_of_m v it hv
    exact ⟨e, (hw.mem_removeVid hm _ e).mpr ⟨he, hev ▸ hne⟩, hid, hev⟩

theorem WF.delete {i : IdleVolumes} (hw : WF i) (vid : Nat) : WF (i.delete vid) := by
  unfold IdleVolumes.delete; split
  · exact hw.removeVid ‹_›
  · exact hw

theorem m_delete_self (i : IdleVolumes) (vid : Nat) : (i.delete vid).m vid = none := by
  unfold IdleVolumes.delete; split
  · simp
  · assumption

theorem m_delete_ne (i : IdleVolumes) {vid v : Nat} (hv : v ≠ vid) :
    (i.delete vid).m v = i.m v := by
  unfold IdleVolumes.delete; split
  · simp [Function.update_noteq hv]
  · rfl

@[simp] theorem nextId_delete (i : IdleVolumes) (vid : Nat) : (i.delete vid).nextId = i.nextId := by
  unfold IdleVolumes.delete; split <;> simp

theorem list_add (i : IdleVolumes) (head h : Head) (vol : Volume) :
    (i.add head vol).list h =
      if h = head then ⟨i.nextId, vol⟩ :: (i.delete vol.vid).list h else (i.delete vol.vid).list h := by
  unfold IdleVolumes.add IdleVolumes.delete
  split <;> simp

theorem m_add (i : IdleVolumes) (head : Head) (vol : Volume) :
    (i.add head vol).m = Function.update (i.delete vol.vid).m vol.vid (some ⟨head, i.nextId⟩) := by
  unfold IdleVolumes.add IdleVolumes.delete
  split <;> simp

@[simp] theorem nextId_add (i : IdleVolumes) (head : Head) (vol : Volume) :
    (i.add head vol).nextId = i.nextId + 1 := by
  unfold IdleVolumes.add; split <;> simp

theorem elems_add_perm (i : IdleVolumes) (head : Head) (vol : Volume) :
    (i.add head vol).elems.Perm (⟨i.nextId, vol⟩ :: (i.delete vol.vid).elems) := by
  simp only [elems_eq, list_add]
  cases head <;> simp only [↓reduceIte, reduceCtorEq, List.cons_append]
  exacts [List.Perm.refl _, List.perm_middle]

theorem WF.add {i : IdleVolumes} (hw : WF i) (head : Head) (vol : Volume) :
    WF (i.add head vol) := by
  have hd := hw.delete vol.vid
  have hfresh : ∀ e ∈ (i.delete vol.vid).elems, e.vol.vid ≠ vol.vid := fun e he hv => by
    obtain ⟨h, he⟩ := mem_elems.mp he
    have := hd.m_of_mem h e he
    rw [hv, m_delete_self] at this
    cases this
  have hp := elems_add_perm i head vol
  have hmem : ∀ h e, e ∈ (i.add head vol).list h ↔
      (h = head ∧ e = ⟨i.nextId, vol⟩) ∨ e ∈ (i.delete vol.vid).list h := by
    intro h e; rw [list_add]; split <;> simp [*]
  refine ⟨fun e he => ?_, ?_, ?_, fun h e he => ?_, fun v it hv => ?_⟩
  · rcases List.mem_cons.mp (hp.subset he) with rfl | he
    · simp
    · have := hd.id_lt e he; simp only [nextId_add, nextId_delete] at this ⊢; omega
  · refine (hp.map _).nodup_iff.mpr (List.nodup_cons.mpr ⟨fun hm => ?_, hd.ids_nodup⟩)
    obtain ⟨e, he, hid⟩ := List.mem_map.mp hm
    have := hd.id_lt e he
    simp only [nextId_delete] at this
    dsimp only at hid
    omega
  · refine (hp.map _).nodup_iff.mpr (List.nodup_cons.mpr ⟨fun hm => ?_, hd.vids_nodup⟩)
    obtain ⟨e, he, hv⟩ := List.mem_map.mp hm
    exact hfresh e he hv
  · rw [m_add]
    rcases (hmem h e).mp he with ⟨rfl, rfl⟩ | he
    · simp
    · rw [Function.update_noteq (hfresh e (mem_elems.mpr ⟨h, he⟩)), hd.m_of_mem h e he]
  · rw [m_add] at hv
    by_cases hvv : v = vol.vid
    · subst hvv
      simp only [Function.update_same, Option.some.injEq] at hv
      subst hv
      exact ⟨_, (hmem head _).mpr (.inl ⟨rfl, rfl⟩), rfl, rfl⟩
    · rw [Function.update_noteq hvv] at hv
      obtain ⟨e, he, hid, hev⟩ := hd.mem_of_m v it hv
      exact ⟨e, (hmem _ e).mpr (.inr he), hid, hev⟩

theorem allocLoop_spec (count : Int) : ∀ (opts succeed : List Nat) (i : IdleVolumes), WF i →
    (∀ v ∈ succeed, i.m v = none) →
    WF (allocLoop count opts succeed i).2 ∧
    ∃ r, (allocLoop count opts succeed i).1 = succeed ++ r ∧ List.Sublist r opts ∧ r.Nodup ∧
      (∀ v ∈ r, (i.m v).isSome ∧ (allocLoop count opts succeed i).2.m v = none) ∧
      ∀ v, i.m v = none → (allocLoop count opts succeed i).2.m v = none
  | [], succeed, i, hw, _ => ⟨hw, [], by simp [allocLoop]⟩
  | vid :: rest, succeed, i, hw, hs => by
    simp only [allocLoop]
    split
    · rename_i item hm
      have hj := hw.removeVid hm
      have hjm : ∀ v, i.m v = none → (i.removeVid vid item).m v = none := fun v hv => by
        by_cases hvv : v = vid <;> simp [hvv, hv]
      split
      · exact ⟨hj, [vid], rfl, (List.nil_sublist rest).cons₂ vid, List.nodup_singleton vid,
          by simp [hm], hjm⟩
      · have hs' : ∀ v ∈ succeed ++ [vid], (i.removeVid vid item).m v = none := by
          intro v hv
          rcases List.mem_append.mp hv with hv | hv
          · exact hjm v (hs v hv)
          · simp [List.mem_singleton.mp hv]
        obtain ⟨hw', r, hr, hsub, hnd, hin, hnone⟩ := allocLoop_spec count rest _ _ hj hs'
        have hvid : vid ∉ r := fun hv => by
          have := (hin vid hv).1; simp at this
        refine ⟨hw', vid :: r, by simp [hr], hsub.cons₂ vid, List.nodup_cons.mpr ⟨hvid, hnd⟩,
          fun v hv => ?_, fun v hv => hnone v (hjm v hv)⟩
        rcases List.mem_cons.mp hv with rfl | hv
        · exact ⟨by simp [hm], hnone v (by simp)⟩
        · refine ⟨?_, (hin v hv).2⟩
          have := (hin v hv).1
          by_cases hvv : v = vid
          · exact absurd (hvv ▸ hv) hvid
          · simpa [hvv] using this
    · obtain ⟨hw', r, hr, hsub, hnd, hin, hnone⟩ := allocLoop_spec count rest succeed i hw hs
      exact ⟨hw', r, hr, hsub.cons vid, hnd, hin, hnone⟩

theorem allocLoop_length (count : Int) : ∀ (opts succeed : List Nat) (i : IdleVolumes),
    (succeed.length : Int) < count → ((allocLoop count opts succeed i).1.length : Int) ≤ count
  | [], _, _, h => by simp only [allocLoop]; omega
  | vid :: rest, succeed, i, h => by
    simp only [allocLoop]
    split
    · split
      · simp only [List.length_append, List.length_singleton]; omega
      · rename_i hc
        exact allocLoop_length count rest _ _ (lt_of_not_le hc)
    · exact allocLoop_length count rest succeed i h

theorem WF.allocFromOptions {i : IdleVolumes} (hw : WF i) (opts : List Nat) (count : Int) :
    WF (i.allocFromOptions opts count).2 :=
  (allocLoop_spec count opts [] i hw (by simp)).1

theorem allocFromOptions_present {i : IdleVolumes} (hw : WF i) {opts : List Nat} {count : Int}
    {v : Nat} (hv : v ∈ (i.allocFromOptions opts count).1) : (i.m v).isSome := by
  obtain ⟨-, r, hr, -, -, hin, -⟩ := allocLoop_spec count opts [] i hw (by simp)
  rw [allocFromOptions, hr, List.nil_append] at hv
  exact (hin v hv).1

end IdleVolumes

/-- A call on the index. -/
inductive Op where
  | addAllocatable (vol : Volume)
  | addNotAllocatable (vol : Volume)
  | delete (vid : Nat)
  | allocFromOptions (optionalVids : List Nat) (count : Int)

/-- The call adds a volume with vid `vid`. -/
def Op.Adds (vid : Nat) : Op → Prop
  | .addAllocatable vol => vol.vid = vid
  | .addNotAllocatable vol => vol.vid = vid
  | _ => False

namespace IdleVolumes

/-- A call: the vids it returns (only `allocFromOptions` returns any) and the index after it. -/
def apply (i : IdleVolumes) : Op → List Nat × IdleVolumes
  | .addAllocatable vol => ([], i.addAllocatable vol)
  | .addNotAllocatable vol => ([], i.addNotAllocatable vol)
  | .delete vid => ([], i.delete vid)
  | .allocFromOptions opts count => i.allocFromOptions opts count

/-- The index after a sequence of calls. -/
def run (i : IdleVolumes) (ops : List Op) : IdleVolumes := ops.foldl (fun j op => (j.apply op).2) i

theorem WF.apply {i : IdleVolumes} (hw : WF i) (op : Op) : WF (i.apply op).2 := by
  cases op with
  | addAllocatable vol => exact hw.add _ vol
  | addNotAllocatable vol => exact hw.add _ vol
  | delete vid => exact hw.delete vid
  | allocFromOptions opts count => exact hw.allocFromOptions opts count

theorem apply_keeps_absent {i : IdleVolumes} (hw : WF i) {op : Op} {vid : Nat}
    (hm : i.m vid = none) (hop : ¬ op.Adds vid) : (i.apply op).2.m vid = none := by
  cases op with
  | addAllocatable vol | addNotAllocatable vol =>
    simp only [apply, addAllocatable, addNotAllocatable, m_add]
    rw [Function.update_noteq (Ne.symm hop), m_delete_ne _ (Ne.symm hop), hm]
  | delete v =>
    by_cases hv : vid = v
    · subst hv; exact m_delete_self i vid
    · simp only [apply]; rw [m_delete_ne _ hv, hm]
  | allocFromOptions opts count =>
    obtain ⟨-, r, -, -, -, -, hnone⟩ := allocLoop_spec count opts [] i hw (by simp)
    exact hnone vid hm

theorem run_keeps_absent {i : IdleVolumes} (hw : WF i) {vid : Nat} (hm : i.m vid = none)
    (ops : List Op) (hops : ∀ op ∈ ops, ¬ op.Adds vid) : WF (i.run ops) ∧ (i.run ops).m vid = none := by
  induction ops generalizing i with
  | nil => exact ⟨hw, hm⟩
  | cons op ops ih =>
    exact ih (hw.apply op) (apply_keeps_absent hw hm (hops op (List.mem_cons_self _ _)))
      fun op' h => hops op' (List.mem_cons_of_mem _ h)

end IdleVolumes

/-- The indexes that calls can reach from the empty one. -/
inductive Reachable : IdleVolumes → Prop where
  | empty : Reachable .empty
  | step {i : IdleVolumes} (op : Op) : Reachable i → Reachable (i.apply op).2

theorem Reachable.wf {i : IdleVolumes} (hr : Reachable i) : i.WF := by
  induction hr with
  | empty => exact IdleVolumes.wf_empty
  | step op _ ih => exact ih.apply op

open IdleVolumes in
/-- Over every call sequence the index is consistent, `getAllIdles` repeats no vid, and
`allocFromOptions` takes at most `count` present vids, in option order, not again until re-added. -/
theorem idle_index_invariant {i : IdleVolumes} (hr : Reachable i) :
    (∀ vid, (i.m vid).isSome ↔ vid ∈ i.elems.map (·.vol.vid)) ∧
    (i.elems.map (·.vol.vid)).Nodup ∧
    (∀ vid item, i.m vid = some item →
      ∃ e ∈ i.list item.head, e.id = item.element ∧ e.vol.vid = vid) ∧
    (i.getAllIdles.map Volume.vid).Nodup ∧
    (∀ opts count, 1 ≤ count →
      ((i.allocFromOptions opts count).1.length : Int) ≤ count ∧
      (i.allocFromOptions opts count).1.Nodup ∧
      List.Sublist (i.allocFromOptions opts count).1 opts ∧
      ∀ v ∈ (i.allocFromOptions opts count).1,
        (i.m v).isSome ∧ (i.allocFromOptions opts count).2.m v = none) ∧
    (∀ opts count v, v ∈ (i.allocFromOptions opts count).1 →
      ∀ mid : List Op, (∀ op ∈ mid, ¬ op.Adds v) → ∀ opts' count',
        v ∉ (((i.allocFromOptions opts count).2.run mid).allocFromOptions opts' count').1) := by
  have hw := hr.wf
  refine ⟨fun vid => ⟨fun hs => ?_, fun hv => ?_⟩, hw.vids_nodup, hw.mem_of_m, ?_,
    fun opts count hc => ?_, fun opts count v hv mid hmid opts' count' hv' => ?_⟩
  · obtain ⟨item, hitem⟩ := Option.isSome_iff_exists.mp hs
    obtain ⟨e, he, -, rfl⟩ := hw.mem_of_m vid item hitem
    exact List.mem_map.mpr ⟨e, mem_elems.mpr ⟨_, he⟩, rfl⟩
  · obtain ⟨e, he, rfl⟩ := List.mem_map.mp hv
    obtain ⟨h, he⟩ := mem_elems.mp he
    simp [hw.m_of_mem h e he]
  · have : List.Sublist (i.getAllIdles.map Volume.vid) (i.elems.map (·.vol.vid)) := by
      simp only [getAllIdles, List.map_map, elems]
      exact (List.sublist_append_left _ _).map _
    exact hw.vids_nodup.sublist this
  · obtain ⟨-, r, hr, hsub, hnd, hin, -⟩ := allocLoop_spec count opts [] i hw (by simp)
    rw [allocFromOptions, hr, List.nil_append]
    exact ⟨by simpa [allocFromOptions, hr] using allocLoop_length count opts [] i (by simpa),
      hnd, hsub, hin⟩
  · obtain ⟨-, r, hr, -, -, hin, -⟩ := allocLoop_spec count opts [] i hw (by simp)
    rw [allocFromOptions, hr, List.nil_append] at hv
    have habs := run_keeps_absent (hw.allocFromOptions opts count) (hin v hv).2 mid hmid
    have := allocFromOptions_present habs.1 hv'
    simp [habs.2] at this

/-- Adding vid 7 twice leaves it once on the allocatable list. -/
theorem idle_index_readd :
    Reachable ((IdleVolumes.empty.apply (.addAllocatable ⟨7⟩)).2.apply (.addAllocatable ⟨7⟩)).2 ∧
      ((IdleVolumes.empty.apply (.addAllocatable ⟨7⟩)).2.apply
        (.addAllocatable ⟨7⟩)).2.getAllIdles.map Volume.vid = [7] ∧
      (((IdleVolumes.empty.apply (.addAllocatable ⟨7⟩)).2.apply
        (.addAllocatable ⟨7⟩)).2.getAllIdles.map Volume.vid).Nodup :=
  have hr := (Reachable.empty.step (.addAllocatable ⟨7⟩)).step (.addAllocatable ⟨7⟩)
  ⟨hr, by decide, (idle_index_invariant hr).2.2.2.1⟩

end BlobStore.VolumeMgr
