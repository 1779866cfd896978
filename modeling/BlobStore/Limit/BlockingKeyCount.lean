import Mathlib

/-! `blockingKeyCountLimit` of `util/limit/keycount` as callers each running `Acquire(keys t)`
then `Release(keys t)`; a blocker's `ready` channel is its count of buffered tokens. -/

namespace BlobStore.KeyCount.Blocking

/-- `blocker`: `ref` and the tokens buffered in `ready`. -/
structure Blocker where
  ref : Int
  ready : Nat
  deriving DecidableEq, Repr

/-- Where a caller is in `Acquire` and `Release`; `kls` are the blockers collected under the
lock, and `j` the one the loop is at. -/
inductive Pc where
  | start
  | singleRLock
  | singleLock
  | singleAcquire (b : Nat)
  | multiLock
  | multiAddRef (kls : List Nat) (j : Nat)
  | multiAcquire (kls : List Nat) (j : Nat)
  | holding
  | releaseLock
  | releaseSubRef (kls : List Nat) (j : Nat)
  | releaseSend (kls : List Nat) (j : Nat)
  | done
  | panicked
  deriving DecidableEq, Repr

/-- The limiter, the owner of `l.lock` when a caller holds it for writing, and the callers. -/
structure St where
  writer : Option Nat
  keyMap : Nat → Option Nat
  blockers : List Blocker
  pcs : List Pc

def Pc.finished : Pc → Bool
  | .done | .panicked => true
  | _ => false

variable (limit : Nat)

/-- `newBlocker(limit)`, stored as the blocker with the next id. -/
def St.newBlocker (s : St) : St × Nat :=
  ({ s with blockers := s.blockers ++ [⟨0, limit⟩] }, s.blockers.length)

def St.setPc (s : St) (t : Nat) (pc : Pc) : St := { s with pcs := s.pcs.set t pc }

def St.modifyBlocker (s : St) (b : Nat) (f : Blocker → Blocker) : St :=
  { s with blockers := s.blockers.modify f b }

def St.blocker (s : St) (b : Nat) : Blocker := s.blockers.getD b ⟨0, 0⟩

/-- The first loop of the several-key `Acquire`, under the lock: find or create the blocker of
each key. -/
def multiBlockers : List Nat → St → St × List Nat
  | [], s => (s, [])
  | key :: keys, s =>
    let (s, kl) := match s.keyMap key with
      | some kl => (s, kl)
      | none =>
        let (s, kl) := s.newBlocker limit
        ({ s with keyMap := Function.update s.keyMap key (some kl) }, kl)
    let (s, kls) := multiBlockers keys s
    (s, kl :: kls)

/-- The first loop of `Release`, under the lock: `none` for a panic; a blocker whose `ref` is
0 is deleted from the map. -/
def releaseBlockers : List Nat → St → Option (St × List Nat)
  | [], s => some (s, [])
  | key :: keys, s =>
    match s.keyMap key with
    | none => none
    | some kl =>
      if (s.blocker kl).ref < 0 then none else
      let s := if (s.blocker kl).ref = 0 then
        { s with keyMap := Function.update s.keyMap key none } else s
      (releaseBlockers keys s).map fun (s, kls) => (s, kl :: kls)

/-- The next atomic action of caller `t`, whose keys are `keys`; `none` when it is blocked or
finished. -/
def step (s : St) (t : Nat) (keys : List Nat) : Pc → Option St
  | .start => some (s.setPc t (match keys with
      | [] => .done
      | [_] => .singleRLock
      | _ => .multiLock))
  | .singleRLock =>
    if s.writer.isSome then none else
    match s.keyMap (keys.headD 0) with
    | none => some (s.setPc t .singleLock)
    | some kl => some ((s.modifyBlocker kl fun k => { k with ref := k.ref + 1 }).setPc t
        (.singleAcquire kl))
  | .singleLock =>
    if s.writer.isSome then none else
    let (s, kl) := s.newBlocker limit
    let s := { s with keyMap := Function.update s.keyMap (keys.headD 0) (some kl) }
    some ((s.modifyBlocker kl fun k => { k with ref := k.ref + 1 }).setPc t (.singleAcquire kl))
  | .singleAcquire kl =>
    if (s.blocker kl).ready = 0 then none else
    some ((s.modifyBlocker kl fun k => { k with ready := k.ready - 1 }).setPc t .holding)
  | .multiLock =>
    if s.writer.isSome then none else
    let (s, kls) := multiBlockers limit keys { s with writer := some t }
    some (s.setPc t (.multiAddRef kls 0))
  | .multiAddRef kls j =>
    some ((s.modifyBlocker (kls.getD j 0) fun k => { k with ref := k.ref + 1 }).setPc t
      (.multiAcquire kls j))
  | .multiAcquire kls j =>
    if (s.blocker (kls.getD j 0)).ready = 0 then none else
    let s := s.modifyBlocker (kls.getD j 0) fun k => { k with ready := k.ready - 1 }
    if j + 1 < kls.length then some (s.setPc t (.multiAddRef kls (j + 1)))
    else some ({ s with writer := none }.setPc t .holding)
  | .holding => some (s.setPc t .releaseLock)
  | .releaseLock =>
    if s.writer.isSome then none else
    match releaseBlockers keys s with
    | none => some (s.setPc t .panicked)
    | some (s, kls) =>
      if kls = [] then some (s.setPc t .done)
      else some ({ s with writer := some t }.setPc t (.releaseSubRef kls 0))
  | .releaseSubRef kls j =>
    some ((s.modifyBlocker (kls.getD j 0) fun k => { k with ref := k.ref - 1 }).setPc t
      (.releaseSend kls j))
  | .releaseSend kls j =>
    if limit ≤ (s.blocker (kls.getD j 0)).ready then none else
    let s := s.modifyBlocker (kls.getD j 0) fun k => { k with ready := k.ready + 1 }
    if j + 1 < kls.length then some (s.setPc t (.releaseSubRef kls (j + 1)))
    else some ({ s with writer := none }.setPc t .done)
  | .done => none
  | .panicked => none

/-- The next action of caller `t` among the callers with keys `callers`. -/
def next (callers : List (List Nat)) (s : St) (t : Nat) : Option St :=
  match s.pcs[t]?, callers[t]? with
  | some pc, some keys => step limit s t keys pc
  | _, _ => none

/-- `NewBlockingKeyCountLimit(limit)` with every caller before its `Acquire`. -/
def init (callers : List (List Nat)) : St := ⟨none, fun _ => none, [], callers.map fun _ => .start⟩

/-- The states that the callers reach in any interleaving. -/
inductive Reachable (callers : List (List Nat)) : St → Prop where
  | init : Reachable callers (init callers)
  | step {s s' : St} (t : Nat) : Reachable callers s → next limit callers s t = some s' →
      Reachable callers s'

/-- Run the callers of a schedule in order. -/
def run (callers : List (List Nat)) : St → List Nat → Option St
  | s, [] => some s
  | s, t :: ts => (next limit callers s t).bind (run callers · ts)

theorem reachable_run {callers : List (List Nat)} :
    ∀ {s s' : St} {ts : List Nat}, Reachable limit callers s → run limit callers s ts = some s' →
      Reachable limit callers s'
  | _, _, [], hs, h => by cases h; exact hs
  | s, _, t :: ts, hs, h => by
    simp only [run] at h
    cases hn : next limit callers s t with
    | none => simp [hn] at h
    | some s₁ => rw [hn, Option.some_bind] at h; exact reachable_run (hs.step t hn) h

theorem reach_of_run (callers : List (List Nat)) (ts : List Nat) (p : St → Bool)
    (h : (run limit callers (init callers) ts).map p = some true) :
    ∃ s, Reachable limit callers s ∧ p s = true := by
  cases hr : run limit callers (init callers) ts with
  | none => simp [hr] at h
  | some s =>
    rw [hr, Option.map_some', Option.some.injEq] at h
    exact ⟨s, reachable_run limit .init hr, h⟩

/-- Every caller that has not finished is blocked, and one has not finished. -/
def Deadlocked (callers : List (List Nat)) (s : St) : Prop :=
  (∃ t < s.pcs.length, (s.pcs.getD t .done).finished = false) ∧
    ∀ t < s.pcs.length, (s.pcs.getD t .done).finished = false →
      (next limit callers s t).isNone = true

instance (callers : List (List Nat)) (s : St) : Decidable (Deadlocked limit callers s) :=
  inferInstanceAs (Decidable (_ ∧ _))

/-- The callers that hold `key`: their `Acquire` of it returned and their `Release` has not
started. -/
def holders (callers : List (List Nat)) (s : St) (key : Nat) : Nat :=
  ((s.pcs.zip callers).filter fun (pc, keys) => pc = .holding ∧ key ∈ keys).length

/-- Two first-time single-key `Acquire`s of one key both see no blocker under `RLock`, and each
then installs a blocker of its own under `Lock`: with limit 1 both callers hold the key. -/
theorem single_key_acquires_overadmit :
    ∃ s, Reachable 1 [[5], [5]] s ∧ 1 < holders [[5], [5]] s 5 := by
  obtain ⟨s, hs, hp⟩ := reach_of_run 1 [[5], [5]] [0, 0, 1, 1, 0, 0, 1, 1]
    (fun s => decide (1 < holders [[5], [5]] s 5)) (by decide)
  exact ⟨s, hs, of_decide_eq_true hp⟩

/-- At limit 1, a caller holding key 5 and another in `Acquire(5, 6)` waiting on 5's `ready`
while holding `l.lock`: the holder's `Release(5)` needs `l.lock`, so neither moves. -/
theorem multi_key_acquire_deadlocks :
    ∃ s, Reachable 1 [[5], [5, 6]] s ∧ Deadlocked 1 [[5], [5, 6]] s := by
  obtain ⟨s, hs, hp⟩ := reach_of_run 1 [[5], [5, 6]] [0, 0, 0, 0, 1, 1, 1, 0]
    (fun s => decide (Deadlocked 1 [[5], [5, 6]] s)) (by decide)
  exact ⟨s, hs, of_decide_eq_true hp⟩

/-- Two callers that each `Acquire` and `Release` one key in turn leave both blockers in `keyMap`
with `ref` 0. -/
theorem released_keys_stay_in_map :
    ∃ s, Reachable 1 [[5], [6]] s ∧ s.pcs = [.done, .done] ∧ s.keyMap 5 = some 0 ∧
      s.keyMap 6 = some 1 ∧ (s.blocker 0).ref = 0 ∧ (s.blocker 1).ref = 0 := by
  obtain ⟨s, hs, hp⟩ := reach_of_run 1 [[5], [6]] [0, 0, 0, 0, 0, 0, 0, 0, 1, 1, 1, 1, 1, 1, 1, 1]
    (fun s => decide (s.pcs = [.done, .done] ∧ s.keyMap 5 = some 0 ∧ s.keyMap 6 = some 1 ∧
      (s.blocker 0).ref = 0 ∧ (s.blocker 1).ref = 0)) (by decide)
  exact ⟨s, hs, of_decide_eq_true hp⟩

end BlobStore.KeyCount.Blocking
