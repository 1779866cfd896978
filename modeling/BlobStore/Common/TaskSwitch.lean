import Mathlib

/-! `common/taskswitch`: a switch is a flag and the `sync.WaitGroup` `WaitEnable` waits on, whose
panic on a negative counter is `none`. `update` takes Go's map walk order as an argument. -/

namespace BlobStore.Common

/-- `TaskSwitch`: `enabled`, and the counter of `wg`. -/
structure TaskSwitch where
  enabled : Bool
  wg : Int
  deriving DecidableEq, Repr

/-- `WaitGroup.Add(delta)`: `none` for the panic on a negative counter. -/
def wgAdd (counter delta : Int) : Option Int :=
  if counter + delta < 0 then none else some (counter + delta)

/-- `TaskSwitch.Enable`; `wg.Done()` is `Add(-1)`. -/
def TaskSwitch.enable (s : TaskSwitch) : Option TaskSwitch :=
  if s.enabled then some s else (wgAdd s.wg (-1)).map fun wg => ⟨true, wg⟩

/-- `TaskSwitch.Disable`. -/
def TaskSwitch.disable (s : TaskSwitch) : Option TaskSwitch :=
  if !s.enabled then some s else (wgAdd s.wg 1).map fun wg => ⟨false, wg⟩

/-- `newTaskSwitch`: enabled with a zero counter, then `Disable()`. -/
def newTaskSwitch : Option TaskSwitch := TaskSwitch.disable ⟨true, 0⟩

/-- `NewEnabledTaskSwitch`. -/
def newEnabledTaskSwitch : Option TaskSwitch := newTaskSwitch.bind TaskSwitch.enable

/-- `WaitEnable` (`wg.Wait()`) returns at once exactly when the counter is zero. -/
def TaskSwitch.waitEnableReturns (s : TaskSwitch) : Bool := decide (s.wg = 0)

/-- A call that changes a switch. -/
inductive Call where
  | enable
  | disable
  deriving DecidableEq, Repr

def TaskSwitch.call (s : TaskSwitch) : Call → Option TaskSwitch
  | .enable => s.enable
  | .disable => s.disable

/-- Calls one after the other; `none` once one panics. -/
def TaskSwitch.calls (s : TaskSwitch) (cs : List Call) : Option TaskSwitch :=
  cs.foldlM TaskSwitch.call s

/-- The switch that stands for the flag `b`. -/
def TaskSwitch.ofEnabled (b : Bool) : TaskSwitch := ⟨b, if b then 0 else 1⟩

@[simp] theorem TaskSwitch.ofEnabled_enabled (b : Bool) : (TaskSwitch.ofEnabled b).enabled = b :=
  rfl

/-- The flag a call sets. -/
def Call.flag : Call → Bool
  | .enable => true
  | .disable => false

theorem call_ofEnabled (b : Bool) (c : Call) :
    (TaskSwitch.ofEnabled b).call c = some (.ofEnabled c.flag) := by
  cases b <;> cases c <;> rfl

theorem calls_ofEnabled (b : Bool) (cs : List Call) :
    (TaskSwitch.ofEnabled b).calls cs = some (.ofEnabled (cs.foldl (fun _ c => c.flag) b)) := by
  induction cs generalizing b with
  | nil => rfl
  | cons c cs ih =>
    simp only [TaskSwitch.calls, List.foldlM_cons, call_ofEnabled, Option.bind_eq_bind,
      Option.some_bind, List.foldl_cons] at ih ⊢
    exact ih c.flag

theorem newTaskSwitch_eq : newTaskSwitch = some (.ofEnabled false) := rfl

theorem newEnabledTaskSwitch_eq : newEnabledTaskSwitch = some (.ofEnabled true) := rfl

theorem waitEnableReturns_ofEnabled (b : Bool) :
    (TaskSwitch.ofEnabled b).waitEnableReturns = b := by
  cases b <;> rfl

/-- On a new switch, no sequence of `Enable` and `Disable` calls panics, the flag is the last
call's, and `WaitEnable` returns at once exactly when it is enabled. -/
theorem taskSwitch_calls_never_panic (cs : List Call) :
    (∃ s, newTaskSwitch.bind (·.calls cs) = some s ∧
      s.enabled = cs.foldl (fun _ c => c.flag) false ∧ s.waitEnableReturns = s.enabled) ∧
    (∃ s, newEnabledTaskSwitch.bind (·.calls cs) = some s ∧
      s.enabled = cs.foldl (fun _ c => c.flag) true ∧ s.waitEnableReturns = s.enabled) := by
  rw [newTaskSwitch_eq, newEnabledTaskSwitch_eq]
  exact ⟨⟨_, calls_ofEnabled false cs, rfl, waitEnableReturns_ofEnabled _⟩,
    ⟨_, calls_ofEnabled true cs, rfl, waitEnableReturns_ofEnabled _⟩⟩

def switchOpen : String := "Enable"

def switchClose : String := "Disable"

/-- `switchStatus`: the flag and the error it returns. -/
def switchStatus (statusStr : String) : Bool × Option String :=
  if statusStr = switchOpen then (true, none)
  else if statusStr = switchClose then (false, none)
  else (true, some "illegal status str")

/-- `ErrConflictSwitch` and `ErrNoSuchSwitch`. -/
inductive SwitchErr where
  | conflictSwitch
  | noSuchSwitch
  deriving DecidableEq, Repr

/-- `SwitchMgr`: the switches by name. -/
structure SwitchMgr where
  switchs : AList fun _ : String => TaskSwitch

/-- `NewSwitchMgr`. -/
def newSwitchMgr : SwitchMgr := ⟨∅⟩

/-- `AddSwitch`: a new switch is disabled; a name already there is refused. The switch
returned is the one stored under `switchName`. -/
def SwitchMgr.addSwitch (sm : SwitchMgr) (switchName : String) :
    Option (Except SwitchErr SwitchMgr) :=
  if switchName ∈ sm.switchs then some (.error .conflictSwitch)
  else newTaskSwitch.map fun s => .ok ⟨sm.switchs.insert switchName s⟩

/-- `DelSwitch`. -/
def SwitchMgr.delSwitch (sm : SwitchMgr) (switchName : String) : Except SwitchErr SwitchMgr :=
  if switchName ∈ sm.switchs then .ok ⟨sm.switchs.erase switchName⟩ else .error .noSuchSwitch

/-- The body of `update`'s loop for one switch; `statusStr` is what `GetConfig` returned, `none`
for an error. -/
def updateSwitch (statusStr : Option String) (s : TaskSwitch) : Option TaskSwitch :=
  match statusStr with
  | none => some s
  | some statusStr =>
    match switchStatus statusStr with
    | (_, some _) => some s
    | (enable, none) => if enable then s.enable else s.disable

/-- `SwitchMgr.update`, walking the map in the order `order`; `getConfig` is the cluster
manager's `GetConfig`. -/
def SwitchMgr.update (getConfig : String → Option String) (sm : SwitchMgr)
    (order : List String) : Option SwitchMgr :=
  order.foldlM (fun sm switchName =>
    match sm.switchs.lookup switchName with
    | none => some sm
    | some s => (updateSwitch (getConfig switchName) s).map fun s =>
        ⟨sm.switchs.insert switchName s⟩) sm

/-- The flag `update` leaves: what the config says, if it says `Enable` or `Disable`. -/
def configFlag (statusStr : Option String) (b : Bool) : Bool :=
  match statusStr with
  | none => b
  | some statusStr =>
    match switchStatus statusStr with
    | (_, some _) => b
    | (enable, none) => enable

theorem updateSwitch_ofEnabled (statusStr : Option String) (b : Bool) :
    updateSwitch statusStr (.ofEnabled b) = some (.ofEnabled (configFlag statusStr b)) := by
  cases statusStr with
  | none => rfl
  | some statusStr =>
    simp only [updateSwitch, configFlag]
    cases switchStatus statusStr with
    | mk enable err =>
      cases err with
      | none =>
        cases enable
        · exact call_ofEnabled b .disable
        · exact call_ofEnabled b .enable
      | some _ => rfl

theorem configFlag_idem (statusStr : Option String) (b : Bool) :
    configFlag statusStr (configFlag statusStr b) = configFlag statusStr b := by
  cases statusStr with
  | none => rfl
  | some statusStr =>
    simp only [configFlag]
    cases switchStatus statusStr with
    | mk enable err => cases err <;> rfl

/-- Every switch of the manager is the switch of its flag. -/
def SwitchMgr.WF (sm : SwitchMgr) : Prop :=
  ∀ k s, sm.switchs.lookup k = some s → s = .ofEnabled s.enabled

theorem SwitchMgr.WF.insert {sm : SwitchMgr} (hwf : sm.WF) (name : String) (b : Bool) :
    SwitchMgr.WF ⟨sm.switchs.insert name (.ofEnabled b)⟩ := by
  intro k t ht
  by_cases hkn : k = name
  · subst hkn
    rw [AList.lookup_insert, Option.some.injEq] at ht
    rw [← ht]
    rfl
  · rw [AList.lookup_insert_ne hkn] at ht
    exact hwf k t ht

theorem update_lookup (getConfig : String → Option String) :
    ∀ (order : List String) (sm : SwitchMgr), sm.WF → ∃ sm', sm.update getConfig order = some sm' ∧
      ∀ k, sm'.switchs.lookup k = (sm.switchs.lookup k).map fun s =>
        if k ∈ order then .ofEnabled (configFlag (getConfig k) s.enabled) else s
  | [], sm, _ => ⟨sm, rfl, fun k => by simp⟩
  | name :: order, sm, hwf => by
    cases hs : sm.switchs.lookup name with
    | none =>
      obtain ⟨sm', hsm', hk⟩ := update_lookup getConfig order sm hwf
      refine ⟨sm', by simp only [SwitchMgr.update, List.foldlM_cons, hs]; exact hsm', fun k => ?_⟩
      rw [hk]
      by_cases hkn : k = name
      · subst hkn
        rw [hs]
        rfl
      · simp only [List.mem_cons, hkn, false_or]
    | some s =>
      obtain ⟨b, rfl⟩ : ∃ b, s = .ofEnabled b := ⟨_, hwf name s hs⟩
      let sm₁ : SwitchMgr := ⟨sm.switchs.insert name (.ofEnabled (configFlag (getConfig name) b))⟩
      obtain ⟨sm', hsm', hk⟩ := update_lookup getConfig order sm₁ (hwf.insert _ _)
      refine ⟨sm', ?_, fun k => ?_⟩
      · simp only [SwitchMgr.update, List.foldlM_cons, hs, updateSwitch_ofEnabled,
          Option.map_some', Option.bind_eq_bind, Option.some_bind]
        exact hsm'
      · rw [hk]
        by_cases hkn : k = name
        · subst hkn
          simp only [sm₁, AList.lookup_insert, hs, Option.map_some', List.mem_cons, true_or,
            if_true, TaskSwitch.ofEnabled_enabled]
          split <;> simp only [configFlag_idem]
        · simp only [sm₁, AList.lookup_insert_ne hkn, List.mem_cons, hkn, false_or]

/-- The manager's states after `NewSwitchMgr` and any `AddSwitch`, `DelSwitch` and `update`
calls, each made under `sm.mu`; `update` walks every name once, in some order. -/
inductive SwitchMgr.Reachable : SwitchMgr → Prop where
  | init : SwitchMgr.Reachable newSwitchMgr
  | addSwitch {sm sm' : SwitchMgr} {switchName : String} : sm.Reachable →
      sm.addSwitch switchName = some (.ok sm') → sm'.Reachable
  | delSwitch {sm sm' : SwitchMgr} {switchName : String} : sm.Reachable →
      sm.delSwitch switchName = .ok sm' → sm'.Reachable
  | update {sm sm' : SwitchMgr} {getConfig : String → Option String} {order : List String} :
      sm.Reachable → order.Perm sm.switchs.keys → sm.update getConfig order = some sm' →
      sm'.Reachable

theorem SwitchMgr.Reachable.wf {sm : SwitchMgr} (h : sm.Reachable) : sm.WF := by
  induction h with
  | init => exact fun k s hs => by cases hs
  | @addSwitch sm sm' switchName _ hadd ih =>
    unfold SwitchMgr.addSwitch at hadd
    split_ifs at hadd
    · cases hadd
    simp only [newTaskSwitch_eq, Option.map_some', Option.some.injEq, Except.ok.injEq] at hadd
    subst hadd
    exact ih.insert _ _
  | @delSwitch sm sm' switchName _ hdel ih =>
    unfold SwitchMgr.delSwitch at hdel
    split_ifs at hdel
    cases hdel
    intro k s hs
    by_cases hkn : k = switchName
    · subst hkn
      rw [AList.lookup_erase] at hs
      cases hs
    · rw [AList.lookup_erase_ne hkn] at hs
      exact ih k s hs
  | @update sm sm' getConfig order _ _ hupd ih =>
    obtain ⟨sm'', hsm'', hk⟩ := update_lookup getConfig order sm ih
    rw [hupd, Option.some.injEq] at hsm''
    subst hsm''
    intro k s hs
    rw [hk] at hs
    obtain ⟨t, ht, rfl⟩ := Option.map_eq_some'.1 hs
    split
    · rfl
    · exact ih k t ht

/-- The config that enables the shard-repair switch and fails for every other name. -/
def enableRepairConfig (k : String) : Option String :=
  if k = "shard_repair" then some switchOpen else none

/-- The manager after `AddSwitch` of the shard-repair and the balance switches and an `update`
under `enableRepairConfig`. -/
def twoSwitchMgr : SwitchMgr :=
  ⟨((∅ : AList fun _ : String => TaskSwitch).insert "balance" (.ofEnabled false)).insert
    "shard_repair" (.ofEnabled true)⟩

theorem twoSwitchMgr_reachable : twoSwitchMgr.Reachable :=
  @SwitchMgr.Reachable.update _ _ enableRepairConfig ["balance", "shard_repair"]
    (@SwitchMgr.Reachable.addSwitch _ _ "balance"
      (@SwitchMgr.Reachable.addSwitch _ _ "shard_repair" .init rfl) rfl)
    (by decide) rfl

/-- A config that disables the shard-repair switch and gives the balance switch a word
`switchStatus` refuses. -/
def mixedConfig (k : String) : Option String :=
  if k = "shard_repair" then some switchClose else if k = "balance" then some "Pause" else none

theorem update_of_perm (getConfig : String → Option String) {sm : SwitchMgr} (hwf : sm.WF)
    {order : List String} (horder : order.Perm sm.switchs.keys) :
    ∃ sm', sm.update getConfig order = some sm' ∧ ∀ k, sm'.switchs.lookup k =
      (sm.switchs.lookup k).map fun s => .ofEnabled (configFlag (getConfig k) s.enabled) := by
  obtain ⟨sm', hsm', hk⟩ := update_lookup getConfig order sm hwf
  refine ⟨sm', hsm', fun k => ?_⟩
  rw [hk]
  cases hs : sm.switchs.lookup k with
  | none => rfl
  | some s =>
    have hmem : k ∈ order :=
      horder.mem_iff.2 (AList.mem_keys.1 (AList.lookup_isSome.1 (by rw [hs]; rfl)))
    simp only [Option.map_some', hmem, if_true]

/-- `update` sets every switch from its own config (`Enable`, `Disable`, or unchanged otherwise),
never panics, and does not depend on the walk order. -/
theorem update_follows_config (getConfig : String → Option String) {sm : SwitchMgr}
    (h : sm.Reachable) {order : List String} (horder : order.Perm sm.switchs.keys) :
    ∃ sm', sm.update getConfig order = some sm' ∧ ∀ k, sm'.switchs.lookup k =
      (sm.switchs.lookup k).map fun s => .ofEnabled (configFlag (getConfig k) s.enabled) :=
  update_of_perm getConfig h.wf horder

theorem update_follows_config_twoSwitchMgr : twoSwitchMgr.Reachable ∧
    ["balance", "shard_repair"].Perm twoSwitchMgr.switchs.keys ∧
    ∃ sm', twoSwitchMgr.update mixedConfig ["balance", "shard_repair"] = some sm' ∧
      ∀ k, sm'.switchs.lookup k = (twoSwitchMgr.switchs.lookup k).map fun s =>
        .ofEnabled (configFlag (mixedConfig k) s.enabled) :=
  ⟨twoSwitchMgr_reachable, by decide,
    update_follows_config _ twoSwitchMgr_reachable (by decide)⟩

/-- In every reachable state each switch is the switch of its flag, so `WaitEnable` blocks exactly
while it is disabled, and no `AddSwitch` or `update` panics. -/
theorem switchMgr_counters_match_flags {sm : SwitchMgr} (h : sm.Reachable) :
    (∀ k s, sm.switchs.lookup k = some s →
      s = .ofEnabled s.enabled ∧ s.waitEnableReturns = s.enabled) ∧
    (∀ switchName, sm.addSwitch switchName ≠ none) ∧
    (∀ getConfig (order : List String), order.Perm sm.switchs.keys →
      sm.update getConfig order ≠ none) := by
  refine ⟨fun k s hs => ⟨h.wf k s hs, ?_⟩, fun switchName => ?_, fun getConfig order horder => ?_⟩
  · rw [h.wf k s hs]
    exact waitEnableReturns_ofEnabled _
  · unfold SwitchMgr.addSwitch
    split_ifs <;> simp [newTaskSwitch_eq]
  · obtain ⟨sm', hsm', -⟩ := update_of_perm getConfig h.wf horder
    rw [hsm']
    exact Option.some_ne_none _

theorem switchMgr_counters_match_flags_twoSwitchMgr : twoSwitchMgr.Reachable ∧
    (∀ k s, twoSwitchMgr.switchs.lookup k = some s →
      s = .ofEnabled s.enabled ∧ s.waitEnableReturns = s.enabled) ∧
    (∀ switchName, twoSwitchMgr.addSwitch switchName ≠ none) ∧
    (∀ getConfig (order : List String), order.Perm twoSwitchMgr.switchs.keys →
      twoSwitchMgr.update getConfig order ≠ none) :=
  ⟨twoSwitchMgr_reachable, switchMgr_counters_match_flags twoSwitchMgr_reachable⟩

end BlobStore.Common
