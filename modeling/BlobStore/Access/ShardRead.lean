import BlobStore.Access.SortedVuid
/-! `readOneShard` and its retry loop `getOneShardFromHost`. The answers of the storage nodes,
the volume refresh and the host lookup at attempt `k` are the environment's `k`-th, so every
result holds for every sequence of answers. -/

namespace BlobStore.Access

/-- The status codes of `errcode` that `getOneShardFromHost` tells apart; their values are not
in the sources. -/
structure ErrCodes where
  overload : Int
  diskBroken : Int
  vuidReadonly : Int
  diskNotFound : Int
  vuidNotFound : Int
  deriving DecidableEq, Repr

/-- The answer of `RangeGetShard`: the body, or an error with its status code
(`rpc.DetectStatusCode`) and whether `errorTimeout` (not in the sources) holds of it. -/
inductive Reply where
  | body (data : List UInt8)
  | err (code : Int) (timeout : Bool)
  deriving DecidableEq, Repr

/-- Where a `RangeGetShard` call goes: the host, `args.DiskID` and `args.Vuid`. -/
structure Target where
  host : String
  diskID : Nat
  vuid : Nat
  deriving DecidableEq, Repr

/-- The fields of `controller.HostIDC` that `getOneShardFromHost` reads. -/
structure DiskHost where
  host : String
  punished : Bool
  deriving DecidableEq, Repr

/-- The errors `getOneShardFromHost` returns. -/
inductive GetShardErr where
  /-- `errCanceledReadShard`, "canceled read shard". -/
  | canceled
  /-- The error of `RangeGetShard` as it came. -/
  | blobnode (code : Int)
  /-- "punished disk (%d %s)". -/
  | punished (diskID : Nat) (host : String)
  /-- The error of `RangeGetShard` under `errors.Base(err, "get shard on (%d %s)")`. -/
  | getShardOn (code : Int) (diskID : Nat) (host : String)
  deriving DecidableEq, Repr

/-- The calls `getOneShardFromHost` makes, in order. -/
inductive ShardEvent where
  | rangeGetShard (t : Target)
  | getVolume
  | getDiskHost (diskID : Nat)
  | punishDisk (diskID : Nat) (host : String) (reason : String)
  | punishDiskWith (diskID : Nat) (host : String) (reason : String)
  deriving DecidableEq, Repr

namespace ShardEvent

/-- The target of a `RangeGetShard` call. -/
def call : ShardEvent → Option Target
  | .rangeGetShard t => some t
  | _ => none

/-- A call other than `RangeGetShard` that, if it punishes, punishes the disk and host of `t`. -/
def About (t : Target) : ShardEvent → Prop
  | .rangeGetShard _ => False
  | .getVolume => True
  | .getDiskHost _ => True
  | .punishDisk d h _ => d = t.diskID ∧ h = t.host
  | .punishDiskWith d h _ => d = t.diskID ∧ h = t.host

theorem call_of_about {t : Target} : ∀ {e : ShardEvent}, e.About t → e.call = none
  | .getVolume, _ | .getDiskHost _, _ | .punishDisk .., _ | .punishDiskWith .., _ => rfl

end ShardEvent

/-- What the read sees at attempt `k` of the retry loop. -/
structure ShardEnv where
  /-- `cancelChan`: `none` for a nil channel, else whether it is closed at attempt `k`. -/
  cancelChan : Option (Nat → Bool)
  /-- `blobnodeClient.RangeGetShard` at attempt `k`. -/
  reply : Nat → Reply
  /-- `latestVolume.Units[index]` for `h.getVolume(ctx, clusterID, vid, false)` at attempt `k`;
  `none` when the refresh fails. -/
  latestUnit : Nat → Option Controller.Unit
  /-- `serviceController.GetDiskHost(ctx, diskID)` at attempt `k`. -/
  diskHost : Nat → Nat → Option DiskHost

namespace ShardEnv

variable (codes : ErrCodes) (env : ShardEnv)

/-- The `select` on `cancelChan` at attempt `k` takes its closed case. -/
def canceled (k : Nat) : Bool :=
  match env.cancelChan with
  | some closed => closed k
  | none => false

/-- After attempt `k` the read moves from `t` to `t'`: a NotFound answer, and the refreshed unit
is on another disk whose host is known and not punished; `t'` is that host, disk and vuid. -/
def Moved (k : Nat) (t t' : Target) : Prop :=
  ∃ code timeout u hi, env.reply k = .err code timeout ∧ code ≠ codes.overload ∧
    ¬(code = codes.diskBroken ∨ code = codes.vuidReadonly) ∧
    (code = codes.diskNotFound ∨ code = codes.vuidNotFound) ∧ env.latestUnit k = some u ∧
    u.diskID ≠ t.diskID ∧ env.diskHost k u.diskID = some hi ∧ hi.punished = false ∧
    t' = ⟨hi.host, u.diskID, u.vuid⟩

/-- `RangeGetShard` answered attempt `k` with DiskBroken or VUIDReadonly, and not with the
code of a case before theirs. -/
def BrokenAt (k : Nat) : Prop :=
  ∃ code timeout, env.reply k = .err code timeout ∧ code ≠ codes.overload ∧
    (code = codes.diskBroken ∨ code = codes.vuidReadonly)

/-- Each call in `ts` after the first goes where the read moved after the one before it, if it
moved, and else where the one before it went. -/
def Follows (ts : List Target) : Prop :=
  ∀ j t t', ts[j]? = some t → ts[j + 1]? = some t' →
    env.Moved codes j t t' ∨ t' = t ∧ ∀ t'', ¬env.Moved codes j t t''

variable {codes env}

theorem Moved.code_cases {k : Nat} {t t' : Target} {code : Int} {timeout : Bool}
    (hr : env.reply k = .err code timeout) (h : env.Moved codes k t t') :
    code ≠ codes.overload ∧ ¬(code = codes.diskBroken ∨ code = codes.vuidReadonly) ∧
      (code = codes.diskNotFound ∨ code = codes.vuidNotFound) := by
  obtain ⟨_, _, _, _, hr', ho, hb, hn, -⟩ := h
  rw [hr, Reply.err.injEq] at hr'
  obtain ⟨rfl, -⟩ := hr'
  exact ⟨ho, hb, hn⟩

theorem Moved.latestUnit_isSome {k : Nat} {t t' : Target} (h : env.Moved codes k t t') :
    (env.latestUnit k).isSome := by
  obtain ⟨_, _, _, _, _, _, _, _, hu, -⟩ := h
  simp [hu]

theorem Moved.of_unit {k : Nat} {t t' : Target} {u : Controller.Unit}
    (h : env.Moved codes k t t') (hu : env.latestUnit k = some u) :
    u.diskID ≠ t.diskID ∧ ∃ hi, env.diskHost k u.diskID = some hi ∧ hi.punished = false := by
  obtain ⟨_, _, u', hi, _, _, _, _, hu', hd, hh, hp, -⟩ := h
  rw [hu, Option.some.injEq] at hu'
  subst hu'
  exact ⟨hd, hi, hh, hp⟩

theorem Follows.of_append {l r : List Target} (h : env.Follows codes (l ++ r)) :
    env.Follows codes l := by
  intro j t t' ht ht'
  have hj : j < l.length := (List.getElem?_eq_some_iff.1 ht).1
  have hj' : j + 1 < l.length := (List.getElem?_eq_some_iff.1 ht').1
  exact h j t t' (by rwa [List.getElem?_append_left hj])
    (by rwa [List.getElem?_append_left hj'])

theorem Follows.snoc {l : List Target} {a b : Target} (h : env.Follows codes (l ++ [a]))
    (hb : env.Moved codes l.length a b ∨ b = a ∧ ∀ t'', ¬env.Moved codes l.length a t'') :
    env.Follows codes (l ++ [a] ++ [b]) := by
  intro j t t' ht ht'
  have hj' : j + 1 < l.length + 2 := by
    simpa using (List.getElem?_eq_some_iff.1 ht').1
  by_cases hj : j < l.length
  · exact h j t t' (by rwa [List.getElem?_append_left (by simp; omega)] at ht)
      (by rwa [List.getElem?_append_left (by simp; omega)] at ht')
  · obtain rfl : j = l.length := by omega
    rw [List.getElem?_append_left (by simp), List.getElem?_concat_length] at ht
    rw [List.getElem?_append_right (by simp)] at ht'
    simp only [List.length_append, List.length_singleton, Nat.sub_self,
      List.getElem?_cons_zero, Option.some.injEq] at ht ht'
    subst ht ht'
    exact hb

end ShardEnv

/-- What the retry closure captures: `host`, `diskID` and `args` (`DiskID`, `Vuid`), the body
`rbody`, and the calls made so far. -/
structure ShardCall where
  host : String
  diskID : Nat
  vuid : Nat
  rbody : Option (List UInt8)
  log : List ShardEvent
  deriving DecidableEq, Repr

namespace ShardCall

def target (s : ShardCall) : Target := ⟨s.host, s.diskID, s.vuid⟩

def record (s : ShardCall) (e : ShardEvent) : ShardCall := { s with log := s.log ++ [e] }

/-- The targets of the `RangeGetShard` calls made, in order. -/
def calls (s : ShardCall) : List Target := s.log.filterMap ShardEvent.call

@[simp] theorem record_target (s : ShardCall) (e : ShardEvent) : (s.record e).target = s.target :=
  rfl
@[simp] theorem record_rbody (s : ShardCall) (e : ShardEvent) : (s.record e).rbody = s.rbody := rfl
@[simp] theorem record_log (s : ShardCall) (e : ShardEvent) :
    (s.record e).log = s.log ++ [e] := rfl

variable (codes : ErrCodes) (env : ShardEnv)

/-- The end of the closure for an error no case returned on: a timeout punishes the disk and
ends the retries; any other error is retried. -/
def afterSwitch (s : ShardCall) (code : Int) (timeout : Bool) :
    (Bool × Option GetShardErr) × ShardCall :=
  if timeout then
    ((true, some (.blobnode code)), s.record (.punishDiskWith s.diskID s.host "Timeout"))
  else ((false, some (.getShardOn code s.diskID s.host)), s)

/-- The unit did not move to a usable disk: punish the disk (`punishDiskWith`, "NotFound") and
go on as after the switch. -/
def notFoundPunish (s : ShardCall) (code : Int) (timeout : Bool) :
    (Bool × Option GetShardErr) × ShardCall :=
  (s.record (.punishDiskWith s.diskID s.host "NotFound")).afterSwitch code timeout

/-- The case `CodeDiskNotFound, CodeVuidNotFound` at attempt `k`: refresh the volume and move to
the unit's new disk if its host is known and not punished. -/
def notFound (k : Nat) (s : ShardCall) (code : Int) (timeout : Bool) :
    (Bool × Option GetShardErr) × ShardCall :=
  let s := s.record .getVolume
  match env.latestUnit k with
  | none => ((false, some (.blobnode code)), s)
  | some newUnit =>
    if newUnit.diskID ≠ s.diskID then
      let s := s.record (.getDiskHost newUnit.diskID)
      match env.diskHost k newUnit.diskID with
      | some hi =>
        if hi.punished = false then
          ((false, some (.blobnode code)),
            { s with host := hi.host, diskID := newUnit.diskID, vuid := newUnit.vuid })
        else s.notFoundPunish code timeout
      | none => s.notFoundPunish code timeout
    else s.notFoundPunish code timeout

/-- The switch on the status code of a failed call at attempt `k`. -/
def onErr (k : Nat) (s : ShardCall) (code : Int) (timeout : Bool) :
    (Bool × Option GetShardErr) × ShardCall :=
  if code = codes.overload then ((true, some (.blobnode code)), s)
  else if code = codes.diskBroken ∨ code = codes.vuidReadonly then
    ((true, some (.punished s.diskID s.host)),
      s.record (.punishDisk s.diskID s.host "BrokenOrRO"))
  else if code = codes.diskNotFound ∨ code = codes.vuidNotFound then
    s.notFound env k code timeout
  else s.afterSwitch code timeout

/-- The closure under `RuptOn`, at attempt `k`: whether it interrupts the retries, its error,
and the captured variables after it. -/
def attempt (k : Nat) (s : ShardCall) : (Bool × Option GetShardErr) × ShardCall :=
  if env.canceled k then ((true, some .canceled), s)
  else
    let s := s.record (.rangeGetShard s.target)
    match env.reply k with
    | .body data => ((true, none), { s with rbody := some data })
    | .err code timeout => s.onErr codes env k code timeout

/-- What the switch does after a failed call: calls about the target only, an error other than
`errCanceledReadShard`, a move exactly under the move conditions, and `punishDisk` only last. -/
structure ErrStep (k : Nat) (s : ShardCall) (o : (Bool × Option GetShardErr) × ShardCall) :
    Prop where
  log : ∃ rest, o.2.log = s.log ++ rest ∧ ∀ e ∈ rest, e.About s.target
  err : ∃ x, o.1.2 = some x ∧ x ≠ .canceled
  rbody : o.2.rbody = s.rbody
  target : env.Moved codes k s.target o.2.target ∨
    o.2.target = s.target ∧ ∀ t', ¬env.Moved codes k s.target t'
  hard : ∀ d h why, ShardEvent.punishDisk d h why ∈ o.2.log →
    ShardEvent.punishDisk d h why ∈ s.log ∨ (o.2.log.getLast? = some (.punishDisk d h why) ∧
      o.1 = (true, some (.punished d h)) ∧ env.BrokenAt codes k)

variable {codes env}

theorem ErrStep.stay {k : Nat} {s : ShardCall} (b : Bool) {x : GetShardErr}
    (hx : x ≠ .canceled) (hm : ∀ t', ¬env.Moved codes k s.target t') :
    ErrStep codes env k s ((b, some x), s) :=
  ⟨⟨[], by simp, by simp⟩, ⟨x, rfl, hx⟩, rfl, .inr ⟨rfl, hm⟩, fun _ _ _ hm => .inl hm⟩

theorem ErrStep.of_record {k : Nat} {s : ShardCall} {e : ShardEvent}
    {o : (Bool × Option GetShardErr) × ShardCall} (he : e.About s.target)
    (hne : ∀ d h why, e ≠ .punishDisk d h why) (hs : ErrStep codes env k (s.record e) o) :
    ErrStep codes env k s o := by
  obtain ⟨⟨rest, hlog, hrest⟩, herr, hb, ht, hh⟩ := hs
  refine ⟨⟨e :: rest, by simp [hlog], List.forall_mem_cons.2 ⟨he, hrest⟩⟩, herr, hb, ht,
    fun d h why hm => (hh d h why hm).imp_left fun hm' => ?_⟩
  rcases List.mem_append.1 hm' with hm' | hm'
  exacts [hm', absurd (List.mem_singleton.1 hm').symm (hne d h why)]

theorem afterSwitch_errStep {k : Nat} (s : ShardCall) (code : Int) (timeout : Bool)
    (hm : ∀ t', ¬env.Moved codes k s.target t') :
    ErrStep codes env k s (s.afterSwitch code timeout) := by
  unfold afterSwitch
  split
  · exact ErrStep.of_record (e := .punishDiskWith s.diskID s.host "Timeout") ⟨rfl, rfl⟩
      (fun _ _ _ => nofun) (ErrStep.stay true nofun hm)
  · exact ErrStep.stay false nofun hm

theorem notFoundPunish_errStep {k : Nat} (s : ShardCall) (code : Int) (timeout : Bool)
    (hm : ∀ t', ¬env.Moved codes k s.target t') :
    ErrStep codes env k s (s.notFoundPunish code timeout) :=
  ErrStep.of_record (e := .punishDiskWith s.diskID s.host "NotFound") ⟨rfl, rfl⟩
    (fun _ _ _ => nofun) (afterSwitch_errStep _ code timeout hm)

theorem notFound_errStep {k : Nat} {s : ShardCall} {code : Int} {timeout : Bool}
    (hr : env.reply k = .err code timeout) (ho : code ≠ codes.overload)
    (hb : ¬(code = codes.diskBroken ∨ code = codes.vuidReadonly))
    (hn : code = codes.diskNotFound ∨ code = codes.vuidNotFound) :
    ErrStep codes env k s (s.notFound env k code timeout) := by
  refine ErrStep.of_record (e := .getVolume) trivial (fun _ _ _ => nofun) ?_
  unfold notFound
  dsimp only
  split
  · rename_i hu
    exact ErrStep.stay false nofun fun _ hm => by simpa [hu] using hm.latestUnit_isSome
  · rename_i u hu
    split
    · rename_i hd
      refine ErrStep.of_record (e := .getDiskHost u.diskID) trivial (fun _ _ _ => nofun) ?_
      split
      · rename_i hi hh
        split
        · rename_i hp
          exact ⟨⟨[], by simp, by simp⟩, ⟨_, rfl, nofun⟩, rfl,
            .inl ⟨code, timeout, u, hi, hr, ho, hb, hn, hu, hd, hh, hp, rfl⟩,
            fun _ _ _ hm => .inl hm⟩
        · rename_i hp
          refine notFoundPunish_errStep _ code timeout fun _ hm => ?_
          obtain ⟨-, _, hh', hp'⟩ := hm.of_unit hu
          rw [hh, Option.some.injEq] at hh'
          exact hp (hh' ▸ hp')
      · rename_i hh
        refine notFoundPunish_errStep _ code timeout fun _ hm => ?_
        obtain ⟨-, _, hh', -⟩ := hm.of_unit hu
        rw [hh] at hh'
        cases hh'
    · rename_i hd
      exact notFoundPunish_errStep _ code timeout fun _ hm => hd (hm.of_unit hu).1

theorem onErr_errStep {k : Nat} {s : ShardCall} {code : Int} {timeout : Bool}
    (hr : env.reply k = .err code timeout) :
    ErrStep codes env k s (s.onErr codes env k code timeout) := by
  unfold onErr
  split
  · rename_i ho
    exact ErrStep.stay true nofun fun _ hm => (hm.code_cases hr).1 ho
  rename_i ho
  split
  · rename_i hb
    refine ⟨⟨[_], rfl, by simp [ShardEvent.About, target]⟩, ⟨_, rfl, nofun⟩, rfl,
      .inr ⟨rfl, fun _ hm => (hm.code_cases hr).2.1 hb⟩, fun d h why hm => ?_⟩
    rcases List.mem_append.1 hm with hm | hm
    · exact .inl hm
    · cases List.mem_singleton.1 hm
      exact .inr ⟨by simp, rfl, code, timeout, hr, ho, hb⟩
  split
  · exact notFound_errStep hr ho ‹_› ‹_›
  · exact afterSwitch_errStep s code timeout fun _ hm => ‹¬_› (hm.code_cases hr).2.2

theorem attempt_of_canceled {k : Nat} {s : ShardCall} (h : env.canceled k = true) :
    s.attempt codes env k = ((true, some .canceled), s) := by
  simp [attempt, h]

theorem attempt_of_body {k : Nat} {s : ShardCall} {data : List UInt8}
    (hc : env.canceled k = false) (hr : env.reply k = .body data) :
    (s.attempt codes env k).1 = (true, none) ∧ (s.attempt codes env k).2.rbody = some data ∧
      (s.attempt codes env k).2.log = s.log ++ [.rangeGetShard s.target] := by
  simp [attempt, hc, hr]

theorem attempt_of_err {k : Nat} {s : ShardCall} {code : Int} {timeout : Bool}
    (hc : env.canceled k = false) (hr : env.reply k = .err code timeout) :
    ErrStep codes env k (s.record (.rangeGetShard s.target)) (s.attempt codes env k) := by
  simp only [attempt, hc, hr, Bool.false_eq_true, ite_false]
  exact onErr_errStep hr

end ShardCall

/-- Modelled from its use: `retry.RuptOn` (not in the sources) calls `call` at attempts `k, k + 1,
…` until it returns `true` or a nil error, at most `attempts` times; no backoff. -/
def ruptOn {σ ε : Type} (call : Nat → σ → (Bool × Option ε) × σ) :
    (attempts k : Nat) → (lastErr : Option ε) → σ → Option ε × σ
  | 0, _, lastErr, s => (lastErr, s)
  | n + 1, k, _, s =>
    let o := call k s
    if o.1.1 || o.1.2.isNone then (o.1.2, o.2) else ruptOn call n (k + 1) o.1.2 o.2

/-- `getOneShardFromHost(host, diskID, args)` for `args.Vuid = vuid`: its error, and the captured
variables at its end (`rbody` is the body it returns). -/
def getOneShardFromHost (codes : ErrCodes) (env : ShardEnv) (host : String) (diskID vuid : Nat) :
    Option GetShardErr × ShardCall :=
  ruptOn (ShardCall.attempt codes env) 3 0 none ⟨host, diskID, vuid, none, []⟩

theorem ruptOn_induction {σ ε : Type} (call : Nat → σ → (Bool × Option ε) × σ) (N : Nat)
    (P : Nat → Option ε → σ → Prop) (Q : Option ε × σ → Prop)
    (hend : ∀ e s, P N e s → Q (e, s))
    (hstop : ∀ k e s, k < N → P k e s → ((call k s).1.1 || (call k s).1.2.isNone) = true →
      Q ((call k s).1.2, (call k s).2))
    (hnext : ∀ k e s, k < N → P k e s → ((call k s).1.1 || (call k s).1.2.isNone) = false →
      P (k + 1) (call k s).1.2 (call k s).2) :
    ∀ n k e s, k + n = N → P k e s → Q (ruptOn call n k e s)
  | 0, k, e, s, hk, hp => by
    obtain rfl : k = N := by simpa using hk
    exact hend e s hp
  | n + 1, k, e, s, hk, hp => by
    simp only [ruptOn]
    split
    · exact hstop k e s (by omega) hp ‹_›
    · rename_i h
      exact ruptOn_induction call N P Q hend hstop hnext n (k + 1) _ _ (by omega)
        (hnext k e s (by omega) hp (Bool.eq_false_iff.2 h))

namespace ShardCall

variable (codes : ErrCodes) (env : ShardEnv)

/-- Before attempt `k` of a read that started at `start`: `k` calls failed with errors other than
`errCanceledReadShard`, and the read went from `start` to the target through moves only. -/
structure LoopInv (start : Target) (k : Nat) (e : Option GetShardErr) (s : ShardCall) :
    Prop where
  calls : s.calls.length = k
  notCanceled : ∀ j < k, env.canceled j = false
  rbody : s.rbody = none
  err : k = 0 ∨ ∃ x, e = some x ∧ x ≠ .canceled
  groups : ∃ gs : List (Target × List ShardEvent),
    s.log = gs.flatMap (fun g => .rangeGetShard g.1 :: g.2) ∧ ∀ g ∈ gs, ∀ ev ∈ g.2, ev.About g.1
  first : (s.calls ++ [s.target]).head? = some start
  follows : env.Follows codes (s.calls ++ [s.target])

/-- What `getOneShardFromHost` ends with, for a read that started at `start`. -/
structure Outcome (start : Target) (o : Option GetShardErr × ShardCall) : Prop where
  calls_le : o.2.calls.length ≤ 3
  ok_iff : o.1 = none ↔
    ∃ data, o.2.rbody = some data ∧ env.reply (o.2.calls.length - 1) = .body data
  canceled : o.1 = some .canceled →
    ∃ k, env.canceled k = true ∧ (∀ j < k, env.canceled j = false) ∧ o.2.calls.length = k
  groups : ∃ gs : List (Target × List ShardEvent),
    o.2.log = gs.flatMap (fun g => .rangeGetShard g.1 :: g.2) ∧ ∀ g ∈ gs, ∀ ev ∈ g.2, ev.About g.1
  first : ∀ t, o.2.calls.head? = some t → t = start
  follows : env.Follows codes o.2.calls
  hard : ∀ d h why, ShardEvent.punishDisk d h why ∈ o.2.log →
    o.2.log.getLast? = some (.punishDisk d h why) ∧ o.1 = some (.punished d h) ∧
      env.BrokenAt codes (o.2.calls.length - 1)

variable {codes env}

theorem calls_of_log {s s' : ShardCall} {t : Target} (h : s'.log = s.log ++ [.rangeGetShard t]) :
    s'.calls = s.calls ++ [t] := by
  simp [calls, h, ShardEvent.call]

theorem ErrStep.calls_eq {k : Nat} {s : ShardCall} {o : (Bool × Option GetShardErr) × ShardCall}
    (h : ErrStep codes env k s o) : o.2.calls = s.calls := by
  obtain ⟨rest, hlog, hrest⟩ := h.log
  simp only [calls, hlog, List.filterMap_append, List.append_right_eq_self]
  exact List.filterMap_eq_nil_iff.2 fun e he => ShardEvent.call_of_about (hrest e he)

theorem ErrStep.hard_of_call {k : Nat} {s : ShardCall} {t : Target}
    {o : (Bool × Option GetShardErr) × ShardCall}
    (hs : ErrStep codes env k (s.record (.rangeGetShard t)) o)
    (hn : ∀ d h why, ShardEvent.punishDisk d h why ∉ s.log) (d : Nat) (h why : String)
    (hm : ShardEvent.punishDisk d h why ∈ o.2.log) :
    o.2.log.getLast? = some (.punishDisk d h why) ∧ o.1 = (true, some (.punished d h)) ∧
      env.BrokenAt codes k :=
  (hs.hard d h why hm).resolve_left fun hm' => by
    rcases List.mem_append.1 hm' with hm' | hm'
    · exact hn d h why hm'
    · cases List.mem_singleton.1 hm'

theorem head_eq_of_snoc {l : List Target} {a start : Target}
    (h : (l ++ [a]).head? = some start) : ∀ t, l.head? = some t → t = start := by
  intro t ht
  rw [List.head?_append, ht] at h
  simpa using h

theorem LoopInv.init (start : Target) :
    LoopInv codes env start 0 none ⟨start.host, start.diskID, start.vuid, none, []⟩ :=
  ⟨rfl, nofun, rfl, .inl rfl, ⟨[], rfl, nofun⟩, rfl, fun j t t' _ ht' => by
    simp [ShardCall.calls] at ht'⟩

theorem LoopInv.next {start : Target} {k : Nat} {e : Option GetShardErr} {s : ShardCall}
    {code : Int} {timeout : Bool} (hi : LoopInv codes env start k e s)
    (hc : env.canceled k = false) (hr : env.reply k = .err code timeout) :
    LoopInv codes env start (k + 1) (s.attempt codes env k).1.2 (s.attempt codes env k).2 := by
  have hs : ErrStep codes env k (s.record (.rangeGetShard s.target)) (s.attempt codes env k) :=
    attempt_of_err hc hr
  have hcalls : (s.attempt codes env k).2.calls = s.calls ++ [s.target] := by
    rw [hs.calls_eq, calls_of_log rfl]
  obtain ⟨gs, hlog, hgs⟩ := hi.groups
  obtain ⟨rest, hlog', hrest⟩ := hs.log
  refine ⟨by simp [hcalls, hi.calls], fun j hj => ?_, by rw [hs.rbody]; exact hi.rbody,
    .inr hs.err, ⟨gs ++ [(s.target, rest)], ?_, ?_⟩, ?_, ?_⟩
  · rcases Nat.lt_succ_iff_lt_or_eq.1 hj with hj | rfl
    exacts [hi.notCanceled j hj, hc]
  · simp [hlog', hlog]
  · exact List.forall_mem_append.2 ⟨hgs, List.forall_mem_singleton.2 hrest⟩
  · rw [hcalls, List.head?_append_of_ne_nil _ (by simp)]
    exact hi.first
  · rw [hcalls]
    exact hi.follows.snoc (by rw [hi.calls]; exact hs.target)

theorem LoopInv.outcome {start : Target} {k : Nat} {e : Option GetShardErr} {s : ShardCall}
    (hi : LoopInv codes env start k e s) (hk : k ≤ 3) (h0 : 0 < k)
    (hhard : ∀ d h why, ShardEvent.punishDisk d h why ∈ s.log →
      s.log.getLast? = some (.punishDisk d h why) ∧ e = some (.punished d h) ∧
        env.BrokenAt codes (k - 1)) :
    Outcome codes env start (e, s) := by
  obtain ⟨x, rfl, hx⟩ := hi.err.resolve_left (by omega)
  refine ⟨by rw [hi.calls]; exact hk, by simp [hi.rbody], fun h => absurd (Option.some.inj h) hx,
    hi.groups, head_eq_of_snoc hi.first, hi.follows.of_append, fun d h why hm => ?_⟩
  rw [hi.calls]
  exact hhard d h why hm

theorem LoopInv.body_outcome {start : Target} {k : Nat} {e : Option GetShardErr} {s : ShardCall}
    {data : List UInt8} (hi : LoopInv codes env start k e s)
    (hn : ∀ d h why, ShardEvent.punishDisk d h why ∉ s.log) (hk : k < 3)
    (hc : env.canceled k = false) (hr : env.reply k = .body data) :
    Outcome codes env start ((s.attempt codes env k).1.2, (s.attempt codes env k).2) := by
  obtain ⟨h1, hb, hlog'⟩ := @attempt_of_body codes env k s data hc hr
  obtain ⟨gs, hlog, hgs⟩ := hi.groups
  have hcalls := calls_of_log hlog'
  refine ⟨?_, by simp [h1, hb, hcalls, hi.calls, hr], by simp [h1],
    ⟨gs ++ [(s.target, [])], by simp [hlog', hlog],
      List.forall_mem_append.2 ⟨hgs, List.forall_mem_singleton.2 nofun⟩⟩,
    ?_, ?_, fun d h why hm => ?_⟩
  · rw [hcalls, List.length_append, hi.calls]
    exact hk
  · rw [hcalls]
    exact fun t ht => Option.some.inj (ht.symm.trans hi.first)
  · rw [hcalls]
    exact hi.follows
  · rw [hlog'] at hm
    rcases List.mem_append.1 hm with hm | hm
    · exact absurd hm (hn d h why)
    · cases List.mem_singleton.1 hm

theorem LoopInv.canceled_outcome {start : Target} {k : Nat} {e : Option GetShardErr}
    {s : ShardCall} (hi : LoopInv codes env start k e s)
    (hn : ∀ d h why, ShardEvent.punishDisk d h why ∉ s.log) (hk : k < 3)
    (hc : env.canceled k = true) :
    Outcome codes env start ((s.attempt codes env k).1.2, (s.attempt codes env k).2) := by
  rw [attempt_of_canceled hc]
  exact ⟨by rw [hi.calls]; omega, by simp [hi.rbody], fun _ => ⟨k, hc, hi.notCanceled, hi.calls⟩,
    hi.groups, head_eq_of_snoc hi.first, hi.follows.of_append,
    fun d h why hm => absurd hm (hn d h why)⟩

end ShardCall

theorem getOneShardFromHost_outcome (codes : ErrCodes) (env : ShardEnv) (host : String)
    (diskID vuid : Nat) :
    ShardCall.Outcome codes env ⟨host, diskID, vuid⟩
      (getOneShardFromHost codes env host diskID vuid) := by
  refine ruptOn_induction _ 3 (fun k e s => ShardCall.LoopInv codes env ⟨host, diskID, vuid⟩ k e s ∧
      ∀ d h why, ShardEvent.punishDisk d h why ∉ s.log) _
    (fun e s hi => hi.1.outcome le_rfl (by omega) fun d h why hm => absurd hm (hi.2 d h why))
    ?_ ?_ 3 0 none _ rfl ⟨ShardCall.LoopInv.init ⟨host, diskID, vuid⟩, by simp⟩
  · intro k e s hk ⟨hi, hn⟩ _
    cases hc : env.canceled k
    · cases hr : env.reply k with
      | body data => exact hi.body_outcome hn hk hc hr
      | err code timeout =>
        refine (hi.next hc hr).outcome (by omega) (by omega) fun d h why hm => ?_
        obtain ⟨h1, h2, h3⟩ := (ShardCall.attempt_of_err hc hr).hard_of_call hn d h why hm
        exact ⟨h1, congrArg Prod.snd h2, h3⟩
    · exact hi.canceled_outcome hn hk hc
  · intro k e s hk ⟨hi, hn⟩ hnext
    cases hc : env.canceled k
    · cases hr : env.reply k with
      | body data => simp [(@ShardCall.attempt_of_body codes env k s data hc hr).1] at hnext
      | err code timeout =>
        refine ⟨hi.next hc hr, fun d h why hm => ?_⟩
        obtain ⟨-, h2, -⟩ := (ShardCall.attempt_of_err hc hr).hard_of_call hn d h why hm
        simp [h2] at hnext
    · simp [ShardCall.attempt_of_canceled hc] at hnext

/-- `getOneShardFromHost` calls `RangeGetShard` at most three times, and it returns without an
error exactly when it returns a body, the answer to its last call. -/
theorem getOneShardFromHost_ok_iff_last_body (codes : ErrCodes) (env : ShardEnv) (host : String)
    (diskID vuid : Nat) :
    (getOneShardFromHost codes env host diskID vuid).2.calls.length ≤ 3 ∧
      ((getOneShardFromHost codes env host diskID vuid).1 = none ↔
        ∃ data, (getOneShardFromHost codes env host diskID vuid).2.rbody = some data ∧
          env.reply ((getOneShardFromHost codes env host diskID vuid).2.calls.length - 1) =
            .body data) :=
  ⟨(getOneShardFromHost_outcome codes env host diskID vuid).calls_le,
    (getOneShardFromHost_outcome codes env host diskID vuid).ok_iff⟩

/-- A read that ends with `errCanceledReadShard` saw the channel closed at attempt `k`, open at
every attempt before, and made one call at each of those. -/
theorem getOneShardFromHost_canceled_stops (codes : ErrCodes) (env : ShardEnv) (host : String)
    (diskID vuid : Nat) (h : (getOneShardFromHost codes env host diskID vuid).1 = some .canceled) :
    ∃ k, env.canceled k = true ∧ (∀ j < k, env.canceled j = false) ∧
      (getOneShardFromHost codes env host diskID vuid).2.calls.length = k :=
  (getOneShardFromHost_outcome codes env host diskID vuid).canceled h

/-- Values of the codes of `errcode` for the runs below. -/
def sampleCodes : ErrCodes := ⟨600, 601, 602, 603, 604⟩

theorem getOneShardFromHost_canceled_stops_second :
    (getOneShardFromHost sampleCodes
        ⟨some fun k => decide (k = 1), fun _ => .err 5 false, fun _ => none, fun _ _ => none⟩
        "h1" 1 8).1 = some .canceled ∧
      ∃ k, ShardEnv.canceled
          ⟨some fun k => decide (k = 1), fun _ => .err 5 false, fun _ => none, fun _ _ => none⟩
          k = true ∧
        (∀ j < k, ShardEnv.canceled
          ⟨some fun k => decide (k = 1), fun _ => .err 5 false, fun _ => none, fun _ _ => none⟩
          j = false) ∧
        (getOneShardFromHost sampleCodes
          ⟨some fun k => decide (k = 1), fun _ => .err 5 false, fun _ => none, fun _ _ => none⟩
          "h1" 1 8).2.calls.length = k :=
  ⟨rfl, getOneShardFromHost_canceled_stops _ _ _ _ _ rfl⟩

/-- The first call goes to the given unit; each later call goes to the unit's new disk exactly
when the read moved after the call before it, and else where that call went. -/
theorem getOneShardFromHost_moves_iff_unit_moved (codes : ErrCodes) (env : ShardEnv)
    (host : String) (diskID vuid : Nat) :
    (∀ t, (getOneShardFromHost codes env host diskID vuid).2.calls.head? = some t →
      t = ⟨host, diskID, vuid⟩) ∧
      env.Follows codes (getOneShardFromHost codes env host diskID vuid).2.calls :=
  ⟨(getOneShardFromHost_outcome codes env host diskID vuid).first,
    (getOneShardFromHost_outcome codes env host diskID vuid).follows⟩

/-- A read answered DiskNotFound, moved to the unit's new disk and got the body there. -/
example :
    getOneShardFromHost sampleCodes
      ⟨none, fun k => if k = 0 then .err 603 false else .body [7],
        fun _ => some ⟨9, 2, "h2"⟩, fun _ _ => some ⟨"h2", false⟩⟩ "h1" 1 8 =
      (none, ⟨"h2", 2, 9, some [7],
        [.rangeGetShard ⟨"h1", 1, 8⟩, .getVolume, .getDiskHost 2, .rangeGetShard ⟨"h2", 2, 9⟩]⟩) :=
  rfl

/-- The calls of a read are its `RangeGetShard` calls, each followed by calls about the disk and
host that call went to. -/
theorem getOneShardFromHost_punishes_called_disk (codes : ErrCodes) (env : ShardEnv)
    (host : String) (diskID vuid : Nat) :
    ∃ gs : List (Target × List ShardEvent),
      (getOneShardFromHost codes env host diskID vuid).2.log =
        gs.flatMap (fun g => .rangeGetShard g.1 :: g.2) ∧ ∀ g ∈ gs, ∀ e ∈ g.2, e.About g.1 :=
  (getOneShardFromHost_outcome codes env host diskID vuid).groups

/-- `punishDisk` is only the read's last call, after a DiskBroken or VUIDReadonly answer, and the
read returns "punished disk" for that disk. -/
theorem getOneShardFromHost_hard_punish_ends (codes : ErrCodes) (env : ShardEnv) (host : String)
    (diskID vuid d : Nat) (h why : String)
    (hm : ShardEvent.punishDisk d h why ∈ (getOneShardFromHost codes env host diskID vuid).2.log) :
    (getOneShardFromHost codes env host diskID vuid).2.log.getLast? =
        some (.punishDisk d h why) ∧
      (getOneShardFromHost codes env host diskID vuid).1 = some (.punished d h) ∧
      env.BrokenAt codes ((getOneShardFromHost codes env host diskID vuid).2.calls.length - 1) :=
  (getOneShardFromHost_outcome codes env host diskID vuid).hard d h why hm

/-- A storage node whose disk answers DiskBroken. -/
def brokenDiskEnv : ShardEnv := ⟨none, fun _ => .err 601 false, fun _ => none, fun _ _ => none⟩

theorem getOneShardFromHost_hard_punish_ends_broken :
    ShardEvent.punishDisk 1 "h1" "BrokenOrRO" ∈
        (getOneShardFromHost sampleCodes brokenDiskEnv "h1" 1 8).2.log ∧
      (getOneShardFromHost sampleCodes brokenDiskEnv "h1" 1 8).2.log.getLast? =
        some (.punishDisk 1 "h1" "BrokenOrRO") ∧
      (getOneShardFromHost sampleCodes brokenDiskEnv "h1" 1 8).1 = some (.punished 1 "h1") ∧
      brokenDiskEnv.BrokenAt sampleCodes
        ((getOneShardFromHost sampleCodes brokenDiskEnv "h1" 1 8).2.calls.length - 1) :=
  have hm : ShardEvent.punishDisk 1 "h1" "BrokenOrRO" ∈
      (getOneShardFromHost sampleCodes brokenDiskEnv "h1" 1 8).2.log :=
    show _ ∈ [ShardEvent.rangeGetShard ⟨"h1", 1, 8⟩, .punishDisk 1 "h1" "BrokenOrRO"] from
      .tail _ (.head _)
  ⟨hm, getOneShardFromHost_hard_punish_ends sampleCodes brokenDiskEnv "h1" 1 8 1 "h1" "BrokenOrRO" hm⟩

/-- What `readOneShard` ends with: `shardResult`, its calls of `memPool`, and the calls of
`getOneShardFromHost`. -/
structure ShardReadRun where
  shard : ShardData
  pool : List PoolEvent
  log : List ShardEvent
  deriving DecidableEq, Repr

/-- `readOneShard` for `vuid`: `admitted` is whether `hystrix.Do` runs, `allocOk` whether
`memPool.Alloc` succeeds, and `id` the buffer it hands out. -/
def readOneShard (codes : ErrCodes) (env : ShardEnv) (admitted allocOk : Bool) (id shardSize : Nat)
    (vuid : SortedVuid) : ShardReadRun :=
  if admitted = false then ⟨⟨vuid.index, none⟩, [], []⟩
  else
    let o := getOneShardFromHost codes env vuid.host vuid.diskID vuid.vuid
    match o.1, o.2.rbody with
    | none, some body =>
      if allocOk = false then ⟨⟨vuid.index, none⟩, [], o.2.log⟩
      else if shardSize ≤ body.length then
        ⟨⟨vuid.index, some ⟨id, body.take shardSize⟩⟩, [.alloc id], o.2.log⟩
      else ⟨⟨vuid.index, none⟩, [.alloc id, .put id], o.2.log⟩
    | _, _ => ⟨⟨vuid.index, none⟩, [], o.2.log⟩

/-- When every body served for the unit starts with allowed bytes, `readOneShard`'s shard and
`memPool` calls are those of one allowed `ShardRead` of the `readOneBlob` model. -/
theorem readOneShard_refines (codes : ErrCodes) (env : ShardEnv) (admitted allocOk : Bool)
    (id shardSize : Nat) (vuid : SortedVuid) (readOk : Nat → List UInt8 → Prop)
    (hbody : ∀ k data, env.reply k = .body data → shardSize ≤ data.length →
      readOk vuid.index (data.take shardSize)) :
    ∃ r : ShardRead, r.Allowed readOk vuid.index ∧
      (readOneShard codes env admitted allocOk id shardSize vuid).shard =
        ⟨vuid.index, r.buffer id⟩ ∧
      (readOneShard codes env admitted allocOk id shardSize vuid).pool = r.events id := by
  unfold readOneShard
  split
  · exact ⟨.failed, trivial, rfl, rfl⟩
  dsimp only
  split
  · rename_i body herr hb
    obtain ⟨data, hd, hr⟩ :=
      (getOneShardFromHost_outcome codes env vuid.host vuid.diskID vuid.vuid).ok_iff.1 herr
    obtain rfl : data = body := Option.some.inj (hd.symm.trans hb)
    split
    · exact ⟨.failed, trivial, rfl, rfl⟩
    split
    · exact ⟨.read (data.take shardSize), hbody _ _ hr ‹_›, rfl, rfl⟩
    · exact ⟨.readFailed, trivial, rfl, rfl⟩
  · exact ⟨.failed, trivial, rfl, rfl⟩

/-- A storage node that serves two bytes for every call. -/
def twoByteEnv : ShardEnv := ⟨none, fun _ => .body [7, 8], fun _ => none, fun _ _ => none⟩

theorem readOneShard_refines_twoBytes :
    (∀ k data, twoByteEnv.reply k = .body data → 2 ≤ data.length →
      data.take 2 = [7, 8]) ∧
    ∃ r : ShardRead, r.Allowed (fun _ d => d = [7, 8]) 0 ∧
      (readOneShard sampleCodes twoByteEnv true true 4 2 ⟨0, 8, 1, "h1"⟩).shard =
        ⟨0, r.buffer 4⟩ ∧
      (readOneShard sampleCodes twoByteEnv true true 4 2 ⟨0, 8, 1, "h1"⟩).pool = r.events 4 :=
  have hb : ∀ k data, twoByteEnv.reply k = .body data → 2 ≤ data.length →
      data.take 2 = [7, 8] := fun _ _ h _ => by cases h; rfl
  ⟨hb, readOneShard_refines sampleCodes twoByteEnv true true 4 2 ⟨0, 8, 1, "h1"⟩
    (fun _ d => d = [7, 8]) hb⟩

end BlobStore.Access
