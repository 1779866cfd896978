import Mathlib

/-! `keyCountLimit` of `util/limit/keycount`: each call is one atomic step on the map `current`,
whose `uint32` counts `l.current[key]++` wraps at `2^32`. -/

namespace BlobStore.KeyCount

/-- `limit.ErrLimited`. -/
inductive LimitErr where
  | errLimited
  deriving DecidableEq, Repr

/-- `keyCountLimit`: the `uint32` limit and the map `current` of per-key counts. -/
structure KeyCountLimit (K : Type) where
  limit : Nat
  current : AList (fun _ : K => Nat)

variable {K : Type} [DecidableEq K]

/-- `New(n)`: the limit is `uint32(n)`. -/
def new (n : Int) : KeyCountLimit K := ⟨(n % 2 ^ 32).toNat, ∅⟩

/-- `l.current[key]`: a key that is not in the map reads as 0. -/
def KeyCountLimit.count (l : KeyCountLimit K) (key : K) : Nat := (l.current.lookup key).getD 0

/-- One pass of `l.current[key]++` on a `uint32` count. -/
def incr (c : AList (fun _ : K => Nat)) (key : K) : AList (fun _ : K => Nat) :=
  c.insert key (((c.lookup key).getD 0 + 1) % 2 ^ 32)

/-- `Acquire(keys...)`: the first loop checks every key against the limit, the second raises
the count of every key, once per occurrence. -/
def KeyCountLimit.acquire (l : KeyCountLimit K) (keys : List K) :
    Except LimitErr (KeyCountLimit K) :=
  if keys.any (fun key => l.limit ≤ l.count key) then .error .errLimited
  else .ok { l with current := keys.foldl incr l.current }

/-- One pass of the loop of `Release`; `none` is the panic "released by 0". -/
def decr (c : AList (fun _ : K => Nat)) (key : K) : Option (AList (fun _ : K => Nat)) :=
  match c.lookup key with
  | none => none
  | some 0 => none
  | some 1 => some (c.erase key)
  | some (n + 2) => some (c.insert key (n + 1))

/-- `Release(keys...)`; `none` when it panics. -/
def KeyCountLimit.release (l : KeyCountLimit K) (keys : List K) : Option (KeyCountLimit K) :=
  (keys.foldlM decr l.current).map fun c => { l with current := c }

/-- `Running()`: the counts summed in a `uint32`. -/
def KeyCountLimit.running (l : KeyCountLimit K) : Nat :=
  (l.current.entries.map Sigma.snd).sum % 2 ^ 32

/-- The states of a limiter made by `New(n)` after any sequence of calls, without `Reset`.
A call of `Acquire` that returns `ErrLimited` changes nothing and needs no rule. -/
inductive Reachable (n : Int) : KeyCountLimit K → Prop where
  | init : Reachable n (new n)
  | acquire {l l' : KeyCountLimit K} (keys : List K) :
      Reachable n l → l.acquire keys = .ok l' → Reachable n l'
  | release {l l' : KeyCountLimit K} (keys : List K) :
      Reachable n l → l.release keys = some l' → Reachable n l'

@[simp] theorem lookup_incr (c : AList (fun _ : K => Nat)) (key k : K) :
    ((incr c key).lookup k).getD 0 =
      if key = k then ((c.lookup k).getD 0 + 1) % 2 ^ 32 else (c.lookup k).getD 0 := by
  by_cases h : key = k
  · subst h; simp [incr, AList.lookup_insert]
  · simp [incr, AList.lookup_insert_ne (Ne.symm h), h]

theorem lookup_foldl_incr (keys : List K) (c : AList (fun _ : K => Nat)) (k : K) :
    ((keys.foldl incr c).lookup k).getD 0 =
      if k ∈ keys then ((c.lookup k).getD 0 + keys.count k) % 2 ^ 32
      else (c.lookup k).getD 0 := by
  induction keys generalizing c with
  | nil => simp
  | cons key keys ih =>
    rw [List.foldl_cons, ih, lookup_incr, List.count_cons]
    by_cases hk : key = k
    · subst hk
      by_cases hm : key ∈ keys
      · simp only [hm, if_true, List.mem_cons, true_or, beq_self_eq_true, Nat.mod_add_mod]
        congr 1
        omega
      · simp [hm, List.count_eq_zero_of_not_mem hm]
    · simp [hk, Ne.symm hk]

theorem mem_foldl_incr (keys : List K) (c : AList (fun _ : K => Nat)) (k : K) :
    k ∈ keys.foldl incr c ↔ k ∈ keys ∨ k ∈ c := by
  induction keys generalizing c with
  | nil => simp
  | cons key keys ih =>
    rw [List.foldl_cons, ih, incr, AList.mem_insert, List.mem_cons]
    tauto

theorem acquire_eq_ok {l l' : KeyCountLimit K} {keys : List K} :
    l.acquire keys = .ok l' ↔
      (∀ k ∈ keys, l.count k < l.limit) ∧
        l' = { l with current := keys.foldl incr l.current } := by
  unfold KeyCountLimit.acquire
  split <;> rename_i h
  · simp only [List.any_eq_true, decide_eq_true_eq] at h
    obtain ⟨k, hk, hl⟩ := h
    simp only [reduceCtorEq, false_iff, not_and]
    exact fun hb => absurd (hb k hk) (not_lt.mpr hl)
  · simp only [List.any_eq_true, decide_eq_true_eq, not_exists, not_and, not_le] at h
    simp only [Except.ok.injEq]
    exact ⟨fun he => ⟨h, he.symm⟩, fun he => he.2.symm⟩

theorem acquire_ok_count {l l' : KeyCountLimit K} {keys : List K}
    (h : l.acquire keys = .ok l') (k : K) :
    l'.count k = if k ∈ keys then (l.count k + keys.count k) % 2 ^ 32 else l.count k := by
  obtain ⟨-, rfl⟩ := acquire_eq_ok.mp h
  exact lookup_foldl_incr keys l.current k

theorem decr_count {c c' : AList (fun _ : K => Nat)} {key : K} (h : decr c key = some c')
    (k : K) : (c'.lookup k).getD 0 = (c.lookup k).getD 0 - if key = k then 1 else 0 := by
  unfold decr at h
  by_cases hk : key = k
  · subst hk
    split at h <;> rename_i hl <;> simp only [Option.some.injEq, reduceCtorEq] at h <;> subst h
    · simp [hl, AList.lookup_erase]
    · simp [hl, AList.lookup_insert]
  · split at h <;> simp only [Option.some.injEq, reduceCtorEq] at h <;> subst h
    · simp [AList.lookup_erase_ne (Ne.symm hk), hk]
    · simp [AList.lookup_insert_ne (Ne.symm hk), hk]

theorem release_count_le {l l' : KeyCountLimit K} {keys : List K}
    (h : l.release keys = some l') (k : K) : l'.count k ≤ l.count k := by
  obtain ⟨c, hc, rfl⟩ := Option.map_eq_some'.mp h
  simp only [KeyCountLimit.count]
  clear h
  induction keys generalizing l with
  | nil => simp only [List.foldlM_nil, Option.pure_def, Option.some.injEq] at hc; rw [hc]
  | cons key keys ih =>
    simp only [List.foldlM_cons, Option.bind_eq_bind, Option.bind_eq_some] at hc
    obtain ⟨c₁, h₁, h₂⟩ := hc
    have := ih (l := ⟨l.limit, c₁⟩) h₂
    have := decr_count h₁ k
    simp only at *
    omega

/-- The states reached by calls in which each `Acquire` names pairwise distinct keys. -/
inductive DistinctRun (n : Int) : KeyCountLimit K → Prop where
  | init : DistinctRun n (new n)
  | acquire {l l' : KeyCountLimit K} (keys : List K) :
      DistinctRun n l → keys.Nodup → l.acquire keys = .ok l' → DistinctRun n l'
  | release {l l' : KeyCountLimit K} (keys : List K) :
      DistinctRun n l → l.release keys = some l' → DistinctRun n l'

/-- When each `Acquire` names a key at most once, no count exceeds the limit in any run. -/
theorem count_le_limit_of_distinct_keys {n : Int} {l : KeyCountLimit K} (hr : DistinctRun n l)
    (k : K) : l.count k ≤ l.limit := by
  induction hr with
  | init => simp [new, KeyCountLimit.count, AList.lookup_empty]
  | acquire keys _ hd ha ih =>
    have hc := acquire_ok_count ha k
    obtain ⟨hb, rfl⟩ := acquire_eq_ok.mp ha
    by_cases hk : k ∈ keys
    · rw [if_pos hk, List.count_eq_one_of_mem hd hk] at hc
      exact hc ▸ (Nat.mod_le _ _).trans (hb k hk)
    · rw [if_neg hk] at hc
      exact hc ▸ ih
  | release keys _ hrel ih =>
    have hle := release_count_le hrel k
    obtain ⟨c, _, rfl⟩ := Option.map_eq_some'.mp hrel
    exact hle.trans ih

/-- `New(1)`, then `Acquire(0, 1)` and `Release(1)`. -/
theorem count_le_limit_of_distinct_keys_run :
    ∃ l : KeyCountLimit Nat, DistinctRun 1 l ∧ l.count 0 = 1 ∧ ∀ k, l.count k ≤ l.limit := by
  have hr : DistinctRun 1 (⟨1, AList.singleton 0 1⟩ : KeyCountLimit Nat) :=
    .release [1] (.acquire [0, 1] .init (by decide) rfl) rfl
  exact ⟨_, hr, rfl, count_le_limit_of_distinct_keys hr⟩

/-- A key repeated in one `Acquire` passes the check once per occurrence and is then counted
once per occurrence: with limit 1, `Acquire(k, k)` leaves the count of `k` at 2. -/
theorem acquire_repeated_key_exceeds_limit :
    ∃ l : KeyCountLimit Nat, Reachable 1 l ∧ l.limit < l.count 0 :=
  ⟨_, .acquire [0, 0] .init rfl, by decide⟩

/-- No key of the map has count 0. -/
def NoZero (c : AList (fun _ : K => Nat)) : Prop := ∀ k v, c.lookup k = some v → 0 < v

theorem NoZero.lookup_eq {c c' : AList (fun _ : K => Nat)} (hc : NoZero c) (hc' : NoZero c')
    (h : ∀ k, (c'.lookup k).getD 0 = (c.lookup k).getD 0) (k : K) : c'.lookup k = c.lookup k := by
  have hk := h k
  cases h₁ : c'.lookup k with
  | none =>
    cases h₂ : c.lookup k with
    | none => rfl
    | some v => rw [h₁, h₂] at hk; have := hc k v h₂; simp only [Option.getD] at hk; omega
  | some v' =>
    cases h₂ : c.lookup k with
    | none => rw [h₁, h₂] at hk; have := hc' k v' h₁; simp only [Option.getD] at hk; omega
    | some v => rw [h₁, h₂] at hk; simp only [Option.getD] at hk; rw [hk]

theorem NoZero.decr {c c' : AList (fun _ : K => Nat)} {key : K} (hc : NoZero c)
    (h : decr c key = some c') : NoZero c' := by
  intro k v hk
  unfold KeyCount.decr at h
  split at h <;> simp only [Option.some.injEq, reduceCtorEq] at h <;> subst h
  · by_cases hkk : k = key
    · subst hkk; simp [AList.lookup_erase] at hk
    · exact hc k v (by rwa [AList.lookup_erase_ne hkk] at hk)
  · by_cases hkk : k = key
    · subst hkk
      rw [AList.lookup_insert, Option.some.injEq] at hk
      omega
    · exact hc k v (by rwa [AList.lookup_insert_ne hkk] at hk)

theorem foldlM_decr_spec : ∀ (keys : List K) (c : AList (fun _ : K => Nat)) (rest : List K),
    (∀ k, (c.lookup k).getD 0 = keys.count k + rest.count k) → NoZero c →
    ∃ c', keys.foldlM decr c = some c' ∧
      (∀ k, (c'.lookup k).getD 0 = rest.count k) ∧ NoZero c'
  | [], c, _, hc, hz => ⟨c, rfl, fun k => by simpa using hc k, hz⟩
  | key :: keys, c, rest, hc, hz => by
    -- the released key is in the map with a positive count
    obtain ⟨v, hv⟩ : ∃ v, c.lookup key = some (v + 1) := by
      have := hc key
      rw [List.count_cons_self] at this
      cases h : c.lookup key with
      | none => rw [h, Option.getD_none] at this; omega
      | some w =>
        rw [h, Option.getD_some] at this
        exact ⟨w - 1, by congr; omega⟩
    obtain ⟨c₁, h₁⟩ : ∃ c₁, decr c key = some c₁ := by
      unfold KeyCount.decr
      rw [hv]
      cases v <;> exact ⟨_, rfl⟩
    obtain ⟨c', h', hc', hz'⟩ := foldlM_decr_spec keys c₁ rest (fun k => by
      rw [decr_count h₁ k, hc k, List.count_cons]
      by_cases hk : key = k <;> simp [hk]) (hz.decr h₁)
    exact ⟨c', by rw [List.foldlM_cons, h₁]; exact h', hc', hz'⟩

theorem total_eq_length (c : AList (fun _ : K => Nat)) (held : List K)
    (hc : ∀ k, (c.lookup k).getD 0 = held.count k) (hz : NoZero c) :
    (c.entries.map Sigma.snd).sum = held.length := by
  have hmap : c.entries.map Sigma.snd = c.keys.map held.count := by
    rw [AList.keys, List.keys, List.map_map]
    refine List.map_congr_left fun e he => ?_
    have := hc e.1
    rwa [AList.mem_lookup_iff.mpr (show ⟨e.1, e.2⟩ ∈ c.entries from he), Option.getD_some]
      at this
  have hperm : c.keys.Perm held.dedup := by
    refine (List.perm_ext_iff_of_nodup c.keys_nodup (List.nodup_dedup held)).mpr fun k => ?_
    rw [← AList.mem_keys, List.mem_dedup, ← List.count_pos_iff, ← hc, ← AList.lookup_isSome]
    cases h : c.lookup k with
    | none => simp
    | some v => simpa using hz k v h
  rw [hmap, (hperm.map _).sum_eq, List.sum_map_count_dedup_eq_length]

/-- Runs in which each `Release` gives back held keys and fewer than `2^32` keys are held; `held`
is the multiset of the held keys. -/
inductive HeldRun (n : Int) : KeyCountLimit K → List K → Prop where
  | init : HeldRun n (new n) []
  | acquire {l l' : KeyCountLimit K} {held : List K} (keys : List K) : HeldRun n l held →
      (held ++ keys).length < 2 ^ 32 → l.acquire keys = .ok l' → HeldRun n l' (held ++ keys)
  | release {l l' : KeyCountLimit K} {held rest : List K} (keys : List K) : HeldRun n l held →
      held.Perm (keys ++ rest) → l.release keys = some l' → HeldRun n l' rest

/-- What the map says in every state of such a run. -/
structure Holds (l : KeyCountLimit K) (held : List K) : Prop where
  count_eq : ∀ k, l.count k = held.count k
  noZero : NoZero l.current
  length_lt : held.length < 2 ^ 32

theorem Holds.acquire {l l' : KeyCountLimit K} {held keys : List K} (h : Holds l held)
    (hlen : (held ++ keys).length < 2 ^ 32) (ha : l.acquire keys = .ok l') :
    Holds l' (held ++ keys) := by
  have hcount : ∀ k, l'.count k = (held ++ keys).count k := fun k => by
    rw [acquire_ok_count ha, h.count_eq, List.count_append]
    split_ifs with hk
    · have := List.count_le_length k (held ++ keys)
      rw [List.count_append] at this
      exact Nat.mod_eq_of_lt (by omega)
    · rw [List.count_eq_zero_of_not_mem hk, Nat.add_zero]
  obtain ⟨-, rfl⟩ := acquire_eq_ok.mp ha
  refine ⟨hcount, fun k v hk => ?_, hlen⟩
  have hm : k ∈ keys ∨ k ∈ l.current :=
    (mem_foldl_incr keys l.current k).mp (AList.lookup_isSome.mp (by rw [hk]; rfl))
  have hv := hcount k
  simp only [KeyCountLimit.count, hk, Option.getD_some, List.count_append] at hv
  rcases hm with hm | hm
  · have := List.count_pos_iff.mpr hm; omega
  · obtain ⟨w, hw⟩ := Option.isSome_iff_exists.mp (AList.lookup_isSome.mpr hm)
    have := h.noZero k w hw
    have := h.count_eq k
    simp only [KeyCountLimit.count, hw, Option.getD_some] at this
    omega

theorem Holds.release {l : KeyCountLimit K} {held keys rest : List K} (h : Holds l held)
    (hp : held.Perm (keys ++ rest)) :
    ∃ l', l.release keys = some l' ∧ Holds l' rest := by
  obtain ⟨c', hc', hcount, hz⟩ := foldlM_decr_spec keys l.current rest
    (fun k => by rw [← List.count_append, ← hp.count_eq]; exact h.count_eq k) h.noZero
  refine ⟨{ l with current := c' }, by rw [KeyCountLimit.release, hc']; rfl, hcount, hz, ?_⟩
  have := hp.length_eq
  rw [List.length_append] at this
  exact lt_of_le_of_lt (by omega) h.length_lt

theorem HeldRun.holds {n : Int} {l : KeyCountLimit K} {held : List K} (hr : HeldRun n l held) :
    Holds l held := by
  induction hr with
  | init => exact ⟨fun k => by simp [new, KeyCountLimit.count, AList.lookup_empty],
      fun k v h => by simp [new, AList.lookup_empty] at h, Nat.two_pow_pos 32⟩
  | acquire keys _ hlen ha ih => exact ih.acquire hlen ha
  | release keys _ hp hrel ih =>
    obtain ⟨l', hl', hh⟩ := ih.release hp
    rw [hrel, Option.some.injEq] at hl'
    exact hl' ▸ hh

/-- In every such run `current` counts each key as often as it is held, `Running()` is the number
held, a `Release` of held keys never panics, and `Acquire(ks)`, `Release(ks)` restores the map. -/
theorem keyCount_exact_accounting {n : Int} {l : KeyCountLimit K} {held : List K}
    (hr : HeldRun n l held) :
    (∀ k, l.count k = held.count k) ∧ (∀ k v, l.current.lookup k = some v → 0 < v) ∧
    l.running = held.length ∧
    (∀ keys rest, held.Perm (keys ++ rest) →
      ∃ l', l.release keys = some l' ∧ ∀ k, l'.count k = rest.count k) ∧
    (∀ keys, (held ++ keys).length < 2 ^ 32 → ∀ l', l.acquire keys = .ok l' →
      ∃ l'', l'.release keys = some l'' ∧ ∀ k, l''.current.lookup k = l.current.lookup k) := by
  have h := hr.holds
  refine ⟨h.count_eq, h.noZero, ?_, fun keys rest hp => ?_, fun keys hlen l' ha => ?_⟩
  · rw [KeyCountLimit.running, total_eq_length l.current held h.count_eq h.noZero,
      Nat.mod_eq_of_lt h.length_lt]
  · obtain ⟨l', hl', hh⟩ := h.release hp
    exact ⟨l', hl', hh.count_eq⟩
  · obtain ⟨l'', hl'', hh⟩ := (h.acquire hlen ha).release List.perm_append_comm
    exact ⟨l'', hl'', h.noZero.lookup_eq hh.noZero
      fun k => (hh.count_eq k).trans (h.count_eq k).symm⟩

/-- `New(2)`, then `Acquire(0, 0)` and `Release(0)`: one key is held. -/
theorem keyCount_acquire_release_run :
    ∃ l : KeyCountLimit Nat, HeldRun 2 l [0] ∧ l.running = 1 ∧ ∀ k, l.count k = [0].count k := by
  have hr : HeldRun 2 _ [0] :=
    .release [0] (.acquire [0, 0] .init (by decide) rfl) (List.Perm.refl _) rfl
  exact ⟨_, hr, (keyCount_exact_accounting hr).2.2.1, (keyCount_exact_accounting hr).1⟩

theorem incr_singleton (k : K) (v : Nat) :
    incr (AList.singleton k v) k = AList.singleton k ((v + 1) % 2 ^ 32) := by
  simp [incr, AList.lookup, AList.singleton_entries, AList.insert_singleton_eq]

theorem acquire_wraps_uint32_count :
    ∃ l : KeyCountLimit Nat, (new 1 : KeyCountLimit Nat).acquire (List.replicate (2 ^ 32) 0) = .ok l ∧
      l.current.lookup 0 = some 0 ∧ l.running = 0 ∧ l.release [0] = none := by
  have hsingle : ∀ m v, v < 2 ^ 32 → (List.replicate m 0).foldl incr (AList.singleton 0 v) =
      AList.singleton 0 ((v + m) % 2 ^ 32) := fun m => by
    induction m with
    | zero => intro v hv; rw [Nat.add_zero, Nat.mod_eq_of_lt hv]; rfl
    | succ m ih =>
      intro v _
      rw [List.replicate_succ, List.foldl_cons, incr_singleton,
        ih _ (Nat.mod_lt _ (Nat.two_pow_pos 32)), Nat.mod_add_mod]
      congr 2
      omega
  have hacq : (new 1 : KeyCountLimit Nat).acquire (List.replicate (2 ^ 32) 0) =
      .ok ⟨1, AList.singleton 0 0⟩ := by
    refine acquire_eq_ok.mpr ⟨fun k hk => ?_, ?_⟩
    · rw [List.eq_of_mem_replicate hk]; decide
    · rw [show 2 ^ 32 = 2 ^ 32 - 1 + 1 from rfl, List.replicate_succ, List.foldl_cons]
      simp only [new, incr, AList.lookup_empty, Option.getD_none, AList.insert_empty]
      rw [hsingle _ _ (Nat.mod_lt _ (Nat.two_pow_pos 32))]
      rfl
  exact ⟨_, hacq, rfl, rfl, rfl⟩

end BlobStore.KeyCount
