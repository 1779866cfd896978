import Mathlib

/-! The bid-range allocator of the access layer, `bidMgr`: `Alloc` and the scope refill at the
end of `allocBid` are the two atomic steps. Bids are `Nat`: no `uint64` expression wraps. -/

namespace BlobStore.Allocator

def defaultBidAllocNums : Nat := 10000

/-- `allocableBids`: the bids `minBid, ..., maxBid` of a scope not yet handed out. -/
structure AllocableBids where
  minBid : Nat
  maxBid : Nat
  deriving DecidableEq, Repr

structure BidRange where
  startBid : Nat
  endBid : Nat
  deriving DecidableEq, Repr

/-- `bidMgr` with its configured `BidAllocNums`. -/
structure BidMgr where
  current : Option AllocableBids
  backup : Option AllocableBids
  bidAllocNums : Nat
  deriving DecidableEq, Repr

inductive AllocErr where
  | errIllegalArguments
  | errAllocBidFromCm
  deriving DecidableEq, Repr

/-- `confCheck`: `BidAllocNums` is raised to the default. -/
def confCheck (bidAllocNums : Nat) : Nat :=
  if bidAllocNums < defaultBidAllocNums then defaultBidAllocNums else bidAllocNums

/-- `NewBidMgr` before its first `allocBid` completes. -/
def newBidMgr (bidAllocNums : Nat) : BidMgr := ⟨none, none, confCheck bidAllocNums⟩

/-- The locked tail of `allocBid`, once the cluster manager returned `scope`. -/
def BidMgr.allocBid (b : BidMgr) (scope : AllocableBids) : BidMgr :=
  match b.current with
  | some _ => { b with backup := some scope }
  | none => { b with current := some scope, backup := none }

/-- `Alloc(count)`: the ranges it returns, or its error, and the manager after it. -/
def BidMgr.alloc (b : BidMgr) (count : Nat) : Except AllocErr (List BidRange) × BidMgr :=
  if b.bidAllocNums < count then (.error .errIllegalArguments, b) else
  match b.current with
  | none => (.error .errAllocBidFromCm, b)
  | some cur =>
    if count + cur.minBid - 1 ≤ cur.maxBid then
      let br : BidRange := ⟨cur.minBid, cur.minBid + count - 1⟩
      let cur' : AllocableBids := { cur with minBid := cur.minBid + count }
      if cur'.maxBid + 1 - cur'.minBid = 0 then
        (.ok [br], { b with current := b.backup, backup := none })
      else (.ok [br], { b with current := some cur' })
    else
      let br1 : BidRange := ⟨cur.minBid, cur.maxBid⟩
      let bidCountRemain := count - (cur.maxBid + 1 - cur.minBid)
      match b.backup with
      | none => (.error .errAllocBidFromCm, b)
      | some bk =>
        (.ok [br1, ⟨bk.minBid, bk.minBid + bidCountRemain - 1⟩],
          { b with current := some { bk with minBid := bk.minBid + bidCountRemain },
                   backup := none })

def AllocableBids.Holds (s : AllocableBids) (x : Nat) : Prop := s.minBid ≤ x ∧ x ≤ s.maxBid

def BidRange.bids (r : BidRange) : List Nat := List.range' r.startBid (r.endBid + 1 - r.startBid)

def BidRange.size (r : BidRange) : Nat := r.endBid + 1 - r.startBid

/-- The allocator with its environment: the scopes the cluster manager handed out, in order,
and every bid that `Alloc` returned so far. -/
structure BidSys where
  mgr : BidMgr
  scopes : List AllocableBids
  issued : List Nat

/-- The cluster manager's promise for a new scope: `BidAllocNums` bids from 1 up, none of them
in an earlier scope. -/
def FreshScope (sys : BidSys) (scope : AllocableBids) : Prop :=
  1 ≤ scope.minBid ∧ scope.maxBid + 1 - scope.minBid = sys.mgr.bidAllocNums ∧
    ∀ t ∈ sys.scopes, ∀ x, scope.Holds x → ¬ t.Holds x

/-- Every interleaving of `Alloc` calls and `allocBid` completions, from `NewBidMgr`. -/
inductive Reachable (bidAllocNums : Nat) : BidSys → Prop where
  | init : Reachable bidAllocNums ⟨newBidMgr bidAllocNums, [], []⟩
  | alloc {sys : BidSys} (count : Nat) : Reachable bidAllocNums sys →
      Reachable bidAllocNums
        { sys with mgr := (sys.mgr.alloc count).2,
                   issued := sys.issued ++ (match (sys.mgr.alloc count).1 with
                     | .ok rs => rs.flatMap BidRange.bids
                     | .error _ => []) }
  | allocBid {sys : BidSys} (scope : AllocableBids) : Reachable bidAllocNums sys →
      FreshScope sys scope →
      Reachable bidAllocNums { sys with mgr := sys.mgr.allocBid scope, scopes := sys.scopes ++ [scope] }

theorem alloc_cases (b : BidMgr) (count : Nat) :
    (∃ e, b.alloc count = (.error e, b)) ∨
    (∃ cur, b.current = some cur ∧ cur.minBid + count ≤ cur.maxBid + 1 ∧
      b.alloc count = (.ok [⟨cur.minBid, cur.minBid + count - 1⟩],
        if cur.maxBid + 1 - (cur.minBid + count) = 0 then
          { b with current := b.backup, backup := none }
        else { b with current := some { cur with minBid := cur.minBid + count } })) ∨
    (∃ cur bk, b.current = some cur ∧ b.backup = some bk ∧ count ≤ b.bidAllocNums ∧
      cur.maxBid + 1 < cur.minBid + count ∧
      b.alloc count = (.ok [⟨cur.minBid, cur.maxBid⟩,
          ⟨bk.minBid, bk.minBid + (count - (cur.maxBid + 1 - cur.minBid)) - 1⟩],
        { b with current := some { bk with minBid := bk.minBid + (count - (cur.maxBid + 1 - cur.minBid)) },
                 backup := none })) := by
  unfold BidMgr.alloc
  split
  · exact .inl ⟨_, rfl⟩
  · rename_i hn
    split
    · exact .inl ⟨_, rfl⟩
    · rename_i cur hc
      split
      · rename_i hf
        refine .inr (.inl ⟨cur, hc, by omega, ?_⟩)
        dsimp only
        split <;> simp only [*, ↓reduceIte]
      · rename_i hf
        split
        · exact .inl ⟨_, rfl⟩
        · rename_i bk hb
          exact .inr (.inr ⟨cur, bk, hc, hb, by omega, by omega, rfl⟩)

@[simp] theorem mem_bids {a b x : Nat} : x ∈ (⟨a, b⟩ : BidRange).bids ↔ a ≤ x ∧ x ≤ b := by
  simp only [BidRange.bids, List.mem_range'_1]; omega

/-- The bids of `s` lie in a scope from the cluster manager and were never returned. -/
def Unissued (scopes : List AllocableBids) (issued : List Nat) (s : AllocableBids) : Prop :=
  ∀ x, s.Holds x → (∃ t ∈ scopes, t.Holds x) ∧ x ∉ issued

theorem Unissued.sub {sc : List AllocableBids} {is : List Nat} {s t : AllocableBids}
    (h : Unissued sc is s) (hts : ∀ x, t.Holds x → s.Holds x) : Unissued sc is t :=
  fun x hx => h x (hts x hx)

theorem Unissued.append {sc : List AllocableBids} {is new : List Nat} {s : AllocableBids}
    (h : Unissued sc is s) (hn : ∀ x, s.Holds x → x ∉ new) : Unissued sc (is ++ new) s :=
  fun x hx => ⟨(h x hx).1, by simpa [List.mem_append, (h x hx).2] using hn x hx⟩

theorem Unissued.scope {sc : List AllocableBids} {is : List Nat} {s : AllocableBids}
    (h : Unissued sc is s) (t : AllocableBids) : Unissued (sc ++ [t]) is s := fun x hx =>
  ⟨let ⟨u, hu, hux⟩ := (h x hx).1; ⟨u, List.mem_append_left _ hu, hux⟩, (h x hx).2⟩

/-- The invariant of the allocator: `current` and `backup` are disjoint, non-empty, and hold only
bids of received scopes that were never returned; `backup` is a whole scope. -/
structure Inv (sys : BidSys) : Prop where
  nums_pos : 1 ≤ sys.mgr.bidAllocNums
  issued_nodup : sys.issued.Nodup
  issued_scoped : ∀ x ∈ sys.issued, ∃ t ∈ sys.scopes, t.Holds x
  current : ∀ c, sys.mgr.current = some c →
    1 ≤ c.minBid ∧ c.minBid ≤ c.maxBid ∧ Unissued sys.scopes sys.issued c
  backup : ∀ k, sys.mgr.backup = some k →
    1 ≤ k.minBid ∧ k.maxBid + 1 - k.minBid = sys.mgr.bidAllocNums ∧ Unissued sys.scopes sys.issued k
  disjoint : ∀ c k, sys.mgr.current = some c → sys.mgr.backup = some k →
    ∀ x, c.Holds x → ¬ k.Holds x

theorem inv_init (n : Nat) : Inv ⟨newBidMgr n, [], []⟩ where
  nums_pos := by simp only [newBidMgr, confCheck, defaultBidAllocNums]; split <;> omega
  issued_nodup := List.nodup_nil
  issued_scoped := by simp
  current := by simp [newBidMgr]
  backup := by simp [newBidMgr]
  disjoint := by simp [newBidMgr]

theorem inv_allocBid {sys : BidSys} {scope : AllocableBids} (hi : Inv sys)
    (hf : FreshScope sys scope) :
    Inv { sys with mgr := sys.mgr.allocBid scope, scopes := sys.scopes ++ [scope] } := by
  obtain ⟨h1, hn, hd⟩ := hf
  have hfresh : Unissued (sys.scopes ++ [scope]) sys.issued scope := fun x hx =>
    ⟨⟨scope, by simp, hx⟩, fun hm =>
      let ⟨t, ht, htx⟩ := hi.issued_scoped x hm; hd t ht x hx htx⟩
  have hsc : ∀ x ∈ sys.issued, ∃ t ∈ sys.scopes ++ [scope], t.Holds x := fun x hx =>
    let ⟨t, ht, htx⟩ := hi.issued_scoped x hx; ⟨t, List.mem_append_left _ ht, htx⟩
  unfold BidMgr.allocBid
  split
  · rename_i c hc
    refine ⟨hi.nums_pos, hi.issued_nodup, hsc, ?_, ?_, ?_⟩
    · intro c' hc'
      obtain ⟨a, b, u⟩ := hi.current c' hc'
      exact ⟨a, b, u.scope scope⟩
    · rintro k ⟨⟩
      exact ⟨h1, hn, hfresh⟩
    · rintro c' k hc' ⟨⟩ x hx hk
      obtain ⟨t, ht, htx⟩ := ((hi.current c' hc').2.2 x hx).1
      exact hd t ht x hk htx
  · refine ⟨hi.nums_pos, hi.issued_nodup, hsc, ?_, by simp, by simp⟩
    rintro c ⟨⟩
    exact ⟨h1, by have := hi.nums_pos; omega, hfresh⟩

theorem nodup_append_fresh {l new : List Nat} (hl : l.Nodup) (hn : new.Nodup)
    (hd : ∀ x ∈ new, x ∉ l) : (l ++ new).Nodup :=
  List.nodup_append.mpr ⟨hl, hn, fun x hx hy => hd x hy hx⟩

theorem scoped_append {sc : List AllocableBids} {is new : List Nat}
    (hs : ∀ x ∈ is, ∃ t ∈ sc, t.Holds x) (hn : ∀ x ∈ new, ∃ t ∈ sc, t.Holds x) :
    ∀ x ∈ is ++ new, ∃ t ∈ sc, t.Holds x := by
  intro x hx
  rcases List.mem_append.mp hx with h | h
  exacts [hs x h, hn x h]

theorem mem_front_bids {s : AllocableBids} {count x : Nat} (h1 : 1 ≤ s.minBid)
    (hfit : s.minBid + count ≤ s.maxBid + 1)
    (hx : x ∈ (⟨s.minBid, s.minBid + count - 1⟩ : BidRange).bids) :
    s.Holds x ∧ x < s.minBid + count := by
  rw [mem_bids] at hx; exact ⟨⟨hx.1, by omega⟩, by omega⟩

theorem holds_rest {s : AllocableBids} {k x : Nat}
    (hx : AllocableBids.Holds ⟨s.minBid + k, s.maxBid⟩ x) : s.Holds x ∧ s.minBid + k ≤ x :=
  ⟨⟨(Nat.le_add_right _ _).trans hx.1, hx.2⟩, hx.1⟩

theorem inv_alloc {sys : BidSys} (hi : Inv sys) (count : Nat) :
    Inv { sys with mgr := (sys.mgr.alloc count).2,
                   issued := sys.issued ++ (match (sys.mgr.alloc count).1 with
                     | .ok rs => rs.flatMap BidRange.bids
                     | .error _ => []) } := by
  rcases alloc_cases sys.mgr count with
    ⟨e, he⟩ | ⟨cur, hc, hfit, he⟩ | ⟨cur, bk, hc, hb, hn, hsplit, he⟩
  · rw [he]; simpa using hi
  · obtain ⟨hc1, hc2, hcu⟩ := hi.current cur hc
    have hr := fun x => @mem_front_bids cur count x hc1 hfit
    have hnew : ∀ x, x ∈ (⟨cur.minBid, cur.minBid + count - 1⟩ : BidRange).bids →
        (∃ t ∈ sys.scopes, t.Holds x) ∧ x ∉ sys.issued := fun x hx => hcu x (hr x hx).1
    rw [he]
    simp only [List.flatMap_cons, List.flatMap_nil, List.append_nil]
    have hnd := nodup_append_fresh hi.issued_nodup (List.nodup_range' _ _)
      (fun x hx => (hnew x hx).2)
    have hsc := scoped_append hi.issued_scoped (fun x hx => (hnew x hx).1)
    split
    · refine ⟨hi.nums_pos, hnd, hsc, ?_, by simp, by simp⟩
      intro k hk
      obtain ⟨hk1, hk2, hku⟩ := hi.backup k hk
      exact ⟨hk1, by have := hi.nums_pos; omega,
        hku.append fun x hx hm => hi.disjoint cur k hc hk x (hr x hm).1 hx⟩
    · have hsub := fun x => @holds_rest cur count x
      refine ⟨hi.nums_pos, hnd, hsc, ?_, ?_, ?_⟩
      · rintro c ⟨⟩
        refine ⟨by dsimp only; omega, by dsimp only; omega, ?_⟩
        exact (hcu.sub fun x hx => (hsub x hx).1).append
          fun x hx hm => by have := (hr x hm).2; have := (hsub x hx).2; omega
      · intro k hk
        obtain ⟨hk1, hk2, hku⟩ := hi.backup k hk
        exact ⟨hk1, hk2, hku.append fun x hx hm => hi.disjoint cur k hc hk x (hr x hm).1 hx⟩
      · rintro c k ⟨⟩ hk x hx
        exact hi.disjoint cur k hc hk x (hsub x hx).1
  · obtain ⟨hc1, hc2, hcu⟩ := hi.current cur hc
    obtain ⟨hk1, hk2, hku⟩ := hi.backup bk hb
    have hdis := hi.disjoint cur bk hc hb
    have h1 : ∀ x, x ∈ (⟨cur.minBid, cur.maxBid⟩ : BidRange).bids → cur.Holds x :=
      fun x hx => mem_bids.mp hx
    have h2 := fun x => @mem_front_bids bk (count - (cur.maxBid + 1 - cur.minBid)) x hk1
      (by omega)
    rw [he]
    simp only [List.flatMap_cons, List.flatMap_nil, List.append_nil]
    have hnd := nodup_append_fresh hi.issued_nodup
      (nodup_append_fresh (List.nodup_range' _ _) (List.nodup_range' _ _)
        fun x hx hm => hdis x (h1 x hm) (h2 x hx).1)
      (fun x hx => by
        rcases List.mem_append.mp hx with h | h
        exacts [(hcu x (h1 x h)).2, (hku x (h2 x h).1).2])
    have hsc := scoped_append hi.issued_scoped (fun x hx => by
      rcases List.mem_append.mp hx with h | h
      exacts [(hcu x (h1 x h)).1, (hku x (h2 x h).1).1])
    refine ⟨hi.nums_pos, hnd, hsc, ?_, by simp, by simp⟩
    rintro c ⟨⟩
    refine ⟨by dsimp only; omega, by dsimp only; omega, ?_⟩
    have hsub := fun x => @holds_rest bk (count - (cur.maxBid + 1 - cur.minBid)) x
    refine (hku.sub fun x hx => (hsub x hx).1).append fun x hx hm => ?_
    rcases List.mem_append.mp hm with h | h
    · exact hdis x (h1 x h) (hsub x hx).1
    · have := (h2 x h).2; have := (hsub x hx).2; omega

theorem inv_of_reachable {n : Nat} {sys : BidSys} (hr : Reachable n sys) : Inv sys := by
  induction hr with
  | init => exact inv_init n
  | alloc count _ ih => exact inv_alloc ih count
  | allocBid scope _ hf ih => exact inv_allocBid ih hf

theorem alloc_ok_ranges {sys : BidSys} (hi : Inv sys) {count : Nat} (hc1 : 1 ≤ count)
    {rs : List BidRange} (h : (sys.mgr.alloc count).1 = .ok rs) :
    (∀ r ∈ rs, r.startBid ≤ r.endBid) ∧ (rs.map BidRange.size).sum = count := by
  rcases alloc_cases sys.mgr count with
    ⟨e, he⟩ | ⟨cur, hc, hfit, he⟩ | ⟨cur, bk, hc, hb, hn, hsplit, he⟩ <;>
    rw [he] at h <;> cases h
  · simp only [List.mem_singleton, forall_eq, List.map_cons, List.map_nil, List.sum_cons,
      List.sum_nil, BidRange.size]
    omega
  · have := hi.current cur hc
    simp only [List.mem_cons, List.mem_singleton, forall_eq_or_imp, forall_eq, List.map_cons,
      List.map_nil, List.sum_cons, List.sum_nil, BidRange.size, List.not_mem_nil, false_implies,
      implies_true, and_true]
    omega

/-- Over every interleaving of `Alloc` calls and refills, the bids returned are distinct and from
received scopes, `Alloc(count)` returns `count` bids, and a failing one changes nothing. -/
theorem alloc_returns_fresh_bids {n : Nat} {sys : BidSys} (hr : Reachable n sys) :
    sys.issued.Nodup ∧ (∀ x ∈ sys.issued, ∃ t ∈ sys.scopes, t.Holds x) ∧
    ∀ count,
      (1 ≤ count → ∀ rs, (sys.mgr.alloc count).1 = .ok rs →
        (∀ r ∈ rs, r.startBid ≤ r.endBid) ∧ (rs.map BidRange.size).sum = count) ∧
      (∀ e, (sys.mgr.alloc count).1 = .error e →
        (sys.mgr.alloc count).2.current = sys.mgr.current ∧
          (sys.mgr.alloc count).2.backup = sys.mgr.backup) := by
  have hi := inv_of_reachable hr
  refine ⟨hi.issued_nodup, hi.issued_scoped, fun count => ⟨fun hc rs h => alloc_ok_ranges hi hc h,
    fun e h => ?_⟩⟩
  rcases alloc_cases sys.mgr count with
    ⟨e, he⟩ | ⟨cur, hc, hfit, he⟩ | ⟨cur, bk, hc, hb, hn, hsplit, he⟩ <;>
    rw [he] at h ⊢ <;> cases h
  exact ⟨rfl, rfl⟩

/-- Once the first scope `[1, 10000]` is installed, `Alloc(3)` returns the range `[1, 3]`. -/
theorem alloc_after_first_scope :
    Reachable 0 ⟨(newBidMgr 0).allocBid ⟨1, 10000⟩, [⟨1, 10000⟩], []⟩ ∧
      (((newBidMgr 0).allocBid ⟨1, 10000⟩).alloc 3).1 = .ok [⟨1, 3⟩] ∧
      ([(⟨1, 3⟩ : BidRange)].map BidRange.size).sum = 3 := by
  have hr : Reachable 0 ⟨(newBidMgr 0).allocBid ⟨1, 10000⟩, [⟨1, 10000⟩], []⟩ :=
    .allocBid _ .init ⟨le_refl _, by decide, by simp⟩
  exact ⟨hr, rfl, (((alloc_returns_fresh_bids hr).2.2 3).1 (by decide) _ rfl).2⟩

end BlobStore.Allocator
