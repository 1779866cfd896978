import BlobStore.Access.GetData

/-! The range reads of the small-read fast path `getDataShardOnly`: `rangeReads` lists the reads
its loop issues, one for each data unit the range touches. -/

namespace BlobStore.Access

/-- The range reads the loop of `getDataShardOnly` issues while every read succeeds: the unit,
the offset in its shard and the size of each. -/
def rangeReads (shardSize : Nat) : List Nat → Nat → Nat → List (Nat × Nat × Nat)
  | [], _, _ => []
  | i :: is, shardOffset, remainSize =>
    if remainSize = 0 then []
    else
      let toReadSize := min remainSize (shardSize - shardOffset)
      (i, shardOffset, toReadSize) :: rangeReads shardSize is 0 (remainSize - toReadSize)

/-- The reads `calls` issued in order, each appending its bytes to `dataBuf`; `none` at the
first that fails. -/
def issueReads (read : Nat → Nat → Nat → Option (List UInt8))
    (calls : List (Nat × Nat × Nat)) (dataBuf : List UInt8) : Option (List UInt8) :=
  calls.foldlM (fun buf c => (read c.1 c.2.1 c.2.2).map (buf ++ ·)) dataBuf

section

variable (read : Nat → Nat → Nat → Option (List UInt8)) (shardSize : Nat)

@[simp] theorem rangeReads_zero (is : List Nat) (so : Nat) : rangeReads shardSize is so 0 = [] := by
  cases is <;> rfl

theorem readShards_eq : ∀ (is : List Nat) (so r : Nat) (acc : List UInt8),
    readShards read shardSize is so r acc =
      (issueReads read (rangeReads shardSize is so r) acc).map
        (·, r - ((rangeReads shardSize is so r).map (·.2.2)).sum)
  | [], _, _, _ => rfl
  | i :: is, so, r, acc => by
    by_cases hr : r = 0
    · subst hr; rfl
    simp only [readShards, rangeReads, if_neg hr]
    cases hd : read i so (min r (shardSize - so)) with
    | none => simp [issueReads, hd]
    | some d =>
      simp only [readShards_eq is, issueReads, List.foldlM_cons, hd, Option.map_some',
        Option.bind_eq_bind, Option.some_bind, List.map_cons, List.sum_cons, Nat.sub_sub]

theorem issueReads_congr (read' : Nat → Nat → Nat → Option (List UInt8))
    {calls : List (Nat × Nat × Nat)}
    (h : ∀ c ∈ calls, read c.1 c.2.1 c.2.2 = read' c.1 c.2.1 c.2.2) (acc : List UInt8) : issueReads read calls acc = issueReads read' calls acc := by
  induction calls generalizing acc with
  | nil => rfl
  | cons c cs ih =>
    simp only [issueReads, List.foldlM_cons, h c (List.mem_cons_self c cs)]
    cases read' c.1 c.2.1 c.2.2 with
    | none => rfl
    | some d => exact ih (fun c' hc' => h c' (List.mem_cons_of_mem c hc')) (acc ++ d)

theorem issueReads_eq_none {calls : List (Nat × Nat × Nat)}
    (h : ∃ c ∈ calls, read c.1 c.2.1 c.2.2 = none) (acc : List UInt8) :
    issueReads read calls acc = none := by
  induction calls generalizing acc with
  | nil => obtain ⟨c, hc, -⟩ := h; cases hc
  | cons c cs ih =>
    simp only [issueReads, List.foldlM_cons]
    cases hd : read c.1 c.2.1 c.2.2 with
    | none => rfl
    | some d =>
      obtain ⟨c', hc', hn⟩ := h
      rcases List.mem_cons.mp hc' with rfl | hm
      · rw [hd] at hn; cases hn
      · exact ih ⟨c', hm, hn⟩ (acc ++ d)

theorem issueReads_isSome (calls : List (Nat × Nat × Nat))
    (h : ∀ c ∈ calls, (read c.1 c.2.1 c.2.2).isSome) (acc : List UInt8) :
    (issueReads read calls acc).isSome := by
  induction calls generalizing acc with
  | nil => rfl
  | cons c cs ih =>
    obtain ⟨d, hd⟩ := Option.isSome_iff_exists.mp (h c (List.mem_cons_self c cs))
    simp only [issueReads, List.foldlM_cons, hd, Option.map_some', Option.bind_eq_bind,
      Option.some_bind]
    exact ih (fun c' hc' => h c' (List.mem_cons_of_mem c hc')) (acc ++ d)

end

section

variable {shardSize : Nat}

theorem fst_mem_of_mem_rangeReads {c : Nat × Nat × Nat} :
    ∀ {is : List Nat} {so r : Nat}, c ∈ rangeReads shardSize is so r → c.1 ∈ is
  | [], _, _, h => by cases h
  | i :: is, so, r, h => by
    simp only [rangeReads] at h
    split at h
    · cases h
    · rcases List.mem_cons.mp h with rfl | h
      · exact List.mem_cons_self _ is
      · exact List.mem_cons_of_mem i (fst_mem_of_mem_rangeReads h)

private theorem ceil_one {S so r : Nat} (h0 : 0 < r) (h : r ≤ S - so) (hso : so < S) :
    (so + r + S - 1) / S = 1 := by
  exact Nat.div_eq_of_lt_le (by omega) (by omega)

private theorem ceil_succ {S so r : Nat} (hS : 0 < S) (h : S - so < r) (hso : so < S) :
    (so + r + S - 1) / S = (0 + (r - (S - so)) + S - 1) / S + 1 := by
  rw [← Nat.add_div_right _ hS]; congr 1; omega

theorem rangeReads_spec (hS : 0 < shardSize) : ∀ (k f so r : Nat), so < shardSize → 0 < r →
    r + so ≤ k * shardSize →
    let calls := rangeReads shardSize (List.range' f k) so r
    calls.length = (so + r + shardSize - 1) / shardSize ∧
    calls.map (·.1) = List.range' f calls.length ∧
    calls.map (·.2.1) = so :: List.replicate (calls.length - 1) 0 ∧
    (calls.map (·.2.2)).sum = r
  | 0, _, _, _, _, h0, hk => by omega
  | k + 1, f, so, r, hso, h0, hk => by
    simp only [List.range'_succ, rangeReads, if_neg (Nat.pos_iff_ne_zero.mp h0)]
    by_cases hlast : r ≤ shardSize - so
    · -- the range ends in the first shard
      rw [Nat.min_eq_left hlast, Nat.sub_self, rangeReads_zero, ceil_one h0 hlast hso]
      exact ⟨rfl, rfl, rfl, by simp⟩
    · -- a whole shard from `so`, then the rest of the range from the next unit on
      have hrest := rangeReads_spec hS k (f + 1) 0 (r - (shardSize - so)) hS (by omega)
        (by rw [Nat.succ_mul] at hk; omega)
      rw [Nat.min_eq_right (by omega)]
      obtain ⟨hl, hu, ho, hs⟩ := hrest
      simp only [List.length_cons, List.map_cons, List.sum_cons]
      refine ⟨by rw [hl, ceil_succ hS (by omega) hso], by rw [hu, List.range'_succ], ?_,
        by rw [hs]; omega⟩
      rw [ho, Nat.add_sub_cancel, ← List.replicate_succ,
        Nat.sub_add_cancel (hl ▸ Nat.div_pos (by omega) hS)]

end

theorem rangeReads_room (rule : BufferRule) {size : Nat} {t : Tactic} {sizes : BufferSizes}
    (hsizes : rule.getBufferSizes size t = some sizes) {offset readSize : Nat}
    (hsz : offset + readSize ≤ size) :
    readSize + offset % sizes.shardSize ≤ (t.n - offset / sizes.shardSize) * sizes.shardSize := by
  have hcap := rule.dataSize_le hsizes
  rw [rule.dataSize_eq hsizes, rule.ecDataSize_eq hsizes] at hcap
  have := Nat.div_add_mod' offset sizes.shardSize
  rw [Nat.sub_mul]
  omega

theorem getDataShardOnly_eq_issueReads (rule : BufferRule) (written : List (List UInt8))
    (buf : Nat) (t : Tactic) (blob : BlobGetArgs) {S : Nat}
    (hS : newRangeBuffer rule blob.blobSize t = some S) (h1 : 1 ≤ blob.readSize)
    (hsz : blob.offset + blob.readSize ≤ blob.blobSize) (writeOk : Nat → Bool)
    (read : Nat → Nat → Nat → Option (List UInt8)) :
    getDataShardOnly rule writeOk written buf (some t) read blob =
      match issueReads read (rangeReads S (List.range' (blob.offset / S) (t.n - blob.offset / S))
        (blob.offset % S) blob.readSize) [] with
      | none => ⟨[], [.alloc buf, .put buf], .needReconstructRead⟩
      | some dataBuf => ⟨[dataBuf.take blob.readSize], [.alloc buf, .put buf],
          if writeOk written.length then .ok else .err⟩ := by
  obtain ⟨sizes, hsizes, rfl⟩ := Option.map_eq_some'.mp hS
  have hpos := rule.shardSize_pos hsizes
  have hroom := rangeReads_room rule hsizes hsz
  have hf : ¬ t.n < blob.offset / sizes.shardSize := fun h => by
    rw [Nat.sub_eq_zero_of_le h.le, Nat.zero_mul] at hroom
    omega
  have hsum := (rangeReads_spec hpos _ (blob.offset / sizes.shardSize) _ _ (Nat.mod_lt _ hpos) h1
    hroom).2.2.2
  simp only [getDataShardOnly, if_neg (Nat.pos_iff_ne_zero.mp h1), hS, if_neg hf,
    readShards_eq, hsum, Nat.sub_self]
  cases issueReads read _ [] <;> rfl

/-- For every nonempty range inside the blob, `getDataShardOnly` issues the reads of `rangeReads`
in order, writes the range when all succeed, and writes nothing when one fails. -/
theorem getDataShardOnly_range_reads (rule : BufferRule) (writeOk : Nat → Bool)
    (written : List (List UInt8)) (buf : Nat) (t : Tactic) (blob : BlobGetArgs)
    (data : List UInt8) {S : Nat} (hS : newRangeBuffer rule blob.blobSize t = some S)
    (h1 : 1 ≤ blob.readSize) (hsz : blob.offset + blob.readSize ≤ blob.blobSize)
    (hdata : data.length = blob.blobSize) :
    let calls := rangeReads S (List.range' (blob.offset / S) (t.n - blob.offset / S))
      (blob.offset % S) blob.readSize
    (∀ read, getDataShardOnly rule writeOk written buf (some t) read blob =
      match issueReads read calls [] with
      | none => ⟨[], [.alloc buf, .put buf], .needReconstructRead⟩
      | some dataBuf => ⟨[dataBuf.take blob.readSize], [.alloc buf, .put buf],
          if writeOk written.length then .ok else .err⟩) ∧
    calls.length = (blob.offset % S + blob.readSize + S - 1) / S ∧
    calls.map (·.1) = List.range' (blob.offset / S) calls.length ∧
    (∀ c ∈ calls, c.1 < t.n) ∧
    calls.map (·.2.1) = blob.offset % S :: List.replicate (calls.length - 1) 0 ∧
    (calls.map (·.2.2)).sum = blob.readSize ∧
    (∀ read, (∀ c ∈ calls,
        read c.1 c.2.1 c.2.2 = some (((dataShard data S c.1).drop c.2.1).take c.2.2)) →
      (getDataShardOnly rule writeOk written buf (some t) read blob).written =
        [blob.slice data]) ∧
    (∀ read, (∃ c ∈ calls, read c.1 c.2.1 c.2.2 = none) →
      getDataShardOnly rule writeOk written buf (some t) read blob =
        ⟨[], [.alloc buf, .put buf], .needReconstructRead⟩) := by
  dsimp only
  have heq := getDataShardOnly_eq_issueReads rule written buf t blob hS h1 hsz
  obtain ⟨sizes, hsizes, rfl⟩ := Option.map_eq_some'.mp hS
  have hpos := rule.shardSize_pos hsizes
  obtain ⟨hlen, hunits, hoffs, hsum⟩ := rangeReads_spec hpos _ (blob.offset / sizes.shardSize)
    _ _ (Nat.mod_lt _ hpos) h1 (rangeReads_room rule hsizes hsz)
  refine ⟨heq writeOk, hlen, hunits, ?_, hoffs, hsum, ?_, ?_⟩
  · -- every unit read is a data unit
    intro c hc
    have := List.mem_range'_1.mp (fst_mem_of_mem_rangeReads hc)
    omega
  · -- reads that return the stored bytes give the slice, as they do for the stored shards
    intro read hread
    let stored : Nat → Nat → Nat → Option (List UInt8) := fun i off size =>
      some (((dataShard data sizes.shardSize i).drop off).take size)
    have hspec := getDataShardOnly_spec rule (fun _ => true) written buf (some t) stored blob data
      (by omega) (by
        rintro t' ⟨⟩ sizes' hs' i - off size d hd
        rw [hsizes] at hs'
        cases hs'
        exact (Option.some.inj hd).symm) rfl
    obtain ⟨b, hb⟩ := Option.isSome_iff_exists.mp
      (issueReads_isSome stored
        (rangeReads sizes.shardSize (List.range' (blob.offset / sizes.shardSize)
          (t.n - blob.offset / sizes.shardSize)) (blob.offset % sizes.shardSize) blob.readSize)
        (fun _ _ => rfl) [])
    rw [heq, hb] at hspec
    rw [heq, issueReads_congr read stored hread, hb]
    simpa using hspec.2.1 rfl
  · intro read hread
    rw [heq, issueReads_eq_none read hread]

/-- Two bytes from offset 1 of a four-byte blob over two data shards of two bytes: one byte from
each shard, and the slice `[2, 3]`. -/
theorem getDataShardOnly_reads_two_units :
    newRangeBuffer BufferRule.even 4 ⟨2, 1, 0⟩ = some 2 ∧
    rangeReads 2 (List.range' 0 2) 1 2 = [(0, 1, 1), (1, 0, 1)] ∧
    (getDataShardOnly BufferRule.even (fun _ => true) [] 0 (some ⟨2, 1, 0⟩)
      (fun i off size => some (((dataShard [1, 2, 3, 4] 2 i).drop off).take size))
      ⟨0, 0, 4, 1, 2⟩).written = [[2, 3]] :=
  ⟨rfl, rfl, (getDataShardOnly_range_reads BufferRule.even (fun _ => true) [] 0 ⟨2, 1, 0⟩
    ⟨0, 0, 4, 1, 2⟩ [1, 2, 3, 4] rfl (by decide) (by decide) rfl).2.2.2.2.2.2.1 _
    (fun _ _ => rfl)⟩

end BlobStore.Access
