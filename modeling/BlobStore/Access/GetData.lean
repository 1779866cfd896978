import BlobStore.Access.Get
import BlobStore.Access.ReadOneBlobData

/-! What the read paths of `Get` copy out: data shard `i` holds `[i * ShardSize, (i + 1) *
ShardSize)` of its blob, zero-padded, as `Put` left it. -/

namespace BlobStore.Access

/-- Modelled from the spec ("data bytes for the blob live contiguously across `shards[0..n]`,
each of length `shard_size`"): data shard `i` of a blob. -/
def dataShard (blob : List UInt8) (shardSize i : Nat) : List UInt8 :=
  let part := (blob.drop (i * shardSize)).take shardSize
  part ++ List.replicate (shardSize - part.length) 0

theorem dataShard_eq_padded (blob : List UInt8) {shardSize i K : Nat}
    (hK : (i + 1) * shardSize ≤ blob.length + K) :
    dataShard blob shardSize i =
      ((blob ++ List.replicate K 0).drop (i * shardSize)).take shardSize := by
  rw [dataShard, List.drop_append_eq_append_drop, List.take_append_eq_append_take,
    List.drop_replicate, List.take_replicate, List.length_drop, List.length_take, List.length_drop,
    Nat.succ_mul] at *
  congr 2
  omega

@[simp] theorem length_dataShard (blob : List UInt8) (shardSize i : Nat) :
    (dataShard blob shardSize i).length = shardSize := by
  simp only [dataShard, List.length_append, List.length_replicate, List.length_take]
  omega

theorem flatten_dataShards (blob : List UInt8) {shardSize n K : Nat}
    (hK : n * shardSize ≤ blob.length + K) :
    ((List.range n).map (dataShard blob shardSize)).flatten =
      (blob ++ List.replicate K 0).take (n * shardSize) := by
  induction n with
  | zero => simp
  | succ n ih =>
    rw [List.range_succ, List.map_append, List.flatten_append, ih (by rw [Nat.succ_mul] at hK; omega),
      List.map_singleton, List.flatten_singleton, dataShard_eq_padded blob hK, ← List.take_add,
      Nat.succ_mul]

theorem slice_padded (blob : List UInt8) (K : Nat) {off n : Nat} (h : off + n ≤ blob.length) :
    ((blob ++ List.replicate K 0).drop off).take n = (blob.drop off).take n := by
  rw [List.drop_append_of_le_length (by omega),
    List.take_append_of_le_length (by rw [List.length_drop]; omega)]

theorem take_split (l r : List UInt8) (n : Nat) :
    (l ++ r).take n = l.take (min n l.length) ++ r.take (n - min n l.length) := by
  rw [List.take_append_eq_append_take]
  congr 1
  · by_cases h : n ≤ l.length
    · rw [Nat.min_eq_left h]
    · rw [Nat.min_eq_right (by omega), List.take_of_length_le (by omega), List.take_length]
  · congr 1; omega

theorem copyLoop_spec (writeOk : Nat → Bool) (bufs : List (List UInt8)) (off n : Nat)
    (written : List (List UInt8)) (h : off + n ≤ bufs.flatten.length) :
    ∃ chunks, (copyLoop writeOk bufs off n written).1 = written ++ chunks ∧
      chunks.flatten <+: (bufs.flatten.drop off).take n ∧
      (copyLoop writeOk bufs off n written).2 ≠ .panicked ∧
      ((copyLoop writeOk bufs off n written).2 = .done →
        chunks.flatten = (bufs.flatten.drop off).take n) := by
  induction bufs generalizing off n written with
  | nil =>
    obtain rfl : n = 0 := by simp at h; omega
    exact ⟨[], by simp [copyLoop], by simp, by simp [copyLoop], fun _ => by simp⟩
  | cons buf bufs ih =>
    cases n with
    | zero => exact ⟨[], by simp [copyLoop], by simp, by simp [copyLoop], fun _ => by simp⟩
    | succ n =>
      rw [List.flatten_cons, List.length_append] at h
      rw [List.flatten_cons, List.drop_append_eq_append_drop]
      by_cases hl : buf.length ≤ off
      · -- the buffer lies before `off`
        obtain ⟨chunks, h1, h2, h3, h4⟩ := ih (off - buf.length) (n + 1) written (by omega)
        rw [List.drop_eq_nil_of_le hl, List.nil_append]
        simp only [copyLoop, if_pos hl]
        exact ⟨chunks, h1, h2, h3, h4⟩
      -- one `Write` of what the buffer holds from `off`
      have ht : min (n + 1) (buf.length - off) = min (n + 1) (buf.drop off).length := by
        rw [List.length_drop]
      rw [Nat.sub_eq_zero_of_le (Nat.le_of_lt (Nat.lt_of_not_le hl)), List.drop_zero, take_split,
        ← ht]
      by_cases hw : writeOk written.length = true
      · obtain ⟨chunks, h1, h2, h3, h4⟩ := ih 0 (n + 1 - min (n + 1) (buf.length - off))
          (written ++ [(buf.drop off).take (min (n + 1) (buf.length - off))]) (by omega)
        have he : copyLoop writeOk (buf :: bufs) off (n + 1) written =
            copyLoop writeOk bufs 0 (n + 1 - min (n + 1) (buf.length - off))
              (written ++ [(buf.drop off).take (min (n + 1) (buf.length - off))]) := by
          simp only [copyLoop, if_neg hl, if_pos hw]
        rw [List.drop_zero] at h2 h4
        rw [he]
        refine ⟨_ :: chunks, by rw [h1, List.append_assoc, List.singleton_append], ?_, h3,
          fun hd => by rw [List.flatten_cons, h4 hd]⟩
        rw [List.flatten_cons, List.prefix_append_right_inj]
        exact h2
      · have he : copyLoop writeOk (buf :: bufs) off (n + 1) written =
            (written ++ [(buf.drop off).take (min (n + 1) (buf.length - off))], .writeErr) := by
          simp only [copyLoop, if_neg hl, if_neg hw]
        rw [he]
        exact ⟨[_], rfl, by simp, nofun, nofun⟩

theorem copyLoop_writes_in_order (writeOk : Nat → Bool) :
    ∀ (bufs : List (List UInt8)) (off n : Nat) (written : List (List UInt8)),
      ∃ chunks idx, (copyLoop writeOk bufs off n written).1 = written ++ chunks ∧
        List.Forall₂ (fun i c => i < bufs.length ∧ c ≠ [] ∧ c <:+: bufs.getD i []) idx chunks ∧
        idx.Pairwise (· < ·) ∧
        ((copyLoop writeOk bufs off n written).2 = .writeErr →
          ∃ k < chunks.length, writeOk (written.length + k) = false)
  | bufs, _, 0, written =>
    ⟨[], [], by cases bufs <;> simp [copyLoop], .nil, .nil, by cases bufs <;> nofun⟩
  | [], _, _ + 1, written => ⟨[], [], by simp [copyLoop], .nil, .nil, nofun⟩
  | buf :: bufs, off, n + 1, written => by
    have hshift : ∀ {idx : List Nat} {chunks : List (List UInt8)},
        List.Forall₂ (fun i c => i < bufs.length ∧ c ≠ [] ∧ c <:+: bufs.getD i []) idx chunks →
        List.Forall₂ (fun i c => i < (buf :: bufs).length ∧ c ≠ [] ∧
          c <:+: (buf :: bufs).getD i []) (idx.map (· + 1)) chunks := fun h =>
      List.forall₂_map_left_iff.mpr (h.imp fun _ _ ⟨hi, hc, hinf⟩ => ⟨Nat.succ_lt_succ hi, hc, hinf⟩)
    by_cases hl : buf.length ≤ off
    · -- the buffer lies before `off`: the writes go to the later buffers
      obtain ⟨chunks, idx, h1, h2, h3, h4⟩ :=
        copyLoop_writes_in_order writeOk bufs (off - buf.length) (n + 1) written
      simp only [copyLoop, if_pos hl]
      exact ⟨chunks, idx.map (· + 1), h1, hshift h2,
        List.pairwise_map.mpr (h3.imp Nat.succ_lt_succ), h4⟩
    -- one `Write` of what the buffer holds from `off`
    have hc : (buf.drop off).take (min (n + 1) (buf.length - off)) ≠ [] := by
      rw [Ne, List.take_eq_nil_iff, List.drop_eq_nil_iff]
      omega
    have hinf : (buf.drop off).take (min (n + 1) (buf.length - off)) <:+: buf :=
      (List.take_prefix _ _).isInfix.trans (List.drop_suffix _ _).isInfix
    by_cases hw : writeOk written.length = true
    · obtain ⟨chunks, idx, h1, h2, h3, h4⟩ := copyLoop_writes_in_order writeOk bufs 0
        (n + 1 - min (n + 1) (buf.length - off))
        (written ++ [(buf.drop off).take (min (n + 1) (buf.length - off))])
      simp only [copyLoop, if_neg hl, if_pos hw]
      refine ⟨_ :: chunks, 0 :: idx.map (· + 1), by rw [h1, List.append_assoc, List.singleton_append],
        .cons ⟨Nat.succ_pos _, hc, hinf⟩ (hshift h2),
        List.pairwise_cons.mpr ⟨fun j hj => ?_, List.pairwise_map.mpr (h3.imp Nat.succ_lt_succ)⟩,
        fun he => ?_⟩
      · obtain ⟨i, -, rfl⟩ := List.mem_map.mp hj
        exact Nat.succ_pos i
      · obtain ⟨k, hk, hf⟩ := h4 he
        rw [List.length_append, List.length_singleton, Nat.add_assoc, Nat.add_comm 1] at hf
        exact ⟨k + 1, Nat.succ_lt_succ hk, hf⟩
    · simp only [copyLoop, if_neg hl, if_neg hw]
      exact ⟨[_], [0], rfl, .cons ⟨Nat.succ_pos _, hc, hinf⟩ .nil, List.pairwise_singleton _ _,
        fun _ => ⟨0, Nat.zero_lt_one, by simpa using hw⟩⟩

/-- Within the buffers, the copy loop never indexes past them, and its nonempty slices make up a
prefix of `[off, off + size)` in index order, all of it when every `Write` succeeds. -/
theorem copyLoop_writes_range (writeOk : Nat → Bool) (bufs : List (List UInt8)) (off size : Nat)
    (written : List (List UInt8)) (h : off + size ≤ (bufs.map List.length).sum) :
    ∃ chunks idx, (copyLoop writeOk bufs off size written).1 = written ++ chunks ∧
      (copyLoop writeOk bufs off size written).2 ≠ .panicked ∧
      List.Forall₂ (fun i c => i < bufs.length ∧ c ≠ [] ∧ c <:+: bufs.getD i []) idx chunks ∧
      idx.Pairwise (· < ·) ∧
      chunks.flatten <+: (bufs.flatten.drop off).take size ∧
      ((∀ k, writeOk k = true) → (copyLoop writeOk bufs off size written).2 = .done ∧
        chunks.flatten = (bufs.flatten.drop off).take size) := by
  obtain ⟨chunks, h1, h2, h3, h4⟩ :=
    copyLoop_spec writeOk bufs off size written (by rwa [List.length_flatten])
  obtain ⟨chunks', idx, h1', hidx, hsorted, herr⟩ :=
    copyLoop_writes_in_order writeOk bufs off size written
  obtain rfl := List.append_cancel_left (h1'.symm.trans h1)
  refine ⟨chunks', idx, h1', h3, hidx, hsorted, h2, fun hok => ?_⟩
  have hdone : (copyLoop writeOk bufs off size written).2 = .done := by
    cases hend : (copyLoop writeOk bufs off size written).2 with
    | done => rfl
    | writeErr =>
      obtain ⟨k, -, hk⟩ := herr hend
      rw [hok] at hk
      cases hk
    | panicked => exact absurd hend h3
  exact ⟨hdone, h4 hdone⟩

/-- Three buffers, the middle one empty, and the range `[1, 4)`: the slices written are the
bytes `2, 3, 4`. -/
theorem copyLoop_writes_across_empty_buffer :
    1 + 3 ≤ ([[1, 2], [], [3, 4, 5]].map List.length).sum ∧
    (copyLoop (fun _ => true) [[1, 2], [], [3, 4, 5]] 1 3 []).1.flatten = [2, 3, 4] := by
  obtain ⟨chunks, -, h1, -, -, -, -, hok⟩ := copyLoop_writes_range (fun _ => true)
    [[1, 2], [], [3, 4, 5]] 1 3 [] (by decide)
  exact ⟨by decide, by rw [h1, List.nil_append, (hok fun _ => rfl).2]; rfl⟩

section

variable {read : Nat → Nat → Nat → Option (List UInt8)} {shardSize : Nat} (D : List UInt8)
  {n : Nat}
  (hread : ∀ i off size d, i < n → off + size ≤ shardSize → read i off size = some d →
    d = (D.drop (i * shardSize + off)).take size)

include hread in
theorem readShards_spec (hS : 0 < shardSize) :
    ∀ (k f so r : Nat) (acc buf : List UInt8) (rem : Nat), f + k ≤ n → so < shardSize →
      readShards read shardSize (List.range' f k) so r acc = some (buf, rem) →
      buf = acc ++ (D.drop (f * shardSize + so)).take (r - rem) ∧
        rem = r - min r (k * shardSize - so) := by
  intro k
  induction k with
  | zero =>
    intro f so r acc buf rem _ _ h
    simp only [List.range'_zero, readShards, Option.some.injEq, Prod.mk.injEq] at h
    obtain ⟨rfl, rfl⟩ := h
    simp
  | succ k ih =>
    intro f so r acc buf rem hk hso h
    rw [List.range'_succ] at h
    by_cases hr : r = 0
    · subst hr
      simp only [readShards, if_true, Option.some.injEq, Prod.mk.injEq] at h
      obtain ⟨rfl, rfl⟩ := h
      simp
    simp only [readShards, if_neg hr] at h
    split at h
    · cases h
    rename_i d hd
    have hd' := hread f so _ d (by omega) (by omega) hd
    obtain ⟨h1, h2⟩ := ih (f + 1) 0 (r - min r (shardSize - so)) (acc ++ d) buf rem (by omega) hS h
    rw [tsub_min] at h1 h2
    rw [tsub_min, Nat.sub_zero] at h2
    refine ⟨?_, by rw [h2, tsub_min, Nat.sub_sub, Nat.succ_mul, Nat.add_sub_assoc hso.le,
      Nat.add_comm]⟩
    rw [h1, hd', List.append_assoc]
    congr 1
    by_cases hlast : r ≤ shardSize - so
    · -- the last piece
      rw [show r - (shardSize - so) - rem = 0 by omega, List.take_zero, List.append_nil,
        min_eq_left hlast]
      congr 1
      omega
    · -- a whole shard from `shardOffset`, then the next shards from their start
      rw [min_eq_right (by omega : shardSize - so ≤ r), show (f + 1) * shardSize + 0 =
        f * shardSize + so + (shardSize - so) by rw [Nat.succ_mul]; omega,
        ← List.drop_drop (shardSize - so) (f * shardSize + so), ← List.take_add]
      congr 1
      omega

end

theorem getDataShardOnly_needReconstructRead (rule : BufferRule) (writeOk : Nat → Bool)
    (written : List (List UInt8)) (buf : Nat) (volume : Option Tactic)
    (read : Nat → Nat → Nat → Option (List UInt8)) (blob : BlobGetArgs)
    (h : (getDataShardOnly rule writeOk written buf volume read blob).fastEnd =
      .needReconstructRead) :
    (getDataShardOnly rule writeOk written buf volume read blob).written = [] := by
  generalize hr : getDataShardOnly rule writeOk written buf volume read blob = r at h ⊢
  unfold getDataShardOnly at hr
  split at hr
  · subst hr; rfl
  split at hr
  · subst hr; rfl
  split at hr
  · subst hr; rfl
  dsimp only at hr
  split at hr
  · subst hr; rfl
  split at hr
  · subst hr; rfl
  split at hr
  · subst hr; rfl
  subst hr
  dsimp only at h
  split at h <;> cases h

theorem getDataShardOnly_spec (rule : BufferRule) (writeOk : Nat → Bool)
    (written : List (List UInt8)) (buf : Nat) (volume : Option Tactic)
    (read : Nat → Nat → Nat → Option (List UInt8)) (blob : BlobGetArgs) (data : List UInt8)
    (hblob : blob.offset + blob.readSize ≤ data.length)
    (hunits : ∀ t ∈ volume, ∀ sizes, rule.getBufferSizes blob.blobSize t = some sizes →
      ∀ i < t.n, ∀ off size d, read i off size = some d →
        d = ((dataShard data sizes.shardSize i).drop off).take size)
    {r : FastRun} (hr : getDataShardOnly rule writeOk written buf volume read blob = r) :
    r.written.flatten <+: blob.slice data ∧ (r.fastEnd = .ok → r.written.flatten = blob.slice data) ∧
      (r.fastEnd = .needReconstructRead → r.written = []) := by
  have hnil : ∀ e p, r = ⟨[], p, e⟩ → e ≠ .ok →
      r.written.flatten <+: blob.slice data ∧ (r.fastEnd = .ok → r.written.flatten = blob.slice data) ∧
        (r.fastEnd = .needReconstructRead → r.written = []) := by
    rintro e p rfl he
    exact ⟨List.nil_prefix, fun h => absurd h he, fun _ => rfl⟩
  unfold getDataShardOnly at hr
  split at hr
  · subst hr
    simp [BlobGetArgs.slice, *]
  split at hr
  · exact hnil _ _ hr.symm nofun
  rename_i t
  split at hr
  · exact hnil _ _ hr.symm nofun
  rename_i shardSize hS
  obtain ⟨sizes, hsizes, rfl⟩ := Option.map_eq_some'.mp hS
  dsimp only at hr
  split at hr
  · exact hnil _ _ hr.symm nofun
  split at hr
  · exact hnil _ _ hr.symm nofun
  rename_i dataBuf remainSize hrs
  split at hr
  · exact hnil _ _ hr.symm nofun
  subst hr
  have hpos := rule.shardSize_pos hsizes
  have hspec := readShards_spec (data ++ List.replicate (t.n * sizes.shardSize) 0)
    (fun i off size d hi hs hd => by
      rw [hunits t rfl sizes hsizes i hi off size d hd,
        dataShard_eq_padded data (K := t.n * sizes.shardSize)
          ((Nat.mul_le_mul_right _ hi).trans (Nat.le_add_left _ _)),
        List.drop_take, List.drop_drop, List.take_take, Nat.min_eq_left (by omega)])
    hpos _ _ _ _ _ _ _ (by omega) (Nat.mod_lt _ hpos) hrs
  rw [Nat.mul_comm, Nat.div_add_mod, Nat.eq_zero_of_not_pos ‹¬0 < remainSize›, Nat.sub_zero,
    List.nil_append] at hspec
  have hw : dataBuf.take blob.readSize = blob.slice data := by
    rw [hspec.1, List.take_take, Nat.min_self, slice_padded data _ hblob, BlobGetArgs.slice]
  simp only [List.flatten_singleton, hw]
  exact ⟨List.prefix_refl _, by simp, fun h => by split at h <;> cases h⟩

theorem map_data_take {sh : List Buf} {n : Nat} {f : Nat → List UInt8}
    (h : ∀ i < n, (sh[i]?).map Buf.data = some (f i)) :
    (sh.map Buf.data).take n = (List.range n).map f := by
  apply List.ext_getElem?
  intro j
  rw [List.getElem?_take, List.getElem?_map, List.getElem?_map]
  by_cases hj : j < n
  · rw [if_pos hj, h j hj, List.getElem?_range hj]; rfl
  · rw [if_neg hj, List.getElem?_eq_none (by simp; omega)]; rfl

theorem readOneBlob_slice (rule : BufferRule) (minReadShardsX : Nat)
    (enc : Nat × Nat → EncoderRule) (units : Nat × Nat → Nat → List UInt8) {blob : BlobGetArgs}
    {data : List UInt8} (hblob : blob.offset + blob.readSize ≤ data.length)
    (hsize : blob.blobSize = data.length) {v : VolumeCache}
    (hv : ∀ u ∈ v.sortedVuids, u.index < v.tactic.n + v.tactic.m) {sizes : BufferSizes}
    (hsz : rule.getBufferSizes blob.blobSize v.tactic = some sizes)
    (hunits : ∀ i < v.tactic.n, units (blob.vid, blob.bid) i = dataShard data sizes.shardSize i)
    (henc : Restores (enc (blob.vid, blob.bid)) v.tactic.n (dataShard data sizes.shardSize))
    {shards : List Buf} {nb₀ nb : Nat}
    (hf : FreshShards nb₀ (v.tactic.n + v.tactic.m) sizes.shardSize shards) {r : RState}
    (hr : ReadOneBlobRun minReadShardsX enc units blob v sizes shards nb r)
    (hrec : r.cons.reconstructed = true) :
    blob.offset + blob.readSize ≤ (r.cons.shards.map Buf.data).flatten.length ∧
      ((r.cons.shards.map Buf.data).flatten.drop blob.offset).take blob.readSize =
        blob.slice data := by
  have hS := rule.shardSize_pos hsz
  have hlen : shards.length = v.tactic.n + v.tactic.m := by
    simpa using congrArg List.length hf.1
  have hN : v.tactic.n ≤ v.tactic.n + v.tactic.m := Nat.le_add_right _ _
  have hE := fun i hi => (emptyDataShardIndexes_lt rule hsz (i := i) hi).1
  have hread : ∀ i d, shardReadOk units blob sizes.shardSize i d → i < v.tactic.n →
      d = dataShard data sizes.shardSize i := by
    rintro i d ⟨rfl, -⟩ hi
    rw [hunits i hi, List.take_of_length_le (by simp)]
  have hzero : ∀ i ∈ emptyDataShardIndexes sizes, i < v.tactic.n →
      (shards[i]?.map Buf.zero).map Buf.data = some (dataShard data sizes.shardSize i) := by
    intro i hi hin
    have hlt : i < shards.length := hlen ▸ Nat.lt_of_lt_of_le hin hN
    have hd := hf.2 _ (List.getElem_mem hlt)
    have hle : data.length ≤ i * sizes.shardSize := by
      have := ((mem_emptyDataShardIndexes_iff hS).mp hi).2
      rwa [rule.dataSize_eq hsz, hsize] at this
    simp [List.getElem?_eq_getElem hlt, Buf.zero, dataShard, List.drop_eq_nil_of_le hle,
      List.map_const', hd]
  have hdata := (DataInv.reach hread hzero hv hN (min_le_right _ _) hE hlen henc hr.1).reconstructed
    hrec
  have hcap : data.length ≤ v.tactic.n * sizes.shardSize := by
    rw [← hsize, ← rule.dataSize_eq hsz, ← rule.ecDataSize_eq hsz]
    exact rule.dataSize_le hsz
  have htake : (r.cons.shards.map Buf.data).take v.tactic.n =
      (List.range v.tactic.n).map (dataShard data sizes.shardSize) := map_data_take hdata
  have hflat : (r.cons.shards.map Buf.data).flatten =
      (data ++ List.replicate (v.tactic.n * sizes.shardSize) 0).take (v.tactic.n * sizes.shardSize) ++
        ((r.cons.shards.map Buf.data).drop v.tactic.n).flatten := by
    rw [← flatten_dataShards data (Nat.le_add_left _ _), ← htake, ← List.flatten_append,
      List.take_append_drop]
  have hX : ((data ++ List.replicate (v.tactic.n * sizes.shardSize) 0).take
      (v.tactic.n * sizes.shardSize)).length = v.tactic.n * sizes.shardSize := by
    simp only [List.length_take, List.length_append, List.length_replicate]
    omega
  rw [hflat, List.length_append, hX]
  refine ⟨by omega, ?_⟩
  rw [List.drop_append_of_le_length (by omega),
    List.take_append_of_le_length (by rw [List.length_drop]; omega), List.drop_take,
    List.take_take, Nat.min_eq_left (by omega), slice_padded data _ hblob, BlobGetArgs.slice]

end BlobStore.Access
