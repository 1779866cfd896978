import Mathlib

/-! The data of the read path of `access/stream_get.go`: code tactics, EC buffer sizes, shard
buffers and their outcomes. A shard buffer is the identity of its `memPool.Alloc` and its bytes. -/

namespace BlobStore.Access

/-- `codemode.Tactic`, with the counts the read path uses. -/
structure Tactic where
  n : Nat
  m : Nat
  l : Nat
  deriving DecidableEq, Repr

/-- `ec.BufferSizes`; the zero value is what `sizes, _ := ec.GetBufferSizes(...)` keeps on an
error. -/
structure BufferSizes where
  dataSize : Nat
  ecDataSize : Nat
  shardSize : Nat
  deriving DecidableEq, Repr, Inhabited

/-- `ec.GetBufferSizes` (not in the sources), modelled from the spec: a positive shard size and
data shards with room for the whole blob. -/
structure BufferRule where
  getBufferSizes : Nat → Tactic → Option BufferSizes
  shardSize_pos : ∀ {size t s}, getBufferSizes size t = some s → 0 < s.shardSize
  dataSize_eq : ∀ {size t s}, getBufferSizes size t = some s → s.dataSize = size
  ecDataSize_eq : ∀ {size t s}, getBufferSizes size t = some s → s.ecDataSize = t.n * s.shardSize
  dataSize_le : ∀ {size t s}, getBufferSizes size t = some s → s.dataSize ≤ s.ecDataSize

/-- One rule that meets the contract: the blob is spread evenly over the `N` data shards,
`ShardSize = ⌈size / N⌉`. -/
def BufferRule.even : BufferRule where
  getBufferSizes size t :=
    if 0 < size ∧ 0 < t.n then
      some ⟨size, t.n * ((size + t.n - 1) / t.n), (size + t.n - 1) / t.n⟩
    else none
  shardSize_pos {size t s} h := by
    dsimp only at h
    split at h
    · cases h; exact Nat.div_pos (by omega) (by omega)
    · cases h
  dataSize_eq {size t s} h := by dsimp only at h; split at h <;> cases h; rfl
  ecDataSize_eq {size t s} h := by dsimp only at h; split at h <;> cases h; rfl
  dataSize_le {size t s} h := by
    dsimp only at h
    split at h
    · cases h
      have := Nat.div_add_mod (size + t.n - 1) t.n
      have := Nat.mod_lt (size + t.n - 1) (show 0 < t.n by omega)
      dsimp only
      omega
    · cases h

/-- A `[]byte` from `memPool`: the allocation it came from and its bytes. -/
structure Buf where
  id : Nat
  data : List UInt8
  deriving DecidableEq, Repr, Inhabited

/-- `memPool.Zero(buf)`. -/
def Buf.zero (b : Buf) : Buf := { b with data := b.data.map fun _ => 0 }

/-- A call on `memPool`, by the allocation it concerns. -/
inductive PoolEvent where
  | alloc (id : Nat)
  | put (id : Nat)
  deriving DecidableEq, Repr

/-- `sortedVuid`: the unit at position `index` of the volume, and where to read it. -/
structure SortedVuid where
  index : Nat
  vuid : Nat
  diskID : Nat
  host : String
  deriving DecidableEq, Repr

/-- `shardData`: the outcome of one shard read; `status` is `buffer.isSome`. -/
structure ShardData where
  index : Nat
  buffer : Option Buf
  deriving DecidableEq, Repr

/-- `emptyDataShardIndexes`: the data shards from `⌈DataSize / ShardSize⌉` up to
`ECDataSize / ShardSize`, which hold only the zero padding. -/
def emptyDataShardIndexes (sizes : BufferSizes) : List Nat :=
  let firstEmptyIdx := (sizes.dataSize + sizes.shardSize - 1) / sizes.shardSize
  let n := sizes.ecDataSize / sizes.shardSize
  if n ≤ firstEmptyIdx then [] else List.range' firstEmptyIdx (n - firstEmptyIdx)

theorem mem_emptyDataShardIndexes {sizes : BufferSizes} {i : Nat} :
    i ∈ emptyDataShardIndexes sizes ↔
      (sizes.dataSize + sizes.shardSize - 1) / sizes.shardSize ≤ i ∧
        i < sizes.ecDataSize / sizes.shardSize := by
  unfold emptyDataShardIndexes; dsimp only
  split <;> simp only [List.not_mem_nil, false_iff, not_and, not_lt, List.mem_range'_1] <;> omega

theorem mem_emptyDataShardIndexes_iff {sizes : BufferSizes} (hS : 0 < sizes.shardSize)
    {i : Nat} : i ∈ emptyDataShardIndexes sizes ↔
      i < sizes.ecDataSize / sizes.shardSize ∧ sizes.dataSize ≤ i * sizes.shardSize := by
  rw [mem_emptyDataShardIndexes, and_comm, ← Nat.lt_succ_iff, Nat.div_lt_iff_lt_mul hS,
    Nat.succ_mul]
  exact and_congr_right fun _ => by omega

theorem emptyDataShardIndexes_nodup (sizes : BufferSizes) : (emptyDataShardIndexes sizes).Nodup := by
  unfold emptyDataShardIndexes; dsimp only; split
  · exact List.nodup_nil
  · exact List.nodup_range' _ _

theorem emptyDataShardIndexes_lt (r : BufferRule) {size : Nat} {t : Tactic} {sizes : BufferSizes}
    (h : r.getBufferSizes size t = some sizes) {i : Nat} (hi : i ∈ emptyDataShardIndexes sizes) :
    i < t.n ∧ (0 < size → 0 < i) := by
  have hs := r.shardSize_pos h
  have he := r.ecDataSize_eq h
  have hd := r.dataSize_eq h
  rw [mem_emptyDataShardIndexes, he, Nat.mul_div_cancel _ hs] at hi
  exact ⟨hi.2, fun hp => lt_of_lt_of_le (Nat.div_pos (by omega) hs) (hd ▸ hi.1)⟩

theorem emptyDataShardIndexes_length_lt (r : BufferRule) {size : Nat} {t : Tactic}
    {sizes : BufferSizes} (h : r.getBufferSizes size t = some sizes) (hsize : 0 < size) :
    (emptyDataShardIndexes sizes).length < t.n := by
  have hn : 0 < t.n := by
    have := r.dataSize_le h
    rw [r.dataSize_eq h, r.ecDataSize_eq h] at this
    exact Nat.pos_of_ne_zero fun h0 => by rw [h0, Nat.zero_mul] at this; omega
  have hsub : emptyDataShardIndexes sizes ⊆ List.range' 1 (t.n - 1) := fun i hi => by
    have := emptyDataShardIndexes_lt r h hi
    rw [List.mem_range'_1]
    omega
  have := (List.subperm_of_subset (emptyDataShardIndexes_nodup sizes) hsub).length_le
  rw [List.length_range'] at this
  omega

end BlobStore.Access
