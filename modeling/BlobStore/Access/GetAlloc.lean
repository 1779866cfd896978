import BlobStore.Access.Get

/-! `Get` when `memPool.Alloc` (not in the sources) may fail: the pipeline drops the error and
keeps the nil buffer, and `readOneBlob` then reads every shard with `len(shards[0])` bytes. -/

namespace BlobStore.Access

/-- The matrix of a blob when an `Alloc` may fail: `none` keeps the nil buffer, `some d` is a
pool buffer holding `d`; buffers are numbered from `nextBuf`. -/
def allocMatrix (nextBuf : Nat) (outcomes : List (Option (List UInt8))) : List Buf :=
  outcomes.enum.map fun p => ⟨nextBuf + p.1, p.2.getD []⟩

/-- The allocations of the pool among them. -/
def allocEvents (nextBuf : Nat) (outcomes : List (Option (List UInt8))) : List PoolEvent :=
  outcomes.enum.filterMap fun p => p.2.map fun _ => .alloc (nextBuf + p.1)

/-- The outcomes of the `N + M` allocations of one matrix: each failed, or gave a buffer of
the shard size. -/
def AllocOutcomes (n shardSize : Nat) (outcomes : List (Option (List UInt8))) : Prop :=
  outcomes.length = n ∧ ∀ o ∈ outcomes, ∀ d ∈ o, d.length = shardSize

theorem snd_mem_of_mem_enum {α : Type} {l : List α} {p : Nat × α} (hp : p ∈ l.enum) :
    p.2 ∈ l := by
  obtain ⟨hi, he⟩ := List.mem_enum hp
  exact he ▸ List.getElem_mem hi

theorem freshShards_allocMatrix (nextBuf : Nat) {n shardSize : Nat}
    {outcomes : List (Option (List UInt8))}
    (h : AllocOutcomes n shardSize outcomes) (hok : ∀ o ∈ outcomes, o.isSome) :
    FreshShards nextBuf n shardSize (allocMatrix nextBuf outcomes) := by
  refine ⟨?_, fun b hb => ?_⟩
  · rw [allocMatrix, List.map_map, ← h.1]
    exact List.ext_get (by simp) fun i _ _ => by simp [List.getElem_range']
  · obtain ⟨⟨i, o⟩, hp, rfl⟩ := List.mem_map.mp hb
    have ho : o ∈ outcomes := snd_mem_of_mem_enum hp
    obtain ⟨d, rfl⟩ := Option.isSome_iff_exists.mp (hok o ho)
    exact h.2 _ ho d rfl

section

variable (rule : BufferRule) (locTactic : Tactic) (minReadShardsX : Nat)
  (layout : Nat → Tactic) (enc : Nat × Nat → EncoderRule)
  (units : Nat × Nat → Nat → List UInt8) (writeOk : Nat → Bool) (blobs : List BlobGetArgs)

/-- A call of `readOneBlob` for `blob` on the matrix `shards` that ran to a final state `r`,
every shard read being of `len(shards[0])` bytes. -/
def ReadOneBlobAllocRun (blob : BlobGetArgs) (v : VolumeCache) (sizes : BufferSizes)
    (shards : List Buf) (nextBuf : Nat) (r : RState) : Prop :=
  RReach (readCfg v.tactic minReadShardsX sizes v.sortedVuids) (enc (blob.vid, blob.bid))
    (shardReadOk units blob (shards.headD default).data.length) shards nextBuf r ∧ r.Final

/-- A step of `GStep`, or the read of a blob on a matrix whose allocations may have failed. -/
inductive AStep : GState → GState → Prop where
  | get {s s' : GState} :
      GStep rule locTactic minReadShardsX layout enc units writeOk blobs s s' → AStep s s'
  /-- `readOneBlob` returns nil: the line waits in the `select`. -/
  | readOk {s : GState} {k : Nat} {blob : BlobGetArgs} {v : VolumeCache} {sizes : BufferSizes}
      {outcomes : List (Option (List UInt8))} {r : RState} (hp : s.pipe = .read k)
      (hb : blobs[k]? = some blob) (hv : s.blobVolume = some v) (hvid : v.vid = blob.vid)
      (hsz : rule.getBufferSizes blob.blobSize v.tactic = some sizes)
      (ho : AllocOutcomes (v.tactic.n + v.tactic.m) sizes.shardSize outcomes)
      (hr : ReadOneBlobAllocRun minReadShardsX enc units blob v sizes
        (allocMatrix s.nextBuf outcomes) (s.nextBuf + (v.tactic.n + v.tactic.m)) r)
      (hrec : r.cons.reconstructed = true) :
      AStep s { s with
        pipe := .select k (.line blob r.cons.shards), nextBuf := r.nextBuf,
        pool := s.pool ++ allocEvents s.nextBuf outcomes ++ r.pool }
  /-- `readOneBlob` returns an error: the matrix's buffers go back, an error is sent. -/
  | readErr {s : GState} {k : Nat} {blob : BlobGetArgs} {v : VolumeCache} {sizes : BufferSizes}
      {outcomes : List (Option (List UInt8))} {r : RState} (hp : s.pipe = .read k)
      (hb : blobs[k]? = some blob) (hv : s.blobVolume = some v) (hvid : v.vid = blob.vid)
      (hsz : rule.getBufferSizes blob.blobSize v.tactic = some sizes)
      (ho : AllocOutcomes (v.tactic.n + v.tactic.m) sizes.shardSize outcomes)
      (hr : ReadOneBlobAllocRun minReadShardsX enc units blob v sizes
        (allocMatrix s.nextBuf outcomes) (s.nextBuf + (v.tactic.n + v.tactic.m)) r)
      (hrec : r.cons.reconstructed = false) :
      AStep s { s with
        pipe := .sendErr, nextBuf := r.nextBuf,
        pool := s.pool ++ allocEvents s.nextBuf outcomes ++ r.pool ++
          r.cons.shards.map fun b => .put b.id }

/-- The states of every run of a transfer function over `blobs` when allocations may fail. -/
inductive AReach (nextBuf : Nat) : GState → Prop where
  | init : AReach nextBuf (GState.init nextBuf)
  | step {s s' : GState} : AReach nextBuf s →
      AStep rule locTactic minReadShardsX layout enc units writeOk blobs s s' → AReach nextBuf s'

theorem GReach.areach {nextBuf : Nat} {s : GState}
    (h : GReach rule locTactic minReadShardsX layout enc units writeOk blobs nextBuf s) :
    AReach rule locTactic minReadShardsX layout enc units writeOk blobs nextBuf s := by
  induction h with
  | init => exact .init
  | step _ hs ih => exact .step ih (.get hs)

theorem allocEvents_of_isSome (nextBuf : Nat) {outcomes : List (Option (List UInt8))}
    (hok : ∀ o ∈ outcomes, o.isSome) :
    allocEvents nextBuf outcomes = (allocMatrix nextBuf outcomes).map fun b => .alloc b.id := by
  rw [allocEvents, allocMatrix, List.map_map, ← List.filterMap_eq_map]
  refine List.filterMap_congr fun p hp => ?_
  obtain ⟨d, hd⟩ := Option.isSome_iff_exists.mp (hok p.2 (snd_mem_of_mem_enum hp))
  simp [hd]

theorem GStep.of_allocOk {s : GState} {k : Nat} {blob : BlobGetArgs} {v : VolumeCache}
    {sizes : BufferSizes} {outcomes : List (Option (List UInt8))} {r : RState}
    (hp : s.pipe = .read k) (hb : blobs[k]? = some blob) (hv : s.blobVolume = some v)
    (hvid : v.vid = blob.vid) (hsz : rule.getBufferSizes blob.blobSize v.tactic = some sizes)
    (ho : AllocOutcomes (v.tactic.n + v.tactic.m) sizes.shardSize outcomes)
    (hok : ∀ o ∈ outcomes, o.isSome) (hnm : 0 < v.tactic.n + v.tactic.m)
    (hr : ReadOneBlobAllocRun minReadShardsX enc units blob v sizes
      (allocMatrix s.nextBuf outcomes) (s.nextBuf + (v.tactic.n + v.tactic.m)) r)
    (hrec : r.cons.reconstructed = true) :
    GStep rule locTactic minReadShardsX layout enc units writeOk blobs s { s with
      pipe := .select k (.line blob r.cons.shards), nextBuf := r.nextBuf,
      pool := s.pool ++ allocEvents s.nextBuf outcomes ++ r.pool } := by
  have hf := freshShards_allocMatrix s.nextBuf ho hok
  obtain ⟨b, bs, hbs⟩ := List.exists_cons_of_length_pos
    (show 0 < (allocMatrix s.nextBuf outcomes).length by simpa [allocMatrix, ho.1] using hnm)
  have hl : ((allocMatrix s.nextBuf outcomes).headD default).data.length = sizes.shardSize := by
    rw [hbs]
    exact hf.2 b (hbs ▸ List.mem_cons_self b bs)
  rw [allocEvents_of_isSome s.nextBuf hok]
  rw [ReadOneBlobAllocRun, hl] at hr
  exact .readOk hp hb hv hvid hsz hf hr hrec

end

/-- The volume of the run: three units, read in index order. -/
private def nilVolume : VolumeCache :=
  ⟨0, ⟨2, 1, 0⟩, [⟨0, 0, 0, ""⟩, ⟨1, 1, 1, ""⟩, ⟨2, 2, 2, ""⟩]⟩

private theorem nilFirst_readOneBlob (o₂ : Option (List UInt8)) :
    ∃ r, ReadOneBlobAllocRun 0 (fun _ => EncoderRule.refuse)
        (fun _ i => [[1], [2], [3]].getD i []) ⟨0, 0, 2, 0, 1⟩ nilVolume ⟨2, 2, 1⟩ (allocMatrix 0 [none, some [9], o₂]) 3 r ∧
      r.cons.reconstructed = true ∧
      r.cons.shards = [⟨3, []⟩, ⟨4, []⟩, ⟨2, o₂.getD []⟩] ∧ r.nextBuf = 5 ∧ r.pool = [.alloc 3, .put 0, .alloc 4, .put 1] :=
  ⟨_, ⟨.step (.step (.step (.step (.step (.step (.step .init (.window rfl Nat.zero_lt_two))
    (.window rfl Nat.one_lt_two))
    (.deliver 0 (.read []) (List.mem_cons_self 0 [1]) ⟨rfl, rfl⟩ rfl))
    (.deliver 1 (.read []) (List.mem_singleton_self 1) ⟨rfl, rfl⟩ rfl))
    (.stopped rfl (Nat.le_refl 2) (Nat.lt_succ_self 2) rfl rfl)) (.close rfl rfl))
    (.drainEnd rfl rfl rfl), ⟨rfl, rfl, rfl⟩⟩, rfl, rfl, rfl, rfl⟩

private theorem nilFirst_copy (o₂ : Option (List UInt8)) (ho₂ : ∀ d ∈ o₂, d.length = 1) :
    ∃ s, AReach BufferRule.even ⟨2, 1, 0⟩ 0 (fun _ => ⟨2, 1, 0⟩)
        (fun _ => EncoderRule.refuse) (fun _ i => [[1], [2], [3]].getD i []) (fun _ => true)
        [⟨0, 0, 2, 0, 1⟩] 0 s ∧
      s.pipe = .read 1 ∧ s.ch = [] ∧ s.chClosed = false ∧
      s.written = (copyLoop (fun _ => true) [[], [], o₂.getD []] 0 1 []).1 ∧
      s.cons = match (copyLoop (fun _ => true) [[], [], o₂.getD []] 0 1 []).2 with
        | .done => .recv
        | .writeErr => .done false
        | .panicked => .panicked := by
  obtain ⟨r, hr, hrec, hsh, -, -⟩ := nilFirst_readOneBlob o₂
  have ho : AllocOutcomes 3 1 [none, some [9], o₂] := ⟨rfl, fun o ho d hd => by
    simp only [List.mem_cons, List.mem_singleton, List.not_mem_nil, or_false] at ho
    rcases ho with rfl | rfl | rfl
    · cases hd
    · cases hd; rfl
    · exact ho₂ d hd⟩
  -- the pipeline starts, finds the volume, reads the blob and sends the line
  have g₀ : AReach BufferRule.even ⟨2, 1, 0⟩ 0 (fun _ => ⟨2, 1, 0⟩)
      (fun _ => EncoderRule.refuse) (fun _ i => [[1], [2], [3]].getD i []) (fun _ => true)
      [⟨0, 0, 2, 0, 1⟩] 0 _ :=
    .step (.step .init (.get (.general rfl fun _ h => by cases h; rfl)))
      (.get (.volume (k := 0) rfl rfl (fun c h => absurd h (Option.not_mem_none c))
        nilVolume.sortedVuids (by decide) (by decide)))
  have g := AReach.step (AReach.step g₀ (.readOk (k := 0) rfl rfl rfl rfl rfl ho hr hrec))
    (.get (.selectSend rfl rfl))
  rw [hsh] at g
  exact ⟨_, .step g (.get (.recvLine rfl rfl)), rfl, rfl, rfl, rfl, rfl⟩

/-- With the parity buffer's pool bytes `9`, the transfer function returns nil after writing `[9]`,
not the object's byte `1`; with its allocation failed, it panics. -/
theorem get_writes_stale_bytes_after_failed_alloc :
    get ⟨2, 2, [⟨0, 0, 1⟩]⟩ 1 0 true = (some [⟨0, 0, 2, 0, 1⟩], none) ∧
    fastPath BufferRule.even ⟨2, 1, 0⟩ ⟨0, 0, 2, 0, 1⟩ = false ∧
    (∃ s, AReach BufferRule.even ⟨2, 1, 0⟩ 0 (fun _ => ⟨2, 1, 0⟩) (fun _ => EncoderRule.refuse)
        (fun _ i => [[1], [2], [3]].getD i []) (fun _ => true) [⟨0, 0, 2, 0, 1⟩] 0 s ∧
      s.cons = .done true ∧ s.written = [[9]] ∧ ¬ s.written.flatten <+: ([1, 2].drop 0).take 1) ∧
    ∃ s, AReach BufferRule.even ⟨2, 1, 0⟩ 0 (fun _ => ⟨2, 1, 0⟩) (fun _ => EncoderRule.refuse)
        (fun _ i => [[1], [2], [3]].getD i []) (fun _ => true) [⟨0, 0, 2, 0, 1⟩] 0 s ∧
      s.cons = .panicked := by
  obtain ⟨s, hs, hp, hch, -, hw, hc⟩ := nilFirst_copy (some [9]) fun d h => by cases h; rfl
  obtain ⟨s', hs', -, -, -, -, hc'⟩ := nilFirst_copy none fun d h => by cases h
  -- the pipeline finds no further blob, and the consumer sees the channel closed
  have g := AReach.step (AReach.step hs (.get (.finish hp (Nat.le_refl 1))))
    (.get (.recvEnd (hc.trans rfl) hch rfl))
  have hw' : s.written = [[9]] := hw.trans rfl
  exact ⟨rfl, rfl, ⟨_, g, rfl, hw', by rw [hw']; decide⟩, s', hs', hc'.trans rfl⟩

end BlobStore.Access
