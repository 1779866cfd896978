import BlobStore.Access.Location
import BlobStore.Access.ReadOneBlob

/-! `Handler.Get`: `get` checks the range and cuts it into blobs; its transfer function runs the
fast path, or the pipeline goroutine and the consumer loop as a step relation on `GState`.
Unit `i` of blob `vb` stores `units vb i`, and the writer's `k`-th `Write` succeeds when
`writeOk k`. -/

namespace BlobStore.Access

/-- How the copy loop ends: `toReadSize` reached 0, a `Write` failed, or `line.shards[idx]`
was out of range (a panic). -/
inductive CopyEnd where
  | done
  | writeErr
  | panicked
  deriving DecidableEq, Repr

/-- The loop `for toReadSize > 0` of the consumer, over the shard buffers from `idx` on. Every
slice passed to `w.Write` is appended to `written`, whether the call fails or not. -/
def copyLoop (writeOk : Nat → Bool) :
    List (List UInt8) → Nat → Nat → List (List UInt8) → List (List UInt8) × CopyEnd
  | _, _, 0, written => (written, .done)
  | [], _, _ + 1, written => (written, .panicked)
  | buf :: bufs, off, toReadSize + 1, written =>
    if buf.length ≤ off then copyLoop writeOk bufs (off - buf.length) (toReadSize + 1) written
    else
      let toRead := min (toReadSize + 1) (buf.length - off)
      let written' := written ++ [(buf.drop off).take toRead]
      if writeOk written.length then copyLoop writeOk bufs 0 (toReadSize + 1 - toRead) written'
      else (written', .writeErr)

/-- Modelled from the spec: `ec.NewRangeBuffer` is not in `src/`. It lays the blob out over
the data shards as `GetBufferSizes` does, and its `DataBuf` has room for `[from, to)`. -/
def newRangeBuffer (rule : BufferRule) (blobSize : Nat) (t : Tactic) : Option Nat :=
  (rule.getBufferSizes blobSize t).map BufferSizes.shardSize

/-- The loop of `getDataShardOnly` over `Units[firstShardIdx:N]`; `read i off size` is the range
read of unit `i`, `none` on an error. -/
def readShards (read : Nat → Nat → Nat → Option (List UInt8)) (shardSize : Nat) :
    List Nat → Nat → Nat → List UInt8 → Option (List UInt8 × Nat)
  | [], _, remainSize, dataBuf => some (dataBuf, remainSize)
  | i :: is, shardOffset, remainSize, dataBuf =>
    if remainSize = 0 then some (dataBuf, remainSize)
    else
      let toReadSize := min remainSize (shardSize - shardOffset)
      match read i shardOffset toReadSize with
      | none => none
      | some d => readShards read shardSize is 0 (remainSize - toReadSize) (dataBuf ++ d)

/-- How `getDataShardOnly` returns. -/
inductive FastEnd where
  | ok
  | needReconstructRead
  /-- Any other error: of `getVolume`, of `NewRangeBuffer`, `"no enough data to read"`, or of
  the final `Write`. -/
  | err
  | panicked
  deriving DecidableEq, Repr

/-- What a call of `getDataShardOnly` did: the slices it passed to `w.Write`, its calls on
`memPool`, and how it returned. -/
structure FastRun where
  written : List (List UInt8)
  pool : List PoolEvent
  fastEnd : FastEnd

/-- `getDataShardOnly` for one blob; `volume` is what `getVolume` found, and `buf` the range
buffer's allocation. -/
def getDataShardOnly (rule : BufferRule) (writeOk : Nat → Bool) (written : List (List UInt8))
    (buf : Nat) (volume : Option Tactic) (read : Nat → Nat → Nat → Option (List UInt8))
    (blob : BlobGetArgs) : FastRun :=
  if blob.readSize = 0 then ⟨[], [], .ok⟩
  else match volume with
  | none => ⟨[], [], .err⟩
  | some t =>
    match newRangeBuffer rule blob.blobSize t with
    | none => ⟨[], [], .err⟩
    | some shardSize =>
      let firstShardIdx := blob.offset / shardSize
      let pool := [.alloc buf, .put buf]
      if t.n < firstShardIdx then ⟨[], pool, .panicked⟩
      else
        match readShards read shardSize (List.range' firstShardIdx (t.n - firstShardIdx))
            (blob.offset % shardSize) blob.readSize [] with
        | none => ⟨[], pool, .needReconstructRead⟩
        | some (dataBuf, remainSize) =>
          if 0 < remainSize then ⟨[], pool, .err⟩
          else ⟨[dataBuf.take blob.readSize], pool,
            if writeOk written.length then .ok else .err⟩

/-- `int(blob.BlobSize) <= sizes.ShardSize || blob.ReadSize < blob.BlobSize/4`, with the
sizes of the location's code mode; on an error of `GetBufferSizes` the sizes are zero. -/
def fastPath (rule : BufferRule) (t : Tactic) (blob : BlobGetArgs) : Bool :=
  blob.blobSize ≤ ((rule.getBufferSizes blob.blobSize t).getD default).shardSize ||
    blob.readSize < blob.blobSize / 4

/-- The errors `Get` itself returns. -/
inductive GetErr where
  /-- `errcode.ErrIllegalArguments`, when `genLocationBlobs` fails. -/
  | illegalArguments
  /-- The error of `GetServiceController` after its retries. -/
  | serviceController
  deriving DecidableEq, Repr

/-- The synchronous part of `Get`: the blobs to read (`none` for the no-op transfer function)
and the error `Get` returns. -/
def get (location : Location) (readSize offset : Nat) (serviceOk : Bool) :
    Option (List BlobGetArgs) × Option GetErr :=
  match genLocationBlobs location readSize offset with
  | .error _ => (none, some .illegalArguments)
  | .ok [] => (none, none)
  | .ok blobs => if serviceOk then (some blobs, none) else (none, some .serviceController)

/-- `pipeBuffer`: a blob with its shard matrix, or an error. -/
inductive PipeBuffer where
  | err
  | line (blob : BlobGetArgs) (shards : List Buf)

/-- Where the pipeline goroutine is: not started, at `blobs[k]`, in the `select` that sends its
line, about to send an error, or returned. -/
inductive PipePc where
  | idle
  | read (k : Nat)
  | select (k : Nat) (line : PipeBuffer)
  | sendErr
  | exited

/-- Where the transfer function is: before the fast path, in `for line := range pipeline`,
returned (`ok` for a nil error), or panicked. -/
inductive ConsPc where
  | start
  | recv
  | done (ok : Bool)
  | panicked
  deriving DecidableEq, Repr

/-- The volume the pipeline goroutine holds in `blobVolume`: its `Vid`, tactic and
`sortedVuids`. -/
structure VolumeCache where
  vid : Nat
  tactic : Tactic
  sortedVuids : List SortedVuid

structure GState where
  pipe : PipePc
  blobVolume : Option VolumeCache
  /-- The lines buffered in `ch` (capacity 1). -/
  ch : List PipeBuffer
  chClosed : Bool
  /-- `closeCh` is closed. -/
  closeCh : Bool
  cons : ConsPc
  /-- Every slice passed to `w.Write`, in order. -/
  written : List (List UInt8)
  pool : List PoolEvent
  /-- The buffer the next `memPool.Alloc` hands out. -/
  nextBuf : Nat
  /-- Ghost: the lines the consumer has copied. -/
  copied : Nat

namespace GState

def init (nextBuf : Nat) : GState :=
  ⟨.idle, none, [], false, false, .start, [], [], nextBuf, 0⟩

/-- The consumer copies a line and puts its buffers back; on a failed `Write` it closes
`closeCh` and returns the error. A panic in the copy loop skips the `Put` loop. -/
def copyLine (writeOk : Nat → Bool) (s : GState) (blob : BlobGetArgs) (shards : List Buf) :
    GState :=
  let r := copyLoop writeOk (shards.map Buf.data) blob.offset blob.readSize s.written
  { s with
    ch := [], written := r.1,
    pool := match r.2 with
      | .panicked => s.pool
      | _ => s.pool ++ shards.map fun b => .put b.id,
    copied := s.copied + 1, closeCh := s.closeCh || r.2 == .writeErr,
    cons := match r.2 with
      | .done => .recv
      | .writeErr => .done false
      | .panicked => .panicked }

/-- The transfer function after `getDataShardOnly` returned. -/
def afterFast (s : GState) (r : FastRun) : GState :=
  { s with
    written := s.written ++ r.written, pool := s.pool ++ r.pool, nextBuf := s.nextBuf + 1,
    cons := match r.fastEnd with
      | .ok => .done true
      | .needReconstructRead => .recv
      | .err => .done false
      | .panicked => .panicked,
    pipe := if r.fastEnd = .needReconstructRead then .read 0 else .idle }

end GState

/-- The `N + M` buffers the pipeline allocates for a blob: fresh allocations from `nextBuf`,
of the shard size, with whatever bytes the pool hands out. -/
def FreshShards (nextBuf n shardSize : Nat) (shards : List Buf) : Prop :=
  shards.map Buf.id = List.range' nextBuf n ∧ ∀ b ∈ shards, b.data.length = shardSize

/-- A range read of unit `i` of blob `vb` returns exactly the stored bytes, or fails. -/
def RangeReadOk (units : Nat × Nat → Nat → List UInt8) (vb : Nat × Nat)
    (read : Nat → Nat → Nat → Option (List UInt8)) : Prop :=
  ∀ i off size d, read i off size = some d →
    d = ((units vb i).drop off).take size ∧ d.length = size

section

variable (rule : BufferRule) (locTactic : Tactic) (minReadShardsX : Nat)
  (layout : Nat → Tactic) (enc : Nat × Nat → EncoderRule)
  (units : Nat × Nat → Nat → List UInt8) (writeOk : Nat → Bool) (blobs : List BlobGetArgs)

/-- The shard size the pipeline allocates for a blob: `ShardSize` of `GetBufferSizes`, zero
when it fails. -/
def allocSize (blob : BlobGetArgs) (t : Tactic) : Nat :=
  ((rule.getBufferSizes blob.blobSize t).getD default).shardSize

/-- What a whole-shard read of unit `i` of a blob may return: the shard's stored bytes. -/
def shardReadOk (blob : BlobGetArgs) (shardSize i : Nat) (d : List UInt8) : Prop :=
  d = (units (blob.vid, blob.bid) i).take shardSize ∧ d.length = shardSize

/-- A call of `readOneBlob` for `blob` on the matrix `shards` that ran to a final state `r`. -/
def ReadOneBlobRun (blob : BlobGetArgs) (v : VolumeCache) (sizes : BufferSizes)
    (shards : List Buf) (nextBuf : Nat) (r : RState) : Prop :=
  RReach (readCfg v.tactic minReadShardsX sizes v.sortedVuids) (enc (blob.vid, blob.bid))
    (shardReadOk units blob sizes.shardSize) shards nextBuf r ∧ r.Final

/-- `blobVolume == nil || blobVolume.Vid != blob.Vid`. -/
def needVolume (v : Option VolumeCache) (vid : Nat) : Prop :=
  ∀ c ∈ v, c.vid ≠ vid

/-- One step of the transfer function or of the pipeline goroutine. -/
inductive GStep : GState → GState → Prop where
  /-- One blob that takes the fast path: `getDataShardOnly` runs to its end. -/
  | fast {s : GState} {blob : BlobGetArgs} (hc : s.cons = .start) (hb : blobs = [blob])
      (hf : fastPath rule locTactic blob = true) (volumeOk : Bool)
      (read : Nat → Nat → Nat → Option (List UInt8))
      (hr : RangeReadOk units (blob.vid, blob.bid) read) :
      GStep s (s.afterFast (getDataShardOnly rule writeOk s.written s.nextBuf
        (if volumeOk then some (layout blob.vid) else none) read blob))
  | general {s : GState} (hc : s.cons = .start)
      (hf : ∀ blob, blobs = [blob] → fastPath rule locTactic blob = false) :
      GStep s { s with cons := .recv, pipe := .read 0 }
  /-- `getVolume` and `genSortedVuidByIDC` for a blob of another volume. -/
  | volume {s : GState} {k : Nat} {blob : BlobGetArgs} (hp : s.pipe = .read k)
      (hb : blobs[k]? = some blob) (hv : needVolume s.blobVolume blob.vid)
      (sortedVuids : List SortedVuid)
      (hs : ∀ u ∈ sortedVuids, u.index < (layout blob.vid).n + (layout blob.vid).m)
      (hn : (layout blob.vid).n ≤ sortedVuids.length) :
      GStep s { s with blobVolume := some ⟨blob.vid, layout blob.vid, sortedVuids⟩ }
  /-- `getVolume` fails, or fewer than `N` units have a host: `"broken blob"`. -/
  | volumeErr {s : GState} {k : Nat} {blob : BlobGetArgs} (hp : s.pipe = .read k)
      (hb : blobs[k]? = some blob) (hv : needVolume s.blobVolume blob.vid) :
      GStep s { s with pipe := .sendErr }
  /-- `GetBufferSizes` fails inside `readOneBlob`: the shards go back, an error is sent. -/
  | readSizesErr {s : GState} {k : Nat} {blob : BlobGetArgs} {v : VolumeCache}
      {shards : List Buf} (hp : s.pipe = .read k) (hb : blobs[k]? = some blob)
      (hv : s.blobVolume = some v) (hvid : v.vid = blob.vid)
      (hsz : rule.getBufferSizes blob.blobSize v.tactic = none)
      (hf : FreshShards s.nextBuf (v.tactic.n + v.tactic.m) 0 shards) :
      GStep s { s with
        pipe := .sendErr, nextBuf := s.nextBuf + (v.tactic.n + v.tactic.m),
        pool := s.pool ++ shards.map (fun b => .alloc b.id) ++ shards.map fun b => .put b.id }
  /-- `readOneBlob` reconstructs the blob: the line waits in the `select`. -/
  | readOk {s : GState} {k : Nat} {blob : BlobGetArgs} {v : VolumeCache} {sizes : BufferSizes}
      {shards : List Buf} {r : RState} (hp : s.pipe = .read k) (hb : blobs[k]? = some blob)
      (hv : s.blobVolume = some v) (hvid : v.vid = blob.vid)
      (hsz : rule.getBufferSizes blob.blobSize v.tactic = some sizes)
      (hf : FreshShards s.nextBuf (v.tactic.n + v.tactic.m) sizes.shardSize shards)
      (hr : ReadOneBlobRun minReadShardsX enc units blob v sizes shards
        (s.nextBuf + (v.tactic.n + v.tactic.m)) r)
      (hrec : r.cons.reconstructed = true) :
      GStep s { s with
        pipe := .select k (.line blob r.cons.shards), nextBuf := r.nextBuf,
        pool := s.pool ++ shards.map (fun b => .alloc b.id) ++ r.pool }
  /-- `readOneBlob` fails: the matrix's buffers go back, an error is sent. -/
  | readErr {s : GState} {k : Nat} {blob : BlobGetArgs} {v : VolumeCache} {sizes : BufferSizes}
      {shards : List Buf} {r : RState} (hp : s.pipe = .read k) (hb : blobs[k]? = some blob)
      (hv : s.blobVolume = some v) (hvid : v.vid = blob.vid)
      (hsz : rule.getBufferSizes blob.blobSize v.tactic = some sizes)
      (hf : FreshShards s.nextBuf (v.tactic.n + v.tactic.m) sizes.shardSize shards)
      (hr : ReadOneBlobRun minReadShardsX enc units blob v sizes shards
        (s.nextBuf + (v.tactic.n + v.tactic.m)) r)
      (hrec : r.cons.reconstructed = false) :
      GStep s { s with
        pipe := .sendErr, nextBuf := r.nextBuf,
        pool := s.pool ++ shards.map (fun b => .alloc b.id) ++ r.pool ++
          r.cons.shards.map fun b => .put b.id }
  /-- The `select` sees `closeCh` closed and returns. -/
  | selectClosed {s : GState} {k : Nat} {line : PipeBuffer} (hp : s.pipe = .select k line)
      (hc : s.closeCh = true) :
      GStep s { s with pipe := .exited, chClosed := true }
  | selectSend {s : GState} {k : Nat} {line : PipeBuffer} (hp : s.pipe = .select k line)
      (hch : s.ch = []) :
      GStep s { s with pipe := .read (k + 1), ch := [line] }
  | sendErr {s : GState} (hp : s.pipe = .sendErr) (hch : s.ch = []) :
      GStep s { s with pipe := .exited, ch := [.err], chClosed := true }
  | finish {s : GState} {k : Nat} (hp : s.pipe = .read k) (hk : blobs.length ≤ k) :
      GStep s { s with pipe := .exited, chClosed := true }
  | recvErr {s : GState} (hc : s.cons = .recv) (hch : s.ch = [.err]) :
      GStep s { s with ch := [], cons := .done false }
  | recvLine {s : GState} {blob : BlobGetArgs} {shards : List Buf} (hc : s.cons = .recv)
      (hch : s.ch = [.line blob shards]) :
      GStep s (s.copyLine writeOk blob shards)
  | recvEnd {s : GState} (hc : s.cons = .recv) (hch : s.ch = []) (hcl : s.chClosed = true) :
      GStep s { s with cons := .done true }

/-- The states of every run of a transfer function over `blobs`. -/
inductive GReach (nextBuf : Nat) : GState → Prop where
  | init : GReach nextBuf (GState.init nextBuf)
  | step {s s' : GState} : GReach nextBuf s →
      GStep rule locTactic minReadShardsX layout enc units writeOk blobs s s' → GReach nextBuf s'

theorem GStep.not_of_done {s s' : GState} {ok : Bool} (hc : s.cons = .done ok)
    (hp : s.pipe = .exited) :
    ¬ GStep rule locTactic minReadShardsX layout enc units writeOk blobs s s' := by
  intro h
  cases h <;> simp_all

end

/-- The volume of the run: one unit, of index 0. -/
private def leakVolume : VolumeCache := ⟨0, ⟨1, 0, 0⟩, [⟨0, 0, 0, ""⟩]⟩

private theorem leak_readOneBlob (bid buf : Nat) :
    ∃ r, ReadOneBlobRun 0 (fun _ => EncoderRule.refuse) (fun _ _ => [7]) ⟨0, bid, 1, 0, 1⟩
        leakVolume ⟨1, 1, 1⟩ [⟨buf, [0]⟩] (buf + 1) r ∧ r.cons.reconstructed = true ∧
      r.cons.shards = [⟨buf + 1, [7]⟩] ∧ r.nextBuf = buf + 2 ∧
      r.pool = [.alloc (buf + 1), .put buf] :=
  ⟨_, ⟨.step (.step (.step (.step (.step .init (.window rfl Nat.zero_lt_one))
    (.loopEnd rfl (Nat.le_refl 1) (Nat.le_refl 1)))
    (.deliver 0 (.read [7]) (List.mem_singleton_self 0) ⟨rfl, rfl⟩ rfl))
    (.close rfl rfl)) (.drainEnd rfl rfl rfl), ⟨rfl, rfl, rfl⟩⟩, rfl, rfl, rfl, rfl⟩

/-- `Get` of two one-byte blobs with a writer that fails at once: every goroutine returns while
buffer 3 of the second blob is never put back. -/
theorem get_pipeline_leaks_after_write_error :
    get ⟨2, 1, [⟨0, 0, 2⟩]⟩ 2 0 true = (some [⟨0, 0, 1, 0, 1⟩, ⟨0, 1, 1, 0, 1⟩], none) ∧
    ∃ s, GReach BufferRule.even ⟨1, 0, 0⟩ 0 (fun _ => ⟨1, 0, 0⟩) (fun _ => EncoderRule.refuse)
        (fun _ _ => [7]) (fun _ => false) [⟨0, 0, 1, 0, 1⟩, ⟨0, 1, 1, 0, 1⟩] 0 s ∧
      s.cons = .done false ∧
      (∀ s', ¬ GStep BufferRule.even ⟨1, 0, 0⟩ 0 (fun _ => ⟨1, 0, 0⟩) (fun _ => EncoderRule.refuse)
        (fun _ _ => [7]) (fun _ => false) [⟨0, 0, 1, 0, 1⟩, ⟨0, 1, 1, 0, 1⟩] s s') ∧
      PoolEvent.alloc 3 ∈ s.pool ∧ PoolEvent.put 3 ∉ s.pool := by
  obtain ⟨r₁, hr₁, hrec₁, hsh₁, hnb₁, hpool₁⟩ := leak_readOneBlob 0 0
  obtain ⟨r₂, hr₂, hrec₂, hsh₂, hnb₂, hpool₂⟩ := leak_readOneBlob 1 2
  -- the pipeline starts, finds the volume and reads the first blob
  have g₁ : GReach BufferRule.even ⟨1, 0, 0⟩ 0 (fun _ => ⟨1, 0, 0⟩) (fun _ => EncoderRule.refuse)
      (fun _ _ => [7]) (fun _ => false) [⟨0, 0, 1, 0, 1⟩, ⟨0, 1, 1, 0, 1⟩] 0 _ :=
    .step (.step (.step .init (.general rfl fun _ h => by simp at h))
      (.volume (k := 0) rfl (show [_, _][0]? = some ⟨0, 0, 1, 0, 1⟩ from rfl)
        (fun c h => absurd h (Option.not_mem_none c))
        leakVolume.sortedVuids (by decide) (Nat.le_refl 1)))
      (.readOk rfl (show [_, _][0]? = some ⟨0, 0, 1, 0, 1⟩ from rfl) rfl rfl rfl
        (by exact ⟨rfl, by simp⟩) hr₁ hrec₁)
  rw [hsh₁, hnb₁, hpool₁] at g₁
  -- it sends the first line and reads the second blob
  have g₂ := GReach.step (GReach.step g₁ (.selectSend rfl rfl))
    (.readOk rfl (show [_, _][1]? = some ⟨0, 1, 1, 0, 1⟩ from rfl) rfl rfl rfl
      (by exact ⟨rfl, by simp⟩) hr₂ hrec₂)
  rw [hsh₂, hnb₂, hpool₂] at g₂
  -- the consumer's write fails; the pipeline's select then sees closeCh closed
  have g₃ := GReach.step (GReach.step g₂ (.recvLine rfl rfl)) (.selectClosed rfl rfl)
  exact ⟨rfl, _, g₃, rfl, fun _ => GStep.not_of_done _ _ _ _ _ _ _ _ rfl rfl, by decide,
    by decide⟩

end BlobStore.Access
