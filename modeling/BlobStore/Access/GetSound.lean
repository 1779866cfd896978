import BlobStore.Access.GetData

/-! What the caller of `Get` receives, over every interleaving of the pipeline and the transfer
function, every outcome of every read and any writer. -/

namespace BlobStore.Access

section

variable (rule : BufferRule) (locTactic : Tactic) (minReadShardsX : Nat)
  (layout : Nat → Tactic) (enc : Nat × Nat → EncoderRule)
  (units : Nat × Nat → Nat → List UInt8) (writeOk : Nat → Bool) (blobs : List BlobGetArgs)
  (tgt : BlobGetArgs → List UInt8)

/-- A line whose matrix holds the blob's asked-for bytes at `[Offset, Offset + ReadSize)`. -/
def LineOk (blob : BlobGetArgs) (shards : List Buf) : Prop :=
  blob.offset + blob.readSize ≤ (shards.map Buf.data).flatten.length ∧
    ((shards.map Buf.data).flatten.drop blob.offset).take blob.readSize = tgt blob

/-- Where the pipeline goroutine is, against what the consumer has taken: it reads the blob
after the ones it has sent, and holds a good line in its `select`. -/
def PipeInv (s : GState) : Prop :=
  match s.pipe with
  | .idle => s.ch = [] ∧ s.chClosed = false
  | .read k => k = s.copied + s.ch.length ∧ k ≤ blobs.length ∧ s.ch ≠ [.err] ∧ s.chClosed = false
  | .select k line => k = s.copied + s.ch.length ∧
      (∃ blob shards, blobs[k]? = some blob ∧ line = .line blob shards ∧ LineOk tgt blob shards) ∧
      s.ch ≠ [.err] ∧ s.chClosed = false
  | .sendErr => s.ch ≠ [.err] ∧ s.chClosed = false
  | .exited => True

/-- The invariant of the transfer function: what was written is the copied blobs' bytes, or a
prefix of them, and the channel holds the next blob's line. -/
structure GInv (s : GState) : Prop where
  written_init_seg : s.written.flatten <+: (blobs.map tgt).flatten
  recv : s.cons = .recv → s.written.flatten = ((blobs.take s.copied).map tgt).flatten
  start : s.cons = .start → s.written = [] ∧ s.copied = 0 ∧ s.pipe = .idle
  done_ok : s.cons = .done true → s.written.flatten = (blobs.map tgt).flatten
  closeCh : s.closeCh = true → s.cons = .done false
  ch : s.ch = [] ∨ s.ch = [.err] ∨
    ∃ blob shards, blobs[s.copied]? = some blob ∧ s.ch = [.line blob shards] ∧ LineOk tgt blob shards
  pipe : PipeInv blobs tgt s
  closed : s.chClosed = true → s.cons = .recv → s.ch = [.err] ∨ s.copied + s.ch.length = blobs.length
  volume : ∀ v ∈ s.blobVolume, v.tactic = layout v.vid ∧
    ∀ u ∈ v.sortedVuids, u.index < v.tactic.n + v.tactic.m

variable {rule locTactic minReadShardsX layout enc units writeOk blobs tgt}

theorem flatten_take_initial (j : Nat) :
    ((blobs.take j).map tgt).flatten <+: (blobs.map tgt).flatten := by
  conv => rhs; rw [← List.take_append_drop j blobs]
  rw [List.map_append, List.flatten_append]
  exact List.prefix_append _ _

theorem flatten_take_succ {j : Nat} {blob : BlobGetArgs} (h : blobs[j]? = some blob) :
    ((blobs.take (j + 1)).map tgt).flatten = ((blobs.take j).map tgt).flatten ++ tgt blob := by
  rw [List.take_succ, h, List.map_append, List.flatten_append]
  simp

theorem PipeInv.take {s s' : GState} (h : PipeInv blobs tgt s) (hne : s.ch ≠ [])
    (hp : s'.pipe = s.pipe) (hcl : s'.chClosed = s.chClosed) (hch : s'.ch = [])
    (hc : s.ch ≠ [.err] → s'.copied = s.copied + s.ch.length) : PipeInv blobs tgt s' := by
  unfold PipeInv at h ⊢
  rw [hp, hcl, hch]
  split at h
  · exact absurd h.1 hne
  · exact ⟨by rw [hc h.2.2.1]; exact h.1, h.2.1, nofun, h.2.2.2⟩
  · exact ⟨by rw [hc h.2.2.1]; exact h.1, h.2.1, nofun, h.2.2.2⟩
  · exact ⟨nofun, h.2⟩
  · trivial

theorem GInv.frame {s s' : GState} (h : GInv layout blobs tgt s) (hcons : s'.cons = s.cons)
    (hw : s'.written = s.written) (hcp : s'.copied = s.copied) (hcl : s'.closeCh = s.closeCh)
    (hstart : s.cons ≠ .start)
    (hch : s'.ch = [] ∨ s'.ch = [.err] ∨ ∃ blob shards, blobs[s'.copied]? = some blob ∧
      s'.ch = [.line blob shards] ∧ LineOk tgt blob shards)
    (hpipe : PipeInv blobs tgt s')
    (hclosed : s'.chClosed = true → s'.cons = .recv →
      s'.ch = [.err] ∨ s'.copied + s'.ch.length = blobs.length)
    (hv : ∀ v ∈ s'.blobVolume, v.tactic = layout v.vid ∧
      ∀ u ∈ v.sortedVuids, u.index < v.tactic.n + v.tactic.m) :
    GInv layout blobs tgt s' :=
  ⟨hw ▸ h.written_init_seg, by rw [hcons, hw, hcp]; exact h.recv,
    fun hc => absurd (hcons ▸ hc) hstart, by rw [hcons, hw]; exact h.done_ok,
    by rw [hcl, hcons]; exact h.closeCh, hch, hpipe, hclosed, hv⟩

theorem GInv.not_start {s : GState} (h : GInv layout blobs tgt s) (hp : s.pipe ≠ .idle) :
    s.cons ≠ .start :=
  fun hc => hp (h.start hc).2.2

theorem GInv.afterFast {s : GState} (h : GInv layout blobs tgt s) (hc : s.cons = .start)
    {blob : BlobGetArgs} (hb : blobs = [blob]) {r : FastRun}
    (h1 : r.written.flatten <+: tgt blob) (h2 : r.fastEnd = .ok → r.written.flatten = tgt blob)
    (h3 : r.fastEnd = .needReconstructRead → r.written = []) :
    GInv layout blobs tgt (s.afterFast r) := by
  obtain ⟨hw, hcp, hpi⟩ := h.start hc
  have hpinv := h.pipe
  simp only [PipeInv, hpi] at hpinv
  have hcl : s.closeCh = false :=
    Bool.eq_false_iff.mpr fun h' => by have := h.closeCh h'; rw [hc] at this; cases this
  have hall : (blobs.map tgt).flatten = tgt blob := by simp [hb]
  obtain ⟨w, p, fe⟩ := r
  dsimp only at h1 h2 h3
  cases fe
  all_goals
    refine ⟨by simpa [GState.afterFast, hw, hall] using h1, fun hr => ?_, nofun, fun hd => ?_,
      fun hcl' => by simp [GState.afterFast, hcl] at hcl', .inl hpinv.1, ?_, fun hcl' => ?_,
      h.volume⟩
  all_goals simp_all [GState.afterFast, PipeInv]

theorem GInv.copyLine {s : GState} (h : GInv layout blobs tgt s) (hc : s.cons = .recv)
    {blob : BlobGetArgs} {shards : List Buf} (hch : s.ch = [.line blob shards]) :
    GInv layout blobs tgt (s.copyLine writeOk blob shards) := by
  obtain ⟨hb, hl⟩ : blobs[s.copied]? = some blob ∧ LineOk tgt blob shards := by
    rcases h.ch with h' | h' | ⟨b', sh', hb', h', hl'⟩ <;> rw [hch] at h' <;> cases h'
    exact ⟨hb', hl'⟩
  obtain ⟨chunks, e1, e2, e3, e4⟩ := copyLoop_spec writeOk (shards.map Buf.data) blob.offset
    blob.readSize s.written hl.1
  rw [hl.2] at e2 e4
  have hpipe : PipeInv blobs tgt (s.copyLine writeOk blob shards) :=
    h.pipe.take (by rw [hch]; nofun) rfl rfl rfl fun _ => by rw [hch]; rfl
  have hsucc : ((blobs.take (s.copied + 1)).map tgt).flatten =
      ((blobs.take s.copied).map tgt).flatten ++ tgt blob := flatten_take_succ hb
  have hrecv := h.recv hc
  have hclosed := h.closed
  rw [hch] at hclosed
  unfold GState.copyLine at hpipe ⊢
  generalize copyLoop writeOk (shards.map Buf.data) blob.offset blob.readSize s.written = r
    at e1 e2 e3 e4 hpipe ⊢
  obtain ⟨w, e⟩ := r
  dsimp only at e1 e2 e3 e4 hpipe ⊢
  subst e1
  have hw : (s.written ++ chunks).flatten <+: ((blobs.take (s.copied + 1)).map tgt).flatten := by
    rw [List.flatten_append, hrecv, hsucc, List.prefix_append_right_inj]
    exact e2
  cases e
  · -- every `Write` returned nil
    have hw' : (s.written ++ chunks).flatten = ((blobs.take (s.copied + 1)).map tgt).flatten := by
      rw [List.flatten_append, hrecv, hsucc, e4 rfl]
    refine ⟨hw.trans (flatten_take_initial _), fun _ => hw', nofun, nofun, fun h' => ?_, .inl rfl,
      hpipe, fun h' _ => ?_, h.volume⟩
    · exact absurd (h.closeCh (by simpa using h')) (by rw [hc]; nofun)
    · rcases hclosed h' hc with h' | h'
      · cases h'
      · exact .inr h'
  · -- a `Write` failed: the consumer closes `closeCh` and returns the error
    exact ⟨hw.trans (flatten_take_initial _), nofun, nofun, by simp, fun _ => rfl, .inl rfl,
      hpipe, fun _ h' => (by cases h'), h.volume⟩
  · exact absurd rfl e3

variable (hline : ∀ {k : Nat} {blob : BlobGetArgs} {v : VolumeCache} {sizes : BufferSizes}
    {shards : List Buf} {nb₀ nb : Nat} {r : RState}, blobs[k]? = some blob → v.vid = blob.vid →
    v.tactic = layout v.vid → (∀ u ∈ v.sortedVuids, u.index < v.tactic.n + v.tactic.m) →
    rule.getBufferSizes blob.blobSize v.tactic = some sizes →
    FreshShards nb₀ (v.tactic.n + v.tactic.m) sizes.shardSize shards →
    ReadOneBlobRun minReadShardsX enc units blob v sizes shards nb r →
    r.cons.reconstructed = true → LineOk tgt blob r.cons.shards)
  (hfast : ∀ blob, blobs = [blob] → ∀ written buf volume read,
    (∀ t ∈ volume, t = layout blob.vid) → RangeReadOk units (blob.vid, blob.bid) read →
    ∀ r, getDataShardOnly rule writeOk written buf volume read blob = r →
      r.written.flatten <+: tgt blob ∧ (r.fastEnd = .ok → r.written.flatten = tgt blob) ∧
        (r.fastEnd = .needReconstructRead → r.written = []))

include hline hfast in
theorem GInv.step {s s' : GState}
    (hstep : GStep rule locTactic minReadShardsX layout enc units writeOk blobs s s')
    (h : GInv layout blobs tgt s) : GInv layout blobs tgt s' := by
  have hpipe := h.pipe
  cases hstep with
  | @fast blob hc hb _ volumeOk read hr =>
    obtain ⟨h1, h2, h3⟩ := hfast _ hb s.written s.nextBuf
      (if volumeOk then some (layout blob.vid) else none) read
      (fun t ht => by split at ht <;> cases ht; rfl) hr _ rfl
    exact h.afterFast hc hb h1 h2 h3
  | general hc =>
    obtain ⟨hw, hcp, hpi⟩ := h.start hc
    simp only [PipeInv, hpi] at hpipe
    refine ⟨h.written_init_seg, fun _ => by simp [hw, hcp], nofun, nofun, fun h' => ?_, h.ch,
      ⟨by simp [hcp, hpipe.1], Nat.zero_le _, by simp [hpipe.1], hpipe.2⟩,
      fun h' => absurd h' (by simp [hpipe.2]), h.volume⟩
    exact absurd (h.closeCh h') (by rw [hc]; nofun)
  | volume hp _ _ sortedVuids hs =>
    exact h.frame rfl rfl rfl rfl (h.not_start (by rw [hp]; nofun)) h.ch h.pipe h.closed
      fun v hv => by cases hv; exact ⟨rfl, hs⟩
  | volumeErr hp | readSizesErr hp | readErr hp =>
    simp only [PipeInv, hp] at hpipe
    exact h.frame rfl rfl rfl rfl (h.not_start (by rw [hp]; nofun)) h.ch hpipe.2.2 h.closed
      h.volume
  | readOk hp hb hv hvid hsz hf hr hrec =>
    simp only [PipeInv, hp] at hpipe
    obtain ⟨hvt, hvs⟩ := h.volume _ hv
    exact h.frame rfl rfl rfl rfl (h.not_start (by rw [hp]; nofun)) h.ch
      ⟨hpipe.1, ⟨_, _, hb, rfl, hline hb hvid hvt hvs hsz hf hr hrec⟩, hpipe.2.2⟩ h.closed h.volume
  | selectClosed hp hc =>
    exact h.frame rfl rfl rfl rfl (h.not_start (by rw [hp]; nofun)) h.ch trivial
      (fun _ hr => absurd (h.closeCh hc) (by rw [hr]; nofun)) h.volume
  | selectSend hp hch =>
    simp only [PipeInv, hp, hch, List.length_nil, Nat.add_zero] at hpipe
    obtain ⟨rfl, ⟨blob, shards, hb, rfl, hl⟩, -, hcl⟩ := hpipe
    have hk : s.copied < blobs.length := (List.getElem?_eq_some_iff.mp hb).1
    exact h.frame rfl rfl rfl rfl (h.not_start (by rw [hp]; nofun))
      (.inr (.inr ⟨blob, shards, hb, rfl, hl⟩)) ⟨rfl, hk, by simp, hcl⟩
      (fun h' => absurd h' (by simp [hcl])) h.volume
  | sendErr hp =>
    exact h.frame rfl rfl rfl rfl (h.not_start (by rw [hp]; nofun)) (.inr (.inl rfl)) trivial
      (fun _ _ => .inl rfl) h.volume
  | finish hp hk =>
    simp only [PipeInv, hp] at hpipe
    exact h.frame rfl rfl rfl rfl (h.not_start (by rw [hp]; nofun)) h.ch trivial
      (fun _ _ => .inr (by dsimp only; omega)) h.volume
  | recvErr hc hch =>
    refine ⟨h.written_init_seg, nofun, nofun, nofun, fun _ => rfl, .inl rfl,
      hpipe.take (by rw [hch]; nofun) rfl rfl rfl fun hne => absurd hch hne, nofun, h.volume⟩
  | recvLine hc hch => exact h.copyLine hc hch
  | recvEnd hc hch hcl =>
    have hall : s.copied = blobs.length := by
      rcases h.closed hcl hc with h' | h'
      · rw [hch] at h'; cases h'
      · simpa [hch] using h'
    refine ⟨h.written_init_seg, nofun, nofun, fun _ => ?_,
      fun h' => absurd (h.closeCh h') (by rw [hc]; nofun), h.ch, h.pipe, fun _ h' => (by cases h'),
      h.volume⟩
    rw [h.recv hc, hall, List.take_length]

include hline hfast in
theorem GInv.reach {nextBuf : Nat} {s : GState}
    (hr : GReach rule locTactic minReadShardsX layout enc units writeOk blobs nextBuf s) :
    GInv layout blobs tgt s := by
  induction hr with
  | init => exact ⟨List.nil_prefix, nofun, fun _ => ⟨rfl, rfl, rfl⟩, nofun, nofun, .inl rfl,
      ⟨rfl, rfl⟩, nofun, nofun⟩
  | step _ hstep ih => exact ih.step hline hfast hstep

end

theorem get_blobs_of_nil_error {location : Location} {readSize offset : Nat} {serviceOk : Bool}
    (hB : 0 < location.blobSize) (hsz : offset + readSize ≤ location.size)
    (h64 : location.size < 2 ^ 64) (hget : (get location readSize offset serviceOk).2 = none) :
    ¬ (0 < readSize ∧ location.ids.length * location.blobSize < offset + readSize) ∧
      (get location readSize offset serviceOk).1.getD [] =
        refFrom location.size location.blobSize offset readSize 0 location.ids := by
  rw [get, genLocationBlobs_eq location hB hsz h64] at hget ⊢
  by_cases hcov : 0 < readSize ∧ location.ids.length * location.blobSize < offset + readSize
  · rw [if_pos hcov] at hget; cases hget
  · rw [if_neg hcov] at hget ⊢
    refine ⟨hcov, ?_⟩
    generalize refFrom location.size location.blobSize offset readSize 0 location.ids = bl at hget ⊢
    cases bl with
    | nil => rfl
    | cons b bs => cases serviceOk <;> first | rfl | cases hget

/-- When `Get` returns nil, the range is empty with the no-op function, or every run writes a
prefix of `[offset, offset + readSize)` of the object, all of it when the function returns nil. -/
theorem get_transfer_writes_range (rule : BufferRule) (locTactic : Tactic) (minReadShardsX : Nat)
    (layout : Nat → Tactic) (enc : Nat × Nat → EncoderRule)
    (units : Nat × Nat → Nat → List UInt8) (writeOk : Nat → Bool) (nextBuf : Nat)
    (location : Location) (readSize offset : Nat) (serviceOk : Bool) (obj : List UInt8)
    (stored : Nat × Nat → List UInt8) (hB : 0 < location.blobSize)
    (hsz : offset + readSize ≤ location.size) (h64 : location.size < 2 ^ 64)
    (hobj : obj.length = location.size)
    (hst : ∀ k vb, location.ids[k]? = some vb → stored vb = blobData obj location.blobSize k)
    (hunits : ∀ vb sizes, rule.getBufferSizes (stored vb).length (layout vb.1) = some sizes →
      ∀ i < (layout vb.1).n, units vb i = dataShard (stored vb) sizes.shardSize i)
    (henc : ∀ vb sizes, rule.getBufferSizes (stored vb).length (layout vb.1) = some sizes →
      Restores (enc vb) (layout vb.1).n (dataShard (stored vb) sizes.shardSize))
    (hget : (get location readSize offset serviceOk).2 = none) :
    ((get location readSize offset serviceOk).1 = none → readSize = 0) ∧
    (∀ blobs, (get location readSize offset serviceOk).1 = some blobs →
      ∀ s, GReach rule locTactic minReadShardsX layout enc units writeOk blobs nextBuf s →
        s.written.flatten <+: (obj.drop offset).take readSize ∧
        (s.cons = .done true → s.written.flatten = (obj.drop offset).take readSize)) ∧
    (∀ written buf volume read blob,
      (getDataShardOnly rule writeOk written buf volume read blob).fastEnd = .needReconstructRead →
        (getDataShardOnly rule writeOk written buf volume read blob).written = []) := by
  obtain ⟨hcov, hblobs⟩ := get_blobs_of_nil_error hB hsz h64 hget
  have hst₀ : ∀ k vb, location.ids[k]? = some vb → stored vb = blobData obj location.blobSize (0 + k) :=
    fun k vb h => by rw [Nat.zero_add]; exact hst k vb h
  generalize hbl : refFrom location.size location.blobSize offset readSize 0 location.ids = bl at hblobs
  have hslices : (bl.map fun a => a.slice (stored (a.vid, a.bid))).flatten =
      (obj.drop offset).take readSize := by
    rw [← hbl, refFrom_slices hB obj stored location.ids hst₀, lo, Nat.zero_mul, Nat.max_zero,
      Nat.zero_add]
    congr 1
    omega
  refine ⟨fun hnone => ?_, fun blobs hb s hr => ?_, getDataShardOnly_needReconstructRead rule writeOk⟩
  · -- `func() error { return nil }` with a nil error: no blob, so nothing to read
    rw [hnone, Option.getD_none] at hblobs
    have hlen := congrArg List.length hslices
    simp only [← hblobs, List.map_nil, List.flatten_nil, List.length_nil, List.length_take,
      List.length_drop] at hlen
    omega
  · rw [hb, Option.getD_some] at hblobs
    subst hblobs
    have hmem := fun a (ha : a ∈ blobs) => refFrom_mem hsz obj hobj stored location.ids hst₀ (hbl ▸ ha)
    have hinv : GInv layout blobs (fun a => a.slice (stored (a.vid, a.bid))) s := GInv.reach
      (@fun k blob v sizes shards nb₀ nb r hk hvid hvt hvs hsize hf hrun hrec => by
        obtain ⟨-, hoff, hbs⟩ := hmem blob (List.getElem?_mem hk)
        have hvb : v.tactic = layout blob.vid := hvt.trans (congrArg layout hvid)
        have hsize' := hsize
        rw [hvb, hbs] at hsize'
        exact readOneBlob_slice rule minReadShardsX enc units (hbs ▸ hoff) hbs hvs hsize
          (fun i hi => hunits _ _ hsize' i (hvb ▸ hi)) (hvb ▸ henc _ _ hsize') hf hrun hrec)
      (fun blob hb written buf volume read hvol hread r hr' => by
        obtain ⟨-, hoff, hbs⟩ := hmem blob (by rw [hb]; exact List.mem_singleton_self _)
        refine getDataShardOnly_spec rule writeOk written buf volume read blob _ (hbs ▸ hoff)
          (fun t ht sizes hs i hi off size d hd => ?_) hr'
        rw [hvol t ht, hbs] at hs
        rw [(hread i off size d hd).1, hunits _ sizes hs i (hvol t ht ▸ hi)])
      hr
    rw [← hslices]
    exact ⟨hinv.written_init_seg, hinv.done_ok⟩

/-- The transfer function of a one-byte read of a one-blob object. -/
theorem get_transfer_one_byte :
    (get ⟨1, 1, [⟨0, 0, 1⟩]⟩ 1 0 true).1 = some [⟨0, 0, 1, 0, 1⟩] ∧
    ∀ s, GReach BufferRule.even ⟨1, 0, 0⟩ 0 (fun _ => ⟨1, 0, 0⟩) (fun _ => EncoderRule.refuse)
        (fun _ => dataShard [7] 1) (fun _ => true) [⟨0, 0, 1, 0, 1⟩] 0 s →
      s.written.flatten <+: ([7].drop 0).take 1 ∧
      (s.cons = .done true → s.written.flatten = ([7].drop 0).take 1) :=
  ⟨rfl, (get_transfer_writes_range BufferRule.even ⟨1, 0, 0⟩ 0 (fun _ => ⟨1, 0, 0⟩)
    (fun _ => EncoderRule.refuse) (fun _ => dataShard [7] 1) (fun _ => true) 0 ⟨1, 1, [⟨0, 0, 1⟩]⟩
    1 0 true [7] (fun _ => [7]) (by decide) (by decide) (by decide) rfl
    (fun k vb h => by
      cases k with
      | zero => rfl
      | succ k => simp [Location.ids, runIds] at h)
    (fun vb sizes h i _ => by simp only [BufferRule.even] at h; cases h; rfl)
    (fun _ _ _ _ _ h => Bool.noConfusion h) rfl).2.1 _ rfl⟩

/-- `Get` of a one-byte range its location has no blobs for returns an error and the no-op
transfer function, which writes nothing. -/
theorem get_error_transfer_writes_nothing :
    0 + 1 ≤ (⟨1, 1, []⟩ : Location).size ∧ 0 < (⟨1, 1, []⟩ : Location).blobSize ∧
      get ⟨1, 1, []⟩ 1 0 true = (none, some .illegalArguments) :=
  ⟨le_refl 1, Nat.one_pos, by decide⟩

end BlobStore.Access
