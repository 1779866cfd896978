import BlobStore.Access.ReadOneBlobSound

/-! What the data shards hold when `readOneBlob` returns nil: once `reconstructed` is set, the
first `N` buffers hold the units' bytes. -/

namespace BlobStore.Access

open Consumer

/-- `ReconstructData` returning nil has restored every data index listed as bad. -/
def Restores (enc : EncoderRule) (n : Nat) (want : Nat → List UInt8) : Prop :=
  ∀ shards badIdx, (enc.reconstructData shards badIdx).2 = true → ∀ i ∈ badIdx, i < n →
    ((enc.reconstructData shards badIdx).1[i]?).map Buf.data = some (want i)

theorem ShardRead.allowed_buffer {readOk : Nat → List UInt8 → Prop} {i id : Nat} {r : ShardRead}
    (h : r.Allowed readOk i) {b : Buf} (hb : r.buffer id = some b) : readOk i b.data := by
  cases r with
  | read data => cases hb; exact h
  | _ => cases hb

theorem lookup_of_not_mem_badData (cfg : ReadCfg) {r : AList (fun _ : Nat => Bool)} {i : Nat}
    (hi : i < cfg.dataN) (h : i ∉ badData cfg r) : r.lookup i = some true := by
  simpa [badData, isBad, hi] using h

section

variable (cfg : ReadCfg) (readOk : Nat → List UInt8 → Prop) (want : Nat → List UInt8)

/-- Every buffer the consumer took came from a read that returned its unit's bytes, and once
`reconstructed` is set the data indices of the matrix hold the data. -/
structure DataInv (s : RState) : Prop where
  consumed_ok : ∀ sd ∈ s.consumed, ∀ b, sd.buffer = some b → readOk sd.index b.data
  reconstructed : s.cons.reconstructed = true →
    ∀ i < cfg.dataN, (s.cons.shards[i]?).map Buf.data = some (want i)

variable {cfg readOk want} {shards₀ : List Buf}
variable (hread : ∀ i d, readOk i d → i < cfg.dataN → d = want i)
  (hzero : ∀ i ∈ cfg.empties, i < cfg.dataN →
    (shards₀[i]?.map Buf.zero).map Buf.data = some (want i))

include hread hzero in
theorem ConsInv.data {c : Consumer} {consumed : List ShardData} (h : ConsInv cfg shards₀ c consumed)
    (hc : ∀ sd ∈ consumed, ∀ b, sd.buffer = some b → readOk sd.index b.data) {i : Nat}
    (hi : i < cfg.dataN) (hok : c.received.lookup i = some true) :
    (c.shards[i]?).map Buf.data = some (want i) := by
  rcases h.ok_shard i hok with ⟨he, hs⟩ | ⟨b, hs, hm⟩
  · rw [hs]; exact hzero i he hi
  · rw [hs, Option.map_some', hread _ _ (hc _ hm b rfl) hi]

variable (hV : ∀ v ∈ cfg.sortedVuids, v.index < cfg.dataParityN)

include hread hzero hV in
theorem DataInv.receive {enc : EncoderRule} (henc : Restores enc cfg.dataN want) {s : RState}
    (h : DataInv cfg readOk want s) (hs : SoundInv cfg shards₀ s) {p : Nat} {r : ShardRead}
    (hp : p ∈ s.inflight) (hr : r.Allowed readOk (cfg.index p)) (hc : s.cons.pc = .receive) :
    DataInv cfg readOk want (s.receive cfg enc p r) := by
  have hidx : cfg.index p < cfg.dataParityN := by
    obtain ⟨v, hv, he⟩ := cfg.index_mem (hs.inflight_lt p hp)
    exact he ▸ hV v hv
  have hcons : ∀ sd ∈ s.consumed ++ [⟨cfg.index p, r.buffer s.nextBuf⟩], ∀ b,
      sd.buffer = some b → readOk sd.index b.data := by
    simp only [List.mem_append, List.mem_singleton]
    rintro sd (hsd | rfl) b hb
    exacts [h.consumed_ok sd hsd b hb, ShardRead.allowed_buffer hr hb]
  set taken := (s.cons.take ⟨cfg.index p, r.buffer s.nextBuf⟩).1
  have ht := hs.cons.take ⟨cfg.index p, r.buffer s.nextBuf⟩ hidx
  refine ⟨hcons, fun hrec i hi => ?_⟩
  rw [RState.receive_cons] at hrec ⊢
  rcases check_reconstructed cfg enc taken hrec with h' | h' | ⟨k, hk, hok⟩
  · -- the loop ran, so `reconstructed` was not set before
    rw [take_reconstructed, hs.live (by rw [hc]; nofun)] at h'
    cases h'
  · -- every data index is in
    rw [check_keeps_ok cfg enc taken ((badData_eq_nil cfg).mp h' i hi)]
    exact ht.data hread hzero hcons hi ((badData_eq_nil cfg).mp h' i hi)
  · -- the last call of `ReconstructData` returned nil
    obtain ⟨rfl, -, hsh⟩ := check_call cfg enc taken hk
    rw [hsh]
    by_cases hb : i ∈ badData cfg taken.received ++ badParity cfg taken.received
    · exact henc _ _ hok i hb hi
    · have hl := lookup_of_not_mem_badData cfg hi fun h => hb (List.mem_append_left _ h)
      rw [enc.keeps_good _ _ _ hb]
      exact ht.data hread hzero hcons hi hl

variable (hN : cfg.dataN ≤ cfg.dataParityN) (hW : cfg.minShardsRead ≤ cfg.sortedVuids.length)
  (hE : ∀ i ∈ cfg.empties, i < cfg.dataN) (hs : shards₀.length = cfg.dataParityN)

include hread hzero hV hN hW hE hs in
theorem DataInv.reach {enc : EncoderRule} (henc : Restores enc cfg.dataN want) {nextBuf : Nat}
    {s : RState} (hr : RReach cfg enc readOk shards₀ nextBuf s) : DataInv cfg readOk want s := by
  induction hr with
  | init => exact ⟨nofun, nofun⟩
  | step hr hstep ih =>
    have hsound := SoundInv.reach hN hV hW hE hs enc readOk hr
    cases hstep with
    | deliver p r hp hr' hc => exact ih.receive hread hzero hV henc hsound hp hr' hc
    | _ => exact ⟨ih.consumed_ok, ih.reconstructed⟩

end

end BlobStore.Access
