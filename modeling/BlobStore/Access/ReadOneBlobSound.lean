import BlobStore.Access.ReadOneBlob

/-! What every run of `readOneBlob` keeps true of `received`, the shard matrix and the calls of
`ReconstructData`, whatever each read returns and in whatever order. -/

namespace BlobStore.Access

open Consumer

theorem length_filter_ok {r : AList (fun _ : Nat => Bool)} {n : Nat} (hk : ∀ i ∈ r, i < n) :
    ((List.range n).filter (fun i => !isBad r i)).length + badShards r = r.entries.length := by
  have hperm : List.Perm ((List.range n).filter (fun i => !isBad r i))
      ((r.entries.filter (·.2)).map Sigma.fst) := by
    refine (List.perm_ext_iff_of_nodup ((List.nodup_range n).filter _)
      (((List.filter_sublist _).map Sigma.fst).nodup r.nodupKeys)).mpr fun i => ?_
    simp only [List.mem_filter, List.mem_range, isBad, bne_iff_ne, ne_eq, Bool.not_eq_true',
      Bool.not_eq_false', List.mem_map]
    constructor
    · rintro ⟨-, hi⟩
      exact ⟨⟨i, true⟩, ⟨AList.mem_lookup_iff.mp (by simpa using hi), rfl⟩, rfl⟩
    · rintro ⟨⟨j, b⟩, ⟨hm, hb⟩, rfl⟩
      have hl := AList.mem_lookup_iff.mpr hm
      simp only at hb hl
      subst hb
      exact ⟨hk j (AList.lookup_isSome.mp (by simp [Option.mem_def.mp hl])), by simpa using hl⟩
  rw [hperm.length_eq, List.length_map, badShards]
  exact (List.length_eq_length_filter_add _).symm

section

variable (cfg : ReadCfg) (shards₀ : List Buf)

/-- The consumer's map and matrix: keys are stripe indices, the matrix keeps its `N + M` buffers,
and an index received ok holds a zeroed empty shard or what a read of that unit returned. -/
structure ConsInv (c : Consumer) (consumed : List ShardData) : Prop where
  keys_lt : ∀ i ∈ c.received, i < cfg.dataParityN
  length_shards : c.shards.length = cfg.dataParityN
  ok_shard : ∀ i, c.received.lookup i = some true →
    (i ∈ cfg.empties ∧ c.shards[i]? = shards₀[i]?.map Buf.zero) ∨
    ∃ b, c.shards[i]? = some b ∧ ⟨i, some b⟩ ∈ consumed

variable {cfg shards₀}

theorem ConsInv.take {c : Consumer} {consumed : List ShardData}
    (h : ConsInv cfg shards₀ c consumed) (sd : ShardData) (hi : sd.index < cfg.dataParityN) :
    ConsInv cfg shards₀ (c.take sd).1 (consumed ++ [sd]) := by
  have keys : ∀ (b : Bool), ∀ j ∈ c.received.insert sd.index b, j < cfg.dataParityN := by
    intro b j hj
    rcases (AList.mem_insert _).mp hj with rfl | hj
    exacts [hi, h.keys_lt j hj]
  have old : ∀ j, j ≠ sd.index → c.received.lookup j = some true →
      (j ∈ cfg.empties ∧ c.shards[j]? = shards₀[j]?.map Buf.zero) ∨
      ∃ b, c.shards[j]? = some b ∧ ⟨j, some b⟩ ∈ consumed ++ [sd] := fun j _ hj =>
    (h.ok_shard j hj).imp_right fun ⟨b, hb, hm⟩ => ⟨b, hb, List.mem_append_left _ hm⟩
  obtain ⟨i, _ | b⟩ := sd
  · refine ⟨keys false, h.length_shards, fun j hj => ?_⟩
    have hji : j ≠ i := by rintro rfl; simp [AList.lookup_insert] at hj
    simp only [take_none, AList.lookup_insert_ne hji] at hj ⊢
    exact old j hji hj
  · refine ⟨keys true, by simpa using h.length_shards, fun j hj => ?_⟩
    simp only [take_some] at hj ⊢
    by_cases hji : j = i
    · subst hji
      have hl : j < c.shards.length := h.length_shards ▸ hi
      exact .inr ⟨b, List.getElem?_set_self hl, List.mem_append_right _ (List.mem_singleton_self _)⟩
    · rw [AList.lookup_insert_ne hji] at hj
      rw [List.getElem?_set_ne (Ne.symm hji)]
      exact old j hji hj

theorem ConsInv.setPc {c : Consumer} {consumed : List ShardData} (h : ConsInv cfg shards₀ c consumed)
    (pc : ConsumerPc) : ConsInv cfg shards₀ { c with pc := pc } consumed :=
  ⟨h.keys_lt, h.length_shards, h.ok_shard⟩

theorem ConsInv.check (enc : EncoderRule) {c : Consumer} {consumed : List ShardData}
    (h : ConsInv cfg shards₀ c consumed) : ConsInv cfg shards₀ (c.check cfg enc).1 consumed := by
  refine ⟨by simpa using h.keys_lt, by simpa using h.length_shards, fun i hi => ?_⟩
  rw [check_received] at hi
  rw [check_keeps_ok cfg enc c hi]
  exact h.ok_shard i hi

variable (cfg shards₀)

/-- The invariant of every run: map and matrix agree with what was read, each `ReconstructData`
call got the indices not received ok, and `reconstructed` is set only when justified. -/
structure SoundInv (s : RState) : Prop where
  cons : ConsInv cfg shards₀ s.cons s.consumed
  inflight_lt : ∀ p ∈ s.inflight, p < cfg.sortedVuids.length
  calls : ∀ k ∈ s.calls, k.badIdx = (List.range cfg.dataParityN).filter (isBad k.received) ∧
    cfg.dataN ≤ ((List.range cfg.dataParityN).filter (· ∉ k.badIdx)).length
  live : s.cons.pc ≠ .done → s.cons.reconstructed = false
  reconstructed : s.cons.reconstructed = true →
    (∀ i < cfg.dataN, s.cons.received.lookup i = some true) ∨
    ∃ k, s.calls.getLast? = some k ∧ k.ok = true

variable {cfg shards₀}
variable (hN : cfg.dataN ≤ cfg.dataParityN)
  (hV : ∀ v ∈ cfg.sortedVuids, v.index < cfg.dataParityN)
  (hW : cfg.minShardsRead ≤ cfg.sortedVuids.length)

include hN in
theorem call_ok {r : AList (fun _ : Nat => Bool)} (hk : ∀ i ∈ r, i < cfg.dataParityN)
    (hl : cfg.dataN + badShards r ≤ r.entries.length) :
    badData cfg r ++ badParity cfg r = (List.range cfg.dataParityN).filter (isBad r) ∧
    cfg.dataN ≤ ((List.range cfg.dataParityN).filter
      (· ∉ badData cfg r ++ badParity cfg r)).length := by
  rw [badData_append_badParity cfg hN]
  refine ⟨rfl, ?_⟩
  have hc := length_filter_ok hk
  have he : (List.range cfg.dataParityN).filter (· ∉ (List.range cfg.dataParityN).filter (isBad r)) =
      (List.range cfg.dataParityN).filter (fun i => !isBad r i) :=
    List.filter_congr fun i hi => by simp [List.mem_filter, List.mem_range.mp hi]
  rw [he]
  omega

theorem SoundInv.frame {s s' : RState} (h : SoundInv cfg shards₀ s) (hc : s'.cons = s.cons)
    (hd : s'.consumed = s.consumed) (hk : s'.calls = s.calls)
    (hi : ∀ p ∈ s'.inflight, p < cfg.sortedVuids.length) : SoundInv cfg shards₀ s' := by
  obtain ⟨h1, -, h3, h4, h5⟩ := h
  rw [← hc, ← hd] at h1
  rw [← hk] at h3
  rw [← hc] at h4
  rw [← hc, ← hk] at h5
  exact ⟨h1, hi, h3, h4, h5⟩

include hN hV in
theorem SoundInv.receive (enc : EncoderRule) {s : RState} (h : SoundInv cfg shards₀ s) {p : Nat}
    (r : ShardRead) (hp : p ∈ s.inflight) (hc : s.cons.pc = .receive) :
    SoundInv cfg shards₀ (s.receive cfg enc p r) := by
  have hidx : cfg.index p < cfg.dataParityN := by
    obtain ⟨v, hv, he⟩ := cfg.index_mem (h.inflight_lt p hp)
    exact he ▸ hV v hv
  have ht := h.cons.take ⟨cfg.index p, r.buffer s.nextBuf⟩ hidx
  have hcr : s.cons.reconstructed = false := h.live (by rw [hc]; nofun)
  refine ⟨by simpa using ht.check enc, fun q hq => h.inflight_lt q (List.mem_of_mem_erase hq),
    fun k hk => ?_, fun hne => ?_, fun hr => ?_⟩
  · simp only [RState.receive_calls, List.mem_append, Option.mem_toList, Option.mem_def] at hk
    rcases hk with hk | hk
    · exact h.calls k hk
    · obtain ⟨rfl, hl, -⟩ := check_call cfg enc _ hk
      exact call_ok hN ht.keys_lt hl
  · refine Bool.eq_false_iff.mpr fun hrc => ?_
    rcases check_reconstructed_done cfg enc _ hrc with h' | h'
    · simp [hcr] at h'
    · exact hne h'
  · rcases check_reconstructed cfg enc _ hr with h' | h' | ⟨k, hk, hok⟩
    · simp [hcr] at h'
    · exact .inl (by simpa using (badData_eq_nil cfg).mp h')
    · exact .inr ⟨k, by simp [hk], hok⟩

theorem inflight_append {l : List Nat} {n q : Nat} (h : ∀ p ∈ l, p < n) (hq : q < n) :
    ∀ p ∈ l ++ [q], p < n := by
  simpa [or_imp, forall_and] using And.intro h hq

include hN hV hW in
theorem SoundInv.step (enc : EncoderRule) (readOk : Nat → List UInt8 → Prop) {s s' : RState}
    (hstep : RStep cfg enc readOk s s') (h : SoundInv cfg shards₀ s) : SoundInv cfg shards₀ s' := by
  cases hstep with
  | window _ hp =>
    refine h.frame rfl rfl rfl ?_
    dsimp only
    split
    · exact h.inflight_lt
    · exact inflight_append h.inflight_lt (by omega)
  | next _ _ hn => exact h.frame rfl rfl rfl (inflight_append h.inflight_lt hn)
  | skip | stopped | loopEnd | close | drainEnd => exact h.frame rfl rfl rfl h.inflight_lt
  | deliver p r hp _ hc => exact h.receive hN hV enc r hp hc
  | drain p r hp =>
    exact h.frame rfl rfl rfl fun q hq => h.inflight_lt q (List.mem_of_mem_erase hq)
  | send hc =>
    exact ⟨h.cons.setPc _, h.inflight_lt, h.calls, fun _ => h.live (by rw [hc]; nofun),
      fun hr => absurd hr (by simp [h.live (by rw [hc]; nofun)])⟩
  | rangeEnd hc =>
    exact ⟨h.cons.setPc _, h.inflight_lt, h.calls, fun hne => absurd rfl hne,
      fun hr => absurd hr (by simp [h.live (by rw [hc]; nofun)])⟩

variable (hE : ∀ i ∈ cfg.empties, i < cfg.dataN) (hs : shards₀.length = cfg.dataParityN)

include hN hE hs in
theorem SoundInv.init (nextBuf : Nat) : SoundInv cfg shards₀ (RState.init cfg shards₀ nextBuf) := by
  refine ⟨⟨fun j hj => ?_, by simpa [RState.init] using hs, fun j hj => ?_⟩, nofun, nofun,
    fun _ => rfl, nofun⟩
  · have hj' := AList.lookup_isSome.mpr hj
    simp only [RState.init, init_lookup] at hj'
    split at hj'
    · exact Nat.lt_of_lt_of_le (hE j ‹_›) hN
    · cases hj'
  · simp only [RState.init, init_lookup] at hj
    split at hj
    · exact .inl ⟨‹_›, by simp only [RState.init, init_shards, if_pos ‹j ∈ cfg.empties›]⟩
    · cases hj

include hN hV hW hE hs in
theorem SoundInv.reach (enc : EncoderRule) (readOk : Nat → List UInt8 → Prop) {nextBuf : Nat}
    {s : RState} (hr : RReach cfg enc readOk shards₀ nextBuf s) : SoundInv cfg shards₀ s := by
  induction hr with
  | init => exact SoundInv.init hN hE hs nextBuf
  | step _ hstep ih => exact ih.step hN hV hW enc readOk hstep

end

/-- In every run an index received ok holds a zeroed empty shard or its read, `ReconstructData`
gets the indices not received ok, and `reconstructed` is set only when justified. -/
theorem read_one_blob_sound (rule : BufferRule) (enc : EncoderRule)
    (readOk : Nat → List UInt8 → Prop) (size : Nat) {t : Tactic} {sizes : BufferSizes} (x : Nat)
    {sv : List SortedVuid} {shards₀ : List Buf} {nextBuf : Nat}
    (hb : rule.getBufferSizes size t = some sizes) (hV : ∀ v ∈ sv, v.index < t.n + t.m)
    (hs : shards₀.length = t.n + t.m) {s : RState}
    (hr : RReach (readCfg t x sizes sv) enc readOk shards₀ nextBuf s) :
    (∀ i, s.cons.received.lookup i = some true →
      (i ∈ emptyDataShardIndexes sizes ∧ s.cons.shards[i]? = shards₀[i]?.map Buf.zero) ∨
      ∃ b, s.cons.shards[i]? = some b ∧ ⟨i, some b⟩ ∈ s.consumed) ∧
    (∀ k ∈ s.calls, k.badIdx = (List.range (t.n + t.m)).filter (isBad k.received) ∧
      t.n ≤ ((List.range (t.n + t.m)).filter (· ∉ k.badIdx)).length) ∧
    (s.cons.reconstructed = true →
      (∀ i < t.n, s.cons.received.lookup i = some true) ∨
      ∃ k, s.calls.getLast? = some k ∧ k.ok = true) := by
  have h := SoundInv.reach (Nat.le_add_right _ _) hV (Nat.min_le_right _ _)
    (fun i hi => (emptyDataShardIndexes_lt rule hb hi).1) hs enc readOk hr
  exact ⟨h.cons.ok_shard, h.calls, h.reconstructed⟩

theorem read_one_blob_sound_three_units :
    BufferRule.even.getBufferSizes 3 ⟨2, 1, 0⟩ = some ⟨3, 4, 2⟩ ∧
    ∀ (enc : EncoderRule) (readOk : Nat → List UInt8 → Prop) (s : RState),
      RReach (readCfg ⟨2, 1, 0⟩ 0 ⟨3, 4, 2⟩ [⟨2, 2, 2, ""⟩, ⟨0, 0, 0, ""⟩, ⟨1, 1, 1, ""⟩]) enc
        readOk [⟨0, []⟩, ⟨1, []⟩, ⟨2, []⟩] 3 s →
      (∀ i, s.cons.received.lookup i = some true →
        (i ∈ emptyDataShardIndexes ⟨3, 4, 2⟩ ∧
          s.cons.shards[i]? = ([⟨0, []⟩, ⟨1, []⟩, ⟨2, []⟩] : List Buf)[i]?.map Buf.zero) ∨
        ∃ b, s.cons.shards[i]? = some b ∧ ⟨i, some b⟩ ∈ s.consumed) ∧
      (∀ k ∈ s.calls, k.badIdx = (List.range (2 + 1)).filter (isBad k.received) ∧
        2 ≤ ((List.range (2 + 1)).filter (· ∉ k.badIdx)).length) ∧
      (s.cons.reconstructed = true →
        (∀ i < 2, s.cons.received.lookup i = some true) ∨
        ∃ k, s.calls.getLast? = some k ∧ k.ok = true) :=
  ⟨rfl, fun enc readOk _ hr =>
    read_one_blob_sound BufferRule.even enc readOk 3 0 (by rfl) (by decide) (by rfl) hr⟩

end BlobStore.Access
