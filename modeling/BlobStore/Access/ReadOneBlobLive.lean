import BlobStore.Access.ReadOneBlob

/-! `readOneBlob` never deadlocks and always ends: the first window of reads brings `received` to
`N` entries, and after that each outcome the consumer takes ends the loop or sends a token. -/

namespace BlobStore.Access

open Consumer

section

variable (cfg : ReadCfg)

/-- The reads of the first window that the producer has still to launch from `pos` on. -/
def winRem (pos : Nat) : Nat :=
  ((List.range' pos (cfg.minShardsRead - pos)).filter fun q => !cfg.isEmpty q).length

/-- Where the reads are: in flight are distinct positions the producer has passed, none of a unit
the consumer has a key for. -/
structure PosInv (s : RState) : Prop where
  phase_pos : s.prod.phase ≠ .loop → cfg.minShardsRead ≤ s.prod.pos
  pos_le : s.prod.pos ≤ cfg.sortedVuids.length
  inflight_nodup : s.inflight.Nodup
  inflight_lt : ∀ q ∈ s.inflight, q < s.prod.pos
  fresh : ∀ q ∈ s.inflight, cfg.index q ∉ s.cons.received
  keys : ∀ i ∈ s.cons.received, i ∈ cfg.empties ∨ ∃ q < s.prod.pos, cfg.index q = i
  closed : s.prod.phase = .closed → s.inflight = []
  drained : s.drainDone = true → s.prod.phase = .closed

variable {cfg}

theorem index_inj (hd : (cfg.sortedVuids.map SortedVuid.index).Nodup) {p q : Nat}
    (hp : p < cfg.sortedVuids.length) (hq : q < cfg.sortedVuids.length)
    (h : cfg.index p = cfg.index q) : p = q := by
  have e : ∀ {r : Nat} (hr : r < (cfg.sortedVuids.map SortedVuid.index).length),
      (cfg.sortedVuids.map SortedVuid.index)[r] = cfg.index r := fun hr => by
    simp [ReadCfg.index, List.getElem?_eq_getElem (List.length_map _ _ ▸ hr)]
  have hp' : p < (cfg.sortedVuids.map SortedVuid.index).length := by simpa using hp
  have hq' : q < (cfg.sortedVuids.map SortedVuid.index).length := by simpa using hq
  exact (@List.Nodup.getElem_inj_iff _ _ hd p hp' q hq').mp (by rw [e, e, h])

variable (hd : (cfg.sortedVuids.map SortedVuid.index).Nodup) {s s' : RState}

include hd in
theorem PosInv.advance (h : PosInv cfg s) (hl : s.prod.phase = .loop)
    (hn : s.prod.pos < cfg.sortedVuids.length) (hp : s'.prod = ⟨s.prod.pos + 1, .loop⟩)
    (hc : s'.cons.received = s.cons.received) (hdd : s'.drainDone = s.drainDone)
    (hi : s'.inflight = s.inflight ∨
      s'.inflight = s.inflight ++ [s.prod.pos] ∧ cfg.isEmpty s.prod.pos = false) :
    PosInv cfg s' := by
  have hnew (he : cfg.isEmpty s.prod.pos = false) : cfg.index s.prod.pos ∉ s.cons.received :=
    fun hm => by
      rcases h.keys _ hm with hm | ⟨q, hq, he'⟩
      · simp [ReadCfg.isEmpty, hm] at he
      · exact absurd (index_inj hd (by have := h.pos_le; omega) hn he') (by omega)
  refine ⟨fun hne => absurd (by rw [hp]) hne, by rw [hp]; exact hn, ?_, fun q hq => ?_,
    fun q hq => ?_, fun i hi' => ?_, fun hcl => ?_, fun hdr => ?_⟩
  · rcases hi with hi | ⟨hi, -⟩ <;> rw [hi]
    · exact h.inflight_nodup
    · exact h.inflight_nodup.append (List.nodup_singleton _)
        (List.disjoint_singleton.mpr fun hm => Nat.lt_irrefl _ (h.inflight_lt _ hm))
  · rw [hp]
    rcases hi with hi | ⟨hi, -⟩ <;> rw [hi] at hq
    · exact Nat.lt_succ_of_lt (h.inflight_lt q hq)
    · rcases List.mem_append.mp hq with hq | hq
      · exact Nat.lt_succ_of_lt (h.inflight_lt q hq)
      · rw [List.mem_singleton.mp hq]; exact Nat.lt_succ_self _
  · rw [hc]
    rcases hi with hi | ⟨hi, he⟩ <;> rw [hi] at hq
    · exact h.fresh q hq
    · rcases List.mem_append.mp hq with hq | hq
      · exact h.fresh q hq
      · rw [List.mem_singleton.mp hq]; exact hnew he
  · rw [hc] at hi'; rw [hp]
    exact (h.keys i hi').imp_right fun ⟨q, hq, he⟩ => ⟨q, Nat.lt_succ_of_lt hq, he⟩
  · rw [hp] at hcl; cases hcl
  · rw [hdd] at hdr; rw [h.drained hdr] at hl; cases hl

theorem PosInv.setPhase (h : PosInv cfg s) {ph : ProdPhase} (hp : s'.prod = ⟨s.prod.pos, ph⟩)
    (hph : ph ≠ .loop → cfg.minShardsRead ≤ s.prod.pos) (hcl : ph = .closed → s.inflight = [])
    (hdr : s.drainDone = true → ph = .closed) (hi : s'.inflight = s.inflight)
    (hc : s'.cons.received = s.cons.received) (hdd : s'.drainDone = s.drainDone) :
    PosInv cfg s' := by
  refine ⟨?_, ?_, ?_, ?_, ?_, ?_, ?_, ?_⟩ <;> simp only [hp, hi, hc, hdd]
  exacts [hph, h.pos_le, h.inflight_nodup, h.inflight_lt, h.fresh, h.keys, hcl, hdr]

theorem PosInv.frame (h : PosInv cfg s) (hp : s'.prod = s.prod) (hi : s'.inflight = s.inflight)
    (hc : s'.cons.received = s.cons.received) (hdr : s'.drainDone = true → s.prod.phase = .closed) :
    PosInv cfg s' := by
  refine ⟨?_, ?_, ?_, ?_, ?_, ?_, ?_, fun hd' => ?_⟩ <;> simp only [hp, hi, hc]
  exacts [h.phase_pos, h.pos_le, h.inflight_nodup, h.inflight_lt, h.fresh, h.keys, h.closed,
    hdr hd']

include hd in
theorem PosInv.erase (h : PosInv cfg s) {p : Nat} (hpin : p ∈ s.inflight) (hp : s'.prod = s.prod)
    (hi : s'.inflight = s.inflight.erase p) (hdd : s'.drainDone = s.drainDone)
    (hc : s'.cons.received = s.cons.received ∨
      ∃ b, s'.cons.received = s.cons.received.insert (cfg.index p) b) : PosInv cfg s' := by
  have hne : ∀ q ∈ s.inflight.erase p, q ≠ p ∧ q ∈ s.inflight := fun q hq =>
    (h.inflight_nodup.mem_erase_iff).mp hq
  refine ⟨?_, ?_, ?_, fun q hq => ?_, fun q hq => ?_, fun i hi' => ?_, fun hcl => ?_, fun hdr => ?_⟩
  all_goals simp only [hp, hi, hdd] at *
  · exact h.phase_pos
  · exact h.pos_le
  · exact h.inflight_nodup.erase p
  · exact h.inflight_lt q (hne q hq).2
  · have hq' := hne q hq
    rcases hc with hc | ⟨b, hc⟩ <;> rw [hc]
    · exact h.fresh q hq'.2
    · rw [AList.mem_insert, not_or]
      have hlt := h.pos_le
      exact ⟨fun he => hq'.1 (index_inj hd (by have := h.inflight_lt q hq'.2; omega)
        (by have := h.inflight_lt p hpin; omega) he), h.fresh q hq'.2⟩
  · rcases hc with hc | ⟨b, hc⟩ <;> rw [hc] at hi'
    · exact h.keys i hi'
    · rcases (AList.mem_insert _).mp hi' with rfl | hi'
      exacts [.inr ⟨p, h.inflight_lt p hpin, rfl⟩, h.keys i hi']
  · rw [h.closed hcl]; rfl
  · exact h.drained hdr

variable (hW : cfg.minShardsRead ≤ cfg.sortedVuids.length)

include hd hW in
theorem PosInv.step {enc : EncoderRule} {readOk : Nat → List UInt8 → Prop}
    (hstep : RStep cfg enc readOk s s') (h : PosInv cfg s) : PosInv cfg s' := by
  cases hstep with
  | window hl hp =>
    refine h.advance hd hl (by omega) rfl rfl rfl ?_
    cases he : cfg.isEmpty s.prod.pos
    · exact .inr ⟨by simp [he], rfl⟩
    · exact .inl (by simp [he])
  | skip hl _ hn => exact h.advance hd hl hn rfl rfl rfl (.inl rfl)
  | next hl _ hn he => exact h.advance hd hl hn rfl rfl rfl (.inr ⟨rfl, he⟩)
  | stopped hl hp | loopEnd hl hp =>
    exact h.setPhase rfl (fun _ => hp) nofun (fun hdr => by rw [h.drained hdr] at hl; cases hl)
      rfl rfl rfl
  | close hw hi =>
    exact h.setPhase rfl (fun _ => h.phase_pos (by rw [hw]; nofun)) (fun _ => hi) (fun _ => rfl)
      rfl rfl rfl
  | deliver p r hp => exact h.erase hd hp rfl rfl rfl (.inr ⟨(r.buffer s.nextBuf).isSome, by simp⟩)
  | drain p r hp => exact h.erase hd hp rfl rfl rfl (.inl rfl)
  | send | rangeEnd => exact h.frame rfl rfl rfl h.drained
  | drainEnd _ hp => exact h.frame rfl rfl rfl fun _ => hp

theorem PosInv.init (shards : List Buf) (nextBuf : Nat) :
    PosInv cfg (RState.init cfg shards nextBuf) :=
  ⟨fun hne => absurd rfl hne, Nat.zero_le _, List.nodup_nil, nofun, nofun,
    fun i hi => .inl ((mem_init_received cfg shards i).mp hi), nofun, nofun⟩

end

section

variable (cfg : ReadCfg)

theorem winRem_of_le {pos : Nat} (h : cfg.minShardsRead ≤ pos) : winRem cfg pos = 0 := by
  simp [winRem, Nat.sub_eq_zero_of_le h]

theorem winRem_succ {pos : Nat} (h : pos < cfg.minShardsRead) :
    winRem cfg pos = winRem cfg (pos + 1) + if cfg.isEmpty pos then 0 else 1 := by
  have he : cfg.minShardsRead - pos = cfg.minShardsRead - (pos + 1) + 1 := by omega
  rw [winRem, he, List.range'_succ, List.filter_cons, winRem]
  cases cfg.isEmpty pos <;> simp [Nat.add_comm]

variable {cfg}

theorem winRem_zero (hd : (cfg.sortedVuids.map SortedVuid.index).Nodup)
    (hW : cfg.minShardsRead ≤ cfg.sortedVuids.length) :
    cfg.minShardsRead - cfg.empties.length ≤ winRem cfg 0 := by
  set L := (List.range' 0 cfg.minShardsRead).filter cfg.isEmpty
  have hsplit : cfg.minShardsRead =
      L.length + ((List.range' 0 cfg.minShardsRead).filter fun q => !cfg.isEmpty q).length := by
    simpa [L] using List.length_eq_length_filter_add (l := List.range' 0 cfg.minShardsRead) cfg.isEmpty
  have hnd : (L.map cfg.index).Nodup := by
    refine List.Nodup.map_on (fun x hx y hy hxy => ?_) ((List.nodup_range' _ _).filter _)
    simp only [L, List.mem_filter, List.mem_range'_1] at hx hy
    exact index_inj hd (by omega) (by omega) hxy
  have hsub : L.map cfg.index ⊆ cfg.empties := fun i hi => by
    obtain ⟨q, hq, rfl⟩ := List.mem_map.mp hi
    simpa [L, ReadCfg.isEmpty] using (List.mem_filter.mp hq).2
  have hle := (List.subperm_of_subset hnd hsub).length_le
  rw [List.length_map] at hle
  simp only [winRem, Nat.sub_zero]
  omega

variable (cfg)

/-- The counting that keeps the goroutines going: tokens never outrun `received`, and whenever the
producer could wait for a token, a token or a read is there. -/
structure CountInv (s : RState) : Prop where
  tokens_le : s.tokens + (if s.cons.pc = .send then 1 else 0) ≤ s.cons.received.entries.length
  send_len : s.cons.pc = .send → cfg.dataN ≤ s.cons.received.entries.length ∧
    s.cons.received.entries.length < cfg.sortedVuids.length
  window : s.cons.pc = .receive → s.cons.received.entries.length < cfg.dataN →
    cfg.dataN - s.cons.received.entries.length ≤ s.inflight.length + winRem cfg s.prod.pos
  credit : s.cons.pc = .receive → cfg.dataN ≤ s.cons.received.entries.length →
    s.prod.phase = .loop → s.prod.pos < cfg.sortedVuids.length → 0 < s.tokens + s.inflight.length
  done_stop : s.cons.pc = .done → s.prod.phase = .closed ∨ s.stop = true

variable {cfg} {s : RState}

theorem CountInv.receive (enc : EncoderRule) (hp : PosInv cfg s) (h : CountInv cfg s) {p : Nat}
    (hpin : p ∈ s.inflight) (hc : s.cons.pc = .receive) (r : ShardRead) :
    CountInv cfg (s.receive cfg enc p r) := by
  have hlen : (s.cons.take ⟨cfg.index p, r.buffer s.nextBuf⟩).1.received.entries.length =
      s.cons.received.entries.length + 1 := by
    rw [take_received, AList.insert_entries_of_neg (hp.fresh p hpin)]; rfl
  have hrm := List.length_erase_of_mem hpin
  have hpos := List.length_pos_of_mem hpin
  have htok := h.tokens_le
  simp only [hc, reduceCtorEq, if_false] at htok
  refine ⟨?_, fun hs => ?_, fun hr hl => ?_, fun hr hl => ?_, fun hd => .inr ?_⟩
  · simp only [RState.receive_cons, RState.receive_tokens, check_received, hlen]
    split <;> omega
  · simpa only [RState.receive_cons, check_received] using check_pc_send cfg enc _ hs
  · simp only [RState.receive_cons, RState.receive_inflight, RState.receive_prod, check_received,
      hlen, hrm] at hl ⊢
    have := h.window hc (by omega)
    omega
  · simp only [RState.receive_cons, check_received, hlen] at hr hl
    exact absurd (check_pc_receive cfg enc _ hr) (by rw [hlen]; omega)
  · simp only [RState.receive_cons] at hd
    simp [hd]

variable {s' : RState}

theorem CountInv.step {enc : EncoderRule} {readOk : Nat → List UInt8 → Prop}
    (hstep : RStep cfg enc readOk s s') (hp : PosInv cfg s) (h : CountInv cfg s) :
    CountInv cfg s' := by
  have stop_of_loop (hl : s.prod.phase = .loop) (hd : s.cons.pc = .done) : s.stop = true :=
    (h.done_stop hd).resolve_left (by rw [hl]; nofun)
  cases hstep with
  | window hl hpos =>
    have hsum : (if cfg.isEmpty s.prod.pos then s.inflight else s.inflight ++ [s.prod.pos]).length
        + winRem cfg (s.prod.pos + 1) = s.inflight.length + winRem cfg s.prod.pos := by
      rw [winRem_succ cfg hpos]; cases cfg.isEmpty s.prod.pos <;> simp; omega
    have hge : s.inflight.length ≤
        (if cfg.isEmpty s.prod.pos then s.inflight else s.inflight ++ [s.prod.pos]).length := by
      split <;> simp
    refine ⟨h.tokens_le, h.send_len, fun hr hlt => ?_, fun hr hN _ hn => ?_,
      fun hd => .inr (stop_of_loop hl hd)⟩ <;> dsimp only at *
    · have := h.window hr hlt
      omega
    · have := h.credit hr hN hl (by omega)
      omega
  | skip hl hpos hn =>
    refine ⟨h.tokens_le, h.send_len, fun hr hlt => ?_, fun hr hN _ hn' => h.credit hr hN hl hn,
      fun hd => .inr (stop_of_loop hl hd)⟩
    have := h.window hr hlt
    rw [winRem_of_le cfg hpos] at this
    rw [winRem_of_le cfg (Nat.le_succ_of_le hpos)]
    exact this
  | next hl hpos hn _ ht =>
    refine ⟨by have := h.tokens_le; dsimp only; omega, h.send_len, fun hr hlt => ?_,
      fun _ _ _ _ => by dsimp only; simp only [List.length_append, List.length_singleton]; omega,
      fun hd => .inr (stop_of_loop hl hd)⟩
    have := h.window hr hlt
    rw [winRem_of_le cfg hpos] at this
    dsimp only
    rw [winRem_of_le cfg (Nat.le_succ_of_le hpos), List.length_append]
    omega
  | stopped _ _ _ _ hs => exact ⟨h.tokens_le, h.send_len, h.window, nofun, fun _ => .inr hs⟩
  | loopEnd hl => exact ⟨h.tokens_le, h.send_len, h.window, nofun,
      fun hd => .inr (stop_of_loop hl hd)⟩
  | close => exact ⟨h.tokens_le, h.send_len, h.window, nofun, fun _ => .inl rfl⟩
  | deliver p r hpin _ hc => exact h.receive enc hp hpin hc r
  | drain p r _ _ hc =>
    exact ⟨h.tokens_le, h.send_len, fun hr => absurd (hc ▸ hr) nofun,
      fun hr => absurd (hc ▸ hr) nofun, h.done_stop⟩
  | send hc =>
    have := h.tokens_le
    have hN := (h.send_len hc).1
    simp only [hc, if_true] at this
    exact ⟨by simp only [reduceCtorEq, if_false]; omega, nofun,
      fun _ hlt => absurd hlt (by dsimp only; omega), fun _ _ _ _ => by dsimp only; omega, nofun⟩
  | rangeEnd hc hp' =>
    have := h.tokens_le
    simp only [hc, reduceCtorEq, if_false] at this
    exact ⟨by dsimp only; simpa using this, nofun, nofun, nofun, fun _ => .inl hp'⟩
  | drainEnd => exact ⟨h.tokens_le, h.send_len, h.window, h.credit, h.done_stop⟩

theorem CountInv.init (hE : cfg.empties.Nodup) (hlt : cfg.empties.length < cfg.dataN)
    (hwin : cfg.dataN - cfg.empties.length ≤ winRem cfg 0) (shards : List Buf) (nextBuf : Nat) :
    CountInv cfg (RState.init cfg shards nextBuf) := by
  have hl := init_length cfg shards hE
  have hpc : (Consumer.init cfg shards).pc = .receive := rfl
  refine ⟨?_, nofun, fun _ _ => ?_, fun _ hN => absurd hN ?_, nofun⟩
  · show 0 + (if (Consumer.init cfg shards).pc = .send then 1 else 0) ≤
      (Consumer.init cfg shards).received.entries.length
    simp [hpc]
  · show cfg.dataN - (Consumer.init cfg shards).received.entries.length ≤ 0 + winRem cfg 0
    rw [hl]; omega
  · show ¬ cfg.dataN ≤ (Consumer.init cfg shards).received.entries.length
    rw [hl]; omega

theorem CountInv.not_blocked (h : CountInv cfg s) (hc : s.cons.pc = .receive)
    (hi : s.inflight = []) (hl : s.prod.phase = .loop) (hw : cfg.minShardsRead ≤ s.prod.pos)
    (hn : s.prod.pos < cfg.sortedVuids.length) (ht : s.tokens = 0) : False := by
  by_cases hL : s.cons.received.entries.length < cfg.dataN
  · have := h.window hc hL
    rw [hi, winRem_of_le cfg hw] at this
    simp only [List.length_nil] at this
    omega
  · have := h.credit hc (by omega) hl hn
    rw [hi, ht] at this
    exact Nat.lt_irrefl 0 this

theorem CountInv.progress (enc : EncoderRule) (readOk : Nat → List UInt8 → Prop)
    (hp : PosInv cfg s) (h : CountInv cfg s) (hf : ¬ s.Final) :
    ∃ s', RStep cfg enc readOk s s' := by
  have deliver (hc : s.cons.pc = .receive) (hi : s.inflight ≠ []) : ∃ s', RStep cfg enc readOk s s' :=
    have ⟨p, hpin⟩ := List.exists_mem_of_ne_nil _ hi
    ⟨_, .deliver p .failed hpin trivial hc⟩
  have send (hc : s.cons.pc = .send) : ∃ s', RStep cfg enc readOk s s' := by
    have h1 := h.tokens_le
    have h2 := (h.send_len hc).2
    simp only [hc, if_true] at h1
    exact ⟨_, .send hc (by omega)⟩
  cases hph : s.prod.phase with
  | loop =>
    by_cases hpw : s.prod.pos < cfg.minShardsRead
    · exact ⟨_, .window hph hpw⟩
    have hpw := Nat.le_of_not_lt hpw
    by_cases hn : s.prod.pos < cfg.sortedVuids.length
    · cases he : cfg.isEmpty s.prod.pos
      · by_cases ht : 0 < s.tokens
        · exact ⟨_, .next hph hpw hn he ht⟩
        cases hs : s.stop
        · cases hc : s.cons.pc with
          | receive =>
            by_cases hi : s.inflight = []
            · exact (h.not_blocked hc hi hph hpw hn (by omega)).elim
            · exact deliver hc hi
          | send => exact send hc
          | done =>
            rcases h.done_stop hc with hcl | hs'
            · rw [hph] at hcl; cases hcl
            · rw [hs] at hs'; cases hs'
        · exact ⟨_, .stopped hph hpw hn he hs⟩
      · exact ⟨_, .skip hph hpw hn he⟩
    · exact ⟨_, .loopEnd hph hpw (Nat.le_of_not_lt hn)⟩
  | wait =>
    by_cases hi : s.inflight = []
    · exact ⟨_, .close hph hi⟩
    obtain ⟨p, hpin⟩ := List.exists_mem_of_ne_nil _ hi
    cases hc : s.cons.pc with
    | receive => exact deliver hc hi
    | send => exact send hc
    | done =>
      cases hd : s.drainDone
      · exact ⟨_, .drain p .failed hpin trivial hc hd⟩
      · have := hp.drained hd
        rw [hph] at this; cases this
  | closed =>
    cases hc : s.cons.pc with
    | receive => exact ⟨_, .rangeEnd hc hph⟩
    | send => exact send hc
    | done =>
      cases hd : s.drainDone
      · exact ⟨_, .drainEnd hc hph hd⟩
      · exact absurd ⟨hc, hph, hd⟩ hf

theorem final_stuck (hp : PosInv cfg s) (hf : s.Final) {enc : EncoderRule}
    {readOk : Nat → List UInt8 → Prop} :
    s.inflight = [] ∧ ∀ s', ¬ RStep cfg enc readOk s s' := by
  obtain ⟨hc, hph, hd⟩ := hf
  refine ⟨hp.closed hph, fun s' hstep => ?_⟩
  cases hstep <;> simp_all

end

section

variable (cfg : ReadCfg)

def ProdPhase.rank : ProdPhase → Nat
  | .loop => 2
  | .wait => 1
  | .closed => 0

def ConsumerPc.rank : ConsumerPc → Nat
  | .receive => 1
  | .send => 2
  | .done => 0

/-- What every step uses up: the producer's positions, the reads in flight, and the stages
of each goroutine. -/
def RState.measure (s : RState) : Nat :=
  4 * (cfg.sortedVuids.length - s.prod.pos) + 3 * s.inflight.length + s.prod.phase.rank +
    s.cons.pc.rank + if s.drainDone then 0 else 1

variable {cfg} (hW : cfg.minShardsRead ≤ cfg.sortedVuids.length)

theorem ConsumerPc.rank_le (pc : ConsumerPc) : pc.rank ≤ 2 := by cases pc <;> decide

include hW in
theorem RStep.measure_lt {enc : EncoderRule} {readOk : Nat → List UInt8 → Prop} {s s' : RState}
    (hstep : RStep cfg enc readOk s s') : s'.measure cfg < s.measure cfg := by
  cases hstep with
  | window hl hp =>
    have : (if cfg.isEmpty s.prod.pos then s.inflight else s.inflight ++ [s.prod.pos]).length ≤
        s.inflight.length + 1 := by split <;> simp
    simp only [RState.measure, hl, ProdPhase.rank] at *
    omega
  | deliver p r hp _ hc =>
    have := List.length_erase_of_mem hp
    have := List.length_pos_of_mem hp
    have := ConsumerPc.rank_le (s.receive cfg enc p r).cons.pc
    simp only [RState.measure, RState.receive_prod, RState.receive_inflight,
      RState.receive_drainDone, hc, ConsumerPc.rank] at *
    omega
  | drain p r hp =>
    have := List.length_erase_of_mem hp
    have := List.length_pos_of_mem hp
    simp only [RState.measure, RState.drainOne_prod, RState.drainOne_inflight,
      RState.drainOne_drainDone, RState.drainOne_cons] at *
    omega
  | _ => simp_all [RState.measure, ProdPhase.rank, ConsumerPc.rank] <;> omega

include hW in
theorem no_infinite_run {enc : EncoderRule} {readOk : Nat → List UInt8 → Prop}
    (f : Nat → RState) : ¬ ∀ n, RStep cfg enc readOk (f n) (f (n + 1)) := by
  intro hf
  have hbound : ∀ n, (f n).measure cfg + n ≤ (f 0).measure cfg := by
    intro n
    induction n with
    | zero => exact Nat.le_refl _
    | succ n ih => have := (hf n).measure_lt hW; omega
  have := hbound ((f 0).measure cfg + 1)
  omega

include hW in
theorem RReach.live {enc : EncoderRule} {readOk : Nat → List UInt8 → Prop} {shards : List Buf}
    {nextBuf : Nat} (hd : (cfg.sortedVuids.map SortedVuid.index).Nodup)
    (hE : cfg.empties.Nodup) (hlt : cfg.empties.length < cfg.dataN)
    (hN : cfg.dataN ≤ cfg.minShardsRead) {s : RState}
    (hr : RReach cfg enc readOk shards nextBuf s) : PosInv cfg s ∧ CountInv cfg s := by
  induction hr with
  | init =>
    have := winRem_zero hd hW
    exact ⟨PosInv.init shards nextBuf, CountInv.init hE hlt (by omega) shards nextBuf⟩
  | step _ hstep ih => exact ⟨ih.1.step hd hW hstep, ih.2.step hstep ih.1⟩

end

/-- For every read order, blob and outcome order, every state of `readOneBlob` is final or has a
step, a send on `nextChan` has room, and no run goes on forever. -/
theorem read_one_blob_terminates (rule : BufferRule) (enc : EncoderRule)
    (readOk : Nat → List UInt8 → Prop) (size : Nat) {t : Tactic} {sizes : BufferSizes} (x : Nat)
    {sv : List SortedVuid} (shards : List Buf) (nextBuf : Nat)
    (hb : rule.getBufferSizes size t = some sizes) (hsize : 0 < size) (hn : t.n ≤ sv.length)
    (hd : (sv.map SortedVuid.index).Nodup) :
    (∀ s, RReach (readCfg t x sizes sv) enc readOk shards nextBuf s →
      s.Final ∨ ∃ s', RStep (readCfg t x sizes sv) enc readOk s s') ∧
    (∀ s, RReach (readCfg t x sizes sv) enc readOk shards nextBuf s → s.cons.pc = .receive →
      s.inflight = [] → s.prod.phase = .loop → min (t.n + x) sv.length ≤ s.prod.pos →
      s.prod.pos < sv.length → s.tokens = 0 → False) ∧
    (∀ s, RReach (readCfg t x sizes sv) enc readOk shards nextBuf s → s.cons.pc = .send →
      s.tokens < sv.length) ∧
    (∀ s, RReach (readCfg t x sizes sv) enc readOk shards nextBuf s → s.Final →
      s.inflight = [] ∧ ∀ s', ¬ RStep (readCfg t x sizes sv) enc readOk s s') ∧
    ∀ f : Nat → RState, ¬ ∀ n, RStep (readCfg t x sizes sv) enc readOk (f n) (f (n + 1)) := by
  have hW : min (t.n + x) sv.length ≤ sv.length := Nat.min_le_right _ _
  have inv : ∀ s, RReach (readCfg t x sizes sv) enc readOk shards nextBuf s →
      PosInv (readCfg t x sizes sv) s ∧ CountInv (readCfg t x sizes sv) s := fun s hr =>
    hr.live hW hd (emptyDataShardIndexes_nodup sizes)
      (emptyDataShardIndexes_length_lt rule hb hsize) (by simp only [readCfg]; omega)
  refine ⟨fun s hr => ?_, fun s hr hc hi hl hw hn' ht => (inv s hr).2.not_blocked hc hi hl hw hn' ht,
    fun s hr hc => ?_, fun s hr hf => final_stuck (inv s hr).1 hf, no_infinite_run hW⟩
  · by_cases hf : s.Final
    · exact .inl hf
    · exact .inr ((inv s hr).2.progress enc readOk (inv s hr).1 hf)
  · have h1 := (inv s hr).2.tokens_le
    have h2 := ((inv s hr).2.send_len hc).2
    simp only [hc, if_true] at h1
    exact Nat.lt_of_succ_le (h1.trans h2.le)

theorem read_one_blob_terminates_three_units :
    BufferRule.even.getBufferSizes 3 ⟨2, 1, 0⟩ = some ⟨3, 4, 2⟩ ∧
    let sv : List SortedVuid := [⟨2, 2, 2, ""⟩, ⟨0, 0, 0, ""⟩, ⟨1, 1, 1, ""⟩]
    let cfg := readCfg ⟨2, 1, 0⟩ 0 ⟨3, 4, 2⟩ sv
    (∀ s, RReach cfg EncoderRule.refuse (fun _ _ => True) [] 0 s →
      s.Final ∨ ∃ s', RStep cfg EncoderRule.refuse (fun _ _ => True) s s') ∧
    (∀ s, RReach cfg EncoderRule.refuse (fun _ _ => True) [] 0 s → s.cons.pc = .receive →
      s.inflight = [] → s.prod.phase = .loop → min (2 + 0) sv.length ≤ s.prod.pos →
      s.prod.pos < sv.length → s.tokens = 0 → False) ∧
    (∀ s, RReach cfg EncoderRule.refuse (fun _ _ => True) [] 0 s → s.cons.pc = .send →
      s.tokens < sv.length) ∧
    (∀ s, RReach cfg EncoderRule.refuse (fun _ _ => True) [] 0 s → s.Final →
      s.inflight = [] ∧ ∀ s', ¬ RStep cfg EncoderRule.refuse (fun _ _ => True) s s') ∧
    ∀ f : Nat → RState, ¬ ∀ n, RStep cfg EncoderRule.refuse (fun _ _ => True) (f n) (f (n + 1)) :=
  ⟨rfl, read_one_blob_terminates BufferRule.even EncoderRule.refuse (fun _ _ => True) 3 0 [] 0
    (by rfl) (by decide) (by decide) (by decide)⟩

theorem RReach.drain_last {cfg : ReadCfg} {enc : EncoderRule} {readOk : Nat → List UInt8 → Prop}
    {shards : List Buf} {nextBuf : Nat} {s : RState} (hr : RReach cfg enc readOk shards nextBuf s)
    {p : Nat} {r : ShardRead} (hi : s.inflight = [p]) (hra : r.Allowed readOk (cfg.index p))
    (hc : s.cons.pc = .done) (hd : s.drainDone = false) (hl : s.prod.phase = .loop)
    (hp : cfg.minShardsRead ≤ s.prod.pos) (hn : cfg.sortedVuids.length ≤ s.prod.pos) :
    RReach cfg enc readOk shards nextBuf
      { s.drainOne p r with prod := ⟨s.prod.pos, .closed⟩, drainDone := true } :=
  .step (.step (.step (.step hr (.drain p r (hi ▸ List.mem_singleton_self p) hra hc hd))
    (.loopEnd hl hp hn)) (.close rfl (by simp [hi]))) (.drainEnd hc rfl hd)

/-- A one-byte blob over `N = 2, M = 1` whose only other read unit fails first: the consumer
counts the empty index and stops with the blob broken while unit 0's read is still in flight. -/
theorem read_one_blob_gives_up_early (enc : EncoderRule) (readOk : Nat → List UInt8 → Prop)
    (shards : List Buf) (d : List UInt8) (hd : readOk 0 d) :
    BufferRule.even.getBufferSizes 1 ⟨2, 1, 0⟩ = some ⟨1, 2, 1⟩ ∧
    let cfg := readCfg ⟨2, 1, 0⟩ 0 ⟨1, 2, 1⟩ [⟨2, 2, 2, ""⟩, ⟨0, 0, 0, ""⟩]
    cfg.empties = [1] ∧
    ∃ s, RReach cfg enc readOk shards 0 s ∧ s.cons.pc = .done ∧
      s.cons.reconstructed = false ∧ s.inflight = [1] ∧ cfg.index 1 = 0 ∧
      RReach cfg enc readOk shards 0
        { s.drainOne 1 (.read d) with prod := ⟨s.prod.pos, .closed⟩, drainDone := true } ∧
      RState.Final
        { s.drainOne 1 (.read d) with prod := ⟨s.prod.pos, .closed⟩, drainDone := true } := by
  refine ⟨rfl, rfl, ?_⟩
  -- both reads are launched; the failure of unit 2 stops the consumer
  have r : RReach (readCfg ⟨2, 1, 0⟩ 0 ⟨1, 2, 1⟩ [⟨2, 2, 2, ""⟩, ⟨0, 0, 0, ""⟩])
      enc readOk shards 0 _ :=
    .step (.step (.step .init (.window rfl Nat.zero_lt_two)) (.window rfl Nat.one_lt_two))
      (.deliver 0 .failed (List.mem_cons_self 0 [1]) trivial rfl)
  refine ⟨_, r, rfl, rfl, rfl, rfl, ?_, rfl, rfl, rfl⟩
  -- the read of unit 0 succeeds into the drain goroutine; everything then ends
  exact r.drain_last rfl hd rfl rfl rfl (Nat.le_refl 2) (Nat.le_refl 2)

theorem read_one_blob_gives_up_early_any_bytes :
    (fun (_ : Nat) (_ : List UInt8) => True) 0 [7] ∧
    BufferRule.even.getBufferSizes 1 ⟨2, 1, 0⟩ = some ⟨1, 2, 1⟩ ∧
    let cfg := readCfg ⟨2, 1, 0⟩ 0 ⟨1, 2, 1⟩ [⟨2, 2, 2, ""⟩, ⟨0, 0, 0, ""⟩]
    cfg.empties = [1] ∧
    ∃ s, RReach cfg EncoderRule.refuse (fun _ _ => True) [] 0 s ∧ s.cons.pc = .done ∧
      s.cons.reconstructed = false ∧ s.inflight = [1] ∧ cfg.index 1 = 0 ∧
      RReach cfg EncoderRule.refuse (fun _ _ => True) [] 0
        { s.drainOne 1 (.read [7]) with prod := ⟨s.prod.pos, .closed⟩, drainDone := true } ∧
      RState.Final
        { s.drainOne 1 (.read [7]) with prod := ⟨s.prod.pos, .closed⟩, drainDone := true } :=
  ⟨trivial, read_one_blob_gives_up_early EncoderRule.refuse (fun _ _ => True) [] [7] trivial⟩

end BlobStore.Access
