import BlobStore.Access.Basic

/-! `readOneBlob` as goroutines in any interleaving: the producer launching reads, the shard
tasks delivering their outcomes, the consumer loop and the drain goroutine. -/

namespace BlobStore.Access

/-- The values `readOneBlob` fixes before it starts its goroutines. -/
structure ReadCfg where
  dataN : Nat
  dataParityN : Nat
  minShardsRead : Nat
  sortedVuids : List SortedVuid
  empties : List Nat

/-- `readOneBlob`'s setup from the tactic, `MinReadShardsX`, the blob's buffer sizes and the
read order. -/
def readCfg (tactic : Tactic) (minReadShardsX : Nat) (sizes : BufferSizes)
    (sortedVuids : List SortedVuid) : ReadCfg :=
  { dataN := tactic.n, dataParityN := tactic.n + tactic.m,
    minShardsRead := min (tactic.n + minReadShardsX) sortedVuids.length,
    sortedVuids := sortedVuids, empties := emptyDataShardIndexes sizes }

/-- `sortedVuids[p].index`. -/
def ReadCfg.index (cfg : ReadCfg) (p : Nat) : Nat := (cfg.sortedVuids.getD p ⟨0, 0, 0, ""⟩).index

theorem ReadCfg.index_mem (cfg : ReadCfg) {p : Nat} (h : p < cfg.sortedVuids.length) :
    ∃ v ∈ cfg.sortedVuids, v.index = cfg.index p :=
  ⟨cfg.sortedVuids.get ⟨p, h⟩, List.get_mem _ _ _, by simp [ReadCfg.index, h]⟩

/-- `_, ok := empties[vuid.index]` for the entry at position `p`. -/
def ReadCfg.isEmpty (cfg : ReadCfg) (p : Nat) : Bool := cfg.index p ∈ cfg.empties

/-- `ReconstructData` of `common/ec` (not in the sources), modelled from the spec: it writes only
the shards listed as bad and says whether it returned nil. -/
structure EncoderRule where
  reconstructData : List Buf → List Nat → List Buf × Bool
  ids_eq : ∀ shards badIdx, (reconstructData shards badIdx).1.map Buf.id = shards.map Buf.id
  keeps_good : ∀ shards badIdx i, i ∉ badIdx → (reconstructData shards badIdx).1[i]? = shards[i]?

/-- One encoder that meets the contract: it gives up on every call. -/
def EncoderRule.refuse : EncoderRule :=
  ⟨fun shards _ => (shards, false), fun _ _ => rfl, fun _ _ _ _ => rfl⟩

/-- A call of `ReconstructData`: its bad indices, the received map at the call, and whether it
returned nil. -/
structure ReconstructCall where
  badIdx : List Nat
  received : AList (fun _ : Nat => Bool)
  ok : Bool

inductive ConsumerPc where
  | receive
  | send
  | done
  deriving DecidableEq, Repr

/-- The consumer loop: the map `received`, the shard matrix, and `reconstructed`. -/
structure Consumer where
  received : AList (fun _ : Nat => Bool)
  shards : List Buf
  reconstructed : Bool
  pc : ConsumerPc

namespace Consumer

variable (cfg : ReadCfg) (enc : EncoderRule)

/-- Before the loop: every empty index is received, and its buffer zeroed. -/
def init (shards : List Buf) : Consumer :=
  { received := cfg.empties.foldl (fun r i => r.insert i true) ∅,
    shards := cfg.empties.foldl (fun sh i => sh.modify Buf.zero i) shards,
    reconstructed := false, pc := .receive }

/-- The swap of a successful shard into the matrix (the old buffer goes back to the pool) and
`received[shard.index] = shard.status`. -/
def take (c : Consumer) (shard : ShardData) : Consumer × List PoolEvent :=
  match shard.buffer with
  | some buf =>
    ({ c with shards := c.shards.set shard.index buf, received := c.received.insert shard.index true },
      [.put (c.shards.getD shard.index default).id])
  | none => ({ c with received := c.received.insert shard.index false }, [])

/-- `!ok || !succ` for `succ, ok := received[i]`. -/
def isBad (received : AList (fun _ : Nat => Bool)) (i : Nat) : Bool :=
  received.lookup i != some true

def badData (received : AList (fun _ : Nat => Bool)) : List Nat :=
  (List.range cfg.dataN).filter (isBad received)

def badParity (received : AList (fun _ : Nat => Bool)) : List Nat :=
  (List.range' cfg.dataN (cfg.dataParityN - cfg.dataN)).filter (isBad received)

/-- `badShards`: the entries of `received` that failed. -/
def badShards (received : AList (fun _ : Nat => Bool)) : Nat :=
  (received.entries.filter fun e => !e.2).length

/-- The loop body after the swap: go on below `N` indices, stop when the data is good or more than
`M` failed, try to reconstruct, stop when all is in, or ask for one more read. -/
def check (c : Consumer) : Consumer × Option ReconstructCall :=
  let len := c.received.entries.length
  if len < cfg.dataN then ({ c with pc := .receive }, none)
  else if badData cfg c.received = [] then ({ c with reconstructed := true, pc := .done }, none)
  else
    let badIdx := badData cfg c.received ++ badParity cfg c.received
    let bad := badShards c.received
    if cfg.dataParityN - cfg.dataN < bad then ({ c with pc := .done }, none)
    else if cfg.dataN + bad ≤ len then
      let r := enc.reconstructData c.shards badIdx
      let call := some ⟨badIdx, c.received, r.2⟩
      if r.2 then ({ c with shards := r.1, reconstructed := true, pc := .done }, call)
      else if cfg.sortedVuids.length ≤ len then ({ c with shards := r.1, pc := .done }, call)
      else ({ c with shards := r.1, pc := .send }, call)
    else if cfg.sortedVuids.length ≤ len then ({ c with pc := .done }, none)
    else ({ c with pc := .send }, none)

theorem check_cases (c : Consumer) :
    (c.received.entries.length < cfg.dataN ∧ c.check cfg enc = ({ c with pc := .receive }, none)) ∨
    (cfg.dataN ≤ c.received.entries.length ∧ badData cfg c.received = [] ∧
      c.check cfg enc = ({ c with reconstructed := true, pc := .done }, none)) ∨
    (cfg.dataN ≤ c.received.entries.length ∧ ∃ pc, c.check cfg enc = ({ c with pc := pc }, none) ∧
      pc ≠ .receive ∧ (pc = .send → c.received.entries.length < cfg.sortedVuids.length)) ∨
    (cfg.dataN + badShards c.received ≤ c.received.entries.length ∧
      let badIdx := badData cfg c.received ++ badParity cfg c.received
      let r := enc.reconstructData c.shards badIdx
      ∃ pc, c.check cfg enc =
        ({ c with shards := r.1, reconstructed := r.2 || c.reconstructed, pc := pc },
          some ⟨badIdx, c.received, r.2⟩) ∧
      (r.2 = true → pc = .done) ∧ pc ≠ .receive ∧
      (pc = .send → c.received.entries.length < cfg.sortedVuids.length)) := by
  unfold check
  by_cases h1 : c.received.entries.length < cfg.dataN
  · exact .inl ⟨h1, if_pos h1⟩
  rw [if_neg h1]
  have hN := Nat.le_of_not_lt h1
  by_cases h2 : badData cfg c.received = []
  · exact .inr (.inl ⟨hN, h2, if_pos h2⟩)
  rw [if_neg h2]
  by_cases h3 : cfg.dataParityN - cfg.dataN < badShards c.received
  · exact .inr (.inr (.inl ⟨hN, _, if_pos h3, nofun, nofun⟩))
  rw [if_neg h3]
  by_cases h4 : cfg.dataN + badShards c.received ≤ c.received.entries.length
  · rw [if_pos h4]
    refine .inr (.inr (.inr ⟨h4, ?_⟩))
    dsimp only
    by_cases h5 : (enc.reconstructData c.shards (badData cfg c.received ++ badParity cfg c.received)).2
    · exact ⟨_, by rw [if_pos h5, h5, Bool.true_or], fun _ => rfl, nofun, nofun⟩
    · rw [if_neg h5, eq_false_of_ne_true h5, Bool.false_or]
      by_cases h6 : cfg.sortedVuids.length ≤ c.received.entries.length
      · exact ⟨_, if_pos h6, fun _ => rfl, nofun, nofun⟩
      · exact ⟨_, if_neg h6, nofun, nofun, fun _ => Nat.lt_of_not_le h6⟩
  · rw [if_neg h4]
    by_cases h6 : cfg.sortedVuids.length ≤ c.received.entries.length
    · exact .inr (.inr (.inl ⟨hN, _, if_pos h6, nofun, nofun⟩))
    · exact .inr (.inr (.inl ⟨hN, _, if_neg h6, nofun, fun _ => Nat.lt_of_not_le h6⟩))

variable (c : Consumer)

@[simp] theorem check_received : (c.check cfg enc).1.received = c.received := by
  rcases check_cases cfg enc c with ⟨-, h⟩ | ⟨-, -, h⟩ | ⟨-, _, h, -⟩ | ⟨-, _, h, -⟩ <;> rw [h]

theorem check_call {k : ReconstructCall} (h : (c.check cfg enc).2 = some k) :
    k = ⟨badData cfg c.received ++ badParity cfg c.received, c.received,
      (enc.reconstructData c.shards (badData cfg c.received ++ badParity cfg c.received)).2⟩ ∧
    cfg.dataN + badShards c.received ≤ c.received.entries.length ∧
    (c.check cfg enc).1.shards = (enc.reconstructData c.shards k.badIdx).1 := by
  rcases check_cases cfg enc c with ⟨-, he⟩ | ⟨-, -, he⟩ | ⟨-, _, he, -⟩ | ⟨hl, _, he, -⟩ <;>
    rw [he] at h ⊢ <;> cases h
  exact ⟨rfl, hl, rfl⟩

theorem check_shards_of_none (h : (c.check cfg enc).2 = none) :
    (c.check cfg enc).1.shards = c.shards := by
  rcases check_cases cfg enc c with ⟨-, he⟩ | ⟨-, -, he⟩ | ⟨-, _, he, -⟩ | ⟨-, _, he, -⟩ <;>
    rw [he] at h ⊢
  cases h

theorem check_reconstructed (h : (c.check cfg enc).1.reconstructed = true) :
    c.reconstructed = true ∨ badData cfg c.received = [] ∨
      ∃ k, (c.check cfg enc).2 = some k ∧ k.ok = true := by
  rcases check_cases cfg enc c with ⟨-, he⟩ | ⟨-, hb, he⟩ | ⟨-, _, he, -⟩ | ⟨-, _, he, -⟩ <;>
    rw [he] at h ⊢
  · exact .inl h
  · exact .inr (.inl hb)
  · exact .inl h
  · rcases Bool.or_eq_true_iff.mp h with h | h
    · exact .inr (.inr ⟨_, rfl, h⟩)
    · exact .inl h

theorem check_reconstructed_done (h : (c.check cfg enc).1.reconstructed = true) :
    c.reconstructed = true ∨ (c.check cfg enc).1.pc = .done := by
  rcases check_cases cfg enc c with ⟨-, he⟩ | ⟨-, -, he⟩ | ⟨-, _, he, -⟩ | ⟨-, _, he, hd, -⟩ <;>
    rw [he] at h ⊢
  · exact .inl h
  · exact .inr rfl
  · exact .inl h
  · rcases Bool.or_eq_true_iff.mp h with h | h
    · exact .inr (hd h)
    · exact .inl h

theorem check_pc_receive (h : (c.check cfg enc).1.pc = .receive) :
    c.received.entries.length < cfg.dataN := by
  rcases check_cases cfg enc c with ⟨hl, -⟩ | ⟨-, -, he⟩ | ⟨-, _, he, hr, -⟩ | ⟨-, _, he, -, hr, -⟩
  · exact hl
  all_goals rw [he] at h
  · cases h
  all_goals exact absurd h hr

theorem check_pc_send (h : (c.check cfg enc).1.pc = .send) :
    cfg.dataN ≤ c.received.entries.length ∧ c.received.entries.length < cfg.sortedVuids.length := by
  rcases check_cases cfg enc c with ⟨-, he⟩ | ⟨-, -, he⟩ | ⟨hN, _, he, -, hs⟩ | ⟨hl, _, he, -, -, hs⟩ <;>
    rw [he] at h
  · cases h
  · cases h
  · exact ⟨hN, hs h⟩
  · exact ⟨by omega, hs h⟩

theorem not_mem_bad {r : AList (fun _ : Nat => Bool)} {i : Nat} (h : r.lookup i = some true) :
    i ∉ badData cfg r ++ badParity cfg r := by
  simp [badData, badParity, isBad, h]

theorem check_ids : (c.check cfg enc).1.shards.map Buf.id = c.shards.map Buf.id := by
  cases hk : (c.check cfg enc).2 with
  | none => rw [check_shards_of_none cfg enc c hk]
  | some k => rw [(check_call cfg enc c hk).2.2, enc.ids_eq]

@[simp] theorem check_length : (c.check cfg enc).1.shards.length = c.shards.length := by
  simpa using congrArg List.length (check_ids cfg enc c)

theorem check_keeps_ok {i : Nat} (h : c.received.lookup i = some true) :
    (c.check cfg enc).1.shards[i]? = c.shards[i]? := by
  cases hk : (c.check cfg enc).2 with
  | none => rw [check_shards_of_none cfg enc c hk]
  | some k =>
    obtain ⟨rfl, -, hs⟩ := check_call cfg enc c hk
    rw [hs, enc.keeps_good _ _ _ (not_mem_bad cfg h)]

theorem badData_append_badParity (h : cfg.dataN ≤ cfg.dataParityN) (r : AList (fun _ : Nat => Bool)) :
    badData cfg r ++ badParity cfg r = (List.range cfg.dataParityN).filter (isBad r) := by
  have hr := List.range'_append_1 0 cfg.dataN (cfg.dataParityN - cfg.dataN)
  rw [Nat.zero_add, Nat.sub_add_cancel h] at hr
  rw [badData, badParity, ← List.filter_append, List.range_eq_range', hr, List.range_eq_range']

theorem badData_eq_nil {r : AList (fun _ : Nat => Bool)} :
    badData cfg r = [] ↔ ∀ i < cfg.dataN, r.lookup i = some true := by
  simp [badData, isBad]

@[simp] theorem take_some (i : Nat) (b : Buf) :
    c.take ⟨i, some b⟩ = ({ c with shards := c.shards.set i b, received := c.received.insert i true },
      [.put (c.shards.getD i default).id]) := rfl

@[simp] theorem take_none (i : Nat) :
    c.take ⟨i, none⟩ = ({ c with received := c.received.insert i false }, []) := rfl

@[simp] theorem take_received (sd : ShardData) :
    (c.take sd).1.received = c.received.insert sd.index sd.buffer.isSome := by
  obtain ⟨i, _ | b⟩ := sd <;> rfl

@[simp] theorem take_pc (sd : ShardData) : (c.take sd).1.pc = c.pc := by
  obtain ⟨i, _ | b⟩ := sd <;> rfl

@[simp] theorem take_reconstructed (sd : ShardData) :
    (c.take sd).1.reconstructed = c.reconstructed := by
  obtain ⟨i, _ | b⟩ := sd <;> rfl

theorem lookup_foldl_insert (l : List Nat) (r : AList (fun _ : Nat => Bool)) (i : Nat) :
    (l.foldl (fun r i => r.insert i true) r).lookup i = if i ∈ l then some true else r.lookup i := by
  induction l generalizing r with
  | nil => simp
  | cons j l ih =>
    rw [List.foldl_cons, ih]
    by_cases hj : i = j
    · subst hj; simp [AList.lookup_insert]
    · simp [AList.lookup_insert_ne hj, hj]

theorem length_foldl_insert {l : List Nat} (hl : l.Nodup) {r : AList (fun _ : Nat => Bool)}
    (hr : ∀ i ∈ l, i ∉ r) :
    (l.foldl (fun r i => r.insert i true) r).entries.length = l.length + r.entries.length := by
  induction l generalizing r with
  | nil => simp
  | cons j l ih =>
    obtain ⟨hj, hl⟩ := List.nodup_cons.mp hl
    have hjr := hr j (List.mem_cons_self _ _)
    rw [List.foldl_cons, ih hl fun i hi => ?_, AList.insert_entries_of_neg hjr]
    · simp only [List.length_cons]; omega
    · rw [AList.mem_insert, not_or]
      exact ⟨fun h => hj (h ▸ hi), hr i (List.mem_cons_of_mem _ hi)⟩

theorem init_length (shards : List Buf) (h : cfg.empties.Nodup) :
    (init cfg shards).received.entries.length = cfg.empties.length := by
  simp [init, length_foldl_insert h fun i _ => AList.not_mem_empty i]

theorem init_lookup (shards : List Buf) (i : Nat) :
    (init cfg shards).received.lookup i = if i ∈ cfg.empties then some true else none := by
  simp [init, lookup_foldl_insert, AList.lookup_empty]

@[simp] theorem mem_init_received (shards : List Buf) (i : Nat) :
    i ∈ (init cfg shards).received ↔ i ∈ cfg.empties := by
  rw [← AList.lookup_isSome, init_lookup]
  split <;> simp [*]

@[simp] theorem zero_zero (b : Buf) : b.zero.zero = b.zero := by
  simp [Buf.zero, Function.comp_def]

theorem getElem?_foldl_zero (l : List Nat) (shards : List Buf) (i : Nat) :
    (l.foldl (fun sh i => sh.modify Buf.zero i) shards)[i]? =
      if i ∈ l then shards[i]?.map Buf.zero else shards[i]? := by
  induction l generalizing shards with
  | nil => simp
  | cons j l ih =>
    rw [List.foldl_cons, ih, List.getElem?_modify]
    by_cases hj : i = j
    · subst hj; cases shards[i]? <;> simp
    · simp [hj, Ne.symm hj]

theorem init_shards (shards : List Buf) (i : Nat) :
    (init cfg shards).shards[i]? = if i ∈ cfg.empties then shards[i]?.map Buf.zero else shards[i]? :=
  getElem?_foldl_zero _ _ _

@[simp] theorem init_shards_length (shards : List Buf) :
    (init cfg shards).shards.length = shards.length := by
  simp only [init]
  induction cfg.empties generalizing shards with
  | nil => rfl
  | cons j l ih => rw [List.foldl_cons, ih, List.length_modify]

end Consumer

/-- What one `readOneShard` call ends with: it failed before it allocated a buffer, it failed
in `io.ReadFull` and put its buffer back, or it read the bytes into its buffer. -/
inductive ShardRead where
  | failed
  | readFailed
  | read (data : List UInt8)
  deriving DecidableEq, Repr

namespace ShardRead

/-- `shardResult.buffer`, for a read whose allocation got the buffer `id`. -/
def buffer (id : Nat) : ShardRead → Option Buf
  | .read data => some ⟨id, data⟩
  | _ => none

/-- The calls of `memPool` the read makes. -/
def events (id : Nat) : ShardRead → List PoolEvent
  | .failed => []
  | .readFailed => [.alloc id, .put id]
  | .read _ => [.alloc id]

/-- The bytes a read returns are bytes the storage node may serve for unit `i`. -/
def Allowed (readOk : Nat → List UInt8 → Prop) (i : Nat) : ShardRead → Prop
  | .read data => readOk i data
  | _ => True

end ShardRead

inductive ProdPhase where
  | loop
  | wait
  | closed
  deriving DecidableEq, Repr

/-- The producer goroutine: its position in `sortedVuids`, and whether it is in its loops,
waits for its reads (`wg.Wait()`), or has closed the shard channel. -/
structure Producer where
  pos : Nat
  phase : ProdPhase
  deriving DecidableEq, Repr

structure RState where
  prod : Producer
  /-- Positions in `sortedVuids` of the launched reads that have not delivered. -/
  inflight : List Nat
  /-- Tokens buffered in `nextChan`. -/
  tokens : Nat
  /-- `stopChan` is closed. -/
  stop : Bool
  cons : Consumer
  drainDone : Bool
  /-- The buffer the next `memPool.Alloc` hands out. -/
  nextBuf : Nat
  pool : List PoolEvent
  consumed : List ShardData
  calls : List ReconstructCall

namespace RState

variable (cfg : ReadCfg) (enc : EncoderRule)

def init (shards : List Buf) (nextBuf : Nat) : RState :=
  ⟨⟨0, .loop⟩, [], 0, false, Consumer.init cfg shards, false, nextBuf, [], [], []⟩

/-- The consumer receives the outcome of the read at position `p` and runs its loop body. -/
def receive (s : RState) (p : Nat) (r : ShardRead) : RState :=
  let shard : ShardData := ⟨cfg.index p, r.buffer s.nextBuf⟩
  let taken := s.cons.take shard
  let checked := taken.1.check cfg enc
  { s with
    inflight := s.inflight.erase p, cons := checked.1,
    stop := s.stop || checked.1.pc == .done, nextBuf := s.nextBuf + 1,
    pool := s.pool ++ r.events s.nextBuf ++ taken.2, consumed := s.consumed ++ [shard],
    calls := s.calls ++ checked.2.toList }

/-- The drain goroutine receives the outcome of the read at position `p` and puts its buffer. -/
def drainOne (s : RState) (p : Nat) (r : ShardRead) : RState :=
  { s with
    inflight := s.inflight.erase p, nextBuf := s.nextBuf + 1,
    pool := s.pool ++ r.events s.nextBuf ++ ((r.buffer s.nextBuf).map fun b => .put b.id).toList }

variable {s : RState} {p : Nat} {r : ShardRead}

@[simp] theorem receive_cons : (s.receive cfg enc p r).cons =
    ((s.cons.take ⟨cfg.index p, r.buffer s.nextBuf⟩).1.check cfg enc).1 := rfl
@[simp] theorem receive_calls : (s.receive cfg enc p r).calls =
    s.calls ++ ((s.cons.take ⟨cfg.index p, r.buffer s.nextBuf⟩).1.check cfg enc).2.toList := rfl
@[simp] theorem receive_consumed :
    (s.receive cfg enc p r).consumed = s.consumed ++ [⟨cfg.index p, r.buffer s.nextBuf⟩] := rfl
@[simp] theorem receive_inflight : (s.receive cfg enc p r).inflight = s.inflight.erase p := rfl
@[simp] theorem receive_prod : (s.receive cfg enc p r).prod = s.prod := rfl
@[simp] theorem receive_tokens : (s.receive cfg enc p r).tokens = s.tokens := rfl
@[simp] theorem receive_drainDone : (s.receive cfg enc p r).drainDone = s.drainDone := rfl
@[simp] theorem receive_stop :
    (s.receive cfg enc p r).stop = (s.stop || (s.receive cfg enc p r).cons.pc == .done) := rfl

@[simp] theorem drainOne_cons : (s.drainOne p r).cons = s.cons := rfl
@[simp] theorem drainOne_calls : (s.drainOne p r).calls = s.calls := rfl
@[simp] theorem drainOne_consumed : (s.drainOne p r).consumed = s.consumed := rfl
@[simp] theorem drainOne_inflight : (s.drainOne p r).inflight = s.inflight.erase p := rfl
@[simp] theorem drainOne_prod : (s.drainOne p r).prod = s.prod := rfl
@[simp] theorem drainOne_tokens : (s.drainOne p r).tokens = s.tokens := rfl
@[simp] theorem drainOne_drainDone : (s.drainOne p r).drainDone = s.drainDone := rfl
@[simp] theorem drainOne_stop : (s.drainOne p r).stop = s.stop := rfl

/-- Every goroutine of `readOneBlob` has finished: the consumer loop has stopped, the producer
closed the shard channel, and the drain goroutine saw it closed. -/
def Final (s : RState) : Prop :=
  s.cons.pc = .done ∧ s.prod.phase = .closed ∧ s.drainDone = true

end RState

variable (cfg : ReadCfg) (enc : EncoderRule) (readOk : Nat → List UInt8 → Prop)

/-- One step of one goroutine of `readOneBlob`. -/
inductive RStep : RState → RState → Prop where
  | window {s : RState} (hl : s.prod.phase = .loop) (hp : s.prod.pos < cfg.minShardsRead) :
      RStep s { s with
        prod := ⟨s.prod.pos + 1, .loop⟩,
        inflight := if cfg.isEmpty s.prod.pos then s.inflight else s.inflight ++ [s.prod.pos] }
  | skip {s : RState} (hl : s.prod.phase = .loop) (hp : cfg.minShardsRead ≤ s.prod.pos)
      (hn : s.prod.pos < cfg.sortedVuids.length) (he : cfg.isEmpty s.prod.pos = true) :
      RStep s { s with prod := ⟨s.prod.pos + 1, .loop⟩ }
  | next {s : RState} (hl : s.prod.phase = .loop) (hp : cfg.minShardsRead ≤ s.prod.pos)
      (hn : s.prod.pos < cfg.sortedVuids.length) (he : cfg.isEmpty s.prod.pos = false)
      (ht : 0 < s.tokens) :
      RStep s { s with
        prod := ⟨s.prod.pos + 1, .loop⟩, tokens := s.tokens - 1,
        inflight := s.inflight ++ [s.prod.pos] }
  | stopped {s : RState} (hl : s.prod.phase = .loop) (hp : cfg.minShardsRead ≤ s.prod.pos)
      (hn : s.prod.pos < cfg.sortedVuids.length) (he : cfg.isEmpty s.prod.pos = false)
      (hs : s.stop = true) :
      RStep s { s with prod := ⟨s.prod.pos, .wait⟩ }
  | loopEnd {s : RState} (hl : s.prod.phase = .loop) (hp : cfg.minShardsRead ≤ s.prod.pos)
      (hn : cfg.sortedVuids.length ≤ s.prod.pos) :
      RStep s { s with prod := ⟨s.prod.pos, .wait⟩ }
  | close {s : RState} (hw : s.prod.phase = .wait) (hi : s.inflight = []) :
      RStep s { s with prod := ⟨s.prod.pos, .closed⟩ }
  | deliver {s : RState} (p : Nat) (r : ShardRead) (hp : p ∈ s.inflight)
      (hr : r.Allowed readOk (cfg.index p)) (hc : s.cons.pc = .receive) :
      RStep s (s.receive cfg enc p r)
  | drain {s : RState} (p : Nat) (r : ShardRead) (hp : p ∈ s.inflight)
      (hr : r.Allowed readOk (cfg.index p)) (hc : s.cons.pc = .done)
      (hd : s.drainDone = false) :
      RStep s (s.drainOne p r)
  | send {s : RState} (hc : s.cons.pc = .send) (ht : s.tokens < cfg.sortedVuids.length) :
      RStep s { s with tokens := s.tokens + 1, cons := { s.cons with pc := .receive } }
  | rangeEnd {s : RState} (hc : s.cons.pc = .receive) (hp : s.prod.phase = .closed) :
      RStep s { s with cons := { s.cons with pc := .done } }
  | drainEnd {s : RState} (hc : s.cons.pc = .done) (hp : s.prod.phase = .closed)
      (hd : s.drainDone = false) :
      RStep s { s with drainDone := true }

/-- The states of every run of `readOneBlob` from its start on the matrix `shards`. -/
inductive RReach (shards : List Buf) (nextBuf : Nat) : RState → Prop where
  | init : RReach shards nextBuf (RState.init cfg shards nextBuf)
  | step {s s' : RState} : RReach shards nextBuf s → RStep cfg enc readOk s s' →
      RReach shards nextBuf s'

theorem readCfg_isEmpty {t : Tactic} {x : Nat} {sizes : BufferSizes} {sv : List SortedVuid}
    (hS : 0 < sizes.shardSize) (p : Nat) :
    (readCfg t x sizes sv).isEmpty p = true ↔
      (readCfg t x sizes sv).index p < sizes.ecDataSize / sizes.shardSize ∧
        sizes.dataSize ≤ (readCfg t x sizes sv).index p * sizes.shardSize := by
  rw [ReadCfg.isEmpty, decide_eq_true_iff]
  exact mem_emptyDataShardIndexes_iff hS

/-- An index is in `emptyDataShardIndexes` exactly when its whole shard lies in the padding
`[DataSize, ECDataSize)`; the producer launches a read for every other unit it passes. -/
theorem emptyDataShardIndexes_pure_padding (sizes : BufferSizes) (hS : 0 < sizes.shardSize) :
    (∀ i, i ∈ emptyDataShardIndexes sizes ↔
      i < sizes.ecDataSize / sizes.shardSize ∧ sizes.dataSize ≤ i * sizes.shardSize) ∧
    (∀ i, i ∈ emptyDataShardIndexes sizes ↔
      ∀ b, i * sizes.shardSize ≤ b → b < (i + 1) * sizes.shardSize →
        sizes.dataSize ≤ b ∧ b < sizes.ecDataSize) ∧
    ∀ (t : Tactic) (x : Nat) (sv : List SortedVuid) (shards : List Buf),
      (∀ i, (Consumer.init (readCfg t x sizes sv) shards).shards[i]? =
        if i < sizes.ecDataSize / sizes.shardSize ∧ sizes.dataSize ≤ i * sizes.shardSize then
          shards[i]?.map Buf.zero
        else shards[i]?) ∧
      (∀ i, i ∈ (Consumer.init (readCfg t x sizes sv) shards).received ↔
        i < sizes.ecDataSize / sizes.shardSize ∧ sizes.dataSize ≤ i * sizes.shardSize) ∧
      ∀ (enc : EncoderRule) (readOk : Nat → List UInt8 → Prop) (s s' : RState),
        RStep (readCfg t x sizes sv) enc readOk s s' → s'.prod.pos = s.prod.pos + 1 →
        s'.inflight =
          if (readCfg t x sizes sv).index s.prod.pos < sizes.ecDataSize / sizes.shardSize ∧
              sizes.dataSize ≤ (readCfg t x sizes sv).index s.prod.pos * sizes.shardSize then
            s.inflight
          else s.inflight ++ [s.prod.pos] := by
  have hmem := fun i => @mem_emptyDataShardIndexes_iff sizes hS i
  refine ⟨hmem, fun i => (hmem i).trans ⟨fun ⟨hi, hd⟩ b hb hb' => ⟨?_, ?_⟩, fun h => ?_⟩,
    fun t x sv shards => ⟨fun i => ?_, fun i => ?_, fun enc readOk s s' hstep hpos => ?_⟩⟩
  · exact hd.trans hb
  · -- the shard ends within the `N` data shards
    have := (Nat.le_div_iff_mul_le hS).mp hi
    rw [Nat.succ_mul] at hb' this
    omega
  · have h₁ := h (i * sizes.shardSize) (Nat.le_refl _) (by rw [Nat.succ_mul]; omega)
    have h₂ := h (i * sizes.shardSize + sizes.shardSize - 1) (by omega)
      (by rw [Nat.succ_mul]; omega)
    refine ⟨(Nat.le_div_iff_mul_le hS).mpr ?_, h₁.1⟩
    rw [Nat.succ_mul]
    omega
  · rw [Consumer.init_shards]
    exact if_congr (hmem i) rfl rfl
  · rw [Consumer.mem_init_received]
    exact hmem i
  · cases hstep with
    | window => exact if_congr (readCfg_isEmpty hS _) rfl rfl
    | skip _ _ _ he => exact (if_pos ((readCfg_isEmpty hS _).mp he)).symm
    | next _ _ _ he =>
      exact (if_neg fun h => absurd ((readCfg_isEmpty hS _).mpr h) (by rw [he]; decide)).symm
    | _ => simp at hpos

/-- A five-byte blob over four data shards of two bytes: only the last shard is padding. -/
theorem emptyDataShardIndexes_five_bytes :
    emptyDataShardIndexes ⟨5, 8, 2⟩ = [3] ∧
    ∀ i, i ∈ emptyDataShardIndexes ⟨5, 8, 2⟩ ↔
      ∀ b, i * 2 ≤ b → b < (i + 1) * 2 → 5 ≤ b ∧ b < 8 :=
  ⟨rfl, (emptyDataShardIndexes_pure_padding ⟨5, 8, 2⟩ (by decide)).2.1⟩

end BlobStore.Access
