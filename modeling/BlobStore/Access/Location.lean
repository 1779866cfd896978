import Mathlib

/-! `genLocationBlobs`: the cut of a read range of an object into blobs of `BlobSize` bytes, listed
as runs of blob ids per volume, compared with `refFrom`; `u64` and `u64sub` are `uint64`'s
wrapping addition and subtraction. -/

namespace BlobStore.Access

/-- `uint64` arithmetic wraps modulo `2^64`. -/
def u64 (x : Nat) : Nat := x % 2 ^ 64

/-- `a - b` on `uint64`. -/
def u64sub (a b : Nat) : Nat := (a + (2 ^ 64 - b % 2 ^ 64)) % 2 ^ 64

theorem u64_of_lt {x : Nat} (h : x < 2 ^ 64) : u64 x = x := Nat.mod_eq_of_lt h

theorem u64sub_of_le {a b : Nat} (ha : a < 2 ^ 64) (h : b ≤ a) : u64sub a b = a - b := by
  have hb : b % 2 ^ 64 = b := Nat.mod_eq_of_lt (by omega)
  rw [u64sub, hb, show a + (2 ^ 64 - b) = (a - b) + 2 ^ 64 by omega, Nat.add_mod_right,
    Nat.mod_eq_of_lt (by omega)]

/-- Modelled from its use in `genLocationBlobs` (`api/access` is not in `src/`): a run of
`Count` blobs of volume `Vid` with consecutive ids from `MinBid`. -/
structure BlobRun where
  minBid : Nat
  vid : Nat
  count : Nat
  deriving DecidableEq, Repr

/-- Modelled from its use in `stream_get.go`: the fields of `access.Location` the read path
reads. `size` is the object's size, `blobSize` the size of every blob but the last. -/
structure Location where
  size : Nat
  blobSize : Nat
  blobs : List BlobRun
  deriving DecidableEq, Repr

/-- `blobGetArgs`: one blob to read, and the part of it to read. -/
structure BlobGetArgs where
  vid : Nat
  bid : Nat
  blobSize : Nat
  offset : Nat
  readSize : Nat
  deriving DecidableEq, Repr

/-- The errors of `genLocationBlobs`. -/
inductive LocationErr where
  /-- `"FileSize:%d ReadSize:%d Offset:%d"` -/
  | outOfRange
  /-- `"BlobSize:%d"` -/
  | blobSize
  /-- `"no enough data to read %d"` -/
  | noEnoughData
  deriving DecidableEq, Repr

/-- The variables of the loops of `genLocationBlobs`. -/
structure GenState where
  idx : Nat
  remainSize : Nat
  blobOffset : Nat
  blobs : List BlobGetArgs
  deriving DecidableEq, Repr

section

variable (size blobSize firstBlobIdx : Nat)

/-- One pass of the inner loop, for the blob `bid` of volume `vid`. Once nothing remains
the loop returns; every later pass would leave the blobs as they are, and so does this one. -/
def genStep (st : GenState) (vb : Nat × Nat) : GenState :=
  if st.remainSize = 0 then st
  else if firstBlobIdx ≤ st.idx then
    let toReadSize := min st.remainSize (blobSize - st.blobOffset)
    { idx := st.idx + 1, remainSize := st.remainSize - toReadSize, blobOffset := 0,
      blobs := if 0 < toReadSize then
          st.blobs ++ [⟨vb.1, vb.2, min (u64sub size (u64 (st.idx * blobSize))) blobSize,
            st.blobOffset, toReadSize⟩]
        else st.blobs }
  else { st with idx := st.idx + 1 }

/-- The inner loop over the `count` blobs of a run, from `currBlobID`. -/
def genRun (vid : Nat) : Nat → Nat → GenState → GenState
  | 0, _, st => st
  | n + 1, currBlobID, st => genRun vid n (u64 (currBlobID + 1)) (genStep size blobSize firstBlobIdx st (vid, currBlobID))

/-- The outer loop over the runs of the location. -/
def genRuns : List BlobRun → GenState → GenState
  | [], st => st
  | run :: runs, st => genRuns runs (genRun size blobSize firstBlobIdx run.vid run.count run.minBid st)

end

/-- `genLocationBlobs(location, readSize, offset)`. -/
def genLocationBlobs (location : Location) (readSize offset : Nat) :
    Except LocationErr (List BlobGetArgs) :=
  if location.size < u64 (offset + readSize) then .error .outOfRange
  else if location.blobSize = 0 then .error .blobSize
  else
    let st := genRuns location.size location.blobSize (offset / location.blobSize) location.blobs
      ⟨0, readSize, offset % location.blobSize, []⟩
    if 0 < st.remainSize then .error .noEnoughData else .ok st.blobs

/-- The ids the inner loop walks through for one run: `currBlobID` from `MinBid`, `Count` times. -/
def runIds (vid : Nat) : Nat → Nat → List (Nat × Nat)
  | 0, _ => []
  | n + 1, currBlobID => (vid, currBlobID) :: runIds vid n (u64 (currBlobID + 1))

/-- The `(Vid, Bid)` of every blob of the location, in order. -/
def Location.ids (location : Location) : List (Nat × Nat) :=
  location.blobs.flatMap fun run => runIds run.vid run.count run.minBid

section

variable {size blobSize firstBlobIdx : Nat}

theorem genRun_eq (vid n bid : Nat) (st : GenState) :
    genRun size blobSize firstBlobIdx vid n bid st =
      (runIds vid n bid).foldl (genStep size blobSize firstBlobIdx) st := by
  induction n generalizing bid st with
  | zero => rfl
  | succ n ih => rw [genRun, ih]; rfl

theorem genRuns_eq (runs : List BlobRun) (st : GenState) :
    genRuns size blobSize firstBlobIdx runs st =
      (runs.flatMap fun run => runIds run.vid run.count run.minBid).foldl
        (genStep size blobSize firstBlobIdx) st := by
  induction runs generalizing st with
  | nil => rfl
  | cons run runs ih => rw [genRuns, ih, genRun_eq, List.flatMap_cons, List.foldl_append]

end

section

variable (size blobSize offset readSize : Nat)

/-- The part of `[offset, offset + readSize)` that lies in blob `j`, as positions in the
object: `[lo j, hi j)`. -/
def lo (j : Nat) : Nat := max offset (j * blobSize)

def hi (j : Nat) : Nat := min (offset + readSize) (j * blobSize + blobSize)

/-- The arguments of blob `j`, with id `vb`, when the read touches it. -/
def refArgs (j : Nat) (vb : Nat × Nat) : Option BlobGetArgs :=
  if lo blobSize offset j < hi blobSize offset readSize j then
    some ⟨vb.1, vb.2, min (size - j * blobSize) blobSize, lo blobSize offset j - j * blobSize,
      hi blobSize offset readSize j - lo blobSize offset j⟩
  else none

/-- The blobs a read of `[offset, offset + readSize)` touches, from blob `j` on. -/
def refFrom : Nat → List (Nat × Nat) → List BlobGetArgs
  | _, [] => []
  | j, vb :: ids => (refArgs size blobSize offset readSize j vb).toList ++ refFrom (j + 1) ids

/-- What the loop variables of `genLocationBlobs` hold after the first `n` blobs. -/
def GenInv (n : Nat) (st : GenState) : Prop :=
  st.remainSize = readSize - (min (offset + readSize) (n * blobSize) - offset) ∧
  (0 < st.remainSize → st.idx = n ∧
    st.blobOffset = if n ≤ offset / blobSize then offset % blobSize else 0)

variable {size blobSize offset readSize}

private theorem pass_done_arith {o r a B rem : Nat} (hrem : rem = r - (min (o + r) a - o))
    (h0 : rem = 0) : ¬ max o a < min (o + r) (a + B) ∧ 0 = r - (min (o + r) (a + B) - o) := by
  have h : r = 0 ∨ o + r ≤ a := by omega
  clear hrem h0
  rcases h with rfl | h
  · simp only [Nat.add_zero, Nat.zero_sub, and_true, not_lt]
    exact (min_le_left _ _).trans (le_max_left _ _)
  · rw [max_eq_right (by omega : o ≤ a), min_eq_left (by omega : o + r ≤ a + B)]
    omega

private theorem pass_skip_arith {o r a B rem : Nat} (hrem : rem = r - (min (o + r) a - o))
    (hb : a + B ≤ o) : ¬ max o a < min (o + r) (a + B) ∧ rem = r - (min (o + r) (a + B) - o) := by
  rw [min_eq_right (by omega : a + B ≤ o + r), min_eq_right (by omega : a ≤ o + r),
    max_eq_left (by omega : a ≤ o), Nat.sub_eq_zero_of_le hb,
    Nat.sub_eq_zero_of_le (by omega : a ≤ o)] at *
  exact ⟨by omega, hrem⟩

private theorem pass_started_arith {o r a rem : Nat} (hrem : rem = r - (min (o + r) a - o))
    (h0 : 0 < rem) : rem = o + r - max o a := by
  omega

private theorem pass_read_arith {o r a B rem bo : Nat} (hc : max o a = a + bo)
    (hrem : rem = o + r - max o a) (h0 : 0 < rem) (hbo : bo < B) :
    max o a < min (o + r) (a + B) ∧ min rem (B - bo) = min (o + r) (a + B) - max o a ∧
    rem - min rem (B - bo) = r - (min (o + r) (a + B) - o) := by
  have ho : o ≤ a + bo := hc ▸ le_max_left o a
  rw [hc] at hrem ⊢
  subst hrem
  rcases le_total (o + r) (a + B) with h | h
  · rw [min_eq_left h, min_eq_left (by omega : o + r - (a + bo) ≤ B - bo)]; omega
  · rw [min_eq_right h, min_eq_right (by omega : B - bo ≤ o + r - (a + bo))]; omega

theorem genStep_spec (hB : 0 < blobSize) (hsz : offset + readSize ≤ size) (h64 : size < 2 ^ 64)
    {n : Nat} {st : GenState} (h : GenInv blobSize offset readSize n st) (vb : Nat × Nat) :
    (genStep size blobSize (offset / blobSize) st vb).blobs =
      st.blobs ++ (refArgs size blobSize offset readSize n vb).toList ∧
    GenInv blobSize offset readSize (n + 1) (genStep size blobSize (offset / blobSize) st vb) := by
  obtain ⟨hrem, hidx⟩ := h
  simp only [GenInv, refArgs, lo, hi, Nat.succ_mul]
  by_cases h0 : st.remainSize = 0
  · -- nothing remains: the pass returns, and blob `n` lies past the read
    obtain ⟨hnone, hrem'⟩ := pass_done_arith (B := blobSize) hrem h0
    simp only [genStep, h0, if_true, if_neg hnone, Option.toList, List.append_nil]
    exact ⟨trivial, hrem', fun h => absurd h (Nat.lt_irrefl 0)⟩
  obtain ⟨rfl, hbo⟩ := hidx (Nat.pos_of_ne_zero h0)
  have hdm : offset / blobSize * blobSize + offset % blobSize = offset := by
    rw [Nat.mul_comm]; exact Nat.div_add_mod offset blobSize
  by_cases hf : offset / blobSize ≤ st.idx
  · -- the pass reads from this blob: from `offset % blobSize` in the first one, else from 0
    have hc : max offset (st.idx * blobSize) = st.idx * blobSize + st.blobOffset ∧
        st.blobOffset < blobSize := by
      rcases Nat.eq_or_lt_of_le hf with heq | hgt
      · rw [if_pos heq.ge] at hbo
        rw [← heq, hbo, hdm]
        exact ⟨max_eq_left (Nat.le.intro hdm), Nat.mod_lt offset hB⟩
      · rw [if_neg (Nat.not_le.mpr hgt)] at hbo
        have := Nat.mul_le_mul_right blobSize hgt
        rw [Nat.succ_mul] at this
        rw [hbo, max_eq_right (by have := Nat.mod_lt offset hB; omega)]
        exact ⟨rfl, hB⟩
    obtain ⟨hsome, hread, hrem'⟩ := pass_read_arith hc.1
      (pass_started_arith hrem (Nat.pos_of_ne_zero h0)) (Nat.pos_of_ne_zero h0) hc.2
    have hbs : u64sub size (u64 (st.idx * blobSize)) = size - st.idx * blobSize := by
      have : st.idx * blobSize < size :=
        ((le_max_right _ _).trans_lt (hsome.trans_le (min_le_left _ _))).trans_le hsz
      rw [u64_of_lt (this.trans h64), u64sub_of_le h64 this.le]
    simp only [genStep, h0, if_false, if_pos hf, if_pos hsome, hbs, Option.toList_some]
    rw [hread, hc.1] at hrem' ⊢
    rw [Nat.add_sub_cancel_left]
    refine ⟨if_pos (Nat.sub_pos_of_lt (hc.1 ▸ hsome)), hrem', fun _ => ⟨trivial, ?_⟩⟩
    rw [if_neg (Nat.not_le.mpr (Nat.lt_succ_of_le hf))]
  · -- a blob before the read
    have hbefore := Nat.mul_le_mul_right blobSize (Nat.lt_of_not_le hf)
    rw [Nat.succ_mul] at hbefore
    obtain ⟨hnone, hrem'⟩ := pass_skip_arith hrem (hbefore.trans (Nat.le.intro hdm))
    simp only [genStep, h0, if_false, if_neg hf, if_neg hnone, Option.toList, List.append_nil]
    refine ⟨trivial, hrem', fun _ => ⟨trivial, ?_⟩⟩
    rw [if_pos (Nat.succ_le_of_lt (Nat.lt_of_not_le hf)), hbo, if_pos (Nat.le_of_not_le hf)]

theorem genFold_spec (hB : 0 < blobSize) (hsz : offset + readSize ≤ size) (h64 : size < 2 ^ 64)
    (ids : List (Nat × Nat)) {n : Nat} {st : GenState} (h : GenInv blobSize offset readSize n st) :
    (ids.foldl (genStep size blobSize (offset / blobSize)) st).blobs =
      st.blobs ++ refFrom size blobSize offset readSize n ids ∧
    GenInv blobSize offset readSize (n + ids.length)
      (ids.foldl (genStep size blobSize (offset / blobSize)) st) := by
  induction ids generalizing n st with
  | nil => exact ⟨(List.append_nil _).symm, h⟩
  | cons vb ids ih =>
    obtain ⟨hb, hi⟩ := genStep_spec hB hsz h64 h vb
    obtain ⟨hb', hi'⟩ := ih hi
    rw [List.foldl_cons, hb', hb, refFrom, List.append_assoc, List.length_cons,
      ← Nat.add_assoc, Nat.add_right_comm]
    exact ⟨rfl, hi'⟩

end

theorem genLocationBlobs_eq (location : Location) {readSize offset : Nat}
    (hB : 0 < location.blobSize) (hsz : offset + readSize ≤ location.size)
    (h64 : location.size < 2 ^ 64) :
    genLocationBlobs location readSize offset =
      if 0 < readSize ∧ location.ids.length * location.blobSize < offset + readSize then
        .error .noEnoughData
      else .ok (refFrom location.size location.blobSize offset readSize 0 location.ids) := by
  have hinit : GenInv location.blobSize offset readSize 0
      ⟨0, readSize, offset % location.blobSize, []⟩ :=
    ⟨by simp, fun _ => ⟨rfl, (if_pos (Nat.zero_le _)).symm⟩⟩
  obtain ⟨hb, hrem, -⟩ := genFold_spec hB hsz h64 location.ids hinit
  have hc : 0 < readSize - (min (offset + readSize) ((0 + location.ids.length) * location.blobSize)
      - offset) ↔ 0 < readSize ∧ location.ids.length * location.blobSize < offset + readSize := by
    rw [Nat.zero_add]; omega
  simp only [genLocationBlobs, u64_of_lt (Nat.lt_of_le_of_lt hsz h64), Nat.not_lt.mpr hsz,
    hB.ne', if_false, genRuns_eq, Location.ids] at hb hrem ⊢
  rw [hrem, hb, List.nil_append]
  exact if_congr hc rfl rfl

/-- For arguments whose sum fits in `uint64`, `genLocationBlobs` succeeds exactly when the blob
size is positive, the range lies in the object, and the location's blobs cover it. -/
theorem genLocationBlobs_ok_iff (location : Location) {readSize offset : Nat}
    (h64 : offset + readSize < 2 ^ 64) (hs : location.size < 2 ^ 64) :
    (∃ blobs, genLocationBlobs location readSize offset = .ok blobs) ↔
      0 < location.blobSize ∧ offset + readSize ≤ location.size ∧
        (readSize = 0 ∨ offset + readSize ≤ location.blobSize * location.ids.length) := by
  by_cases hsz : offset + readSize ≤ location.size
  · by_cases hB : 0 < location.blobSize
    · rw [genLocationBlobs_eq location hB hsz hs, Nat.mul_comm]
      split_ifs with h
      · simp only [reduceCtorEq, exists_false, false_iff, not_and, not_or]
        omega
      · exact iff_of_true ⟨_, rfl⟩ ⟨hB, hsz, by omega⟩
    · simp [genLocationBlobs, u64_of_lt h64, Nat.not_lt.mpr hsz, Nat.eq_zero_of_not_pos hB]
  · simp [genLocationBlobs, u64_of_lt h64, Nat.lt_of_not_le hsz, hsz]

/-- A five-byte object in blobs of two bytes, read from byte 2 to its end. -/
theorem genLocationBlobs_ok_iff_five :
    2 + 3 < 2 ^ 64 ∧ (⟨5, 2, [⟨0, 0, 3⟩]⟩ : Location).size < 2 ^ 64 ∧
    ((∃ blobs, genLocationBlobs ⟨5, 2, [⟨0, 0, 3⟩]⟩ 3 2 = .ok blobs) ↔
      0 < (⟨5, 2, [⟨0, 0, 3⟩]⟩ : Location).blobSize ∧
        2 + 3 ≤ (⟨5, 2, [⟨0, 0, 3⟩]⟩ : Location).size ∧
        (3 = 0 ∨ 2 + 3 ≤ (⟨5, 2, [⟨0, 0, 3⟩]⟩ : Location).blobSize *
          (⟨5, 2, [⟨0, 0, 3⟩]⟩ : Location).ids.length)) :=
  ⟨by norm_num, by norm_num, genLocationBlobs_ok_iff _ (by norm_num) (by norm_num)⟩

/-- `offset + readSize` wraps in `uint64`: a two-byte read from the last byte of a `2^64 - 1`-byte
object passes the bounds check and gets a blob past the object's end. -/
theorem genLocationBlobs_accepts_wrapped_range :
    (⟨2 ^ 64 - 1, 2 ^ 63, [⟨0, 0, 3⟩]⟩ : Location).size < (2 ^ 64 - 1) + 2 ∧
    genLocationBlobs ⟨2 ^ 64 - 1, 2 ^ 63, [⟨0, 0, 3⟩]⟩ 2 (2 ^ 64 - 1) =
      .ok [⟨0, 1, 2 ^ 63 - 1, 2 ^ 63 - 1, 1⟩, ⟨0, 2, 2 ^ 63, 0, 1⟩] :=
  ⟨by decide, rfl⟩

/-- The bytes of blob `j` of an object cut into blobs of `blobSize` bytes. -/
def blobData (obj : List UInt8) (blobSize j : Nat) : List UInt8 :=
  (obj.drop (j * blobSize)).take blobSize

/-- The part of a blob's bytes a read of it passes on. -/
def BlobGetArgs.slice (args : BlobGetArgs) (data : List UInt8) : List UInt8 :=
  (data.drop args.offset).take args.readSize

theorem drop_take_append {obj : List UInt8} {a b c : Nat} (hab : a ≤ b) (hbc : b ≤ c) :
    (obj.drop a).take (b - a) ++ (obj.drop b).take (c - b) = (obj.drop a).take (c - a) := by
  rw [show c - a = (b - a) + (c - b) by omega, List.take_add, List.drop_drop,
    Nat.add_sub_cancel' hab]

theorem take_sub_eq_nil (obj : List UInt8) {a c : Nat} (h : c ≤ a) : (obj.drop a).take (c - a) = [] := by
  rw [Nat.sub_eq_zero_of_le h, List.take_zero]

theorem slice_blobData (obj : List UInt8) {blobSize j a b : Nat} (ha : j * blobSize ≤ a)
    (hb : b ≤ j * blobSize + blobSize) :
    ((blobData obj blobSize j).drop (a - j * blobSize)).take (b - a) = (obj.drop a).take (b - a) := by
  rw [blobData, List.drop_take, List.drop_drop, Nat.add_sub_cancel' ha, List.take_take,
    Nat.min_eq_left (by omega)]

section

variable {size blobSize offset readSize : Nat}

theorem refFrom_slices (hB : 0 < blobSize) (obj : List UInt8) (stored : Nat × Nat → List UInt8)
    (ids : List (Nat × Nat)) {j : Nat}
    (hst : ∀ k vb, ids[k]? = some vb → stored vb = blobData obj blobSize (j + k)) :
    ((refFrom size blobSize offset readSize j ids).map fun a => a.slice (stored (a.vid, a.bid))).flatten =
      (obj.drop (lo blobSize offset j)).take
        (min (offset + readSize) ((j + ids.length) * blobSize) - lo blobSize offset j) := by
  induction ids generalizing j with
  | nil => exact (take_sub_eq_nil obj ((min_le_right _ _).trans (le_max_right _ _))).symm
  | cons vb ids ih =>
    have hrest := ih (j := j + 1) fun k vb' h => by
      rw [hst (k + 1) vb' (by simpa using h), Nat.add_right_comm, Nat.add_assoc]
    have hend : (j + 1) * blobSize ≤ (j + ids.length + 1) * blobSize :=
      Nat.mul_le_mul_right _ (by omega)
    rw [refFrom, List.map_append, List.flatten_append, hrest, List.length_cons,
      ← Nat.add_assoc j, Nat.add_right_comm j 1]
    simp only [lo, hi, Nat.succ_mul] at hend ⊢
    by_cases ht : max offset (j * blobSize) < min (offset + readSize) (j * blobSize + blobSize)
    · -- blob `j` is read from `lo j` to `hi j`
      simp only [refArgs, lo, hi, if_pos ht, Option.toList_some, List.map_cons, List.map_nil,
        List.flatten_cons, List.flatten_nil, List.append_nil, BlobGetArgs.slice, Prod.mk.eta,
        hst 0 vb (List.getElem?_cons_zero ..), Nat.add_zero]
      rw [slice_blobData obj (le_max_right _ _) (min_le_right _ _)]
      by_cases hl : offset + readSize ≤ j * blobSize + blobSize
      · -- the read ends in blob `j`
        rw [min_eq_left hl, min_eq_left (hl.trans hend),
          take_sub_eq_nil obj (hl.trans (le_max_right _ _)), List.append_nil]
      · -- the read goes on from the end of blob `j`
        have hb : max offset (j * blobSize + blobSize) = j * blobSize + blobSize :=
          max_eq_right (by omega)
        rw [min_eq_right (Nat.le_of_not_le hl), hb]
        exact drop_take_append (by omega) (by omega)
    · -- blob `j` lies before the read, or the read has ended
      simp only [refArgs, lo, hi, if_neg ht, Option.toList_none, List.map_nil, List.flatten_nil,
        List.nil_append]
      by_cases hb : j * blobSize + blobSize ≤ offset
      · rw [max_eq_left hb, max_eq_left (by omega)]
      · have he : offset + readSize ≤ max offset (j * blobSize) := by omega
        have he' : offset + readSize ≤ max offset (j * blobSize + blobSize) := by omega
        rw [take_sub_eq_nil obj ((min_le_left _ _).trans he'),
          take_sub_eq_nil obj ((min_le_left _ _).trans he)]

theorem refFrom_mem (hsz : offset + readSize ≤ size) (obj : List UInt8) (hobj : obj.length = size)
    (stored : Nat × Nat → List UInt8) (ids : List (Nat × Nat)) {j : Nat}
    (hst : ∀ k vb, ids[k]? = some vb → stored vb = blobData obj blobSize (j + k)) {a : BlobGetArgs}
    (ha : a ∈ refFrom size blobSize offset readSize j ids) :
    0 < a.readSize ∧ a.offset + a.readSize ≤ a.blobSize ∧
      a.blobSize = (stored (a.vid, a.bid)).length := by
  induction ids generalizing j with
  | nil => exact absurd ha (List.not_mem_nil a)
  | cons vb ids ih =>
    rcases List.mem_append.mp ha with ha | ha
    · simp only [refArgs, lo, hi] at ha
      split at ha
      · rw [Option.mem_toList, Option.mem_def, Option.some.injEq] at ha
        subst ha
        dsimp only
        rw [Prod.mk.eta, hst 0 vb (List.getElem?_cons_zero ..), Nat.add_zero, blobData,
          List.length_take, List.length_drop, hobj, Nat.min_comm blobSize]
        exact ⟨by omega, by omega, rfl⟩
      · exact absurd ha (List.not_mem_nil a)
    · exact ih (fun k vb' h => by
        rw [hst (k + 1) vb' (by simpa using h), Nat.add_right_comm, Nat.add_assoc]) ha

end

end BlobStore.Access
