import PirMesh.Library.Words

/-! # Phone — Lists of key indexes (`SigConfigMessage.m`)

Two indexes of twelve bits share three octets, with the second one in the low bits; an
index that is left over takes a word.  The decoder steps through the octets the same way,
so a list and its octets determine each other (`decode_encode`, `encode_decode`) as long
as the limit of 10000 does not cut in. -/

namespace PirMesh.KeyIndexes

open Words

abbrev Byte := BitVec 8

/-- `intValue` of a number. -/
abbrev NSNumber := BitVec 32

/-! ### The codec -/

/-- The low three octets of the pair, low octet first. -/
def pairBytes (index1 index2 : NSNumber) : List Byte :=
  let pair := index1 <<< 12 ||| index2
  [pair.setWidth 8, (pair >>> 8).setWidth 8, (pair >>> 16).setWidth 8]

/-- `encodeLimit:indexes:` -/
def encodeLimit : ℕ → List NSNumber → List Byte
  | 0, _ => []
  | _ + 1, [] => []
  | _ + 1, [index] => wordBytes (index.setWidth 16)
  | 1, index :: _ :: _ => wordBytes (index.setWidth 16)
  | limit + 2, index1 :: index2 :: indexes => pairBytes index1 index2 ++ encodeLimit limit indexes

def encodeIndexes (indexes : List NSNumber) : List Byte := encodeLimit 10000 indexes

def firstIndex (tem2 tem3 : Byte) : BitVec 16 := tem3.setWidth 16 <<< 4 ||| (tem2 >>> 4).setWidth 16

def secondIndex (tem1 tem2 : Byte) : BitVec 16 :=
  (tem2 &&& 0x0F).setWidth 16 <<< 8 ||| tem1.setWidth 16

/-- `decodeLimit:indexesFromData:atOffset:`; the size may be negative. -/
def decodeLimit : ℕ → List Byte → ℕ → List NSNumber
  | 0, _, _ => []
  | 1, data, off =>
    if (data.length - off : ℤ) < 2 then [] else [(word data off).setWidth 32]
  | limit + 2, data, off =>
    let size : ℤ := data.length - off
    if size < 2 then []
    else if size = 2 then [(word data off).setWidth 32]
    else
      let tem1 := data.getD off 0
      let tem2 := data.getD (off + 1) 0
      let tem3 := data.getD (off + 2) 0
      (firstIndex tem2 tem3).setWidth 32 :: (secondIndex tem1 tem2).setWidth 32 ::
        decodeLimit limit data (off + 3)

def decodeIndexesFromData (data : List Byte) (off : ℕ) : List NSNumber := decodeLimit 10000 data off

/-- A key index has twelve bits. -/
abbrev IsKeyIndex (index : NSNumber) : Prop := index.toNat < 4096

/-! ### A pair and a word as numbers -/

section Pair

variable {index1 index2 : NSNumber}

theorem toNat_pair (h1 : IsKeyIndex index1) (h2 : IsKeyIndex index2) :
    (index1 <<< 12 ||| index2).toNat = index1.toNat * 4096 + index2.toNat := by
  rw [IsKeyIndex] at h1 h2
  have hor := Nat.shiftLeft_add_eq_or_of_lt (i := 12) h2 index1.toNat
  rw [BitVec.toNat_or, BitVec.toNat_shiftLeft,
    Nat.mod_eq_of_lt (by rw [Nat.shiftLeft_eq]; omega), ← hor, Nat.shiftLeft_eq]

theorem toNat_firstIndex (tem2 tem3 : Byte) :
    (firstIndex tem2 tem3).toNat = tem3.toNat * 16 + tem2.toNat / 16 := by
  have h2 := tem2.isLt
  have h3 := tem3.isLt
  have hor := Nat.shiftLeft_add_eq_or_of_lt (i := 4) (b := tem2.toNat / 16) (by omega) tem3.toNat
  simp only [firstIndex, BitVec.toNat_or, BitVec.toNat_shiftLeft, BitVec.toNat_setWidth,
    BitVec.toNat_ushiftRight, Nat.shiftRight_eq_div_pow, Nat.reducePow]
  rw [Nat.mod_eq_of_lt (a := tem3.toNat) (by omega),
    Nat.mod_eq_of_lt (a := tem2.toNat / 16) (by omega),
    Nat.mod_eq_of_lt (by rw [Nat.shiftLeft_eq]; omega), ← hor, Nat.shiftLeft_eq]

theorem toNat_secondIndex (tem1 tem2 : Byte) :
    (secondIndex tem1 tem2).toNat = tem2.toNat % 16 * 256 + tem1.toNat := by
  have h1 := tem1.isLt
  have hand : tem2.toNat &&& (0x0F : Byte).toNat = tem2.toNat % 16 :=
    Nat.and_two_pow_sub_one_eq_mod _ 4
  have hor := Nat.shiftLeft_add_eq_or_of_lt (i := 8) h1 (tem2.toNat % 16)
  simp only [secondIndex, BitVec.toNat_or, BitVec.toNat_shiftLeft, BitVec.toNat_setWidth,
    BitVec.toNat_and, Nat.reducePow, hand]
  rw [Nat.mod_eq_of_lt (a := tem1.toNat) (by omega),
    Nat.mod_eq_of_lt (a := tem2.toNat % 16) (by omega),
    Nat.mod_eq_of_lt (by rw [Nat.shiftLeft_eq]; omega), ← hor, Nat.shiftLeft_eq]

/-- The indexes of three octets. -/
def pairOf (tem1 tem2 tem3 : Byte) : NSNumber × NSNumber :=
  ((firstIndex tem2 tem3).setWidth 32, (secondIndex tem1 tem2).setWidth 32)

/-- What a pair is written as, is read as the pair. -/
theorem pairOf_pair (h1 : IsKeyIndex index1) (h2 : IsKeyIndex index2) :
    let pair := index1 <<< 12 ||| index2
    pairOf (pair.setWidth 8) ((pair >>> 8).setWidth 8) ((pair >>> 16).setWidth 8) =
      (index1, index2) := by
  intro pair
  have hpair : pair.toNat = index1.toNat * 4096 + index2.toNat := toNat_pair h1 h2
  rw [IsKeyIndex] at h1 h2
  refine Prod.ext (BitVec.eq_of_toNat_eq ?_) (BitVec.eq_of_toNat_eq ?_)
  · simp only [pairOf, BitVec.toNat_setWidth, toNat_firstIndex, BitVec.toNat_ushiftRight,
      Nat.shiftRight_eq_div_pow, Nat.reducePow, hpair]
    omega
  · simp only [pairOf, BitVec.toNat_setWidth, toNat_secondIndex, BitVec.toNat_ushiftRight,
      Nat.shiftRight_eq_div_pow, Nat.reducePow, hpair]
    omega

theorem isKeyIndex_pairOf (tem1 tem2 tem3 : Byte) :
    IsKeyIndex (pairOf tem1 tem2 tem3).1 ∧ IsKeyIndex (pairOf tem1 tem2 tem3).2 := by
  have h1 := tem1.isLt
  have h2 := tem2.isLt
  have h3 := tem3.isLt
  simp only [IsKeyIndex, pairOf, BitVec.toNat_setWidth, toNat_firstIndex, toNat_secondIndex]
  omega

/-- Three octets are what their pair is written as. -/
theorem pairBytes_pairOf (tem1 tem2 tem3 : Byte) :
    pairBytes (pairOf tem1 tem2 tem3).1 (pairOf tem1 tem2 tem3).2 = [tem1, tem2, tem3] := by
  obtain ⟨hfirst, hsecond⟩ := isKeyIndex_pairOf tem1 tem2 tem3
  have hpair := toNat_pair hfirst hsecond
  have h1 := tem1.isLt
  have h2 := tem2.isLt
  have h3 := tem3.isLt
  simp only [pairOf, BitVec.toNat_setWidth, toNat_firstIndex, toNat_secondIndex] at hpair
  simp only [pairBytes, List.cons.injEq, and_true]
  refine ⟨BitVec.eq_of_toNat_eq ?_, BitVec.eq_of_toNat_eq ?_, BitVec.eq_of_toNat_eq ?_⟩ <;>
    simp only [pairOf, BitVec.toNat_setWidth, BitVec.toNat_ushiftRight, Nat.shiftRight_eq_div_pow,
      hpair] <;>
    omega

theorem word_of_wordBytes (index : NSNumber) (h : IsKeyIndex index) :
    ((index.setWidth 16 >>> 8).setWidth 8 ++ (index.setWidth 16).setWidth 8 :
      BitVec 16).setWidth 32 = index := by
  rw [IsKeyIndex] at h
  rw [append_wordBytes]
  refine BitVec.eq_of_toNat_eq ?_
  simp only [BitVec.toNat_setWidth]
  omega

end Pair

/-! ### Lists within the limit -/

/-- All of the indexes. -/
def encoded : List NSNumber → List Byte
  | [] => []
  | [index] => wordBytes (index.setWidth 16)
  | index1 :: index2 :: indexes => pairBytes index1 index2 ++ encoded indexes

/-- All that the octets hold. -/
def decoded : List Byte → List NSNumber
  | tem1 :: tem2 :: tem3 :: data =>
    (pairOf tem1 tem2 tem3).1 :: (pairOf tem1 tem2 tem3).2 :: decoded data
  | [low, high] => [(high ++ low : BitVec 16).setWidth 32]
  | _ => []

theorem encodeLimit_eq {limit : ℕ} {indexes : List NSNumber} (h : indexes.length ≤ limit) :
    encodeLimit limit indexes = encoded indexes := by
  induction limit, indexes using encodeLimit.induct with
  | case1 indexes =>
    rw [List.eq_nil_of_length_eq_zero (Nat.le_zero.mp h)]
    rfl
  | case2 => simp only [encodeLimit, encoded]
  | case3 => simp only [encodeLimit, encoded]
  | case4 index _ _ => simp at h
  | case5 limit index1 index2 indexes ih =>
    have hrest : indexes.length ≤ limit := by
      simpa using h
    rw [encodeLimit, encoded, ih hrest]

theorem getD_behind (pre data : List Byte) (k : ℕ) :
    (pre ++ data).getD (pre.length + k) 0 = data.getD k 0 := by
  rw [List.getD_eq_getElem?_getD, List.getElem?_append_right (Nat.le_add_right _ k),
    Nat.add_sub_cancel_left, List.getD_eq_getElem?_getD]

theorem word_behind (pre data : List Byte) :
    word (pre ++ data) pre.length = data.getD 1 0 ++ data.getD 0 0 := by
  rw [word, getD_behind, ← Nat.add_zero pre.length, getD_behind]

theorem size_behind (pre data : List Byte) :
    ((pre ++ data).length - pre.length : ℤ) = data.length := by
  rw [List.length_append, Nat.cast_add, add_sub_cancel_left]

/-- Two octets for every three, and the rest of the limit is not used. -/
theorem decodeLimit_eq {limit : ℕ} (pre data : List Byte) (h : 2 * data.length ≤ 3 * limit) :
    decodeLimit limit (pre ++ data) pre.length = decoded data := by
  -- a turn takes two indexes of the limit and three octets
  induction limit using Nat.twoStepInduction generalizing pre data with
  | zero =>
    rw [List.eq_nil_of_length_eq_zero (l := data) (by omega)]
    rfl
  | one =>
    rw [decodeLimit, size_behind, if_pos (by omega)]
    match data, h with
    | [], _ => rfl
    | [_], _ => rfl
  | more limit ih =>
    simp only [decodeLimit, size_behind, getD_behind, word_behind]
    match data, h with
    | [], _ => rfl
    | [_], _ => rfl
    | [low, high], _ => rfl
    | tem1 :: tem2 :: tem3 :: data, h =>
      have hsize : 2 < ((tem1 :: tem2 :: tem3 :: data).length : ℤ) := by
        simp
        omega
      have htem1 : (pre ++ tem1 :: tem2 :: tem3 :: data).getD pre.length 0 = tem1 :=
        getD_behind pre (tem1 :: tem2 :: tem3 :: data) 0
      have hrest := ih (pre ++ [tem1, tem2, tem3]) data (by simp at h; omega)
      rw [List.append_assoc, List.length_append] at hrest
      rw [if_neg (by omega), if_neg (by omega), htem1]
      exact congrArg₂ List.cons rfl (congrArg₂ List.cons rfl hrest)

theorem decoded_encoded {indexes : List NSNumber} (h : ∀ index ∈ indexes, IsKeyIndex index) :
    decoded (encoded indexes) = indexes := by
  induction indexes using encoded.induct with
  | case1 => rfl
  | case2 index => exact congrArg (· :: []) (word_of_wordBytes index (h index (by simp)))
  | case3 index1 index2 indexes ih =>
    have hpair := pairOf_pair (h index1 (by simp)) (h index2 (by simp))
    have hrest := ih fun index hmem => h index (by simp [hmem])
    simp only [encoded, pairBytes, List.cons_append, List.nil_append, decoded, hpair, hrest]

theorem length_encoded (indexes : List NSNumber) :
    2 * (encoded indexes).length ≤ 3 * indexes.length + 1 := by
  induction indexes using encoded.induct with
  | case1 => exact Nat.zero_le 1
  | case2 index => exact le_refl 4
  | case3 index1 index2 indexes ih =>
    simp only [encoded, pairBytes, List.cons_append, List.nil_append, List.length_cons]
    omega

theorem encoded_decoded {data : List Byte} (h : data.length % 3 = 0 ∨ data.length % 3 = 2) :
    encoded (decoded data) = data := by
  induction data using decoded.induct with
  | case1 tem1 tem2 tem3 data ih =>
    have hrest := ih (by simp at h; omega)
    rw [decoded, encoded, hrest, pairBytes_pairOf]
    rfl
  | case2 low high =>
    rw [decoded, encoded, BitVec.setWidth_setWidth_of_le _ (by omega), BitVec.setWidth_eq,
      wordBytes_append]
  | case3 data hthree htwo =>
    match data, h with
    | [], _ => rfl
    | [low, high], _ => exact absurd rfl (htwo low high)
    | tem1 :: tem2 :: tem3 :: data, _ => exact absurd rfl (hthree tem1 tem2 tem3 data)

theorem length_decoded (data : List Byte) : 3 * (decoded data).length ≤ 2 * data.length := by
  induction data using decoded.induct with
  | case1 tem1 tem2 tem3 data ih =>
    simp only [decoded, List.length_cons]
    omega
  | case2 low high => exact Nat.le_succ 3
  | case3 data hthree htwo => simp [decoded]

/-! ### Round trips -/

/-- **The list comes back from its octets, and the octets from their list.** -/
theorem indexes_round_trip (pre : List Byte) :
    (∀ indexes : List NSNumber, (∀ index ∈ indexes, IsKeyIndex index) → indexes.length ≤ 10000 →
      decodeIndexesFromData (pre ++ encodeIndexes indexes) pre.length = indexes) ∧
    ∀ data : List Byte, data.length ≤ 15000 → data.length % 3 = 0 ∨ data.length % 3 = 2 →
      encodeIndexes (decodeIndexesFromData (pre ++ data) pre.length) = data := by
  constructor
  · intro indexes hkey hlen
    have hbytes := length_encoded indexes
    rw [encodeIndexes, encodeLimit_eq hlen, decodeIndexesFromData, decodeLimit_eq _ _ (by omega),
      decoded_encoded hkey]
  · intro data hlen hmod
    have hcount := length_decoded data
    rw [decodeIndexesFromData, decodeLimit_eq _ _ (by omega), encodeIndexes,
      encodeLimit_eq (by omega), encoded_decoded hmod]

/-- Three indexes behind an octet, and five octets of which the last two are any word. -/
theorem indexes_round_trip_three :
    decodeIndexesFromData ([0] ++ encodeIndexes [0x123, 0xABC, 0x456]) 1 = [0x123, 0xABC, 0x456] ∧
      encodeIndexes (decodeIndexesFromData ([0] ++ [1, 2, 3, 0xFF, 0xFF]) 1) =
        [1, 2, 3, 0xFF, 0xFF] :=
  ⟨(indexes_round_trip [0]).1 [0x123, 0xABC, 0x456] (by simp [IsKeyIndex]) (by simp),
    (indexes_round_trip [0]).2 [1, 2, 3, 0xFF, 0xFF] (by simp) (by decide)⟩

end PirMesh.KeyIndexes
