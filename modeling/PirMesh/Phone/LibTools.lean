import Mathlib.Algebra.GroupWithZero.Nat
import Mathlib.Data.BitVec
import PirMesh.Library.Nor

/-! # Phone — Numbers as text (`LibTools.m`)

The phone keeps its numbers as hexadecimal text.  `nsstringToHex` reads two digits at a time and
stops at what is not one; `uint32From16String` takes the octets of the text from the last one
up.  The text of `%08X` reads back as the number it was made from
(`uint32From16String_format`), and so does that of `%016llX`
(`uint64From16String_getUint64String`). -/

namespace PirMesh

open Nor

namespace LibTools

/-- The value of a digit: `isxdigit`, and `sscanf` for one digit. -/
def hexValue (c : Char) : Option ℕ :=
  if '0' ≤ c ∧ c ≤ '9' then some (c.toNat - 48)
  else if 'A' ≤ c ∧ c ≤ 'F' then some (c.toNat - 55)
  else if 'a' ≤ c ∧ c ≤ 'f' then some (c.toNat - 87)
  else none

/-- `sscanf` with `%x` on a digit and the character behind it, which is left out when it is no
digit. -/
def scanPair (high : ℕ) (c : Char) : Byte :=
  BitVec.ofNat 8 (((hexValue c).map (16 * high + ·)).getD high)

def hexPairs : List Char → List Byte
  | c0 :: c1 :: text =>
    match hexValue c0 with
    | some high => scanPair high c1 :: hexPairs text
    | none => []
  | _ => []

/-- A text of one digit counts too. -/
def nsstringToHex (text : List Char) : List Byte :=
  match text with
  | [c] => ((hexValue c).map (BitVec.ofNat 8)).toList
  | text => hexPairs text

def turnOverData (data : List Byte) : List Byte := data.reverse

def uint32FromBytes (data : List Byte) : BitVec 32 :=
  let val0 : BitVec 32 := (data.getD 0 0).setWidth 32
  let val1 : BitVec 32 := (data.getD 1 0).setWidth 32
  let val2 : BitVec 32 := (data.getD 2 0).setWidth 32
  let val3 : BitVec 32 := (data.getD 3 0).setWidth 32
  (val0 &&& 0xFF#32) + (val1 <<< 8 &&& 0xFF00#32) + (val2 <<< 16 &&& 0xFF0000#32) +
    (val3 <<< 24 &&& 0xFF000000#32)

def uint32From16String (text : List Char) : BitVec 32 :=
  uint32FromBytes (turnOverData (nsstringToHex text))

def uint16FromBytes (data : List Byte) : BitVec 16 :=
  let val0 : BitVec 16 := (data.getD 0 0).setWidth 16
  let val1 : BitVec 16 := (data.getD 1 0).setWidth 16
  (val0 &&& 0xFF#16) + (val1 <<< 8 &&& 0xFF00#16)

def uint16From16String (text : List Char) : BitVec 16 :=
  uint16FromBytes (turnOverData (nsstringToHex text))

/-- A digit of `%X`. -/
def hexChar (value : ℕ) : Char :=
  if value < 10 then Char.ofNat (48 + value) else Char.ofNat (55 + value)

/-- `stringWithFormat:@"%08X"`. -/
def format08X (x : BitVec 32) : List Char :=
  [7, 6, 5, 4, 3, 2, 1, 0].map fun i => hexChar (x.toNat / 16 ^ i % 16)

/-- `stringWithFormat:@"%04X"`: four digits at least. -/
def format04X (n : ℕ) : List Char :=
  if n < 16 ^ 4 then [3, 2, 1, 0].map fun i => hexChar (n / 16 ^ i % 16)
  else ((List.range 8).reverse.dropWhile fun i => n < 16 ^ i).map fun i => hexChar (n / 16 ^ i % 16)

/-- `stringWithFormat:@"%016llX"`. -/
def getUint64String (n : BitVec 64) : List Char :=
  (List.range 16).reverse.map fun i => hexChar (n.toNat / 16 ^ i % 16)

def uint64FromBytes (data : List Byte) : BitVec 64 :=
  let val : ℕ → BitVec 64 := fun i => (data.getD i 0).setWidth 64
  (val 0 &&& 0xff#64) + (val 1 <<< 8 &&& 0xff00#64) + (val 2 <<< 16 &&& 0xff0000#64) +
    (val 3 <<< 24 &&& 0xff000000#64) + (val 4 <<< 32 &&& 0xff00000000#64) +
    (val 5 <<< 40 &&& 0xff0000000000#64) + (val 6 <<< 48 &&& 0xff000000000000#64) +
    (val 7 <<< 56 &&& 0xff00000000000000#64)

def uint64From16String (text : List Char) : BitVec 64 :=
  uint64FromBytes (turnOverData (nsstringToHex text))

def meshUUIDToUUID (uuid : List Char) : List Char := uuid.filter (· != '-')

theorem hexValue_hexChar {value : ℕ} (h : value < 16) : hexValue (hexChar value) = some value := by
  have hall : ∀ value < 16, hexValue (hexChar value) = some value := by decide
  exact hall value h

theorem hexPairs_cons {high low : ℕ} (hhigh : high < 16) (hlow : low < 16) (text : List Char) :
    hexPairs (hexChar high :: hexChar low :: text) =
      BitVec.ofNat 8 (16 * high + low) :: hexPairs text := by
  have hpair : scanPair high (hexChar low) = BitVec.ofNat 8 (16 * high + low) := by
    unfold scanPair
    rw [hexValue_hexChar hlow]
    rfl
  rw [hexPairs, hexValue_hexChar hhigh, ← hpair]

/-- An octet of a word, at its place. -/
theorem octetAt_toNat {w k : ℕ} (h : k + 8 ≤ w) (y : Byte) :
    (y.setWidth w <<< k &&& 0xFF#w <<< k).toNat = y.toNat * 2 ^ k := by
  have hlow : y.setWidth w &&& 0xFF#w = y.setWidth w := by
    refine BitVec.eq_of_toNat_eq ?_
    have hpow : 2 ^ 8 ≤ 2 ^ w := Nat.pow_le_pow_right (by decide) (by omega)
    have hy := y.isLt
    rw [BitVec.toNat_and, BitVec.toNat_setWidth, BitVec.toNat_ofNat, Nat.mod_eq_of_lt (by omega),
      Nat.mod_eq_of_lt (by omega), Nat.and_two_pow_sub_one_eq_mod y.toNat 8]
    exact Nat.mod_eq_of_lt hy
  have hpow : 2 ^ (8 + k) ≤ 2 ^ w := Nat.pow_le_pow_right (by decide) (by omega)
  have hlt : y.toNat * 2 ^ k < 2 ^ (8 + k) := by
    rw [Nat.pow_add]
    exact Nat.mul_lt_mul_of_pos_right y.isLt (Nat.two_pow_pos k)
  rw [← BitVec.shiftLeft_and_distrib, hlow, BitVec.toNat_shiftLeft, BitVec.toNat_setWidth,
    Nat.shiftLeft_eq, Nat.mod_eq_of_lt (y.isLt.trans_le (Nat.pow_le_pow_right (by decide)
      (by omega))), Nat.mod_eq_of_lt (by omega)]

theorem uint32FromBytes_toNat (b0 b1 b2 b3 : Byte) :
    (uint32FromBytes [b0, b1, b2, b3]).toNat =
      b0.toNat + b1.toNat * 256 + b2.toNat * 65536 + b3.toNat * 16777216 := by
  have hbytes : uint32FromBytes [b0, b1, b2, b3] = (b0.setWidth 32 <<< 0 &&& 0xFF#32 <<< 0) +
      (b1.setWidth 32 <<< 8 &&& 0xFF#32 <<< 8) + (b2.setWidth 32 <<< 16 &&& 0xFF#32 <<< 16) +
      (b3.setWidth 32 <<< 24 &&& 0xFF#32 <<< 24) := by
    rw [BitVec.shiftLeft_zero, BitVec.shiftLeft_zero]
    rfl
  rw [hbytes, BitVec.toNat_add, BitVec.toNat_add, BitVec.toNat_add, octetAt_toNat (by decide),
    octetAt_toNat (by decide), octetAt_toNat (by decide), octetAt_toNat (by decide)]
  have h0 := b0.isLt
  have h1 := b1.isLt
  have h2 := b2.isLt
  have h3 := b3.isLt
  omega

theorem uint16FromBytes_toNat (b0 b1 : Byte) :
    (uint16FromBytes [b0, b1]).toNat = b0.toNat + b1.toNat * 256 := by
  have hbytes : uint16FromBytes [b0, b1] = (b0.setWidth 16 <<< 0 &&& 0xFF#16 <<< 0) +
      (b1.setWidth 16 <<< 8 &&& 0xFF#16 <<< 8) := by
    rw [BitVec.shiftLeft_zero, BitVec.shiftLeft_zero]
    rfl
  rw [hbytes, BitVec.toNat_add, octetAt_toNat (by decide), octetAt_toNat (by decide)]
  have h0 := b0.isLt
  have h1 := b1.isLt
  omega

/-- The octets of a word, the last one first. -/
theorem uint32FromBytes_octets (x : BitVec 32) :
    uint32FromBytes [x.setWidth 8, (x >>> 8).setWidth 8, (x >>> 16).setWidth 8,
      (x >>> 24).setWidth 8] = x := by
  refine BitVec.eq_of_toNat_eq ?_
  have hx := x.isLt
  rw [uint32FromBytes_toNat, BitVec.toNat_setWidth, BitVec.toNat_setWidth, BitVec.toNat_setWidth,
    BitVec.toNat_setWidth, BitVec.toNat_ushiftRight, BitVec.toNat_ushiftRight,
    BitVec.toNat_ushiftRight, Nat.shiftRight_eq_div_pow, Nat.shiftRight_eq_div_pow,
    Nat.shiftRight_eq_div_pow]
  omega

/-- Two digits of a number make the octet they stand for. -/
theorem digits_octet (n k : ℕ) :
    BitVec.ofNat 8 (16 * (n / 16 ^ (k + 1) % 16) + n / 16 ^ k % 16) =
      BitVec.ofNat 8 (n / 16 ^ k) := by
  refine BitVec.eq_of_toNat_eq ?_
  rw [BitVec.toNat_ofNat, BitVec.toNat_ofNat, pow_succ, ← Nat.div_div_eq_div_mul]
  omega

theorem nsstringToHex_format (x : BitVec 32) :
    nsstringToHex (format08X x) = [(x >>> 24).setWidth 8, (x >>> 16).setWidth 8,
      (x >>> 8).setWidth 8, x.setWidth 8] := by
  have hdigit : ∀ n, n % 16 < 16 := fun n => Nat.mod_lt n (by decide)
  have hpairs : hexPairs (format08X x) = [BitVec.ofNat 8 (x.toNat / 16 ^ 6),
      BitVec.ofNat 8 (x.toNat / 16 ^ 4), BitVec.ofNat 8 (x.toNat / 16 ^ 2),
      BitVec.ofNat 8 (x.toNat / 16 ^ 0)] := by
    unfold format08X
    rw [List.map_cons, List.map_cons, List.map_cons, List.map_cons, List.map_cons, List.map_cons,
      List.map_cons, List.map_cons, List.map_nil, hexPairs_cons (hdigit _) (hdigit _),
      hexPairs_cons (hdigit _) (hdigit _),
      hexPairs_cons (hdigit _) (hdigit _), hexPairs_cons (hdigit _) (hdigit _), digits_octet,
      digits_octet, digits_octet, digits_octet]
    rfl
  have hoctet : ∀ k, BitVec.ofNat 8 (x.toNat / 2 ^ k) = (x >>> k).setWidth 8 := by
    intro k
    refine BitVec.eq_of_toNat_eq ?_
    rw [BitVec.toNat_ofNat, BitVec.toNat_setWidth, BitVec.toNat_ushiftRight,
      Nat.shiftRight_eq_div_pow]
  have hzero := hoctet 0
  rw [BitVec.ushiftRight_zero] at hzero
  exact hpairs.trans (congrArg₂ _ (hoctet 24) (congrArg₂ _ (hoctet 16)
    (congrArg₂ _ (hoctet 8) (congrArg₂ _ hzero rfl))))

theorem uint32From16String_format (x : BitVec 32) : uint32From16String (format08X x) = x := by
  unfold uint32From16String
  rw [nsstringToHex_format]
  exact uint32FromBytes_octets x

theorem uint16From16String_format {n : ℕ} (h : n < 16 ^ 4) :
    uint16From16String (format04X n) = BitVec.ofNat 16 n := by
  have hdigit : ∀ n, n % 16 < 16 := fun n => Nat.mod_lt n (by decide)
  have hpairs : nsstringToHex (format04X n) =
      [BitVec.ofNat 8 (n / 16 ^ 2), BitVec.ofNat 8 (n / 16 ^ 0)] := by
    unfold format04X
    rw [if_pos h, List.map_cons, List.map_cons, List.map_cons, List.map_cons, List.map_nil]
    change hexPairs _ = _
    rw [hexPairs_cons (hdigit _) (hdigit _), hexPairs_cons (hdigit _) (hdigit _), digits_octet,
      digits_octet]
    rfl
  unfold uint16From16String
  rw [hpairs]
  refine BitVec.eq_of_toNat_eq ((uint16FromBytes_toNat _ _).trans ?_)
  rw [BitVec.toNat_ofNat, BitVec.toNat_ofNat, BitVec.toNat_ofNat, pow_zero, Nat.div_one]
  omega

/-- The octet `k` of a number. -/
theorem octet_toNat (n k : ℕ) :
    (BitVec.ofNat 8 (n / 16 ^ (2 * k)) : Byte).toNat = n / 256 ^ k % 256 := by
  rw [BitVec.toNat_ofNat, pow_mul]
  rfl

theorem nsstringToHex_getUint64String (n : BitVec 64) :
    nsstringToHex (getUint64String n) =
      ([7, 6, 5, 4, 3, 2, 1, 0].map fun k => BitVec.ofNat 8 (n.toNat / 16 ^ (2 * k))) := by
  have hdigit : ∀ n, n % 16 < 16 := fun n => Nat.mod_lt n (by decide)
  have htext : getUint64String n =
      [15, 14, 13, 12, 11, 10, 9, 8, 7, 6, 5, 4, 3, 2, 1, 0].map fun i =>
        hexChar (n.toNat / 16 ^ i % 16) := rfl
  rw [htext]
  change hexPairs _ = _
  simp only [List.map_cons, List.map_nil]
  rw [hexPairs_cons (hdigit _) (hdigit _), hexPairs_cons (hdigit _) (hdigit _),
    hexPairs_cons (hdigit _) (hdigit _), hexPairs_cons (hdigit _) (hdigit _),
    hexPairs_cons (hdigit _) (hdigit _), hexPairs_cons (hdigit _) (hdigit _),
    hexPairs_cons (hdigit _) (hdigit _), hexPairs_cons (hdigit _) (hdigit _), digits_octet,
    digits_octet, digits_octet, digits_octet, digits_octet, digits_octet, digits_octet,
    digits_octet]
  rfl

theorem uint64FromBytes_toNat (b0 b1 b2 b3 b4 b5 b6 b7 : Byte) :
    (uint64FromBytes [b0, b1, b2, b3, b4, b5, b6, b7]).toNat =
      b0.toNat + b1.toNat * 256 ^ 1 + b2.toNat * 256 ^ 2 + b3.toNat * 256 ^ 3 +
        b4.toNat * 256 ^ 4 + b5.toNat * 256 ^ 5 + b6.toNat * 256 ^ 6 + b7.toNat * 256 ^ 7 := by
  have hbytes : uint64FromBytes [b0, b1, b2, b3, b4, b5, b6, b7] =
      (b0.setWidth 64 <<< 0 &&& 0xFF#64 <<< 0) + (b1.setWidth 64 <<< 8 &&& 0xFF#64 <<< 8) +
        (b2.setWidth 64 <<< 16 &&& 0xFF#64 <<< 16) + (b3.setWidth 64 <<< 24 &&& 0xFF#64 <<< 24) +
        (b4.setWidth 64 <<< 32 &&& 0xFF#64 <<< 32) + (b5.setWidth 64 <<< 40 &&& 0xFF#64 <<< 40) +
        (b6.setWidth 64 <<< 48 &&& 0xFF#64 <<< 48) +
        (b7.setWidth 64 <<< 56 &&& 0xFF#64 <<< 56) := by
    rw [BitVec.shiftLeft_zero, BitVec.shiftLeft_zero]
    rfl
  rw [hbytes]
  simp only [BitVec.toNat_add, Nat.mod_add_mod]
  rw [octetAt_toNat (by decide), octetAt_toNat (by decide), octetAt_toNat (by decide),
    octetAt_toNat (by decide), octetAt_toNat (by decide), octetAt_toNat (by decide),
    octetAt_toNat (by decide), octetAt_toNat (by decide)]
  have h0 := b0.isLt
  have h1 := b1.isLt
  have h2 := b2.isLt
  have h3 := b3.isLt
  have h4 := b4.isLt
  have h5 := b5.isLt
  have h6 := b6.isLt
  have h7 := b7.isLt
  refine (Nat.mod_eq_of_lt ?_).trans ?_
  · omega
  · omega

theorem uint64From16String_getUint64String (n : BitVec 64) :
    uint64From16String (getUint64String n) = n := by
  refine BitVec.eq_of_toNat_eq ?_
  have hlt : n.toNat % 256 ^ 8 = n.toNat := Nat.mod_eq_of_lt n.isLt
  unfold uint64From16String
  rw [nsstringToHex_getUint64String]
  refine (uint64FromBytes_toNat _ _ _ _ _ _ _ _).trans ?_
  rw [octet_toNat, octet_toNat, octet_toNat, octet_toNat, octet_toNat, octet_toNat, octet_toNat,
    octet_toNat]
  refine Eq.trans ?_ hlt
  rw [Nat.mod_pow_succ, Nat.mod_pow_succ, Nat.mod_pow_succ, Nat.mod_pow_succ, Nat.mod_pow_succ,
    Nat.mod_pow_succ, Nat.mod_pow_succ, Nat.mod_pow_succ]
  omega

/-- What has no dashes any more stays as it is. -/
theorem meshUUIDToUUID_twice (uuid : List Char) :
    meshUUIDToUUID (meshUUIDToUUID uuid) = meshUUIDToUUID uuid := by
  unfold meshUUIDToUUID
  rw [List.filter_filter]
  exact List.filter_congr fun c _ => Bool.and_self _

theorem meshUUIDToUUID_eq_iff (uuid : List Char) : meshUUIDToUUID uuid = uuid ↔ '-' ∉ uuid := by
  unfold meshUUIDToUUID
  rw [List.filter_eq_self]
  constructor
  · intro h hmem
    exact absurd (h '-' hmem) (by decide)
  · intro h c hc
    exact bne_iff_ne.mpr fun heq => h (heq ▸ hc)

end LibTools

end PirMesh
