import Mathlib.Algebra.GroupWithZero.Nat
import Mathlib.Data.BitVec
import PirMesh.Library.Nor

/-! # Phone — Access PDUs (`SigAccessPdu.m`)

An opcode has one octet, two when it begins with `10`, or three when it begins with `11`.
The decoder goes by the first octet.  The encoder goes by the value of the opcode, and of
the two-octet ones it knows only those that begin with 0x80 to 0x83, and those whose first
octet has the bits of 0xB6: the others get a third octet (`accessPdu_roundTrip`). -/

namespace PirMesh

open Nor

/-- What an access PDU is decoded to, or encoded from. -/
structure SigAccessPdu where
  opCode : BitVec 32
  parameters : List Byte
  accessPdu : List Byte
  deriving DecidableEq, Repr

namespace SigAccessPdu

def opCode2 (octet0 octet1 : Byte) : BitVec 32 := octet0.setWidth 32 <<< 8 ||| octet1.setWidth 32

def opCode3 (octet0 octet1 octet2 : Byte) : BitVec 32 :=
  octet0.setWidth 32 <<< 16 ||| octet1.setWidth 32 <<< 8 ||| octet2.setWidth 32

/-- `none` where it returns nil. -/
def initFromUpperTransportPdu (accessPdu : List Byte) : Option SigAccessPdu :=
  match accessPdu with
  | [] => none
  | octet0 :: rest =>
    if octet0 = 0b01111111 then none
    else if octet0 &&& 0x80 = 0 then some ⟨octet0.setWidth 32, rest, accessPdu⟩
    else if octet0 &&& 0x40 = 0 then
      match rest with
      | octet1 :: parameters => some ⟨opCode2 octet0 octet1, parameters, accessPdu⟩
      | [] => none
    else
      match rest with
      | octet1 :: octet2 :: parameters =>
        some ⟨opCode3 octet0 octet1 octet2, parameters, accessPdu⟩
      | _ => none

/-- The opcodes that the encoder gives two octets. -/
def IsTwoOctet (opCode : BitVec 32) : Prop :=
  opCode < 0x4000 ∨ opCode &&& 0xFFFC00 = 0x8000 ∨ opCode &&& 0xFFB600 = 0xB600

instance (opCode : BitVec 32) : Decidable (IsTwoOctet opCode) := inferInstanceAs (Decidable (_ ∨ _))

def encodeOpCode (opCode : BitVec 32) : List Byte :=
  if opCode < 0x80 then [opCode.setWidth 8]
  else if IsTwoOctet opCode then
    [(0x80 ||| (opCode >>> 8 &&& 0x3F)).setWidth 8, (opCode &&& 0xFF).setWidth 8]
  else
    [(0xC0 ||| (opCode >>> 16 &&& 0x3F)).setWidth 8, (opCode >>> 8 &&& 0xFF).setWidth 8,
      (opCode &&& 0xFF).setWidth 8]

/-- `parameters` of a message may be nil. -/
def initFromMeshMessage (opCode : BitVec 32) (parameters : Option (List Byte)) : SigAccessPdu :=
  let parameters := parameters.getD []
  ⟨opCode, parameters, encodeOpCode opCode ++ parameters⟩

/-- The opcodes of the model specification: 0x7F is reserved. -/
def ValidOpCode (opCode : BitVec 32) : Prop :=
  opCode < 0x7F ∨ 0x8000 ≤ opCode ∧ opCode ≤ 0xBFFF ∨ 0xC00000 ≤ opCode ∧ opCode ≤ 0xFFFFFF

instance (opCode : BitVec 32) : Decidable (ValidOpCode opCode) :=
  inferInstanceAs (Decidable (_ ∨ _))

/-- Of the opcodes with two octets, the ones the encoder knows. -/
def Kept (opCode : BitVec 32) : Prop :=
  0x8000 ≤ opCode → opCode ≤ 0xBFFF →
    opCode &&& 0xFFFC00 = 0x8000 ∨ opCode &&& 0xFFB600 = 0xB600

instance (opCode : BitVec 32) : Decidable (Kept opCode) := inferInstanceAs (Decidable (_ → _))

/-! ### Octets of an opcode -/

theorem opCode2_toNat (octet0 octet1 : Byte) :
    (opCode2 octet0 octet1).toNat = octet0.toNat * 256 + octet1.toNat := by
  have h0 := octet0.isLt
  have h1 := octet1.isLt
  unfold opCode2
  rw [BitVec.toNat_or, BitVec.toNat_shiftLeft, BitVec.toNat_setWidth, BitVec.toNat_setWidth,
    Nat.mod_eq_of_lt (a := octet0.toNat) (by omega),
    Nat.mod_eq_of_lt (a := octet1.toNat) (by omega),
    Nat.mod_eq_of_lt (by rw [Nat.shiftLeft_eq]; omega), ← Nat.shiftLeft_add_eq_or_of_lt h1,
    Nat.shiftLeft_eq]

theorem opCode3_eq (octet0 octet1 octet2 : Byte) :
    opCode3 octet0 octet1 octet2 = opCode2 octet0 octet1 <<< 8 ||| octet2.setWidth 32 := by
  unfold opCode3 opCode2
  rw [BitVec.shiftLeft_or_distrib, ← BitVec.shiftLeft_add]

theorem opCode3_toNat (octet0 octet1 octet2 : Byte) :
    (opCode3 octet0 octet1 octet2).toNat =
      octet0.toNat * 65536 + octet1.toNat * 256 + octet2.toNat := by
  have h0 := octet0.isLt
  have h1 := octet1.isLt
  have h2 := octet2.isLt
  rw [opCode3_eq, BitVec.toNat_or, BitVec.toNat_shiftLeft, BitVec.toNat_setWidth, opCode2_toNat,
    Nat.mod_eq_of_lt (a := octet2.toNat) (by omega),
    Nat.mod_eq_of_lt (by rw [Nat.shiftLeft_eq]; omega), ← Nat.shiftLeft_add_eq_or_of_lt h2,
    Nat.shiftLeft_eq]
  omega

/-- The octets of an opcode. -/
theorem exists_opCode2 (opCode : BitVec 32) (h : opCode.toNat < 65536) :
    ∃ octet0 octet1, opCode = opCode2 octet0 octet1 := by
  refine ⟨BitVec.ofNat 8 (opCode.toNat / 256), BitVec.ofNat 8 opCode.toNat, ?_⟩
  refine BitVec.eq_of_toNat_eq ?_
  rw [opCode2_toNat, BitVec.toNat_ofNat, BitVec.toNat_ofNat]
  omega

theorem exists_opCode3 (opCode : BitVec 32) (h : opCode.toNat < 16777216) :
    ∃ octet0 octet1 octet2, opCode = opCode3 octet0 octet1 octet2 := by
  refine ⟨BitVec.ofNat 8 (opCode.toNat / 65536), BitVec.ofNat 8 (opCode.toNat / 256),
    BitVec.ofNat 8 opCode.toNat, ?_⟩
  refine BitVec.eq_of_toNat_eq ?_
  rw [opCode3_toNat, BitVec.toNat_ofNat, BitVec.toNat_ofNat, BitVec.toNat_ofNat]
  omega

/-! ### Encoding -/

theorem opCode2_octets (octet0 octet1 : Byte) :
    (opCode2 octet0 octet1 >>> 8).setWidth 8 = octet0 ∧
      (opCode2 octet0 octet1).setWidth 8 = octet1 := by
  have h0 := octet0.isLt
  have h1 := octet1.isLt
  constructor
  · refine BitVec.eq_of_toNat_eq ?_
    rw [BitVec.toNat_setWidth, BitVec.toNat_ushiftRight, opCode2_toNat, Nat.shiftRight_eq_div_pow]
    omega
  · refine BitVec.eq_of_toNat_eq ?_
    rw [BitVec.toNat_setWidth, opCode2_toNat]
    omega

theorem opCode3_octets (octet0 octet1 octet2 : Byte) :
    (opCode3 octet0 octet1 octet2 >>> 16).setWidth 8 = octet0 ∧
      (opCode3 octet0 octet1 octet2 >>> 8).setWidth 8 = octet1 ∧
      (opCode3 octet0 octet1 octet2).setWidth 8 = octet2 := by
  have h0 := octet0.isLt
  have h1 := octet1.isLt
  have h2 := octet2.isLt
  refine ⟨?_, ?_, ?_⟩
  · refine BitVec.eq_of_toNat_eq ?_
    rw [BitVec.toNat_setWidth, BitVec.toNat_ushiftRight, opCode3_toNat, Nat.shiftRight_eq_div_pow]
    omega
  · refine BitVec.eq_of_toNat_eq ?_
    rw [BitVec.toNat_setWidth, BitVec.toNat_ushiftRight, opCode3_toNat, Nat.shiftRight_eq_div_pow]
    omega
  · refine BitVec.eq_of_toNat_eq ?_
    rw [BitVec.toNat_setWidth, opCode3_toNat]
    omega

theorem octet_one : ∀ octet0 : Byte, octet0 &&& 0x80 = 0 → octet0.toNat < 0x80 := by decide

theorem octet_two : ∀ octet0 : Byte, octet0 &&& 0xC0 = 0x80 →
    0x80 ≤ octet0.toNat ∧ octet0.toNat < 0xC0 ∧ 0x80 ||| octet0 &&& 0x3F = octet0 := by
  decide

theorem octet_three : ∀ octet0 : Byte, octet0 &&& 0xC0 = 0xC0 →
    0xC0 ≤ octet0.toNat ∧ octet0.getLsbD 7 = true ∧ 0xC0 ||| octet0 &&& 0x3F = octet0 := by
  decide

theorem setWidth_low (x : BitVec 32) : (x &&& 0xFF).setWidth 8 = x.setWidth 8 := by
  rw [BitVec.setWidth_and]
  exact BitVec.and_allOnes

theorem encodeOpCode_one {octet0 : Byte} (h : octet0 &&& 0x80 = 0) :
    encodeOpCode (octet0.setWidth 32) = [octet0] := by
  have hlt : octet0.setWidth 32 < 0x80 := by
    have := octet_one octet0 h
    bv_omega
  unfold encodeOpCode
  rw [if_pos hlt, BitVec.setWidth_setWidth_of_le _ (by decide), BitVec.setWidth_eq]

/-- The opcodes that begin with `10`. -/
theorem opCode2_range {octet0 : Byte} (octet1 : Byte) (h : octet0 &&& 0xC0 = 0x80) :
    0x8000 ≤ opCode2 octet0 octet1 ∧ opCode2 octet0 octet1 ≤ 0xBFFF := by
  obtain ⟨hge, hlt, -⟩ := octet_two octet0 h
  have htoNat := opCode2_toNat octet0 octet1
  have h1 := octet1.isLt
  constructor
  · rw [BitVec.le_def, htoNat]
    show 32768 ≤ _
    omega
  · rw [BitVec.le_def, htoNat]
    show _ ≤ 49151
    omega

theorem isTwoOctet_opCode2 {octet0 : Byte} (octet1 : Byte) (h : octet0 &&& 0xC0 = 0x80) :
    IsTwoOctet (opCode2 octet0 octet1) ↔ Kept (opCode2 octet0 octet1) := by
  obtain ⟨hge, hle⟩ := opCode2_range octet1 h
  have hno : ¬ opCode2 octet0 octet1 < 0x4000 := by
    intro hlt
    bv_omega
  unfold IsTwoOctet Kept
  rw [or_iff_right hno]
  exact ⟨fun hk _ _ => hk, fun hk => hk hge hle⟩

/-- A mark on the octets of an opcode. -/
theorem setWidth_mark (mark x : BitVec 32) :
    (mark ||| (x &&& 0x3F)).setWidth 8 = mark.setWidth 8 ||| x.setWidth 8 &&& 0x3F := by
  rw [BitVec.setWidth_or, BitVec.setWidth_and]
  rfl

/-- An opcode that the encoder does not know gets the mark of a vendor's. -/
theorem encodeOpCode_two {octet0 : Byte} (octet1 : Byte) (h : octet0 &&& 0xC0 = 0x80) :
    encodeOpCode (opCode2 octet0 octet1) =
      if Kept (opCode2 octet0 octet1) then [octet0, octet1] else [0xC0, octet0, octet1] := by
  obtain ⟨-, -, hmark⟩ := octet_two octet0 h
  obtain ⟨hge, -⟩ := opCode2_range octet1 h
  obtain ⟨hhigh, hlow⟩ := opCode2_octets octet0 octet1
  have hno : ¬ opCode2 octet0 octet1 < 0x80 := by
    intro hlt
    bv_omega
  have htop : (opCode2 octet0 octet1 >>> 16).setWidth 8 = (0 : Byte) := by
    have h0 := octet0.isLt
    have h1 := octet1.isLt
    refine BitVec.eq_of_toNat_eq ?_
    rw [BitVec.toNat_setWidth, BitVec.toNat_ushiftRight, opCode2_toNat, Nat.shiftRight_eq_div_pow]
    show _ = 0
    omega
  unfold encodeOpCode
  rw [if_neg hno]
  by_cases hk : Kept (opCode2 octet0 octet1)
  · rw [if_pos ((isTwoOctet_opCode2 octet1 h).mpr hk), if_pos hk, setWidth_mark, hhigh,
      setWidth_low, hlow]
    exact congrArg (· :: [octet1]) hmark
  · rw [if_neg (mt (isTwoOctet_opCode2 octet1 h).mp hk), if_neg hk, setWidth_mark, htop,
      setWidth_low, hhigh, setWidth_low, hlow]
    rfl

/-- Bit 23 keeps the opcodes that begin with `11` out of the tests. -/
theorem not_isTwoOctet_opCode3 {octet0 : Byte} (octet1 octet2 : Byte)
    (h : octet0 &&& 0xC0 = 0xC0) : ¬ IsTwoOctet (opCode3 octet0 octet1 octet2) := by
  obtain ⟨hge, hbit, -⟩ := octet_three octet0 h
  have htop : (opCode3 octet0 octet1 octet2).getLsbD 23 = true := by
    unfold opCode3
    simp [hbit]
  have htoNat := opCode3_toNat octet0 octet1 octet2
  rintro (hlt | hmask | hmask)
  · rw [BitVec.lt_def, htoNat] at hlt
    have hlt' : _ < 16384 := hlt
    omega
  · have hbit23 : (opCode3 octet0 octet1 octet2 &&& 0xFFFC00).getLsbD 23 =
        (0x8000 : BitVec 32).getLsbD 23 := congrArg (BitVec.getLsbD · 23) hmask
    rw [BitVec.getLsbD_and, htop] at hbit23
    exact absurd hbit23 (by decide)
  · have hbit23 : (opCode3 octet0 octet1 octet2 &&& 0xFFB600).getLsbD 23 =
        (0xB600 : BitVec 32).getLsbD 23 := congrArg (BitVec.getLsbD · 23) hmask
    rw [BitVec.getLsbD_and, htop] at hbit23
    exact absurd hbit23 (by decide)

theorem encodeOpCode_three {octet0 : Byte} (octet1 octet2 : Byte) (h : octet0 &&& 0xC0 = 0xC0) :
    encodeOpCode (opCode3 octet0 octet1 octet2) = [octet0, octet1, octet2] := by
  obtain ⟨hge, -, hmark⟩ := octet_three octet0 h
  obtain ⟨htop, hhigh, hlow⟩ := opCode3_octets octet0 octet1 octet2
  have hno : ¬ opCode3 octet0 octet1 octet2 < 0x80 := by
    intro hlt
    rw [BitVec.lt_def, opCode3_toNat] at hlt
    have hlt' : _ < 128 := hlt
    omega
  unfold encodeOpCode
  rw [if_neg hno, if_neg (not_isTwoOctet_opCode3 octet1 octet2 h), setWidth_mark, htop,
    setWidth_low, hhigh, setWidth_low, hlow]
  exact congrArg (· :: [octet1, octet2]) hmark

/-! ### Decoding -/

theorem decode_one {octet0 : Byte} (h7f : octet0 ≠ 0x7F) (h : octet0 &&& 0x80 = 0)
    (parameters : List Byte) :
    initFromUpperTransportPdu (octet0 :: parameters) =
      some ⟨octet0.setWidth 32, parameters, octet0 :: parameters⟩ := by
  exact (if_neg h7f).trans (if_pos h)

theorem decode_two {octet0 : Byte} (h : octet0 &&& 0xC0 = 0x80) (octet1 : Byte)
    (parameters : List Byte) :
    initFromUpperTransportPdu (octet0 :: octet1 :: parameters) =
      some ⟨opCode2 octet0 octet1, parameters, octet0 :: octet1 :: parameters⟩ := by
  have hbits : ∀ octet0 : Byte, octet0 &&& 0xC0 = 0x80 →
      octet0 ≠ 0x7F ∧ octet0 &&& 0x80 ≠ 0 ∧ octet0 &&& 0x40 = 0 := by decide
  obtain ⟨h7f, h80, h40⟩ := hbits octet0 h
  exact (if_neg h7f).trans ((if_neg h80).trans (if_pos h40))

theorem decode_three {octet0 : Byte} (h : octet0 &&& 0xC0 = 0xC0) (octet1 octet2 : Byte)
    (parameters : List Byte) :
    initFromUpperTransportPdu (octet0 :: octet1 :: octet2 :: parameters) =
      some ⟨opCode3 octet0 octet1 octet2, parameters,
        octet0 :: octet1 :: octet2 :: parameters⟩ := by
  have hbits : ∀ octet0 : Byte, octet0 &&& 0xC0 = 0xC0 →
      octet0 ≠ 0x7F ∧ octet0 &&& 0x80 ≠ 0 ∧ octet0 &&& 0x40 ≠ 0 := by decide
  obtain ⟨h7f, h80, h40⟩ := hbits octet0 h
  exact (if_neg h7f).trans ((if_neg h80).trans (if_neg h40))

/-- The three forms of what is accepted. -/
theorem decode_cases {accessPdu : List Byte} {pdu : SigAccessPdu}
    (h : initFromUpperTransportPdu accessPdu = some pdu) :
    (∃ octet0 parameters, octet0 &&& 0x80 = 0 ∧ accessPdu = octet0 :: parameters ∧
      pdu = ⟨octet0.setWidth 32, parameters, accessPdu⟩) ∨
    (∃ octet0 octet1 parameters, octet0 &&& 0xC0 = 0x80 ∧
      accessPdu = octet0 :: octet1 :: parameters ∧
      pdu = ⟨opCode2 octet0 octet1, parameters, accessPdu⟩) ∨
    ∃ octet0 octet1 octet2 parameters, octet0 &&& 0xC0 = 0xC0 ∧
      accessPdu = octet0 :: octet1 :: octet2 :: parameters ∧
      pdu = ⟨opCode3 octet0 octet1 octet2, parameters, accessPdu⟩ := by
  have hbits : ∀ octet0 : Byte, octet0 &&& 0x80 ≠ 0 →
      (octet0 &&& 0x40 = 0 → octet0 &&& 0xC0 = 0x80) ∧
      (octet0 &&& 0x40 ≠ 0 → octet0 &&& 0xC0 = 0xC0) := by decide
  cases accessPdu with
  | nil => cases h
  | cons octet0 rest =>
    unfold initFromUpperTransportPdu at h
    dsimp only at h
    split_ifs at h with h7f h80 h40
    · exact .inl ⟨octet0, rest, h80, rfl, (Option.some.inj h).symm⟩
    · cases rest with
      | nil => cases h
      | cons octet1 parameters =>
        exact .inr (.inl ⟨octet0, octet1, parameters, (hbits octet0 h80).1 h40, rfl,
          (Option.some.inj h).symm⟩)
    · match rest with
      | [] => cases h
      | [_] => cases h
      | octet1 :: octet2 :: parameters =>
        exact .inr (.inr ⟨octet0, octet1, octet2, parameters, (hbits octet0 h80).2 h40, rfl,
          (Option.some.inj h).symm⟩)

/-! ### Round trips -/

theorem kept_one {octet0 : Byte} (h : octet0 &&& 0x80 = 0) : Kept (octet0.setWidth 32) := by
  have hlt := octet_one octet0 h
  intro hge _
  rw [BitVec.le_def, BitVec.toNat_setWidth] at hge
  have hge' : 32768 ≤ _ := hge
  omega

theorem kept_three {octet0 : Byte} (octet1 octet2 : Byte) (h : octet0 &&& 0xC0 = 0xC0) :
    Kept (opCode3 octet0 octet1 octet2) := by
  have hge := (octet_three octet0 h).1
  intro _ hle
  rw [BitVec.le_def, opCode3_toNat] at hle
  have hle' : _ ≤ 49151 := hle
  omega

theorem encode_decode_iff {accessPdu : List Byte} {pdu : SigAccessPdu}
    (h : initFromUpperTransportPdu accessPdu = some pdu) :
    (initFromMeshMessage pdu.opCode (some pdu.parameters)).accessPdu = accessPdu ↔
      Kept pdu.opCode := by
  obtain ⟨octet0, parameters, hb, rfl, rfl⟩ | ⟨octet0, octet1, parameters, hb, rfl, rfl⟩ |
    ⟨octet0, octet1, octet2, parameters, hb, rfl, rfl⟩ := decode_cases h
  · exact iff_of_true (congrArg (· ++ parameters) (encodeOpCode_one hb)) (kept_one hb)
  · have henc : (initFromMeshMessage (opCode2 octet0 octet1) (some parameters)).accessPdu = _ :=
      congrArg (· ++ parameters) (encodeOpCode_two octet1 hb)
    dsimp only at henc ⊢
    rw [henc]
    by_cases hk : Kept (opCode2 octet0 octet1)
    · rw [if_pos hk]
      exact iff_of_true rfl hk
    · rw [if_neg hk]
      refine iff_of_false (fun heq => ?_) hk
      have hlen := congrArg List.length heq
      simp at hlen
  · exact iff_of_true (congrArg (· ++ parameters) (encodeOpCode_three octet1 octet2 hb))
      (kept_three octet1 octet2 hb)

/-! ### Valid opcodes -/

/-- A valid opcode begins with the bits of its form. -/
theorem validOpCode_cases {opCode : BitVec 32} (hv : ValidOpCode opCode) :
    (∃ octet0 : Byte, octet0 ≠ 0x7F ∧ octet0 &&& 0x80 = 0 ∧ opCode = octet0.setWidth 32) ∨
    (∃ octet0 octet1, octet0 &&& 0xC0 = 0x80 ∧ opCode = opCode2 octet0 octet1) ∨
    ∃ octet0 octet1 octet2, octet0 &&& 0xC0 = 0xC0 ∧ opCode = opCode3 octet0 octet1 octet2 := by
  have hone : ∀ octet0 : Byte, octet0.toNat < 0x7F → octet0 ≠ 0x7F ∧ octet0 &&& 0x80 = 0 := by
    decide
  have htwo : ∀ octet0 : Byte, 0x80 ≤ octet0.toNat → octet0.toNat < 0xC0 →
      octet0 &&& 0xC0 = 0x80 := by decide
  have hthree : ∀ octet0 : Byte, 0xC0 ≤ octet0.toNat → octet0 &&& 0xC0 = 0xC0 := by decide
  obtain hlt | ⟨hge, hle⟩ | ⟨hge, hle⟩ := hv
  · have hlt' : opCode.toNat < 0x7F := hlt
    have hoctet : (opCode.setWidth 8).toNat = opCode.toNat := by
      rw [BitVec.toNat_setWidth]
      exact Nat.mod_eq_of_lt (by omega)
    obtain ⟨h7f, h80⟩ := hone (opCode.setWidth 8) (hoctet ▸ hlt')
    refine .inl ⟨opCode.setWidth 8, h7f, h80, BitVec.eq_of_toNat_eq ?_⟩
    rw [BitVec.toNat_setWidth, hoctet, Nat.mod_eq_of_lt opCode.isLt]
  · have hge' : 0x8000 ≤ opCode.toNat := hge
    have hle' : opCode.toNat ≤ 0xBFFF := hle
    obtain ⟨octet0, octet1, rfl⟩ := exists_opCode2 opCode (by omega)
    rw [opCode2_toNat] at hge' hle'
    have h1 := octet1.isLt
    exact .inr (.inl ⟨octet0, octet1, htwo octet0 (by omega) (by omega), rfl⟩)
  · have hge' : 0xC00000 ≤ opCode.toNat := hge
    have hle' : opCode.toNat ≤ 0xFFFFFF := hle
    obtain ⟨octet0, octet1, octet2, rfl⟩ := exists_opCode3 opCode (by omega)
    rw [opCode3_toNat] at hge' hle'
    have h1 := octet1.isLt
    have h2 := octet2.isLt
    exact .inr (.inr ⟨octet0, octet1, octet2, hthree octet0 (by omega), rfl⟩)

/-- The message that was encoded. -/
def DecodesTo (accessPdu : List Byte) (opCode : BitVec 32) (parameters : List Byte) : Prop :=
  initFromUpperTransportPdu accessPdu = some ⟨opCode, parameters, accessPdu⟩

instance (accessPdu : List Byte) (opCode : BitVec 32) (parameters : List Byte) :
    Decidable (DecodesTo accessPdu opCode parameters) :=
  inferInstanceAs (Decidable (_ = _))

theorem decode_encode_iff {opCode : BitVec 32} (hv : ValidOpCode opCode)
    (parameters : List Byte) :
    DecodesTo (initFromMeshMessage opCode (some parameters)).accessPdu opCode parameters ↔
      Kept opCode := by
  have haccess : (initFromMeshMessage opCode (some parameters)).accessPdu =
      encodeOpCode opCode ++ parameters := rfl
  rw [haccess]
  obtain ⟨octet0, h7f, hb, rfl⟩ | ⟨octet0, octet1, hb, rfl⟩ | ⟨octet0, octet1, octet2, hb, rfl⟩ :=
    validOpCode_cases hv
  · rw [encodeOpCode_one hb]
    exact iff_of_true (decode_one h7f hb parameters) (kept_one hb)
  · rw [encodeOpCode_two octet1 hb]
    by_cases hk : Kept (opCode2 octet0 octet1)
    · rw [if_pos hk]
      exact iff_of_true (decode_two hb octet1 parameters) hk
    · rw [if_neg hk]
      refine iff_of_false (fun heq => ?_) hk
      have hop := congrArg SigAccessPdu.opCode
        (Option.some.inj ((decode_three rfl octet0 octet1 parameters).symm.trans heq))
      have hnat := congrArg BitVec.toNat hop
      dsimp only at hnat
      -- an opcode of three octets is above every opcode of two
      rw [opCode3_toNat, opCode2_toNat] at hnat
      have hmark : (0xC0 : Byte).toNat = 192 := rfl
      have h0 := octet0.isLt
      have h1 := octet1.isLt
      omega
  · rw [encodeOpCode_three octet1 octet2 hb]
    exact iff_of_true (decode_three hb octet1 octet2 parameters) (kept_three octet1 octet2 hb)

/-- Both ways there and back, for every accepted PDU and every valid opcode. -/
theorem accessPdu_roundTrip {accessPdu parameters : List Byte} {pdu : SigAccessPdu}
    {opCode : BitVec 32} (h : initFromUpperTransportPdu accessPdu = some pdu)
    (hv : ValidOpCode opCode) :
    ((initFromMeshMessage pdu.opCode (some pdu.parameters)).accessPdu = accessPdu ↔
      Kept pdu.opCode) ∧
    (DecodesTo (initFromMeshMessage opCode (some parameters)).accessPdu opCode parameters ↔
      Kept opCode) :=
  ⟨encode_decode_iff h, decode_encode_iff hv parameters⟩

/-- Generic OnOff Set, as received, and an opcode of the configuration model. -/
theorem accessPdu_roundTrip_onOffSet :
    ((initFromMeshMessage 0x8202 (some [0x01, 0x05])).accessPdu = [0x82, 0x02, 0x01, 0x05] ↔
      Kept 0x8202) ∧
    (DecodesTo (initFromMeshMessage 0x803C (some [])).accessPdu 0x803C [] ↔ Kept 0x803C) :=
  @accessPdu_roundTrip _ _ ⟨0x8202, [0x01, 0x05], [0x82, 0x02, 0x01, 0x05]⟩ _
    (by decide +kernel) (by decide +kernel)

/-- The opcode 0x8400 is valid, and is sent as 0xC08400. -/
theorem accessPdu_roundTrip_refuted :
    ¬ ((∀ accessPdu pdu, initFromUpperTransportPdu accessPdu = some pdu →
        (initFromMeshMessage pdu.opCode (some pdu.parameters)).accessPdu = accessPdu) ∧
      ∀ opCode parameters, ValidOpCode opCode →
        DecodesTo (initFromMeshMessage opCode (some parameters)).accessPdu opCode parameters) := by
  intro hall
  have heq := hall.1 [0x84, 0x00] ⟨0x8400, [], [0x84, 0x00]⟩ (by decide +kernel)
  exact absurd heq (by decide +kernel)

end SigAccessPdu

end PirMesh
