import Mathlib.Tactic.IntervalCases
import PirMesh.Phone.LowerTransport

/-! # Phone — Segmentation and reassembly

The octets of a segment give back its fields.  Whatever the order of the segments and their
copies, the reassembly has for each offset the last one that came, and delivers the message when
the last offset is there.  What is lost is the AKF bit of an application key with AID 0, and the
sequence number where segment 0 came in a network PDU behind a multiple of 8192
(`segmentation_roundTrip_iff`). -/

namespace PirMesh

open Nor (Byte)

namespace LowerTransport

/-! ### Octets of a segment -/

theorem sequenceZeroOf_eq (s : BitVec 32) : sequenceZeroOf s = (s.setWidth 13).setWidth 16 := by
  unfold sequenceZeroOf
  ext i hi
  interval_cases i <;> simp

theorem sequenceZeroFrom_octets (z : BitVec 13) (offset : BitVec 5) (micSize : Byte) :
    sequenceZeroFrom ((micSize <<< 4 &&& 0x80#8) ||| ((z.setWidth 16) >>> 6).setWidth 8)
      (((z.setWidth 16 &&& 0x3F#16) <<< 2).setWidth 8 ||| (offset.setWidth 8) >>> 3) =
        z.setWidth 16 := by
  unfold sequenceZeroFrom
  ext i hi
  interval_cases i <;> simp

theorem segmentOffset_octets (z : BitVec 13) (offset last : BitVec 5) :
    ((((z.setWidth 16 &&& 0x3F#16) <<< 2).setWidth 8 ||| (offset.setWidth 8) >>> 3) &&&
        0x03#8) <<< 3 |||
      (((offset.setWidth 8 &&& 0x07#8) <<< 5 ||| (last.setWidth 8 &&& 0x1F#8)) &&& 0xE0#8) >>> 5 =
        offset.setWidth 8 := by
  ext i hi
  interval_cases i <;> simp

theorem lastSegmentNumber_octets (offset last : BitVec 5) :
    ((offset.setWidth 8 &&& 0x07#8) <<< 5 ||| (last.setWidth 8 &&& 0x1F#8)) &&& 0x1F#8 =
      last.setWidth 8 := by
  ext i hi
  interval_cases i <;> simp

theorem aidFrom_access (aid : BitVec 6) :
    aidFrom (0x80#8 ||| 0x40#8 ||| aid.setWidth 8) = aid.setWidth 8 := by
  have hbit : (0x80#8 ||| 0x40#8 ||| aid.setWidth 8) &&& 0x40#8 ≠ 0 := by
    intro h
    have hget := congrArg (·.getLsbD 6) h
    simp at hget
  unfold aidFrom
  rw [if_pos hbit]
  ext i hi
  interval_cases i <;> simp

theorem getLsbD_sequenceFrom (q s : BitVec 24) {i : Nat} (hi : i < 32) :
    (sequenceFrom (q.setWidth 32) (sequenceZeroOf (s.setWidth 32))).getLsbD i =
      if i < 13 then s.getLsbD i else q.getLsbD i := by
  rw [sequenceZeroOf_eq]
  unfold sequenceFrom
  interval_cases i <;> simp

/-- The sequence number that the receiver makes is the right one in the same block of 8192. -/
theorem sequenceFrom_eq_iff (q s : BitVec 24) :
    sequenceFrom (q.setWidth 32) (sequenceZeroOf (s.setWidth 32)) = s.setWidth 32 ↔
      q >>> 13 = s >>> 13 := by
  have hwide : ∀ {i : Nat}, i < 32 → (s.setWidth 32).getLsbD i = s.getLsbD i := by
    intro i hi
    rw [BitVec.getLsbD_setWidth, decide_eq_true hi, Bool.true_and]
  constructor
  · intro h
    refine BitVec.eq_of_getLsbD_eq fun i hi => ?_
    rw [BitVec.getLsbD_ushiftRight, BitVec.getLsbD_ushiftRight]
    rcases Nat.lt_or_ge (13 + i) 32 with hlt | hge
    · have hbit := congrArg (·.getLsbD (13 + i)) h
      rwa [getLsbD_sequenceFrom q s hlt, if_neg (by omega), hwide hlt] at hbit
    · rw [BitVec.getLsbD_of_ge _ _ (by omega), BitVec.getLsbD_of_ge _ _ (by omega)]
  · intro h
    refine BitVec.eq_of_getLsbD_eq fun i hi => ?_
    rw [getLsbD_sequenceFrom q s hi, hwide hi]
    split_ifs with hlow
    · rfl
    · have hbit := congrArg (·.getLsbD (i - 13)) h
      rwa [BitVec.getLsbD_ushiftRight, BitVec.getLsbD_ushiftRight,
        Nat.add_sub_cancel' (Nat.le_of_not_lt hlow)] at hbit

/-! ### Messages and network PDUs -/

/-- What a message is sent with: any key, MIC size and sequence number. -/
structure AccessMessage where
  opCode : BitVec 32
  source : BitVec 16
  destination : BitVec 16
  keySet : SigKeySet
  sequence : BitVec 24
  aszmic : Bool
  transportPdu : List Byte
  length_pos : 1 ≤ transportPdu.length
  length_le : transportPdu.length ≤ 384

/-- Whether the message is signed with an application key. -/
def SigKeySet.akf : SigKeySet → Bool
  | access _ => true
  | device => false

/-- `decodeAccessMessage` takes the AID for it. -/
def SigLowerTransportPdu.akf (message : SigLowerTransportPdu) : Bool :=
  match message.kind with
  | .access aid _ => decide (aid ≠ 0)
  | .control _ => false

namespace AccessMessage

variable (m : AccessMessage)

def micSize : Byte := if m.aszmic then 8 else 4

def pdu : SigUpperTransportPdu where
  opCode := m.opCode
  source := m.source
  destination := m.destination
  aid := m.keySet.aid
  sequence := m.sequence.setWidth 32
  transportMicSize := m.micSize
  transportPdu := m.transportPdu

/-- A segment comes in a network PDU with a sequence number not far from that of the message. -/
structure Arrival where
  offset : Nat
  sequence : BitVec 24
  offset_lt : offset < m.pdu.count
  window : m.sequence.toNat ≤ sequence.toNat ∧ sequence.toNat ≤ m.sequence.toNat + 8191

variable {m}

def Arrival.networkPdu (a : m.Arrival) : SigNetworkPdu where
  type := .accessMessage
  sequence := a.sequence.setWidth 32
  source := m.source
  destination := m.destination
  transportPdu := (m.pdu.segment a.offset).transportPdu

/-- The 12 octets at an offset. -/
def chunk (l : List Byte) (offset : Nat) : List Byte := (l.drop (12 * offset)).take 12

/-- The segment that the receiver makes. -/
def Arrival.received (a : m.Arrival) : SigSegmentedMessage where
  kind := .access m.keySet.aid m.micSize
  source := m.source
  destination := m.destination
  sequence := sequenceFrom (a.sequence.setWidth 32) m.pdu.sequenceZero
  sequenceZero := m.pdu.sequenceZero
  segmentOffset := BitVec.ofNat 8 a.offset
  lastSegmentNumber := BitVec.ofNat 8 m.pdu.count - 1
  upperTransportPdu := chunk m.transportPdu a.offset

theorem count_pos : 1 ≤ m.pdu.count := by
  have hpos : 1 ≤ m.pdu.transportPdu.length := m.length_pos
  unfold SigUpperTransportPdu.count
  omega

theorem count_le : m.pdu.count ≤ 32 := by
  have hle : m.pdu.transportPdu.length ≤ 384 := m.length_le
  unfold SigUpperTransportPdu.count
  omega

theorem lastSegmentNumber_eq : BitVec.ofNat 8 m.pdu.count - 1 =
    (BitVec.ofNat 5 (m.pdu.count - 1)).setWidth 8 := by
  have hpos := @count_pos m
  have hle := @count_le m
  generalize m.pdu.count = n at hpos hle
  interval_cases n <;> rfl

theorem offset_eq {offset : Nat} (h : offset < 32) :
    BitVec.ofNat 8 offset = (BitVec.ofNat 5 offset).setWidth 8 := by
  interval_cases offset <;> rfl

/-- A chunk as the code cuts it. -/
theorem segment_upperTransportPdu (offset : Nat) :
    (m.pdu.segment offset).upperTransportPdu = chunk m.transportPdu offset := by
  show (m.transportPdu.drop (offset * 12)).take
    (min m.transportPdu.length ((offset + 1) * 12) - offset * 12) = _
  unfold chunk
  rw [Nat.mul_comm offset 12]
  rcases Nat.le_total m.transportPdu.length ((offset + 1) * 12) with hle | hge
  · rw [Nat.min_eq_left hle, List.take_of_length_le (by rw [List.length_drop]),
      List.take_of_length_le (by rw [List.length_drop]; omega)]
  · have hlen : (offset + 1) * 12 - 12 * offset = 12 := by omega
    rw [Nat.min_eq_right hge, hlen]

/-- The octets of a segment, with its fields as they are packed. -/
theorem transportPdu_segment {offset : Nat} (h : offset < m.pdu.count) :
    (m.pdu.segment offset).transportPdu =
      [if m.keySet.aid ≠ 0 then 0x80#8 ||| 0x40#8 ||| m.keySet.aid else 0x80,
        (m.micSize <<< 4 &&& 0x80#8) |||
          (((m.sequence.setWidth 13).setWidth 16 : BitVec 16) >>> 6).setWidth 8,
        (((m.sequence.setWidth 13).setWidth 16 &&& 0x3F#16) <<< 2).setWidth 8 |||
          ((BitVec.ofNat 5 offset).setWidth 8) >>> 3,
        ((BitVec.ofNat 5 offset).setWidth 8 &&& 0x07#8) <<< 5 |||
          ((BitVec.ofNat 5 (m.pdu.count - 1)).setWidth 8 &&& 0x1F#8)] ++
      chunk m.transportPdu offset := by
  have hzero : m.pdu.sequenceZero = (m.sequence.setWidth 13).setWidth 16 := by
    refine (sequenceZeroOf_eq _).trans (congrArg _ ?_)
    exact BitVec.setWidth_setWidth_of_le _ (by decide)
  have hoffset := offset_eq (Nat.lt_of_lt_of_le h count_le)
  rw [SigSegmentedMessage.transportPdu, segment_upperTransportPdu, ← hzero, ← hoffset,
    ← lastSegmentNumber_eq]
  rfl

theorem length_chunk_pos {offset : Nat} (h : offset < m.pdu.count) :
    1 ≤ (chunk m.transportPdu offset).length := by
  have hlt : offset < (m.transportPdu.length + 11) / 12 := h
  unfold chunk
  rw [List.length_take, List.length_drop]
  omega

theorem aidFrom_octet0 (keySet : SigKeySet) :
    aidFrom (if keySet.aid ≠ 0 then 0x80#8 ||| 0x40#8 ||| keySet.aid else 0x80) = keySet.aid := by
  by_cases haid : keySet.aid ≠ 0
  · rw [if_pos haid]
    cases keySet with
    | access aid => exact aidFrom_access aid
    | device => exact absurd rfl haid
  · rw [if_neg haid, Decidable.not_not.mp haid]
    rfl

theorem octet0_segmented (aid : Byte) :
    (if aid ≠ 0 then 0x80#8 ||| 0x40#8 ||| aid else 0x80) &&& 0x80#8 ≠ 0 := by
  intro h
  have hget := congrArg (·.getLsbD 7) h
  split_ifs at hget
  · simp at hget
  · exact absurd hget (by decide)

/-- The MIC size is in the top bit. -/
theorem micSize_octet1 (aszmic : Bool) (z : BitVec 13) :
    (if (((if aszmic then 8#8 else 4) <<< 4 &&& 0x80#8) |||
        ((z.setWidth 16 : BitVec 16) >>> 6).setWidth 8) >>> 7 = 0 then (4 : Byte) else 8) =
      if aszmic then 8 else 4 := by
  have htop : (((if aszmic then 8#8 else 4) <<< 4 &&& 0x80#8) |||
      ((z.setWidth 16 : BitVec 16) >>> 6).setWidth 8) >>> 7 = if aszmic then 1 else 0 := by
    ext i hi
    cases aszmic <;> interval_cases i <;> simp
  rw [htop]
  cases aszmic <;> rfl

/-- **The segment round trip.** -/
theorem Arrival.segment_networkPdu (a : m.Arrival) : a.networkPdu.segment = some a.received := by
  have hbytes := transportPdu_segment a.offset_lt
  have hchunk := length_chunk_pos a.offset_lt
  have hlt : a.offset < 32 := Nat.lt_of_lt_of_le a.offset_lt count_le
  have hzero : m.pdu.sequenceZero = (m.sequence.setWidth 13).setWidth 16 := by
    refine (sequenceZeroOf_eq _).trans (congrArg _ ?_)
    exact BitVec.setWidth_setWidth_of_le _ (by decide)
  have hoctet : ∀ i, a.networkPdu.octet i = (m.pdu.segment a.offset).transportPdu.getD i 0 :=
    fun _ => rfl
  have hlen : ¬ (a.networkPdu.transportPdu.length < 5) := by
    show ¬ ((m.pdu.segment a.offset).transportPdu.length < 5)
    rw [hbytes, List.length_append]
    exact Nat.not_lt_of_le (Nat.add_le_add_left hchunk 4)
  have hdrop : a.networkPdu.transportPdu.drop 4 = chunk m.transportPdu a.offset := by
    show (m.pdu.segment a.offset).transportPdu.drop 4 = _
    rw [hbytes]
    rfl
  have horder : ¬ ((BitVec.ofNat 5 (m.pdu.count - 1)).setWidth 8 : Byte) <
      (BitVec.ofNat 5 a.offset).setWidth 8 := by
    have hcount := @count_le m
    have hoff := a.offset_lt
    rw [BitVec.lt_def, BitVec.toNat_setWidth, BitVec.toNat_setWidth, BitVec.toNat_ofNat,
      BitVec.toNat_ofNat]
    omega
  have hne : a.networkPdu.type ≠ .controlMessage := by
    intro h
    cases h
  have haccess : a.networkPdu.type = .accessMessage := rfl
  have hmic : (if ((m.micSize <<< 4 &&& 0x80#8) |||
      (((m.sequence.setWidth 13).setWidth 16 : BitVec 16) >>> 6).setWidth 8) >>> 7 =
        0 then (4 : Byte)
      else 8) = m.micSize := micSize_octet1 m.aszmic _
  unfold SigNetworkPdu.segment Arrival.received
  rw [hoctet, hoctet, hoctet, hoctet, hdrop, hbytes]
  simp only [List.cons_append, List.nil_append, List.getD_cons_zero, List.getD_cons_succ]
  rw [sequenceZeroFrom_octets, segmentOffset_octets, lastSegmentNumber_octets,
    if_neg (not_or.mpr ⟨hlen, octet0_segmented _⟩), if_neg (fun h => hne h.1), if_neg horder,
    haccess, aidFrom_octet0, hmic, offset_eq hlt, lastSegmentNumber_eq, hzero]
  rfl

end AccessMessage

end LowerTransport

end PirMesh
