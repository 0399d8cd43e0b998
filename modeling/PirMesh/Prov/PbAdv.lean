import PirMesh.Library.Format
import PirMesh.Library.Reassembly

/-! # Prov — The generic provisioning packets of `app_provison.c`

On the advertising bearer a provisioning PDU goes out in packets: a start packet with
the index of the last segment, the length of the PDU and its check sum, and
continuations.  The receiver puts the octets of each to their place in `rcv_pb` and
counts the segments it has in `mesh_prov_seg`; with the last of them the PDU goes to
the provisioning protocol.

A packet is the octets of `pro_PB_ADV`: `0` the length of what follows, `1` the type,
`2` to `5` the link, `6` the transaction, and from `7` on the generic PDU, whose first
octet has its kind in the low two bits.

A start packet has at most 20 octets of the PDU and a continuation at most 23, numbered from
one.  All have the transaction number the sender is left with. -/

namespace PirMesh

open Nor Reassembly

/-! ### Constants -/

def meshAdvTypePro : Byte := 0x29

def meshAdvTypeBeacon : Byte := 0x2B

/-- `TRANS_START`, `TRANS_ACK`, `TRANS_CON`, `BEARS_CTL`. -/
def transStart : Byte := 0

def transAck : Byte := 1

def transCon : Byte := 2

def bearsCtl : Byte := 3

def linkOpen : Byte := 0

def linkAck : Byte := 1

def linkClose : Byte := 2

def proCapabli : Byte := 1

/-- `OFFSET_START` is where the first continuation goes in `rcv_pb`. -/
def offsetStart : Nat := 0x1F

/-- `OFFSET_CON` is the room of a continuation. -/
def offsetCon : Nat := 0x17

/-- `sizeof(pro_PB_ADV)` -/
def sizeofPbAdv : Nat := 87

inductive ProvisionRoles
  | node
  | provisioner
  deriving DecidableEq, Repr

/-! ### Sending -/

/-- The fields of `prov_para` a sender uses, and `prov_link_cls_code`. -/
structure ProvPara where
  linkId : BitVec 32
  transNum : Byte
  lastSegmentIdx : Byte
  segmentIdx : Byte
  initialProRoles : ProvisionRoles
  transStartFcs : Byte
  transSegTotalLen : Byte
  cmdRetryFlag : Bool
  rspAckTransnum : Byte
  provLinkClsCode : Byte

/-- The first octet of a generic PDU: the kind and the six bits above it. -/
def gpcfOctet (gpcf v : Byte) : Byte := gpcf ||| v <<< 2

/-- The transaction number of a role: the provisioner's are below `0x80`. -/
def roleTransNum (s : ProvPara) : ProvPara :=
  match s.initialProRoles with
  | .provisioner => { s with transNum := s.transNum &&& 0x7f }
  | .node => { s with transNum := s.transNum ||| 0x80 }

def pbAdv (length : Byte) (linkId : BitVec 32) (transNum : Byte) (pdu : List Byte) : List Byte :=
  [length, meshAdvTypePro] ++ toLE 4 linkId.toNat ++ [transNum] ++ pdu

/-- The sender after the call and the packet that goes out. -/
def meshSendProvisonData (s : ProvPara) (pduType bearCode : Byte) (para : List Byte) :
    ProvPara × Option (List Byte) :=
  if para.length > 31 then (s, none)
  else if pduType = transStart then
    let provCmd := para.getD 0 0 &&& 0x3f
    let s := { s with segmentIdx := 0 }
    let t := roleTransNum
      (if !s.cmdRetryFlag && provCmd ≠ proCapabli then { s with transNum := s.transNum + 1 } else s)
    -- the total length goes out in big endian
    (t, some (pbAdv (BitVec.ofNat 8 (4 + 6 + para.length)) t.linkId t.transNum
      ([gpcfOctet transStart s.lastSegmentIdx, 0, s.transSegTotalLen, s.transStartFcs] ++ para)))
  else if pduType = transAck then
    let t := roleTransNum s
    (t, some (pbAdv (1 + 6) t.linkId t.rspAckTransnum [gpcfOctet transAck 0]))
  else if pduType = transCon then
    let t := roleTransNum { s with segmentIdx := s.segmentIdx + 1 }
    (t, some (pbAdv (BitVec.ofNat 8 (1 + 6 + para.length)) t.linkId t.transNum
      (gpcfOctet transCon t.segmentIdx :: para)))
  else if pduType = bearsCtl then
    if bearCode = linkOpen then
      let t := roleTransNum
        { s with transNum := 0, linkId := if s.cmdRetryFlag then s.linkId else s.linkId + 1 }
      (t, some (pbAdv (6 + 17) t.linkId t.transNum
        (gpcfOctet bearsCtl bearCode :: (List.range 16).map fun i => para.getD i 0)))
    else if bearCode = linkAck then
      let t := roleTransNum s
      (t, some (pbAdv (6 + 1) t.linkId t.rspAckTransnum [gpcfOctet bearsCtl bearCode]))
    else if bearCode = linkClose then
      let t := roleTransNum s
      ({ t with transNum := 0 }, some (pbAdv (6 + 2) t.linkId t.transNum
        [gpcfOctet bearsCtl bearCode, t.provLinkClsCode]))
    else
      -- the length leaves the code out
      let t := roleTransNum s
      (t, some (pbAdv 6 t.linkId t.transNum []))
  else (s, none)

/-- The continuations of `rest`; every round takes at least one octet. -/
def sendConLoop : Nat → ProvPara → List Byte → ProvPara × List (List Byte)
  | 0, s, _ => (s, [])
  | fuel + 1, s, rest =>
    if rest.length = 0 then (s, [])
    else
      let dataLen := if rest.length ≥ 23 then 23 else rest.length
      let (s, pkt) := meshSendProvisonData s transCon 0 (rest.take dataLen)
      let (s, pkts) := sendConLoop fuel s (rest.drop dataLen)
      (s, pkt.toList ++ pkts)

variable (crc8Rohc : List Byte → Byte)

/-- The sender after the call and the packets that go out. -/
def meshSendMultiData (s : ProvPara) (para : List Byte) : ProvPara × List (List Byte) :=
  let s := { s with
    transSegTotalLen := BitVec.ofNat 8 para.length
    lastSegmentIdx := 0
    transStartFcs := crc8Rohc para }
  if para.length ≤ 20 then
    let (s, pkt) := meshSendProvisonData s transStart 0 para
    (s, pkt.toList)
  else
    let s := { s with lastSegmentIdx := BitVec.ofNat 8 (1 + (para.length - 20) / 23) }
    let (s, pkt) := meshSendProvisonData s transStart 0 (para.take 20)
    let (s, pkts) := sendConLoop (para.length - 20) s (para.drop 20)
    (s, pkt.toList ++ pkts)

/-! ### Receiving -/

/-- `mesh_prov_seg_t` -/
structure MeshProvSeg where
  segMap : BitVec 32
  transNum : Byte
  segN : Byte
  segCnt : Byte
  fcsTmp : Byte
  linkId : BitVec 32

def MeshProvSeg.zero : MeshProvSeg := ⟨0, 0, 0, 0, 0, 0⟩

/-- What the receiver's functions read and keep; a memory is a map from addresses to
octets, and what lies behind `rcv_pb` is part of `rcvPb`. -/
structure PbAdvReceiver where
  linkId : BitVec 32
  linkIdFilter : Bool
  proStopFlag : Bool
  meshProvSeg : MeshProvSeg
  rcvPb : Nat → Byte

/-- A PDU as it goes to the provisioning protocol. -/
inductive PbAdvDispatch
  | beacon (pkt : List Byte)
  | node (buf : Nat → Byte)
  | provisioner (buf : Nat → Byte)

/-! ### A packet in memory -/

section Packet

variable (p : Nat → Byte)

def pbLength : Byte := p 0

def pbAdType : Byte := p 1

def pbLinkId : List Byte := read p 2 4

def pbTransNum : Byte := p 6

def pbGpcf : Byte := p 7 &&& 3

/-- `SegN` of a start packet, `SegIdx` of a continuation. -/
def pbSeg : Byte := p 7 >>> 2

def pbTotalLen : Nat := ofLE (read p 8 2)

def pbFcs : Byte := p 10

/-- The PDU behind a start packet's octets. -/
def pbData : List Byte := read p 11 (pbTotalLen p)

/-- `endianness_swap_u16` on `total_len`. -/
def swapTotalLen : Nat → Byte := copy p 8 [p 9, p 8]

end Packet

/-! ### The segments -/

/-- `BIT(n)` -/
def bit (n : Nat) : BitVec 32 := 1#32 <<< n

/-- The segments are those of the packet's transaction. -/
def segBegin (linkId : BitVec 32) (transNum : Byte) (seg : MeshProvSeg) : MeshProvSeg :=
  if transNum ≠ seg.transNum ∨ seg.linkId ≠ linkId then
    { MeshProvSeg.zero with segN := 0x80, transNum := transNum, linkId := linkId }
  else seg

/-- The segment is put to its place; `none` for a packet that does not fit. -/
def segStore (segIdx : Byte) (pAdv : Nat → Byte) (seg : MeshProvSeg) (rcvPb : Nat → Byte) :
    Option (MeshProvSeg × (Nat → Byte)) :=
  if segIdx = 0 then
    let pktLen := (pbLength pAdv).toNat + 1
    if pktLen > sizeofPbAdv then none
    else some ({ seg with
        segN := pbSeg pAdv
        fcsTmp := pbFcs pAdv
        segMap := seg.segMap ||| bit segIdx.toNat
        segCnt := seg.segCnt + 1 },
      copy rcvPb 0 (read pAdv 0 pktLen))
  else
    let rcvPbIdx := (segIdx.toNat - 1) * offsetCon + offsetStart
    -- a 16-bit difference: a length below 7 wraps
    let pktLen := ((pbLength pAdv).setWidth 16 - 7 : BitVec 16).toNat
    if rcvPbIdx + pktLen > sizeofPbAdv then none
    else some ({ seg with
        segMap := seg.segMap ||| bit segIdx.toNat
        segCnt := seg.segCnt + 1 },
      copy rcvPb rcvPbIdx (read pAdv 8 pktLen))

/-- The receiver after the call and what it returns: `0` for a complete PDU. -/
def meshProvisionSegCheck (segIdx : Byte) (pAdv : Nat → Byte) (r : PbAdvReceiver) :
    PbAdvReceiver × Int :=
  let seg := segBegin r.linkId (pbTransNum pAdv) r.meshProvSeg
  let stored := if seg.segMap &&& bit segIdx.toNat = 0 then segStore segIdx pAdv seg r.rcvPb
    else some (seg, r.rcvPb)
  match stored with
  | none => ({ r with meshProvSeg := .zero }, -2)
  | some (seg, rcvPb) =>
    ({ r with meshProvSeg := seg, rcvPb := rcvPb },
      if seg.segCnt.toNat = seg.segN.toNat + 1 ∧ seg.fcsTmp = crc8Rohc (pbData rcvPb) then 0
      else -1)

def filterProvLinkId (pAdv : Nat → Byte) (r : PbAdvReceiver) : Bool :=
  r.linkIdFilter && pbLinkId pAdv ≠ toLE 4 r.linkId.toNat

/-- The buffer at the end of the reception, or what the call returns early. -/
def pbAdvReceive (pAdv : Nat → Byte) (r : PbAdvReceiver) :
    PbAdvReceiver × Except Int (Nat → Byte) :=
  if pbGpcf pAdv = transStart then
    let pAdv := swapTotalLen pAdv
    if pbSeg pAdv = 0 then
      (r, if pbFcs pAdv ≠ crc8Rohc (pbData pAdv) then .error 0 else .ok pAdv)
    else
      let (r, ret) := meshProvisionSegCheck crc8Rohc 0 pAdv r
      (r, if ret ≠ 0 then .error 1 else .ok r.rcvPb)
  else if pbGpcf pAdv = transCon then
    let (r, ret) := meshProvisionSegCheck crc8Rohc (pbSeg pAdv) pAdv r
    (r, if ret ≠ 0 then .error 1 else .ok r.rcvPb)
  else (r, .ok pAdv)

/-- The receiver after the call, what goes to the protocol, and what the call returns. -/
def meshProvisonProcess (iniRole : ProvisionRoles) (pAdv : Nat → Byte) (r : PbAdvReceiver) :
    PbAdvReceiver × Option PbAdvDispatch × Int :=
  if pbAdType pAdv = meshAdvTypeBeacon then
    let pktLen := (pbLength pAdv).toNat + 1 + 7
    if pktLen > sizeofPbAdv then (r, none, -1)
    else (r, some (.beacon (read pAdv 0 pktLen)), 1)
  else if filterProvLinkId pAdv r then (r, none, 1)
  else match pbAdvReceive crc8Rohc pAdv r with
    | (r, .error ret) => (r, none, ret)
    | (r, .ok rcvPbBuf) =>
      match iniRole with
      | .node => (r, some (.node rcvPbBuf), 1)
      | .provisioner =>
        if pbAdType pAdv = meshAdvTypePro ∧ r.proStopFlag = false then
          (r, some (.provisioner rcvPbBuf), 1)
        else (r, none, 1)

/-! ### The packets that are sent -/

/-- The octets of a start packet up to its data, `total` the two octets of the length. -/
def startOctets (linkId : BitVec 32) (transNum segN fcs : Byte) (total : List Byte)
    (data : List Byte) : List Byte :=
  pbAdv (BitVec.ofNat 8 (10 + data.length)) linkId transNum
    ([gpcfOctet transStart segN] ++ total ++ [fcs] ++ data)

def conOctets (linkId : BitVec 32) (transNum segIdx : Byte) (data : List Byte) : List Byte :=
  pbAdv (BitVec.ofNat 8 (7 + data.length)) linkId transNum (gpcfOctet transCon segIdx :: data)

theorem roleTransNum_idem (s : ProvPara) : roleTransNum (roleTransNum s) = roleTransNum s := by
  rcases s with ⟨_, t, _, _, role, _, _, _, _, _⟩
  cases role <;> simp [roleTransNum, BitVec.and_assoc, BitVec.or_assoc]

theorem roleTransNum_segmentIdx (s : ProvPara) (k : Byte) :
    roleTransNum { s with segmentIdx := k } = { roleTransNum s with segmentIdx := k } := by
  rcases s with ⟨_, _, _, _, role, _, _, _, _, _⟩
  cases role <;> rfl

@[simp] theorem roleTransNum_linkId (s : ProvPara) : (roleTransNum s).linkId = s.linkId := by
  rcases s with ⟨_, _, _, _, role, _, _, _, _, _⟩
  cases role <;> rfl

/-- A start packet, and the state the continuations go out in. -/
theorem sendStart_eq (s : ProvPara) (para : List Byte) (h : para.length ≤ 31) :
    ∃ t : ProvPara, roleTransNum t = t ∧ t.linkId = s.linkId ∧ t.segmentIdx = 0 ∧
      meshSendProvisonData s transStart 0 para =
        (t, some (startOctets t.linkId t.transNum s.lastSegmentIdx s.transStartFcs
          [0, s.transSegTotalLen] para)) := by
  refine ⟨(meshSendProvisonData s transStart 0 para).1, ?_⟩
  rw [meshSendProvisonData, if_neg (by omega), if_pos rfl]
  refine ⟨roleTransNum_idem _, ?_, ?_, rfl⟩
  · simp only [roleTransNum_linkId]
    split <;> rfl
  · simp only
    split <;> rw [roleTransNum] <;> rcases s with ⟨_, _, _, _, role, _, _, _, _, _⟩ <;>
      cases role <;> rfl

theorem sendCon_eq {t : ProvPara} (ht : roleTransNum t = t) {para : List Byte}
    (h : para.length ≤ 31) (k : Byte) :
    meshSendProvisonData { t with segmentIdx := k } transCon 0 para =
      ({ t with segmentIdx := k + 1 }, some (conOctets t.linkId t.transNum (k + 1) para)) := by
  have hne : transCon ≠ transStart := by decide
  have hne' : transCon ≠ transAck := by decide
  rw [meshSendProvisonData, if_neg (by omega), if_neg hne, if_neg hne', if_pos rfl]
  simp only [roleTransNum_segmentIdx, ht]
  rfl

/-- The continuations number the rounds of the loop. -/
theorem sendConLoop_eq {t : ProvPara} (ht : roleTransNum t = t) (fuel : Nat) (rest : List Byte)
    (h : rest.length ≤ fuel) (k : Nat) :
    sendConLoop fuel { t with segmentIdx := BitVec.ofNat 8 k } rest =
      ({ t with segmentIdx := BitVec.ofNat 8 (k + (rest.length + 22) / 23) },
        (List.range ((rest.length + 22) / 23)).map fun i =>
          conOctets t.linkId t.transNum (BitVec.ofNat 8 (k + 1 + i))
            ((rest.drop (23 * i)).take 23)) := by
  induction fuel generalizing rest k with
  | zero =>
    obtain rfl : rest = [] := List.length_eq_zero_iff.mp (by omega)
    rfl
  | succ fuel ih =>
    rw [sendConLoop]
    split
    · rename_i hnil
      obtain rfl : rest = [] := List.length_eq_zero_iff.mp hnil
      rfl
    · rename_i hpos
      have htake : rest.take (if rest.length ≥ 23 then 23 else rest.length) = rest.take 23 := by
        split
        · rfl
        · rw [List.take_of_length_le le_rfl, List.take_of_length_le (by omega)]
      have hdrop : rest.drop (if rest.length ≥ 23 then 23 else rest.length) = rest.drop 23 := by
        split
        · rfl
        · rw [List.drop_of_length_le le_rfl, List.drop_of_length_le (by omega)]
      have hk : BitVec.ofNat 8 k + 1 = BitVec.ofNat 8 (k + 1) := by
        rw [BitVec.ofNat_add]
        rfl
      have hlen : (rest.length + 22) / 23 = ((rest.drop 23).length + 22) / 23 + 1 := by
        rw [List.length_drop]
        omega
      simp only [htake, hdrop]
      rw [sendCon_eq ht (by simp), hk]
      simp only
      rw [ih _ (by simp; omega) (k + 1), hlen, List.range_succ_eq_map]
      simp only [Option.toList_some, List.map_cons, List.map_map, List.cons_append, List.nil_append,
        Nat.mul_zero, List.drop_zero, Nat.add_zero, List.drop_drop]
      refine Prod.ext (by simp only; congr 2; omega) ?_
      simp only [List.cons.injEq, true_and]
      refine List.map_congr_left fun i _ => ?_
      simp only [Function.comp]
      rw [show k + 1 + 1 + i = k + 1 + (i + 1) by omega, show 23 + 23 * i = 23 * (i + 1) by omega]

variable (crc8Rohc : List Byte → Byte)

/-- A PDU of at most 20 octets is one packet. -/
theorem meshSendMultiData_short (s : ProvPara) {para : List Byte} (h : para.length ≤ 20) :
    ∃ t, meshSendMultiData crc8Rohc s para = (t, [startOctets s.linkId t.transNum 0
      (crc8Rohc para) [0, BitVec.ofNat 8 para.length] para]) := by
  obtain ⟨t, -, hlink, -, heq⟩ := sendStart_eq { s with
    transSegTotalLen := BitVec.ofNat 8 para.length
    lastSegmentIdx := 0
    transStartFcs := crc8Rohc para } para (by omega)
  refine ⟨t, ?_⟩
  simp only [meshSendMultiData, if_pos h, heq, hlink]
  rfl

/-- A longer one is a start packet and continuations. -/
theorem meshSendMultiData_long (s : ProvPara) {para : List Byte} (h : 20 < para.length) :
    ∃ t : ProvPara, meshSendMultiData crc8Rohc s para = (t,
      startOctets s.linkId t.transNum (BitVec.ofNat 8 (1 + (para.length - 20) / 23))
          (crc8Rohc para) [0, BitVec.ofNat 8 para.length] (para.take 20) ::
        (List.range ((para.length + 2) / 23)).map fun i =>
          conOctets s.linkId t.transNum (BitVec.ofNat 8 (i + 1))
            ((para.drop (20 + 23 * i)).take 23)) := by
  obtain ⟨t, ht, hlink, hidx, heq⟩ := sendStart_eq { s with
    transSegTotalLen := BitVec.ofNat 8 para.length
    transStartFcs := crc8Rohc para
    lastSegmentIdx := BitVec.ofNat 8 (1 + (para.length - 20) / 23) } (para.take 20)
    (by simp)
  have hloop := sendConLoop_eq ht (para.length - 20) (para.drop 20) (by simp) 0
  have ht0 : { t with segmentIdx := BitVec.ofNat 8 0 } = t := by
    rw [show BitVec.ofNat 8 0 = t.segmentIdx from hidx.symm]
  have hcount : ((para.drop 20).length + 22) / 23 = (para.length + 2) / 23 := by
    rw [List.length_drop]
    omega
  rw [ht0, hcount] at hloop
  refine ⟨{ t with segmentIdx := BitVec.ofNat 8 (0 + (para.length + 2) / 23) }, ?_⟩
  simp only [meshSendMultiData, if_neg (Nat.not_le.mpr h), heq, hlink, hloop, Option.toList_some]
  refine Prod.ext rfl ?_
  simp only [List.cons_append, List.nil_append, List.drop_drop, Nat.zero_add]
  simp only [Nat.add_comm 1]

end PirMesh
