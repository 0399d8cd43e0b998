import Mathlib.Data.BitVec
import PirMesh.Library.Run
import PirMesh.Node.Ticks
import PirMesh.Prov.Gatt

/-! # Prov — Packets of the GATT bearer put together (`app_provison.c`)

A proxy PDU that is longer than a packet comes as a start, continuations and an end.
`pkt_pb_gatt_data` puts them one behind another in `proxy_para_buf`, the place in a
static of 8 bits; `proxy_sar` says whether a sequence is open, and an end that closes
none is only noted there.

`GattInTurn` leaves out the packets that reach the gaps between the two, and
`gattSar_safe` says that every run of the others is safe. -/

namespace PirMesh

open Nor Reassembly Run

/-! ### Data -/

/-- `L2CAP_HANDLE_TYPE` -/
inductive L2capHandleType
  | provison
  | proxy
  | beacon
  | network
  deriving DecidableEq, Repr

/-- `MSG_NETWORK_PDU`, `MSG_MESH_BEACON`, `MSG_PROXY_CONFIG`, `MSG_PROVISION_PDU`: what each lets
through. -/
def L2capHandleType.msgType : L2capHandleType → Byte
  | .network => 0
  | .beacon => 1
  | .proxy => 2
  | .provison => 3

/-- Where in `proxy_para_buf` the callers let the PDU go: a provisioning PDU to the front, the rest
to `nw` and `beacon` of a `mesh_cmd_bear_unseg_t`. -/
def L2capHandleType.pRcv : L2capHandleType → ℕ
  | .provison => 0
  | .proxy | .beacon | .network => 3

/-- `PROXY_SAR_ENUM` -/
def sarComplete : Byte := 0

def sarStart : Byte := 1

def sarContinus : Byte := 2

def sarEnd : Byte := 3

/-- `sizeof(rcv_pb.pb_pdu)`, the length of `proxy_para_buf` too. -/
def provisionGattMaxLen : Byte := 0x50

/-- `rf_packet_att_data_t`: the length of what the peer wrote, and the memory from `dat` on. -/
structure RfPacketAttData where
  l2cap : BitVec 16
  dat : ℕ → Byte

namespace RfPacketAttData

def msgType (p : RfPacketAttData) : Byte := p.dat 0 &&& 0x3f

def sar (p : RfPacketAttData) : Byte := p.dat 0 >>> 6

def lenPayload (p : RfPacketAttData) : Byte := (p.l2cap - 4).setWidth 8

/-- The octets that came. -/
def payload (p : RfPacketAttData) : List Byte := read p.dat 1 (p.l2cap.toNat - 4)

end RfPacketAttData

/-- `mesh_proxy_protocol_sar_t` -/
structure ProxySar where
  sarStart : Bool
  sarEnd : Bool
  errFlag : Bool
  sarTick : BitVec 32
  deriving DecidableEq, Repr

namespace ProxySar

def meshProxySarParaInit : ProxySar := ⟨false, true, false, 0⟩

def meshProxySarStart (clock : BitVec 32) (s : ProxySar) : ProxySar :=
  if !s.sarStart && s.sarEnd then
    { s with sarStart := true, sarEnd := false, sarTick := clock ||| 1 }
  else { s with errFlag := true }

def meshProxySarContinue (clock : BitVec 32) (s : ProxySar) : ProxySar :=
  if s.sarStart && !s.sarEnd then { s with sarTick := clock ||| 1 }
  else { s with errFlag := true }

def meshProxySarEnd (s : ProxySar) : ProxySar :=
  if s.sarStart && !s.sarEnd then { s with sarStart := false, sarEnd := true, sarTick := 0 }
  else { s with errFlag := true }

def meshProxySarComplete (s : ProxySar) : ProxySar :=
  if !s.sarStart && s.sarEnd then { s with sarTick := 0 }
  else { s with errFlag := true }

def meshProxySarErrTerminate (s : ProxySar) : ProxySar :=
  if s.errFlag then meshProxySarParaInit else s

/-- `PROXY_PDU_TIMEOUT_TICK` -/
def pduTimeout : BitVec 32 := 20 * 1000 * 1000

def meshProxySarTimeoutTerminate (clock : BitVec 32) (s : ProxySar) : ProxySar :=
  if s.sarTick ≠ 0 ∧ clockTickExceed clock s.sarTick pduTimeout then meshProxySarParaInit else s

end ProxySar

/-- `idx_num` with `proxy_sar`, the memory from `proxy_para_buf` on and `proxy_para_len`. -/
structure GattReceiver where
  proxySar : ProxySar
  idxNum : Byte
  mem : ℕ → Byte
  proxyParaLen : Byte

/-! ### `pkt_pb_gatt_data` -/

/-- Where the octets of a packet go, behind `p_rcv`. -/
def gattOffset (p : RfPacketAttData) (s : GattReceiver) : Byte :=
  if p.sar = sarContinus ∨ p.sar = sarEnd then s.idxNum else 0

/-- The receiver after a packet, and whether a PDU is complete. -/
def pktPbGattData (clock : BitVec 32) (p : RfPacketAttData) (l2capType : L2capHandleType)
    (pRcv : ℕ) (s : GattReceiver) : GattReceiver × Bool :=
  if p.msgType ≠ l2capType.msgType then (s, false)
  else if gattOffset p s + p.lenPayload > provisionGattMaxLen then
    ({ s with proxySar := .meshProxySarParaInit }, false)
  else
    let data := read p.dat 1 p.lenPayload.toNat
    if p.sar = sarStart then
      ({ s with
          mem := copy s.mem pRcv data
          idxNum := p.lenPayload
          proxySar := s.proxySar.meshProxySarStart clock }, false)
    else if p.sar = sarContinus then
      ({ s with
          mem := copy s.mem (pRcv + s.idxNum.toNat) data
          idxNum := s.idxNum + p.lenPayload
          proxySar := s.proxySar.meshProxySarContinue clock }, false)
    else if p.sar = sarEnd then
      ({ s with
          mem := copy s.mem (pRcv + s.idxNum.toNat) data
          idxNum := s.idxNum + p.lenPayload
          -- an error is noted, and the PDU is returned as without it
          proxySar := s.proxySar.meshProxySarEnd.meshProxySarErrTerminate
          proxyParaLen := s.idxNum + p.lenPayload }, true)
    else
      ({ s with
          mem := copy s.mem pRcv data
          idxNum := p.lenPayload
          proxySar := s.proxySar.meshProxySarComplete.meshProxySarErrTerminate
          proxyParaLen := p.lenPayload }, true)

/-- A packet that is copied. -/
def GattReceiver.Takes (s : GattReceiver) (l2capType : L2capHandleType) (p : RfPacketAttData) :
    Prop :=
  p.msgType = l2capType.msgType ∧ ¬ gattOffset p s + p.lenPayload > provisionGattMaxLen

instance (s : GattReceiver) (l2capType : L2capHandleType) (p : RfPacketAttData) :
    Decidable (s.Takes l2capType p) :=
  inferInstanceAs (Decidable (_ ∧ _))

section

variable (clock : BitVec 32) (p : RfPacketAttData) (l2capType : L2capHandleType) (pRcv : ℕ)
  (s : GattReceiver)

theorem sar_complete (hs : p.sar ≠ sarStart) (hc : p.sar ≠ sarContinus) (he : p.sar ≠ sarEnd) :
    p.sar = sarComplete := by
  have hall : ∀ b : Byte, b >>> 6 ≠ sarStart → b >>> 6 ≠ sarContinus → b >>> 6 ≠ sarEnd →
      b >>> 6 = sarComplete := by decide
  exact hall (p.dat 0) hs hc he

/-- **What a packet does** to the place and to the memory, and when it is the last of a PDU. -/
theorem pktPbGattData_takes (h : s.Takes l2capType p) :
    (pktPbGattData clock p l2capType pRcv s).1.mem =
        copy s.mem (pRcv + (gattOffset p s).toNat) (read p.dat 1 p.lenPayload.toNat) ∧
      (pktPbGattData clock p l2capType pRcv s).1.idxNum = gattOffset p s + p.lenPayload ∧
      ((pktPbGattData clock p l2capType pRcv s).2 = true →
        (p.sar = sarEnd ∨ p.sar = sarComplete) ∧
          (pktPbGattData clock p l2capType pRcv s).1.proxyParaLen = gattOffset p s +
            p.lenPayload) := by
  have hoff : p.sar ≠ sarContinus → p.sar ≠ sarEnd → gattOffset p s = 0 := fun hc he =>
    if_neg (not_or.mpr ⟨hc, he⟩)
  unfold pktPbGattData
  rw [if_neg (not_not.mpr h.1), if_neg h.2]
  dsimp only
  by_cases hs : p.sar = sarStart
  · have h0 := hoff (by rw [hs]; decide) (by rw [hs]; decide)
    rw [if_pos hs, h0]
    exact ⟨rfl, (BitVec.zero_add _).symm, fun hret => absurd hret Bool.false_ne_true⟩
  rw [if_neg hs]
  by_cases hc : p.sar = sarContinus
  · rw [if_pos hc, gattOffset, if_pos (.inl hc)]
    exact ⟨rfl, rfl, fun hret => absurd hret Bool.false_ne_true⟩
  rw [if_neg hc]
  by_cases he : p.sar = sarEnd
  · rw [if_pos he, gattOffset, if_pos (.inr he)]
    exact ⟨rfl, rfl, fun _ => ⟨.inl he, rfl⟩⟩
  · rw [if_neg he, hoff hc he]
    have hlen := (BitVec.zero_add p.lenPayload).symm
    exact ⟨rfl, hlen, fun _ => ⟨.inr (sar_complete p hs hc he), hlen⟩⟩

/-- A packet that is not copied changes at most `proxy_sar`. -/
theorem pktPbGattData_refuses (h : ¬ s.Takes l2capType p) :
    (pktPbGattData clock p l2capType pRcv s).1.mem = s.mem ∧
      (pktPbGattData clock p l2capType pRcv s).1.idxNum = s.idxNum ∧
      (pktPbGattData clock p l2capType pRcv s).2 = false := by
  unfold pktPbGattData
  by_cases htype : p.msgType = l2capType.msgType
  · have hlong : gattOffset p s + p.lenPayload > provisionGattMaxLen := by
      by_contra hfits
      exact h ⟨htype, hfits⟩
    rw [if_neg (not_not.mpr htype), if_pos hlong]
    exact ⟨rfl, rfl, rfl⟩
  · rw [if_pos htype]
    exact ⟨rfl, rfl, rfl⟩

end

/-! ### Runs -/

/-- The receiver, and what is not in the code: the sequence that is open, with the octets of its
start and of the continuations behind it. -/
structure GattRun where
  receiver : GattReceiver
  openSeq : Option (L2capHandleType × List Byte)

/-- A packet arrives, for a caller that makes something of the buffer when the PDU is complete; the
timeout is looked at; or the peer is another one. -/
inductive GattEvent
  | packet (clock : BitVec 32) (p : RfPacketAttData) (l2capType : L2capHandleType)
    (used : (ℕ → Byte) → ℕ → Byte)
  | timeout (clock : BitVec 32)
  | connection

/-- At boot, after `set_proxy_initial_mode`. -/
def GattRun.initial (mem : ℕ → Byte) (proxyParaLen : Byte) : GattRun :=
  ⟨⟨.meshProxySarParaInit, 0, mem, proxyParaLen⟩, none⟩

/-- The sequence that is open after a packet that is copied. -/
def openAfter (openSeq : Option (L2capHandleType × List Byte)) (l2capType : L2capHandleType)
    (p : RfPacketAttData) : Option (L2capHandleType × List Byte) :=
  if p.sar = sarStart then some (l2capType, p.payload)
  else if p.sar = sarContinus then
    match openSeq with
    | some (l2capType', octets) =>
      if l2capType' = l2capType then some (l2capType, octets ++ p.payload) else none
    | none => none
  else none

namespace GattRun

/-- A packet that is too long interrupts a sequence; one of another kind of message is no part of
it. -/
def next (t : GattRun) : GattEvent → GattRun
  | .packet clock p l2capType used =>
    let (s, complete) := pktPbGattData clock p l2capType l2capType.pRcv t.receiver
    ⟨if complete then { s with mem := used s.mem } else s,
      if p.msgType ≠ l2capType.msgType then t.openSeq
      else if t.receiver.Takes l2capType p then openAfter t.openSeq l2capType p
      else none⟩
  | .timeout clock =>
    let proxySar := t.receiver.proxySar.meshProxySarTimeoutTerminate clock
    ⟨{ t.receiver with proxySar }, if proxySar = t.receiver.proxySar then t.openSeq else none⟩
  | .connection => { t with openSeq := none }

/-- What a packet is allowed to do: it writes to `proxy_para_buf` only, and a PDU is returned for a
complete packet or for the end of the sequence that is open, with the octets of all its packets. -/
structure Safe (t : GattRun) (clock : BitVec 32) (p : RfPacketAttData)
    (l2capType : L2capHandleType) : Prop where
  writes : ∀ a, a < l2capType.pRcv ∨ provisionGattMaxLen.toNat ≤ a →
    (pktPbGattData clock p l2capType l2capType.pRcv t.receiver).1.mem a = t.receiver.mem a
  complete : (pktPbGattData clock p l2capType l2capType.pRcv t.receiver).2 = true →
    ∃ pdu, (p.sar = sarComplete ∧ pdu = p.payload ∨
        p.sar = sarEnd ∧ ∃ octets, t.openSeq = some (l2capType, octets) ∧
          pdu = octets ++ p.payload) ∧
      (pktPbGattData clock p l2capType l2capType.pRcv t.receiver).1.proxyParaLen.toNat =
        pdu.length ∧
      read (pktPbGattData clock p l2capType l2capType.pRcv t.receiver).1.mem l2capType.pRcv
        pdu.length = pdu

/-- A packet that is copied has room and a length that 8 bits hold, and an end closes the sequence
that is open. -/
def InTurn (t : GattRun) : GattEvent → Prop
  | .packet _ p l2capType _ =>
    t.receiver.Takes l2capType p →
      l2capType.pRcv + (gattOffset p t.receiver).toNat + p.lenPayload.toNat ≤
          provisionGattMaxLen.toNat ∧
        p.l2cap.toNat - 4 < 256 ∧
        (p.sar = sarEnd → ∃ octets, t.openSeq = some (l2capType, octets))
  | .timeout _ | .connection => True

/-- The invariant of a run: what is open is in the buffer, up to the place of the next packet. -/
def Inv (t : GattRun) : Prop :=
  ∀ l2capType octets, t.openSeq = some (l2capType, octets) →
    t.receiver.idxNum.toNat = octets.length ∧
      read t.receiver.mem l2capType.pRcv octets.length = octets

variable {t : GattRun} {clock : BitVec 32} {p : RfPacketAttData} {l2capType : L2capHandleType}
  {used : (ℕ → Byte) → ℕ → Byte}

/-- The length of a packet that has room is that of its octets. -/
theorem lenPayload_eq {n : ℕ} (hroom : n + p.lenPayload.toNat ≤ provisionGattMaxLen.toNat)
    (hwhole : p.l2cap.toNat - 4 < 256) : p.lenPayload.toNat = p.payload.length := by
  have hmax : provisionGattMaxLen.toNat = 80 := rfl
  have hfour : (4 : BitVec 16).toNat = 4 := rfl
  have hlt := p.l2cap.isLt
  have hlen : p.lenPayload.toNat = (2 ^ 16 - 4 + p.l2cap.toNat) % 2 ^ 16 % 2 ^ 8 := by
    rw [RfPacketAttData.lenPayload, BitVec.toNat_setWidth, BitVec.toNat_sub, hfour]
  rw [RfPacketAttData.payload, length_read]
  omega

/-- What is read behind the octets of a packet in turn. -/
theorem read_takes (hturn : t.InTurn (.packet clock p l2capType used))
    (h : t.receiver.Takes l2capType p) {octets : List Byte}
    (hoff : (gattOffset p t.receiver).toNat = octets.length)
    (hread : read t.receiver.mem l2capType.pRcv octets.length = octets) :
    (gattOffset p t.receiver + p.lenPayload).toNat = (octets ++ p.payload).length ∧
      read (pktPbGattData clock p l2capType l2capType.pRcv t.receiver).1.mem l2capType.pRcv
        (octets ++ p.payload).length = octets ++ p.payload := by
  obtain ⟨hroom, hwhole, -⟩ := hturn h
  have hlen := lenPayload_eq hroom hwhole
  have hmax : provisionGattMaxLen.toNat = 80 := rfl
  obtain ⟨hmem, -, -⟩ := pktPbGattData_takes clock p l2capType l2capType.pRcv t.receiver h
  have hdata : read p.dat 1 p.lenPayload.toNat = p.payload := by
    rw [hlen, RfPacketAttData.payload, length_read]
  constructor
  · rw [BitVec.toNat_add, List.length_append, ← hlen, ← hoff]
    exact Nat.mod_eq_of_lt (by omega)
  · rw [hmem, hdata, hoff, List.length_append, read_copy_behind, hread]

/-- The octets in front of a packet that continues or ends a sequence. -/
theorem offset_open (hinv : t.Inv) {octets : List Byte}
    (hopen : t.openSeq = some (l2capType, octets))
    (hs : p.sar = sarContinus ∨ p.sar = sarEnd) :
    (gattOffset p t.receiver).toNat = octets.length := by
  rw [gattOffset, if_pos hs]
  exact (hinv _ _ hopen).1

/-- Those in front of one that starts something: none. -/
theorem offset_first (hc : p.sar ≠ sarContinus) (he : p.sar ≠ sarEnd) :
    (gattOffset p t.receiver).toNat = ([] : List Byte).length := by
  rw [gattOffset, if_neg (not_or.mpr ⟨hc, he⟩)]
  rfl

theorem Inv.next (hinv : t.Inv) {e : GattEvent} (hturn : t.InTurn e) : (t.next e).Inv := by
  cases e with
  | timeout clock =>
    intro ty octets hopen
    unfold GattRun.next at hopen ⊢
    dsimp only at hopen ⊢
    split_ifs at hopen
    exact hinv ty octets hopen
  | connection =>
    intro ty octets hopen
    cases hopen
  | packet clock p l2capType used =>
    intro ty octets hopen
    unfold GattRun.next at hopen ⊢
    dsimp only at hopen ⊢
    by_cases htakes : t.receiver.Takes l2capType p
    · rw [if_neg (not_not.mpr htakes.1), if_pos htakes] at hopen
      obtain ⟨-, hidx, hret⟩ :=
        pktPbGattData_takes clock p l2capType l2capType.pRcv t.receiver htakes
      unfold openAfter at hopen
      by_cases hs : p.sar = sarStart
      · rw [if_pos hs] at hopen
        obtain ⟨rfl, rfl⟩ := Prod.mk.inj (Option.some.inj hopen)
        have hread := read_takes hturn htakes
          (offset_first (by rw [hs]; decide) (by rw [hs]; decide)) rfl
        have hno : (pktPbGattData clock p l2capType l2capType.pRcv t.receiver).2 = false := by
          by_contra hne
          rw [Bool.not_eq_false] at hne
          exact absurd ((hret hne).1) (by rw [hs]; decide)
        rw [hno, if_neg Bool.false_ne_true, hidx]
        exact hread
      · rw [if_neg hs] at hopen
        split_ifs at hopen with hc
        cases hseq : t.openSeq with
        | none =>
          rw [hseq] at hopen
          cases hopen
        | some seq =>
          -- a continuation goes to where the octets before it end
          obtain ⟨ty', before⟩ := seq
          rw [hseq] at hopen
          dsimp only at hopen
          split_ifs at hopen with hty
          obtain rfl := hty
          obtain ⟨rfl, rfl⟩ := Prod.mk.inj (Option.some.inj hopen)
          have hread := read_takes hturn htakes (offset_open hinv hseq (.inl hc)) (hinv _ _ hseq).2
          have hno : (pktPbGattData clock p ty' ty'.pRcv t.receiver).2 = false := by
            by_contra hne
            rw [Bool.not_eq_false] at hne
            exact absurd ((hret hne).1) (by rw [hc]; decide)
          rw [hno, if_neg Bool.false_ne_true, hidx]
          exact hread
    · obtain ⟨hmem, hidx, hret⟩ := pktPbGattData_refuses clock p l2capType l2capType.pRcv
        t.receiver htakes
      rw [if_neg htakes] at hopen
      -- only one of another kind of message leaves the sequence open
      split_ifs at hopen
      rw [hret, if_neg Bool.false_ne_true, hmem, hidx]
      exact hinv ty octets hopen

theorem Inv.safe (hinv : t.Inv) (hturn : t.InTurn (.packet clock p l2capType used)) :
    t.Safe clock p l2capType := by
  by_cases htakes : t.receiver.Takes l2capType p
  · obtain ⟨hmem, -, hret⟩ := pktPbGattData_takes clock p l2capType l2capType.pRcv t.receiver htakes
    obtain ⟨hroom, -, hend⟩ := hturn htakes
    refine ⟨fun a ha => ?_, fun hcomplete => ?_⟩
    · rw [hmem]
      refine copy_outside _ ?_
      rw [length_read]
      omega
    · obtain ⟨he | hc, hlen⟩ := hret hcomplete
      · obtain ⟨octets, hopen⟩ := hend he
        obtain ⟨hsum, hread⟩ := read_takes hturn htakes (offset_open hinv hopen (.inr he))
          (hinv _ _ hopen).2
        refine ⟨octets ++ p.payload, .inr ⟨he, octets, hopen, rfl⟩, ?_, hread⟩
        rw [hlen, hsum]
      · obtain ⟨hsum, hread⟩ := read_takes hturn htakes
          (offset_first (by rw [hc]; decide) (by rw [hc]; decide))
          (rfl : read _ _ ([] : List Byte).length = [])
        refine ⟨p.payload, .inl ⟨hc, rfl⟩, ?_, hread⟩
        rw [hlen, hsum]
        rfl
  · obtain ⟨hmem, -, hret⟩ := pktPbGattData_refuses clock p l2capType l2capType.pRcv t.receiver
      htakes
    refine ⟨fun a _ => congrFun hmem a, fun hcomplete => ?_⟩
    rw [hret] at hcomplete
    cases hcomplete

end GattRun

/-- **In a run of packets in turn every packet is safe.** -/
theorem gattSar_safe (mem : ℕ → Byte) (proxyParaLen : Byte) (es : List GattEvent)
    (clock : BitVec 32) (p : RfPacketAttData) (l2capType : L2capHandleType)
    (used : (ℕ → Byte) → ℕ → Byte)
    (h : GoodRun GattRun.next GattRun.InTurn (.initial mem proxyParaLen)
      (es ++ [.packet clock p l2capType used])) :
    (es.foldl GattRun.next (.initial mem proxyParaLen)).Safe clock p l2capType := by
  obtain ⟨hpast, hlast, -⟩ := goodRun_append.mp h
  have hinv := hpast.inv (P := GattRun.Inv) (fun _ _ hopen => by cases hopen)
    fun _ _ hinv hturn => hinv.next hturn
  exact hinv.safe hlast

/-- A start and an end. -/
theorem gattSar_safe_two : ((GattRun.initial (fun _ => 0) 0).next
    (.packet 0 ⟨6, copy (fun _ => 0) 0 [0x43, 0, 5]⟩ .provison id)).Safe 0
      ⟨5, copy (fun _ => 0) 0 [0xC3, 7]⟩ .provison :=
  gattSar_safe (fun _ => 0) 0 [.packet 0 ⟨6, copy (fun _ => 0) 0 [0x43, 0, 5]⟩ .provison id] 0
    ⟨5, copy (fun _ => 0) 0 [0xC3, 7]⟩ .provison id
    ⟨fun _ => ⟨by decide, by decide, fun he => absurd he (by decide)⟩,
      fun _ => ⟨by decide, by decide, fun _ => ⟨[0, 5], rfl⟩⟩, trivial⟩

/-- An end with nothing before it is a PDU. -/
theorem gattSar_safe_refuted : ¬ ∀ (mem : ℕ → Byte) (proxyParaLen : Byte) (es : List GattEvent)
    (clock : BitVec 32) (p : RfPacketAttData) (l2capType : L2capHandleType),
    (es.foldl GattRun.next (.initial mem proxyParaLen)).Safe clock p l2capType := by
  intro h
  obtain ⟨pdu, ⟨hcomplete, -⟩ | ⟨-, octets, hopen, -⟩, -⟩ :=
    (h (fun _ => 0) 0 [] 0 ⟨6, copy (fun _ => 0) 0 [0xC3, 0, 5]⟩ .provison).complete (by decide)
  · exact absurd hcomplete (by decide)
  · cases hopen

end PirMesh
