import Mathlib.Data.List.ReduceOption
import PirMesh.Friend.Cache
import PirMesh.Phone.ProxyProtocol
import PirMesh.Prov.GattSar

/-! # Proxy — The GATT bearer in both directions

The phone cuts a PDU with `ProxyProtocolHandler` and the node puts it together with
`pkt_pb_gatt_data`; the node cuts with `notify_pkts` and the phone puts together.  Both cuts are of
one form, `Packets`, and so is what each side takes: whatever it had before, a first segment begins
anew.

The node's octets of a PDU have 0x50 octets of room, and up to there it gets every PDU of the phone
(`writes_deliver`).  The other way a packet may find no room in the stack: `notify_pkts` gives up,
and the PDU stays at the head of `blt_notify_fifo` to be cut once more.  The phone takes no part of
the first attempt for a PDU, so each PDU comes to it once, and in order (`notifies_inOrder`). -/

namespace PirMesh.GattBearer

open ProxyProtocol Reassembly

/-! ### The packets of a PDU -/

/-- One complete message, or a first segment, continuations and a last. -/
inductive Packets (messageType : SigPduType) : List (List Byte) → List Byte → Prop
  | complete (data : List Byte) :
      Packets messageType [packetOf .completeMessage messageType data] data
  | segments {first : List Byte} (h : first ≠ []) (pieces : List (List Byte)) (last : List Byte) :
      Packets messageType
        (packetOf .firstSegment messageType first ::
          (pieces.map (packetOf .continuation messageType) ++
            [packetOf .lastSegment messageType last]))
        (first ++ pieces.flatten ++ last)

section Phone

variable {messageType : SigPduType} {packets : List (List Byte)} {data b : List Byte}

variable (messageType) in
/-- Continuations go behind what is in the buffer. -/
theorem outputs_continuations (hb : b ≠ []) (pieces : List (List Byte)) :
    outputs ⟨some b, messageType⟩ (pieces.map (packetOf .continuation messageType)) =
        List.replicate pieces.length none ∧
      (pieces.map (packetOf .continuation messageType)).foldl feed ⟨some b, messageType⟩ =
        ⟨some (b ++ pieces.flatten), messageType⟩ := by
  induction pieces generalizing b with
  | nil => exact ⟨rfl, by rw [List.flatten_nil, List.append_nil]; rfl⟩
  | cons piece pieces ih =>
    obtain ⟨hout, hfeed⟩ := ih (List.append_ne_nil_of_left_ne_nil hb piece)
    rw [List.map_cons, outputs, List.foldl_cons, feed, reassembleData_continuation hb]
    exact ⟨congrArg _ hout, by rw [hfeed, List.append_assoc, List.flatten_cons]⟩

/-- **The phone gets the PDU** with its last packet, whatever was in the buffer. -/
theorem Packets.reassembled (h : Packets messageType packets data) (s : ProxyProtocolHandler) :
    ∃ n, outputs s packets = List.replicate n none ++ [some ⟨messageType, data⟩] := by
  cases h with
  | complete data =>
    refine ⟨0, ?_⟩
    rw [outputs, reassembleData_complete]
    rfl
  | @segments first hfirst pieces last =>
    obtain ⟨hout, hfeed⟩ := outputs_continuations messageType hfirst pieces
    refine ⟨pieces.length + 1, ?_⟩
    rw [outputs, feed, reassembleData_first, outputs_append, hout, hfeed, outputs,
      reassembleData_last (List.append_ne_nil_of_left_ne_nil hfirst _)]
    rfl

theorem Packets.ne_nil (h : Packets messageType packets data) : packets ≠ [] := by
  cases h <;> exact List.cons_ne_nil _ _

/-- A packet has an octet more than its piece. -/
theorem Packets.length_le (h : Packets messageType packets data) {packet : List Byte}
    (hpacket : packet ∈ packets) : packet.length ≤ data.length + 1 := by
  cases h with
  | complete data =>
    obtain rfl := List.mem_singleton.mp hpacket
    exact Nat.le_refl _
  | @segments first hfirst pieces last =>
    rw [List.length_append, List.length_append, List.length_flatten]
    rcases List.mem_cons.mp hpacket with rfl | hrest
    · rw [packetOf, List.length_cons]
      omega
    rcases List.mem_append.mp hrest with hmid | hlast
    · obtain ⟨piece, hpiece, rfl⟩ := List.mem_map.mp hmid
      have hle := List.le_sum_of_mem (List.mem_map_of_mem (f := List.length) hpiece)
      rw [packetOf, List.length_cons]
      omega
    · obtain rfl := List.mem_singleton.mp hlast
      rw [packetOf, List.length_cons]
      omega

/-- A part of the packets gives nothing. -/
theorem Packets.reassembled_part {sent rest : List (List Byte)}
    (h : Packets messageType (sent ++ rest) data) (hrest : rest ≠ []) (s : ProxyProtocolHandler) :
    ∀ m ∈ outputs s sent, m = none := by
  obtain ⟨n, hn⟩ := h.reassembled s
  rw [outputs_append] at hn
  have hne : outputs (sent.foldl feed s) rest ≠ [] := by
    cases rest with
    | nil => exact absurd rfl hrest
    | cons packet rest => exact List.cons_ne_nil _ _
  -- the only PDU is behind the last packet
  rw [← List.dropLast_append_getLast hne, ← List.append_assoc] at hn
  have hnone := (List.append_inj' hn rfl).1
  intro m hm
  have hmem : m ∈ List.replicate n none := hnone ▸ List.mem_append_left _ hm
  exact List.eq_of_mem_replicate hmem

/-- Pieces of one length, one behind another. -/
theorem flatten_pieces (data : List Byte) (m n : ℕ) :
    ((List.range n).map fun i => (data.drop ((i + 1) * m)).take m).flatten =
      (data.drop m).take (n * m) := by
  induction n with
  | zero => rw [Nat.zero_mul, List.take_zero]; rfl
  | succ n ih =>
    rw [List.range_succ, List.map_append, List.flatten_append, ih, List.map_singleton,
      List.flatten_singleton, Nat.succ_mul n m, List.take_add, List.drop_drop, Nat.add_comm m]

/-- **The phone's cut.** -/
theorem segmentWithData_packets {mtu : ℕ} (hmtu : 2 ≤ mtu) (h : CountsRight data.length mtu)
    (messageType : SigPduType) :
    ∃ packets, segmentWithData data messageType mtu = some packets ∧
      Packets messageType packets data := by
  unfold segmentWithData
  by_cases hone : data.length ≤ mtu - 1
  · exact ⟨_, if_pos hone, .complete data⟩
  obtain ⟨hint, htwo, hlen⟩ := (countsRight_iff hmtu hone).mp h
  rw [if_neg hone]
  dsimp only
  rw [if_neg (Nat.not_le.mpr hint)]
  obtain ⟨n, hn⟩ := Nat.exists_eq_add_of_le' htwo
  rw [hn] at hlen ⊢
  have hfirst : data.take (mtu - 1) ≠ [] := by
    refine List.ne_nil_of_length_pos ?_
    rw [List.length_take]
    omega
  have hdata : data.take (mtu - 1) ++
      ((List.range n).map fun i => (data.drop ((i + 1) * (mtu - 1))).take (mtu - 1)).flatten ++
        data.drop ((n + 1) * (mtu - 1)) = data := by
    rw [flatten_pieces, ← List.take_add, Nat.add_comm (mtu - 1), ← Nat.succ_mul,
      List.take_append_drop]
  refine ⟨_, mapM_eq_some.mpr ?_, hdata ▸ Packets.segments hfirst
    ((List.range n).map fun i => (data.drop ((i + 1) * (mtu - 1))).take (mtu - 1))
    (data.drop ((n + 1) * (mtu - 1)))⟩
  have hinner {i : ℕ} (hi : i < n + 1) :
      segment data messageType mtu (n + 2) i =
        some (packetOf (sarOf (n + 2) i) messageType
          ((data.drop (i * (mtu - 1))).take (mtu - 1))) :=
    segment_inner (by omega) (inner_le hlen hi)
  rw [List.range_succ_eq_map, List.range_succ, List.map_append, List.map_map]
  refine .cons ?_ (List.rel_append ?_ (.cons ?_ .nil))
  · rw [hinner (Nat.succ_pos n), Nat.zero_mul, List.drop_zero]
    rfl
  · rw [List.forall₂_map_left_iff, List.forall₂_map_right_iff, List.forall₂_same]
    intro i hi
    have hlt := List.mem_range.mp hi
    have hsar : sarOf (n + 2) (i + 1) = .continuation := by
      rw [sarOf, if_pos (Nat.succ_pos i), if_neg (by omega)]
    rw [hinner (Nat.succ_lt_succ hlt), hsar]
    rfl
  · have hsar : sarOf (n + 2) (n + 1) = .lastSegment := by
      rw [sarOf, if_pos (Nat.succ_pos n), if_pos (Nat.add_sub_cancel (n + 1) 1).symm]
    have hlast : segment data messageType mtu (n + 2) (n + 1) = _ :=
      segment_last (Nat.add_sub_cancel (n + 1) 1).symm hlen
    rw [hsar] at hlast
    exact hlast

end Phone

/-! ### What the node is written -/

/-- `kPBGATT_In_CharacteristicsID` and `kPROXY_In_CharacteristicsID`. -/
inductive Characteristic
  | provisioningIn
  | proxyIn
  deriving DecidableEq, Repr

/-- Where `sendBlePdu` sends the packets of a PDU. -/
def characteristicOf : SigPduType → Characteristic
  | .provisioningPdu => .provisioningIn
  | _ => .proxyIn

/-- The packets that are written for a PDU; `none` for the exception of `segmentWithData`. -/
def sendBlePdu (mtu : ℕ) (pdu : SigPudModel) : Option (List (Characteristic × List Byte)) :=
  if pdu.pduData = [] then some []
  else (segmentWithData pdu.pduData pdu.pduType mtu).map
    (·.map (characteristicOf pdu.pduType, ·))

/-- `pb_gatt_Write` and the branches of `proxy_gatt_Write`. -/
def gattWriteType (c : Characteristic) (p : RfPacketAttData) : Option L2capHandleType :=
  match c with
  | .provisioningIn => some .provison
  | .proxyIn =>
    if p.msgType = L2capHandleType.proxy.msgType then some .proxy
    else if p.msgType = L2capHandleType.beacon.msgType then some .beacon
    else if p.msgType = L2capHandleType.network.msgType then some .network
    else none

/-- The node is written a packet, and `used` is what becomes of the buffer when its PDU is
dispatched; or it looks at the timeout. -/
inductive NodeEvent
  | write (clock : BitVec 32) (c : Characteristic) (p : RfPacketAttData)
    (used : (ℕ → Byte) → ℕ → Byte)
  | timeout (clock : BitVec 32)

/-- The receiver after a packet, and the PDU that is dispatched. -/
def gattWrite (clock : BitVec 32) (p : RfPacketAttData) (used : (ℕ → Byte) → ℕ → Byte)
    (l2capType : L2capHandleType) (s : GattReceiver) :
    GattReceiver × Option (L2capHandleType × List Byte) :=
  let (s, complete) := pktPbGattData clock p l2capType l2capType.pRcv s
  if complete then
    ({ s with mem := used s.mem },
      some (l2capType, read s.mem l2capType.pRcv s.proxyParaLen.toNat))
  else (s, none)

def gattReceive (s : GattReceiver) :
    NodeEvent → GattReceiver × Option (L2capHandleType × List Byte)
  | .write clock c p used =>
    ((gattWriteType c p).map (gattWrite clock p used · s)).getD (s, none)
  | .timeout clock => ({ s with proxySar := s.proxySar.meshProxySarTimeoutTerminate clock }, none)

/-- The PDUs that are dispatched. -/
def dispatched (s : GattReceiver) : List NodeEvent → List (L2capHandleType × List Byte)
  | [] => []
  | e :: events => (gattReceive s e).2.toList ++ dispatched (gattReceive s e).1 events

/-- What the ATT layer hands over of a packet; the memory behind it is open. -/
structure Carries (p : RfPacketAttData) (packet : List Byte) : Prop where
  l2cap : p.l2cap.toNat = packet.length + 3
  dat : read p.dat 0 packet.length = packet

/-- The packets arrive in order, the timeout is looked at in between. -/
inductive Arrives : List (Characteristic × List Byte) → List NodeEvent → Prop
  | nil : Arrives [] []
  | packet {c : Characteristic} {packet : List Byte} {p : RfPacketAttData}
      {writes : List (Characteristic × List Byte)} {events : List NodeEvent} (clock : BitVec 32)
      (used : (ℕ → Byte) → ℕ → Byte) (h : Carries p packet) (hs : Arrives writes events) :
      Arrives ((c, packet) :: writes) (.write clock c p used :: events)
  | timeout {writes : List (Characteristic × List Byte)} {events : List NodeEvent}
      (clock : BitVec 32) (hs : Arrives writes events) : Arrives writes (.timeout clock :: events)

/-- The type that the node takes a PDU for. -/
def l2capTypeOf : SigPduType → L2capHandleType
  | .networkPdu => .network
  | .meshBeacon => .beacon
  | .proxyConfiguration => .proxy
  | .provisioningPdu => .provison

/-! ### What the node puts together -/

section Node

variable {messageType : SigPduType} {piece packet octets : List Byte} {p : RfPacketAttData}
  {s : GattReceiver} {clock : BitVec 32}

/-- A packet with its header, at the node. -/
theorem Carries.packetOf {sar : SAR} (h : Carries p (packetOf sar messageType piece)) :
    p.msgType = (l2capTypeOf messageType).msgType ∧ p.sar = sar.rawValue ∧
      p.l2cap.toNat - 4 = piece.length ∧ p.payload = piece := by
  have hlen : p.l2cap.toNat - 4 = piece.length := by
    rw [h.l2cap, ProxyProtocol.packetOf, List.length_cons, Nat.add_assoc, Nat.add_sub_cancel]
  have hdat := h.dat
  rw [ProxyProtocol.packetOf, List.length_cons, Nat.add_comm, read_add] at hdat
  obtain ⟨hhead, hrest⟩ : p.dat 0 = _ ∧ read p.dat 1 piece.length = piece := List.cons.inj hdat
  refine ⟨?_, ?_, hlen, ?_⟩
  · rw [RfPacketAttData.msgType, hhead]
    cases sar <;> cases messageType <;> rfl
  · rw [RfPacketAttData.sar, hhead]
    cases sar <;> cases messageType <;> rfl
  · rw [RfPacketAttData.payload, hlen]
    exact hrest

/-- The write that a packet goes to takes it for its type. -/
theorem gattWriteType_eq (h : p.msgType = (l2capTypeOf messageType).msgType) :
    gattWriteType (characteristicOf messageType) p = some (l2capTypeOf messageType) := by
  unfold gattWriteType
  cases messageType with
  | provisioningPdu => rfl
  | proxyConfiguration => exact if_pos h
  | meshBeacon =>
    rw [h]
    rfl
  | networkPdu =>
    rw [h]
    rfl

variable (clock) in
/-- A PDU is complete with a complete message or a last segment. -/
theorem complete_takes {l2capType : L2capHandleType} (pRcv : ℕ) (h : s.Takes l2capType p) :
    (pktPbGattData clock p l2capType pRcv s).2 = true ↔ p.sar = sarEnd ∨ p.sar = sarComplete := by
  refine ⟨fun hret => ((pktPbGattData_takes clock p l2capType pRcv s h).2.2 hret).1, fun hsar => ?_⟩
  unfold pktPbGattData
  rw [if_neg (not_not.mpr h.1), if_neg h.2]
  rcases hsar with hend | hcomplete
  · rw [hend]
    rfl
  · rw [hcomplete]
    rfl

/-- The octets of a PDU so far are at their place, and the next ones go behind them. -/
structure Holding (messageType : SigPduType) (octets : List Byte) (s : GattReceiver) : Prop where
  idxNum : s.idxNum.toNat = octets.length
  mem : read s.mem (l2capTypeOf messageType).pRcv octets.length = octets

/-- Where a piece goes: behind the octets, or to the front. -/
def Goes (sar : SAR) (messageType : SigPduType) (octets : List Byte) (s : GattReceiver) : Prop :=
  if sar = .continuation ∨ sar = .lastSegment then Holding messageType octets s else octets = []

variable (clock) in
/-- **The node takes a packet.** -/
theorem gattReceive_packet {sar : SAR} (used : (ℕ → Byte) → ℕ → Byte)
    (h : Carries p (packetOf sar messageType piece)) (hgoes : Goes sar messageType octets s)
    (hroom : (l2capTypeOf messageType).pRcv + octets.length + piece.length ≤
      provisionGattMaxLen.toNat) :
    if sar = .lastSegment ∨ sar = .completeMessage then
      (gattReceive s (.write clock (characteristicOf messageType) p used)).2 =
        some (l2capTypeOf messageType, octets ++ piece)
    else (gattReceive s (.write clock (characteristicOf messageType) p used)).2 = none ∧
      Holding messageType (octets ++ piece)
        (gattReceive s (.write clock (characteristicOf messageType) p used)).1 := by
  obtain ⟨htype, hsar, hlen, hpayload⟩ := h.packetOf
  have hmax : provisionGattMaxLen.toNat = 80 := rfl
  have hplace : (gattOffset p s).toNat = octets.length ∧
      read s.mem (l2capTypeOf messageType).pRcv octets.length = octets := by
    unfold Goes at hgoes
    unfold gattOffset
    rw [hsar]
    cases sar with
    | completeMessage | firstSegment =>
      obtain rfl : octets = [] := hgoes
      exact ⟨rfl, rfl⟩
    | continuation | lastSegment => exact ⟨hgoes.idxNum, hgoes.mem⟩
  have hbyte : p.lenPayload.toNat = piece.length := by
    have hfour : (4 : BitVec 16).toNat = 4 := rfl
    have hlt := p.l2cap.isLt
    have hl2cap := h.l2cap
    rw [RfPacketAttData.lenPayload, BitVec.toNat_setWidth, BitVec.toNat_sub, hfour]
    rw [ProxyProtocol.packetOf, List.length_cons] at hl2cap
    omega
  have htakes : s.Takes (l2capTypeOf messageType) p := by
    refine ⟨htype, fun hlong => ?_⟩
    rw [gt_iff_lt, BitVec.lt_def, BitVec.toNat_add, hplace.1, hbyte] at hlong
    omega
  have hturn : GattRun.InTurn ⟨s, some (l2capTypeOf messageType, octets)⟩
      (.packet clock p (l2capTypeOf messageType) used) := fun _ =>
    ⟨by rw [hplace.1, hbyte]; exact hroom, by omega, fun _ => ⟨octets, rfl⟩⟩
  obtain ⟨hnum, hread⟩ := GattRun.read_takes hturn htakes hplace.1 hplace.2
  obtain ⟨-, hidx, hpara⟩ := pktPbGattData_takes clock p (l2capTypeOf messageType)
    (l2capTypeOf messageType).pRcv s htakes
  have hcomplete := complete_takes clock (l2capTypeOf messageType).pRcv htakes
  rw [hpayload] at hnum hread
  rw [hsar] at hcomplete
  rw [gattReceive, gattWriteType_eq htype, Option.map_some, Option.getD_some]
  unfold gattWrite
  dsimp only
  by_cases hlast : sar = .lastSegment ∨ sar = .completeMessage
  · have hret := hcomplete.mpr (hlast.imp (congrArg SAR.rawValue) (congrArg SAR.rawValue))
    rw [if_pos hlast, if_pos hret, (hpara hret).2, hnum, hread]
  · have hret : ¬ (pktPbGattData clock p (l2capTypeOf messageType)
        (l2capTypeOf messageType).pRcv s).2 = true := by
      rw [hcomplete]
      cases sar with
      | completeMessage => exact absurd (.inr rfl) hlast
      | lastSegment => exact absurd (.inl rfl) hlast
      | firstSegment | continuation => decide
    rw [if_neg hlast, if_neg hret]
    exact ⟨rfl, hidx ▸ hnum, hread⟩

theorem Goes.timeout {sar : SAR} (h : Goes sar messageType octets s) (clock : BitVec 32) :
    Goes sar messageType octets (gattReceive s (.timeout clock)).1 := by
  unfold Goes at h ⊢
  by_cases hbehind : sar = .continuation ∨ sar = .lastSegment
  · rw [if_pos hbehind] at h ⊢
    exact ⟨h.idxNum, h.mem⟩
  · rw [if_neg hbehind] at h ⊢
    exact h

variable (octets) in
/-- The next packet, whatever timeouts come first. -/
theorem dispatched_packet (sar : SAR) {writes : List (Characteristic × List Byte)}
    {events : List NodeEvent}
    (h : Arrives ((characteristicOf messageType, packetOf sar messageType piece) :: writes) events)
    (hgoes : Goes sar messageType octets s)
    (hroom : (l2capTypeOf messageType).pRcv + octets.length + piece.length ≤
      provisionGattMaxLen.toNat) :
    ∃ s' events', Arrives writes events' ∧
      if sar = .lastSegment ∨ sar = .completeMessage then
        dispatched s events = (l2capTypeOf messageType, octets ++ piece) :: dispatched s' events'
      else Holding messageType (octets ++ piece) s' ∧
        dispatched s events = dispatched s' events' := by
  generalize hwrites : (characteristicOf messageType, packetOf sar messageType piece) :: writes =
    all at h
  induction h generalizing s with
  | nil => exact absurd hwrites (List.cons_ne_nil _ _)
  | @packet c packet p writes' events clock used hcarries hrest =>
    obtain ⟨hhead, rfl⟩ := List.cons.inj hwrites
    obtain ⟨rfl, rfl⟩ := Prod.mk.inj hhead
    have hpacket := gattReceive_packet clock used hcarries hgoes hroom
    refine ⟨(gattReceive s (.write clock (characteristicOf messageType) p used)).1, events, hrest,
      ?_⟩
    rw [dispatched]
    split at hpacket
    · rename_i hlast
      rw [if_pos hlast, hpacket]
      rfl
    · rename_i hlast
      rw [if_neg hlast, hpacket.1]
      exact ⟨hpacket.2, rfl⟩
  | timeout clock _ ih => exact ih (hgoes.timeout clock) hwrites

/-- Continuations, one after the other. -/
theorem dispatched_continuations (pieces : List (List Byte))
    {writes : List (Characteristic × List Byte)} {events : List NodeEvent}
    (h : Arrives ((pieces.map (packetOf .continuation messageType)).map
      (characteristicOf messageType, ·) ++ writes) events)
    (hs : Holding messageType octets s)
    (hroom : (l2capTypeOf messageType).pRcv + (octets ++ pieces.flatten).length ≤
      provisionGattMaxLen.toNat) :
    ∃ s' events', Arrives writes events' ∧ Holding messageType (octets ++ pieces.flatten) s' ∧
      dispatched s events = dispatched s' events' := by
  induction pieces generalizing s octets events with
  | nil =>
    rw [List.flatten_nil, List.append_nil]
    exact ⟨s, events, h, hs, rfl⟩
  | cons piece pieces ih =>
    rw [List.flatten_cons, ← List.append_assoc] at hroom ⊢
    have hpiece : (l2capTypeOf messageType).pRcv + octets.length + piece.length ≤
        provisionGattMaxLen.toNat := by
      rw [List.length_append, List.length_append] at hroom
      omega
    obtain ⟨s', events', hrest, hholds, hsame⟩ :=
      dispatched_packet octets .continuation h hs hpiece
    obtain ⟨s'', events'', hend, hall, heq⟩ := ih hrest hholds hroom
    exact ⟨s'', events'', hend, hall, hsame.trans heq⟩

/-- **The node gets the PDU.** -/
theorem Packets.dispatched {packets : List (List Byte)} {data : List Byte}
    {writes : List (Characteristic × List Byte)} {events : List NodeEvent}
    (h : Packets messageType packets data)
    (harrives : Arrives (packets.map (characteristicOf messageType, ·) ++ writes) events)
    (hroom : (l2capTypeOf messageType).pRcv + data.length ≤ provisionGattMaxLen.toNat) :
    ∃ s' events', Arrives writes events' ∧
      dispatched s events = (l2capTypeOf messageType, data) :: dispatched s' events' := by
  cases h with
  | complete data =>
    exact dispatched_packet [] .completeMessage harrives rfl hroom
  | @segments first hfirst pieces last =>
    rw [List.length_append, List.length_append] at hroom
    rw [List.map_cons, List.map_append, List.cons_append, List.append_assoc] at harrives
    obtain ⟨s₁, events₁, hrest₁, hholds₁, hsame₁⟩ :=
      dispatched_packet (s := s) [] .firstSegment harrives rfl (by
        rw [List.length_nil]
        omega)
    obtain ⟨s₂, events₂, hrest₂, hholds₂, hsame₂⟩ :=
      dispatched_continuations pieces hrest₁ hholds₁ (by
        rw [List.length_append, List.nil_append]
        omega)
    obtain ⟨s₃, events₃, hrest₃, hlast⟩ :=
      dispatched_packet _ .lastSegment hrest₂ hholds₂ (by
        rw [List.length_append, List.nil_append]
        omega)
    refine ⟨s₃, events₃, hrest₃, ?_⟩
    rw [hsame₁, hsame₂]
    exact hlast

end Node

/-- Without a packet nothing is dispatched. -/
theorem dispatched_nil {s : GattReceiver} {events : List NodeEvent} (h : Arrives [] events) :
    dispatched s events = [] := by
  generalize hwrites : ([] : List (Characteristic × List Byte)) = writes at h
  induction h generalizing s with
  | nil => rfl
  | packet _ _ _ _ _ => exact absurd hwrites (List.cons_ne_nil _ _).symm
  | timeout clock _ ih => exact ih hwrites

/-- **What the phone sends the node gets**: the PDUs, in order, as long as each has room in the
node's buffer. -/
theorem writes_deliver (sends : List (ℕ × SigPudModel))
    (h : ∀ send ∈ sends, 2 ≤ send.1 ∧ send.2.pduData ≠ [] ∧
      (l2capTypeOf send.2.pduType).pRcv + send.2.pduData.length ≤ provisionGattMaxLen.toNat) :
    ∃ writes, sends.mapM (fun send => sendBlePdu send.1 send.2) = some writes ∧
      ∀ s events, Arrives writes.flatten events →
        dispatched s events =
          sends.map fun send => (l2capTypeOf send.2.pduType, send.2.pduData) := by
  induction sends with
  | nil => exact ⟨[], rfl, fun s events harrives => dispatched_nil harrives⟩
  | cons send sends ih =>
    obtain ⟨hmtu, hne, hroom⟩ := h send List.mem_cons_self
    obtain ⟨writes, hwrites, hall⟩ := ih fun other hother => h other (List.mem_cons_of_mem _ hother)
    have hmax : provisionGattMaxLen.toNat = 80 := rfl
    obtain ⟨packets, hpackets, hcut⟩ := segmentWithData_packets hmtu
      (countsRight_of_le hmtu (by omega : send.2.pduData.length ≤ 2 ^ 24)) send.2.pduType
    have hsend : sendBlePdu send.1 send.2 =
        some (packets.map (characteristicOf send.2.pduType, ·)) := by
      rw [sendBlePdu, if_neg hne, hpackets]
      rfl
    refine ⟨packets.map (characteristicOf send.2.pduType, ·) :: writes,
      mapM_eq_some.mpr (.cons hsend (mapM_eq_some.mp hwrites)), fun s events harrives => ?_⟩
    rw [List.flatten_cons] at harrives
    obtain ⟨s', events', hrest, heq⟩ := hcut.dispatched harrives hroom
    rw [heq, hall s' events' hrest, List.map_cons]

theorem writes_deliver_sample : ∃ writes,
    [(20, (⟨.provisioningPdu, List.replicate 65 3⟩ : SigPudModel)),
      (182, ⟨.networkPdu, List.replicate 29 7⟩)].mapM (fun send => sendBlePdu send.1 send.2) =
        some writes ∧
      ∀ s events, Arrives writes.flatten events → dispatched s events =
        [(.provison, List.replicate 65 3), (.network, List.replicate 29 7)] :=
  writes_deliver _ (by decide)

/-! ### What the node notifies -/

/-- `PROVISION_ATT_HANDLE` and `GATT_PROXY_HANDLE` -/
inductive NotifyHandle
  | provisionAtt
  | gattProxy
  deriving DecidableEq, Repr

/-- The stack as `notify_pkts` finds it: the MTU, how many packets it has of how many, what the
phone wrote to the descriptors, and which of the next packets it takes. -/
structure NotifyEnv where
  effectiveMTU : BitVec 16
  txFifoNumber : Byte
  txfifoNum : Byte
  provisionOutCcc : Byte × Byte
  proxyOutCcc : Byte × Byte
  pushes : ℕ → Bool

/-- `valid_len` -/
def NotifyEnv.validLen (env : NotifyEnv) : Byte := (env.effectiveMTU - 4).setWidth 8

def NotifyEnv.outCcc (env : NotifyEnv) : NotifyHandle → Byte × Byte
  | .provisionAtt => env.provisionOutCcc
  | .gattProxy => env.proxyOutCcc

/-- `pb_gatt_proxy_str` -/
def notifyPacket (sar proxyType : Byte) (data : List Byte) : List Byte :=
  (sar <<< 6 ||| proxyType &&& 0x3f) :: data

section

variable (env : NotifyEnv) (p : ℕ → Byte) (proxyType totalLen : Byte)

/-- A turn of the loop: the packet, and `len` and `buf_idx` behind it; `none` for a copy of a length
below zero. -/
def notifyTurn (len : BitVec 16) (pktNo bufIdx : Byte) : Option (List Byte × BitVec 16 × Byte) :=
  if pktNo = 0 then
    some (notifyPacket sarStart proxyType (read p 0 env.validLen.toNat),
      len - env.validLen.setWidth 16, bufIdx + env.validLen)
  else if totalLen.toNat ≤ bufIdx.toNat + env.validLen.toNat then
    if totalLen < bufIdx then none
    else
      some (notifyPacket sarEnd proxyType
        (read p bufIdx.toNat (totalLen.toNat - bufIdx.toNat)), 0, bufIdx)
  else
    some (notifyPacket sarContinus proxyType (read p bufIdx.toNat env.validLen.toNat),
      len - env.validLen.setWidth 16, bufIdx + env.validLen)

/-- The packets that the stack takes, and whether it takes all; `none` too when the turns run
out. -/
def notifyLoop : ℕ → BitVec 16 → Byte → Byte → ℕ → Option (List (List Byte) × Bool)
  | 0, _, _, _, _ => none
  | n + 1, len, pktNo, bufIdx, turn =>
    if len = 0 then some ([], true)
    else
      (notifyTurn env p proxyType totalLen len pktNo bufIdx).bind fun (packet, len, bufIdx) =>
        if env.pushes turn then
          (notifyLoop n len 1 bufIdx (turn + 1)).map fun (packets, ok) => (packet :: packets, ok)
        else some ([], false)

end

/-- The packets that the stack takes, and whether that is success; `none` where the code has no
result. -/
def notifyPkts (env : NotifyEnv) (p : ℕ → Byte) (len : BitVec 16) (handle : NotifyHandle)
    (proxyType : Byte) : Option (List (List Byte) × Bool) :=
  -- the quotient of `pkt_len`
  if len ≠ 0 ∧ env.validLen = 0 then none
  else
    let pktLen : Byte := if len = 0 then 0 else .ofNat 8 (1 + (len.toNat - 1) / env.validLen.toNat)
    if (env.txFifoNumber.toNat + pktLen.toNat : ℤ) ≥ env.txfifoNum.toNat - 2 - 3 then
      some ([], false)
    else if env.outCcc handle = (0, 0) then some ([], false)
    else if len = 0 then some ([], false)
    else if len.toNat > env.validLen.toNat then
      notifyLoop env p proxyType (len.setWidth 8) (len.toNat + 1) len 0 0 0
    else if env.pushes 0 then some ([notifyPacket sarComplete proxyType (read p 0 len.toNat)], true)
    else some ([], false)

/-! ### What the stack takes of it -/

section Notify

variable {env : NotifyEnv} {p : ℕ → Byte} {totalLen : Byte}

theorem notifyPacket_eq (sar : SAR) (messageType : SigPduType) (data : List Byte) :
    notifyPacket sar.rawValue messageType.rawValue data = packetOf sar messageType data := by
  cases sar <;> cases messageType <;> rfl

/-- The stack takes packets until it has no room. -/
structure Pushes (env : NotifyEnv) (packets sent : List (List Byte)) (ok : Bool) : Prop where
  part : ∃ rest, sent ++ rest = packets ∧ (ok = true ↔ rest = [])
  room : (∀ i, env.pushes i = true) → ok = true

theorem Pushes.cons {packets sent : List (List Byte)} {ok : Bool} (h : Pushes env packets sent ok)
    (packet : List Byte) : Pushes env (packet :: packets) (packet :: sent) ok := by
  obtain ⟨rest, hrest, hok⟩ := h.part
  exact ⟨⟨rest, congrArg _ hrest, hok⟩, h.room⟩

theorem Pushes.of_refused {packets : List (List Byte)} (hne : packets ≠ []) {i : ℕ}
    (h : ¬ env.pushes i = true) : Pushes env packets [] false :=
  ⟨⟨packets, rfl, iff_of_false Bool.false_ne_true hne⟩, fun hall => absurd (hall i) h⟩

theorem Pushes.all (env : NotifyEnv) : Pushes env [] [] true :=
  ⟨⟨[], rfl, iff_of_true rfl rfl⟩, fun _ => rfl⟩

variable (p totalLen) in
/-- The turns behind the first. -/
theorem notifyLoop_behind (messageType : SigPduType) (hvalid : 0 < env.validLen.toNat) (n : ℕ)
    (len : BitVec 16) (bufIdx : Byte) (turn : ℕ) (hn : len.toNat < n) (hpos : 0 < len.toNat)
    (hlen : bufIdx.toNat + len.toNat = totalLen.toNat) :
    ∃ (pieces : List (List Byte)) (last : List Byte) (sent : List (List Byte)) (ok : Bool),
      notifyLoop env p messageType.rawValue totalLen n len 1 bufIdx turn = some (sent, ok) ∧
      Pushes env (pieces.map (packetOf .continuation messageType) ++
        [packetOf .lastSegment messageType last]) sent ok ∧
      pieces.flatten ++ last = read p bufIdx.toNat len.toNat := by
  induction n generalizing len bufIdx turn with
  | zero => exact absurd hn (Nat.not_lt_zero _)
  | succ n ih =>
    have hne : len ≠ 0 := fun h0 => Nat.lt_irrefl 0 (by rwa [h0] at hpos)
    rw [notifyLoop, if_neg hne, notifyTurn, if_neg (by decide)]
    by_cases hlast : totalLen.toNat ≤ bufIdx.toNat + env.validLen.toNat
    · have hle : ¬ totalLen < bufIdx := by
        rw [BitVec.lt_def]
        omega
      have hrest : totalLen.toNat - bufIdx.toNat = len.toNat := by omega
      obtain ⟨n, rfl⟩ := Nat.exists_eq_succ_of_ne_zero (by omega : n ≠ 0)
      have hpacket := notifyPacket_eq .lastSegment messageType (read p bufIdx.toNat len.toNat)
      rw [if_pos hlast, if_neg hle, hrest, Option.bind_some]
      dsimp only
      rw [show sarEnd = SAR.lastSegment.rawValue from rfl, hpacket]
      refine ⟨[], read p bufIdx.toNat len.toNat, ?_⟩
      by_cases hpush : env.pushes turn = true
      · rw [if_pos hpush, notifyLoop, if_pos rfl]
        exact ⟨_, true, rfl, (Pushes.all env).cons _, rfl⟩
      · rw [if_neg hpush]
        exact ⟨[], false, rfl, .of_refused (List.cons_ne_nil _ _) hpush, rfl⟩
    · have hsize := totalLen.isLt
      have hnext : (bufIdx + env.validLen).toNat = bufIdx.toNat + env.validLen.toNat := by
        rw [BitVec.toNat_add]
        omega
      have hless : (len - env.validLen.setWidth 16).toNat = len.toNat - env.validLen.toNat := by
        have hwide : (env.validLen.setWidth 16).toNat = env.validLen.toNat := by
          rw [BitVec.toNat_setWidth]
          omega
        rw [BitVec.toNat_sub_of_le (BitVec.le_def.mpr (by omega)), hwide]
      obtain ⟨pieces, last, sent, ok, hloop, hpushes, hflat⟩ := ih
        (len - env.validLen.setWidth 16) (bufIdx + env.validLen) (turn + 1)
        (by omega) (by omega) (by omega)
      have hpacket := notifyPacket_eq .continuation messageType
        (read p bufIdx.toNat env.validLen.toNat)
      rw [if_neg hlast, Option.bind_some]
      dsimp only
      rw [show sarContinus = SAR.continuation.rawValue from rfl, hpacket]
      have hdata : (read p bufIdx.toNat env.validLen.toNat :: pieces).flatten ++ last =
          read p bufIdx.toNat len.toNat := by
        have hsplit := read_add p bufIdx.toNat env.validLen.toNat (len.toNat - env.validLen.toNat)
        rw [Nat.add_sub_cancel' (by omega)] at hsplit
        rw [List.flatten_cons, List.append_assoc, hflat, hnext, hless, hsplit]
      refine ⟨read p bufIdx.toNat env.validLen.toNat :: pieces, last, ?_⟩
      by_cases hpush : env.pushes turn = true
      · rw [if_pos hpush, hloop]
        exact ⟨_, ok, rfl, hpushes.cons _, hdata⟩
      · rw [if_neg hpush]
        exact ⟨[], false, rfl, .of_refused (List.cons_ne_nil _ _) hpush, hdata⟩

/-- The phone wants notifications, and the stack has room for the packets. -/
structure NotifyEnv.Ready (env : NotifyEnv) (handle : NotifyHandle) (len : ℕ) : Prop where
  room : env.txFifoNumber.toNat + (1 + (len - 1) / env.validLen.toNat) + 5 < env.txfifoNum.toNat
  ccc : env.outCcc handle ≠ (0, 0)
  pushes : ∀ i, env.pushes i = true

theorem NotifyEnv.Ready.mono {handle : NotifyHandle} {len len' : ℕ} (h : env.Ready handle len')
    (hle : len ≤ len') : env.Ready handle len where
  room := by
    have hroom := h.room
    have hdiv := Nat.div_le_div_right (c := env.validLen.toNat) (Nat.sub_le_sub_right hle 1)
    omega
  ccc := h.ccc
  pushes := h.pushes

/-- The loop from its first turn. -/
theorem notifyLoop_first (messageType : SigPduType) (hvalid : 0 < env.validLen.toNat)
    {len : BitVec 16} (hlong : env.validLen.toNat < len.toNat) (hlen : len.toNat < 256) :
    ∃ packets sent ok,
      notifyLoop env p messageType.rawValue (len.setWidth 8) (len.toNat + 1) len 0 0 0 =
        some (sent, ok) ∧
      Packets messageType packets (read p 0 len.toNat) ∧ Pushes env packets sent ok := by
  have hne : len ≠ 0 := fun h0 => Nat.not_lt_zero _ (by rwa [h0] at hlong)
  have hwide : (env.validLen.setWidth 16).toNat = env.validLen.toNat := by
    rw [BitVec.toNat_setWidth]
    omega
  have hless : (len - env.validLen.setWidth 16).toNat = len.toNat - env.validLen.toNat := by
    rw [BitVec.toNat_sub_of_le (BitVec.le_def.mpr (by omega)), hwide]
  have hidx : (0 + env.validLen).toNat = env.validLen.toNat :=
    congrArg BitVec.toNat (BitVec.zero_add _)
  have htotal : (len.setWidth 8).toNat = len.toNat := by
    rw [BitVec.toNat_setWidth]
    omega
  obtain ⟨pieces, last, sent, ok, hloop, hpushes, hflat⟩ := notifyLoop_behind p
    (len.setWidth 8) messageType hvalid len.toNat (len - env.validLen.setWidth 16)
    (0 + env.validLen) 1 (by omega) (by omega) (by omega)
  have hpacket := notifyPacket_eq .firstSegment messageType (read p 0 env.validLen.toNat)
  have hfirst : read p 0 env.validLen.toNat ≠ [] :=
    List.ne_nil_of_length_pos (by rwa [length_read])
  have hdata : read p 0 env.validLen.toNat ++ pieces.flatten ++ last = read p 0 len.toNat := by
    have hsplit := read_add p 0 env.validLen.toNat (len.toNat - env.validLen.toNat)
    rw [Nat.add_sub_cancel' hlong.le] at hsplit
    rw [List.append_assoc, hflat, hidx, hless, hsplit, Nat.zero_add]
  rw [notifyLoop, if_neg hne, notifyTurn, if_pos rfl, Option.bind_some]
  dsimp only
  rw [show sarStart = SAR.firstSegment.rawValue from rfl, hpacket]
  refine ⟨packetOf .firstSegment messageType (read p 0 env.validLen.toNat) ::
    (pieces.map (packetOf .continuation messageType) ++
      [packetOf .lastSegment messageType last]), ?_⟩
  by_cases hpush : env.pushes 0 = true
  · rw [if_pos hpush, hloop]
    exact ⟨_, ok, rfl, hdata ▸ .segments hfirst pieces last, hpushes.cons _⟩
  · rw [if_neg hpush]
    exact ⟨[], false, rfl, hdata ▸ .segments hfirst pieces last,
      .of_refused (List.cons_ne_nil _ _) hpush⟩

/-- **The node's cut**: the stack takes packets of the PDU, and all when it is ready. -/
theorem notifyPkts_packets (messageType : SigPduType) (handle : NotifyHandle)
    (hvalid : env.validLen ≠ 0) (len : BitVec 16) (hpos : 0 < len.toNat) (hlen : len.toNat < 256) :
    ∃ packets sent rest ok, notifyPkts env p len handle messageType.rawValue = some (sent, ok) ∧
      Packets messageType packets (read p 0 len.toNat) ∧ sent ++ rest = packets ∧
      (ok = true ↔ rest = []) ∧ (env.Ready handle len.toNat → ok = true) := by
  have hv : 0 < env.validLen.toNat := Nat.pos_of_ne_zero fun h0 => hvalid (BitVec.eq_of_toNat_eq h0)
  have hne : len ≠ 0 := fun h0 => Nat.lt_irrefl 0 (by rwa [h0] at hpos)
  -- the packets, whatever the stack takes of them
  have hmain : ∃ packets sent ok,
      (if len.toNat > env.validLen.toNat then
        notifyLoop env p messageType.rawValue (len.setWidth 8) (len.toNat + 1) len 0 0 0
      else if env.pushes 0 then
        some ([notifyPacket sarComplete messageType.rawValue (read p 0 len.toNat)], true)
      else some ([], false)) = some (sent, ok) ∧
      Packets messageType packets (read p 0 len.toNat) ∧ Pushes env packets sent ok := by
    by_cases hlong : len.toNat > env.validLen.toNat
    · rw [if_pos hlong]
      exact notifyLoop_first messageType hv hlong hlen
    · rw [if_neg hlong]
      have hpacket := notifyPacket_eq .completeMessage messageType (read p 0 len.toNat)
      refine ⟨[packetOf .completeMessage messageType (read p 0 len.toNat)], ?_⟩
      by_cases hpush : env.pushes 0 = true
      · rw [if_pos hpush, show sarComplete = SAR.completeMessage.rawValue from rfl, hpacket]
        exact ⟨_, true, rfl, .complete _, (Pushes.all env).cons _⟩
      · rw [if_neg hpush]
        exact ⟨[], false, rfl, .complete _, .of_refused (List.cons_ne_nil _ _) hpush⟩
  obtain ⟨packets, sent, ok, hsends, hpackets, hpushes⟩ := hmain
  have hnone : (false : Bool) = true ↔ packets = [] :=
    iff_of_false Bool.false_ne_true hpackets.ne_nil
  unfold notifyPkts
  rw [if_neg fun h0 => hvalid h0.2]
  dsimp only
  by_cases hroom : (env.txFifoNumber.toNat + (if len = 0 then (0 : Byte) else
      .ofNat 8 (1 + (len.toNat - 1) / env.validLen.toNat)).toNat : ℤ) ≥ env.txfifoNum.toNat - 2 - 3
  · rw [if_pos hroom]
    refine ⟨packets, [], packets, false, rfl, hpackets, rfl, hnone, fun hready => ?_⟩
    have hpktLen := Nat.mod_le (1 + (len.toNat - 1) / env.validLen.toNat) (2 ^ 8)
    have hfree := hready.room
    rw [if_neg hne, BitVec.toNat_ofNat] at hroom
    generalize 1 + (len.toNat - 1) / env.validLen.toNat = pktLen at hpktLen hfree hroom
    omega
  rw [if_neg hroom]
  by_cases hccc : env.outCcc handle = (0, 0)
  · rw [if_pos hccc]
    exact ⟨packets, [], packets, false, rfl, hpackets, rfl, hnone,
      fun hready => absurd hccc hready.ccc⟩
  rw [if_neg hccc, if_neg hne]
  obtain ⟨rest, hrest, hok⟩ := hpushes.part
  exact ⟨packets, sent, rest, ok, hsends, hpackets, hrest, hok,
    fun hready => hpushes.room hready.pushes⟩

end Notify

/-! ### `blt_notify_fifo` -/

section

variable {α : Type} (k : ℕ)

/-- The fifo behind the call, and whether the entry is in it. -/
def myFifoPush (size : ℕ) (f : MyFifo α) (n headLen : ℕ) (x : α) : MyFifo α × Bool :=
  if f.wptr - f.rptr ≥ myFifoNum k then (f, false)
  else if n + (2 + headLen) > size then (f, false)
  else
    ({ f with
        wptr := f.wptr + 1
        cell := Function.update f.cell (f.wptr &&& (myFifoNum k - 1)).toNat x }, true)

/-- `MESH_ADV_TYPE_MESSAGE`, `MESH_ADV_TYPE_PRO`, `MESH_ADV_TYPE_BEACON` and
`MESH_ADV_TYPE_PROXY_CFG_FLAG`; others are taken for the first. -/
def proxyTypeOf (advType : Byte) : SigPduType :=
  if advType = 0x2A then .networkPdu
  else if advType = 0x29 then .provisioningPdu
  else if advType = 0x2B then .meshBeacon
  else if advType = 0xE1 then .proxyConfiguration
  else .networkPdu

/-- A PDU behind its header: the handle, which is always that of the proxy, and the type. -/
def meshNwPduReportToGatt (f : MyFifo SigPudModel) (pdu : List Byte) (advType : Byte) :
    MyFifo SigPudModel × Bool :=
  myFifoPush k 36 f pdu.length 2 ⟨proxyTypeOf advType, pdu⟩

/-- A turn of the main loop in a connection: the packets that the stack takes. -/
def meshNotifyfifoRxfifo (env : NotifyEnv) (f : MyFifo SigPudModel) :
    Option (MyFifo SigPudModel × List (List Byte)) :=
  match myFifoGet k f with
  | none => some (f, [])
  | some i =>
    let pdu := f.cell i
    (notifyPkts env (fun j => pdu.pduData.getD j 0) (.ofNat 16 pdu.pduData.length) .gattProxy
      pdu.pduType.rawValue).map fun (sent, ok) => (if ok then myFifoPop f else f, sent)

end

/-- The fifo and the phone, with the PDUs that were put into the one and those that came to the
other. -/
structure Notifying where
  fifo : MyFifo SigPudModel
  phone : ProxyProtocolHandler
  reported : List SigPudModel
  got : List SigPudModel

/-- A PDU is reported; a turn of the main loop; and one without a connection, which empties the
fifo. -/
inductive NotifyEvent
  | report (pdu : List Byte) (advType : Byte)
  | rxfifo (env : NotifyEnv)
  | disconnected

namespace Notifying

def next (k : ℕ) (s : Notifying) : NotifyEvent → Option Notifying
  | .report pdu advType =>
    let (fifo, ok) := meshNwPduReportToGatt k s.fifo pdu advType
    some { s with
      fifo := fifo
      reported := if ok then s.reported ++ [⟨proxyTypeOf advType, pdu⟩] else s.reported }
  | .rxfifo env =>
    (meshNotifyfifoRxfifo k env s.fifo).map fun (fifo, sent) =>
      { s with
        fifo := fifo
        phone := sent.foldl feed s.phone
        got := s.got ++ (outputs s.phone sent).reduceOption }
  | .disconnected => some { s with fifo := { s.fifo with rptr := s.fifo.wptr } }

def run (k : ℕ) : Notifying → List NotifyEvent → Option Notifying
  | s, [] => some s
  | s, e :: es => (s.next k e).bind fun s => run k s es

/-! ### Each PDU once, and in order -/

theorem myFifoPush_eq {α : Type} {k : ℕ} (hk : k < 8) (size : ℕ) (f : MyFifo α) (n headLen : ℕ)
    (x : α) : myFifoPush k size f n headLen x =
      if f.count < 2 ^ k ∧ n + (2 + headLen) ≤ size then (f.push k x, true) else (f, false) := by
  have hnum : (myFifoNum k).toNat = 2 ^ k := by interval_cases k <;> rfl
  have hfull : f.wptr - f.rptr ≥ myFifoNum k ↔ ¬ f.count < 2 ^ k := by
    rw [ge_iff_le, BitVec.le_def, hnum, Nat.not_lt]
    rfl
  unfold myFifoPush
  by_cases hroom : f.count < 2 ^ k
  · rw [if_neg (mt hfull.mp (not_not.mpr hroom))]
    by_cases hfits : n + (2 + headLen) ≤ size
    · rw [if_neg (Nat.not_lt.mpr hfits), if_pos ⟨hroom, hfits⟩, toNat_and_num hk]
      rfl
    · rw [if_pos (Nat.not_le.mp hfits), if_neg fun h => hfits h.2]
  · rw [if_pos (hfull.mpr hroom), if_neg fun h => hroom h.1]

/-- Nothing is notified of an empty PDU. -/
theorem notifyPkts_zero (env : NotifyEnv) (p : ℕ → Byte) (handle : NotifyHandle)
    (proxyType : Byte) : notifyPkts env p (.ofNat 16 0) handle proxyType = some ([], false) := by
  unfold notifyPkts
  rw [if_neg fun h => h.1 rfl]
  simp

theorem read_getD (data : List Byte) : read (fun j => data.getD j 0) 0 data.length = data := by
  refine List.ext_getElem (length_read ..) fun i _ hi => ?_
  rw [getElem_read, Nat.zero_add, List.getD_eq_getElem _ _ hi]

/-- The fifo holds no more than it has room for, and no longer PDUs. -/
structure Inv (k : ℕ) (s : Notifying) : Prop where
  count : s.fifo.count ≤ 2 ^ k
  fits : ∀ m ∈ s.fifo.contents k, m.pduData.length ≤ 32

variable {k : ℕ} {s : Notifying}

theorem next_report (hk : k < 8) (h : Inv k s) (pdu : List Byte) (advType : Byte) :
    ∃ t added, s.next k (.report pdu advType) = some t ∧ Inv k t ∧
      t.reported = s.reported ++ added ∧
      t.got ++ t.fifo.contents k = s.got ++ s.fifo.contents k ++ added := by
  rw [next, meshNwPduReportToGatt, myFifoPush_eq hk]
  by_cases hfits : s.fifo.count < 2 ^ k ∧ pdu.length + (2 + 2) ≤ 36
  · rw [if_pos hfits]
    have hcontents := Ring.Buf.contents_push hk (⟨proxyTypeOf advType, pdu⟩ : SigPudModel) hfits.1
    refine ⟨_, [⟨proxyTypeOf advType, pdu⟩], rfl, ⟨?_, fun m hm => ?_⟩, rfl, ?_⟩
    · dsimp only
      rw [Ring.Buf.count_push hk _ hfits.1]
      exact hfits.1
    · dsimp only at hm
      rw [hcontents] at hm
      rcases List.mem_append.mp hm with hold | hnew
      · exact h.fits m hold
      · obtain rfl := List.mem_singleton.mp hnew
        exact Nat.le_of_add_le_add_right hfits.2
    · dsimp only
      rw [hcontents, List.append_assoc]
  · rw [if_neg hfits]
    exact ⟨_, [], rfl, h, (List.append_nil _).symm, (List.append_nil _).symm⟩

/-- A turn of the main loop: the head has come to the phone and is gone, or neither. -/
theorem next_rxfifo (hk : k < 8) (h : Inv k s) {env : NotifyEnv} (hvalid : env.validLen ≠ 0) :
    ∃ t, s.next k (.rxfifo env) = some t ∧ t.reported = s.reported ∧
      (t.fifo = s.fifo ∧ t.got = s.got ∧
          (∀ m rest, s.fifo.contents k = m :: rest → m.pduData ≠ [] →
            ¬ env.Ready .gattProxy m.pduData.length) ∨
        ∃ m rest, s.fifo.contents k = m :: rest ∧ t.fifo = s.fifo.pop ∧ t.got = s.got ++ [m]) := by
  rw [next, meshNotifyfifoRxfifo, myFifoGet_eq hk]
  by_cases hcount : s.fifo.count = 0
  · rw [if_pos hcount]
    refine ⟨_, rfl, rfl, .inl ⟨rfl, List.append_nil _, fun m rest hhead => ?_⟩⟩
    have hlen := Ring.Buf.length_contents (k := k) (r := s.fifo)
    rw [hhead, hcount] at hlen
    exact absurd hlen (Nat.succ_ne_zero _)
  rw [if_neg hcount]
  obtain ⟨rest, hhead⟩ := List.head?_eq_some_iff.mp (Ring.Buf.head_contents (k := k) hcount)
  dsimp only
  generalize s.fifo.cell (Ring.slot k s.fifo.rptr) = m at hhead ⊢
  have hfits := h.fits m (hhead ▸ List.mem_cons_self)
  have hlen : (BitVec.ofNat 16 m.pduData.length).toNat = m.pduData.length := by
    rw [BitVec.toNat_ofNat]
    omega
  by_cases hnil : m.pduData = []
  · rw [hnil, List.length_nil, notifyPkts_zero]
    refine ⟨_, rfl, rfl, .inl ⟨rfl, List.append_nil _, fun m' rest' hhead' hne => ?_⟩⟩
    obtain ⟨rfl, -⟩ := List.cons.inj (hhead.symm.trans hhead')
    exact absurd hnil hne
  have hpos := List.length_pos_iff.mpr hnil
  obtain ⟨packets, sent, unsent, ok, hsends, hpackets, hparts, hok, hready⟩ :=
    notifyPkts_packets (p := fun j => m.pduData.getD j 0) m.pduType .gattProxy hvalid
      (.ofNat 16 m.pduData.length) (by omega) (by omega)
  rw [hlen, read_getD] at hpackets
  rw [hlen] at hready
  rw [hsends]
  cases ok with
  | true =>
    obtain rfl := hok.mp rfl
    rw [List.append_nil] at hparts
    subst hparts
    obtain ⟨n, hn⟩ := hpackets.reassembled s.phone
    refine ⟨_, rfl, rfl, .inr ⟨m, rest, hhead, rfl, ?_⟩⟩
    dsimp only
    rw [hn, List.reduceOption_append, List.reduceOption_replicate_none]
    rfl
  | false =>
    have hne : unsent ≠ [] := fun h0 => Bool.false_ne_true (hok.mpr h0)
    have hnone := List.eq_replicate_iff.mpr
      ⟨rfl, (hparts ▸ hpackets).reassembled_part hne s.phone⟩
    refine ⟨_, rfl, rfl, .inl ⟨rfl, ?_, fun m' rest' hhead' _ hall => ?_⟩⟩
    · dsimp only
      rw [hnone, List.reduceOption_replicate_none, List.append_nil]
    · obtain ⟨rfl, -⟩ := List.cons.inj (hhead.symm.trans hhead')
      exact Bool.false_ne_true (hready hall)

theorem Inv.pop (h : Inv k s) {m : SigPudModel} {rest : List SigPudModel}
    (hhead : s.fifo.contents k = m :: rest) :
    s.fifo.pop.contents k = rest ∧ Inv k { s with fifo := s.fifo.pop } := by
  have hlen := Ring.Buf.length_contents (k := k) (r := s.fifo)
  rw [hhead, List.length_cons] at hlen
  have hcount : s.fifo.count ≠ 0 := hlen ▸ Nat.succ_ne_zero _
  have hrest : s.fifo.pop.contents k = rest := by rw [Ring.Buf.contents_pop hcount, hhead]; rfl
  refine ⟨hrest, ⟨?_, fun m' hm' => h.fits m' ?_⟩⟩
  · dsimp only
    rw [Ring.Buf.count_pop hcount]
    exact (Nat.sub_le ..).trans h.count
  · rw [hhead]
    exact List.mem_cons_of_mem _ (hrest ▸ hm')

/-- **One event** takes nothing from the PDUs that came and that are to come, and changes no order;
only a turn without a connection drops those to come. -/
theorem next_spec (hk : k < 8) (h : Inv k s) (e : NotifyEvent)
    (hvalid : ∀ env, e = .rxfifo env → env.validLen ≠ 0) :
    ∃ t added, s.next k e = some t ∧ Inv k t ∧ t.reported = s.reported ++ added ∧
      (t.got ++ t.fifo.contents k = s.got ++ s.fifo.contents k ++ added ∨
        e = .disconnected ∧ added = [] ∧ t.got ++ t.fifo.contents k = s.got) := by
  cases e with
  | report pdu advType =>
    obtain ⟨t, added, hnext, hinv, hreported, hsame⟩ := next_report hk h pdu advType
    exact ⟨t, added, hnext, hinv, hreported, .inl hsame⟩
  | rxfifo env =>
    obtain ⟨t, hnext, hreported, ⟨hfifo, hgot, -⟩ | ⟨m, rest, hhead, hfifo, hgot⟩⟩ :=
      next_rxfifo hk h (hvalid env rfl)
    · refine ⟨t, [], hnext, ⟨hfifo ▸ h.count, hfifo ▸ h.fits⟩, ?_, .inl ?_⟩
      · rw [hreported, List.append_nil]
      · rw [hfifo, hgot, List.append_nil]
    · obtain ⟨hrest, hinv⟩ := h.pop hhead
      refine ⟨t, [], hnext, ⟨hfifo ▸ hinv.count, hfifo ▸ hinv.fits⟩, ?_, .inl ?_⟩
      · rw [hreported, List.append_nil]
      · rw [hfifo, hgot, hrest, hhead, List.append_nil, List.append_assoc]
        rfl
  | disconnected =>
    have hcount : ({ s.fifo with rptr := s.fifo.wptr } : MyFifo SigPudModel).count = 0 :=
      Ring.Buf.count_eq_zero.mpr rfl
    have hcontents : ({ s.fifo with rptr := s.fifo.wptr } : MyFifo SigPudModel).contents k = [] :=
      List.length_eq_zero_iff.mp (Ring.Buf.length_contents.trans hcount)
    refine ⟨_, [], rfl, ⟨?_, fun m hm => ?_⟩, (List.append_nil _).symm, .inr ⟨rfl, rfl, ?_⟩⟩
    · dsimp only
      rw [hcount]
      exact Nat.zero_le _
    · rw [hcontents] at hm
      exact absurd hm List.not_mem_nil
    · dsimp only
      rw [hcontents, List.append_nil]

/-- A run of events. -/
theorem run_spec (hk : k < 8) (h : Inv k s) (es : List NotifyEvent)
    (hvalid : ∀ env, .rxfifo env ∈ es → env.validLen ≠ 0) :
    ∃ t added, s.run k es = some t ∧ Inv k t ∧ t.reported = s.reported ++ added ∧
      (t.got ++ t.fifo.contents k).Sublist (s.got ++ s.fifo.contents k ++ added) ∧
      (.disconnected ∉ es → t.got ++ t.fifo.contents k = s.got ++ s.fifo.contents k ++ added) := by
  induction es generalizing s with
  | nil =>
    refine ⟨s, [], rfl, h, (List.append_nil _).symm, ?_, fun _ => (List.append_nil _).symm⟩
    rw [List.append_nil]
  | cons e es ih =>
    obtain ⟨u, added, hnext, hinv, hreported, hstep⟩ := next_spec hk h e fun env henv =>
      hvalid env (henv ▸ List.mem_cons_self)
    obtain ⟨t, added', hrun, hinv', hreported', hsub, heq⟩ := ih hinv fun env henv =>
      hvalid env (List.mem_cons_of_mem _ henv)
    refine ⟨t, added ++ added', by rw [run, hnext]; exact hrun, hinv', ?_, ?_, fun hconn => ?_⟩
    · rw [hreported', hreported, List.append_assoc]
    · rw [← List.append_assoc]
      refine hsub.trans (List.Sublist.append_right ?_ added')
      rcases hstep with hsame | ⟨-, rfl, hdropped⟩
      · rw [hsame]
      · rw [hdropped, List.append_nil]
        exact List.sublist_append_left ..
    · rw [← List.append_assoc, heq fun hmem => hconn (List.mem_cons_of_mem _ hmem)]
      rcases hstep with hsame | ⟨rfl, -⟩
      · rw [hsame]
      · exact absurd List.mem_cons_self hconn

end Notifying

/-- **What the node reports comes to the phone once, and in order**, however often the stack has no
room for all packets of a PDU: what has come and what is in the fifo are together what was put into
it, if the connection lasts, and else a part of that.  A turn in which the phone wants
notifications and the stack has room brings the first. -/
theorem notifies_inOrder {k : ℕ} (hk : k < 8) {s : Notifying} (h : Notifying.Inv k s)
    (hstart : s.got ++ s.fifo.contents k = s.reported) (es : List NotifyEvent)
    (hvalid : ∀ env, .rxfifo env ∈ es → env.validLen ≠ 0) :
    ∃ t, s.run k es = some t ∧ (t.got ++ t.fifo.contents k).Sublist t.reported ∧
      (.disconnected ∉ es → t.got ++ t.fifo.contents k = t.reported) ∧
      ∀ m rest env, t.fifo.contents k = m :: rest → m.pduData ≠ [] → env.validLen ≠ 0 →
        env.Ready .gattProxy m.pduData.length →
          ∃ u, t.next k (.rxfifo env) = some u ∧ u.got = t.got ++ [m] ∧
            u.fifo.contents k = rest := by
  obtain ⟨t, added, hrun, hinv, hreported, hsub, heq⟩ := Notifying.run_spec hk h es hvalid
  rw [hstart, ← hreported] at hsub heq
  refine ⟨t, hrun, hsub, heq, fun m rest env hhead hne henv hready => ?_⟩
  obtain ⟨u, hnext, -, ⟨-, -, hnot⟩ | ⟨m', rest', hhead', hfifo, hgot⟩⟩ :=
    Notifying.next_rxfifo hk hinv henv
  · exact absurd hready (hnot m rest hhead hne)
  · obtain ⟨rfl, rfl⟩ := List.cons.inj (hhead.symm.trans hhead')
    exact ⟨u, hnext, hgot, by rw [hfifo, (hinv.pop hhead).1]⟩

/-- Nothing is reported yet. -/
def freshNotifying : Notifying := ⟨⟨0, 0, fun _ => ⟨.networkPdu, []⟩⟩, .initial, [], []⟩

/-- A stack that takes so many packets. -/
def notifyEnv (n : ℕ) : NotifyEnv := ⟨23, 0, 16, (1, 0), (1, 0), fun i => decide (i < n)⟩

theorem notifies_inOrder_sample :
    ∃ t, freshNotifying.run 3 [.report (List.replicate 29 7) 0x2A, .rxfifo (notifyEnv 1),
        .report (List.replicate 12 5) 0x2B, .rxfifo (notifyEnv 2)] = some t ∧
      t.got ++ t.fifo.contents 3 = t.reported := by
  obtain ⟨t, hrun, -, heq, -⟩ := notifies_inOrder (k := 3) (s := freshNotifying) (by decide)
    ⟨by decide, by decide⟩ rfl
    [.report (List.replicate 29 7) 0x2A, .rxfifo (notifyEnv 1),
      .report (List.replicate 12 5) 0x2B, .rxfifo (notifyEnv 2)]
    (by rintro env henv; simp at henv; rcases henv with rfl | rfl <;> decide)
  exact ⟨t, hrun, heq (by simp)⟩

end PirMesh.GattBearer
