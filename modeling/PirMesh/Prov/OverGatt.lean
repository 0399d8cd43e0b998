import PirMesh.Prov.EndToEnd
import PirMesh.Proxy.GattBearer

/-! # Prov — A phone provisions a device over GATT packets

The PDUs of `provisioned` travel in packets: the phone writes what `segmentWithData` cuts, and the
device notifies what `notify_pkts` cuts.  Each side may be served between any two packets.

A PDU of the exchange has at most the 65 octets of a key, so both directions carry it whatever came
before (`carries_toNode`, `carries_toPhone`).  Runs of packets therefore end as runs of PDUs do. -/

namespace PirMesh.EndToEnd

open Nor (Byte)
open LowerTransport Provisioner GattBearer
open ProxyProtocol hiding Byte

/-! ### The two directions -/

/-- The phone's MTU and the device's stack; and at each write the device's clock, the memory behind
the packet, and what the dispatch of a PDU leaves in the buffer. -/
structure Connection where
  mtu : ℕ
  stack : NotifyEnv
  clock : ℕ → BitVec 32
  behind : ℕ → ℕ → Byte
  used : ℕ → (ℕ → Byte) → ℕ → Byte

/-- The receiver behind a number of writes. -/
structure NodeReceiver where
  writes : ℕ
  receiver : GattReceiver

def attData (behind : ℕ → Byte) (packet : List Byte) : RfPacketAttData :=
  ⟨.ofNat 16 (packet.length + 3), fun i => packet.getD i (behind i)⟩

/-- `dispatch_pb_gatt` is for the PDUs that are written to its characteristic. -/
def provisionPdu (m : L2capHandleType × List Byte) : Option (List Byte) :=
  if m.1 = .provison then some m.2 else none

/-- The manager of the phone gets provisioning PDUs only. -/
def managerPdu (m : SigPudModel) : Option (List Byte) :=
  if m.pduType = .provisioningPdu then some m.pduData else none

namespace Connection

variable (c : Connection)

/-- `sendBlePdu`, and the writes at the device. -/
def toNode : Duplex.Link (List Byte) (Characteristic × List Byte) NodeReceiver where
  packets pdu := (sendBlePdu c.mtu ⟨.provisioningPdu, pdu⟩).getD []
  recv r w :=
    let (receiver, pdu) := gattReceive r.receiver
      (.write (c.clock r.writes) w.1 (attData (c.behind r.writes) w.2) (c.used r.writes))
    (⟨r.writes + 1, receiver⟩, pdu.bind provisionPdu)

/-- `gatt_prov_notify_pkts`, which does not look at the result, and the notifications at the
phone. -/
def toPhone : Duplex.Link (List Byte) (List Byte) ProxyProtocolHandler where
  packets pdu :=
    ((notifyPkts c.stack (fun j => pdu.getD j 0) (.ofNat 16 pdu.length) .provisionAtt
      SigPduType.provisioningPdu.rawValue).map (·.1)).getD []
  recv s packet :=
    let (m, s) := reassembleData s packet
    (s, m.bind managerPdu)

/-- The connection has a usable MTU, and the stack room for the packets of a key. -/
structure Good : Prop where
  mtu : 2 ≤ c.mtu
  validLen : c.stack.validLen ≠ 0
  ready : c.stack.Ready .provisionAtt 65

end Connection

/-! ### They carry the PDUs -/

variable {c : Connection} {pdu : List Byte}

theorem carries_attData (behind : ℕ → Byte) {packet : List Byte}
    (h : packet.length + 3 < 2 ^ 16) : GattBearer.Carries (attData behind packet) packet where
  l2cap := by
    unfold attData
    rw [BitVec.toNat_ofNat, Nat.mod_eq_of_lt h]
  dat := by
    refine List.ext_getElem (Reassembly.length_read ..) fun i _ hi => ?_
    rw [Reassembly.getElem_read, Nat.zero_add]
    exact List.getD_eq_getElem _ _ hi

/-- What the writes give the device is what it dispatches. -/
theorem feed_toNode (c : Connection) (r : NodeReceiver)
    {writes : List (Characteristic × List Byte)} (h : ∀ w ∈ writes, w.2.length + 3 < 2 ^ 16) :
    ∃ events, Arrives writes events ∧
      (c.toNode.feed r writes).2 = (dispatched r.receiver events).filterMap provisionPdu := by
  induction writes generalizing r with
  | nil => exact ⟨[], .nil, rfl⟩
  | cons w writes ih =>
    obtain ⟨events, harrives, heq⟩ := ih (c.toNode.recv r w).1 fun w' hw' =>
      h w' (List.mem_cons_of_mem _ hw')
    refine ⟨_, .packet (c.clock r.writes) (c.used r.writes)
      (carries_attData (c.behind r.writes) (h w List.mem_cons_self)) harrives, ?_⟩
    rw [Duplex.Link.feed, heq, dispatched, List.filterMap_append]
    refine congrArg (· ++ _) ?_
    unfold Connection.toNode
    dsimp only
    cases (gattReceive r.receiver (.write (c.clock r.writes) w.1
      (attData (c.behind r.writes) w.2) (c.used r.writes))).2 with
    | none => rfl
    | some m =>
      rw [Option.bind_some, Option.toList_some, List.filterMap_cons, List.filterMap_nil]
      cases provisionPdu m <;> rfl

/-- What the notifications give the phone is what its handler puts together. -/
theorem feed_toPhone (c : Connection) (s : ProxyProtocolHandler) (packets : List (List Byte)) :
    (c.toPhone.feed s packets).2 = ((outputs s packets).reduceOption).filterMap managerPdu := by
  induction packets generalizing s with
  | nil => rfl
  | cons packet packets ih =>
    have hfirst : (c.toPhone.recv s packet).2 = (reassembleData s packet).1.bind managerPdu := rfl
    rw [Duplex.Link.feed, ih, outputs, hfirst]
    cases hm : (reassembleData s packet).1 with
    | none => rw [List.reduceOption_cons_of_none]; rfl
    | some m =>
      rw [List.reduceOption_cons_of_some, List.filterMap_cons, Option.bind_some]
      cases managerPdu m <;> rfl

/-- **The phone's PDU comes to the device.** -/
theorem carries_toNode (hmtu : 2 ≤ c.mtu) (hpdu : Short pdu) : c.toNode.Carries pdu := by
  intro r
  have hne : pdu ≠ [] := List.length_pos_iff.mp hpdu.1
  have hmax : provisionGattMaxLen.toNat = 80 := rfl
  obtain ⟨packets, hpackets, hcut⟩ := segmentWithData_packets hmtu
    (countsRight_of_le hmtu (by omega : pdu.length ≤ 2 ^ 24)) .provisioningPdu
  have hsend : c.toNode.packets pdu = packets.map (Characteristic.provisioningIn, ·) := by
    unfold Connection.toNode sendBlePdu
    dsimp only
    rw [if_neg hne, hpackets]
    rfl
  have hshort : ∀ w ∈ packets.map (Characteristic.provisioningIn, ·), w.2.length + 3 < 2 ^ 16 := by
    intro w hw
    obtain ⟨packet, hpacket, rfl⟩ := List.mem_map.mp hw
    have hle := hcut.length_le hpacket
    dsimp only
    omega
  obtain ⟨events, harrives, heq⟩ := feed_toNode c r hshort
  rw [← List.append_nil (packets.map _)] at harrives
  obtain ⟨s', events', hnone, hdispatched⟩ := hcut.dispatched (s := r.receiver) harrives (by
    rw [hmax, l2capTypeOf, L2capHandleType.pRcv]
    omega)
  rw [hsend, heq, hdispatched, dispatched_nil hnone]
  rfl

/-- **The device's PDU comes to the phone.** -/
theorem carries_toPhone (hc : c.Good) (hpdu : Short pdu) : c.toPhone.Carries pdu := by
  intro s
  have hlen : (BitVec.ofNat 16 pdu.length).toNat = pdu.length := by
    rw [BitVec.toNat_ofNat]
    omega
  obtain ⟨packets, sent, rest, ok, hsends, hcut, hparts, hok, hready⟩ :=
    notifyPkts_packets (p := fun j => pdu.getD j 0) .provisioningPdu .provisionAtt hc.validLen
      (.ofNat 16 pdu.length) (by omega) (by omega)
  rw [hlen] at hcut hready
  rw [Notifying.read_getD] at hcut
  obtain rfl := hok.mp (hready (hc.ready.mono hpdu.2))
  rw [List.append_nil] at hparts
  have hsend : c.toPhone.packets pdu = packets := by
    unfold Connection.toPhone
    dsimp only
    rw [hsends, hparts]
    rfl
  obtain ⟨n, hn⟩ := hcut.reassembled s
  rw [hsend, feed_toPhone, hn, List.reduceOption_append, List.reduceOption_replicate_none]
  rfl

/-! ### Runs of packets -/

variable {cr : ProvisioningCrypto} {C : ProvCrypto} {env : Surroundings} {call : ProvisionCall}
  {net : SigIndexedNetkeyModel} {node : ProvNode}

/-- Phone and device, with the packets on their way to each. -/
abbrev PacketSession : Type :=
  Duplex.Pair (Provisioning × ProxyProtocolHandler) (Provisionee × NodeReceiver) (List Byte)
    (Characteristic × List Byte)

/-- Runs of a number of packets. -/
abbrev PacketRuns (cr : ProvisioningCrypto) (C : ProvCrypto) (env : Surroundings)
    (c : Connection) : Nat → PacketSession → PacketSession → Prop :=
  Duplex.Over (phoneTakes cr env) (nodeTakes C) c.toPhone c.toNode

/-- **Provisioning completes over packets**, whatever the two receivers had and whichever side is
served first: there is one end, which every run of packets can be continued to and none goes beyond,
and there the device has the phone's network data and both have the same device key. -/
theorem provisioned_overGatt (h : Setting cr C env call net node) (haccepts : Accepts call node)
    (hauth : SameAuth call node) (hc : c.Good) (p : Provisioning) (r : ProxyProtocolHandler)
    (r' : NodeReceiver) :
    ∃ n, ∃ q : PacketSession, q.Quiet ∧
      Provisioned env net call p.manager.calls node ⟨q.left.1, q.right.1, [], []⟩ ∧
      ∀ k t, PacketRuns cr C env c k ((start env call p node).over c.toPhone c.toNode r r') t →
        k ≤ n ∧ PacketRuns cr C env c (n - k) t q := by
  obtain ⟨q, hquiet, hdone, hruns⟩ := runs_provisioned h haccepts hauth p
  have hcarried := hruns.mono (fun _ => carries_toPhone hc) (fun _ => carries_toNode hc.mtu)
  obtain ⟨n, u, u', hpackets⟩ := hcarried.over r r'
  exact ⟨n, _, hquiet.over u u', ⟨hdone.installed, hdone.mode, hdone.added, hdone.success⟩,
    fun k t hrun => hpackets.completes (hquiet.over u u') hrun⟩

/-- An MTU of 23 on both sides, and a stack that takes every packet. -/
def smallConnection : Connection :=
  ⟨20, ⟨23, 0, 16, (1, 0), (1, 0), fun _ => true⟩, fun _ => 0, fun _ _ => 0, fun _ m => m⟩

theorem provisioned_overGatt_sample : ∃ n, ∃ q : PacketSession, q.Quiet ∧
    q.right.1.installed ≠ none ∧
    PacketRuns sumCrypto (deviceCrypto sumCrypto (List.replicate 32 0x11)) phoneEnv
      smallConnection n ((start phoneEnv phoneCall .initial freshDevice).over
        smallConnection.toPhone smallConnection.toNode .initial
        ⟨0, ⟨.meshProxySarParaInit, 0, fun _ => 0, 0⟩⟩) q := by
  have hgood : smallConnection.Good := ⟨by decide, by decide, by decide, by decide, fun _ => rfl⟩
  obtain ⟨n, q, hquiet, hdone, hall⟩ := provisioned_overGatt
    (setting_sample freshDevice.provOob.capa)
    (by decide +kernel : Accepts phoneCall freshDevice) rfl hgood .initial .initial
    ⟨0, ⟨.meshProxySarParaInit, 0, fun _ => 0, 0⟩⟩
  exact ⟨n, q, hquiet, by rw [hdone.installed]; exact Option.some_ne_none _, (hall 0 _ (.nil _)).2⟩

end PirMesh.EndToEnd
