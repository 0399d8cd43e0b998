import PirMesh.Library.Duplex
import PirMesh.Phone.ProvisioningOrder

/-! # Prov — A phone provisions a device

The phone's provisioning manager and the device's `dispatch_pb_gatt` answer each other's PDUs over
the two directions of a connection.  The order in which the two are served is open, and does not
matter (`Duplex.Steps.completes`), so one run from the invite to the end tells of all.

Both sides authenticate the same octets under the same secret.  When the device takes the start PDU
that the phone chooses from its capabilities, the eleventh PDU ends the exchange: the device has
installed the phone's network data, and both have the same device key (`provisioned`). -/

namespace PirMesh

open Nor (Byte)
open Reassembly LowerTransport Provisioner

namespace EndToEnd

/-! ### The two sides -/

def sentPdus (entries : List Entry) : List (List Byte) :=
  entries.filterMap fun
    | .sent pdu => some pdu
    | _ => none

/-- A device, and the network data that it installed last. -/
structure Provisionee where
  node : ProvNode
  installed : Option (List Byte)

variable (cr : ProvisioningCrypto) (C : ProvCrypto) (env : Surroundings)

def phoneTakes (p : Provisioning) (pdu : List Byte) : Provisioning × List (List Byte) :=
  (p.occur cr (.deliver pdu env), sentPdus (p.manager.didDeliverData cr env pdu).2)

/-- A device notifies nothing where there are no octets. -/
def nodeTakes (n : Provisionee) (pdu : List Byte) : Provisionee × List (List Byte) :=
  let (node, out) := dispatchPbGatt C n.node pdu
  (⟨node, out.installed.or n.installed⟩, if out.notify = [] then [] else [out.notify])

/-- Phone and device, with the PDUs on their way to each. -/
abbrev Session : Type := Duplex.Pair Provisioning Provisionee (List Byte) (List Byte)

/-- The phone is called to provision, and its PDUs are on their way. -/
def start (call : ProvisionCall) (p : Provisioning) (node : ProvNode) : Session where
  left := p.start env.source call
  right := ⟨node, none⟩
  toLeft := []
  toRight := sentPdus ((p.manager.provision env.source call).2.getD [])

/-- Runs of a number of PDUs. -/
abbrev Runs : Nat → Session → Session → Prop := Duplex.Steps (phoneTakes cr env) (nodeTakes C)

/-! ### What the two sides agree on -/

/-- The method that the phone chooses for capabilities. -/
def methodOf (call : ProvisionCall) (capa : List Byte) : AuthenticationMethod :=
  if (SigProvisioningResponse.mk .capabilities capa).capabilities.staticOobInformationAvailable ∧
      call.staticOobData.isSome then .staticOob
  else .noOob

/-- The authentication octets of the device. -/
def authOf (node : ProvNode) : AuthenticationMethod → List Byte
  | .noOob => List.replicate 16 0
  | .staticOob => node.devAuth

/-- The primitives of the two sides compute the same, and decrypting undoes encrypting. -/
structure SameCrypto (node : ProvNode) : Prop where
  keyLength : cr.publicKeyData.length = 64
  keyValid : meshCheckPubkeyValid C cr.publicKeyData = true
  secret : C.dhkey node.privateKey.toList cr.publicKeyData =
    cr.getSharedSecret node.publicKey.toList
  noSecret : cr.getSharedSecret node.publicKey.toList ≠ []
  confirmation : ∀ inputs secret random auth, C.confirmation inputs secret random auth =
    cr.calculateCMAC (random ++ auth)
      (cr.calculateK1 secret (cr.calculateSalt inputs) [0x70, 0x72, 0x63, 0x6B])
  cmacLength : ∀ data key, (cr.calculateCMAC data key).length = 16
  salt : ∀ inputs random devRandom, C.salt inputs random devRandom =
    cr.calculateSalt (cr.calculateSalt inputs ++ random ++ devRandom)
  session : ∀ inputs secret random devRandom, C.sessionKey inputs secret random devRandom =
    (cr.calculateK1 secret (cr.calculateSalt (cr.calculateSalt inputs ++ random ++ devRandom))
        [0x70, 0x72, 0x73, 0x6B],
      cr.calculateK1 secret (cr.calculateSalt (cr.calculateSalt inputs ++ random ++ devRandom))
        [0x70, 0x72, 0x73, 0x6E])
  devKey : ∀ salt secret, C.devKey salt secret =
    cr.calculateK1 secret salt [0x70, 0x72, 0x64, 0x6B]
  decrypts : ∀ key nonce data,
    (C.msgDec key nonce (cr.calculateCCM data key nonce 8 [])).2.take data.length = data

/-- A device that waits for an invite. -/
structure Waits (node : ProvNode) : Prop where
  state : node.provisonRcvState = .linkUnprovision
  mode : node.gattMode ≠ .proxy
  tick : node.tickCheckComplete = 0
  cert : node.certBaseEn = false
  random : node.devRandom.length = 16
  auth : node.devAuth.length = 16

/-- The octets that both sides authenticate. -/
def transcript (node : ProvNode) (method : AuthenticationMethod) : List Byte :=
  0 :: capaOctets node.provOob.capa ++ (startPdu method).tail ++ cr.publicKeyData ++
    node.publicKey.toList

/-! ### The device -/

variable {cr C env} {node s : ProvNode} {method : AuthenticationMethod}

/-- A device in a session: the octets are the inputs so far. -/
structure NodeAt (node : ProvNode) (state : ProvRcvState) (octets : List Byte) (s : ProvNode) :
    Prop where
  state : s.provisonRcvState = state
  publicKey : s.publicKey = node.publicKey
  privateKey : s.privateKey = node.privateKey
  devRandom : s.devRandom = node.devRandom
  cert : s.certBaseEn = false
  input : read s.devInput 0 octets.length = octets

theorem length_capaOctets (c : ProTransCapa) : (capaOctets c).length = 11 := rfl

theorem takes_invite (h : Waits node) :
    ∃ s, dispatchPbGatt C node (invitePdu 0) =
        (s, { notify := proCapabli :: capaOctets node.provOob.capa }) ∧
      NodeAt node .devCapa (0 :: capaOctets node.provOob.capa) s ∧
      s.provOob = node.provOob ∧ s.devAuth = node.devAuth := by
  have hsuccess : (meshProvisionParaReset node).isProvisionSuccess = false := by
    unfold meshProvisionParaReset ProvNode.isProvisionSuccess
    rw [if_pos h.mode]
    rfl
  have hdispatch : dispatchPbGatt C node (invitePdu 0) =
      ({ meshProvisionParaReset node with
          devInput := copy (copy (meshProvisionParaReset node).devInput 0 [0]) 1
            (capaOctets node.provOob.capa)
          provisonRcvState := .devCapa },
        { notify := proCapabli :: capaOctets node.provOob.capa }) := by
    unfold dispatchPbGatt
    rw [h.state]
    change provisioneeGattRcvInviteProc node (invitePdu 0) = _
    unfold provisioneeGattRcvInviteProc
    dsimp only
    rw [hsuccess]
    rfl
  have hfirst : read (copy (meshProvisionParaReset node).devInput 0 [0]) 0 1 = [0] :=
    read_copy_append (meshProvisionParaReset node).devInput 0 [0]
  have hall := read_copy_append (copy (meshProvisionParaReset node).devInput 0 [0]) 1
    (capaOctets node.provOob.capa)
  rw [hfirst] at hall
  exact ⟨_, hdispatch, ⟨rfl, rfl, rfl, rfl, h.cert, hall⟩, rfl, rfl⟩

/-- The header of a PDU of a type with its length. -/
theorem header_ok (t : Byte) (body : List Byte) (n : Nat) (ht : t &&& 0x3f = t)
    (hlen : body.length = n) (hcheck : provCalcCmdLenChk t (BitVec.ofNat 8 (n + 1)) = true) :
    provType (t :: body) = t ∧ provCalcCmdLenChk t (BitVec.ofNat 8 (t :: body).length) = true :=
  ⟨ht, by rwa [List.length_cons, hlen]⟩

/-- A start command that is taken is kept. -/
theorem dispatchStart_start {p : List Byte} {o : MeshProvOob}
    (h : (dispatchStartCmdReliable p o).2 = true) :
    (dispatchStartCmdReliable p o).1.start = startOfPdu p := by
  unfold dispatchStartCmdReliable at h ⊢
  split at h
  · cases h
  · rename_i hok
    rw [if_neg hok]

theorem takes_start (h : NodeAt node .devCapa (0 :: capaOctets node.provOob.capa) s)
    (hoob : s.provOob = node.provOob)
    (hok : (dispatchStartCmdReliable (startPdu method) node.provOob).2 = true) :
    ∃ s', dispatchPbGatt C s (startPdu method) = (s', {}) ∧
      NodeAt node .proStart (0 :: capaOctets node.provOob.capa ++ (startPdu method).tail) s' ∧
      s'.provOob.start = startOfPdu (startPdu method) ∧ s'.devAuth = s.devAuth := by
  have hdispatch : dispatchPbGatt C s (startPdu method) =
      ({ s with
          provOob := (dispatchStartCmdReliable (startPdu method) node.provOob).1
          devInput := copy s.devInput 12 (startPdu method).tail
          provisonRcvState := .proStart }, {}) := by
    obtain ⟨htype, hcheck⟩ := header_ok proStart (startPdu method).tail 5 (by decide) rfl
      (by decide)
    change dispatchPbGatt C s (proStart :: (startPdu method).tail) = _
    unfold dispatchPbGatt
    rw [htype, hcheck, h.state]
    change rcvStart s (startPdu method) = _
    unfold rcvStart
    rw [hoob, ← Prod.eta (dispatchStartCmdReliable (startPdu method) node.provOob), hok]
    rfl
  have hall := read_copy_append s.devInput 12 (startPdu method).tail
  have hinput : read s.devInput 0 12 = 0 :: capaOctets node.provOob.capa := h.input
  rw [hinput] at hall
  exact ⟨_, hdispatch, ⟨rfl, h.publicKey, h.privateKey, h.devRandom, h.cert, hall⟩,
    dispatchStart_start hok, rfl⟩

theorem takes_pubKey {octets key : List Byte} (h : NodeAt node .proStart octets s)
    (hoctets : octets.length = 17) (hkey : key.length = 64)
    (hvalid : meshCheckPubkeyValid C key = true) :
    ∃ s', dispatchPbGatt C s (proPubKey :: key) =
        (s', { notify := proPubKey :: node.publicKey.toList }) ∧
      NodeAt node .devPubKey (octets ++ key ++ node.publicKey.toList) s' ∧
      read s'.devInput 0x11 64 = key ∧ s'.provOob = s.provOob ∧ s'.devAuth = s.devAuth := by
  have hbody : provBody (proPubKey :: key) 64 = key := List.take_of_length_le hkey.le
  have hdispatch : dispatchPbGatt C s (proPubKey :: key) =
      ({ s with
          devInput := copy (copy s.devInput 0x11 key) (0x11 + 0x40) node.publicKey.toList
          provisonRcvState := .devPubKey },
        { notify := proPubKey :: node.publicKey.toList }) := by
    obtain ⟨htype, hcheck⟩ := header_ok proPubKey _ _ (by decide) hkey (by decide)
    unfold dispatchPbGatt
    rw [htype, hcheck, h.state]
    change rcvPubKey C s (proPubKey :: key) = _
    unfold rcvPubKey
    rw [hbody, hvalid, h.cert, h.publicKey]
    rfl
  have hfirst := read_copy_append s.devInput 17 key
  have hinput : read s.devInput 0 17 = octets := hoctets ▸ h.input
  rw [hinput, hkey] at hfirst
  have hall := read_copy_append (copy s.devInput 17 key) 81 node.publicKey.toList
  rw [hfirst] at hall
  have hlen : (octets ++ key ++ node.publicKey.toList).length =
      81 + node.publicKey.toList.length := by
    rw [List.length_append, List.length_append, hoctets, hkey]
  have hpart : read (copy (copy s.devInput 17 key) 81 node.publicKey.toList) 17 64 = key := by
    rw [show read _ 17 64 = read (copy s.devInput 17 key) 17 64 from
      read_congr fun i hi => copy_outside _ (.inl (by omega))]
    have hkept := read_copy s.devInput 17 key 0 64 (by omega)
    rwa [List.drop_zero, List.take_of_length_le hkey.le] at hkept
  refine ⟨_, hdispatch, ⟨rfl, h.publicKey, h.privateKey, h.devRandom, h.cert, ?_⟩, hpart, rfl, rfl⟩
  rw [hlen]
  exact hall

/-- The authentication octets of the method that was started. -/
theorem oobAuthData_ok (hstart : s.provOob.start = startOfPdu (startPdu method))
    (hauth : s.devAuth = node.devAuth) :
    meshNodeOobAuthData s = ({ s with devAuth := authOf node method }, true) := by
  unfold meshNodeOobAuthData
  rw [hstart]
  cases method with
  | noOob => rfl
  | staticOob => rw [authOf, ← hauth]; rfl

/-- A device with the secret and the confirmation of a provisioner. -/
structure NodeKeyed (node : ProvNode) (state : ProvRcvState) (octets edch auth : List Byte)
    (s : ProvNode) : Prop
    extends NodeAt node state octets s where
  devEdch : s.devEdch = edch
  devAuth : s.devAuth = auth

theorem takes_confirm {octets key edch answer : List Byte} (confirm : List Byte)
    (h : NodeAt node .devPubKey octets s) (hoctets : octets.length = 145)
    (hkey : read s.devInput 0x11 64 = key)
    (hstart : s.provOob.start = startOfPdu (startPdu method)) (hauth : s.devAuth = node.devAuth)
    (hconfirm : confirm.length = 16) (hedch : C.dhkey node.privateKey.toList key = edch)
    (hanswer : C.confirmation octets edch node.devRandom (authOf node method) = answer) :
    ∃ s', dispatchPbGatt C s (proConfirm :: confirm) = (s', { notify := proConfirm :: answer }) ∧
      NodeKeyed node .devConfirm octets edch (authOf node method) s' ∧
      s'.devProComfirm = confirm := by
  have hinput : read s.devInput 0 145 = octets := hoctets ▸ h.input
  have hbody : provBody (proConfirm :: confirm) 16 = confirm := List.take_of_length_le hconfirm.le
  have hdispatch : dispatchPbGatt C s (proConfirm :: confirm) =
      ({ s with
          devAuth := authOf node method
          devProComfirm := confirm
          devEdch := edch
          devComfirm := answer
          provisonRcvState := .devConfirm }, { notify := proConfirm :: answer }) := by
    obtain ⟨htype, hcheck⟩ := header_ok proConfirm _ _ (by decide) hconfirm (by decide)
    unfold dispatchPbGatt
    rw [htype, hcheck, h.state]
    change rcvConfirm C s (proConfirm :: confirm) = _
    unfold rcvConfirm
    rw [oobAuthData_ok hstart hauth]
    dsimp only
    rw [hinput, hkey, h.privateKey, h.devRandom, hbody, hedch, hanswer]
    rfl
  exact ⟨_, hdispatch, ⟨⟨rfl, h.publicKey, h.privateKey, h.devRandom, h.cert, h.input⟩, rfl, rfl⟩,
    rfl⟩

theorem takes_random {octets edch auth random : List Byte}
    (h : NodeKeyed node .devConfirm octets edch auth s) (hoctets : octets.length = 145)
    (hrandom : random.length = 16)
    (hopens : C.confirmation octets edch random auth = s.devProComfirm) :
    ∃ s', dispatchPbGatt C s (proRandom :: random) =
        (s', { notify := proRandom :: node.devRandom }) ∧
      NodeKeyed node .devRandom octets edch auth s' ∧ s'.proRandom = random := by
  have hinput : read s.devInput 0 145 = octets := hoctets ▸ h.input
  have hbody : provBody (proRandom :: random) 16 = random := List.take_of_length_le hrandom.le
  have hdispatch : dispatchPbGatt C s (proRandom :: random) =
      ({ s with proRandom := random, provisonRcvState := .devRandom },
        { notify := proRandom :: node.devRandom }) := by
    obtain ⟨htype, hcheck⟩ := header_ok proRandom _ _ (by decide) hrandom (by decide)
    unfold dispatchPbGatt
    rw [htype, hcheck, h.state]
    change rcvRandom C s (proRandom :: random) = _
    unfold rcvRandom
    dsimp only
    rw [hbody, hinput, h.devEdch, h.devAuth, if_neg (not_not_intro hopens), h.devRandom]
  exact ⟨_, hdispatch, ⟨⟨rfl, h.publicKey, h.privateKey, h.devRandom, h.cert, h.input⟩, h.devEdch,
    h.devAuth⟩, rfl⟩

theorem takes_data {octets edch auth random data plain : List Byte}
    (h : NodeKeyed node .devRandom octets edch auth s) (hoctets : octets.length = 145)
    (hrandom : s.proRandom = random) (hdata : data.length = 33)
    (hplain : (meshProvSecMsgDec C (C.sessionKey octets edch random node.devRandom).1
      ((C.sessionKey octets edch random node.devRandom).2.drop 3) data).2.take 25 = plain)
    (hunicast : isUnicastAdr (netInfoUnicast plain) = true) :
    ∃ s', dispatchPbGatt C s (proData :: data) =
        (s', { notify := [proComplete], installed := some plain }) ∧
      s'.provisonRcvState = .proSuc ∧ s'.gattMode = .proxy ∧
      s'.devKey = C.devKey (C.salt octets random node.devRandom) edch := by
  have hinput : read s.devInput 0 145 = octets := hoctets ▸ h.input
  have hbody : provBody (proData :: data) 33 = data := List.take_of_length_le hdata.le
  have hdec : (decProvData C s (proData :: data)).2.take 25 = plain := by
    unfold decProvData
    rw [hinput, h.devEdch, hrandom, h.devRandom, hbody]
    exact hplain
  have hdispatch : dispatchPbGatt C s (proData :: data) =
      ({ meshProvisionParaReset { s with
            devKey := C.devKey (C.salt octets random node.devRandom) edch
            gattMode := .proxy
            proNetInfo := plain } with provisonRcvState := .proSuc },
        { notify := [proComplete], installed := some plain }) := by
    obtain ⟨htype, hcheck⟩ := header_ok proData _ _ (by decide) hdata (by decide)
    have hsame : ∀ devKey, decProvData C { s with devKey } (proData :: data) =
        decProvData C s (proData :: data) := fun _ => rfl
    unfold dispatchPbGatt
    rw [htype, hcheck, h.state]
    change rcvData C s (proData :: data) = _
    unfold rcvData meshProvisionParHandle
    dsimp only
    rw [hsame, hdec, if_pos hunicast, hinput, hrandom, h.devRandom, h.devEdch]
    rfl
  exact ⟨_, hdispatch, rfl, rfl, rfl⟩

/-! ### The phone -/

variable {call : ProvisionCall} {net : SigIndexedNetkeyModel} {id : Nat} {step : Step}
variable {d : SessionData} {m : SigProvisioningManager} {octets : List Byte}

/-- A phone in a step of a call, with what the session has filled in. -/
structure PhoneAt (call : ProvisionCall) (net : SigIndexedNetkeyModel) (id : Nat) (step : Step)
    (d : SessionData) (m : SigProvisioningManager) : Prop where
  block : m.provisionResponseBlock = some step
  data : m.provisioningData = some d
  oob : m.staticOobData = call.staticOobData
  address : m.unicastAddress = call.unicastAddress
  key : m.networkKey = some net
  blocks : m.blocks = some id

theorem PhoneAt.cancel (h : PhoneAt call net id step d m) (step' : Step) :
    PhoneAt call net id step d (m.cancel step') :=
  ⟨h.block, h.data, h.oob, h.address, h.key, h.blocks⟩

/-- The manager gets the PDU that it waits for. -/
theorem didDeliverData_awaited {b : Byte} (hblock : m.provisionResponseBlock = some step)
    (hb : SigProvisioningPduType.ofByte? b = some step.awaited)
    (hvalid : (SigProvisioningResponse.mk step.awaited octets).isValid = true) :
    m.didDeliverData cr env (b :: octets) =
      ({ (step.handled cr env ⟨step.awaited, octets⟩ (m.cancel step)).1 with
          provisionResponseBlock :=
            (step.handled cr env ⟨step.awaited, octets⟩ (m.cancel step)).1.handlerLeft step },
        .received ⟨step.awaited, octets⟩ ::
          (step.handled cr env ⟨step.awaited, octets⟩ (m.cancel step)).2) := by
  have hresponse : SigProvisioningResponse.initWithData (b :: octets) =
      some ⟨step.awaited, octets⟩ := by
    unfold SigProvisioningResponse.initWithData
    dsimp only
    rw [hb]
    exact if_neg fun h => step.awaited_ne_failed h.1
  have hfilter : (SigProvisioningResponse.initWithData (b :: octets)).filter (·.isValid) =
      some ⟨step.awaited, octets⟩ := by
    rw [hresponse]
    exact Option.filter_some_pos hvalid
  unfold SigProvisioningManager.didDeliverData
  rw [hfilter]
  dsimp only
  unfold SigProvisioningManager.callResponseBlock
  rw [hblock]
  dsimp only
  rw [SigProvisioningManager.respond_eq, SigProvisioningManager.onResponse_awaited rfl]

/-- The same for a handler that stays installed. -/
theorem didDeliverData_handled {b : Byte} {m' : SigProvisioningManager} {entries : List Entry}
    (hblock : m.provisionResponseBlock = some step)
    (hb : SigProvisioningPduType.ofByte? b = some step.awaited)
    (hvalid : (SigProvisioningResponse.mk step.awaited octets).isValid = true)
    (hne : step ≠ .encryptedData)
    (hhandled : step.handled cr env ⟨step.awaited, octets⟩ (m.cancel step) = (m', entries)) :
    m.didDeliverData cr env (b :: octets) = (m', .received ⟨step.awaited, octets⟩ :: entries) := by
  rw [didDeliverData_awaited hblock hb hvalid, hhandled]
  dsimp only
  unfold SigProvisioningManager.handlerLeft
  rw [if_neg hne]

variable (cr) in
/-- The key exchange of a phone whose bearer is open. -/
theorem sends_start (h : PhoneAt call net id step d m) (hstate : m.state = .capabilitiesReceived)
    (hopen : env.isOpen = true) (oob : Option (List Byte)) :
    ∃ m' d', m.sentStartProvisionPduAndPublicKeyPdu cr env oob =
        (m', [.sent (startPdu (if oob.isSome then .staticOob else .noOob)),
          .sent (publicKeyPdu cr.publicKeyData)]) ∧
      PhoneAt call net id .startAndPublicKey d' m' ∧
      m'.provisioningCapabilities = m.provisioningCapabilities ∧
      d'.confirmationInputs = d.confirmationInputs ++
        (startPdu (if oob.isSome then .staticOob else .noOob)).tail ++
        (publicKeyPdu cr.publicKeyData).tail ∧
      d'.provisionerRandom = env.random ∧
      d'.prepared = some (.prepareWithNetwork env.source net call.unicastAddress) := by
  have hgo : ¬ (m.state ≠ .capabilitiesReceived ∨ env.isOpen = false) := by
    rw [hstate, hopen]
    decide
  unfold SigProvisioningManager.sentStartProvisionPduAndPublicKeyPdu
  rw [h.key]
  dsimp only
  rw [if_neg hgo]
  simp only [SigProvisioningManager.sendPduAndAccumulate, SigProvisioningManager.onData,
    SigProvisioningManager.ofData, SigProvisioningManager.cancel, SigProvisioningManager.await,
    h.data, h.address, Option.map_some, Option.getD_some]
  exact ⟨_, _, rfl, ⟨rfl, rfl, h.oob, rfl, rfl, h.blocks⟩, rfl, rfl, rfl, rfl⟩

variable (cr octets) in
/-- The phone takes the capabilities. -/
theorem sends_publicKey (h : PhoneAt call net id .getCapabilities d m) (hopen : env.isOpen = true)
    (haddress : call.unicastAddress ≠ 0) (hlen : octets.length = 11)
    (hoob : (SigProvisioningResponse.mk .capabilities
        octets).capabilities.staticOobInformationAvailable = true →
      call.staticOobData = none → env.addStaticOOBDevcieByNoOOBEnable = true) :
    ∃ m' d', m.didDeliverData cr env (1 :: octets) =
        (m', [.received ⟨.capabilities, octets⟩, .sent (startPdu (methodOf call octets)),
          .sent (publicKeyPdu cr.publicKeyData)]) ∧
      PhoneAt call net id .startAndPublicKey d' m' ∧
      m'.provisioningCapabilities = (SigProvisioningResponse.mk .capabilities octets).capabilities ∧
      d'.confirmationInputs = d.confirmationInputs ++ octets ++
        (startPdu (methodOf call octets)).tail ++ (publicKeyPdu cr.publicKeyData).tail ∧
      d'.provisionerRandom = env.random ∧
      d'.prepared = some (.prepareWithNetwork env.source net call.unicastAddress) := by
  have hat : PhoneAt call net id .getCapabilities (d.accumulatePduData octets)
      (SigProvisioningManager.onData { m.cancel .getCapabilities with
          provisioningCapabilities :=
            (SigProvisioningResponse.mk .capabilities octets).capabilities
          state := .capabilitiesReceived } (·.accumulatePduData octets)) :=
    ⟨h.block, by
      simp only [SigProvisioningManager.onData, SigProvisioningManager.cancel, h.data,
        Option.map_some], h.oob, h.address, h.key, h.blocks⟩
  have hmethod : ∃ oob, Step.getCapabilities.handled cr env ⟨.capabilities, octets⟩
        (m.cancel .getCapabilities) =
      (SigProvisioningManager.onData { m.cancel .getCapabilities with
          provisioningCapabilities :=
            (SigProvisioningResponse.mk .capabilities octets).capabilities
          state := .capabilitiesReceived }
        (·.accumulatePduData octets)).sentStartProvisionPduAndPublicKeyPdu cr env oob ∧
      methodOf call octets = if oob.isSome then .staticOob else .noOob := by
    unfold Step.handled SigProvisioningManager.onCapabilities methodOf
    dsimp only
    rw [hat.address, if_neg haddress, hat.oob]
    by_cases hstatic : (SigProvisioningResponse.mk .capabilities
        octets).capabilities.staticOobInformationAvailable = true
    · rw [if_pos hstatic]
      cases hcall : call.staticOobData with
      | some oob =>
        exact ⟨some oob, rfl, by rw [if_pos ⟨hstatic, rfl⟩]; rfl⟩
      | none =>
        dsimp only
        rw [if_pos (hoob hstatic hcall)]
        exact ⟨none, rfl, by rw [if_neg fun hboth => Bool.false_ne_true hboth.2]; rfl⟩
    · rw [if_neg hstatic]
      exact ⟨none, rfl, by rw [if_neg fun hboth => hstatic hboth.1]; rfl⟩
  obtain ⟨oob, hhandled, hchosen⟩ := hmethod
  obtain ⟨m', d', hsent, hat', hcapa, hinputs, hrandom, hprepared⟩ :=
    sends_start cr hat rfl hopen oob
  rw [hsent] at hhandled
  rw [hchosen]
  refine ⟨m', d', ?_, hat', hcapa, hinputs, hrandom, hprepared⟩
  exact didDeliverData_handled h.block rfl (decide_eq_true hlen) (by decide) hhandled

variable (cr env octets) in
/-- The phone takes the device's public key. -/
theorem sends_confirmation (h : PhoneAt call net id .startAndPublicKey d m)
    (hsecret : cr.getSharedSecret octets ≠ []) (hoctets : octets ≠ []) :
    ∃ m' d', m.didDeliverData cr env (3 :: octets) =
        (m', [.received ⟨.publicKey, octets⟩,
          .sent (confirmationPdu (d'.provisionerConfirmation cr))]) ∧
      PhoneAt call net id .confirmation d' m' ∧
      m'.provisioningCapabilities = m.provisioningCapabilities ∧
      d'.confirmationInputs = d.confirmationInputs ++ octets ∧
      d'.sharedSecret = cr.getSharedSecret octets ∧
      d'.authValue = call.staticOobData.getD (List.replicate 16 0) ∧
      d'.provisionerRandom = d.provisionerRandom ∧ d'.prepared = d.prepared := by
  have hhandled : ∃ m' d', Step.startAndPublicKey.handled cr env ⟨.publicKey, octets⟩
        (m.cancel .startAndPublicKey) =
        (m', [.sent (confirmationPdu (d'.provisionerConfirmation cr))]) ∧
      PhoneAt call net id .confirmation d' m' ∧
      m'.provisioningCapabilities = m.provisioningCapabilities ∧
      d'.confirmationInputs = d.confirmationInputs ++ octets ∧
      d'.sharedSecret = cr.getSharedSecret octets ∧
      d'.authValue = call.staticOobData.getD (List.replicate 16 0) ∧
      d'.provisionerRandom = d.provisionerRandom ∧ d'.prepared = d.prepared := by
    unfold Step.handled SigProvisioningManager.onPublicKey
      SigProvisioningManager.sentProvisionConfirmationPdu
    simp only [SigProvisioningManager.onData, SigProvisioningManager.ofData,
      SigProvisioningManager.cancel, SigProvisioningManager.await,
      SessionData.provisionerDidObtainWithDevicePublicKey, SessionData.accumulatePduData, h.data,
      h.oob, hoctets, if_false, Option.map_some, Option.getD_some]
    rw [if_pos hsecret]
    exact ⟨_, _, rfl, ⟨rfl, rfl, rfl, h.address, h.key, h.blocks⟩, rfl, rfl, rfl, rfl, rfl, rfl⟩
  obtain ⟨m', d', heq, hrest⟩ := hhandled
  exact ⟨m', d', didDeliverData_handled h.block rfl rfl (by decide) heq, hrest⟩

variable (cr env octets) in
/-- The phone takes the device's confirmation. -/
theorem sends_random (h : PhoneAt call net id .confirmation d m) (hlen : octets.length = 16) :
    ∃ m', m.didDeliverData cr env (5 :: octets) =
        (m', [.received ⟨.confirmation, octets⟩, .sent (randomPdu d.provisionerRandom)]) ∧
      PhoneAt call net id .random { d with deviceConfirmation := some octets } m' ∧
      m'.provisioningCapabilities = m.provisioningCapabilities := by
  have hhandled : ∃ m', Step.confirmation.handled cr env ⟨.confirmation, octets⟩
        (m.cancel .confirmation) = (m', [.sent (randomPdu d.provisionerRandom)]) ∧
      PhoneAt call net id .random { d with deviceConfirmation := some octets } m' ∧
      m'.provisioningCapabilities = m.provisioningCapabilities := by
    unfold Step.handled SigProvisioningManager.onConfirmation
      SigProvisioningManager.sentProvisionRandomPdu
    simp only [SigProvisioningManager.onData, SigProvisioningManager.ofData,
      SigProvisioningManager.cancel, SigProvisioningManager.await, h.data, Option.map_some,
      Option.getD_some]
    exact ⟨_, rfl, ⟨rfl, rfl, h.oob, h.address, h.key, h.blocks⟩, rfl⟩
  obtain ⟨m', heq, hrest⟩ := hhandled
  exact ⟨m', didDeliverData_handled h.block rfl (decide_eq_true hlen) (by decide) heq, hrest⟩

variable (cr env) in
/-- The phone takes the device's random. -/
theorem sends_data (h : PhoneAt call net id .random d m) (hlen : octets.length = 16)
    (hvalid : { d with deviceRandom := octets }.validateConfirmation cr = true) :
    ∃ m' d', m.didDeliverData cr env (6 :: octets) =
        (m', [.received ⟨.random, octets⟩, .sent (encryptedDataWithMicPdu
          (d'.encryptedProvisioningDataWithMic cr env.source))]) ∧
      PhoneAt call net id .encryptedData d' m' ∧
      m'.provisioningCapabilities = m.provisioningCapabilities ∧
      d' = { d with
        deviceRandom := octets
        deviceKey := { d with deviceRandom := octets }.deviceKeyOfCalculateKeys cr } := by
  have hhandled : ∃ m' d', Step.random.handled cr env ⟨.random, octets⟩ (m.cancel .random) =
        (m', [.sent (encryptedDataWithMicPdu
          (d'.encryptedProvisioningDataWithMic cr env.source))]) ∧
      PhoneAt call net id .encryptedData d' m' ∧
      m'.provisioningCapabilities = m.provisioningCapabilities ∧
      d' = { d with
        deviceRandom := octets
        deviceKey := { d with deviceRandom := octets }.deviceKeyOfCalculateKeys cr } := by
    unfold Step.handled SigProvisioningManager.onRandom
      SigProvisioningManager.sentProvisionEncryptedDataWithMicPdu
    simp only [SigProvisioningManager.onData, SigProvisioningManager.ofData,
      SigProvisioningManager.cancel, SigProvisioningManager.await, h.data, Option.map_some,
      Option.getD_some, Option.mem_def, Option.some.injEq, exists_eq_left', hvalid, if_true]
    exact ⟨_, _, rfl, ⟨rfl, rfl, h.oob, h.address, h.key, h.blocks⟩, rfl, rfl⟩
  obtain ⟨m', d', heq, hrest⟩ := hhandled
  exact ⟨m', d', didDeliverData_handled h.block rfl (decide_eq_true hlen) (by decide) heq, hrest⟩

variable (cr env) in
/-- The phone takes the device's answer to the data. -/
theorem takes_complete (h : PhoneAt call net id .encryptedData d m) :
    ∃ m', m.didDeliverData cr env [8] = (m', [.received ⟨.complete, []⟩,
      .nodeAdded ((d.prepared.map (·.unicastAddress)).getD 0)
        m.provisioningCapabilities.numberOfElements d.deviceKey, .success id]) := by
  refine ⟨_, (didDeliverData_awaited h.block rfl rfl).trans (Prod.ext rfl ?_)⟩
  unfold Step.handled SigProvisioningManager.onComplete SigProvisioningManager.provisionSuccess
  simp only [SigProvisioningManager.ofData, SigProvisioningManager.cancel, h.data, h.blocks,
    Option.map_some, Option.getD_some, Option.bind_some]
  rfl

/-! ### Runs -/

/-- No PDU of an exchange is longer than that of a key. -/
abbrev Short (pdu : List Byte) : Prop := 0 < pdu.length ∧ pdu.length ≤ 65

theorem short_cons {t : Byte} {body : List Byte} {n : Nat} (h : body.length = n) (hn : n ≤ 64) :
    Short (t :: body) :=
  ⟨Nat.succ_pos _, by rw [List.length_cons, h]; exact Nat.succ_le_succ hn⟩

variable (cr C env) in
/-- Runs of short PDUs. -/
abbrev ShortRuns : Nat → Session → Session → Prop :=
  Duplex.Served (phoneTakes cr env) (nodeTakes C) Short Short

theorem ShortRuns.atPhone {p : Provisioning} {n : Provisionee} {pdu : List Byte}
    {ps qs : List (List Byte)} {entries : List Entry} {m' : SigProvisioningManager}
    (h : p.manager.didDeliverData cr env pdu = (m', entries)) (hpdu : Short pdu) {k : Nat}
    {u : Session}
    (hs : ShortRuns cr C env k ⟨⟨m', p.attempt ++ entries⟩, n, ps, qs ++ sentPdus entries⟩ u) :
    ShortRuns cr C env (k + 1) ⟨p, n, pdu :: ps, qs⟩ u := by
  have htakes : phoneTakes cr env p pdu = (⟨m', p.attempt ++ entries⟩, sentPdus entries) := by
    have hoccur : p.manager.occur cr (.deliver pdu env) = (m', entries) := h
    unfold phoneTakes Provisioning.occur
    rw [h, hoccur]
  refine .left rfl hpdu ?_
  unfold Duplex.Pair.serveLeft
  rwa [htakes]

theorem ShortRuns.atNode {p : Provisioning} {n : Provisionee} {pdu : List Byte}
    {ps qs : List (List Byte)} {out : ProvOut} (h : dispatchPbGatt C n.node pdu = (s, out))
    (hpdu : Short pdu) {k : Nat} {u : Session}
    (hs : ShortRuns cr C env k ⟨p, ⟨s, out.installed.or n.installed⟩,
      ps ++ (if out.notify = [] then [] else [out.notify]), qs⟩ u) :
    ShortRuns cr C env (k + 1) ⟨p, n, ps, pdu :: qs⟩ u := by
  have htakes : nodeTakes C n pdu = (⟨s, out.installed.or n.installed⟩,
      if out.notify = [] then [] else [out.notify]) := by
    unfold nodeTakes
    rw [h]
  refine .right rfl hpdu ?_
  unfold Duplex.Pair.serveRight
  rwa [htakes]

theorem short_startPdu (method : AuthenticationMethod) : Short (startPdu method) := by
  cases method <;> decide

theorem filled_of_length {size : Nat} {l : List Byte} (h : l.length = size) :
    filled size l = l := List.take_left' h

variable (node) in
/-- The phone begins with an invite. -/
theorem start_eq (p : Provisioning)
    (hnet : env.source.provisionNet call.networkKey call.netkeyIndex = some net) :
    ∃ m d, start env call p node = ⟨⟨m, [.sent (invitePdu 0)]⟩, ⟨node, none⟩, [], [invitePdu 0]⟩ ∧
      PhoneAt call net p.manager.calls .getCapabilities d m ∧ d.confirmationInputs = [0] := by
  unfold start Provisioning.start SigProvisioningManager.provision
  simp only [hnet]
  exact ⟨_, _, rfl, ⟨rfl, rfl, rfl, rfl, rfl, rfl⟩, rfl⟩

/-- The network data of a call, as the device keeps it. -/
def netInfoOf (env : Surroundings) (net : SigIndexedNetkeyModel) (call : ProvisionCall) :
    List Byte :=
  netInfoBytes env.source.curNetKey net.index (env.source.flagsOf net)
    (net.getIvIndex env.source.ivIndex).index call.unicastAddress

/-- The device has the network data, and the phone has added it with the same device key. -/
structure Provisioned (env : Surroundings) (net : SigIndexedNetkeyModel) (call : ProvisionCall)
    (id : Nat) (node : ProvNode) (q : Session) : Prop where
  installed : q.right.installed = some (netInfoOf env net call)
  mode : q.right.node.gattMode = .proxy
  added : .nodeAdded call.unicastAddress node.provOob.capa.eleNum q.right.node.devKey ∈
    q.left.attempt
  success : .success id ∈ q.left.attempt

/-- What the device decrypts of the phone's data. -/
theorem decrypts_data (hsame : SameCrypto cr C node) (hkey : env.source.curNetKey.length = 16)
    (hprepared : d.prepared = some (.prepareWithNetwork env.source net call.unicastAddress))
    (key nonce : List Byte) (hkeys : key = d.sessionKey cr ∧ nonce.drop 3 = d.sessionNonce cr) :
    (d.encryptedProvisioningDataWithMic cr env.source).length = 33 ∧
      (meshProvSecMsgDec C key (nonce.drop 3)
        (d.encryptedProvisioningDataWithMic cr env.source)).2.take 25 = netInfoOf env net call := by
  have hplain : (SigProvisioningData.prepareWithNetwork env.source net
      call.unicastAddress).mData env.source = netPlaintext env.source.curNetKey net.index
        (env.source.flagsOf net) (net.getIvIndex env.source.ivIndex).index call.unicastAddress :=
    rfl
  have hdata : d.encryptedProvisioningDataWithMic cr env.source = cr.calculateCCM
      (netPlaintext env.source.curNetKey net.index (env.source.flagsOf net)
        (net.getIvIndex env.source.ivIndex).index call.unicastAddress) key (nonce.drop 3) 8 [] := by
    unfold SessionData.encryptedProvisioningDataWithMic
    rw [hprepared, hkeys.1, hkeys.2, ← hplain]
    rfl
  have hlen := length_netPlaintext hkey net.index (env.source.flagsOf net)
    (net.getIvIndex env.source.ivIndex).index call.unicastAddress
  rw [hdata]
  refine ⟨by rw [cr.length_calculateCCM, hlen], ?_⟩
  have hdec := hsame.decrypts key (nonce.drop 3) (netPlaintext env.source.curNetKey net.index
    (env.source.flagsOf net) (net.getIvIndex env.source.ivIndex).index call.unicastAddress)
  rw [hlen] at hdec
  unfold meshProvSecMsgDec
  dsimp only
  rw [take_swapAt (by decide), take_swapAt (by decide), hdec]
  exact swapAt_netPlaintext hkey ..

theorem method_of_compare {o : MeshProvOob} (h : compareCapaWithStart o = true) :
    o.provKey = o.start.authMeth := by
  by_contra hne
  unfold compareCapaWithStart at h
  rw [if_pos hne, ite_self] at h
  exact Bool.false_ne_true h

/-- A device with static data refuses a start without. -/
theorem static_of_accepts {o : MeshProvOob} {call : ProvisionCall}
    (h : (dispatchStartCmdReliable (startPdu (methodOf call (capaOctets o.capa))) o).2 = true)
    (hstatic : (SigProvisioningResponse.mk .capabilities
      (capaOctets o.capa)).capabilities.staticOobInformationAvailable = true) :
    call.staticOobData ≠ none := by
  intro hnone
  have hmethod : methodOf call (capaOctets o.capa) = .noOob := by
    unfold methodOf
    rw [hnone]
    exact if_neg fun hboth => Bool.false_ne_true hboth.2
  have hbit : o.capa.staticOobType.getLsbD 0 = true := hstatic
  have htype : o.capa.staticOobType ≠ 0 := by
    intro hzero
    rw [hzero] at hbit
    exact absurd hbit (by decide)
  rw [hmethod] at h
  have hkey : getPubkeyOobInfoByCapa o = { o with provKey := meshStaticOob } := by
    unfold getPubkeyOobInfoByCapa
    rw [if_pos htype]
  unfold dispatchStartCmdReliable at h
  rw [hkey] at h
  have hmeth : meshStaticOob = meshNoOob := method_of_compare h
  exact absurd hmeth (by decide)

/-- What a session begins with. -/
structure Setting (cr : ProvisioningCrypto) (C : ProvCrypto) (env : Surroundings)
    (call : ProvisionCall) (net : SigIndexedNetkeyModel) (node : ProvNode) : Prop where
  net : env.source.provisionNet call.networkKey call.netkeyIndex = some net
  isOpen : env.isOpen = true
  address : isUnicastAdr call.unicastAddress.toNat = true
  key : env.source.curNetKey.length = 16
  random : env.random.length = 16
  crypto : SameCrypto cr C node
  waits : Waits node

/-- The device takes the start PDU that the phone chooses. -/
def Accepts (call : ProvisionCall) (node : ProvNode) : Prop :=
  (dispatchStartCmdReliable (startPdu (methodOf call (capaOctets node.provOob.capa)))
    node.provOob).2 = true

instance (call : ProvisionCall) (node : ProvNode) : Decidable (Accepts call node) :=
  inferInstanceAs (Decidable (_ = true))

/-- Both sides authenticate with the same octets; the phone uses its static data in any case. -/
def SameAuth (call : ProvisionCall) (node : ProvNode) : Prop :=
  call.staticOobData.getD (List.replicate 16 0) =
    authOf node (methodOf call (capaOctets node.provOob.capa))

theorem Setting.address_ne (h : Setting cr C env call net node) : call.unicastAddress ≠ 0 := by
  intro hzero
  have haddress := h.address
  rw [hzero] at haddress
  exact absurd haddress (by decide)

variable (node method) in
theorem length_transcript (h : cr.publicKeyData.length = 64) :
    (transcript cr node method).length = 145 := by
  unfold transcript
  rw [List.length_append, List.length_append, h, Vector.length_toList]
  rfl

/-- Both keys are known, and the phone's confirmation is on its way. -/
structure KeysExchanged (cr : ProvisioningCrypto) (env : Surroundings) (call : ProvisionCall)
    (net : SigIndexedNetkeyModel) (id : Nat) (node : ProvNode) (method : AuthenticationMethod)
    (m : SigProvisioningManager) (d : SessionData) (s : ProvNode) : Prop where
  phone : PhoneAt call net id .confirmation d m
  device : NodeAt node .devPubKey (transcript cr node method) s
  key : read s.devInput 0x11 64 = cr.publicKeyData
  start : s.provOob.start = startOfPdu (startPdu method)
  auth : s.devAuth = node.devAuth
  elements : m.provisioningCapabilities.numberOfElements = node.provOob.capa.eleNum
  inputs : d.confirmationInputs = transcript cr node method
  secret : d.sharedSecret = cr.getSharedSecret node.publicKey.toList
  authValue : d.authValue = authOf node method
  random : d.provisionerRandom = env.random
  prepared : d.prepared = some (.prepareWithNetwork env.source net call.unicastAddress)

/-- **The first half**, up to the keys. -/
theorem runs_keys (h : Setting cr C env call net node) (haccepts : Accepts call node)
    (hauth : SameAuth call node) (p : Provisioning) :
    ∃ m d s attempt, KeysExchanged cr env call net p.manager.calls node
        (methodOf call (capaOctets node.provOob.capa)) m d s ∧
      ShortRuns cr C env 5 (start env call p node) ⟨⟨m, attempt⟩, ⟨s, none⟩, [],
        [proConfirm :: d.provisionerConfirmation cr]⟩ := by
  obtain ⟨m₀, d₀, hbegin, hp₀, hinputs₀⟩ := start_eq node p h.net
  obtain ⟨s₁, hinvite, hs₁, hoob₁, hauth₁⟩ := takes_invite (C := C) h.waits
  obtain ⟨m₁, d₁, hcapa, hp₁, hcaps, hinputs₁, hrandom₁, hprepared₁⟩ :=
    sends_publicKey cr (capaOctets node.provOob.capa) hp₀ h.isOpen h.address_ne
      (length_capaOctets _) fun hstatic hnone => absurd hnone (static_of_accepts haccepts hstatic)
  have hpublicKey : publicKeyPdu cr.publicKeyData = proPubKey :: cr.publicKeyData :=
    congrArg _ (filled_of_length h.crypto.keyLength)
  unfold Accepts at haccepts
  unfold SameAuth at hauth
  generalize methodOf call (capaOctets node.provOob.capa) = method
    at haccepts hcapa hauth hinputs₁ ⊢
  rw [hpublicKey] at hcapa hinputs₁
  obtain ⟨s₂, hstart, hs₂, hstart₂, hauth₂⟩ := takes_start (C := C) hs₁ hoob₁ haccepts
  obtain ⟨s₃, hkey, hs₃, hread₃, hoob₃, hauth₃⟩ :=
    takes_pubKey hs₂ rfl h.crypto.keyLength h.crypto.keyValid
  obtain ⟨m₂, d₂, hconfirm, hp₂, hcaps₂, hinputs₂, hsecret₂, hauthValue, hrandom₂, hprepared₂⟩ :=
    sends_confirmation cr env node.publicKey.toList hp₁
      h.crypto.noSecret (List.ne_nil_of_length_pos (by rw [Vector.length_toList]; decide))
  have hinputs : d₂.confirmationInputs = transcript cr node method := by
    rw [hinputs₂, hinputs₁, hinputs₀]
    rfl
  have hconfirmation : confirmationPdu (d₂.provisionerConfirmation cr) =
      proConfirm :: d₂.provisionerConfirmation cr :=
    congrArg _ (filled_of_length (h.crypto.cmacLength _ _))
  rw [hconfirmation] at hconfirm
  have hdevKey : Short (proPubKey :: node.publicKey.toList) :=
    short_cons Vector.length_toList (Nat.le_refl 64)
  rw [hbegin]
  refine ⟨m₂, d₂, s₃, ?attempt, ⟨hp₂, hs₃, hread₃, ?_, ?_, ?_, hinputs, hsecret₂, ?_, ?_, ?_⟩,
    ?run⟩
  case run =>
    refine .atNode hinvite (by decide) ?_
    refine .atPhone hcapa (short_cons (length_capaOctets _) (by decide)) ?_
    refine .atNode hstart (short_startPdu method) ?_
    refine .atNode hkey (short_cons h.crypto.keyLength (by decide)) ?_
    refine .atPhone hconfirm hdevKey ?_
    exact .nil _
  · exact (congrArg MeshProvOob.start hoob₃).trans hstart₂
  · exact hauth₃.trans (hauth₂.trans hauth₁)
  · rw [hcaps₂, hcaps]
    rfl
  · exact hauthValue.trans hauth
  · exact hrandom₂.trans hrandom₁
  · exact hprepared₂.trans hprepared₁

/-- Both sides compute the same confirmations. -/
theorem KeysExchanged.confirmation_eq {id : Nat}
    (hk : KeysExchanged cr env call net id node method m d s) (hsame : SameCrypto cr C node)
    (random : List Byte) :
    C.confirmation (transcript cr node method) (cr.getSharedSecret node.publicKey.toList) random
      (authOf node method) = d.calculateConfirmation cr random d.authValue := by
  rw [hsame.confirmation, ← hk.authValue, ← hk.secret, ← hk.inputs]
  rfl

theorem authOf_ne_nil (h : Waits node) (method : AuthenticationMethod) :
    authOf node method ≠ [] := by
  cases method with
  | noOob => exact List.cons_ne_nil _ _
  | staticOob => exact List.ne_nil_of_length_pos (h.auth ▸ by decide)

/-- **The second half**: confirmations, randoms and data. -/
theorem runs_data (h : Setting cr C env call net node) {id : Nat}
    (hk : KeysExchanged cr env call net id node method m d s) (attempt : List Entry) :
    ∃ q : Session, q.Quiet ∧ Provisioned env net call id node q ∧
      ShortRuns cr C env 6 ⟨⟨m, attempt⟩, ⟨s, none⟩, [],
        [proConfirm :: d.provisionerConfirmation cr]⟩ q := by
  have hlen := length_transcript node method h.crypto.keyLength
  have hcheck := hk.confirmation_eq h.crypto
  obtain ⟨s₄, hanswer, hs₄, hconfirm₄⟩ := takes_confirm (C := C)
    (d.provisionerConfirmation cr) hk.device hlen hk.key hk.start hk.auth
    (h.crypto.cmacLength _ _) h.crypto.secret (hcheck node.devRandom)
  obtain ⟨m₃, hrandom, hp₃, hcaps₃⟩ := sends_random cr env
    (d.calculateConfirmation cr node.devRandom d.authValue) hk.phone (h.crypto.cmacLength _ _)
  have hrandomPdu : randomPdu d.provisionerRandom = proRandom :: env.random := by
    rw [hk.random]
    exact congrArg _ (filled_of_length h.random)
  obtain ⟨s₅, hopen, hs₅, hrandom₅⟩ := takes_random (C := C) hs₄ hlen
    h.random (by
      rw [hconfirm₄, hcheck, ← hk.random]
      rfl)
  obtain ⟨m₄, d₄, hdata, hp₄, hcaps₄, hd₄⟩ := sends_data cr env hp₃
    h.waits.random (by
      unfold SessionData.validateConfirmation
      refine decide_eq_true ⟨?_, ?_, ?_, rfl⟩
      · exact List.ne_nil_of_length_pos (h.waits.random ▸ by decide)
      · exact hk.authValue ▸ authOf_ne_nil h.waits method
      · exact hk.secret ▸ h.crypto.noSecret)
  have hdevRandom : d₄.deviceRandom = node.devRandom := by rw [hd₄]
  have hinputs₄ : d₄.confirmationInputs = transcript cr node method := by rw [hd₄, hk.inputs]
  have hsecret₄ : d₄.sharedSecret = cr.getSharedSecret node.publicKey.toList := by
    rw [hd₄, hk.secret]
  have hrandom₄ : d₄.provisionerRandom = env.random := by rw [hd₄, hk.random]
  have hprepared₄ : d₄.prepared =
      some (.prepareWithNetwork env.source net call.unicastAddress) := by
    rw [hd₄, hk.prepared]
  obtain ⟨hlen₃₃, hplain⟩ := decrypts_data h.crypto h.key hprepared₄
    (C.sessionKey (transcript cr node method) (cr.getSharedSecret node.publicKey.toList) env.random
      node.devRandom).1
    (C.sessionKey (transcript cr node method) (cr.getSharedSecret node.publicKey.toList) env.random
      node.devRandom).2 (by
    rw [h.crypto.session, ← hinputs₄, ← hsecret₄, ← hrandom₄, ← hdevRandom]
    exact ⟨rfl, rfl⟩)
  have hdataPdu : encryptedDataWithMicPdu (d₄.encryptedProvisioningDataWithMic cr env.source) =
      proData :: d₄.encryptedProvisioningDataWithMic cr env.source :=
    congrArg _ (filled_of_length hlen₃₃)
  have hunicast : isUnicastAdr (netInfoUnicast (netInfoOf env net call)) = true := by
    unfold netInfoOf
    rw [netInfoUnicast_netInfoBytes h.key]
    exact h.address
  obtain ⟨s₆, hinstall, -, hmode, hdevKey⟩ :=
    takes_data hs₅ hlen hrandom₅ hlen₃₃ hplain hunicast
  obtain ⟨m₅, hcomplete⟩ := takes_complete cr env hp₄
  rw [hrandomPdu] at hrandom
  rw [hdataPdu] at hdata
  have hkeys : s₆.devKey = d₄.deviceKey := by
    rw [hdevKey, h.crypto.devKey, h.crypto.salt, ← hinputs₄, ← hsecret₄, ← hrandom₄, ← hdevRandom,
      hd₄]
    rfl
  have hadded : (d₄.prepared.map (·.unicastAddress)).getD 0 = call.unicastAddress := by
    rw [hprepared₄]
    rfl
  rw [hadded, hcaps₄, hcaps₃, hk.elements, ← hkeys] at hcomplete
  refine ⟨_, ⟨rfl, rfl⟩, ⟨rfl, hmode, ?_, ?_⟩, 
    .atNode hanswer (short_cons (h.crypto.cmacLength _ _) (by decide)) <|
      .atPhone hrandom (short_cons (h.crypto.cmacLength _ _) (by decide)) <|
        .atNode hopen (short_cons h.random (by decide)) <|
          .atPhone hdata (short_cons h.waits.random (by decide)) <|
            .atNode hinstall (short_cons hlen₃₃ (by decide)) <|
              .atPhone hcomplete (by decide : Short [proComplete]) <| .nil _⟩
  all_goals exact List.mem_append_right _ (by simp)

/-- Both halves. -/
theorem runs_provisioned (h : Setting cr C env call net node) (haccepts : Accepts call node)
    (hauth : SameAuth call node) (p : Provisioning) :
    ∃ q : Session, q.Quiet ∧ Provisioned env net call p.manager.calls node q ∧
      ShortRuns cr C env 11 (start env call p node) q := by
  obtain ⟨m, d, s, attempt, hk, hfirst⟩ := runs_keys h haccepts hauth p
  obtain ⟨q, hquiet, hdone, hsecond⟩ := runs_data h hk attempt
  exact ⟨q, hquiet, hdone, hfirst.append hsecond⟩

/-- **Provisioning completes**, whichever side is served first: no run delivers more than eleven
PDUs, and every run can be continued to the one end, where the device has the phone's network data
and both have the same device key. -/
theorem provisioned (h : Setting cr C env call net node) (haccepts : Accepts call node)
    (hauth : SameAuth call node) (p : Provisioning) :
    ∃ q : Session, q.Quiet ∧ Provisioned env net call p.manager.calls node q ∧
      ∀ k t, Runs cr C env k (start env call p node) t → k ≤ 11 ∧ Runs cr C env (11 - k) t q := by
  obtain ⟨q, hquiet, hdone, hruns⟩ := runs_provisioned h haccepts hauth p
  exact ⟨q, hquiet, hdone, fun k t hrun => hruns.steps.completes hquiet hrun⟩

/-- A device with the primitives of the phone. -/
def deviceCrypto (cr : ProvisioningCrypto) (secret : List Byte) : ProvCrypto where
  eccValidPublicKey _ := true
  dhkey _ _ := secret
  confirmation inputs secret random auth := cr.calculateCMAC (random ++ auth)
    (cr.calculateK1 secret (cr.calculateSalt inputs) [0x70, 0x72, 0x63, 0x6B])
  salt inputs random devRandom :=
    cr.calculateSalt (cr.calculateSalt inputs ++ random ++ devRandom)
  sessionKey inputs secret random devRandom :=
    (cr.calculateK1 secret (cr.calculateSalt (cr.calculateSalt inputs ++ random ++ devRandom))
        [0x70, 0x72, 0x73, 0x6B],
      cr.calculateK1 secret (cr.calculateSalt (cr.calculateSalt inputs ++ random ++ devRandom))
        [0x70, 0x72, 0x73, 0x6E])
  devKey salt secret := cr.calculateK1 secret salt [0x70, 0x72, 0x64, 0x6B]
  msgDec _ _ data := (0, data)

def phoneCall : ProvisionCall := ⟨2, List.replicate 16 0xAA, 0, none⟩

def phoneEnv : Surroundings := ⟨true, false, phoneSource, List.replicate 16 3⟩

/-- The phone with a device that has the capabilities. -/
theorem setting_sample (capa : ProTransCapa) :
    Setting sumCrypto (deviceCrypto sumCrypto (List.replicate 32 0x11)) phoneEnv phoneCall
      ⟨⟨some (List.replicate 32 'A'), none, .normalOperation, none⟩, 0⟩
      { freshDevice with provOob := { freshDevice.provOob with capa } } where
  net := by decide +kernel
  isOpen := rfl
  address := rfl
  key := by decide +kernel
  random := rfl
  crypto :=
    { keyLength := rfl
      keyValid := rfl
      secret := rfl
      noSecret := List.cons_ne_nil _ _
      confirmation := fun _ _ _ _ => rfl
      cmacLength := fun _ _ => rfl
      salt := fun _ _ _ => rfl
      session := fun _ _ _ _ => rfl
      devKey := fun _ _ => rfl
      decrypts := fun _ _ _ => List.take_left }
  waits := ⟨rfl, GattMode.noConfusion, rfl, rfl, rfl, rfl⟩

theorem provisioned_sample :
    ∃ q : Session, q.Quiet ∧ q.right.installed ≠ none ∧ Runs sumCrypto
      (deviceCrypto sumCrypto (List.replicate 32 0x11)) phoneEnv 11
      (start phoneEnv phoneCall .initial freshDevice) q := by
  obtain ⟨q, hquiet, hdone, hall⟩ := provisioned (setting_sample freshDevice.provOob.capa)
    (by decide +kernel : Accepts phoneCall freshDevice) rfl .initial
  exact ⟨q, hquiet, by rw [hdone.installed]; exact Option.some_ne_none _, (hall 0 _ (.nil _)).2⟩

/-! ### A start that is refused -/

/-- What the phone saw and did stays, and so does an installation. -/
theorem runs_grow {k : Nat} {t q : Session} (h : Runs cr C env k t q) :
    t.left.attempt ⊆ q.left.attempt ∧ (q.right.installed = none → t.right.installed = none) := by
  induction h with
  | nil t => exact ⟨List.Subset.refl _, fun hnone => hnone⟩
  | cons hstep _ ih =>
    cases hstep with
    | left => exact ⟨fun e he => ih.1 (List.mem_append_left _ he), ih.2⟩
    | right => exact ⟨ih.1, fun hnone => (Option.or_eq_none_iff.mp (ih.2 hnone)).2⟩

theorem refuses_start (h : NodeAt node .devCapa (0 :: capaOctets node.provOob.capa) s)
    (hoob : s.provOob = node.provOob)
    (hno : (dispatchStartCmdReliable (startPdu method) node.provOob).2 = false) :
    ∃ s', dispatchPbGatt C s (startPdu method) = (s', { notify := [proFail, unexpectedPdu] }) ∧
      s'.provisonRcvState = .linkUnprovision := by
  have hdispatch : dispatchPbGatt C s (startPdu method) =
      provFailCmdProc
        { s with provOob := (dispatchStartCmdReliable (startPdu method) node.provOob).1 }
        unexpectedPdu := by
    obtain ⟨htype, hcheck⟩ := header_ok proStart (startPdu method).tail 5 (by decide) rfl
      (by decide)
    change dispatchPbGatt C s (proStart :: (startPdu method).tail) = _
    unfold dispatchPbGatt
    rw [htype, hcheck, h.state]
    change rcvStart s (startPdu method) = _
    unfold rcvStart
    rw [hoob, ← Prod.eta (dispatchStartCmdReliable (startPdu method) node.provOob), hno]
    rfl
  exact ⟨_, hdispatch, rfl⟩

/-- A key without a session is left alone. -/
theorem leaves_key {key : List Byte} (h : s.provisonRcvState = .linkUnprovision)
    (hkey : key.length = 64) : dispatchPbGatt C s (proPubKey :: key) = (s, {}) := by
  obtain ⟨htype, hcheck⟩ := header_ok proPubKey _ _ (by decide) hkey (by decide)
  unfold dispatchPbGatt
  rw [htype, hcheck, h]
  rfl

/-- The attempt is over, and its disconnect is to report the failure. -/
structure Failed (id : Nat) (m : SigProvisioningManager) : Prop where
  data : m.provisioningData = none
  reports : (m.stopMeshConnectComplete).2 = [.fail id]

theorem failed_setStateFail (h : m.blocks = some id) : Failed id m.setStateFail := by
  refine ⟨rfl, ?_⟩
  unfold SigProvisioningManager.stopMeshConnectComplete SigProvisioningManager.setStateFail
    SigProvisioningManager.reset
  rw [if_neg (Nat.succ_ne_zero _), h]
  rfl

variable (cr env) in
theorem takes_failed (h : PhoneAt call net id step d m) (hne : step ≠ .encryptedData) :
    ∃ m', m.didDeliverData cr env [9, 3] = (m', [.received ⟨.failed, [3]⟩]) ∧ Failed id m' := by
  have hresponse : (SigProvisioningResponse.initWithData [9, 3]).filter (·.isValid) =
      some ⟨.failed, [3]⟩ := rfl
  unfold SigProvisioningManager.didDeliverData
  rw [hresponse]
  dsimp only
  unfold SigProvisioningManager.callResponseBlock
  rw [h.block]
  dsimp only
  rw [SigProvisioningManager.respond_failed fun r hr => by cases hr; rfl]
  refine ⟨_, rfl, ?_⟩
  unfold SigProvisioningManager.failed SigProvisioningManager.handlerLeft
  rw [if_neg hne]
  exact failed_setStateFail (h.cancel step).blocks

variable (cr) in
/-- The phone has no static data and may not do without. -/
theorem refuses_capabilities (h : PhoneAt call net id .getCapabilities d m)
    (haddress : call.unicastAddress ≠ 0) (hlen : octets.length = 11)
    (hstatic : (SigProvisioningResponse.mk .capabilities
      octets).capabilities.staticOobInformationAvailable = true)
    (hnone : call.staticOobData = none) (hno : env.addStaticOOBDevcieByNoOOBEnable = false) :
    ∃ m', m.didDeliverData cr env (1 :: octets) = (m', [.received ⟨.capabilities, octets⟩]) ∧
      Failed id m' := by
  have hhandled : ∃ m', Step.getCapabilities.handled cr env ⟨.capabilities, octets⟩
      (m.cancel .getCapabilities) = (m', []) ∧ Failed id m' := by
    unfold Step.handled SigProvisioningManager.onCapabilities
    simp only [SigProvisioningManager.onData, SigProvisioningManager.cancel, h.address, haddress,
      h.oob, hnone, hno, hstatic, if_true, if_false, Bool.false_eq_true]
    exact ⟨_, rfl, failed_setStateFail h.blocks⟩
  obtain ⟨m', heq, hfailed⟩ := hhandled
  exact ⟨m', didDeliverData_handled h.block rfl (decide_eq_true hlen) (by decide) heq, hfailed⟩

/-- **A start that is refused ends the attempt**, whichever side is served first: no run installs
anything or calls back with success, and every run can be continued to an end where the phone is to
report the failure. -/
theorem refused (h : Setting cr C env call net node) (hrefuses : ¬ Accepts call node)
    (p : Provisioning) :
    ∃ n q, q.Quiet ∧ Failed p.manager.calls q.left.manager ∧
      ∀ k t, Runs cr C env k (start env call p node) t → k ≤ n ∧ Runs cr C env (n - k) t q ∧
        t.right.installed = none ∧ ∀ id, .success id ∉ t.left.attempt := by
  have hend : ∃ n q, q.Quiet ∧ Failed p.manager.calls q.left.manager ∧
      q.right.installed = none ∧ (∀ id, .success id ∉ q.left.attempt) ∧
      ShortRuns cr C env n (start env call p node) q := by
    obtain ⟨m₀, d₀, hbegin, hp₀, -⟩ := start_eq node p h.net
    obtain ⟨s₁, hinvite, hs₁, hoob₁, -⟩ := takes_invite (C := C) h.waits
    rw [hbegin]
    by_cases hphone : (SigProvisioningResponse.mk .capabilities
        (capaOctets node.provOob.capa)).capabilities.staticOobInformationAvailable = true ∧
        call.staticOobData = none ∧ env.addStaticOOBDevcieByNoOOBEnable = false
    · obtain ⟨m₁, hcapa, hfailed⟩ := refuses_capabilities cr hp₀ h.address_ne
        (length_capaOctets _) hphone.1 hphone.2.1 hphone.2.2
      exact ⟨2, _, ⟨rfl, rfl⟩, hfailed, rfl, by simp,
        .atNode hinvite (by decide) <|
          .atPhone hcapa (short_cons (length_capaOctets _) (by decide)) <| .nil _⟩
    · obtain ⟨m₁, d₁, hcapa, hp₁, -⟩ := sends_publicKey cr
        (capaOctets node.provOob.capa) hp₀ h.isOpen h.address_ne (length_capaOctets _)
        fun hstatic hnone => by
          by_contra hno
          exact hphone ⟨hstatic, hnone, Bool.eq_false_iff.mpr hno⟩
      have hpublicKey : publicKeyPdu cr.publicKeyData = proPubKey :: cr.publicKeyData :=
        congrArg _ (filled_of_length h.crypto.keyLength)
      rw [hpublicKey] at hcapa
      obtain ⟨s₂, hstart, hs₂⟩ := refuses_start (C := C) hs₁ hoob₁ (Bool.eq_false_iff.mpr hrefuses)
      obtain ⟨m₂, hfail, hfailed⟩ := takes_failed cr env hp₁ (by decide)
      exact ⟨5, _, ⟨rfl, rfl⟩, hfailed, rfl, by simp,
        .atNode hinvite (by decide) <|
          .atPhone hcapa (short_cons (length_capaOctets _) (by decide)) <|
          .atNode hstart (short_startPdu _) <|
            .atNode (leaves_key hs₂ h.crypto.keyLength)
              (short_cons h.crypto.keyLength (by decide)) <|
              .atPhone hfail (by decide) <| .nil _⟩
  obtain ⟨n, q, hquiet, hfailed, hnone, hno, hruns⟩ := hend
  refine ⟨n, q, hquiet, hfailed, fun k t hrun => ?_⟩
  obtain ⟨hle, hrest⟩ := hruns.steps.completes hquiet hrun
  obtain ⟨hattempt, hinstalled⟩ := runs_grow hrest
  exact ⟨hle, hrest, hinstalled hnone, fun id hid => hno id (hattempt hid)⟩

/-- A device whose public key goes another way. -/
theorem refused_sample :
    ∃ n q, Duplex.Pair.Quiet q ∧ Runs sumCrypto
      (deviceCrypto sumCrypto (List.replicate 32 0x11)) phoneEnv n
      (start phoneEnv phoneCall .initial { freshDevice with
        provOob := { freshDevice.provOob with
          capa := { freshDevice.provOob.capa with pubKeyType := 1 } } }) q := by
  obtain ⟨n, q, hquiet, -, hall⟩ := refused
    (setting_sample { freshDevice.provOob.capa with pubKeyType := 1 })
    (by decide +kernel) .initial
  exact ⟨n, q, hquiet, (hall 0 _ (.nil _)).2.1⟩

end EndToEnd

end PirMesh
