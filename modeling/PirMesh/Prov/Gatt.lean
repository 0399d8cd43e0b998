import PirMesh.Library.Reassembly
import PirMesh.Prov.PbAdv

/-! # Prov — The provisioning protocol of a device on the GATT bearer

A provisioner sends an invite, a start, its public key, a confirmation, a random and
the provisioning data, and the device answers each.  `dispatch_pb_gatt` takes one PDU
by the state `provison_rcv_state` is in.  The confirmation commits the provisioner to
its random: it is a value of the random, the shared secret and `dev_input`, the octets
exchanged so far.

The functions of the crypto library are parameters. -/

namespace PirMesh

open Nor Reassembly

/-! ### Constants -/

def proInvite : Byte := 0

def proStart : Byte := 2

def proPubKey : Byte := 3

def proConfirm : Byte := 5

def proRandom : Byte := 6

def proData : Byte := 7

def proComplete : Byte := 8

def proFail : Byte := 9

def proRecList : Byte := 13

def invalidPdu : Byte := 1

def invalidFormat : Byte := 2

def unexpectedPdu : Byte := 3

/-- `MESH_NO_OOB`, `MESH_STATIC_OOB`, `MESH_OUTPUT_OOB`, `MESH_INPUT_OOB`. -/
def meshNoOob : Byte := 0

def meshStaticOob : Byte := 1

def meshOutputOob : Byte := 2

def meshInputOob : Byte := 3

def meshOutActBlink : Byte := 0

/-! ### Data -/

/-- The states the GATT bearer goes through; `other` are those of the advertising bearer. -/
inductive ProvRcvState
  | linkUnprovision
  | devCapa
  | proStart
  | devPubKey
  | devConfirm
  | devRandom
  | proSuc
  | other
  deriving DecidableEq, Repr

inductive GattMode
  | advNormal
  | provision
  | proxy
  deriving DecidableEq, Repr

structure ProTransCapa where
  eleNum : Byte
  alogrithms : BitVec 16
  pubKeyType : Byte
  staticOobType : Byte
  outPutOobSize : Byte
  outPutOobAct : BitVec 16
  inOobSize : Byte
  inOobAct : BitVec 16

structure ProTransStart where
  alogrithms : Byte
  pubKey : Byte
  authMeth : Byte
  authAct : Byte
  authSize : Byte

structure MeshProvOob where
  capa : ProTransCapa
  start : ProTransStart
  provKey : Byte
  oobOutsize : Byte
  oobOutAct : Byte
  oobInsize : Byte
  oobInAct : Byte

/-- The variables of a device's provisioning. -/
structure ProvNode where
  provisonRcvState : ProvRcvState
  certBaseEn : Bool
  gattMode : GattMode
  proNetInfo : List Byte
  tickCheckComplete : BitVec 32
  devInput : Nat → Byte
  devProComfirm : List Byte
  devComfirm : List Byte
  devEdch : List Byte
  devRandom : List Byte
  proRandom : List Byte
  devAuth : List Byte
  devKey : List Byte
  provOob : MeshProvOob
  provAuthVal : Byte
  provAuthEnFlag : Bool
  publicKey : Vector Byte 64
  privateKey : Vector Byte 32

/-- The functions of the crypto library, over the octets they read. -/
structure ProvCrypto where
  eccValidPublicKey : List Byte → Bool
  dhkey : List Byte → List Byte → List Byte
  confirmation : List Byte → List Byte → List Byte → List Byte → List Byte
  salt : List Byte → List Byte → List Byte → List Byte
  sessionKey : List Byte → List Byte → List Byte → List Byte → List Byte × List Byte
  devKey : List Byte → List Byte → List Byte
  msgDec : List Byte → List Byte → List Byte → Int × List Byte

/-- What a call sends back, the network data it installs, and whether it closes the link. -/
structure ProvOut where
  notify : List Byte := []
  installed : Option (List Byte) := none
  terminate : Bool := false

/-! ### PDUs -/

def provType (p : List Byte) : Byte := p.getD 0 0 &&& 0x3f

/-- The octets behind the header. -/
def provBody (p : List Byte) (len : Nat) : List Byte := (p.drop 1).take len

def provCmdIsValid (opCode : Byte) : Bool := decide (opCode ≤ proRecList)

/-- The sizes of the PDUs; `0` for those a device does not take. -/
def getMeshProStrLen (type : Byte) : Byte :=
  if type = 0 then 2
  else if type = 1 then 12
  else if type = 2 then 6
  else if type = 3 then 65
  else if type = 4 then 1
  else if type = 5 then 17
  else if type = 6 then 17
  else if type = 7 then 34
  else if type = 8 then 1
  else if type = 9 then 2
  else if type = 10 then 7
  else if type = 12 then 1
  else 0

def provCalcCmdLenChk (opCode len : Byte) : Bool := decide (getMeshProStrLen opCode = len)

def bigEndian (v : BitVec 16) : List Byte := [(v >>> 8).setWidth 8, v.setWidth 8]

/-- The capabilities behind the header, with their 16-bit fields swapped. -/
def capaOctets (c : ProTransCapa) : List Byte :=
  [c.eleNum] ++ bigEndian c.alogrithms ++ [c.pubKeyType, c.staticOobType, c.outPutOobSize] ++
    bigEndian c.outPutOobAct ++ [c.inOobSize] ++ bigEndian c.inOobAct

def startOfPdu (p : List Byte) : ProTransStart :=
  ⟨p.getD 1 0, p.getD 2 0, p.getD 3 0, p.getD 4 0, p.getD 5 0⟩

/-! ### The start command -/

def procStartCmdReliable (st : ProTransStart) : Bool :=
  if st.alogrithms ≠ 0 then false
  else if st.pubKey ≥ 2 then false
  else if st.authMeth ≥ 4 then false
  else if st.authMeth = meshNoOob ∨ st.authMeth = meshStaticOob then
    decide (st.authAct = 0 ∧ st.authSize = 0)
  else decide (st.authAct ≤ 4 ∧ st.authSize ≠ 0 ∧ st.authSize ≤ 8)

/-- The lowest action of the capabilities, and the number behind the last for none. -/
def changeCapaActToStartAct (capaAct : BitVec 16) (outFlag : Bool) : Byte :=
  if outFlag then
    if capaAct &&& 1 ≠ 0 then 0
    else if capaAct &&& 2 ≠ 0 then 1
    else if capaAct &&& 4 ≠ 0 then 2
    else if capaAct &&& 8 ≠ 0 then 3
    else if capaAct &&& 16 ≠ 0 then 4
    else 5
  else
    if capaAct &&& 1 ≠ 0 then 0
    else if capaAct &&& 2 ≠ 0 then 1
    else if capaAct &&& 4 ≠ 0 then 2
    else if capaAct &&& 8 ≠ 0 then 3
    else 4

def getPubkeyOobInfoByCapa (o : MeshProvOob) : MeshProvOob :=
  if o.capa.staticOobType ≠ 0 then { o with provKey := meshStaticOob }
  else if 1 ≤ o.capa.outPutOobSize ∧ o.capa.outPutOobSize ≤ 8 then
    { o with
      oobOutsize := o.capa.outPutOobSize
      provKey := meshOutputOob
      oobOutAct := changeCapaActToStartAct o.capa.outPutOobAct true }
  else if 1 ≤ o.capa.inOobSize ∧ o.capa.inOobSize ≤ 8 then
    { o with
      oobInsize := o.capa.inOobSize
      provKey := meshInputOob
      oobInAct := changeCapaActToStartAct o.capa.inOobAct false }
  else if o.capa.inOobSize = 0 ∧ o.capa.outPutOobSize = 0 then { o with provKey := meshNoOob }
  else o

def compareCapaWithStart (o : MeshProvOob) : Bool :=
  if o.capa.pubKeyType ≠ o.start.pubKey then false
  else if o.provKey ≠ o.start.authMeth then false
  else if o.start.authMeth = meshNoOob ∨ o.start.authMeth = meshStaticOob then
    decide (o.start.authAct = 0 ∧ o.start.authSize = 0)
  else if o.start.authMeth = meshOutputOob then
    decide (o.oobOutsize = o.start.authSize ∧ o.oobOutAct = o.start.authAct)
  else if o.start.authMeth = meshInputOob then
    decide (o.oobInsize = o.start.authSize ∧ o.oobInAct = o.start.authAct)
  else true

/-- The start command is taken or not; `prov_oob` keeps it in both cases. -/
def dispatchStartCmdReliable (p : List Byte) (o : MeshProvOob) : MeshProvOob × Bool :=
  if !procStartCmdReliable (startOfPdu p) then (o, false)
  else
    let o := { getPubkeyOobInfoByCapa o with start := startOfPdu p }
    (o, compareCapaWithStart o)

/-! ### Authentication -/

/-- `dev_auth` for the method of the start command, and whether there is one. -/
def meshNodeOobAuthData (s : ProvNode) : ProvNode × Bool :=
  if s.provOob.start.authMeth = meshNoOob then
    ({ s with devAuth := List.replicate 16 0 }, true)
  else if s.provOob.start.authMeth = meshStaticOob then (s, true)
  else if s.provOob.start.authMeth = meshOutputOob then
    if s.provOob.oobOutAct = meshOutActBlink then
      ({ s with devAuth := List.replicate 15 0 ++ [2] }, true)
    else (s, true)
  else if s.provOob.start.authMeth = meshInputOob then
    ({ s with devAuth := List.replicate 15 0 ++ [s.provAuthVal], provAuthEnFlag := false }, true)
  else (s, false)

variable (C : ProvCrypto)

/-- The halves of a key are turned around. -/
def meshCheckPubkeyValid (rcvPpk : List Byte) : Bool :=
  C.eccValidPublicKey ((rcvPpk.take 32).reverse ++ ((rcvPpk.drop 32).take 32).reverse)

/-- Swaps the octets at `i` and `i + 1`. -/
def swapAt (i : Nat) (l : List Byte) : List Byte :=
  (l.set i (l.getD (i + 1) 0)).set (i + 1) (l.getD i 0)

/-- What the check returns, `0` for a right MIC, and the data; the swaps come either way. -/
def meshProvSecMsgDec (key nonce dat : List Byte) : Int × List Byte :=
  let (err, dat) := C.msgDec key nonce dat
  (err, swapAt 23 (swapAt 16 dat))

/-! ### The device -/

def isUnicastAdr (adr : Nat) : Bool := decide (0 < adr ∧ adr < 0x8000)

/-- `unicast_address` of `provison_net_info_str`. -/
def netInfoUnicast (info : List Byte) : Nat := ofLE ((info.drop 23).take 2)

/-- The device after the call and the network data that were installed. -/
def meshProvisionParHandle (s : ProvNode) (info : List Byte) : ProvNode × Option (List Byte) :=
  if isUnicastAdr (netInfoUnicast info) then
    ({ s with gattMode := .proxy, proNetInfo := info }, some info)
  else (s, none)

def ProvNode.isProvisionSuccess (s : ProvNode) : Bool :=
  decide (s.gattMode = .proxy ∨ s.provisonRcvState = .proSuc)

def meshProvisionParaReset (s : ProvNode) : ProvNode :=
  { s with
    provisonRcvState := .linkUnprovision
    gattMode := if s.gattMode ≠ .proxy then .provision else s.gattMode }

def provFailCmdProc (s : ProvNode) (errCode : Byte) : ProvNode × ProvOut :=
  (meshProvisionParaReset s, { notify := [proFail, errCode] })

def provisioneeGattRcvInviteProc (s : ProvNode) (p : List Byte) : ProvNode × ProvOut :=
  let s := meshProvisionParaReset s
  if s.isProvisionSuccess then (s, {})
  else
    let capa := capaOctets s.provOob.capa
    ({ s with
        devInput := copy (copy s.devInput 0 [p.getD 1 0]) 1 capa
        provisonRcvState := .devCapa },
      { notify := proCapabli :: capa })

def rcvStart (s : ProvNode) (p : List Byte) : ProvNode × ProvOut :=
  let (oob, ok) := dispatchStartCmdReliable p s.provOob
  let s := { s with provOob := oob }
  if ok then
    ({ s with
        devInput := copy s.devInput 12 (provBody p 5)
        provisonRcvState := .proStart }, {})
  else provFailCmdProc s unexpectedPdu

def rcvPubKey (s : ProvNode) (p : List Byte) : ProvNode × ProvOut :=
  if !meshCheckPubkeyValid C (provBody p 64) then provFailCmdProc s unexpectedPdu
  else
    ({ s with
        devInput := copy (copy s.devInput 0x11 (provBody p 64)) (0x11 + 0x40) s.publicKey.toList
        provisonRcvState := .devPubKey },
      { notify := if s.certBaseEn then [] else proPubKey :: s.publicKey.toList })

def rcvConfirm (s : ProvNode) (p : List Byte) : ProvNode × ProvOut :=
  let (s, ok) := meshNodeOobAuthData s
  if !ok then (meshProvisionParaReset s, { terminate := true })
  else
    let devEdch := C.dhkey s.privateKey.toList (read s.devInput 0x11 64)
    let devComfirm := C.confirmation (read s.devInput 0 145) devEdch s.devRandom s.devAuth
    ({ s with
        devProComfirm := provBody p 16
        devEdch := devEdch
        devComfirm := devComfirm
        provisonRcvState := .devConfirm },
      { notify := proConfirm :: devComfirm })

def rcvRandom (s : ProvNode) (p : List Byte) : ProvNode × ProvOut :=
  let s := { s with proRandom := provBody p 16 }
  if C.confirmation (read s.devInput 0 145) s.devEdch s.proRandom s.devAuth ≠ s.devProComfirm then
    provFailCmdProc s unexpectedPdu
  else ({ s with provisonRcvState := .devRandom }, { notify := proRandom :: s.devRandom })

/-- The provisioning data decrypted, with what the check of the MIC returns. -/
def decProvData (s : ProvNode) (p : List Byte) : Int × List Byte :=
  let (key, nonce) := C.sessionKey (read s.devInput 0 145) s.devEdch s.proRandom s.devRandom
  meshProvSecMsgDec C key (nonce.drop 3) (provBody p 33)

def rcvData (s : ProvNode) (p : List Byte) : ProvNode × ProvOut :=
  let provSalt := C.salt (read s.devInput 0 145) s.proRandom s.devRandom
  let s := { s with devKey := C.devKey provSalt s.devEdch }
  -- what the check returns is not looked at
  let (_, provNet) := decProvData C s p
  let s := { s with proNetInfo := provNet.take 25 }
  let (s, installed) := meshProvisionParHandle s s.proNetInfo
  ({ meshProvisionParaReset s with provisonRcvState := .proSuc },
    { notify := [proComplete], installed := installed })

/-- A PDU from the GATT bearer. -/
def dispatchPbGatt (s : ProvNode) (p : List Byte) : ProvNode × ProvOut :=
  if !provCmdIsValid (provType p) then provFailCmdProc s invalidPdu
  else if !provCalcCmdLenChk (provType p) (BitVec.ofNat 8 p.length) then
    provFailCmdProc s invalidFormat
  else match s.provisonRcvState with
    | .linkUnprovision =>
      if provType p = proInvite then provisioneeGattRcvInviteProc s p else (s, {})
    | .devCapa => if provType p = proStart then rcvStart s p else provFailCmdProc s unexpectedPdu
    | .proStart =>
      if provType p = proPubKey then rcvPubKey C s p else provFailCmdProc s unexpectedPdu
    | .devPubKey =>
      if provType p = proConfirm then rcvConfirm C s p else provFailCmdProc s unexpectedPdu
    | .devConfirm =>
      if provType p = proRandom then rcvRandom C s p else provFailCmdProc s unexpectedPdu
    | .devRandom =>
      if provType p = proData then rcvData C s p else provFailCmdProc s unexpectedPdu
    | .proSuc | .other => (s, {})

/-- The main loop's call, with `exceeded` when four seconds have gone since the tick. -/
def waitAndCheckCompleteState (s : ProvNode) (exceeded : Bool) : ProvNode × ProvOut :=
  let s := if s.gattMode = .proxy then { s with tickCheckComplete := 0 } else s
  if s.tickCheckComplete ≠ 0 ∧ exceeded then
    let (s, installed) := meshProvisionParHandle { s with tickCheckComplete := 0 } s.proNetInfo
    (meshProvisionParaReset s, { installed := installed })
  else (s, {})

/-! ### Runs -/

/-- A PDU comes, the main loop turns, or the link is lost or times out. -/
inductive ProvEvent
  | pdu (p : List Byte)
  | mainLoop (exceeded : Bool)
  | linkReset

def provStep (s : ProvNode) : ProvEvent → ProvNode × ProvOut
  | .pdu p => dispatchPbGatt C s p
  | .mainLoop exceeded => waitAndCheckCompleteState s exceeded
  | .linkReset => (meshProvisionParaReset s, {})

def provRun (s : ProvNode) (es : List ProvEvent) : ProvNode :=
  es.foldl (fun s e => (provStep C s e).1) s

end PirMesh
