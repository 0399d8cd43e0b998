import PirMesh.Phone.AccessPdu
import PirMesh.Phone.NetworkPduSpec
import PirMesh.Phone.Reassembly

/-! # Phone — An access message from one phone to another (`SigUpperTransportPdu.m`)

The receiver takes the nonce of an access message from its octets and the IV index of its own
network key, whatever index the network PDU was decoded with.  A message with an AID is tried with
the application keys, new and old; one without is tried with the device keys of its source and of
its destination.  The additional data is never that of a virtual label, and an old key counts only
where its AID is that of the new one. -/

namespace PirMesh.UpperTransport

open LibTools LowerTransport
open Nor (Byte)
open NetworkPdu (NetworkCrypto NetkeyObject ValidIndex SharesKeys keyData bigEndian16 bigEndian32)

/-! ### Keys (`SigModel.m`, `OpenSSLHelper.m`) -/

/-- `calculateK4WithN:`. -/
def calculateK4 (cr : NetworkCrypto) (n : List Byte) : Byte :=
  let t := cr.calculateCMAC n (cr.calculateSalt [0x73, 0x6D, 0x6B, 0x34])
  (cr.calculateCMAC [0x69, 0x64, 0x36, 0x01] t).getD 15 0 &&& 0x3F

/-- An application key, with the AIDs that its getters have kept. -/
structure SigAppkeyModel where
  key : Option (List Char)
  oldKey : Option (List Char)
  keptAid : Byte
  keptOldAid : Byte
  deriving DecidableEq

/-- The getters `aid` and `oldAid`. -/
def aidGetter (cr : NetworkCrypto) (kept : Byte) (text : Option (List Char)) : Byte :=
  match text with
  | some (c :: text) => if kept = 0 then calculateK4 cr (nsstringToHex (c :: text)) else kept
  | _ => kept

namespace SigAppkeyModel

variable (cr : NetworkCrypto) (applicationKey : SigAppkeyModel)

def aid : Byte := aidGetter cr applicationKey.keptAid applicationKey.key

def oldAid : Byte := aidGetter cr applicationKey.keptOldAid applicationKey.oldKey

def getDataKey : Option (List Byte) := keyData applicationKey.key

def getDataOldKey : Option (List Byte) := keyData applicationKey.oldKey

end SigAppkeyModel

/-! ### Decryption -/

/-- What a method returns: it may die of an exception, or return nil. -/
inductive Attempt (α : Type) where
  | exception
  | nil
  | found (a : α)
  deriving DecidableEq

namespace Attempt

variable {α : Type}

def orElse : Attempt α → Attempt α → Attempt α
  | nil, next => next
  | attempt, _ => attempt

/-- What was found counts only under a condition. -/
def onlyIf (p : Prop) [Decidable p] : Attempt α → Attempt α
  | found a => if p then found a else nil
  | attempt => attempt

def firstOf : List (Attempt α) → Attempt α
  | [] => nil
  | attempt :: attempts => attempt.orElse (firstOf attempts)

end Attempt

/-- The nonce of an access message. -/
def accessNonce (aid transportMicSize : Byte) (message : SigLowerTransportPdu)
    (index : BitVec 32) : List Byte :=
  let aszmic : Byte := if transportMicSize = 4 then 0 else 1
  [(if aid ≠ 0 then 1 else 2 : Byte), aszmic <<< 7] ++ (bigEndian32 message.sequence).drop 1 ++
    bigEndian16 message.source ++ bigEndian16 message.destination ++ bigEndian32 index

/-- `initFromLowerTransportAccessMessage:key:ivIndex:forVirtualGroup:`: the access PDU.  With less
octets than a MIC has, `subdataWithRange` gets a negative length. -/
def initFromLowerTransportAccessMessage (cr : NetworkCrypto) (aid transportMicSize : Byte)
    (message : SigLowerTransportPdu) (key : List Byte) (index : BitVec 32) : Attempt (List Byte) :=
  let upper := message.upperTransportPdu
  if upper.length < transportMicSize.toNat then .exception
  else
    let encryptedDataSize := upper.length - transportMicSize.toNat
    match cr.calculateDecryptedCCM (upper.take encryptedDataSize) key
      (accessNonce aid transportMicSize message index) (upper.drop encryptedDataSize) with
    | none | some [] => .nil
    | some accessPdu => .found accessPdu

/-- A phone with one network key; `deviceKeys` has the texts of the nodes by their addresses. -/
structure Phone where
  networkKey : NetkeyObject
  ivIndex : SigIvIndex
  /-- Of the local node. -/
  address : Option (BitVec 16)
  appKeys : List SigAppkeyModel
  defaultAppKeyA : Option SigAppkeyModel
  defaultIvIndexA : Option SigIvIndex
  deviceKeys : BitVec 16 → Option (List Char)

namespace Phone

variable (cr : NetworkCrypto) (phone : Phone)

/-- The indexes that a new key is tried with. -/
def indexes : List (BitVec 32) :=
  phone.ivIndex.index :: (phone.defaultIvIndexA.map (·.index)).toList

/-- The index of nil is 0. -/
def oldIndexes : List (BitVec 32) :=
  [phone.ivIndex.index, (phone.defaultIvIndexA.map (·.index)).getD 0]

def applicationKeys : List SigAppkeyModel := phone.appKeys ++ phone.defaultAppKeyA.toList

def deviceKey (address : BitVec 16) : List Byte := (phone.deviceKeys address).elim [] nsstringToHex

section
variable (aid transportMicSize : Byte) (message : SigLowerTransportPdu)

/-- One key under several indexes. -/
def tryKey (indexes : List (BitVec 32)) : Option (List Byte) → Attempt (List Byte)
  | some (b :: key) => .firstOf (indexes.map
      (initFromLowerTransportAccessMessage cr aid transportMicSize message (b :: key)))
  | _ => .nil

/-- One turn of the loop over the application keys. -/
def tryApplicationKey (applicationKey : SigAppkeyModel) : Attempt (List Byte) :=
  ((tryKey cr aid transportMicSize message phone.indexes applicationKey.getDataKey).onlyIf
    (aid = applicationKey.aid cr)).orElse
  ((tryKey cr aid transportMicSize message phone.oldIndexes applicationKey.getDataOldKey).onlyIf
    -- the AID of the message is not asked for
    (applicationKey.oldAid cr = applicationKey.aid cr))

def tryDeviceKey (address : BitVec 16) : Attempt (List Byte) :=
  (initFromLowerTransportAccessMessage cr aid transportMicSize message (phone.deviceKey address)
    phone.ivIndex.index).onlyIf (phone.deviceKey address ≠ [])

/-- `decodeAccessMessage:forMeshNetwork:`. -/
def decodeAccessMessage : Attempt (List Byte) :=
  if aid ≠ 0 then
    .firstOf (phone.applicationKeys.map (phone.tryApplicationKey cr aid transportMicSize message))
  else
    (phone.tryDeviceKey cr aid transportMicSize message message.source).orElse
      (phone.tryDeviceKey cr aid transportMicSize message message.destination)

end

/-! ### Reception -/

/-- What `notifyAboutNewMessage` is given. -/
structure Message where
  source : BitVec 16
  destination : BitVec 16
  opCode : BitVec 32
  parameters : List Byte
  deriving DecidableEq

end Phone

/-- `handleLowerTransportPdu:` and the access layer above it. -/
def Phone.handleLowerTransportPdu (cr : NetworkCrypto) (phone : Phone)
    (message : SigLowerTransportPdu) : Attempt Phone.Message :=
  match message.kind with
  | .control _ => .nil
  | .access aid transportMicSize =>
    match phone.decodeAccessMessage cr aid transportMicSize message with
    | .exception => .exception
    | .nil => .nil
    | .found accessPdu =>
      match SigAccessPdu.initFromUpperTransportPdu accessPdu, phone.address with
      | some pdu, some _ => .found ⟨message.source, message.destination, pdu.opCode, pdu.parameters⟩
      | _, _ => .nil

/-- `handleNetworkPdu:`, up to the access layer. -/
def Phone.handleNetworkPdu (cr : NetworkCrypto) (phone : Phone) (layer : SigLowerTransportLayer)
    (networkPdu : SigNetworkPdu) : SigLowerTransportLayer × Attempt Phone.Message :=
  match layer.handleNetworkPdu phone.address phone.ivIndex.index networkPdu with
  | (layer, some message) => (layer, phone.handleLowerTransportPdu cr message)
  | (layer, none) => (layer, if layer.terminated then .exception else .nil)

/-- `handleIncomingPdu:ofType:` of a network PDU. -/
def Phone.handleIncomingPdu (cr : NetworkCrypto) (phone : Phone) (layer : SigLowerTransportLayer)
    (pdu : List Byte) : SigLowerTransportLayer × Attempt Phone.Message :=
  match NetworkPdu.initWithDecodePduData cr pdu .networkPdu phone.networkKey phone.ivIndex with
  | .exception => (layer, .exception)
  | .nil => (layer, .nil)
  | .pdu networkPdu => phone.handleNetworkPdu cr layer
      { type := networkPdu.type
        sequence := networkPdu.sequence
        source := networkPdu.source
        destination := networkPdu.destination
        transportPdu := networkPdu.transportPdu }

end PirMesh.UpperTransport
