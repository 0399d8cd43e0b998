import PirMesh.Phone.ProvisioningData

/-! # Phone — Provisioner (`SigProvisioningManager.m`, `SigProvisioningData.m`)

One object provisions one device after the other.  What it is waiting for is the block that takes
the next response; PDUs, the timers of the steps and a disconnect all act on it.  A message to nil
does nothing, so the steps also run without provisioning data. -/

namespace PirMesh.Provisioner

open Nor (Byte)
open LowerTransport

/-! ### PDUs (`SigPdu.m`) -/

inductive SigProvisioningPduType where
  | invite | capabilities | start | publicKey | inputComplete | confirmation | random | data
  | complete | failed
  deriving DecidableEq, Repr

namespace SigProvisioningPduType

def toByte : SigProvisioningPduType → Byte
  | invite => 0
  | capabilities => 1
  | start => 2
  | publicKey => 3
  | inputComplete => 4
  | confirmation => 5
  | random => 6
  | data => 7
  | complete => 8
  | failed => 9

/-- The types of a response; an invite is none. -/
def ofByte? (b : Byte) : Option SigProvisioningPduType :=
  [capabilities, start, publicKey, inputComplete, confirmation, random, data, complete,
    failed].find? fun t => decide (t.toByte = b)

end SigProvisioningPduType

/-- A struct that starts as zeros, with the octets copied into it. -/
def filled (size : ℕ) (octets : List Byte) : List Byte :=
  (octets ++ List.replicate size 0).take size

/-- The octets of a PDU, the type first. -/
def pduData (type : SigProvisioningPduType) (octets : List Byte) : List Byte :=
  type.toByte :: octets

def invitePdu (attentionTimer : Byte) : List Byte := pduData .invite [attentionTimer]

inductive AuthenticationMethod where
  | noOob | staticOob
  deriving DecidableEq, Repr

/-- Algorithm, key type, method, action and size. -/
def startPdu (method : AuthenticationMethod) : List Byte :=
  pduData .start [0, 0, match method with | .noOob => 0 | .staticOob => 1, 0, 0]

def publicKeyPdu (publicKey : List Byte) : List Byte := pduData .publicKey (filled 64 publicKey)

def confirmationPdu (confirmation : List Byte) : List Byte :=
  pduData .confirmation (filled 16 confirmation)

def randomPdu (random : List Byte) : List Byte := pduData .random (filled 16 random)

def encryptedDataWithMicPdu (encryptedData : List Byte) : List Byte :=
  pduData .data (filled 33 encryptedData)

structure ProvisioningCapabilities where
  numberOfElements : Byte
  staticOobInformationAvailable : Bool
  deriving DecidableEq, Repr

/-- The octets behind the type are the key, the confirmation, the random or the error. -/
structure SigProvisioningResponse where
  type : SigProvisioningPduType
  octets : List Byte
  deriving DecidableEq, Repr

namespace SigProvisioningResponse

def initWithData : List Byte → Option SigProvisioningResponse
  | [] => none
  | b :: octets =>
    (SigProvisioningPduType.ofByte? b).bind fun type =>
      if type = .failed ∧ (octets.length ≠ 1 ∨ octets = [0]) then none else some ⟨type, octets⟩

variable (response : SigProvisioningResponse)

def isValid : Bool :=
  match response.type with
  | .capabilities => response.octets.length = 11
  | .publicKey | .inputComplete | .complete | .failed => true
  | .confirmation | .random => response.octets.length = 16
  | _ => false

def capabilities : ProvisioningCapabilities :=
  ⟨response.octets.getD 0 0, (response.octets.getD 4 0).getLsbD 0⟩

end SigProvisioningResponse

/-! ### Provisioning data -/

/-- The primitives, with the key pair of the phone. -/
structure ProvisioningCrypto extends OpenSSLHelper where
  calculateSalt (data : List Byte) : List Byte
  calculateK1 (n salt p : List Byte) : List Byte
  calculateCMAC (data key : List Byte) : List Byte
  publicKeyData : List Byte
  getSharedSecret (devicePublicKey : List Byte) : List Byte

/-- What an exchange fills in; a value that is nil has no octets. -/
structure SessionData where
  confirmationInputs : List Byte
  provisionerRandom : List Byte
  provisionerPublicKey : List Byte
  prepared : Option SigProvisioningData
  sharedSecret : List Byte
  authValue : List Byte
  deviceConfirmation : Option (List Byte)
  deviceRandom : List Byte
  deviceKey : List Byte

namespace SessionData

def alloc : SessionData := ⟨[], [], [], none, [], [], none, [], []⟩

variable (cr : ProvisioningCrypto) (d : SessionData)

def accumulatePduData (data : List Byte) : SessionData :=
  { d with confirmationInputs := d.confirmationInputs ++ data }

def provisionerDidObtainWithDevicePublicKey (data : List Byte) : SessionData :=
  if data = [] then d else { d with sharedSecret := cr.getSharedSecret data }

def calculateConfirmation (random authValue : List Byte) : List Byte :=
  cr.calculateCMAC (random ++ authValue) <|
    cr.calculateK1 d.sharedSecret (cr.calculateSalt d.confirmationInputs)
      [0x70, 0x72, 0x63, 0x6B]

def provisionerConfirmation : List Byte :=
  d.calculateConfirmation cr d.provisionerRandom d.authValue

def validateConfirmation : Bool :=
  d.deviceRandom ≠ [] ∧ d.authValue ≠ [] ∧ d.sharedSecret ≠ [] ∧
    d.deviceConfirmation = some (d.calculateConfirmation cr d.deviceRandom d.authValue)

/-- `calculateKeys`: session key (`prsk`), session nonce (`prsn`) and device key (`prdk`) differ in
the last letter. -/
def sessionK1 (letter : Byte) : List Byte :=
  cr.calculateK1 d.sharedSecret
    (cr.calculateSalt (cr.calculateSalt d.confirmationInputs ++ d.provisionerRandom ++
      d.deviceRandom))
    [0x70, 0x72, 0x73, letter]

def sessionKey : List Byte := d.sessionK1 cr 0x6B

def sessionNonce : List Byte := (d.sessionK1 cr 0x6E).drop 3

def deviceKeyOfCalculateKeys : List Byte :=
  cr.calculateK1 d.sharedSecret
    (cr.calculateSalt (cr.calculateSalt d.confirmationInputs ++ d.provisionerRandom ++
      d.deviceRandom))
    [0x70, 0x72, 0x64, 0x6B]

def encryptedProvisioningDataWithMic (source : ProvisioningSource) : List Byte :=
  (d.prepared.map fun prepared =>
    prepared.encryptedProvisioningDataWithMic cr.toOpenSSLHelper (d.sessionKey cr)
      (d.sessionNonce cr) source).getD []

end SessionData

end PirMesh.Provisioner
