import PirMesh.Library.Words
import PirMesh.Phone.LibTools

/-! # Phone — Publication and subscription messages (`SigConfigMessage.m`)

Each class writes its fields as octets (`parameters`) and reads them back
(`initWithParameters`).  A model is two octets, and a vendor model two more in front of
them; the settings of a publication are five octets in all of its messages. -/

namespace PirMesh.ConfigMessage

open Words

abbrev Byte := BitVec 8

/-! ### Values (`SigModel.m`, `SigHelper.m`, `CBUUID+Hex.m`) -/

/-- A UUID of 128 bits. -/
structure CBUUID where
  octet : Fin 16 → Byte

namespace CBUUID

/-- `UUIDWithData:` -/
def uuidWithData (data : List Byte) : CBUUID := ⟨fun i => data.getD i 0⟩

def data (uuid : CBUUID) : List Byte := List.ofFn uuid.octet

/-- Two digits of an octet. -/
def hexOctet (b : Byte) : List Char :=
  [LibTools.hexChar (b.toNat / 16), LibTools.hexChar (b.toNat % 16)]

/-- `UUIDString`: groups of four, two, two, two and six octets. -/
def uuidString (uuid : CBUUID) : List Char :=
  (uuid.data.take 4).flatMap hexOctet ++ '-' :: ((uuid.data.drop 4).take 2).flatMap hexOctet ++
    '-' :: ((uuid.data.drop 6).take 2).flatMap hexOctet ++
    '-' :: ((uuid.data.drop 8).take 2).flatMap hexOctet ++
    '-' :: (uuid.data.drop 10).flatMap hexOctet

/-- The UUID of a text with underscores, which is up to `UUIDWithString:`. -/
def initWithHex (uuidWithString : List Char → Option CBUUID) (hex : List Char) : Option CBUUID :=
  if hex.length ≠ 32 then none
  else uuidWithString (hex.take 8 ++ '_' :: (hex.drop 8).take 4 ++ '_' :: (hex.drop 12).take 4 ++
    '_' :: (hex.drop 16).take 4 ++ '_' :: hex.drop 20)

def getData (uuid : CBUUID) : List Byte := LibTools.nsstringToHex uuid.uuidString

end CBUUID

/-- `LibTools convertDataToHexStr:` -/
def convertDataToHexStr (data : List Byte) : List Char := data.flatMap CBUUID.hexOctet

inductive SigStepResolution
  | hundredsOfMilliseconds
  | seconds
  | tensOfSeconds
  | tensOfMinutes
  deriving DecidableEq, Repr

namespace SigStepResolution

def rawValue : SigStepResolution → Byte
  | hundredsOfMilliseconds => 0b00
  | seconds => 0b01
  | tensOfSeconds => 0b10
  | tensOfMinutes => 0b11

/-- The cast of a value of two bits. -/
def ofRaw (raw : Byte) : SigStepResolution :=
  if raw = 0b00 then hundredsOfMilliseconds
  else if raw = 0b01 then seconds
  else if raw = 0b10 then tensOfSeconds
  else tensOfMinutes

/-- `getPeriodFromSteps:`, which is handed the resolution. -/
def period (steps : SigStepResolution) : BitVec 32 :=
  match steps with
  | hundredsOfMilliseconds => steps.rawValue.setWidth 32 * 100
  | seconds => steps.rawValue.setWidth 32 * 1000
  | tensOfSeconds => steps.rawValue.setWidth 32 * 10000
  | tensOfMinutes => steps.rawValue.setWidth 32 * 600000

end SigStepResolution

structure SigRetransmit where
  count : Byte
  interval : BitVec 16
  deriving DecidableEq, Repr

namespace SigRetransmit

def initWithPublishRetransmitCount (publishRetransmitCount intervalSteps : Byte) : SigRetransmit :=
  ⟨publishRetransmitCount, (intervalSteps.setWidth 16 + 1) * 50⟩

def steps (r : SigRetransmit) : Byte := (r.interval / 50 - 1).setWidth 8

end SigRetransmit

structure SigPublish where
  address : List Char
  index : BitVec 16
  credentials : BitVec 32
  ttl : Byte
  periodSteps : Byte
  periodResolution : SigStepResolution
  period : BitVec 32
  retransmit : SigRetransmit
  deriving DecidableEq, Repr

namespace SigPublish

def initWithStringDestination (stringDestination : List Char) (keyIndex : BitVec 16)
    (friendshipCredentialsFlag : BitVec 32) (ttl periodSteps : Byte)
    (periodResolution : SigStepResolution) (retransmit : SigRetransmit) : SigPublish where
  address := stringDestination
  index := keyIndex
  credentials := if friendshipCredentialsFlag ≠ 0 then 1 else 0
  ttl := ttl
  periodSteps := periodSteps
  periodResolution := periodResolution
  period := periodResolution.period
  retransmit := retransmit

def initWithDestination (destination keyIndex : BitVec 16)
    (friendshipCredentialsFlag : BitVec 32) (ttl periodSteps : Byte)
    (periodResolution : SigStepResolution) (retransmit : SigRetransmit) : SigPublish where
  address := LibTools.format04X destination.toNat
  index := keyIndex
  credentials := friendshipCredentialsFlag
  ttl := ttl
  periodSteps := periodSteps
  periodResolution := periodResolution
  period := periodResolution.period
  retransmit := retransmit

/-- `publicationAddress.virtualLabel`, by `initWithHex:` of the address. -/
def virtualLabel (uuidWithString : List Char → Option CBUUID) (p : SigPublish) : Option CBUUID :=
  if p.address.length = 4 then none else CBUUID.initWithHex uuidWithString p.address

end SigPublish

/-! ### What the classes share -/

/-- The `SigOpCode` of these messages. -/
inductive SigOpCode
  | configModelPublicationSet
  | configModelPublicationStatus
  | configModelPublicationVirtualAddressSet
  | configModelSubscriptionAdd
  | configModelSubscriptionVirtualAddressAdd
  | configModelSubscriptionVirtualAddressDelete
  | configModelSubscriptionVirtualAddressOverwrite
  | configSIGModelSubscriptionList
  | configVendorModelSubscriptionList
  deriving DecidableEq, Repr

/-- The fields of `SigConfigAnyModelMessage` and the classes above it. -/
structure SigConfigAnyModelMessage where
  opCode : SigOpCode
  elementAddress : BitVec 16
  modelIdentifier : BitVec 16
  companyIdentifier : BitVec 16
  deriving DecidableEq, Repr

/-- The end of the parameters. -/
def SigConfigAnyModelMessage.modelBytes (m : SigConfigAnyModelMessage) : List Byte :=
  if m.companyIdentifier ≠ 0 then wordBytes m.companyIdentifier ++ wordBytes m.modelIdentifier
  else wordBytes m.modelIdentifier

/-- The element at `element` and the model at `model`, where a vendor's has its company first. -/
def readModel (opCode : SigOpCode) (data : List Byte) (element model : ℕ) (vendor : Bool) :
    SigConfigAnyModelMessage where
  opCode := opCode
  elementAddress := word data element
  modelIdentifier := if vendor then word data (model + 2) else word data model
  companyIdentifier := if vendor then word data model else 0

/-- The five octets of a publication; `resolution` is the shifted one. -/
def SigPublish.settings (p : SigPublish) (resolution : Byte) : List Byte :=
  [(p.index &&& 0xFF).setWidth 8,
    (p.index >>> 8).setWidth 8 ||| (p.credentials <<< 4).setWidth 8,
    p.ttl,
    (p.periodSteps &&& (0x3F : Byte)) ||| resolution,
    (p.retransmit.count &&& (0x07 : Byte)) ||| (p.retransmit.steps <<< 3)]

/-- The octets at `off`, handed to an initialiser. -/
def readSettings (init : BitVec 16 → BitVec 32 → Byte → Byte → SigStepResolution →
    SigRetransmit → SigPublish) (data : List Byte) (off : ℕ) : SigPublish :=
  let index := word data off &&& 0x0FFF
  let flag := ((data.getD (off + 1) 0 &&& 0x10) >>> 4).setWidth 32
  let ttl := data.getD (off + 2) 0
  let periodSteps := data.getD (off + 3) 0 &&& 0x3F
  let periodResolution := SigStepResolution.ofRaw (data.getD (off + 3) 0 >>> 6)
  let count := data.getD (off + 4) 0 &&& 0x07
  let interval := data.getD (off + 4) 0 >>> 3
  init index flag ttl periodSteps periodResolution
    (.initWithPublishRetransmitCount count interval)

/-- The addresses of a list, from an offset on. -/
def readAddresses (data : List Byte) (off : ℕ) : List (BitVec 16) := words (data.drop off)

/-! ### Publication -/

structure SigConfigModelPublicationSet extends SigConfigAnyModelMessage where
  publish : SigPublish
  deriving DecidableEq, Repr

namespace SigConfigModelPublicationSet

def initWithParameters (parameters : List Byte) : Option SigConfigModelPublicationSet :=
  if parameters.length ≠ 11 ∧ parameters.length ≠ 13 then none
  else some
    { readModel .configModelPublicationSet parameters 0 9 (parameters.length == 13) with
      publish := readSettings (.initWithDestination (word parameters 2)) parameters 4 }

def parameters (m : SigConfigModelPublicationSet) : List Byte :=
  wordBytes m.elementAddress ++ wordBytes (LibTools.uint16From16String m.publish.address) ++
    m.publish.settings (m.publish.periodResolution.rawValue <<< 6) ++ m.modelBytes

end SigConfigModelPublicationSet

structure SigConfigModelPublicationStatus extends SigConfigAnyModelMessage where
  status : Byte
  publish : SigPublish
  deriving DecidableEq, Repr

namespace SigConfigModelPublicationStatus

def initWithParameters (parameters : List Byte) : Option SigConfigModelPublicationStatus :=
  if parameters.length ≠ 12 ∧ parameters.length ≠ 14 then none
  else some
    { readModel .configModelPublicationStatus parameters 1 10 (parameters.length == 14) with
      status := parameters.getD 0 0
      publish := readSettings (.initWithDestination (word parameters 3)) parameters 5 }

/-- The resolution is shifted the other way here. -/
def parameters (m : SigConfigModelPublicationStatus) : List Byte :=
  m.status :: (wordBytes m.elementAddress ++
    wordBytes (LibTools.uint16From16String m.publish.address) ++
    m.publish.settings (m.publish.periodResolution.rawValue >>> 6) ++ m.modelBytes)

end SigConfigModelPublicationStatus

structure SigConfigModelPublicationVirtualAddressSet extends SigConfigAnyModelMessage where
  publish : SigPublish
  deriving DecidableEq, Repr

namespace SigConfigModelPublicationVirtualAddressSet

def initWithParameters (parameters : List Byte) :
    Option SigConfigModelPublicationVirtualAddressSet :=
  if parameters.length ≠ 25 ∧ parameters.length ≠ 27 then none
  else some
    { readModel .configModelPublicationVirtualAddressSet parameters 0 23
        (parameters.length == 27) with
      publish := readSettings
        (.initWithStringDestination (convertDataToHexStr ((parameters.drop 2).take 16)))
        parameters 18 }

/-- Nothing is appended for a label that is nil. -/
def parameters (uuidWithString : List Char → Option CBUUID)
    (m : SigConfigModelPublicationVirtualAddressSet) : List Byte :=
  wordBytes m.elementAddress ++
    ((m.publish.virtualLabel uuidWithString).map CBUUID.getData).getD [] ++
    m.publish.settings (m.publish.periodResolution.rawValue <<< 6) ++ m.modelBytes

end SigConfigModelPublicationVirtualAddressSet

/-! ### Subscription -/

structure SigConfigModelSubscriptionAdd extends SigConfigAnyModelMessage where
  address : BitVec 16
  deriving DecidableEq, Repr

namespace SigConfigModelSubscriptionAdd

def initWithParameters (parameters : List Byte) : Option SigConfigModelSubscriptionAdd :=
  if parameters.length ≠ 6 ∧ parameters.length ≠ 8 then none
  else some
    { readModel .configModelSubscriptionAdd parameters 0 4 (parameters.length == 8) with
      address := word parameters 2 }

def parameters (m : SigConfigModelSubscriptionAdd) : List Byte :=
  wordBytes m.elementAddress ++ wordBytes m.address ++ m.modelBytes

end SigConfigModelSubscriptionAdd

/-- The three classes with a virtual label. -/
structure SubscriptionVirtualAddress extends SigConfigAnyModelMessage where
  virtualLabel : CBUUID

namespace SubscriptionVirtualAddress

/-- A vendor's parameters are taken to be 24 octets. -/
def initWithParameters (opCode : SigOpCode) (parameters : List Byte) :
    Option SubscriptionVirtualAddress :=
  if parameters.length ≠ 20 ∧ parameters.length ≠ 24 then none
  else some
    { readModel opCode parameters 0 18 (parameters.length == 24) with
      virtualLabel := .uuidWithData ((parameters.drop 2).take 16) }

def parameters (m : SubscriptionVirtualAddress) : List Byte :=
  wordBytes m.elementAddress ++ m.virtualLabel.data ++ m.modelBytes

end SubscriptionVirtualAddress

namespace SigConfigModelSubscriptionVirtualAddressAdd

def initWithParameters : List Byte → Option SubscriptionVirtualAddress :=
  SubscriptionVirtualAddress.initWithParameters .configModelSubscriptionVirtualAddressAdd

end SigConfigModelSubscriptionVirtualAddressAdd

namespace SigConfigModelSubscriptionVirtualAddressDelete

def initWithParameters : List Byte → Option SubscriptionVirtualAddress :=
  SubscriptionVirtualAddress.initWithParameters .configModelSubscriptionVirtualAddressDelete

end SigConfigModelSubscriptionVirtualAddressDelete

namespace SigConfigModelSubscriptionVirtualAddressOverwrite

def initWithParameters : List Byte → Option SubscriptionVirtualAddress :=
  SubscriptionVirtualAddress.initWithParameters .configModelSubscriptionVirtualAddressOverwrite

end SigConfigModelSubscriptionVirtualAddressOverwrite

structure SigConfigSIGModelSubscriptionList where
  opCode : SigOpCode
  status : Byte
  elementAddress : BitVec 16
  modelIdentifier : BitVec 16
  addresses : List (BitVec 16)
  deriving DecidableEq, Repr

namespace SigConfigSIGModelSubscriptionList

def initWithParameters (parameters : List Byte) : Option SigConfigSIGModelSubscriptionList :=
  if parameters.length < 5 then none
  else some
    { opCode := .configSIGModelSubscriptionList
      status := parameters.getD 0 0
      elementAddress := word parameters 1
      modelIdentifier := word parameters 3
      addresses := readAddresses parameters 5 }

def parameters (m : SigConfigSIGModelSubscriptionList) : List Byte :=
  m.status :: (wordBytes m.elementAddress ++ wordBytes m.modelIdentifier ++
    m.addresses.flatMap wordBytes)

end SigConfigSIGModelSubscriptionList

structure SigConfigVendorModelSubscriptionList extends SigConfigAnyModelMessage where
  status : Byte
  addresses : List (BitVec 16)
  deriving DecidableEq, Repr

namespace SigConfigVendorModelSubscriptionList

/-- The model is read first. -/
def initWithParameters (parameters : List Byte) : Option SigConfigVendorModelSubscriptionList :=
  if parameters.length < 7 then none
  else some
    { opCode := .configVendorModelSubscriptionList
      status := parameters.getD 0 0
      elementAddress := word parameters 1
      modelIdentifier := word parameters 3
      companyIdentifier := word parameters 5
      addresses := readAddresses parameters 7 }

/-- The company is written first. -/
def parameters (m : SigConfigVendorModelSubscriptionList) : List Byte :=
  m.status :: (wordBytes m.elementAddress ++ wordBytes m.companyIdentifier ++
    wordBytes m.modelIdentifier ++ m.addresses.flatMap wordBytes)

end SigConfigVendorModelSubscriptionList

end PirMesh.ConfigMessage
