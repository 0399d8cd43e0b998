import PirMesh.Library.Format
import PirMesh.Phone.MeshDictionary

/-! # Phone — Page 0 of the composition data (`SigConfigMessage.m`, `SigModel.m`)

The page of a node comes as octets: a head of eleven, and an element behind the other.  An element
is made where the offset stands, and moves it on; it is nil where the octets do not reach.  A copy
from outside the octets, nil put into an array and a sum that an `int` does not hold are faults of
their own. -/

namespace PirMesh.CompositionPage

open Nor LibTools MeshDictionary

inductive Fault
  | outside
  | absent
  | overflow
  deriving DecidableEq, Repr

/-! ### Octets and sums -/

/-- `memcpy` of `n` octets. -/
def memcpy (data : List Byte) (offset n : ℕ) : Except Fault (List Byte) :=
  if offset + n ≤ data.length then .ok ((data.drop offset).take n) else .error .outside

def uint8At (data : List Byte) (offset : ℕ) : Except Fault Byte := do
  let tem8 ← memcpy data offset 1
  return tem8.headD 0

def uint16At (data : List Byte) (offset : ℕ) : Except Fault (BitVec 16) := do
  let tem16 ← memcpy data offset 2
  return (Format.word 16 2).get tem16

def int (x : ℕ) : Except Fault ℕ := if x < 2 ^ 31 then .ok x else .error .overflow

/-! ### Features -/

def stateEnabled : Byte := 1

def stateNotSupported : Byte := 2

/-- A feature that is there but not enabled counts too. -/
def rawValue (features : SigNodeFeatures) : BitVec 16 :=
  (if features.relayFeature ≠ stateNotSupported then 0x01 else 0) |||
    (if features.proxyFeature ≠ stateNotSupported then 0x02 else 0) |||
    (if features.friendFeature ≠ stateNotSupported then 0x04 else 0) |||
    (if features.lowPowerFeature ≠ stateNotSupported then 0x08 else 0)

def featureOf (rawValue mask : BitVec 16) : Byte :=
  if rawValue &&& mask = 0 then stateNotSupported else stateEnabled

def initWithRawValue (rawValue : BitVec 16) : SigNodeFeatures where
  relayFeature := featureOf rawValue 0x01
  proxyFeature := featureOf rawValue 0x02
  friendFeature := featureOf rawValue 0x04
  lowPowerFeature := featureOf rawValue 0x08

/-! ### Models -/

def initWithSigModelId (sigModelId : BitVec 16) : SigModelIDModel :=
  ⟨some (format04X sigModelId.toNat), none, some [], some []⟩

def initWithVendorModelId (vendorModelId : BitVec 32) : SigModelIDModel :=
  ⟨some (format08X vendorModelId), none, some [], some []⟩

def isBluetoothSIGAssigned (model : SigModelIDModel) : Bool := (model.modelId.getD []).length == 4

/-- The number of a vendor stands behind that of the model. -/
def getIntModelIdentifier (model : SigModelIDModel) : BitVec 16 :=
  let modelId := model.modelId.getD []
  if modelId.length = 4 then uint16From16String modelId
  else if modelId.length = 8 then uint16From16String (modelId.take 4)
  else 0

def getIntCompanyIdentifier (model : SigModelIDModel) : BitVec 16 :=
  let modelId := model.modelId.getD []
  if modelId.length = 8 then uint16From16String (modelId.drop 4) else 0

/-! ### Elements -/

def getSigLocation (element : SigElementModel) : BitVec 16 :=
  uint16From16String (element.location.getD [])

def sigModels (element : SigElementModel) : List SigModelIDModel :=
  (element.models.getD []).filter isBluetoothSIGAssigned

def vendorModels (element : SigElementModel) : List SigModelIDModel :=
  (element.models.getD []).filter fun modelID => !isBluetoothSIGAssigned modelID

def uint16Bytes (tem16 : BitVec 16) : List Byte := (Format.word 16 2).put tem16

def getElementData (element : SigElementModel) : List Byte :=
  uint16Bytes (getSigLocation element) ++
    ([BitVec.ofNat 8 (sigModels element).length, BitVec.ofNat 8 (vendorModels element).length] ++
      ((sigModels element).flatMap (fun model => uint16Bytes (getIntModelIdentifier model)) ++
        (vendorModels element).flatMap fun model =>
          uint16Bytes (getIntCompanyIdentifier model) ++ uint16Bytes (getIntModelIdentifier model)))

def sigModelAt (data : List Byte) (offset i : ℕ) : Except Fault SigModelIDModel := do
  let tem16 ← uint16At data (offset + i * 2)
  return initWithSigModelId tem16

def vendorModelAt (data : List Byte) (offset i : ℕ) : Except Fault SigModelIDModel := do
  let companyId ← uint16At data (offset + i * 4)
  let modelId ← uint16At data (offset + i * 4 + 2)
  return initWithVendorModelId (modelId.setWidth 32 <<< 16 ||| companyId.setWidth 32)

/-- The element at `offset`, with the offset behind it, or nil. -/
def initWithCompositionData (compositionData : List Byte) (offset : ℕ) :
    Except Fault (Option (SigElementModel × ℕ)) := do
  let head ← int (offset + 4)
  if compositionData.length < head then return none
  let location ← uint16At compositionData offset
  let numS ← uint8At compositionData (offset + 2)
  let sigModelsByteCount := numS.toNat * 2
  let numV ← uint8At compositionData (offset + 3)
  let vendorModelsByteCount := numV.toNat * 4
  -- one octet of the counts is not in the sum
  let need ← int (offset + 3 + sigModelsByteCount + vendorModelsByteCount)
  if compositionData.length < need then return none
  let sig ← (List.range numS.toNat).mapM (sigModelAt compositionData head)
  let vendorOffset ← int (head + sigModelsByteCount)
  let vendor ← (List.range numV.toNat).mapM (vendorModelAt compositionData vendorOffset)
  let next ← int (vendorOffset + vendorModelsByteCount)
  return some (⟨none, some (format04X location.toNat), 0, 0, some (sig ++ vendor)⟩, next)

/-! ### Pages -/

theorem bind_eq_ok {α β : Type} {x : Except Fault α} {f : α → Except Fault β} {b : β} :
    x >>= f = .ok b ↔ ∃ a, x = .ok a ∧ f a = .ok b := by
  cases x with
  | error fault => exact iff_of_false nofun fun ⟨_, h, _⟩ => nomatch h
  | ok a => exact ⟨fun h => ⟨a, rfl, h⟩, fun ⟨_, h, hf⟩ => Except.ok.inj h ▸ hf⟩

theorem int_eq_ok {x y : ℕ} : int x = .ok y ↔ y = x ∧ x < 2 ^ 31 := by
  unfold int
  split_ifs with h
  · exact ⟨fun hx => ⟨(Except.ok.inj hx).symm, h⟩, fun hx => congrArg _ hx.1.symm⟩
  · exact iff_of_false nofun fun hx => h hx.2

/-- An element takes four octets at least. -/
theorem initWithCompositionData_next {data : List Byte} {offset : ℕ}
    {element : SigElementModel} {next : ℕ}
    (h : initWithCompositionData data offset = .ok (some (element, next))) :
    offset + 4 ≤ next := by
  obtain ⟨head, hhead, h⟩ := bind_eq_ok.mp h
  split_ifs at h
  · cases h
  · obtain ⟨location, -, h⟩ := bind_eq_ok.mp h
    obtain ⟨numS, -, h⟩ := bind_eq_ok.mp h
    obtain ⟨numV, -, h⟩ := bind_eq_ok.mp h
    obtain ⟨need, -, h⟩ := bind_eq_ok.mp h
    split_ifs at h
    · cases h
    · obtain ⟨sig, -, h⟩ := bind_eq_ok.mp h
      obtain ⟨vendorOffset, hvendorOffset, h⟩ := bind_eq_ok.mp h
      obtain ⟨vendor, -, h⟩ := bind_eq_ok.mp h
      obtain ⟨last, hlast, h⟩ := bind_eq_ok.mp h
      cases h
      have hhead' := (int_eq_ok.mp hhead).1
      have hvendor' := (int_eq_ok.mp hvendorOffset).1
      have hlast' := (int_eq_ok.mp hlast).1
      omega

/-- `addObject:` of nil is an exception. -/
def readElements (parameters : List Byte) (offset count : ℕ) :
    Except Fault (List SigElementModel) :=
  if hlt : offset < parameters.length then
    match h : initWithCompositionData parameters offset with
    | .error fault => .error fault
    | .ok none => .error .absent
    | .ok (some (element, next)) =>
      have : parameters.length - next < parameters.length - offset := by
        have hnext := initWithCompositionData_next h
        omega
      (readElements parameters next (count + 1)).map
        ({ element with index := BitVec.ofNat 8 count } :: ·)
  else .ok []
termination_by parameters.length - offset

structure SigPage0 where
  page : Byte
  companyIdentifier : BitVec 16
  productIdentifier : BitVec 16
  versionIdentifier : BitVec 16
  minimumNumberOfReplayProtectionList : BitVec 16
  features : SigNodeFeatures
  elements : List SigElementModel

def SigPage0.parameters (self : SigPage0) : List Byte :=
  [self.page] ++ uint16Bytes self.companyIdentifier ++ uint16Bytes self.productIdentifier ++
    uint16Bytes self.versionIdentifier ++
    uint16Bytes self.minimumNumberOfReplayProtectionList ++
    uint16Bytes (rawValue self.features) ++ self.elements.flatMap getElementData

/-- No octets at all are not too short. -/
def initWithParameters (parameters : List Byte) : Except Fault (Option SigPage0) := do
  if 0 < parameters.length ∧ parameters.length < 11 then return none
  let companyIdentifier ← uint16At parameters 1
  let productIdentifier ← uint16At parameters 3
  let versionIdentifier ← uint16At parameters 5
  let minimumNumberOfReplayProtectionList ← uint16At parameters 7
  let features ← uint16At parameters 9
  let elements ← readElements parameters 11 0
  return some
    { page := parameters.headD 0
      companyIdentifier := companyIdentifier
      productIdentifier := productIdentifier
      versionIdentifier := versionIdentifier
      minimumNumberOfReplayProtectionList := minimumNumberOfReplayProtectionList
      features := initWithRawValue features
      elements := elements }

/-! ### What a page is for -/

/-- Nothing is copied from outside, and no element is absent. -/
def Safe (parameters : List Byte) : Prop := ∃ page, initWithParameters parameters = .ok page

/-- The location and the models of an element, each with its numbers. -/
def content (element : SigElementModel) :
    BitVec 16 × List (BitVec 16) × List (BitVec 16 × BitVec 16) :=
  (getSigLocation element, (sigModels element).map getIntModelIdentifier,
    (vendorModels element).map fun model =>
      (getIntCompanyIdentifier model, getIntModelIdentifier model))

structure Same (p q : SigPage0) : Prop where
  page : q.page = p.page
  companyIdentifier : q.companyIdentifier = p.companyIdentifier
  productIdentifier : q.productIdentifier = p.productIdentifier
  versionIdentifier : q.versionIdentifier = p.versionIdentifier
  minimumNumberOfReplayProtectionList :
    q.minimumNumberOfReplayProtectionList = p.minimumNumberOfReplayProtectionList
  features : q.features = p.features
  elements : q.elements.map content = p.elements.map content

/-- The page is read back from what it is written as. -/
def RoundTrips (p : SigPage0) : Prop :=
  ∃ q, initWithParameters p.parameters = .ok (some q) ∧ Same p q

end PirMesh.CompositionPage
