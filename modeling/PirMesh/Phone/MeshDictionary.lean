import PirMesh.Library.PropertyList
import PirMesh.Phone.LibTools
import PirMesh.Phone.SchedulerMessage

/-! # Phone — The mesh as a dictionary (`SigDataSource.m`, `SigModel.m`)

What the phone knows of the mesh is exported as one dictionary and imported from it.  Each class
writes its fields under their keys, and reads back those keys that are there; a fresh object has
the values its `init` sets.

Of a pointer, `none` is nil.  What a device does just now (on or off, its brightness) and what is
made from the other fields on demand is not part of it. -/

namespace PirMesh.MeshDictionary

open LibTools PropertyList Nor

/-! ### Keys and values -/

inductive Key
  | meshUUID | meshName | schema | version | timestamp | ivIndex | netKeys | appKeys
  | provisioners | nodes | groups | scenes
  | name | index | key | oldKey | phase | minSecurity | boundNetKey
  | provisionerName | uuid | allocatedUnicastRange | allocatedGroupRange | allocatedSceneRange
  | lowAddress | highAddress | firstScene | lastScene
  | number | addresses | actionList | address | state | trueBrightness | trueTemperature
  | parentAddress
  | macAddress | features | unicastAddress | secureNetworkBeacon | relayRetransmit
  | networkTransmit | configComplete | vid | cid | blacklisted | security | crpl | defaultTTL
  | pid | deviceKey | elements | schedulerList
  | schedulerID | sceneId | schedulerData
  | count | interval | proxy | friend | relay | lowPower | updated
  | location | models | modelId | publish | bind | subscribe
  | credentials | ttl | period | retransmit | numberOfSteps | resolution
  deriving DecidableEq, Repr

abbrev Text : Type := List Char

/-- An `NSNumber` has 64 bits. -/
abbrev Value : Type := PropertyList Key (BitVec 64)

abbrev Dictionary : Type := Dict Key (BitVec 64)

def numberWithBool (b : Bool) : Value := .number (if b then 1 else 0)

def intValue (v : Value) : BitVec 32 := v.asNumber.setWidth 32

def integerValue (v : Value) : BitVec 64 := v.asNumber

def boolValue (v : Value) : Bool := v.asNumber != 0

/-- An array of models, each as its dictionary. -/
def arrayOf {α : Type} (get : α → Dictionary) (l : List α) : Value :=
  .array (l.map fun model => .dict (get model))

/-- The loop that makes a fresh model of each dictionary. -/
def modelsOf {α : Type} (set : Dictionary → α → α) (init : α) (v : Value) : Option (List α) :=
  some (v.asArray.map fun dictionary => set dictionary.asDict init)

def textArray (l : List Text) : Value := .array (l.map .text)

def textsOf (v : Value) : Option (List Text) := some (v.asArray.filterMap asText)

/-! ### Keys of the mesh -/

/-- `KeyRefreshPhase` is kept in 8 bits. -/
@[ext]
structure SigNetkeyModel where
  name : Option Text
  index : BitVec 16
  key : Option Text
  oldKey : Option Text
  phase : Byte
  minSecurity : Option Text
  timestamp : Option Text
  deriving DecidableEq

def SigNetkeyModel.init : SigNetkeyModel := ⟨none, 0, none, none, 0, none, none⟩

def getDictionaryOfSigNetkeyModel (model : SigNetkeyModel) : Dictionary :=
  [(.name, model.name.map .text),
    (.index, some (.number (model.index.setWidth 64))),
    (.key, model.key.map .text),
    (.oldKey, model.oldKey.map .text),
    (.phase, some (.number (model.phase.setWidth 64))),
    (.minSecurity, model.minSecurity.map .text),
    (.timestamp, model.timestamp.map .text)]

def setDictionaryToSigNetkeyModel (dictionary : Dictionary) (model : SigNetkeyModel) :
    SigNetkeyModel :=
  dictionary.update model
    { name := dictionary.read .name asText model.name
      index := dictionary.read .index (fun v => (intValue v).setWidth 16) model.index
      key := dictionary.read .key asText model.key
      oldKey := dictionary.read .oldKey asText model.oldKey
      phase := dictionary.read .phase (fun v => (intValue v).setWidth 8) model.phase
      minSecurity := dictionary.read .minSecurity asText model.minSecurity
      timestamp := dictionary.read .timestamp asText model.timestamp }

@[ext]
structure SigAppkeyModel where
  name : Option Text
  key : Option Text
  oldKey : Option Text
  index : BitVec 64
  boundNetKey : BitVec 64
  deriving DecidableEq

def SigAppkeyModel.init : SigAppkeyModel := ⟨none, none, none, 0, 0⟩

def getDictionaryOfSigAppkeyModel (model : SigAppkeyModel) : Dictionary :=
  [(.name, model.name.map .text),
    (.key, model.key.map .text),
    (.oldKey, model.oldKey.map .text),
    (.index, some (.number model.index)),
    (.boundNetKey, some (.number model.boundNetKey))]

/-- The index is read in 16 bits. -/
def setDictionaryToSigAppkeyModel (dictionary : Dictionary) (model : SigAppkeyModel) :
    SigAppkeyModel :=
  dictionary.update model
    { name := dictionary.read .name asText model.name
      key := dictionary.read .key asText model.key
      oldKey := dictionary.read .oldKey asText model.oldKey
      index := dictionary.read .index (fun v => ((intValue v).setWidth 16).setWidth 64) model.index
      boundNetKey := dictionary.read .boundNetKey integerValue model.boundNetKey }

/-! ### Provisioners -/

@[ext]
structure SigRangeModel where
  lowAddress : Option Text
  highAddress : Option Text
  deriving DecidableEq

def SigRangeModel.init : SigRangeModel := ⟨none, none⟩

def getDictionaryOfSigRangeModel (model : SigRangeModel) : Dictionary :=
  [(.lowAddress, model.lowAddress.map .text), (.highAddress, model.highAddress.map .text)]

def setDictionaryToSigRangeModel (dictionary : Dictionary) (model : SigRangeModel) :
    SigRangeModel :=
  dictionary.update model
    { lowAddress := dictionary.read .lowAddress asText model.lowAddress
      highAddress := dictionary.read .highAddress asText model.highAddress }

@[ext]
structure SigSceneRangeModel where
  firstScene : Option Text
  lastScene : Option Text
  deriving DecidableEq

def SigSceneRangeModel.init : SigSceneRangeModel := ⟨none, none⟩

def getDictionaryOfSigSceneRangeModel (model : SigSceneRangeModel) : Dictionary :=
  [(.firstScene, model.firstScene.map .text), (.lastScene, model.lastScene.map .text)]

def setDictionaryToSigSceneRangeModel (dictionary : Dictionary) (model : SigSceneRangeModel) :
    SigSceneRangeModel :=
  dictionary.update model
    { firstScene := dictionary.read .firstScene asText model.firstScene
      lastScene := dictionary.read .lastScene asText model.lastScene }

@[ext]
structure SigProvisionerModel where
  provisionerName : Option Text
  uuid : Option Text
  allocatedUnicastRange : Option (List SigRangeModel)
  allocatedGroupRange : Option (List SigRangeModel)
  allocatedSceneRange : Option (List SigSceneRangeModel)
  deriving DecidableEq

def SigProvisionerModel.init : SigProvisionerModel := ⟨none, none, none, none, none⟩

def getDictionaryOfSigProvisionerModel (model : SigProvisionerModel) : Dictionary :=
  [(.provisionerName, model.provisionerName.map .text),
    (.uuid, model.uuid.map .text),
    (.allocatedUnicastRange,
      model.allocatedUnicastRange.map (arrayOf getDictionaryOfSigRangeModel)),
    (.allocatedGroupRange, model.allocatedGroupRange.map (arrayOf getDictionaryOfSigRangeModel)),
    (.allocatedSceneRange,
      model.allocatedSceneRange.map (arrayOf getDictionaryOfSigSceneRangeModel))]

def setDictionaryToSigProvisionerModel (dictionary : Dictionary) (model : SigProvisionerModel) :
    SigProvisionerModel :=
  dictionary.update model
    { provisionerName := dictionary.read .provisionerName asText model.provisionerName
      uuid := dictionary.read .uuid asText model.uuid
      allocatedUnicastRange := dictionary.read .allocatedUnicastRange
        (modelsOf setDictionaryToSigRangeModel .init) model.allocatedUnicastRange
      allocatedGroupRange := dictionary.read .allocatedGroupRange
        (modelsOf setDictionaryToSigRangeModel .init) model.allocatedGroupRange
      allocatedSceneRange := dictionary.read .allocatedSceneRange
        (modelsOf setDictionaryToSigSceneRangeModel .init) model.allocatedSceneRange }

/-! ### Groups and scenes -/

@[ext]
structure SigGroupModel where
  name : Option Text
  address : Option Text
  parentAddress : Option Text
  deriving DecidableEq

def SigGroupModel.init : SigGroupModel := ⟨none, none, none⟩

def getDictionaryOfSigGroupModel (model : SigGroupModel) : Dictionary :=
  [(.name, model.name.map .text),
    (.address, model.address.map .text),
    (.parentAddress, model.parentAddress.map .text)]

def setDictionaryToSigGroupModel (dictionary : Dictionary) (model : SigGroupModel) :
    SigGroupModel :=
  dictionary.update model
    { name := dictionary.read .name asText model.name
      address := dictionary.read .address asText model.address
      parentAddress := dictionary.read .parentAddress asText model.parentAddress }

/-- `DeviceState` is kept in 8 bits. -/
@[ext]
structure ActionModel where
  address : BitVec 16
  state : Byte
  trueBrightness : Byte
  trueTemperature : Byte
  deriving DecidableEq

def ActionModel.init : ActionModel := ⟨0, 0, 0, 0⟩

def getDictionaryOfActionModel (model : ActionModel) : Dictionary :=
  [(.address, some (.number (model.address.setWidth 64))),
    (.state, some (.number (model.state.setWidth 64))),
    (.trueBrightness, some (.number (model.trueBrightness.setWidth 64))),
    (.trueTemperature, some (.number (model.trueTemperature.setWidth 64)))]

def setDictionaryToActionModel (dictionary : Dictionary) (model : ActionModel) : ActionModel :=
  dictionary.update model
    { address := dictionary.read .address (fun v => (intValue v).setWidth 16) model.address
      state := dictionary.read .state (fun v => (intValue v).setWidth 8) model.state
      trueBrightness :=
        dictionary.read .trueBrightness (fun v => (intValue v).setWidth 8) model.trueBrightness
      trueTemperature :=
        dictionary.read .trueTemperature (fun v => (intValue v).setWidth 8) model.trueTemperature }

@[ext]
structure SigSceneModel where
  name : Option Text
  number : BitVec 64
  addresses : Option (List Text)
  actionList : Option (List ActionModel)
  deriving DecidableEq

def SigSceneModel.init : SigSceneModel := ⟨none, 0, some [], some []⟩

/-- The getter `addresses`: those of the actions, when there are any. -/
def SigSceneModel.getAddresses (model : SigSceneModel) : Option (List Text) :=
  match model.actionList with
  | some (action :: actionList) =>
    some ((action :: actionList).map fun action => format04X action.address.toNat)
  | some [] | none => model.addresses

/-- `stringWithFormat:@"%04lX"`: four digits at least. -/
def format04lX (n : BitVec 64) : Text :=
  if n.toNat < 16 ^ 4 then format04X n.toNat
  else ((List.range 16).reverse.dropWhile fun i => n.toNat < 16 ^ i).map fun i =>
    hexChar (n.toNat / 16 ^ i % 16)

def getDictionaryOfSigSceneModel (model : SigSceneModel) : Dictionary :=
  [(.name, model.name.map .text),
    (.number, some (.text (format04lX model.number))),
    (.addresses, model.getAddresses.map textArray),
    (.actionList, model.actionList.map (arrayOf getDictionaryOfActionModel))]

/-- A number that is no text leaves the number; without actions there is one for each address. -/
def setDictionaryToSigSceneModel (dictionary : Dictionary) (model : SigSceneModel) :
    SigSceneModel :=
  let addresses := dictionary.read .addresses textsOf model.addresses
  dictionary.update model
    { name := dictionary.read .name asText model.name
      number := dictionary.read .number (fun v =>
        (v.asText.map fun t => (uint16From16String t).setWidth 64).getD model.number) model.number
      addresses := addresses
      actionList := dictionary.read .actionList (modelsOf setDictionaryToActionModel .init)
        (some ((addresses.getD []).map fun numberStr =>
          { ActionModel.init with address := uint16From16String numberStr })) }

/-! ### Models of an element -/

@[ext]
structure SigPeriodModel where
  numberOfSteps : BitVec 64
  resolution : BitVec 64
  deriving DecidableEq

def SigPeriodModel.init : SigPeriodModel := ⟨0, 0⟩

def getDictionaryOfSigPeriodModel (model : SigPeriodModel) : Dictionary :=
  [(.numberOfSteps, some (.number model.numberOfSteps)),
    (.resolution, some (.number model.resolution))]

def setDictionaryToSigPeriodModel (dictionary : Dictionary) (model : SigPeriodModel) :
    SigPeriodModel :=
  dictionary.update model
    { numberOfSteps := dictionary.read .numberOfSteps integerValue model.numberOfSteps
      resolution := dictionary.read .resolution integerValue model.resolution }

/-- `SigRetransmitModel`, and the fields of `SigRelayretransmitModel` and
`SigNetworktransmitModel`, which differ in what `init` sets. -/
@[ext]
structure SigRetransmitModel where
  count : BitVec 64
  interval : BitVec 64
  deriving DecidableEq

def SigRetransmitModel.init : SigRetransmitModel := ⟨0, 0⟩

def getDictionaryOfSigRetransmitModel (model : SigRetransmitModel) : Dictionary :=
  [(.count, some (.number model.count)), (.interval, some (.number model.interval))]

def setDictionaryToSigRetransmitModel (dictionary : Dictionary) (model : SigRetransmitModel) :
    SigRetransmitModel :=
  dictionary.update model
    { count := dictionary.read .count integerValue model.count
      interval := dictionary.read .interval integerValue model.interval }

@[ext]
structure SigPublishModel where
  address : Option Text
  index : BitVec 64
  credentials : BitVec 64
  ttl : BitVec 64
  period : Option SigPeriodModel
  retransmit : Option SigRetransmitModel
  deriving DecidableEq

def SigPublishModel.init : SigPublishModel :=
  ⟨some (format04X 0), 0, 0, 0, some .init, some .init⟩

def getDictionaryOfSigPublishModel (model : SigPublishModel) : Dictionary :=
  [(.address, model.address.map .text),
    (.index, some (.number model.index)),
    (.credentials, some (.number model.credentials)),
    (.ttl, some (.number model.ttl)),
    (.period, model.period.map fun period => .dict (getDictionaryOfSigPeriodModel period)),
    (.retransmit,
      model.retransmit.map fun retransmit => .dict (getDictionaryOfSigRetransmitModel retransmit))]

/-- A period that is no dictionary leaves the period. -/
def setDictionaryToSigPublishModel (dictionary : Dictionary) (model : SigPublishModel) :
    SigPublishModel :=
  dictionary.update model
    { address := dictionary.read .address asText model.address
      index := dictionary.read .index integerValue model.index
      credentials := dictionary.read .credentials integerValue model.credentials
      ttl := dictionary.read .ttl integerValue model.ttl
      period := dictionary.read .period (fun v =>
        match v with
        | .dict entries => some (setDictionaryToSigPeriodModel entries .init)
        | .text _ | .number _ | .array _ => model.period) model.period
      retransmit := dictionary.read .retransmit
        (fun v => some (setDictionaryToSigRetransmitModel v.asDict .init)) model.retransmit }

@[ext]
structure SigModelIDModel where
  modelId : Option Text
  publish : Option SigPublishModel
  bind : Option (List (BitVec 64))
  subscribe : Option (List Text)
  deriving DecidableEq

def SigModelIDModel.init : SigModelIDModel := ⟨none, none, some [], some []⟩

def getDictionaryOfSigModelIDModel (model : SigModelIDModel) : Dictionary :=
  [(.modelId, model.modelId.map .text),
    (.publish, model.publish.map fun publish => .dict (getDictionaryOfSigPublishModel publish)),
    (.bind, model.bind.map fun bind => .array (bind.map .number)),
    (.subscribe, model.subscribe.map textArray)]

def setDictionaryToSigModelIDModel (dictionary : Dictionary) (model : SigModelIDModel) :
    SigModelIDModel :=
  dictionary.update model
    { modelId := dictionary.read .modelId asText model.modelId
      publish := dictionary.read .publish
        (fun v => some (setDictionaryToSigPublishModel v.asDict .init)) model.publish
      bind := dictionary.read .bind (fun v => some (v.asArray.map asNumber)) model.bind
      subscribe := dictionary.read .subscribe textsOf model.subscribe }

/-! ### Nodes -/

@[ext]
structure SigElementModel where
  name : Option Text
  location : Option Text
  index : Byte
  parentNodeAddress : BitVec 16
  models : Option (List SigModelIDModel)
  deriving DecidableEq

def SigElementModel.init : SigElementModel := ⟨none, none, 0, 0, some []⟩

def getDictionaryOfSigElementModel (model : SigElementModel) : Dictionary :=
  [(.name, model.name.map .text),
    (.location, model.location.map .text),
    (.index, some (.number (model.index.setWidth 64))),
    (.models, model.models.map (arrayOf getDictionaryOfSigModelIDModel))]

def setDictionaryToSigElementModel (dictionary : Dictionary) (model : SigElementModel) :
    SigElementModel :=
  dictionary.update model
    { model with
      name := dictionary.read .name asText model.name
      location := dictionary.read .location asText model.location
      index := dictionary.read .index (fun v => (intValue v).setWidth 8) model.index
      models := dictionary.read .models (modelsOf setDictionaryToSigModelIDModel .init)
        model.models }

/-- A `SigNodeFeaturesState` is kept in 8 bits. -/
@[ext]
structure SigNodeFeatures where
  relayFeature : Byte
  proxyFeature : Byte
  friendFeature : Byte
  lowPowerFeature : Byte
  deriving DecidableEq

def SigNodeFeatures.init : SigNodeFeatures := ⟨2, 2, 2, 2⟩

def getDictionaryOfSigFeatureModel (model : SigNodeFeatures) : Dictionary :=
  [(.proxy, some (.number (model.proxyFeature.setWidth 64))),
    (.friend, some (.number (model.friendFeature.setWidth 64))),
    (.relay, some (.number (model.relayFeature.setWidth 64))),
    (.lowPower, some (.number (model.lowPowerFeature.setWidth 64)))]

def setDictionaryToSigFeatureModel (dictionary : Dictionary) (model : SigNodeFeatures) :
    SigNodeFeatures :=
  dictionary.update model
    { proxyFeature := dictionary.read .proxy (fun v => (integerValue v).setWidth 8)
        model.proxyFeature
      friendFeature := dictionary.read .friend (fun v => (integerValue v).setWidth 8)
        model.friendFeature
      relayFeature := dictionary.read .relay (fun v => (integerValue v).setWidth 8)
        model.relayFeature
      lowPowerFeature := dictionary.read .lowPower (fun v => (integerValue v).setWidth 8)
        model.lowPowerFeature }

/-- `init` of `SigRelayretransmitModel`. -/
def relayretransmitInit : SigRetransmitModel := ⟨1, 10⟩

def getDictionaryOfSigRelayretransmitModel (model : SigRetransmitModel) : Dictionary :=
  getDictionaryOfSigRetransmitModel model

def setDictionaryToSigRelayretransmitModel (dictionary : Dictionary)
    (model : SigRetransmitModel) : SigRetransmitModel :=
  setDictionaryToSigRetransmitModel dictionary model

/-- `init` of `SigNetworktransmitModel`. -/
def networktransmitInit : SigRetransmitModel := ⟨1, 10⟩

def getDictionaryOfSigNetworktransmitModel (model : SigRetransmitModel) : Dictionary :=
  getDictionaryOfSigRetransmitModel model

def setDictionaryToSigNetworktransmitModel (dictionary : Dictionary)
    (model : SigRetransmitModel) : SigRetransmitModel :=
  setDictionaryToSigRetransmitModel dictionary model

@[ext]
structure SigNodeKeyModel where
  index : BitVec 16
  updated : Bool
  deriving DecidableEq

def SigNodeKeyModel.init : SigNodeKeyModel := ⟨0, false⟩

def getDictionaryOfSigNodeKeyModel (model : SigNodeKeyModel) : Dictionary :=
  [(.index, some (.number (model.index.setWidth 64))),
    (.updated, some (numberWithBool model.updated))]

def setDictionaryToSigNodeKeyModel (dictionary : Dictionary) (model : SigNodeKeyModel) :
    SigNodeKeyModel :=
  dictionary.update model
    { index := dictionary.read .index (fun v => (intValue v).setWidth 16) model.index
      updated := dictionary.read .updated boolValue model.updated }

/-- `init` of `SchedulerModel`: any year, month and day, and no time. -/
def schedulerInit : SchedulerModel :=
  ⟨0x64 <<< 4 ||| 0xFFF <<< 11 ||| 0x18 <<< 28 ||| 0x3C <<< 33 ||| 0x3C <<< 39 ||| 0x7F <<< 45, 0⟩

def setSchedulerID (model : SchedulerModel) (schedulerID : BitVec 64) : SchedulerModel :=
  { model with schedulerData := model.schedulerData &&& ~~~0xF ||| schedulerID &&& 0xF }

def getDictionaryOfSchedulerModel (model : SchedulerModel) : Dictionary :=
  [(.schedulerID, some (.number model.schedulerID)),
    (.sceneId, some (.number model.sceneId)),
    (.schedulerData, some (.text (getUint64String model.schedulerData)))]

/-- The id is a part of the data, which is read after it. -/
def setDictionaryToSchedulerModel (dictionary : Dictionary) (model : SchedulerModel) :
    SchedulerModel :=
  let numbered := dictionary.read .schedulerID
    (fun v => setSchedulerID model (((intValue v).setWidth 8).setWidth 64)) model
  dictionary.update model
    { schedulerData := dictionary.read .schedulerData
        (fun v => uint64From16String (v.asText.getD [])) numbered.schedulerData
      sceneId := dictionary.read .sceneId integerValue model.sceneId }

@[ext]
structure SigHeartbeatPubModel where
  address : Option Text
  period : BitVec 64
  ttl : BitVec 64
  index : BitVec 64
  features : Option (List Text)
  deriving DecidableEq

def SigHeartbeatPubModel.init : SigHeartbeatPubModel := ⟨none, 0, 0, 0, none⟩

@[ext]
structure SigHeartbeatSubModel where
  source : Option Text
  destination : Option Text
  period : BitVec 64
  deriving DecidableEq

@[ext]
structure SigNodeModel where
  macAddress : Option Text
  features : Option SigNodeFeatures
  unicastAddress : Option Text
  secureNetworkBeacon : Bool
  relayRetransmit : Option SigRetransmitModel
  networkTransmit : Option SigRetransmitModel
  configComplete : Bool
  vid : Option Text
  cid : Option Text
  blacklisted : Bool
  uuid : Option Text
  security : Option Text
  crpl : Option Text
  defaultTTL : BitVec 64
  pid : Option Text
  name : Option Text
  deviceKey : Option Text
  elements : Option (List SigElementModel)
  netKeys : Option (List SigNodeKeyModel)
  appKeys : Option (List SigNodeKeyModel)
  schedulerList : Option (List SchedulerModel)
  heartbeatPub : Option SigHeartbeatPubModel
  heartbeatSub : Option (List SigHeartbeatSubModel)
  deriving DecidableEq

def SigNodeModel.init : SigNodeModel :=
  { macAddress := some []
    features := some .init
    unicastAddress := none
    secureNetworkBeacon := false
    relayRetransmit := some relayretransmitInit
    networkTransmit := some networktransmitInit
    configComplete := false
    vid := none
    cid := none
    blacklisted := false
    uuid := none
    security := some ['s', 'e', 'c', 'u', 'r', 'e']
    crpl := none
    defaultTTL := 0
    pid := none
    name := some []
    deviceKey := none
    elements := some []
    netKeys := some []
    appKeys := some []
    schedulerList := some []
    heartbeatPub := some .init
    heartbeatSub := some [] }

/-- The getter `macAddress`: where none is kept, it is what the scan records have for the node. -/
def SigNodeModel.getMacAddress (scanned : SigNodeModel → Option Text) (node : SigNodeModel) :
    Option Text :=
  match node.macAddress with
  | some (c :: rest) => some (c :: rest)
  | some [] | none => scanned node

/-- The getter `address`. -/
def SigNodeModel.address (node : SigNodeModel) : BitVec 16 :=
  uint16From16String (node.unicastAddress.getD [])

def getDictionaryOfSigNodeModel (scanned : SigNodeModel → Option Text) (node : SigNodeModel) :
    Dictionary :=
  [(.macAddress, (node.getMacAddress scanned).map .text),
    (.features, node.features.map fun features => .dict (getDictionaryOfSigFeatureModel features)),
    (.unicastAddress, node.unicastAddress.map .text),
    (.secureNetworkBeacon, some (numberWithBool node.secureNetworkBeacon)),
    (.relayRetransmit, node.relayRetransmit.map fun relayRetransmit =>
      .dict (getDictionaryOfSigRelayretransmitModel relayRetransmit)),
    (.networkTransmit, node.networkTransmit.map fun networkTransmit =>
      .dict (getDictionaryOfSigNetworktransmitModel networkTransmit)),
    (.configComplete, some (numberWithBool node.configComplete)),
    (.vid, node.vid.map .text),
    (.cid, node.cid.map .text),
    (.blacklisted, some (numberWithBool node.blacklisted)),
    (.uuid, node.uuid.map fun uuid => .text (meshUUIDToUUID uuid)),
    (.security, node.security.map .text),
    (.crpl, node.crpl.map .text),
    (.defaultTTL, some (.number node.defaultTTL)),
    (.pid, node.pid.map .text),
    (.name, node.name.map .text),
    (.deviceKey, node.deviceKey.map .text),
    (.elements, node.elements.map (arrayOf getDictionaryOfSigElementModel)),
    (.netKeys, node.netKeys.map (arrayOf getDictionaryOfSigNodeKeyModel)),
    (.appKeys, node.appKeys.map (arrayOf getDictionaryOfSigNodeKeyModel)),
    (.schedulerList, node.schedulerList.map (arrayOf getDictionaryOfSchedulerModel))]

/-- An element that is read gets its place in the node, and the address of the node. -/
def placeElement (address : BitVec 16) (count : ℕ) (element : SigElementModel) :
    SigElementModel :=
  { element with
    index := if element.index.toNat ≠ count then BitVec.ofNat 8 count else element.index
    parentNodeAddress := address }

def elementsOf (address : BitVec 16) (v : Value) : Option (List SigElementModel) :=
  some (v.asArray.mapIdx fun count dictionary =>
    placeElement address count (setDictionaryToSigElementModel dictionary.asDict .init))

def setDictionaryToSigNodeModel (dictionary : Dictionary) (node : SigNodeModel) : SigNodeModel :=
  let unicastAddress := dictionary.read .unicastAddress asText node.unicastAddress
  dictionary.update node
    { node with
      macAddress := dictionary.read .macAddress asText node.macAddress
      features := dictionary.read .features
        (fun v => some (setDictionaryToSigFeatureModel v.asDict .init)) node.features
      unicastAddress := unicastAddress
      secureNetworkBeacon :=
        dictionary.read .secureNetworkBeacon boolValue node.secureNetworkBeacon
      relayRetransmit := dictionary.read .relayRetransmit
        (fun v => some (setDictionaryToSigRelayretransmitModel v.asDict relayretransmitInit))
        node.relayRetransmit
      networkTransmit := dictionary.read .networkTransmit
        (fun v => some (setDictionaryToSigNetworktransmitModel v.asDict networktransmitInit))
        node.networkTransmit
      configComplete := dictionary.read .configComplete boolValue node.configComplete
      vid := dictionary.read .vid asText node.vid
      cid := dictionary.read .cid asText node.cid
      blacklisted := dictionary.read .blacklisted boolValue node.blacklisted
      uuid := dictionary.read .uuid (fun v => v.asText.map meshUUIDToUUID) node.uuid
      security := dictionary.read .security asText node.security
      crpl := dictionary.read .crpl asText node.crpl
      defaultTTL := dictionary.read .defaultTTL integerValue node.defaultTTL
      pid := dictionary.read .pid asText node.pid
      name := dictionary.read .name asText node.name
      deviceKey := dictionary.read .deviceKey asText node.deviceKey
      elements := dictionary.read .elements
        (elementsOf ({ node with unicastAddress := unicastAddress } : SigNodeModel).address)
        node.elements
      netKeys := dictionary.read .netKeys (modelsOf setDictionaryToSigNodeKeyModel .init)
        node.netKeys
      appKeys := dictionary.read .appKeys (modelsOf setDictionaryToSigNodeKeyModel .init)
        node.appKeys
      schedulerList := dictionary.read .schedulerList
        (modelsOf setDictionaryToSchedulerModel schedulerInit) node.schedulerList }

/-! ### The data source -/

@[ext]
structure SigDataSource where
  meshUUID : Option Text
  meshName : Option Text
  schema : Option Text
  version : Option Text
  timestamp : Option Text
  ivIndex : Option Text
  netKeys : Option (List SigNetkeyModel)
  appKeys : Option (List SigAppkeyModel)
  provisioners : Option (List SigProvisionerModel)
  nodes : Option (List SigNodeModel)
  groups : Option (List SigGroupModel)
  scenes : Option (List SigSceneModel)
  deriving DecidableEq

/-- `kDefaultIvIndex` is 0. -/
def SigDataSource.init : SigDataSource :=
  ⟨none, none, none, none, none, some (format08X 0), some [], some [], some [], some [],
    some [], some []⟩

def getDictionaryFromDataSource (scanned : SigNodeModel → Option Text) (db : SigDataSource) :
    Dictionary :=
  [(.meshUUID, db.meshUUID.map .text),
    (.meshName, db.meshName.map .text),
    (.schema, db.schema.map .text),
    (.version, db.version.map .text),
    (.timestamp, db.timestamp.map .text),
    (.ivIndex, db.ivIndex.map .text),
    (.netKeys, db.netKeys.map (arrayOf getDictionaryOfSigNetkeyModel)),
    (.appKeys, db.appKeys.map (arrayOf getDictionaryOfSigAppkeyModel)),
    (.provisioners, db.provisioners.map (arrayOf getDictionaryOfSigProvisionerModel)),
    (.nodes, db.nodes.map (arrayOf (getDictionaryOfSigNodeModel scanned))),
    (.groups, db.groups.map (arrayOf getDictionaryOfSigGroupModel)),
    (.scenes, db.scenes.map (arrayOf getDictionaryOfSigSceneModel))]

def setDictionaryToDataSource (dictionary : Dictionary) (db : SigDataSource) : SigDataSource :=
  dictionary.update db
    { meshUUID := dictionary.read .meshUUID asText db.meshUUID
      meshName := dictionary.read .meshName asText db.meshName
      schema := dictionary.read .schema asText db.schema
      version := dictionary.read .version asText db.version
      timestamp := dictionary.read .timestamp asText db.timestamp
      ivIndex := dictionary.read .ivIndex asText db.ivIndex
      netKeys := dictionary.read .netKeys (modelsOf setDictionaryToSigNetkeyModel .init)
        db.netKeys
      appKeys := dictionary.read .appKeys (modelsOf setDictionaryToSigAppkeyModel .init)
        db.appKeys
      provisioners := dictionary.read .provisioners
        (modelsOf setDictionaryToSigProvisionerModel .init) db.provisioners
      nodes := dictionary.read .nodes (modelsOf setDictionaryToSigNodeModel .init) db.nodes
      groups := dictionary.read .groups (modelsOf setDictionaryToSigGroupModel .init) db.groups
      scenes := dictionary.read .scenes (modelsOf setDictionaryToSigSceneModel .init) db.scenes }

end PirMesh.MeshDictionary
