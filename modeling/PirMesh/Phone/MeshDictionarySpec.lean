import Mathlib.Data.List.Basic
import PirMesh.Phone.MeshDictionary

/-! # Phone — What an import gives back (`SigDataSource.m`, `SigModel.m`)

Each class reads back what it has written.  Of a node the heartbeats are not written, the dashes
of its UUID are taken out, and its elements are numbered anew; that is all an import into an empty
data source changes (`SigNodeModel.import_export`), so the mesh is the same exactly when no node
has anything of it to lose (`dataSource_iff`). -/

namespace PirMesh.MeshDictionary

open LibTools PropertyList PropertyList.Dict Nor

/-! ### Values -/

theorem intValue_setWidth16 (x : BitVec 16) :
    (intValue (.number (x.setWidth 64))).setWidth 16 = x := by
  refine BitVec.eq_of_toNat_eq ?_
  have hx := x.isLt
  change ((x.setWidth 64).setWidth 32 |>.setWidth 16).toNat = x.toNat
  rw [BitVec.toNat_setWidth, BitVec.toNat_setWidth, BitVec.toNat_setWidth]
  omega

theorem intValue_setWidth8 (x : Byte) :
    (intValue (.number (x.setWidth 64))).setWidth 8 = x := by
  refine BitVec.eq_of_toNat_eq ?_
  have hx := x.isLt
  change ((x.setWidth 64).setWidth 32 |>.setWidth 8).toNat = x.toNat
  rw [BitVec.toNat_setWidth, BitVec.toNat_setWidth, BitVec.toNat_setWidth]
  omega

theorem integerValue_setWidth8 (x : Byte) :
    (integerValue (.number (x.setWidth 64))).setWidth 8 = x := by
  refine BitVec.eq_of_toNat_eq ?_
  have hx := x.isLt
  change ((x.setWidth 64).setWidth 8).toNat = x.toNat
  rw [BitVec.toNat_setWidth, BitVec.toNat_setWidth]
  omega

theorem intValue_of_lt {x : BitVec 64} (h : x.toNat < 2 ^ 16) :
    ((intValue (.number x)).setWidth 16).setWidth 64 = x := by
  refine BitVec.eq_of_toNat_eq ?_
  change ((x.setWidth 32).setWidth 16 |>.setWidth 64).toNat = x.toNat
  rw [BitVec.toNat_setWidth, BitVec.toNat_setWidth, BitVec.toNat_setWidth]
  omega

theorem boolValue_numberWithBool (b : Bool) : boolValue (numberWithBool b) = b := by
  cases b with
  | true => rfl
  | false => rfl

section

variable {α : Type} {d : Dictionary} {k : Key} {get : α → Dictionary} {set : Dictionary → α → α}
  {init : α} {g : α → α} {o old : Option (List α)}

theorem read_models (h : d.get k = o.map (arrayOf get))
    (hset : ∀ l ∈ o, ∀ x ∈ l, set (get x) init = g x) (hnone : o = none → old = none) :
    d.read k (modelsOf set init) old = o.map (List.map g) :=
  read_array h hset hnone

theorem read_models_same (h : d.get k = o.map (arrayOf get))
    (hset : ∀ l ∈ o, ∀ x ∈ l, set (get x) init = x) (hnone : o = none → old = none) :
    d.read k (modelsOf set init) old = o :=
  read_array_same h hset hnone

/-- Nil is not what `init` sets, and is not written. -/
theorem ne_none {o : Option α} {p : Prop} (h : o.isSome = true) (hnone : o = none) : p := by
  rw [hnone] at h
  exact absurd h Bool.false_ne_true

end

/-! ### Keys, provisioners and groups -/

theorem SigNetkeyModel.import_export (model : SigNetkeyModel) :
    setDictionaryToSigNetkeyModel (getDictionaryOfSigNetkeyModel model) .init = model := by
  refine (update_of_get (k := .index) rfl).trans (SigNetkeyModel.ext ?_ ?_ ?_ ?_ ?_ ?_ ?_) <;>
    dsimp only
  · exact read_text rfl fun _ => rfl
  · exact read_some rfl (intValue_setWidth16 _)
  · exact read_text rfl fun _ => rfl
  · exact read_text rfl fun _ => rfl
  · exact read_some rfl (intValue_setWidth8 _)
  · exact read_text rfl fun _ => rfl
  · exact read_text rfl fun _ => rfl

theorem SigAppkeyModel.import_export {model : SigAppkeyModel} (h : model.index.toNat < 2 ^ 16) :
    setDictionaryToSigAppkeyModel (getDictionaryOfSigAppkeyModel model) .init = model := by
  refine (update_of_get (k := .index) rfl).trans (SigAppkeyModel.ext ?_ ?_ ?_ ?_ ?_) <;> dsimp only
  · exact read_text rfl fun _ => rfl
  · exact read_text rfl fun _ => rfl
  · exact read_text rfl fun _ => rfl
  · exact read_some rfl (intValue_of_lt h)
  · exact read_some rfl rfl

theorem SigRangeModel.import_export (model : SigRangeModel) :
    setDictionaryToSigRangeModel (getDictionaryOfSigRangeModel model) .init = model := by
  refine (update_of_reads fun h => ?_).trans (SigRangeModel.ext ?_ ?_)
  · rw [read_of_isEmpty h, read_of_isEmpty h]
  · exact read_text rfl fun _ => rfl
  · exact read_text rfl fun _ => rfl

theorem SigSceneRangeModel.import_export (model : SigSceneRangeModel) :
    setDictionaryToSigSceneRangeModel (getDictionaryOfSigSceneRangeModel model) .init = model := by
  refine (update_of_reads fun h => ?_).trans (SigSceneRangeModel.ext ?_ ?_)
  · rw [read_of_isEmpty h, read_of_isEmpty h]
  · exact read_text rfl fun _ => rfl
  · exact read_text rfl fun _ => rfl

theorem SigProvisionerModel.import_export (model : SigProvisionerModel) :
    setDictionaryToSigProvisionerModel (getDictionaryOfSigProvisionerModel model) .init =
      model := by
  refine (update_of_reads fun h => ?_).trans (SigProvisionerModel.ext ?_ ?_ ?_ ?_ ?_)
  · rw [read_of_isEmpty h, read_of_isEmpty h, read_of_isEmpty h, read_of_isEmpty h,
      read_of_isEmpty h]
  · exact read_text rfl fun _ => rfl
  · exact read_text rfl fun _ => rfl
  · exact read_models_same rfl (fun _ _ range _ => range.import_export) fun _ => rfl
  · exact read_models_same rfl (fun _ _ range _ => range.import_export) fun _ => rfl
  · exact read_models_same rfl (fun _ _ range _ => range.import_export) fun _ => rfl

theorem SigGroupModel.import_export (model : SigGroupModel) :
    setDictionaryToSigGroupModel (getDictionaryOfSigGroupModel model) .init = model := by
  refine (update_of_reads fun h => ?_).trans (SigGroupModel.ext ?_ ?_ ?_)
  · rw [read_of_isEmpty h, read_of_isEmpty h, read_of_isEmpty h]
  · exact read_text rfl fun _ => rfl
  · exact read_text rfl fun _ => rfl
  · exact read_text rfl fun _ => rfl

/-! ### Scenes -/

theorem ActionModel.import_export (model : ActionModel) :
    setDictionaryToActionModel (getDictionaryOfActionModel model) .init = model := by
  refine (update_of_get (k := .address) rfl).trans (ActionModel.ext ?_ ?_ ?_ ?_) <;> dsimp only
  · exact read_some rfl (intValue_setWidth16 _)
  · exact read_some rfl (intValue_setWidth8 _)
  · exact read_some rfl (intValue_setWidth8 _)
  · exact read_some rfl (intValue_setWidth8 _)

/-- The scene with the addresses that are read of it. -/
def SigSceneModel.read (model : SigSceneModel) : SigSceneModel :=
  { model with addresses := model.getAddresses }

/-- What the setters of a scene produce. -/
structure SigSceneModel.WithinSetters (model : SigSceneModel) : Prop where
  number : model.number.toNat < 2 ^ 16
  addresses : model.addresses.isSome = true
  actionList : model.actionList.isSome = true

theorem number_import {n : BitVec 64} (h : n.toNat < 2 ^ 16) :
    (uint16From16String (format04lX n)).setWidth 64 = n := by
  unfold format04lX
  rw [if_pos (show n.toNat < 16 ^ 4 from h), uint16From16String_format h]
  refine BitVec.eq_of_toNat_eq ?_
  rw [BitVec.toNat_setWidth, BitVec.toNat_ofNat]
  omega

theorem SigSceneModel.WithinSetters.getAddresses {model : SigSceneModel}
    (h : model.WithinSetters) : model.getAddresses.isSome = true := by
  unfold SigSceneModel.getAddresses
  match model.actionList with
  | some (_ :: _) => rfl
  | some [] | none => exact h.addresses

theorem SigSceneModel.WithinSetters.import_export {model : SigSceneModel}
    (h : model.WithinSetters) :
    setDictionaryToSigSceneModel (getDictionaryOfSigSceneModel model) .init = model.read := by
  refine (update_of_get (k := .number) rfl).trans (SigSceneModel.ext ?_ ?_ ?_ ?_) <;> dsimp only
  · exact read_text rfl fun _ => rfl
  · exact read_some rfl (number_import h.number)
  · exact read_texts rfl (ne_none h.getAddresses)
  · exact read_models_same rfl (fun _ _ action _ => action.import_export) (ne_none h.actionList)

/-- To read twice is to read once. -/
theorem SigSceneModel.read_read (model : SigSceneModel) : model.read.read = model.read := by
  obtain ⟨name, number, addresses, actionList⟩ := model
  match actionList with
  | some (_ :: _) => rfl
  | some [] | none => rfl

/-! ### Models of an element -/

theorem SigPeriodModel.import_export (model : SigPeriodModel) :
    setDictionaryToSigPeriodModel (getDictionaryOfSigPeriodModel model) .init = model := by
  refine (update_of_get (k := .resolution) rfl).trans (SigPeriodModel.ext ?_ ?_) <;> dsimp only
  · exact read_some rfl rfl
  · exact read_some rfl rfl

/-- Whatever the fresh object holds. -/
theorem SigRetransmitModel.import_export (model fresh : SigRetransmitModel) :
    setDictionaryToSigRetransmitModel (getDictionaryOfSigRetransmitModel model) fresh = model := by
  refine (update_of_get (k := .count) rfl).trans (SigRetransmitModel.ext ?_ ?_) <;> dsimp only
  · exact read_some rfl rfl
  · exact read_some rfl rfl

/-- What the setters of a publication produce. -/
structure SigPublishModel.WithinSetters (model : SigPublishModel) : Prop where
  address : model.address.isSome = true
  period : model.period.isSome = true
  retransmit : model.retransmit.isSome = true

theorem SigPublishModel.WithinSetters.import_export {model : SigPublishModel}
    (h : model.WithinSetters) :
    setDictionaryToSigPublishModel (getDictionaryOfSigPublishModel model) .init = model := by
  refine (update_of_get (k := .index) rfl).trans (SigPublishModel.ext ?_ ?_ ?_ ?_ ?_ ?_) <;>
    dsimp only
  · exact read_text rfl (ne_none h.address)
  · exact read_some rfl rfl
  · exact read_some rfl rfl
  · exact read_some rfl rfl
  · refine read_eq rfl (fun period hperiod => ?_) (ne_none h.period)
    rw [Option.mem_def.mp hperiod]
    exact congrArg some period.import_export
  · exact read_dict (r := (setDictionaryToSigRetransmitModel · .init)) rfl
      (fun retransmit _ => retransmit.import_export _) (ne_none h.retransmit)

structure SigModelIDModel.WithinSetters (model : SigModelIDModel) : Prop where
  publish : ∀ publish ∈ model.publish, publish.WithinSetters
  bind : model.bind.isSome = true
  subscribe : model.subscribe.isSome = true

theorem SigModelIDModel.WithinSetters.import_export {model : SigModelIDModel}
    (h : model.WithinSetters) :
    setDictionaryToSigModelIDModel (getDictionaryOfSigModelIDModel model) .init = model := by
  have hset : setDictionaryToSigModelIDModel (getDictionaryOfSigModelIDModel model) .init = _ :=
    update_of_reads fun hempty => by
      rw [read_of_isEmpty hempty, read_of_isEmpty hempty, read_of_isEmpty hempty,
        read_of_isEmpty hempty]
  refine hset.trans (SigModelIDModel.ext ?_ ?_ ?_ ?_) <;> dsimp only
  · exact read_text rfl fun _ => rfl
  · exact read_dict (r := (setDictionaryToSigPublishModel · .init)) rfl
      (fun publish hp => (h.publish publish hp).import_export) fun _ => rfl
  · exact read_array_same rfl (fun _ _ _ _ => rfl) (ne_none h.bind)
  · exact read_texts rfl (ne_none h.subscribe)

/-! ### Nodes -/

structure SigElementModel.WithinSetters (model : SigElementModel) : Prop where
  isSome : model.models.isSome = true
  models : ∀ models ∈ model.models, ∀ x ∈ models, x.WithinSetters

/-- All of an element is read but the address of its node. -/
theorem SigElementModel.WithinSetters.import_export {model : SigElementModel}
    (h : model.WithinSetters) :
    setDictionaryToSigElementModel (getDictionaryOfSigElementModel model) .init =
      { model with parentNodeAddress := 0 } := by
  refine (update_of_get (k := .index) rfl).trans (SigElementModel.ext ?_ ?_ ?_ rfl ?_) <;>
    dsimp only
  · exact read_text rfl fun _ => rfl
  · exact read_text rfl fun _ => rfl
  · exact read_some rfl (intValue_setWidth8 _)
  · exact read_models_same rfl (fun l hl x hx => (h.models l hl x hx).import_export)
      (ne_none h.isSome)

theorem SigNodeFeatures.import_export (model : SigNodeFeatures) :
    setDictionaryToSigFeatureModel (getDictionaryOfSigFeatureModel model) .init = model := by
  refine (update_of_get (k := .relay) rfl).trans (SigNodeFeatures.ext ?_ ?_ ?_ ?_) <;> dsimp only
  · exact read_some rfl (integerValue_setWidth8 _)
  · exact read_some rfl (integerValue_setWidth8 _)
  · exact read_some rfl (integerValue_setWidth8 _)
  · exact read_some rfl (integerValue_setWidth8 _)

theorem SigNodeKeyModel.import_export (model : SigNodeKeyModel) :
    setDictionaryToSigNodeKeyModel (getDictionaryOfSigNodeKeyModel model) .init = model := by
  refine (update_of_get (k := .index) rfl).trans (SigNodeKeyModel.ext ?_ ?_) <;> dsimp only
  · exact read_some rfl (intValue_setWidth16 _)
  · exact read_some rfl (boolValue_numberWithBool _)

theorem schedulerModel_import_export (model : SchedulerModel) :
    setDictionaryToSchedulerModel (getDictionaryOfSchedulerModel model) schedulerInit = model := by
  obtain ⟨schedulerData, sceneId⟩ := model
  refine (update_of_get (k := .sceneId) rfl).trans ?_
  rw [SchedulerModel.mk.injEq]
  constructor
  · exact read_some rfl (uint64From16String_getUint64String schedulerData)
  · exact read_some rfl rfl

/-- The node with the MAC address that is read of it. -/
def SigNodeModel.read (scanned : SigNodeModel → Option Text) (node : SigNodeModel) :
    SigNodeModel :=
  { node with macAddress := node.getMacAddress scanned }

/-- What the setters of a node produce; `setAddress:` writes the address. -/
structure SigNodeModel.WithinSetters (scanned : SigNodeModel → Option Text)
    (node : SigNodeModel) : Prop where
  scanned : scanned node ≠ some []
  features : node.features.isSome = true
  unicastAddress : node.unicastAddress = some (format04X node.address.toNat)
  relayRetransmit : node.relayRetransmit.isSome = true
  networkTransmit : node.networkTransmit.isSome = true
  security : node.security.isSome = true
  name : node.name.isSome = true
  elements : node.elements.isSome = true
  element : ∀ elements ∈ node.elements, ∀ element ∈ elements, element.WithinSetters
  netKeys : node.netKeys.isSome = true
  appKeys : node.appKeys.isSome = true
  schedulerList : node.schedulerList.isSome = true

/-- What an import gives back of a node. -/
def SigNodeModel.imported (scanned : SigNodeModel → Option Text) (node : SigNodeModel) :
    SigNodeModel :=
  { node with
    macAddress := some ((node.getMacAddress scanned).getD [])
    uuid := node.uuid.map meshUUIDToUUID
    elements := node.elements.map fun elements => elements.mapIdx (placeElement node.address)
    heartbeatPub := some .init
    heartbeatSub := some [] }

theorem elementsOf_arrayOf {elements : List SigElementModel}
    (h : ∀ element ∈ elements, element.WithinSetters) (address : BitVec 16) :
    elementsOf address (arrayOf getDictionaryOfSigElementModel elements) =
      some (elements.mapIdx (placeElement address)) := by
  refine congrArg some (List.ext_getElem? fun i => ?_)
  change ((elements.map fun element => dict (getDictionaryOfSigElementModel element)).mapIdx _)[i]?
    = _
  rw [List.getElem?_mapIdx, List.getElem?_mapIdx, List.getElem?_map]
  cases hi : elements[i]? with
  | none => rfl
  | some element =>
    have hread := (h element (List.mem_of_getElem? hi)).import_export
    exact (congrArg (fun e => some (placeElement address i e)) hread).trans rfl

theorem SigNodeModel.WithinSetters.import_export {scanned : SigNodeModel → Option Text}
    {node : SigNodeModel} (h : node.WithinSetters scanned) :
    setDictionaryToSigNodeModel (getDictionaryOfSigNodeModel scanned node) .init =
      node.imported scanned := by
  have hunicast : (getDictionaryOfSigNodeModel scanned node).read .unicastAddress asText none =
      node.unicastAddress := read_text rfl fun _ => rfl
  refine (update_of_get (k := .defaultTTL) rfl).trans (SigNodeModel.ext ?_ ?_ ?_ ?_ ?_ ?_ ?_ ?_ ?_
    ?_ ?_ ?_ ?_ ?_ ?_ ?_ ?_ ?_ ?_ ?_ ?_ rfl rfl) <;> dsimp only
  · refine read_eq (o := node.getMacAddress scanned) (w := .text) rfl (fun mac hmac => ?_)
      fun hnone => ?_
    · rw [SigNodeModel.imported, Option.mem_def.mp hmac]
      rfl
    · rw [SigNodeModel.imported, hnone]
      rfl
  · exact read_dict (r := (setDictionaryToSigFeatureModel · .init)) rfl
      (fun features _ => features.import_export) (ne_none h.features)
  · exact hunicast
  · exact read_some rfl (boolValue_numberWithBool _)
  · exact read_dict (r := (setDictionaryToSigRelayretransmitModel · relayretransmitInit)) rfl
      (fun retransmit _ => retransmit.import_export _) (ne_none h.relayRetransmit)
  · exact read_dict (r := (setDictionaryToSigNetworktransmitModel · networktransmitInit)) rfl
      (fun transmit _ => transmit.import_export _) (ne_none h.networkTransmit)
  · exact read_some rfl (boolValue_numberWithBool _)
  · exact read_text rfl fun _ => rfl
  · exact read_text rfl fun _ => rfl
  · exact read_some rfl (boolValue_numberWithBool _)
  · -- the dashes go both when it is written and when it is read
    refine read_eq (o := node.uuid) (w := fun uuid => .text (meshUUIDToUUID uuid)) rfl
      (fun uuid huuid => ?_) fun hnone => ?_
    · rw [SigNodeModel.imported, Option.mem_def.mp huuid]
      exact congrArg some (meshUUIDToUUID_twice uuid)
    · rw [SigNodeModel.imported, hnone]
      rfl
  · exact read_text rfl (ne_none h.security)
  · exact read_text rfl fun _ => rfl
  · exact read_some rfl rfl
  · exact read_text rfl fun _ => rfl
  · exact read_text rfl (ne_none h.name)
  · exact read_text rfl fun _ => rfl
  · -- the elements get the address that was read before them
    refine read_eq (o := node.elements) rfl (fun elements helements => ?_) (ne_none h.elements)
    have haddress := congrArg (fun t => uint16From16String (t.getD [])) hunicast
    refine (congrArg (elementsOf · _) haddress).trans ?_
    rw [elementsOf_arrayOf (h.element elements helements), SigNodeModel.imported,
      Option.mem_def.mp helements]
    rfl
  · exact read_models_same rfl (fun _ _ key _ => key.import_export) (ne_none h.netKeys)
  · exact read_models_same rfl (fun _ _ key _ => key.import_export) (ne_none h.appKeys)
  · exact read_models_same rfl (fun _ _ model _ => schedulerModel_import_export model)
      (ne_none h.schedulerList)

/-! ### What is lost -/

/-- A node that an import gives back as it was: it has no heartbeat publication or subscription,
no dash in its UUID, and its elements have their places. -/
structure SigNodeModel.Kept (node : SigNodeModel) : Prop where
  heartbeatPub : node.heartbeatPub = some .init
  heartbeatSub : node.heartbeatSub = some []
  uuid : ∀ uuid ∈ node.uuid, '-' ∉ uuid
  elements : ∀ elements ∈ node.elements, ∀ i element, elements[i]? = some element →
    element.index = BitVec.ofNat 8 i ∧ element.parentNodeAddress = node.address

theorem placeElement_eq_iff (address : BitVec 16) (i : ℕ) (element : SigElementModel) :
    placeElement address i element = element ↔
      element.index = BitVec.ofNat 8 i ∧ element.parentNodeAddress = address := by
  have hindex : (if element.index.toNat ≠ i then BitVec.ofNat 8 i else element.index) =
      element.index ↔ element.index = BitVec.ofNat 8 i := by
    by_cases hi : element.index.toNat ≠ i
    · rw [if_pos hi]
      exact eq_comm
    · rw [if_neg hi]
      refine iff_of_true rfl ?_
      rw [← not_not.mp hi, BitVec.ofNat_toNat, BitVec.setWidth_eq]
  rw [← hindex, eq_comm (a := element.parentNodeAddress)]
  constructor
  · intro h
    exact ⟨congrArg SigElementModel.index h, congrArg SigElementModel.parentNodeAddress h⟩
  · rintro ⟨hplace, haddress⟩
    exact SigElementModel.ext rfl rfl hplace haddress rfl

theorem mapIdx_placeElement_eq_iff (address : BitVec 16) (elements : List SigElementModel) :
    elements.mapIdx (placeElement address) = elements ↔ ∀ i element,
      elements[i]? = some element →
        element.index = BitVec.ofNat 8 i ∧ element.parentNodeAddress = address := by
  rw [List.mapIdx_eq_iff]
  refine forall_congr' fun i => ?_
  cases elements[i]? with
  | none => exact iff_of_true rfl fun element h => absurd h.symm (Option.some_ne_none element)
  | some element =>
    refine Iff.trans ?_ (placeElement_eq_iff address i element |>.trans ?_)
    · exact eq_comm.trans (Option.some_inj)
    · constructor
      · intro h x hx
        exact Option.some_inj.mp hx ▸ h
      · exact fun h => h element rfl

theorem map_eq_self_iff {α : Type} {f : α → α} {o : Option α} :
    o.map f = o ↔ ∀ x ∈ o, f x = x := by
  cases o with
  | none => exact iff_of_true rfl fun x hx => absurd hx.symm (Option.some_ne_none x)
  | some x =>
    refine Option.some_inj.trans ?_
    constructor
    · intro h y hy
      exact Option.some_inj.mp hy ▸ h
    · exact fun h => h x rfl

section

variable {scanned : SigNodeModel → Option Text} {node : SigNodeModel}

theorem SigNodeModel.WithinSetters.getMacAddress_ne (h : node.WithinSetters scanned) :
    node.getMacAddress scanned ≠ some [] := by
  unfold SigNodeModel.getMacAddress
  match node.macAddress with
  | some (c :: rest) => exact fun heq => List.cons_ne_nil c rest (Option.some_inj.mp heq)
  | some [] | none => exact h.scanned

/-- Where nothing is scanned, the MAC address is what was imported. -/
theorem SigNodeModel.WithinSetters.getMacAddress_imported (h : node.WithinSetters scanned) :
    (node.imported scanned).getMacAddress (fun _ => none) = node.getMacAddress scanned := by
  have hmac : (node.imported scanned).macAddress =
      some ((node.getMacAddress scanned).getD []) := rfl
  rw [SigNodeModel.getMacAddress, hmac]
  match hget : node.getMacAddress scanned with
  | some (_ :: _) | none => rfl
  | some [] => exact absurd hget h.getMacAddress_ne

/-- **A node** is given back exactly when it has nothing to lose. -/
theorem SigNodeModel.WithinSetters.read_imported_iff (h : node.WithinSetters scanned) :
    (node.imported scanned).read (fun _ => none) = node.read scanned ↔ node.Kept := by
  constructor
  · intro heq
    refine ⟨?_, ?_, ?_, ?_⟩
    · exact (congrArg SigNodeModel.heartbeatPub heq).symm
    · exact (congrArg SigNodeModel.heartbeatSub heq).symm
    · intro uuid huuid
      have hmap : node.uuid.map meshUUIDToUUID = node.uuid := congrArg SigNodeModel.uuid heq
      exact (meshUUIDToUUID_eq_iff uuid).mp (map_eq_self_iff.mp hmap uuid huuid)
    · intro elements helements
      have hmap : node.elements.map (fun elements =>
          elements.mapIdx (placeElement node.address)) = node.elements :=
        congrArg SigNodeModel.elements heq
      exact (mapIdx_placeElement_eq_iff _ elements).mp (map_eq_self_iff.mp hmap elements helements)
  · rintro ⟨hpub, hsub, huuid, helements⟩
    refine SigNodeModel.ext h.getMacAddress_imported rfl rfl rfl rfl rfl rfl rfl rfl rfl ?_ rfl rfl
      rfl rfl rfl rfl ?_ rfl rfl rfl hpub.symm hsub.symm
    · exact map_eq_self_iff.mpr fun uuid hmem => (meshUUIDToUUID_eq_iff uuid).mpr (huuid uuid hmem)
    · exact map_eq_self_iff.mpr fun elements hmem =>
        (mapIdx_placeElement_eq_iff _ elements).mpr (helements elements hmem)

end

/-! ### The data source -/

/-- The data source with what is read of its nodes and scenes. -/
def SigDataSource.read (scanned : SigNodeModel → Option Text) (db : SigDataSource) :
    SigDataSource :=
  { db with
    nodes := db.nodes.map (List.map (SigNodeModel.read scanned))
    scenes := db.scenes.map (List.map SigSceneModel.read) }

/-- What the setters produce; an application key has an index of 16 bits. -/
structure SigDataSource.WithinSetters (scanned : SigNodeModel → Option Text)
    (db : SigDataSource) : Prop where
  ivIndex : db.ivIndex.isSome = true
  netKeys : db.netKeys.isSome = true
  appKeys : db.appKeys.isSome = true
  appKey : ∀ appKeys ∈ db.appKeys, ∀ key ∈ appKeys, key.index.toNat < 2 ^ 16
  provisioners : db.provisioners.isSome = true
  nodes : db.nodes.isSome = true
  node : ∀ nodes ∈ db.nodes, ∀ node ∈ nodes, node.WithinSetters scanned
  groups : db.groups.isSome = true
  scenes : db.scenes.isSome = true
  scene : ∀ scenes ∈ db.scenes, ∀ scene ∈ scenes, scene.WithinSetters

/-- No node has anything to lose. -/
def SigDataSource.Kept (db : SigDataSource) : Prop :=
  ∀ nodes ∈ db.nodes, ∀ node ∈ nodes, node.Kept

section

variable {scanned : SigNodeModel → Option Text} {db : SigDataSource}

theorem SigDataSource.WithinSetters.import_export (h : db.WithinSetters scanned) :
    setDictionaryToDataSource (getDictionaryFromDataSource scanned db) .init =
      { db with
        nodes := db.nodes.map (List.map (SigNodeModel.imported scanned))
        scenes := db.scenes.map (List.map SigSceneModel.read) } := by
  have hset : setDictionaryToDataSource (getDictionaryFromDataSource scanned db) .init = _ :=
    update_of_reads fun hempty => by
      rw [read_of_isEmpty hempty, read_of_isEmpty hempty, read_of_isEmpty hempty,
        read_of_isEmpty hempty, read_of_isEmpty hempty, read_of_isEmpty hempty,
        read_of_isEmpty hempty, read_of_isEmpty hempty, read_of_isEmpty hempty,
        read_of_isEmpty hempty, read_of_isEmpty hempty, read_of_isEmpty hempty]
  refine hset.trans (SigDataSource.ext ?_ ?_ ?_ ?_ ?_ ?_ ?_ ?_ ?_ ?_ ?_ ?_) <;> dsimp only
  · exact read_text rfl fun _ => rfl
  · exact read_text rfl fun _ => rfl
  · exact read_text rfl fun _ => rfl
  · exact read_text rfl fun _ => rfl
  · exact read_text rfl fun _ => rfl
  · exact read_text rfl (ne_none h.ivIndex)
  · exact read_models_same rfl (fun _ _ key _ => key.import_export) (ne_none h.netKeys)
  · exact read_models_same rfl
      (fun l hl key hk => (SigAppkeyModel.import_export (h.appKey l hl key hk)))
      (ne_none h.appKeys)
  · exact read_models_same rfl (fun _ _ provisioner _ => provisioner.import_export)
      (ne_none h.provisioners)
  · exact read_models rfl (fun l hl node hn => (h.node l hl node hn).import_export)
      (ne_none h.nodes)
  · exact read_models_same rfl (fun _ _ group _ => group.import_export) (ne_none h.groups)
  · exact read_models rfl (fun l hl scene hs => (h.scene l hl scene hs).import_export)
      (ne_none h.scenes)

theorem read_scenes_twice (scenes : Option (List SigSceneModel)) :
    (scenes.map (List.map SigSceneModel.read)).map (List.map SigSceneModel.read) =
      scenes.map (List.map SigSceneModel.read) := by
  rw [Option.map_map]
  refine congrArg (scenes.map ·) (funext fun l => ?_)
  exact (List.map_map ..).trans (List.map_congr_left fun scene _ => scene.read_read)

theorem SigDataSource.WithinSetters.read_nodes_iff (h : db.WithinSetters scanned) :
    (db.nodes.map (List.map (SigNodeModel.imported scanned))).map
        (List.map (SigNodeModel.read fun _ => none)) =
      db.nodes.map (List.map (SigNodeModel.read scanned)) ↔ db.Kept := by
  have hnode := h.node
  unfold SigDataSource.Kept
  cases hnodes : db.nodes with
  | none => exact iff_of_true rfl fun nodes hn => absurd hn.symm (Option.some_ne_none nodes)
  | some nodes =>
    refine Option.some_inj.trans ?_
    rw [List.map_map, List.map_inj_left]
    constructor
    · intro heq l hl node hmem
      obtain rfl := Option.some_inj.mp hl
      exact (hnode nodes hnodes node hmem).read_imported_iff.mp (heq node hmem)
    · intro hkept node hmem
      exact (hnode nodes hnodes node hmem).read_imported_iff.mpr (hkept nodes rfl node hmem)

end

/-- **An import of what was exported** gives back the mesh exactly when no node has anything to
lose. -/
theorem dataSource_iff (scanned : SigNodeModel → Option Text) (db : SigDataSource)
    (h : db.WithinSetters scanned) :
    (setDictionaryToDataSource (getDictionaryFromDataSource scanned db) .init).read
        (fun _ => none) = db.read scanned ↔ db.Kept := by
  rw [h.import_export]
  constructor
  · exact fun heq => h.read_nodes_iff.mp (congrArg SigDataSource.nodes heq)
  · exact fun hkept => SigDataSource.ext rfl rfl rfl rfl rfl rfl rfl rfl rfl
      (h.read_nodes_iff.mpr hkept) rfl (read_scenes_twice db.scenes)

/-- A mesh of one node, at address 2. -/
def nodeMesh (heartbeatPub : SigHeartbeatPubModel) : SigDataSource :=
  { SigDataSource.init with
    netKeys := some [⟨none, 0, some ['7', 'D'], none, 1, none, none⟩]
    appKeys := some [⟨none, some ['6', '3'], none, 5, 0⟩]
    provisioners := some [⟨none, none, some [⟨some (format04X 1), some (format04X 0x400)⟩], none,
      some [⟨some (format04X 1), none⟩]⟩]
    nodes := some [{ SigNodeModel.init with
      unicastAddress := some (format04X 2)
      elements := some [⟨none, some (format04X 0), 0, 2, some [⟨some (format04X 0x1000),
        some ⟨some (format04X 0xC000), 5, 0, 255, some ⟨1, 2⟩, some ⟨3, 4⟩⟩, some [5],
        some [format04X 0xC001]⟩]⟩]
      heartbeatPub := some heartbeatPub }]
    groups := some [⟨none, some (format04X 0xC000), none⟩]
    scenes := some [⟨none, 7, some [], some [⟨2, 1, 50, 60⟩]⟩] }

theorem forall_mem_some_singleton {α : Type} {p : α → Prop} {x : α} (h : p x) :
    ∀ l ∈ some [x], ∀ y ∈ l, p y := by
  intro l hl y hy
  obtain rfl := Option.some_inj.mp hl
  exact List.mem_singleton.mp hy ▸ h

theorem nodeMesh_withinSetters (heartbeatPub : SigHeartbeatPubModel) :
    (nodeMesh heartbeatPub).WithinSetters fun _ => none := by
  have haddress : some (format04X 2) =
      some (format04X (uint16From16String (format04X 2)).toNat) := by decide
  refine ⟨rfl, rfl, rfl, ?_, rfl, rfl, ?_, rfl, rfl, ?_⟩
  · exact forall_mem_some_singleton (by decide)
  · refine forall_mem_some_singleton ⟨(Option.some_ne_none _).symm, rfl, haddress, rfl, rfl,
      rfl, rfl, rfl, ?_, rfl, rfl, rfl⟩
    refine forall_mem_some_singleton ⟨rfl, ?_⟩
    refine forall_mem_some_singleton ⟨fun publish hp => ?_, rfl, rfl⟩
    obtain rfl := Option.some_inj.mp hp
    exact ⟨rfl, rfl, rfl⟩
  · exact forall_mem_some_singleton ⟨by decide, rfl, rfl⟩

/-- A node without a heartbeat publication. -/
theorem dataSource_iff_node :
    (setDictionaryToDataSource (getDictionaryFromDataSource (fun _ => none) (nodeMesh .init))
        .init).read (fun _ => none) = (nodeMesh .init).read fun _ => none := by
  refine (dataSource_iff (fun _ => none) (nodeMesh .init) (nodeMesh_withinSetters .init)).mpr ?_
  refine forall_mem_some_singleton ⟨rfl, rfl, fun uuid huuid => ?_, fun elements hmem => ?_⟩
  · exact absurd huuid.symm (Option.some_ne_none uuid)
  · obtain rfl := Option.some_inj.mp hmem
    exact (mapIdx_placeElement_eq_iff _ _).mp rfl

/-- A node that publishes its heartbeats to a group. -/
theorem dataSource_refuted : ¬ ∀ (scanned : SigNodeModel → Option Text) (db : SigDataSource),
    db.WithinSetters scanned →
    ((setDictionaryToDataSource (getDictionaryFromDataSource scanned db) .init).read
        (fun _ => none)).nodes = (db.read scanned).nodes := by
  intro h
  have hnodes := h (fun _ => none) (nodeMesh ⟨some (format04X 0xC000), 3, 5, 0, none⟩)
    (nodeMesh_withinSetters _)
  rw [(nodeMesh_withinSetters _).import_export] at hnodes
  have hnode := List.head_eq_of_cons_eq (Option.some_inj.mp hnodes)
  have hpub := Option.some_inj.mp (congrArg SigNodeModel.heartbeatPub hnode)
  exact absurd (congrArg SigHeartbeatPubModel.period hpub) (by decide)

end PirMesh.MeshDictionary
