import PirMesh.Library.Nor
import PirMesh.Library.Run
import PirMesh.Library.Writes

/-! # Config — Shared subscription lists of `mesh_common.c`

The models of one light share their subscription list: after a configuration
message has changed the list of one of them, `share_model_sub` repeats the
operation for the models in its two tables and for those on the light's other
elements.

`mesh_sub_search_and_set` is not part of the repository's sources.  It looks for
the model on the element and, if it is there, changes its list; what it does to a
list is a parameter. -/

namespace PirMesh

open Nor

/-! ### Models -/

/-- A model id, of the Bluetooth SIG or of a vendor. -/
inductive ModelId
  | sig (id : BitVec 16)
  | vendor (id : BitVec 32)
  deriving DecidableEq, Repr

namespace ModelId

def gOnoffS : ModelId := .sig 0x1000

def gLevelS : ModelId := .sig 0x1002

def sceneS : ModelId := .sig 0x1203

def lightnessS : ModelId := .sig 0x1300

def lightnessSetupS : ModelId := .sig 0x1301

def lightCtlS : ModelId := .sig 0x1303

def lightCtlSetupS : ModelId := .sig 0x1304

def lightCtlTempS : ModelId := .sig 0x1306

def lightHslS : ModelId := .sig 0x1307

def lightHslSetupS : ModelId := .sig 0x1308

def lightHslHueS : ModelId := .sig 0x130A

def lightHslSatS : ModelId := .sig 0x130B

/-- The model ids of a vendor end in its company id. -/
def lightVendorS (vendorId : BitVec 16) : ModelId := .vendor (0x0000#16 ++ vendorId)

def lightVendorS2 (vendorId : BitVec 16) : ModelId := .vendor (0x0002#16 ++ vendorId)

end ModelId

/-- `LIGHT_TYPE_SEL`, as far as the tables depend on it. -/
inductive LightType
  | ct
  | hsl
  | xyl
  | ctHsl
  | other
  deriving DecidableEq, Repr

/-- How many elements the composition data has models for. -/
def LightType.eleCnt : LightType → Nat
  | .ct => 2
  | .hsl => 3
  | .xyl => 3
  | .ctHsl => 4
  | .other => 1

/-- The switches of the build, and the models on the first element of each light. -/
structure LightBuild where
  mdOnoffEn : Bool
  mdLevelEn : Bool
  mdLightnessEn : Bool
  shareAllLightStateModelEn : Bool
  mdVendor2ndEn : Bool
  vendorId : BitVec 16
  lightType : LightType
  lightCnt : Nat
  eleCntEveryLight : Nat
  eleAdrPrimary : Nat
  first : Nat → ModelId → Bool
  eleCnt_pos : 0 < eleCntEveryLight
  /-- `STATIC_ASSERT(MD_LEVEL_EN)` -/
  level_assert : 2 ≤ eleCntEveryLight → mdLevelEn = true
  eleCnt_type : 2 ≤ eleCntEveryLight → lightType.eleCnt ≤ eleCntEveryLight

namespace LightBuild

variable (b : LightBuild)

/-- `LIGHT_TYPE_CT_EN` -/
def lightTypeCtEn : Bool := decide (b.lightType = .ct ∨ b.lightType = .ctHsl)

/-- `LIGHT_TYPE_HSL_EN` -/
def lightTypeHslEn : Bool := decide (b.lightType = .hsl ∨ b.lightType = .ctHsl)

/-- The models of the second, third and fourth element of a light. -/
def otherEleModels : Nat → List ModelId
  | 1 => .gLevelS :: match b.lightType with
    | .ct => [.lightCtlTempS]
    | .hsl => [.lightHslHueS]
    | .ctHsl => [.lightCtlTempS]
    | _ => []
  | 2 => .gLevelS :: match b.lightType with
    | .hsl => [.lightHslSatS]
    | .ctHsl => [.lightHslHueS]
    | _ => []
  | 3 => .gLevelS :: match b.lightType with
    | .ctHsl => [.lightHslSatS]
    | _ => []
  | _ => [.gLevelS]

def isOwnEle (adr : Nat) : Bool :=
  decide (b.eleAdrPrimary ≤ adr ∧ adr < b.eleAdrPrimary + b.lightCnt * b.eleCntEveryLight)

/-- Whether the element with address `adr` has the model. -/
def hasModel (p : Nat × ModelId) : Bool :=
  let i := p.1 - b.eleAdrPrimary
  b.isOwnEle p.1 && if i % b.eleCntEveryLight = 0 then b.first (i / b.eleCntEveryLight) p.2
    else decide (p.2 ∈ b.otherEleModels (i % b.eleCntEveryLight))

/-! ### The tables -/

def subShareModelSig : List ModelId :=
  (if b.mdOnoffEn then [.gOnoffS] else []) ++
  (if b.mdLevelEn then [.gLevelS] else []) ++
  (if b.mdLightnessEn then
    .lightnessS :: (if b.shareAllLightStateModelEn then [.lightnessSetupS] else []) else []) ++
  (if b.lightTypeCtEn then
    .lightCtlS :: .lightCtlTempS ::
      (if b.shareAllLightStateModelEn then [.lightCtlSetupS] else []) else []) ++
  (if b.lightTypeHslEn then
    .lightHslS :: .lightHslHueS :: .lightHslSatS ::
      (if b.shareAllLightStateModelEn then [.lightHslSetupS] else []) else []) ++
  (if b.shareAllLightStateModelEn then [.sceneS] else [])

def subShareModelVendor : List ModelId :=
  if b.shareAllLightStateModelEn then
    .lightVendorS b.vendorId :: (if b.mdVendor2ndEn then [.lightVendorS2 b.vendorId] else [])
  else []

/-! ### Sharing -/

/-- The calls of `mesh_sub_search_and_set` that `share_model_sub` makes, in their order. -/
def shareModelSubCalls (lightIdx : Nat) : List (Nat × ModelId) :=
  let eleAdr := b.eleAdrPrimary + lightIdx * b.eleCntEveryLight
  b.subShareModelSig.map (fun md => (eleAdr, md)) ++
  b.subShareModelVendor.map (fun md => (eleAdr, md)) ++
  if 2 ≤ b.eleCntEveryLight then
    (List.range (b.eleCntEveryLight - 1)).map (fun i => (eleAdr + i, .gLevelS)) ++
    (if b.lightTypeCtEn then [(eleAdr + 1, .lightCtlTempS)] else []) ++
    (if b.lightTypeHslEn then
      let offset := if b.lightType = .hsl then 1 else 2
      [(eleAdr + offset, .lightHslHueS), (eleAdr + offset + 1, .lightHslSatS)]
    else [])
  else []

end LightBuild

/-- The subscription list of every model of the node. -/
abbrev Subs (L : Type) := Nat × ModelId → L

section
variable (b : LightBuild) {L : Type} (f : L → L)

/-- `f` is what the message does to a list. -/
def meshSubSearchAndSet (s : Subs L) (p : Nat × ModelId) : Subs L :=
  Targets.applyAt f b.hasModel s p

def shareModelSub (lightIdx : Nat) (s : Subs L) : Subs L :=
  (b.shareModelSubCalls lightIdx).foldl (meshSubSearchAndSet b f) s

def isNeedShareModelSub : ModelId → Bool
  | .sig id => decide (.sig id ∈ b.subShareModelSig)
  | .vendor _ => false

def shareModelSubByRxCmd (eleAdr : Nat) (modelId : ModelId) (s : Subs L) : Subs L :=
  if isNeedShareModelSub b modelId then
    if b.isOwnEle eleAdr then
      shareModelSub b f ((eleAdr - b.eleAdrPrimary) / b.eleCntEveryLight) s
    else s
  else s

/-- A configuration message: the addressed model is set, then the list is shared. -/
def cfgModelSub (eleAdr : Nat) (modelId : ModelId) (s : Subs L) : Subs L :=
  if b.hasModel (eleAdr, modelId) then
    shareModelSubByRxCmd b f eleAdr modelId (meshSubSearchAndSet b f s (eleAdr, modelId))
  else s

end

/-! ### Runs -/

/-- A message: what it asks for and the model it is addressed to. -/
structure SubMsg (Req : Type) where
  req : Req
  eleAdr : Nat
  modelId : ModelId

/-- A new node: every list is the same. -/
def subSys (b : LightBuild) {L Req : Type} (apply : Req → L → L) : Run.Sys (Subs L) (SubMsg Req) :=
  .det (fun s => ∀ p q, s p = s q) fun s m => cfgModelSub b (apply m.req) m.eleAdr m.modelId s

end PirMesh
