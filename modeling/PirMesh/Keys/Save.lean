import PirMesh.Flash.ParStore
import PirMesh.Keys.Table
import PirMesh.Library.Format

/-! # Keys — Saving and retrieving the key table

`mesh_key_save` writes a packed image of the table through the parameter store,
and `mesh_key_retrieve` builds the table again at boot by adding the keys of the
image one by one.  The image has one key for each NetKey and AppKey and no
phase.  The cipher of the image is the security library's (`KeyCipher`). -/

namespace PirMesh

open Nor

/-! ### The image -/

structure MeshNetKeySave where
  valid : Bool
  index : KeyIdx
  nodeIdentity : Byte
  privIdentity : Byte
  key : Key
  appKey : Fin appKeyMax → MeshAppKey

/-- The part of `mesh_key_save_t` before `mic_val`. -/
structure MeshKeySave where
  devKey : Key
  netKey : Fin netKeyMax → MeshNetKeySave

def MeshNetKeySave.zero : MeshNetKeySave :=
  ⟨false, 0, 0, 0, Vector.replicate 16 0, fun _ => .zero⟩

def appKeyLayout : Layout MeshAppKey :=
  ((Layout.bytes 16).pair ((Layout.word 1).pair ((Layout.word 2).pair .flag))).record
    (fun (key, aid, index, valid) => ⟨key, aid, index, valid⟩)
    (fun a => (a.key, a.aid, a.index, a.valid)) fun _ => rfl

def netKeySaveLayout : Layout MeshNetKeySave :=
  (Layout.flag.pair ((Layout.word 2).pair ((Layout.word 1).pair ((Layout.word 1).pair
    ((Layout.zeros 11).pair ((Layout.bytes 16).pair (appKeyLayout.vec appKeyMax))))))).record
    (fun (valid, index, nodeIdentity, privIdentity, _, key, appKey) =>
      ⟨valid, index, nodeIdentity, privIdentity, key, appKey⟩)
    (fun e => (e.valid, e.index, e.nodeIdentity, e.privIdentity, (), e.key, e.appKey)) fun _ => rfl

def keySaveLayout : Layout MeshKeySave :=
  ((Layout.bytes 16).pair ((netKeySaveLayout.vec netKeyMax).pair (.zeros 14))).record
    (fun (devKey, netKey, _) => ⟨devKey, netKey⟩) (fun s => (s.devKey, s.netKey, ())) fun _ => rfl

/-- `OFFSETOF(mesh_key_save_t, mic_val)` -/
example : keySaveLayout.size = 174 := rfl

/-- `sizeof(mesh_key_save_t)`: the part above, `mic_val` and `encode_flag`. -/
def sizeofMeshKeySave : Nat := 176

def keySaveEncodeFlag : Byte := 0x3A

def flashAdrMeshKey : Nat := 0x30000

/-- `encode_password_ll` and `decode_password_ll` under the fixed user key: the first
encrypts in place and appends a MIC byte, the second checks it and undoes the first. -/
structure KeyCipher where
  enc : List Byte → List Byte
  dec : List Byte → Option (List Byte)
  length_enc : ∀ p, (enc p).length = p.length + 1
  dec_enc : ∀ p, dec (enc p) = some p

/-! ### Save -/

def saveAppKey (a : MeshAppKey) : MeshAppKey :=
  if a.valid then { MeshAppKey.zero with valid := a.valid, index := a.index, key := a.key }
  else .zero

variable {Mat : Type}

def saveNetKey (e : MeshNetKey Mat) : MeshNetKeySave :=
  if e.valid then
    { valid := e.valid
      index := e.index
      nodeIdentity := e.nodeIdentity
      privIdentity := e.privIdentity
      key := e.key
      appKey := fun j => saveAppKey (e.appKey j) }
  else .zero

def keySave (t : MeshKey Mat) : MeshKeySave := ⟨t.devKey, fun i => saveNetKey (t.netKey i).old⟩

/-- The bytes `mesh_key_save` hands to the store. -/
def keyImage (K : KeyCipher) (t : MeshKey Mat) : List Byte :=
  K.enc (keySaveLayout.put (keySave t)) ++ [keySaveEncodeFlag]

/-- `mesh_key_save`, with `*p_adr` the RAM variable `mesh_key_addr`. -/
def meshKeySave (K : KeyCipher) (t : MeshKey Mat) (meshKeyAddr : Nat) : Prog Nat :=
  meshParStore meshSaveMap (keyImage K t) meshKeyAddr flashAdrMeshKey sizeofMeshKeySave

/-! ### Retrieve -/

variable (D : KeyDeriv Mat)

def setIdentities (s : MeshNetKeySave) (t : MeshKey Mat) : MeshKey Mat :=
  match isMeshNetKeyExist t s.index with
  | some i => t.setOld i { (t.netKey i).old with
      nodeIdentity := s.nodeIdentity, privIdentity := s.privIdentity }
  | none => t

/-- The AppKey part of the loop body, for slot `j`. -/
def restoreAppKey (s : MeshNetKeySave) (t : MeshKey Mat) (j : Fin appKeyMax) : MeshKey Mat :=
  if (s.appKey j).valid then
    (meshAppKeySet D appkeyAdd (s.appKey j).key (s.appKey j).index s.index false t).key
  else t

/-- The loop body of `mesh_key_retrieve` for one saved NetKey. -/
def restoreNetKey (t : MeshKey Mat) (s : MeshNetKeySave) : MeshKey Mat :=
  if s.valid then
    setIdentities s ((List.finRange appKeyMax).foldl (restoreAppKey D s)
      (meshNetKeySet D netkeyAdd s.key s.index false t).key)
  else t

def restoreKeys (s : MeshKeySave) (t : MeshKey Mat) : MeshKey Mat :=
  ((List.finRange netKeyMax).map s.netKey).foldl (restoreNetKey D) { t with devKey := s.devKey }

/-- The plain image, when the stored one is encoded and its MIC is right, or when it is
not encoded. -/
def decodeKeyImage (K : KeyCipher) (image : List Byte) : Option (List Byte) :=
  if image.getD 175 0 = keySaveEncodeFlag then K.dec (image.take 175) else some image

/-- `mesh_key_retrieve` on the table `t` in RAM.  Without an image the factory test keys
may be bound (`factoryTest`). -/
def meshKeyRetrieve (K : KeyCipher) (factoryTest : MeshKey Mat → MeshKey Mat) (t : MeshKey Mat)
    (meshKeyAddr : Nat) : Prog (Int × MeshKey Mat × Nat) := do
  let r ← meshParRetrieve (List.replicate sizeofMeshKeySave 0) meshKeyAddr flashAdrMeshKey
    sizeofMeshKeySave
  if r.err = 0 then
    match decodeKeyImage K r.out with
    | some plain => pure (0, restoreKeys D (keySaveLayout.get plain) t, r.pAdr)
    | none => pure (-1, factoryTest t, r.pAdr)
  else pure (r.err, factoryTest t, r.pAdr)

end PirMesh
