import Mathlib.Logic.Function.Basic
import PirMesh.Library.Nor
import PirMesh.Library.Slots

/-! # Keys — The key table of `mesh_node.c`

The NetKeys of a node, each a row of two generations (the key in use and the
key a refresh brings in) with the AppKeys bound to it nested inside, and the
two functions that change the table, `mesh_net_key_set` and
`mesh_app_key_set`.  Every lookup reads the generation in use only.

What the security library derives from a key is a parameter (`KeyDeriv`).
A call returns its status, the table it leaves, and whether it saved the table
(`mesh_key_save`); the last save of a call sees the table the call leaves. -/

namespace PirMesh

open Nor Slots

/-! ### Constants -/

def netKeyMax : Nat := 2

def appKeyMax : Nat := 2

abbrev Op := BitVec 16

def netkeyAdd : Op := 0x4080

def netkeyDel : Op := 0x4180

def netkeyUpdate : Op := 0x4580

def appkeyAdd : Op := 0x00

def appkeyUpdate : Op := 0x01

def appkeyDel : Op := 0x0080

/-- The `ST_` codes the two functions return. -/
inductive Status
  | success
  | invalidAppkey
  | invalidNetkey
  | insufficientRes
  | keyidxAlreadyStore
  | canNotUpdate
  | canNotRemove
  | unspecErr
  | invalidBind
  deriving DecidableEq, Repr

/-- The values of `key_phase`. -/
inductive KeyPhase
  | normal
  | phase1
  | phase2
  deriving DecidableEq, Repr

/-- `NODE_IDENTITY_SUB_NET_RUN` -/
def nodeIdentitySubNetRun : Byte := 1

/-- `PRIVATE_NODE_IDENTITY_DISABLE` -/
def privateNodeIdentityDisable : Byte := 0

/-! ### Data -/

abbrev Key := Vector Byte 16

/-- A key index: the `u16 index` of NetKeys and AppKeys. -/
abbrev KeyIdx := BitVec 16

/-- What the security library computes from a key: the material a NetKey entry
caches (encryption and privacy keys, identities, network id) and the AID. -/
structure KeyDeriv (Mat : Type) where
  net : Key → Mat
  noNet : Mat
  aid : Key → Byte

structure MeshAppKey where
  key : Key
  aid : Byte
  index : KeyIdx
  valid : Bool
  deriving DecidableEq, Repr

structure MeshNetKey (Mat : Type) where
  key : Key
  mat : Mat
  index : KeyIdx
  valid : Bool
  keyPhase : KeyPhase
  nodeIdentity : Byte
  privIdentity : Byte
  appKey : Fin appKeyMax → MeshAppKey

/-- One row of `net_key[NET_KEY_MAX][2]`: generation 0 and generation 1. -/
structure NetKeyRow (Mat : Type) where
  old : MeshNetKey Mat
  new : MeshNetKey Mat

structure MeshKey (Mat : Type) where
  devKey : Key
  netKey : Fin netKeyMax → NetKeyRow Mat

/-- `memset(p_appkey->key, 0, sizeof(mesh_app_key_t))` -/
def MeshAppKey.zero : MeshAppKey := ⟨Vector.replicate 16 0, 0, 0, false⟩

variable {Mat : Type} (D : KeyDeriv Mat)

/-- `memset(p_key, 0, sizeof(mesh_net_key_t))` -/
def MeshNetKey.zero : MeshNetKey Mat :=
  ⟨Vector.replicate 16 0, D.noNet, 0, false, .normal, 0, 0, fun _ => .zero⟩

namespace MeshKey

variable {D} (t : MeshKey Mat)

def setRow (i : Fin netKeyMax) (r : NetKeyRow Mat) : MeshKey Mat :=
  { t with netKey := Function.update t.netKey i r }

/-- Writes `net_key[i][0]`. -/
def setOld (i : Fin netKeyMax) (e : MeshNetKey Mat) : MeshKey Mat :=
  t.setRow i { t.netKey i with old := e }

/-- Writes `net_key[i][1]`. -/
def setNew (i : Fin netKeyMax) (e : MeshNetKey Mat) : MeshKey Mat :=
  t.setRow i { t.netKey i with new := e }

end MeshKey

/-- Writes `app_key[j]`. -/
def MeshNetKey.setApp (e : MeshNetKey Mat) (j : Fin appKeyMax) (a : MeshAppKey) : MeshNetKey Mat :=
  { e with appKey := Function.update e.appKey j a }

/-! ### Lookups

`firstIdx` is a `foreach` loop that returns at the first entry that meets its test. -/

def meshNetKeyEmptySearch (t : MeshKey Mat) : Option (Fin netKeyMax) :=
  firstIdx fun i => !(t.netKey i).old.valid

def isMeshNetKeyExist (t : MeshKey Mat) (keyIdx : KeyIdx) : Option (Fin netKeyMax) :=
  firstIdx fun i => (t.netKey i).old.valid && keyIdx == (t.netKey i).old.index

def meshAppKeyEmptySearch (e : MeshNetKey Mat) : Option (Fin appKeyMax) :=
  firstIdx fun j => !(e.appKey j).valid

/-- The slot of a valid AppKey inside one NetKey entry. -/
def appKeySlot (e : MeshNetKey Mat) (appKeyIdx : KeyIdx) : Option (Fin appKeyMax) :=
  firstIdx fun j => (e.appKey j).valid && appKeyIdx == (e.appKey j).index

/-- The row and the slot of an AppKey; `*p_net_key_idx` is the index of that row. -/
def isMeshAppKeyExist (t : MeshKey Mat) (appKeyIdx : KeyIdx) :
    Option (Fin netKeyMax × Fin appKeyMax) :=
  (List.finRange netKeyMax).findSome? fun i =>
    if (t.netKey i).old.valid then (appKeySlot (t.netKey i).old appKeyIdx).map (i, ·) else none

def getNetKeyCnt (t : MeshKey Mat) : Nat := count fun i => (t.netKey i).old.valid

/-! ### Entries -/

/-- `net_key_set2`, less the save: the phase and the AppKeys stay. -/
def netKeySet2 (e : MeshNetKey Mat) (nk : Key) (keyIdx : KeyIdx) : MeshNetKey Mat :=
  { e with
    key := nk
    mat := D.net nk
    privIdentity :=
      if e.nodeIdentity = nodeIdentitySubNetRun then privateNodeIdentityDisable else e.privIdentity
    index := keyIdx
    valid := true }

/-- `app_key_set2`, less the save. -/
def appKeySet2 (ak : Key) (appKeyIdx : KeyIdx) : MeshAppKey := ⟨ak, D.aid ak, appKeyIdx, true⟩

/-- The phases `mesh_key_refresh_phase_handle` is asked for. -/
inductive PhaseSet
  | phase1
  | phase2
  | phase3
  deriving DecidableEq, Repr

/-- `key_refresh_complete` on row `i`: the new generation moves in, the phase ends. -/
def keyRefreshComplete (t : MeshKey Mat) (i : Fin netKeyMax) : MeshKey Mat :=
  t.setRow i ⟨{ (t.netKey i).new with keyPhase := .normal }, .zero D⟩

/-- `mesh_key_refresh_phase_handle` on `net_key[i][0]`. -/
def meshKeyRefreshPhaseHandle (p : PhaseSet) (t : MeshKey Mat) (i : Fin netKeyMax) : MeshKey Mat :=
  match (t.netKey i).old.keyPhase, p with
  | .normal, .phase1 => t.setOld i { (t.netKey i).old with keyPhase := .phase1 }
  | .phase1, .phase2 => t.setOld i { (t.netKey i).old with keyPhase := .phase2 }
  | .phase1, .phase3 | .phase2, .phase3 => keyRefreshComplete D t i
  | _, _ => t

/-! ### Setting keys -/

structure KeyResult (Mat : Type) where
  st : Status
  key : MeshKey Mat
  saved : Bool

/-- `mesh_net_key_set` -/
def meshNetKeySet (op : Op) (nk : Key) (keyIdx : KeyIdx) (save : Bool) (t : MeshKey Mat) :
    KeyResult Mat :=
  if op = netkeyAdd then
    match isMeshNetKeyExist t keyIdx with
    | some i => ⟨if (t.netKey i).old.key = nk then .success else .keyidxAlreadyStore, t, false⟩
    | none =>
      match meshNetKeyEmptySearch t with
      | some i => ⟨.success, t.setOld i (netKeySet2 D (t.netKey i).old nk keyIdx), save⟩
      | none => ⟨.insufficientRes, t, false⟩
  else if op = netkeyUpdate then
    match isMeshNetKeyExist t keyIdx with
    | some i =>
      if (t.netKey i).old.keyPhase = .normal then
        ⟨.success, meshKeyRefreshPhaseHandle D .phase1
          (t.setNew i (netKeySet2 D (t.netKey i).old nk keyIdx)) i, false⟩
      else ⟨.canNotUpdate, t, false⟩
    | none => ⟨.invalidNetkey, t, false⟩
  else if op = netkeyDel then
    match isMeshNetKeyExist t keyIdx with
    | some i =>
      if getNetKeyCnt t ≤ 1 then ⟨.canNotRemove, t, false⟩
      -- the AppKeys in the entry go first, and the entry is cleared over them
      else ⟨.success, t.setOld i (.zero D), true⟩
    | none => ⟨.success, t, false⟩
  else ⟨.unspecErr, t, false⟩

/-- `mesh_app_key_set` -/
def meshAppKeySet (op : Op) (ak : Key) (appKeyIdx netKeyIdx : KeyIdx) (save : Bool)
    (t : MeshKey Mat) : KeyResult Mat :=
  match isMeshAppKeyExist t appKeyIdx with
  | some (i, j) =>
    if netKeyIdx = (t.netKey i).old.index then
      if op = appkeyAdd then
        ⟨if ak = ((t.netKey i).old.appKey j).key then .success else .keyidxAlreadyStore, t, false⟩
      else if op = appkeyUpdate then
        if (isMeshNetKeyExist t netKeyIdx).any fun k => (t.netKey k).old.keyPhase = .phase1 then
          -- one entry further: the same slot of generation 1
          ⟨.success, t.setNew i ((t.netKey i).new.setApp j (appKeySet2 D ak appKeyIdx)), save⟩
        else ⟨.canNotUpdate, t, false⟩
      else if op = appkeyDel then
        ⟨.success, t.setOld i ((t.netKey i).old.setApp j .zero), true⟩
      else ⟨.unspecErr, t, false⟩
    else if op = appkeyUpdate ∧ (isMeshNetKeyExist t netKeyIdx).isSome then
      ⟨.invalidBind, t, false⟩
    else ⟨.invalidNetkey, t, false⟩
  | none =>
    match isMeshNetKeyExist t netKeyIdx with
    | some k =>
      if op = appkeyAdd then
        match meshAppKeyEmptySearch (t.netKey k).old with
        | some j =>
          ⟨.success, t.setOld k ((t.netKey k).old.setApp j (appKeySet2 D ak appKeyIdx)), save⟩
        | none => ⟨.insufficientRes, t, false⟩
      else if op = appkeyUpdate then ⟨.invalidAppkey, t, false⟩
      else if op = appkeyDel then ⟨.success, t, false⟩
      else ⟨.unspecErr, t, false⟩
    | none => ⟨.invalidNetkey, t, false⟩

/-! ### Provisioning -/

/-- A node that holds no network key. -/
def MeshKey.empty (devKey : Key) : MeshKey Mat := ⟨devKey, fun _ => ⟨.zero D, .zero D⟩⟩

/-- `mesh_nk_update_self_and_change2phase2`: the NetKey came with the refresh flag set. -/
def meshNkUpdateSelfAndChange2phase2 (nk : Key) (keyIdx : KeyIdx) (t : MeshKey Mat) : MeshKey Mat :=
  match isMeshNetKeyExist t keyIdx with
  | some i =>
    let t := (meshNetKeySet D netkeyUpdate nk keyIdx false t).key
    t.setOld i { (t.netKey i).old with keyPhase := .phase2 }
  | none => t

/-- `mesh_net_key_add_by_provision` -/
def meshNetKeyAddByProvision (nk : Key) (keyIdx : KeyIdx) (keyFreshFlag : Bool)
    (t : MeshKey Mat) : MeshKey Mat :=
  let r := meshNetKeySet D netkeyAdd nk keyIdx true t
  let t := if r.st = .success then r.key
    else (meshNetKeySet D netkeyAdd nk keyIdx true (.empty D r.key.devKey)).key
  if keyFreshFlag then meshNkUpdateSelfAndChange2phase2 D nk keyIdx t else t

end PirMesh
