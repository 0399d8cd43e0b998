import Mathlib.Algebra.GroupWithZero.Nat
import Mathlib.Data.BitVec
import PirMesh.Keys.Invariant
import PirMesh.Keys.Step
import PirMesh.Library.BitFields
import PirMesh.Library.Run

/-! # Config — Key commands of the configuration client (`cmd_interface.c`)

The six `cfg_cmd_nk_*` and `cfg_cmd_ak_*` calls, each with the message it sends,
and what the node does with that message: the fields are read where the message
structure of its opcode has them, and the call they make is `mesh_net_key_set`
or `mesh_app_key_set`.

A call builds its message in a local variable.  What that variable holds before
and what lies behind a message at the node are given with the call (`Memory`).

A call agrees with the node when its parameter bytes are those of the operation
it names and the node's table changes by that operation.  `keyClient_agrees_iff`
says of every call when it does.  Adding and updating agree, an AppKey's as far as the
twelve bits of its indexes reach.  Deleting a NetKey goes out as the deletion of an AppKey,
and deleting an AppKey with a message of the wrong length. -/

namespace PirMesh

open Nor

/-! ### Message structures -/

/-- `mesh_netkey_set_t` -/
structure MeshNetkeySetT where
  idx : KeyIdx
  key : Key

/-- `u8 net_app_idx[3]` -/
@[ext]
structure NetAppIdx where
  p0 : Byte
  p1 : Byte
  p2 : Byte

def NetAppIdx.bytes (p : NetAppIdx) : List Byte := [p.p0, p.p1, p.p2]

/-- `mesh_appkey_set_t` -/
structure MeshAppkeySetT where
  netAppIdx : NetAppIdx
  appkey : Key

/-- The two bytes of a `u16`. -/
def u16Bytes (v : KeyIdx) : List Byte := [v.setWidth 8, (v >>> 8).setWidth 8]

def MeshNetkeySetT.bytes (set : MeshNetkeySetT) : List Byte := u16Bytes set.idx ++ set.key.toList

def MeshAppkeySetT.bytes (set : MeshAppkeySetT) : List Byte :=
  set.netAppIdx.bytes ++ set.appkey.toList

/-! ### Two key indexes in three bytes (`mesh_node.h`) -/

def getKeyIndexL (p : NetAppIdx) : KeyIdx := p.p0.setWidth 16 + (p.p1 &&& 0x0f).setWidth 16 <<< 8

def getKeyIndexH (p : NetAppIdx) : KeyIdx := (p.p1.setWidth 16 + p.p2.setWidth 16 <<< 8) >>> 4

def getNetkeyIndex (p : NetAppIdx) : KeyIdx := getKeyIndexL p

def getAppkeyIndex (p : NetAppIdx) : KeyIdx := getKeyIndexH p

def setKeyIndexL (p : NetAppIdx) (keyIdx : KeyIdx) : NetAppIdx :=
  let high : Byte := (keyIdx >>> 8 &&& 0x0f).setWidth 8
  { p with p0 := keyIdx.setWidth 8, p1 := p.p1 &&& 0xf0 ||| high }

def setKeyIndexH (p : NetAppIdx) (keyIdx : KeyIdx) : NetAppIdx :=
  let low : Byte := ((keyIdx &&& 0x0f) <<< 4).setWidth 8
  { p with p1 := p.p1 &&& 0x0f ||| low, p2 := (keyIdx >>> 4).setWidth 8 }

def setKeyIndex (p : NetAppIdx) (keyIdxL keyIdxH : KeyIdx) : NetAppIdx :=
  setKeyIndexH (setKeyIndexL p keyIdxL) keyIdxH

/-! ### The client -/

/-- What `SendOpParaDebug` is given: the opcode and the parameter bytes. -/
structure ConfigMsg where
  op : Op
  par : List Byte

def cfgCmdNkSet (set : MeshNetkeySetT) (op : Op) (nkIdx : KeyIdx) (key : Key) : ConfigMsg :=
  let set := { set with idx := nkIdx, key := key }
  ⟨op, set.bytes⟩

def cfgCmdNkAdd (set : MeshNetkeySetT) (nkIdx : KeyIdx) (key : Key) : ConfigMsg :=
  cfgCmdNkSet set netkeyAdd nkIdx key

def cfgCmdNkUpdate (set : MeshNetkeySetT) (nkIdx : KeyIdx) (key : Key) : ConfigMsg :=
  cfgCmdNkSet set netkeyUpdate nkIdx key

/-- `sizeof(set.idx)` bytes, under the opcode of an AppKey. -/
def cfgCmdNkDel (set : MeshNetkeySetT) (nkIdx : KeyIdx) : ConfigMsg :=
  let set := { set with idx := nkIdx }
  ⟨appkeyDel, set.bytes.take 2⟩

def cfgCmdAkSet (set : MeshAppkeySetT) (op : Op) (nkIdx akIdx : KeyIdx) (key : Key) : ConfigMsg :=
  let set := { set with netAppIdx := setKeyIndex set.netAppIdx nkIdx akIdx, appkey := key }
  ⟨op, set.bytes⟩

def cfgCmdAkAdd (set : MeshAppkeySetT) (nkIdx akIdx : KeyIdx) (key : Key) : ConfigMsg :=
  cfgCmdAkSet set appkeyAdd nkIdx akIdx key

def cfgCmdAkUpdate (set : MeshAppkeySetT) (nkIdx akIdx : KeyIdx) (key : Key) : ConfigMsg :=
  cfgCmdAkSet set appkeyUpdate nkIdx akIdx key

/-- `sizeof(set.appkey)` bytes: the indexes and thirteen bytes of the unset key. -/
def cfgCmdAkDel (set : MeshAppkeySetT) (nkIdx akIdx : KeyIdx) : ConfigMsg :=
  let set := { set with netAppIdx := setKeyIndex set.netAppIdx nkIdx akIdx }
  ⟨appkeyDel, set.bytes.take 16⟩

/-- The calls of the client. -/
inductive CfgCmd
  | nkAdd (nkIdx : KeyIdx) (key : Key)
  | nkUpdate (nkIdx : KeyIdx) (key : Key)
  | nkDel (nkIdx : KeyIdx)
  | akAdd (nkIdx akIdx : KeyIdx) (key : Key)
  | akUpdate (nkIdx akIdx : KeyIdx) (key : Key)
  | akDel (nkIdx akIdx : KeyIdx)

/-- What a call finds: its local variable, and the node's receive buffer. -/
structure Memory where
  netkeySet : MeshNetkeySetT
  appkeySet : MeshAppkeySetT
  buffer : Nat → Byte

def CfgCmd.send (mem : Memory) : CfgCmd → ConfigMsg
  | .nkAdd nkIdx key => cfgCmdNkAdd mem.netkeySet nkIdx key
  | .nkUpdate nkIdx key => cfgCmdNkUpdate mem.netkeySet nkIdx key
  | .nkDel nkIdx => cfgCmdNkDel mem.netkeySet nkIdx
  | .akAdd nkIdx akIdx key => cfgCmdAkAdd mem.appkeySet nkIdx akIdx key
  | .akUpdate nkIdx akIdx key => cfgCmdAkUpdate mem.appkeySet nkIdx akIdx key
  | .akDel nkIdx akIdx => cfgCmdAkDel mem.appkeySet nkIdx akIdx

/-! ### The node -/

/-- The message in the receive buffer. -/
def loaded (par : List Byte) (buffer : Nat → Byte) (i : Nat) : Byte := par[i]?.getD (buffer i)

def keyAt (m : Nat → Byte) (off : Nat) : Key := Vector.ofFn fun i => m (off + i)

/-- `mesh_netkey_set_t` under a `NETKEY_` opcode. -/
def netkeyFields (op : Op) (m : Nat → Byte) : KeyCall :=
  .net op (keyAt m 2) ((m 0).setWidth 16 + (m 1).setWidth 16 <<< 8) true

/-- `mesh_appkey_set_t` under an `APPKEY_` opcode. -/
def appkeyFields (op : Op) (m : Nat → Byte) : KeyCall :=
  let netAppIdx : NetAppIdx := ⟨m 0, m 1, m 2⟩
  .app op (keyAt m 3) (getAppkeyIndex netAppIdx) (getNetkeyIndex netAppIdx) true

/-- The call a message leads to. -/
def dispatch (msg : ConfigMsg) (buffer : Nat → Byte) : Option KeyCall :=
  if msg.op = netkeyAdd ∨ msg.op = netkeyUpdate ∨ msg.op = netkeyDel then
    some (netkeyFields msg.op (loaded msg.par buffer))
  else if msg.op = appkeyAdd ∨ msg.op = appkeyUpdate ∨ msg.op = appkeyDel then
    some (appkeyFields msg.op (loaded msg.par buffer))
  else none

variable {Mat : Type} (D : KeyDeriv Mat)

/-- A client call, its message and what the node makes of it. -/
def cfgStep (t : MeshKey Mat) (e : CfgCmd × Memory) : MeshKey Mat :=
  match dispatch (e.1.send e.2) e.2.buffer with
  | some c => (keyCall D t c).key
  | none => t

/-! ### Client and node agree -/

open Run

/-! ### The packed indexes -/

theorem and_lowMask (b : Byte) : b &&& 0x0f = BitFields.get b 0 4 := by
  have hmask : (0x0f : Byte) = BitFields.mask 8 4 := by decide
  rw [hmask, BitFields.get, BitVec.ushiftRight_zero]

theorem getKeyIndexL_eq (p : NetAppIdx) :
    getKeyIndexL p = (p.p1.extractLsb' 0 4 ++ p.p0).setWidth 16 := by
  apply BitVec.eq_of_toNat_eq
  have h0 := p.p0.isLt
  have hlow := (p.p1.extractLsb' 0 4).isLt
  rw [getKeyIndexL, and_lowMask, BitFields.get_eq_extract]
  simp only [BitVec.toNat_add, BitVec.toNat_shiftLeft, BitVec.toNat_setWidth,
    BitFields.toNat_append_add, Nat.shiftLeft_eq]
  omega

theorem getKeyIndexH_eq (p : NetAppIdx) :
    getKeyIndexH p = (p.p2 ++ p.p1.extractLsb' 4 4).setWidth 16 := by
  apply BitVec.eq_of_toNat_eq
  have h1 := p.p1.isLt
  have h2 := p.p2.isLt
  simp only [getKeyIndexH, BitVec.toNat_add, BitVec.toNat_shiftLeft, BitVec.toNat_setWidth,
    BitVec.toNat_ushiftRight, Nat.shiftLeft_eq, Nat.shiftRight_eq_div_pow,
    BitFields.toNat_append_add, BitVec.extractLsb'_toNat]
  omega

theorem setKeyIndexL_eq (p : NetAppIdx) (k : KeyIdx) :
    setKeyIndexL p k =
      { p with p0 := k.setWidth 8, p1 := BitFields.set p.p1 0 4 (k.extractLsb' 8 8) } := by
  have hmask : (0xf0 : Byte) = ~~~(BitFields.mask 8 4 <<< 0) := by decide
  have hfour : (0x0f : KeyIdx) = BitFields.mask 16 4 := by decide
  have hhigh : (k >>> 8 &&& 0x0f).setWidth 8 =
      (k.extractLsb' 8 8 &&& BitFields.mask 8 4) <<< 0 := by
    rw [hfour]
    refine BitVec.eq_of_getLsbD_eq fun i hi => ?_
    simp [BitFields.getElem_mask, hi, show i < 16 by omega]
  rw [setKeyIndexL, hmask, hhigh, BitFields.set]

theorem setKeyIndexH_eq (p : NetAppIdx) (k : KeyIdx) :
    setKeyIndexH p k =
      { p with p1 := BitFields.set p.p1 4 4 (k.setWidth 8), p2 := k.extractLsb' 4 8 } := by
  have hmask : (0x0f : Byte) = ~~~(BitFields.mask 8 4 <<< 4) := by decide
  have hfour : (0x0f : KeyIdx) = BitFields.mask 16 4 := by decide
  have hlow : ((k &&& 0x0f) <<< 4).setWidth 8 = (k.setWidth 8 &&& BitFields.mask 8 4) <<< 4 := by
    rw [hfour]
    refine BitVec.eq_of_getLsbD_eq fun i hi => ?_
    simp [BitFields.getElem_mask, hi, show i - 4 < 16 by omega]
  have hrest : (k >>> 4).setWidth 8 = k.extractLsb' 4 8 := by
    ext i hi
    simp
  rw [setKeyIndexH, hmask, hlow, hrest, BitFields.set]

/-- A byte of two halves. -/
theorem set_halves (b low high : Byte) :
    BitFields.set (BitFields.set b 0 4 low) 4 4 high =
      high.extractLsb' 0 4 ++ low.extractLsb' 0 4 := by
  refine BitVec.eq_of_getLsbD_eq fun i hi => ?_
  rw [BitFields.getLsbD_set _ _ _ _ hi, BitFields.getLsbD_set _ _ _ _ hi, BitVec.getLsbD_append]
  by_cases hlow : i < 4
  · simp [hlow]
  · simp [hlow, show 4 ≤ i ∧ i < 8 by omega]
    omega

/-- The first index is the low twelve bits. -/
theorem getKeyIndexL_set (p : NetAppIdx) (nk ak : KeyIdx) :
    getKeyIndexL (setKeyIndex p nk ak) = (nk.setWidth 12).setWidth 16 := by
  rw [setKeyIndex, setKeyIndexH_eq, setKeyIndexL_eq, getKeyIndexL_eq]
  dsimp only
  have hbyte : nk.setWidth 8 = nk.extractLsb' 0 8 := BitVec.setWidth_eq_extractLsb' (by decide)
  have hindex : nk.setWidth 12 = nk.extractLsb' 0 12 := BitVec.setWidth_eq_extractLsb' (by decide)
  rw [set_halves, BitVec.extractLsb'_append_eq_of_add_le (by decide), BitVec.extractLsb'_eq_self,
    BitFields.extract_start nk 8 (by decide), hbyte, hindex]
  exact congrArg (BitVec.setWidth 16) (BitFields.extract_append nk 0 8 4)

theorem getKeyIndexH_set (p : NetAppIdx) (nk ak : KeyIdx) :
    getKeyIndexH (setKeyIndex p nk ak) = (ak.setWidth 12).setWidth 16 := by
  rw [setKeyIndex, setKeyIndexH_eq, setKeyIndexL_eq, getKeyIndexH_eq]
  dsimp only
  have hindex : ak.setWidth 12 = ak.extractLsb' 0 12 := BitVec.setWidth_eq_extractLsb' (by decide)
  rw [set_halves, BitVec.extractLsb'_append_eq_of_le (by decide), BitVec.extractLsb'_eq_self,
    BitVec.extractLsb'_setWidth_of_le (by decide), hindex]
  exact congrArg (BitVec.setWidth 16) (BitFields.extract_append ak 0 4 8)

/-! ### What the calls should do -/

/-- The operation a call names; a deletion has no key. -/
def CfgCmd.named : CfgCmd → KeyCall
  | .nkAdd nkIdx key => .net netkeyAdd key nkIdx true
  | .nkUpdate nkIdx key => .net netkeyUpdate key nkIdx true
  | .nkDel nkIdx => .net netkeyDel (Vector.replicate 16 0) nkIdx true
  | .akAdd nkIdx akIdx key => .app appkeyAdd key akIdx nkIdx true
  | .akUpdate nkIdx akIdx key => .app appkeyUpdate key akIdx nkIdx true
  | .akDel nkIdx akIdx => .app appkeyDel (Vector.replicate 16 0) akIdx nkIdx true

/-- The bytes that carry two key indexes. -/
def NetAppIdx.Carry (p : NetAppIdx) (nkIdx akIdx : KeyIdx) : Prop :=
  getNetkeyIndex p = nkIdx ∧ getAppkeyIndex p = akIdx

/-- The parameter bytes of the operation a call names. -/
def CfgCmd.Formatted : CfgCmd → List Byte → Prop
  | .nkAdd nkIdx key, par | .nkUpdate nkIdx key, par => par = u16Bytes nkIdx ++ key.toList
  | .nkDel nkIdx, par => par = u16Bytes nkIdx
  | .akAdd nkIdx akIdx key, par | .akUpdate nkIdx akIdx key, par =>
    ∃ p : NetAppIdx, p.Carry nkIdx akIdx ∧ par = p.bytes ++ key.toList
  | .akDel nkIdx akIdx, par => ∃ p : NetAppIdx, p.Carry nkIdx akIdx ∧ par = p.bytes

variable {Mat : Type} (D : KeyDeriv Mat)

/-- A call agrees with the node. -/
def CallAgrees (t : MeshKey Mat) (e : CfgCmd × Memory) : Prop :=
  e.1.Formatted (e.1.send e.2).par ∧ cfgStep D t e = (keyCall D t e.1.named).key

/-- An AppKey that the node holds under a NetKey. -/
def BoundApp (t : MeshKey Mat) (nkIdx akIdx : KeyIdx) : Prop :=
  ∃ ij, isMeshAppKeyExist t akIdx = some ij ∧ (t.netKey ij.1).old.index = nkIdx

/-- A NetKey that the node would delete. -/
def SpareNet (t : MeshKey Mat) (nkIdx : KeyIdx) : Prop :=
  1 < getNetKeyCnt t ∧ (isMeshNetKeyExist t nkIdx).isSome

/-- The indexes the node reads from the message of `cfg_cmd_nk_del`. -/
def strayIdx (nkIdx : KeyIdx) (buffer : Nat → Byte) : NetAppIdx :=
  ⟨nkIdx.setWidth 8, (nkIdx >>> 8).setWidth 8, buffer 2⟩

/-- When a call agrees with the node. -/
def CallSound (t : MeshKey Mat) : CfgCmd × Memory → Prop
  | (.nkAdd _ _, _) | (.nkUpdate _ _, _) => True
  | (.nkDel nkIdx, mem) =>
    -- there is nothing to delete, neither the NetKey nor what the node takes for an AppKey
    ¬ SpareNet t nkIdx ∧ ¬ BoundApp t (getNetkeyIndex (strayIdx nkIdx mem.buffer))
      (getAppkeyIndex (strayIdx nkIdx mem.buffer))
  | (.akAdd nkIdx akIdx _, _) | (.akUpdate nkIdx akIdx _, _) =>
    nkIdx.toNat < 2 ^ 12 ∧ akIdx.toNat < 2 ^ 12
  | (.akDel _ _, _) => False

variable {D} {t : MeshKey Mat}

/-! ### Formatted messages -/

theorem u16_of_bytes (v : KeyIdx) :
    (v.setWidth 8).setWidth 16 + ((v >>> 8).setWidth 8).setWidth 16 <<< 8 = v := by
  apply BitVec.eq_of_toNat_eq
  have hv := v.isLt
  simp only [BitVec.toNat_add, BitVec.toNat_shiftLeft, BitVec.toNat_setWidth,
    BitVec.toNat_ushiftRight, Nat.shiftLeft_eq, Nat.shiftRight_eq_div_pow]
  omega

/-- A key behind other bytes. -/
theorem keyAt_loaded (pre : List Byte) (key : Key) (buffer : Nat → Byte) :
    keyAt (loaded (pre ++ key.toList) buffer) pre.length = key := by
  refine Vector.ext fun i hi => ?_
  rw [keyAt, Vector.getElem_ofFn, loaded, List.getElem?_append_right (Nat.le_add_right _ _),
    Nat.add_sub_cancel_left]
  simp [hi]

theorem netkeyFields_u16 (op : Op) (nkIdx : KeyIdx) (rest : List Byte) (buffer : Nat → Byte) :
    netkeyFields op (loaded (u16Bytes nkIdx ++ rest) buffer) =
      .net op (keyAt (loaded (u16Bytes nkIdx ++ rest) buffer) 2) nkIdx true :=
  congrArg (KeyCall.net op _ · true) (u16_of_bytes nkIdx)

theorem netkeyFields_key (op : Op) (nkIdx : KeyIdx) (key : Key) (buffer : Nat → Byte) :
    netkeyFields op (loaded (u16Bytes nkIdx ++ key.toList) buffer) = .net op key nkIdx true := by
  have hkey := keyAt_loaded (u16Bytes nkIdx) key buffer
  rw [netkeyFields_u16]
  exact congrArg (KeyCall.net op · nkIdx true) hkey

theorem appkeyFields_carry {p : NetAppIdx} {nkIdx akIdx : KeyIdx} (h : p.Carry nkIdx akIdx)
    (op : Op) (rest : List Byte) (buffer : Nat → Byte) :
    appkeyFields op (loaded (p.bytes ++ rest) buffer) =
      .app op (keyAt (loaded (p.bytes ++ rest) buffer) 3) akIdx nkIdx true := by
  obtain ⟨hnet, happ⟩ := h
  cases hnet
  cases happ
  rfl

theorem appkeyFields_key {p : NetAppIdx} {nkIdx akIdx : KeyIdx} (h : p.Carry nkIdx akIdx)
    (op : Op) (key : Key) (buffer : Nat → Byte) :
    appkeyFields op (loaded (p.bytes ++ key.toList) buffer) = .app op key akIdx nkIdx true := by
  have hkey := keyAt_loaded p.bytes key buffer
  rw [appkeyFields_carry h]
  exact congrArg (KeyCall.app op · akIdx nkIdx true) hkey

/-- Deleting does not look at the key. -/
theorem keyCall_netDel (nk nk' : Key) (nkIdx : KeyIdx) :
    keyCall D t (.net netkeyDel nk nkIdx true) = keyCall D t (.net netkeyDel nk' nkIdx true) := rfl

theorem keyCall_appDel (ak ak' : Key) (akIdx nkIdx : KeyIdx) :
    keyCall D t (.app appkeyDel ak akIdx nkIdx true) =
      keyCall D t (.app appkeyDel ak' akIdx nkIdx true) := rfl

/-- The opcode of the operation a call names. -/
def CfgCmd.op : CfgCmd → Op
  | .nkAdd _ _ => netkeyAdd
  | .nkUpdate _ _ => netkeyUpdate
  | .nkDel _ => netkeyDel
  | .akAdd _ _ _ => appkeyAdd
  | .akUpdate _ _ _ => appkeyUpdate
  | .akDel _ _ => appkeyDel

/-- What the node makes of a message of the right form under the right opcode.  A deletion
does not look at its key. -/
theorem dispatch_formatted {c : CfgCmd} {par : List Byte} (h : c.Formatted par)
    (buffer : Nat → Byte) :
    ∃ k, dispatch ⟨c.op, par⟩ buffer = some k ∧ keyCall D t k = keyCall D t c.named := by
  cases c with
  | nkAdd nkIdx key =>
    cases h
    exact ⟨_, rfl, congrArg (keyCall D t) (netkeyFields_key netkeyAdd nkIdx key buffer)⟩
  | nkUpdate nkIdx key =>
    cases h
    exact ⟨_, rfl, congrArg (keyCall D t) (netkeyFields_key netkeyUpdate nkIdx key buffer)⟩
  | nkDel nkIdx =>
    cases h
    have hfields := netkeyFields_u16 netkeyDel nkIdx [] buffer
    exact ⟨_, rfl, (congrArg (keyCall D t) hfields).trans (keyCall_netDel _ _ nkIdx)⟩
  | akAdd nkIdx akIdx key =>
    obtain ⟨p, hp, rfl⟩ := h
    exact ⟨_, rfl, congrArg (keyCall D t) (appkeyFields_key hp appkeyAdd key buffer)⟩
  | akUpdate nkIdx akIdx key =>
    obtain ⟨p, hp, rfl⟩ := h
    exact ⟨_, rfl, congrArg (keyCall D t) (appkeyFields_key hp appkeyUpdate key buffer)⟩
  | akDel nkIdx akIdx =>
    obtain ⟨p, hp, rfl⟩ := h
    have hfields := appkeyFields_carry hp appkeyDel [] buffer
    exact ⟨_, rfl, (congrArg (keyCall D t) hfields).trans (keyCall_appDel _ _ akIdx nkIdx)⟩

/-- A call whose message is the one of its operation. -/
theorem callAgrees_of_formatted {e : CfgCmd × Memory} (hop : (e.1.send e.2).op = e.1.op)
    (h : e.1.Formatted (e.1.send e.2).par) : CallAgrees D t e := by
  obtain ⟨k, hk, hcall⟩ := dispatch_formatted (D := D) (t := t) h e.2.buffer
  rw [← hop] at hk
  refine ⟨h, ?_⟩
  rw [cfgStep, hk]
  exact congrArg KeyResult.key hcall

/-! ### AppKey indexes -/

theorem twelve_bits {v : KeyIdx} (h : v.toNat < 2 ^ 12) : (v.setWidth 12).setWidth 16 = v := by
  apply BitVec.eq_of_toNat_eq
  simp only [BitVec.toNat_setWidth]
  omega

theorem setKeyIndex_carry (p : NetAppIdx) {nkIdx akIdx : KeyIdx} (hnk : nkIdx.toNat < 2 ^ 12)
    (hak : akIdx.toNat < 2 ^ 12) : (setKeyIndex p nkIdx akIdx).Carry nkIdx akIdx :=
  ⟨(getKeyIndexL_set p nkIdx akIdx).trans (twelve_bits hnk),
    (getKeyIndexH_set p nkIdx akIdx).trans (twelve_bits hak)⟩

theorem carry_lt {p : NetAppIdx} {nkIdx akIdx : KeyIdx} (h : p.Carry nkIdx akIdx) :
    nkIdx.toNat < 2 ^ 12 ∧ akIdx.toNat < 2 ^ 12 := by
  obtain ⟨hnet, happ⟩ := h
  cases hnet
  cases happ
  rw [getNetkeyIndex, getAppkeyIndex, getKeyIndexL_eq, getKeyIndexH_eq, BitVec.toNat_setWidth,
    BitVec.toNat_setWidth]
  have hlow := (p.p1.extractLsb' 0 4 ++ p.p0).isLt
  have hhigh := (p.p2 ++ p.p1.extractLsb' 4 4).isLt
  exact ⟨(Nat.mod_le _ _).trans_lt hlow, (Nat.mod_le _ _).trans_lt hhigh⟩

theorem akSet_formatted_iff (set : MeshAppkeySetT) (op : Op) (nkIdx akIdx : KeyIdx) (key : Key) :
    (∃ p : NetAppIdx, p.Carry nkIdx akIdx ∧
      (cfgCmdAkSet set op nkIdx akIdx key).par = p.bytes ++ key.toList) ↔
    nkIdx.toNat < 2 ^ 12 ∧ akIdx.toNat < 2 ^ 12 :=
  ⟨fun h => carry_lt h.choose_spec.1, fun h => ⟨_, setKeyIndex_carry _ h.1 h.2, rfl⟩⟩

/-! ### Deletions -/

theorem netDel_unchanged {nkIdx : KeyIdx} (h : ¬ SpareNet t nkIdx) (nk : Key) :
    (keyCall D t (.net netkeyDel nk nkIdx true)).key = t := by
  rw [keyCall, meshNetKeySet, if_neg (by decide), if_neg (by decide), if_pos rfl]
  cases hexist : isMeshNetKeyExist t nkIdx with
  | none => rfl
  | some i =>
    have hlast : getNetKeyCnt t ≤ 1 := by
      by_contra hcnt
      exact h ⟨Nat.lt_of_not_le hcnt, by rw [hexist]; rfl⟩
    dsimp only
    rw [if_pos hlast]

theorem netDel_clears {nkIdx : KeyIdx} (h : SpareNet t nkIdx) (nk : Key) :
    ∃ i, (t.netKey i).old.valid = true ∧
      (keyCall D t (.net netkeyDel nk nkIdx true)).key = t.setOld i (.zero D) := by
  obtain ⟨hcnt, hsome⟩ := h
  obtain ⟨i, hexist⟩ := Option.isSome_iff_exists.mp hsome
  refine ⟨i, (hasNet_of_exist hexist).1, ?_⟩
  rw [keyCall, meshNetKeySet, if_neg (by decide), if_neg (by decide), if_pos rfl, hexist]
  dsimp only
  rw [if_neg (Nat.not_le.mpr hcnt)]

theorem appDel_unchanged {nkIdx akIdx : KeyIdx} (h : ¬ BoundApp t nkIdx akIdx) (ak : Key) :
    (keyCall D t (.app appkeyDel ak akIdx nkIdx true)).key = t := by
  rw [keyCall, meshAppKeySet]
  cases hexist : isMeshAppKeyExist t akIdx with
  | none =>
    cases hnet : isMeshNetKeyExist t nkIdx with
    | none => rfl
    | some k => rfl
  | some ij =>
    have hother : ¬ nkIdx = (t.netKey ij.1).old.index := fun heq => h ⟨ij, hexist, heq.symm⟩
    dsimp only
    rw [if_neg hother]
    split <;> rfl

theorem appDel_clears {nkIdx akIdx : KeyIdx} (h : BoundApp t nkIdx akIdx) (ak : Key) :
    ∃ i j, HasApp t i j akIdx ∧ (keyCall D t (.app appkeyDel ak akIdx nkIdx true)).key =
      t.setOld i ((t.netKey i).old.setApp j .zero) := by
  obtain ⟨⟨i, j⟩, hexist, hnet⟩ := h
  refine ⟨i, j, hasApp_of_exist hexist, ?_⟩
  rw [keyCall, meshAppKeySet, hexist]
  dsimp only
  rw [if_pos hnet.symm, if_neg (by decide), if_neg (by decide), if_pos rfl]

/-- Deleting an AppKey keeps every NetKey. -/
theorem appDel_valid (ak : Key) (akIdx nkIdx : KeyIdx) (i : Fin netKeyMax) :
    ((keyCall D t (.app appkeyDel ak akIdx nkIdx true)).key.netKey i).old.valid =
      (t.netKey i).old.valid := by
  by_cases h : BoundApp t nkIdx akIdx
  · obtain ⟨k, j, -, hkey⟩ := appDel_clears (D := D) h ak
    rw [hkey]
    by_cases hik : i = k
    · cases hik
      simp [MeshKey.setOld, MeshNetKey.setApp]
    · simp [MeshKey.setOld, MeshKey.netKey_setRow_ne t _ hik]
  · rw [appDel_unchanged h]

/-- Deleting a NetKey and deleting an AppKey come to the same only where neither does anything. -/
theorem deletions_agree_iff {nkIdx netIdx akIdx : KeyIdx} (ak nk : Key) :
    (keyCall D t (.app appkeyDel ak akIdx netIdx true)).key =
        (keyCall D t (.net netkeyDel nk nkIdx true)).key ↔
      ¬ SpareNet t nkIdx ∧ ¬ BoundApp t netIdx akIdx := by
  constructor
  · intro heq
    have hnet : ¬ SpareNet t nkIdx := by
      intro hspare
      obtain ⟨i, hvalid, hkey⟩ := netDel_clears (D := D) hspare nk
      have hkept := appDel_valid (D := D) (t := t) ak akIdx netIdx i
      rw [heq, hkey, hvalid] at hkept
      simp [MeshKey.setOld, MeshNetKey.zero] at hkept
    refine ⟨hnet, fun hbound => ?_⟩
    obtain ⟨i, j, happ, hkey⟩ := appDel_clears (D := D) hbound ak
    rw [netDel_unchanged hnet, hkey] at heq
    have hcleared := congrArg (fun t => ((t.netKey i).old.appKey j).valid) heq
    rw [happ.2.1] at hcleared
    simp [MeshKey.setOld, MeshNetKey.setApp, MeshAppKey.zero] at hcleared
  · rintro ⟨hnet, happ⟩
    rw [appDel_unchanged happ, netDel_unchanged hnet]

/-! ### The calls -/

/-- What the node makes of `cfg_cmd_nk_del`. -/
theorem cfgStep_nkDel (t : MeshKey Mat) (nkIdx : KeyIdx) (mem : Memory) :
    cfgStep D t (.nkDel nkIdx, mem) = (keyCall D t (.app appkeyDel
      (keyAt (loaded (u16Bytes nkIdx) mem.buffer) 3)
      (getAppkeyIndex (strayIdx nkIdx mem.buffer))
      (getNetkeyIndex (strayIdx nkIdx mem.buffer)) true)).key := rfl

theorem callAgrees_iff (t : MeshKey Mat) (e : CfgCmd × Memory) :
    CallAgrees D t e ↔ CallSound t e := by
  obtain ⟨c, mem⟩ := e
  cases c with
  | nkAdd nkIdx key => exact iff_of_true (callAgrees_of_formatted rfl rfl) trivial
  | nkUpdate nkIdx key => exact iff_of_true (callAgrees_of_formatted rfl rfl) trivial
  | nkDel nkIdx =>
    rw [CallAgrees, cfgStep_nkDel]
    exact (and_iff_right rfl).trans (deletions_agree_iff _ _)
  | akAdd nkIdx akIdx key =>
    have hform := akSet_formatted_iff mem.appkeySet appkeyAdd nkIdx akIdx key
    exact ⟨fun h => hform.mp h.1, fun h => callAgrees_of_formatted rfl (hform.mpr h)⟩
  | akUpdate nkIdx akIdx key =>
    have hform := akSet_formatted_iff mem.appkeySet appkeyUpdate nkIdx akIdx key
    exact ⟨fun h => hform.mp h.1, fun h => callAgrees_of_formatted rfl (hform.mpr h)⟩
  | akDel nkIdx akIdx =>
    refine iff_of_false (fun h => ?_) not_false
    obtain ⟨p, -, hpar⟩ := h.1
    -- sixteen bytes go out where the format has three
    have hlen := congrArg List.length hpar
    simp [CfgCmd.send, cfgCmdAkDel, MeshAppkeySetT.bytes, NetAppIdx.bytes] at hlen

/-- The calls of a run all agree with the node exactly when each of them is sound at the
table it finds. -/
theorem keyClient_agrees_iff (t : MeshKey Mat) (calls : List (CfgCmd × Memory)) :
    GoodRun (cfgStep D) (CallAgrees D) t calls ↔ GoodRun (cfgStep D) CallSound t calls :=
  goodRun_congr callAgrees_iff calls t

/-- A node driven by sound calls has the table of the operations they name. -/
theorem keyClient_refines {t : MeshKey Mat} {calls : List (CfgCmd × Memory)}
    (h : GoodRun (cfgStep D) CallSound t calls) :
    calls.foldl (cfgStep D) t = calls.foldl (fun t e => (keyCall D t e.1.named).key) t :=
  (h.mono fun t e hsound => ((callAgrees_iff t e).mpr hsound).2).foldl_eq

/-- A node with the NetKeys 0 and 1. -/
def twoNets : MeshKey Key := (meshNetKeySet keyAsMat netkeyAdd (sampleKey 2) 1 true sampleTable).key

def blankMemory : Memory := ⟨⟨0, sampleKey 0⟩, ⟨⟨0, 0, 0⟩, sampleKey 0⟩, fun _ => 0⟩

/-- NetKey 1 stays in the table when the client deletes it. -/
theorem keyClient_agrees_refuted :
    ¬ GoodRun (cfgStep keyAsMat) (CallAgrees keyAsMat) twoNets [(.nkDel 1, blankMemory)] := by
  intro h
  have hsound := (callAgrees_iff twoNets (.nkDel 1, blankMemory)).mp h.1
  have hspare : SpareNet twoNets 1 := ⟨by decide, by decide⟩
  exact hsound.1 hspare

end PirMesh
