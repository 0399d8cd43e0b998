import PirMesh.Library.Accesses
import PirMesh.Library.Format
import PirMesh.Library.Reassembly

/-! # Node — The property servers (`mesh_property.c`)

User, admin and manufacturer sets are one handler.  It takes the kind of the server from the opcode
of the status, or from its own opcode where no status is sent, and each kind has a layout and checks
of its own.

A message is memory from its first octet on, and `parLen` is how many octets came.  So is a value:
its first `MESH_PROPERTY_STR_SIZE_MAX` octets.

`Server.made` is what a set is to make of a property: nothing unless the length matches and, for a
user, the access allows it.  The handler does no more than that (`setBy_turn`), so ids and lengths
stay and an access stays a valid one.  Two things are left: the manufacturer branch reads the access
of a message that may end before it, and what a set returns is what its status returns, which may be
an error when the property is already changed. -/

namespace PirMesh.Property

open Accesses Accesses.Traced Reassembly
open Nor (Byte toLE ofLE)

def gMfgPropertySet : BitVec 16 := 0x44

def gMfgPropertySetNoack : BitVec 16 := 0x45

def gMfgPropertyStatus : BitVec 16 := 0x46

def gAdminPropertySet : BitVec 16 := 0x48

def gAdminPropertySetNoack : BitVec 16 := 0x49

def gAdminPropertyStatus : BitVec 16 := 0x4A

def gUserPropertiesStatus : BitVec 16 := 0x4B

def gUserPropertySet : BitVec 16 := 0x4C

def gUserPropertySetNoack : BitVec 16 := 0x4D

def gUserPropertyStatus : BitVec 16 := 0x4E

def gClientPropertiesStatus : BitVec 16 := 0x50

def invalidPropId : BitVec 16 := 0

def meshPropertyStrSizeMax : ℕ := 8

def meshPropertyCntMax : ℕ := 1

def meshAccessRead : Byte := 1

def meshAccessWrite : Byte := 2

def meshAccessRw : Byte := 3

def meshAccessMax : Byte := 4

def meshMfgAccessRead : Byte := 1

/-! ### The table -/

/-- `mesh_property_t` -/
structure MeshProperty where
  lenVal : Byte
  id : BitVec 16
  access : Byte
  val : ℕ → Byte

/-- `user_prop` and `client_prop` -/
structure PropertyTable where
  userProp : ℕ → MeshProperty
  clientProp : ℕ → MeshProperty

/-- `get_property_base` -/
def PropertyTable.base (t : PropertyTable) (opRsp : BitVec 16) : ℕ → MeshProperty :=
  if opRsp = gClientPropertiesStatus then t.clientProp else t.userProp

/-- Property `i` of a base becomes `p`. -/
def PropertyTable.put (t : PropertyTable) (opRsp : BitVec 16) (i : ℕ) (p : MeshProperty) :
    PropertyTable :=
  if opRsp = gClientPropertiesStatus then { t with clientProp := Function.update t.clientProp i p }
  else { t with userProp := Function.update t.userProp i p }

/-- `get_property_by_id`, a place. -/
def getPropertyById (t : PropertyTable) (propId opRsp : BitVec 16) : Option ℕ :=
  if propId = invalidPropId then none
  else (List.range meshPropertyCntMax).find? fun i => decide ((t.base opRsp i).id = propId)

def isPropReadable (opRsp : BitVec 16) (access : Byte) : Bool :=
  (opRsp ≠ gUserPropertyStatus ∧ opRsp ≠ gUserPropertiesStatus) ∨
    (access = meshAccessRead ∨ access = meshAccessRw)

def isPropWritable (opRsp : BitVec 16) (access : Byte) : Bool :=
  opRsp ≠ gUserPropertyStatus ∨ (access = meshAccessWrite ∨ access = meshAccessRw)

/-- A property in a status. -/
def MeshProperty.bytes (p : MeshProperty) : List Byte :=
  toLE 2 p.id.toNat ++ p.access :: read p.val 0 p.lenVal.toNat

/-- The octets of `mesh_tx_cmd_property_st`; there may be none to send. -/
def meshTxCmdPropertySt (t : PropertyTable) (propId opRsp : BitVec 16) (setFlag : Bool) :
    Option (List Byte) :=
  if propId = invalidPropId then none
  else
    match getPropertyById t propId opRsp with
    | some i =>
      if setFlag && !isPropWritable opRsp (t.base opRsp i).access then
        some (toLE 2 propId.toNat)
      else if isPropReadable opRsp (t.base opRsp i).access then some (t.base opRsp i).bytes
      else none
    | none => some (toLE 2 propId.toNat)

/-! ### The set -/

/-- An access: `n` octets of the message from `p` on. -/
structure Octets where
  p : ℕ
  n : ℕ
  deriving DecidableEq, Repr

/-- The octets are among those that came. -/
def Octets.Came (parLen : ℕ) (a : Octets) : Prop := a.p + a.n ≤ parLen

abbrev Handler := Traced Octets

def readPar (par : ℕ → Byte) (p n : ℕ) : Handler (List Byte) := look ⟨p, n⟩ (read par p n)

/-- What a handler is called with; `op_rsp` may be `STATUS_NONE`. -/
structure CbPar where
  op : BitVec 16
  opRsp : Option (BitVec 16)

/-- What a set leaves: the table, whether it is stored and published, and what it returns. -/
structure Done where
  table : PropertyTable
  save : Bool
  err : ℤ

/-- The value of a set, in place of the one before. -/
def MeshProperty.replace (p : MeshProperty) (lenVal : Byte) (data : List Byte) : MeshProperty :=
  { p with
    lenVal := lenVal
    val := fun k =>
      if k < data.length then data.getD k 0
      else if k < meshPropertyStrSizeMax then 0 else p.val k }

/-- `OFFSETOF(mesh_property_set_user_t, data)` -/
def setUserHead : ℕ := 2

/-- `OFFSETOF(mesh_property_set_admin_t, data)` -/
def setAdminHead : ℕ := 3

/-- What the user server makes of a property: an error, or whether it saves. -/
def setUser (p : MeshProperty) (par : ℕ → Byte) (parLen : ℕ) :
    Handler (Option (MeshProperty × Bool)) :=
  if parLen ≤ setUserHead + meshPropertyStrSizeMax ∧ setUserHead ≤ parLen then
    let lenValSet := BitVec.ofNat 8 (parLen - setUserHead)
    if p.lenVal = lenValSet then
      if p.access = meshAccessWrite ∨ p.access = meshAccessRw then do
        let data ← readPar par setUserHead lenValSet.toNat
        pure (some (p.replace lenValSet data, true))
      else pure (some (p, false))
    else pure none
  else pure none

def setAdmin (p : MeshProperty) (par : ℕ → Byte) (parLen : ℕ) :
    Handler (Option (MeshProperty × Bool)) :=
  if parLen ≤ setAdminHead + meshPropertyStrSizeMax ∧ setAdminHead ≤ parLen then
    let lenValSet := BitVec.ofNat 8 (parLen - setAdminHead)
    if p.lenVal = lenValSet then do
      let access ← readPar par 2 1
      if access.headD 0 < meshAccessMax then do
        let data ← readPar par setAdminHead lenValSet.toNat
        pure (some ({ p.replace lenValSet data with access := access.headD 0 }, true))
      else pure none
    else pure none
  else pure none

def setMfg (p : MeshProperty) (par : ℕ → Byte) : Handler (Option (MeshProperty × Bool)) := do
  let access ← readPar par 2 1
  if access.headD 0 ≤ meshMfgAccessRead then
    pure (some ({ p with access := access.headD 0 }, true))
  else pure none

/-- What the server of a status makes of a property. -/
def setBy (opStats : BitVec 16) (p : MeshProperty) (par : ℕ → Byte) (parLen : ℕ) :
    Handler (Option (MeshProperty × Bool)) :=
  if opStats = gUserPropertyStatus then setUser p par parLen
  else if opStats = gAdminPropertyStatus then setAdmin p par parLen
  else if opStats = gMfgPropertyStatus then setMfg p par
  else pure none

/-- What the answer to a set returns; `tx` is what `mesh_tx_cmd_rsp` returns. -/
def answer (tx : BitVec 16 → List Byte → ℤ) (t : PropertyTable) (propId : BitVec 16)
    (opRsp : Option (BitVec 16)) : ℤ :=
  match opRsp with
  | none => 0
  | some op =>
    match meshTxCmdPropertySt t propId op true with
    | none => -1
    | some data => tx op data

/-- The opcode of the status, also where it is not sent. -/
def CbPar.opStats (cb : CbPar) : BitVec 16 :=
  match cb.opRsp with
  | some op => op
  | none => cb.op + 1

/-- The set of a property id. -/
def setId (tx : BitVec 16 → List Byte → ℤ) (t : PropertyTable) (par : ℕ → Byte) (parLen : ℕ)
    (cb : CbPar) (propId : BitVec 16) : Handler Done :=
  match getPropertyById t propId cb.opStats with
  | none => pure ⟨t, false, answer tx t propId cb.opRsp⟩
  | some i => do
    let done ← setBy cb.opStats (t.base cb.opStats i) par parLen
    match done with
    | none => pure ⟨t, false, -1⟩
    | some (p, save) =>
      let t := t.put cb.opStats i p
      pure ⟨t, save, answer tx t propId cb.opRsp⟩

def meshCmdSigPropertySet (tx : BitVec 16 → List Byte → ℤ) (t : PropertyTable) (par : ℕ → Byte)
    (parLen : ℕ) (cb : CbPar) : Handler Done :=
  if parLen ≤ setUserHead + meshPropertyStrSizeMax ∧ setUserHead ≤ parLen then do
    let id ← readPar par 0 2
    let propId := BitVec.ofNat 16 (ofLE id)
    if propId = invalidPropId then pure ⟨t, false, -1⟩
    else setId tx t par parLen cb propId
  else pure ⟨t, false, -1⟩

/-! ### What a property set may change -/

inductive Server
  | user
  | admin
  | mfg
  deriving DecidableEq, Repr

namespace Server

def status : Server → BitVec 16
  | user => gUserPropertyStatus
  | admin => gAdminPropertyStatus
  | mfg => gMfgPropertyStatus

/-- The set of a server, acknowledged or not. -/
def cb (k : Server) (ack : Bool) : CbPar :=
  match k, ack with
  | user, true => ⟨gUserPropertySet, some gUserPropertyStatus⟩
  | user, false => ⟨gUserPropertySetNoack, none⟩
  | admin, true => ⟨gAdminPropertySet, some gAdminPropertyStatus⟩
  | admin, false => ⟨gAdminPropertySetNoack, none⟩
  | mfg, true => ⟨gMfgPropertySet, some gMfgPropertyStatus⟩
  | mfg, false => ⟨gMfgPropertySetNoack, none⟩

/-- The octets behind the head of a message are as many as those of the value. -/
def LengthMatches (k : Server) (p : MeshProperty) (parLen : ℕ) : Prop :=
  match k with
  | user => parLen = setUserHead + p.lenVal.toNat
  | admin => parLen = setAdminHead + p.lenVal.toNat
  | mfg => False

/-- What a set makes of a property, if anything. -/
def made (k : Server) (p : MeshProperty) (par : ℕ → Byte) (parLen : ℕ) : Option MeshProperty :=
  match k with
  | user =>
    if parLen = setUserHead + p.lenVal.toNat ∧
        (p.access = meshAccessWrite ∨ p.access = meshAccessRw) then
      some (p.replace p.lenVal (read par setUserHead p.lenVal.toNat))
    else none
  | admin =>
    if parLen = setAdminHead + p.lenVal.toNat ∧ par 2 < meshAccessMax then
      some { p.replace p.lenVal (read par setAdminHead p.lenVal.toNat) with access := par 2 }
    else none
  | mfg => if par 2 ≤ meshMfgAccessRead then some { p with access := par 2 } else none

end Server

section

variable {k : Server} {p q : MeshProperty} {par : ℕ → Byte} {parLen i : ℕ} {t : PropertyTable}
  {propId : BitVec 16} {ack : Bool} {tx : BitVec 16 → List Byte → ℤ}

@[simp] theorem within_readPar {p n : ℕ} :
    (readPar par p n).Within (Octets.Came parLen) ↔ p + n ≤ parLen := within_look _ _

/-! ### What a set makes of a property -/

/-- What is made of a property is within what the server may do. -/
structure Made (k : Server) (p : MeshProperty) (parLen : ℕ) (q : MeshProperty) : Prop where
  id : q.id = p.id
  lenVal : q.lenVal = p.lenVal
  value : q.val ≠ p.val →
    k.LengthMatches p parLen ∧ (k = .user → isPropWritable k.status p.access = true)
  access : q.access ≠ p.access → k ≠ .user ∧ q.access < meshAccessMax

theorem made_made (h : k.made p par parLen = some q) : Made k p parLen q := by
  cases k with
  | user =>
    unfold Server.made at h
    dsimp only at h
    split_ifs at h with hcond
    obtain rfl := Option.some.inj h
    refine ⟨rfl, rfl, fun _ => ⟨hcond.1, fun _ => ?_⟩, fun hne => absurd rfl hne⟩
    exact decide_eq_true (.inr hcond.2)
  | admin =>
    unfold Server.made at h
    dsimp only at h
    split_ifs at h with hcond
    obtain rfl := Option.some.inj h
    exact ⟨rfl, rfl, fun _ => ⟨hcond.1, fun hk => by cases hk⟩, fun _ => ⟨by decide, hcond.2⟩⟩
  | mfg =>
    unfold Server.made at h
    dsimp only at h
    split_ifs at h with hcond
    obtain rfl := Option.some.inj h
    refine ⟨rfl, rfl, fun hne => absurd rfl hne, fun _ => ⟨by decide, ?_⟩⟩
    exact BitVec.lt_def.mpr (Nat.lt_of_le_of_lt (BitVec.le_def.mp hcond) (by decide))

/-! ### A turn of a server -/

/-- What a server does with a property: it refuses, leaves it, or makes something of it. -/
inductive Turn (k : Server) (p : MeshProperty) (par : ℕ → Byte) (parLen : ℕ) :
    Option (MeshProperty × Bool) → Prop
  | refuses (h : k.made p par parLen = none) : Turn k p par parLen none
  | leaves (h : k.made p par parLen = none) : Turn k p par parLen (some (p, false))
  | sets (q : MeshProperty) (h : k.made p par parLen = some q) :
      Turn k p par parLen (some (q, true))

/-- The lengths of a message that a set looks at. -/
abbrev InRange (parLen : ℕ) : Prop :=
  parLen ≤ setUserHead + meshPropertyStrSizeMax ∧ setUserHead ≤ parLen

/-- A length of one octet is the length that is left of the message. -/
theorem lenVal_eq_iff (h : InRange parLen) {head : ℕ} (hhead : head ≤ parLen) (lenVal : Byte) :
    lenVal = BitVec.ofNat 8 (parLen - head) ↔ parLen = head + lenVal.toNat := by
  have hle : parLen - head < 2 ^ 8 := by
    have hmax := h.1
    unfold setUserHead meshPropertyStrSizeMax at hmax
    omega
  have hlt := lenVal.isLt
  rw [← BitVec.toNat_inj, BitVec.toNat_ofNat, Nat.mod_eq_of_lt hle]
  omega

theorem setUser_turn (h : InRange parLen) :
    Turn .user p par parLen (setUser p par parLen).val := by
  unfold setUser
  rw [val_ite, val_ite, val_ite, val_bind, if_pos h]
  have hlen := lenVal_eq_iff h h.2 p.lenVal
  split_ifs with hmatch hwrite
  · refine .sets _ ?_
    unfold Server.made
    rw [← hmatch]
    exact if_pos ⟨hlen.mp hmatch, hwrite⟩
  · exact .leaves (if_neg fun hboth => hwrite hboth.2)
  · exact .refuses (if_neg fun hboth => hmatch (hlen.mpr hboth.1))

theorem setAdmin_turn (h : InRange parLen) :
    Turn .admin p par parLen (setAdmin p par parLen).val := by
  unfold setAdmin
  rw [val_ite, val_ite, val_bind, val_ite, val_bind]
  split_ifs with hhead hmatch haccess
  · have hlen := (lenVal_eq_iff h hhead.2 p.lenVal).mp hmatch
    refine .sets _ ?_
    unfold Server.made
    rw [← hmatch]
    exact if_pos ⟨hlen, haccess⟩
  · exact .refuses (if_neg fun hboth => haccess hboth.2)
  · refine .refuses (if_neg fun hboth => hmatch ?_)
    exact (lenVal_eq_iff h hhead.2 p.lenVal).mpr hboth.1
  · refine .refuses (if_neg fun hboth => hhead ?_)
    have hmax := h.1
    have heq := hboth.1
    unfold setUserHead at hmax
    unfold setAdminHead at heq ⊢
    omega

theorem setMfg_turn : Turn .mfg p par parLen (setMfg p par).val := by
  unfold setMfg
  rw [val_bind, val_ite]
  split_ifs with haccess
  · exact .sets _ (if_pos haccess)
  · exact .refuses (if_neg haccess)

variable (k p par) in
theorem setBy_turn (h : InRange parLen) :
    Turn k p par parLen (setBy k.status p par parLen).val := by
  cases k with
  | user => exact setUser_turn h
  | admin => exact setAdmin_turn h
  | mfg => exact setMfg_turn

/-- Only a manufacturer set reads what may not be there. -/
theorem setBy_within (h : InRange parLen) :
    (setBy k.status p par parLen).Within (Octets.Came parLen) ↔
      (k = .mfg → parLen ≠ setUserHead) := by
  have hle := h.2
  unfold setUserHead at hle
  cases k with
  | user =>
    refine iff_of_true ?_ fun hk => by cases hk
    show (setUser p par parLen).Within _
    unfold setUser
    rw [within_ite, if_pos h, within_ite, within_ite, within_bind]
    split_ifs with hmatch
    · refine ⟨within_readPar.mpr ?_, within_pure _⟩
      have hlen := (lenVal_eq_iff h h.2 p.lenVal).mp hmatch
      show setUserHead + (BitVec.ofNat 8 (parLen - setUserHead)).toNat ≤ parLen
      rw [← hmatch]
      exact hlen.ge
    · exact within_pure _
    · exact within_pure _
  | admin =>
    refine iff_of_true ?_ fun hk => by cases hk
    show (setAdmin p par parLen).Within _
    unfold setAdmin
    rw [within_ite, within_ite, within_bind, within_ite, within_bind]
    split_ifs with hhead hmatch
    · have hlen := (lenVal_eq_iff h hhead.2 p.lenVal).mp hmatch
      refine ⟨within_readPar.mpr hhead.2, within_readPar.mpr ?_, within_pure _⟩
      show setAdminHead + (BitVec.ofNat 8 (parLen - setAdminHead)).toNat ≤ parLen
      rw [← hmatch]
      exact hlen.ge
    · exact ⟨within_readPar.mpr hhead.2, within_pure _⟩
    · exact within_pure _
    · exact within_pure _
  | mfg =>
    show (setMfg p par).Within _ ↔ _
    unfold setMfg
    rw [within_bind, within_ite]
    have hrest : if (readPar par 2 1).val.headD 0 ≤ meshMfgAccessRead then
        (pure (some ({ p with access := (readPar par 2 1).val.headD 0 }, true)) :
          Handler (Option (MeshProperty × Bool))).Within (Octets.Came parLen)
        else (pure none : Handler (Option (MeshProperty × Bool))).Within (Octets.Came parLen) := by
      split_ifs
      · exact within_pure _
      · exact within_pure _
    refine (and_iff_left hrest).trans (within_readPar.trans ?_)
    show 2 + 1 ≤ parLen ↔ _
    unfold setUserHead
    constructor
    · intro hlt _ heq
      omega
    · intro hne
      have hne' := hne rfl
      omega

/-! ### The handler -/

theorem opStats_cb (k : Server) (ack : Bool) : (k.cb ack).opStats = k.status := by
  cases k <;> cases ack <;> rfl

theorem opRsp_cb (k : Server) (ack : Bool) :
    (k.cb ack).opRsp = if ack then some k.status else none := by
  cases k <;> cases ack <;> rfl

theorem status_ne_client (k : Server) : k.status ≠ gClientPropertiesStatus := by
  cases k <;> decide

theorem base_status (t : PropertyTable) (k : Server) : t.base k.status = t.userProp :=
  if_neg (status_ne_client k)

theorem put_status (t : PropertyTable) (k : Server) (i : ℕ) (p : MeshProperty) :
    t.put k.status i p = { t with userProp := Function.update t.userProp i p } :=
  if_neg (status_ne_client k)

/-- The property that a message names. -/
def idOf (par : ℕ → Byte) : BitVec 16 := BitVec.ofNat 16 (ofLE (read par 0 2))

theorem ne_invalid_of_found (h : getPropertyById t propId k.status = some i) :
    propId ≠ invalidPropId := by
  intro hinvalid
  unfold getPropertyById at h
  rw [if_pos hinvalid] at h
  cases h

variable (k propId) in
/-- The answer is looked for where the property was. -/
theorem getPropertyById_put (h : q.id = (t.userProp i).id) :
    getPropertyById (t.put k.status i q) propId k.status = getPropertyById t propId k.status := by
  have hid : ∀ j, ((Function.update t.userProp i q) j).id = (t.userProp j).id := by
    intro j
    by_cases hj : j = i
    · rw [hj, Function.update_self, h]
    · rw [Function.update_of_ne hj]
  unfold getPropertyById
  rw [base_status, base_status, put_status]
  simp only [hid]

/-- What a set that is carried out returns. -/
theorem answer_put (hfound : getPropertyById t propId k.status = some i)
    (hmade : k.made (t.userProp i) par parLen = some q) :
    answer tx (t.put k.status i q) propId (k.cb ack).opRsp =
      if ack then if k = .user ∧ q.access ≠ meshAccessRw then -1 else tx k.status q.bytes
      else 0 := by
  rw [opRsp_cb]
  cases ack with
  | false => rfl
  | true =>
    have hbase : ((t.put k.status i q).base k.status) i = q := by
      rw [base_status, put_status]
      exact Function.update_self i q t.userProp
    have hkeep := made_made hmade
    have hfind := (getPropertyById_put k propId hkeep.id).trans hfound
    unfold answer meshTxCmdPropertySt
    simp only [if_true]
    rw [if_neg (ne_invalid_of_found hfound), hfind]
    dsimp only
    rw [hbase]
    cases k with
    | user =>
      -- the access has not changed, and allows writing
      have haccess : q.access = meshAccessWrite ∨ q.access = meshAccessRw := by
        unfold Server.made at hmade
        dsimp only at hmade
        split_ifs at hmade with hcond
        obtain rfl := Option.some.inj hmade
        exact hcond.2
      rcases haccess with hwrite | hrw
      · rw [hwrite]
        rfl
      · rw [hrw]
        rfl
    | admin => rfl
    | mfg => rfl

variable (tx ack) in
theorem set_of_made (hrange : InRange parLen)
    (hfound : getPropertyById t (idOf par) k.status = some i)
    (hmade : k.made (t.userProp i) par parLen = some q) :
    (meshCmdSigPropertySet tx t par parLen (k.cb ack)).val =
      ⟨t.put k.status i q, true, answer tx (t.put k.status i q) (idOf par) (k.cb ack).opRsp⟩ := by
  have hturn := setBy_turn k (t.userProp i) par hrange
  have hset : (setBy k.status (t.userProp i) par parLen).val = some (q, true) := by
    generalize (setBy k.status (t.userProp i) par parLen).val = done at hturn ⊢
    cases hturn with
    | refuses h => exact absurd (h.symm.trans hmade).symm (Option.some_ne_none q)
    | leaves h => exact absurd (h.symm.trans hmade).symm (Option.some_ne_none q)
    | sets q' h => rw [Option.some.inj (h.symm.trans hmade)]
  unfold meshCmdSigPropertySet
  rw [val_ite, if_pos hrange, val_bind, val_ite]
  refine (if_neg (ne_invalid_of_found hfound)).trans ?_
  show (setId tx t par parLen (k.cb ack) (idOf par)).val = _
  unfold setId
  rw [opStats_cb, hfound]
  dsimp only
  rw [val_bind, base_status, hset]
  rfl

variable (tx) in
/-- Without something that is made of a property the table stays. -/
theorem set_table (k : Server) (ack : Bool) (t : PropertyTable) (par : ℕ → Byte) (parLen : ℕ) :
    (meshCmdSigPropertySet tx t par parLen (k.cb ack)).val.table = t ∨
      ∃ i q, InRange parLen ∧ getPropertyById t (idOf par) k.status = some i ∧
        k.made (t.userProp i) par parLen = some q := by
  unfold meshCmdSigPropertySet
  rw [val_ite, val_bind, val_ite]
  split_ifs with hrange hinvalid
  · exact .inl rfl
  · show (setId tx t par parLen (k.cb ack) (idOf par)).val.table = t ∨ _
    unfold setId
    rw [opStats_cb]
    cases hfound : getPropertyById t (idOf par) k.status with
    | none => exact .inl rfl
    | some i =>
      have hturn := setBy_turn k (t.userProp i) par hrange
      dsimp only
      rw [val_bind, base_status]
      generalize (setBy k.status (t.userProp i) par parLen).val = done at hturn ⊢
      cases hturn with
      | refuses => exact .inl rfl
      | leaves =>
        refine .inl ?_
        show t.put k.status i (t.userProp i) = t
        rw [put_status, Function.update_eq_self]
      | sets q h => exact .inr ⟨i, q, hrange, rfl, h⟩
  · exact .inl rfl

variable (tx) in
theorem set_within (k : Server) (ack : Bool) (t : PropertyTable) (par : ℕ → Byte) (parLen : ℕ) :
    (meshCmdSigPropertySet tx t par parLen (k.cb ack)).Within (Octets.Came parLen) ↔
      (InRange parLen → k = .mfg → (∃ i, getPropertyById t (idOf par) k.status = some i) →
        parLen ≠ setUserHead) := by
  unfold meshCmdSigPropertySet
  rw [within_ite, within_bind, within_ite]
  split_ifs with hrange hinvalid
  · refine iff_of_true ⟨within_readPar.mpr hrange.2, within_pure _⟩ ?_
    rintro - - ⟨i, hfound⟩
    exact absurd hinvalid (ne_invalid_of_found hfound)
  · refine (and_iff_right (within_readPar.mpr hrange.2)).trans ?_
    show (setId tx t par parLen (k.cb ack) (idOf par)).Within _ ↔ _
    unfold setId
    rw [opStats_cb]
    cases hfound : getPropertyById t (idOf par) k.status with
    | none =>
      refine iff_of_true (within_pure _) ?_
      rintro - - ⟨i, hi⟩
      cases hi
    | some i =>
      dsimp only
      rw [within_bind, base_status]
      refine (and_iff_left ?_).trans ((setBy_within hrange).trans ?_)
      · cases (setBy k.status (t.userProp i) par parLen).val with
        | none => exact within_pure _
        | some r => exact within_pure _
      · exact ⟨fun h _ hk _ => h hk, fun h hk => h hrange hk ⟨i, rfl⟩⟩
  · exact iff_of_true (within_pure _) fun hrange' => absurd hrange' hrange

/-! ### What a set may change -/

/-- A set changes what its server may change, and nothing when it fails; it reads its message. -/
structure SetControlled (tx : BitVec 16 → List Byte → ℤ) (k : Server) (ack : Bool)
    (t : PropertyTable) (par : ℕ → Byte) (parLen : ℕ) (done : Handler Done) : Prop where
  within : done.Within (Octets.Came parLen)
  value : ∀ i, (done.val.table.userProp i).val ≠ (t.userProp i).val →
    k.LengthMatches (t.userProp i) parLen ∧
      (k = .user → isPropWritable k.status (t.userProp i).access = true)
  access : ∀ i, (done.val.table.userProp i).access ≠ (t.userProp i).access →
    k ≠ .user ∧ (done.val.table.userProp i).access < meshAccessMax
  shape : ∀ i, (done.val.table.userProp i).id = (t.userProp i).id ∧
    (done.val.table.userProp i).lenVal = (t.userProp i).lenVal
  client : done.val.table.clientProp = t.clientProp
  error : done.val.err ≠ 0 → done.val.table = t
  unknown : getPropertyById t (idOf par) k.status = none → done.val.table = t

/-- A set that changes the property it names can be answered, and its answer is sent. -/
def Answered (tx : BitVec 16 → List Byte → ℤ) (k : Server) (t : PropertyTable) (par : ℕ → Byte)
    (parLen : ℕ) : Prop :=
  ∀ i q, getPropertyById t (idOf par) k.status = some i →
    k.made (t.userProp i) par parLen = some q → q ≠ t.userProp i →
      (k = .user → q.access = meshAccessRw) ∧ tx k.status q.bytes = 0

/-- A manufacturer set of a property has an access, and an acknowledged set is answered. -/
def SetProper (tx : BitVec 16 → List Byte → ℤ) (k : Server) (ack : Bool) (t : PropertyTable)
    (par : ℕ → Byte) (parLen : ℕ) : Prop :=
  InRange parLen →
    (k = .mfg → (∃ i, getPropertyById t (idOf par) k.status = some i) → parLen ≠ setUserHead) ∧
      (ack = true → Answered tx k t par parLen)

theorem put_userProp : (t.put k.status i q).userProp = Function.update t.userProp i q := by
  rw [put_status]

theorem put_eq_self_iff : t.put k.status i q = t ↔ q = t.userProp i := by
  constructor
  · intro h
    have hi := congrFun (congrArg PropertyTable.userProp h) i
    rwa [put_userProp, Function.update_self] at hi
  · rintro rfl
    rw [put_status, Function.update_eq_self]

/-- What is made of the property is all that changes. -/
theorem put_controlled (hmade : k.made (t.userProp i) par parLen = some q) (j : ℕ) :
    Made k (t.userProp j) parLen ((t.put k.status i q).userProp j) := by
  rw [put_userProp]
  by_cases hj : j = i
  · rw [hj, Function.update_self]
    exact made_made hmade
  · rw [Function.update_of_ne hj]
    exact ⟨rfl, rfl, fun hne => absurd rfl hne, fun hne => absurd rfl hne⟩

theorem set_proper (h : SetControlled tx k ack t par parLen
    (meshCmdSigPropertySet tx t par parLen (k.cb ack))) : SetProper tx k ack t par parLen := by
  intro hrange
  refine ⟨(set_within tx k ack t par parLen).mp h.within hrange, ?_⟩
  rintro rfl i q hfound hmade hne
  have hset := set_of_made true tx hrange hfound hmade
  have herror := h.error
  rw [hset, answer_put hfound hmade, if_pos rfl] at herror
  -- a change and an error are not both
  have hzero : (if k = .user ∧ q.access ≠ meshAccessRw then -1 else tx k.status q.bytes) = 0 := by
    by_contra herr
    exact hne (put_eq_self_iff.mp (herror herr))
  split_ifs at hzero with hread
  exact ⟨fun hk => not_not.mp fun haccess => hread ⟨hk, haccess⟩, hzero⟩

theorem set_controlled (h : SetProper tx k ack t par parLen) :
    SetControlled tx k ack t par parLen (meshCmdSigPropertySet tx t par parLen (k.cb ack)) := by
  have hwithin := (set_within tx k ack t par parLen).mpr fun hrange => (h hrange).1
  rcases set_table tx k ack t par parLen with htable | ⟨i, q, hrange, hfound, hmade⟩
  · refine ⟨hwithin, fun i hne => ?_, fun i hne => ?_, fun i => ?_, ?_, fun _ => htable,
      fun _ => htable⟩
    · exact absurd (by rw [htable]) hne
    · exact absurd (by rw [htable]) hne
    · rw [htable]
      exact ⟨rfl, rfl⟩
    · rw [htable]
  · have hset := set_of_made ack tx hrange hfound hmade
    have hput := put_controlled (k := k) (i := i) hmade
    have herr : answer tx (t.put k.status i q) (idOf par) (k.cb ack).opRsp ≠ 0 →
        t.put k.status i q = t := by
      intro hne
      by_contra hchange
      have hq : q ≠ t.userProp i := fun heq => hchange (put_eq_self_iff.mpr heq)
      rw [answer_put hfound hmade] at hne
      cases ack with
      | false => exact hne rfl
      | true =>
        obtain ⟨hread, hsent⟩ := (h hrange).2 rfl i q hfound hmade hq
        rw [if_pos rfl, if_neg fun hboth => hboth.2 (hread hboth.1)] at hne
        exact hne hsent
    have hclient : (t.put k.status i q).clientProp = t.clientProp := by rw [put_status]
    refine ⟨hwithin, fun j => ?_, fun j => ?_, fun j => ?_, ?_, ?_, fun hnone => ?_⟩
    · rw [hset]
      exact (hput j).value
    · rw [hset]
      exact (hput j).access
    · rw [hset]
      exact ⟨(hput j).id, (hput j).lenVal⟩
    · rw [hset]
      exact hclient
    · rw [hset]
      exact herr
    · exact absurd (hnone.symm.trans hfound).symm (Option.some_ne_none i)

end

/-- **Property sets**: exactly which change no more than their server may, change nothing when they
fail, and read only their message.  `tx` is what sending a status returns. -/
theorem propertySet_controlled (tx : BitVec 16 → List Byte → ℤ) (k : Server) (ack : Bool)
    (t : PropertyTable) (par : ℕ → Byte) (parLen : ℕ) :
    SetControlled tx k ack t par parLen (meshCmdSigPropertySet tx t par parLen (k.cb ack)) ↔
      SetProper tx k ack t par parLen :=
  ⟨set_proper, set_controlled⟩

/-- The table of `mesh_property_global_init`. -/
def startTable : PropertyTable where
  userProp _ := ⟨3, 0x004E, meshAccessRw, fun k => [0x84, 0xEF, 0x48].getD k 0⟩
  clientProp _ := ⟨3, 0x004E, meshAccessRead, fun k => [0x11, 0x22, 0x33].getD k 0⟩

/-- A manufacturer set of two octets. -/
theorem propertySet_controlled_refuted :
    ¬ ∀ (tx : BitVec 16 → List Byte → ℤ) (k : Server) (ack : Bool) (t : PropertyTable)
      (par : ℕ → Byte) (parLen : ℕ),
      SetControlled tx k ack t par parLen
        (meshCmdSigPropertySet tx t par parLen (k.cb ack)) := by
  intro h
  let par : ℕ → Byte := fun p => [0x4E].getD p 0
  have hwithin := (h (fun _ _ => 0) .mfg false startTable par 2).within
  have hproper := (set_within _ .mfg false startTable par 2).mp hwithin
  exact hproper (by decide) rfl ⟨0, by decide⟩ rfl

end PirMesh.Property
