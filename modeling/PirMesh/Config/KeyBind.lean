import Mathlib.Data.List.Chain
import PirMesh.Keys.Table
import PirMesh.Library.Run
import PirMesh.Library.StopWait
import PirMesh.Node.Composition

/-! # Config — Binding the AppKey of a new node (`mesh_node.c`, `app_provison.c`)

The gateway asks a node it has provisioned for its composition data, adds the AppKey, and binds the
key to one model after the other, in every element.  A command is sent again in every pass of the
loop until its status comes; the status of a binding is known by the identifier of the model alone.

The commands are the requests of `StopWait`, numbered by their statuses, so commands and statuses
may be lost and repeated.  When the gateway reports success the node has taken every command
(`keyBind_complete`), as long as no two models that are bound one after the other have one
identifier, and the last status of an element does not come again before the next element is begun
(`InTurn`): `is_new_model` is set there while `model_id` is still the old one. -/

namespace PirMesh.KeyBind

open Nor (Byte)
open Records Run StopWait

/-! ### Data -/

/-- `KR_CFGCL_NORMAL` and the others of a binding. -/
inductive CfgclSt
  | normal
  | getCps
  | addAppkey
  | bindDefaultAppkey
  deriving DecidableEq, Repr

/-- `key_refresh_cfgcl_proc_t` -/
structure KeyRefreshCfgclProc where
  ak : Key
  nkIdx : KeyIdx
  akIdx : KeyIdx
  eleBindIndex : Byte
  modelBindIndex : Byte
  modelId : BitVec 32
  isNewModel : Bool
  nodeAdr : BitVec 16
  st : CfgclSt
  nextStFlag : CfgclSt
  retryCnt : Byte
  timeout : BitVec 32
  fastBind : Bool

/-- `MESH_KEYBIND_EVE_SUC` and `MESH_KEYBIND_EVE_TIMEOUT` -/
inductive KeybindEve
  | suc
  | timeout
  deriving DecidableEq, Repr

/-- The record, `VC_node_cps` from `page0_head` on, `key_bind_lock`, and the events that were
uploaded. -/
structure KeyBindClient where
  proc : KeyRefreshCfgclProc
  cps : ℕ → Byte
  keyBindLock : Bool
  uploads : List KeybindEve

/-- `cfg_cmd_cps_get`, `cfg_cmd_ak_add` and `cfg_cmd_ak_bind` -/
inductive CfgclCmd
  | cpsGet (page : Byte)
  | akAdd (nkIdx akIdx : KeyIdx) (ak : Key)
  | akBind (eleAdr : BitVec 16) (akIdx : KeyIdx) (modelId : BitVec 32) (sigModel : Bool)
  deriving DecidableEq

/-- `COMPOSITION_DATA_STATUS`, `APPKEY_STATUS` and `MODE_APP_STATUS`, as far as they are looked at;
the page is the one of the node. -/
inductive CfgclRsp
  | cpsStatus
  | appkeyStatus
  | modeAppStatus (modelId : BitVec 32)
  deriving DecidableEq

/-- The status a command is answered with. -/
def CfgclCmd.rsp : CfgclCmd → CfgclRsp
  | .cpsGet _ => .cpsStatus
  | .akAdd .. => .appkeyStatus
  | .akBind _ _ modelId _ => .modeAppStatus modelId

/-- `MESH_KR_CFG_RETRY_MAX_CNT` -/
def meshKrCfgRetryMaxCnt : Byte := 10

/-- `MODEL_ID_DEV_KEY` -/
def modelIdDevKey : List (BitVec 32) :=
  [0x0000, 0x0001, 0x0004, 0x0005, 0x0006, 0x0007, 0x0008, 0x0009, 0x000a, 0x000b]

def isUseDeviceKey (modelId : BitVec 32) (sigFlag : Bool) : Bool :=
  sigFlag && modelIdDevKey.contains modelId

/-! ### The start and the end -/

def KeyRefreshCfgclProc.retryInit (p : KeyRefreshCfgclProc) : KeyRefreshCfgclProc :=
  { p with retryCnt := meshKrCfgRetryMaxCnt }

def KeyRefreshCfgclProc.retryDecrease (p : KeyRefreshCfgclProc) : KeyRefreshCfgclProc :=
  { p with retryCnt := p.retryCnt - 1 }

/-- `mesh_kr_cfgcl_mode_set` with `KR_CFGCL_BIND_DEFAULT_APPKEY` -/
def meshKrCfgclModeSet (p : KeyRefreshCfgclProc) (addr : BitVec 16) (nkIdx : KeyIdx)
    (clockTime : BitVec 32) : KeyRefreshCfgclProc :=
  { p.retryInit with
    nodeAdr := addr
    timeout := clockTime ||| 1
    st := .getCps
    nextStFlag := .bindDefaultAppkey
    eleBindIndex := 0
    modelBindIndex := 0
    nkIdx }

/-- `mesh_kc_cfgcl_mode_para_set`, with the command of a fast binding. -/
def meshKcCfgclModeParaSet (p : KeyRefreshCfgclProc) (apkIdx : KeyIdx) (appkey : Key)
    (unicast : BitVec 16) (nkIdx : KeyIdx) (fastBind : Bool) (clockTime : BitVec 32) :
    KeyRefreshCfgclProc × Option CfgclCmd :=
  let p := { p with fastBind }
  if fastBind then ({ p with timeout := clockTime ||| 1 }, some (.akAdd nkIdx apkIdx appkey))
  else (meshKrCfgclModeSet { p with akIdx := apkIdx, ak := appkey } unicast nkIdx clockTime, none)

/-- The two octets of `p_idx` are the index, the high one first. -/
def meshCfgKeybindStartTriggerEvent (c : KeyBindClient) (idx : Byte × Byte) (key : Key)
    (unicast : BitVec 16) (nkIdx : KeyIdx) (fastbind : Bool) (clockTime : BitVec 32) :
    KeyBindClient × Option CfgclCmd :=
  let (proc, cmd) :=
    meshKcCfgclModeParaSet c.proc (idx.1 ++ idx.2) key unicast nkIdx fastbind clockTime
  ({ c with proc, keyBindLock := true }, cmd)

/-- `mesh_cfg_keybind_end_event`; both ends leave the record the same. -/
def meshCfgKeybindEndEvent (c : KeyBindClient) (eve : KeybindEve) : KeyBindClient :=
  { c with
    proc := { c.proc with st := .normal, timeout := 0 }
    keyBindLock := false
    uploads := c.uploads ++ [eve] }

/-- `check_mesh_kr_cfgcl_timeout`; a minute is over or not. -/
def checkMeshKrCfgclTimeout (c : KeyBindClient) (exceed : Bool) : KeyBindClient :=
  if c.proc.timeout ≠ 0 ∧ exceed then meshCfgKeybindEndEvent c .timeout else c

/-! ### The passes of the loop -/

/-- `p_ele` after `n` elements, from `p` on. -/
def pEle (m : ℕ → Byte) (p : ℕ) : ℕ → ℕ
  | 0 => p
  | n + 1 => pEle m (p + getCpsEleLen m p) n

/-- The command for a model. -/
def askModel (c : KeyBindClient) (modelId : BitVec 32) (sigModel : Bool) :
    KeyBindClient × Option CfgclCmd :=
  let p := c.proc
  let isNewModel := p.isNewModel || p.modelId != modelId
  ({ c with proc := { p with isNewModel, modelId } },
    some (.akBind (p.nodeAdr + p.eleBindIndex.setWidth 16) p.akIdx modelId sigModel))

/-- A model that is bound to the device key is passed over. -/
def skipModel (c : KeyBindClient) : KeyBindClient :=
  { c with proc := { c.proc with modelBindIndex := c.proc.modelBindIndex + 1 } }

/-- The models of the element are all bound: the next element, or the end. -/
def nextElement (cnt : Byte) (c : KeyBindClient) : KeyBindClient :=
  let eleBindIndex := c.proc.eleBindIndex + 1
  if eleBindIndex < cnt then
    { c with proc := { c.proc with eleBindIndex, modelBindIndex := 0, isNewModel := true } }
  else meshCfgKeybindEndEvent { c with proc := { c.proc with eleBindIndex } } .suc

/-- `VC_search_and_bind_model`; `elementCnt` is that of the entry of the node, if it has one. -/
def vcSearchAndBindModel (elementCnt : Option Byte) (c : KeyBindClient) :
    KeyBindClient × Option CfgclCmd :=
  match elementCnt with
  | none => (c, none)
  | some cnt =>
    let p := c.proc
    let ele := pEle c.cps offsetEle p.eleBindIndex.toNat
    let nums := eleNums c.cps ele
    if cnt ≠ 0 ∧ p.modelBindIndex < nums then
      let modelId := ((mdSig c.cps ele).getD p.modelBindIndex.toNat 0).setWidth 32
      if isUseDeviceKey modelId true then (skipModel c, none) else askModel c modelId true
    else if cnt ≠ 0 ∧ p.modelBindIndex.toNat < nums.toNat + (eleNumv c.cps ele).toNat then
      let modelId := (cpsVdModelIds c.cps ele).getD (p.modelBindIndex.toNat - nums.toNat) 0
      if isUseDeviceKey modelId false then (skipModel c, none) else askModel c modelId false
    else (nextElement cnt c, none)

/-- `mesh_kr_cfgcl_proc` -/
def meshKrCfgclProc (elementCnt : Option Byte) (c : KeyBindClient) :
    KeyBindClient × Option CfgclCmd :=
  let decrease (c : KeyBindClient) : KeyBindClient := { c with proc := c.proc.retryDecrease }
  match c.proc.st with
  | .normal => (c, none)
  | .getCps => (decrease c, some (.cpsGet 0xff))
  | .addAppkey => (decrease c, some (.akAdd c.proc.nkIdx c.proc.akIdx c.proc.ak))
  | .bindDefaultAppkey =>
    let (c, cmd) := vcSearchAndBindModel elementCnt c
    (decrease c, cmd)

/-! ### The statuses -/

/-- `VC_node_cps_save`: nothing is saved when the node has no entry. -/
def vcNodeCpsSave (elementCnt : Option Byte) (c : KeyBindClient) (page : List Byte) :
    KeyBindClient :=
  if elementCnt.isSome then { c with cps := Reassembly.copy c.cps 0 page } else c

/-- The state behind a status, if a binding goes on. -/
def nextSt (p : KeyRefreshCfgclProc) (st : CfgclSt) : CfgclSt :=
  if p.nextStFlag = .bindDefaultAppkey then st else .normal

/-- The case of `KR_CFGCL_BIND_DEFAULT_APPKEY`. -/
def rcvModeApp (p : KeyRefreshCfgclProc) : CfgclRsp → KeyRefreshCfgclProc
  | .modeAppStatus modelId =>
    let p := p.retryInit
    if p.nextStFlag = .bindDefaultAppkey then
      if modelId = p.modelId ∧ p.isNewModel then
        { p with isNewModel := false, modelBindIndex := p.modelBindIndex + 1 }
      else p
    else { p with st := .normal }
  | _ => p

/-- `mesh_kr_cfgcl_status_update`; `page` is the page of the composition data. -/
def meshKrCfgclStatusUpdate (elementCnt : Option Byte) (page : List Byte) (c : KeyBindClient)
    (rsp : CfgclRsp) : KeyBindClient :=
  let c := if rsp = .appkeyStatus ∧ c.proc.fastBind then meshCfgKeybindEndEvent c .suc else c
  match c.proc.st with
  | .getCps =>
    if rsp = .cpsStatus then
      let c := vcNodeCpsSave elementCnt c page
      { c with proc := { c.proc.retryInit with st := nextSt c.proc .addAppkey } }
    else c
  | .addAppkey =>
    let p :=
      if rsp = .appkeyStatus then
        { c.proc.retryInit with st := nextSt c.proc .bindDefaultAppkey }
      else c.proc
    -- no `break`
    { c with proc := rcvModeApp p rsp }
  | .bindDefaultAppkey => { c with proc := rcvModeApp c.proc rsp }
  | .normal => c

/-! ### The gateway and the node -/

/-- The gateway, and the link to the node. -/
structure KeyBindSystem (σ : Type) where
  client : KeyBindClient
  link : Link CfgclRsp CfgclCmd σ

inductive KeyBindEvent
  /-- A pass of the loop of the gateway. -/
  | pass
  | clock (exceed : Bool)
  | deliver
  | status
  | loseCmd (i : ℕ)
  | loseStatus (i : ℕ)
  deriving DecidableEq, Repr

section

variable {σ : Type} (elementCnt : Option Byte) (page : List Byte) (act : CfgclCmd → σ → σ)

def next (s : KeyBindSystem σ) : KeyBindEvent → KeyBindSystem σ
  | .pass =>
    match meshKrCfgclProc elementCnt s.client with
    | (client, none) => { s with client }
    | (client, some cmd) =>
      ⟨client, { s.link with last := cmd.rsp, cmd, down := s.link.down ++ [(cmd.rsp, cmd)] }⟩
  | .clock exceed => { s with client := checkMeshKrCfgclTimeout s.client exceed }
  | .deliver =>
    match s.link.down with
    | [] => s
    | x :: down =>
      { s with link :=
        { s.link with down, up := s.link.up ++ [x.1], recv := act x.2 s.link.recv } }
  | .status =>
    match s.link.up with
    | [] => s
    | rsp :: up =>
      ⟨meshKrCfgclStatusUpdate elementCnt page s.client rsp, { s.link with up }⟩
  | .loseCmd i => { s with link := { s.link with down := s.link.down.eraseIdx i } }
  | .loseStatus i => { s with link := { s.link with up := s.link.up.eraseIdx i } }

/-- A binding starts, and nothing is in flight; `uploads` are those of this binding. -/
def start (c : KeyBindClient) (idx : Byte × Byte) (key : Key) (unicast : BitVec 16)
    (nkIdx : KeyIdx) (clockTime : BitVec 32) (node : σ) : KeyBindSystem σ where
  client := { (meshCfgKeybindStartTriggerEvent c idx key unicast nkIdx false clockTime).1 with
    uploads := [] }
  link := ⟨.appkeyStatus, .cpsGet 0xff, [], [], node⟩

/-- The status is taken for the one of the next model, which was not asked for. -/
def Stale (c : KeyBindClient) (rsp : CfgclRsp) : Prop :=
  rsp = .modeAppStatus c.proc.modelId ∧ c.proc.isNewModel = true ∧
    (meshKrCfgclProc elementCnt c).2.map CfgclCmd.rsp ≠ some rsp

instance (c : KeyBindClient) (rsp : CfgclRsp) : Decidable (Stale elementCnt c rsp) :=
  inferInstanceAs (Decidable (_ ∧ _))

/-- The last status of an element does not come again before the next one is begun. -/
def InTurn (s : KeyBindSystem σ) : KeyBindEvent → Prop
  | .status => ∀ rsp ∈ s.link.up.head?, ¬ Stale elementCnt s.client rsp
  | _ => True

instance (s : KeyBindSystem σ) : ∀ e, Decidable (InTurn elementCnt s e)
  | .status =>
    inferInstanceAs (Decidable (∀ rsp ∈ s.link.up.head?, ¬ Stale elementCnt s.client rsp))
  | .pass | .clock _ | .deliver | .loseCmd _ | .loseStatus _ => inferInstanceAs (Decidable True)

end

/-! ### What is to be asked -/

/-- The models of an element, the SIG models first. -/
def models (r : ElementRecord) : List (BitVec 32 × Bool) :=
  r.sig.map (fun md => (md.setWidth 32, true)) ++ r.vendor.map fun md => (md, false)

/-- The commands for models of an element. -/
def bindCmds (eleAdr : BitVec 16) (akIdx : KeyIdx) (l : List (BitVec 32 × Bool)) : List CfgclCmd :=
  (l.filter fun md => !isUseDeviceKey md.1 md.2).map fun md => .akBind eleAdr akIdx md.1 md.2

/-- The commands for elements from the `n`th on. -/
def bindAll (nodeAdr : BitVec 16) (akIdx : KeyIdx) : ℕ → List ElementRecord → List CfgclCmd
  | _, [] => []
  | n, r :: rs =>
    bindCmds (nodeAdr + BitVec.ofNat 16 n) akIdx (models r) ++ bindAll nodeAdr akIdx (n + 1) rs

/-- The commands of a binding. -/
def allCmds (nodeAdr : BitVec 16) (nkIdx akIdx : KeyIdx) (ak : Key) (rs : List ElementRecord) :
    List CfgclCmd :=
  .cpsGet 0xff :: .akAdd nkIdx akIdx ak :: bindAll nodeAdr akIdx 0 rs

/-- Those that have not been answered. -/
def todo (rs : List ElementRecord) (p : KeyRefreshCfgclProc) : List CfgclCmd :=
  match p.st with
  | .normal => []
  | .getCps => allCmds p.nodeAdr p.nkIdx p.akIdx p.ak rs
  | .addAppkey => (allCmds p.nodeAdr p.nkIdx p.akIdx p.ak rs).tail
  | .bindDefaultAppkey =>
    match rs.drop p.eleBindIndex.toNat with
    | [] => []
    | r :: rest =>
      bindCmds (p.nodeAdr + p.eleBindIndex.setWidth 16) p.akIdx
        ((models r).drop p.modelBindIndex.toNat) ++
      bindAll p.nodeAdr p.akIdx (p.eleBindIndex.toNat + 1) rest

/-! ### The elements -/

variable {m : ℕ → Byte} {q : ℕ} {r : ElementRecord} {rs : List ElementRecord}

theorem get_pEle (hat : eleKind.At m q rs) {n : ℕ} {rest : List ElementRecord}
    (hdrop : rs.drop n = r :: rest) : eleKind.get m (pEle m q n) = r := by
  induction n generalizing q rs with
  | zero =>
    obtain rfl : rs = r :: rest := hdrop
    exact (Kind.at_cons.mp hat).1
  | succ n ih =>
    cases rs with
    | nil => cases hdrop
    | cons r' rs => exact ih (Kind.at_cons.mp hat).2 hdrop

theorem mdSig_of_get {ele : ℕ} (h : eleKind.get m ele = r) : mdSig m ele = r.sig :=
  congrArg ElementRecord.sig h

theorem cpsVdModelIds_of_get {ele : ℕ} (h : eleKind.get m ele = r) :
    cpsVdModelIds m ele = r.vendor :=
  congrArg ElementRecord.vendor h

theorem eleNums_of_get {ele : ℕ} (h : eleKind.get m ele = r) :
    (eleNums m ele).toNat = r.sig.length := by
  rw [← mdSig_of_get h]
  exact (length_getWords ..).symm

theorem eleNumv_of_get {ele : ℕ} (h : eleKind.get m ele = r) :
    (eleNumv m ele).toNat = r.vendor.length := by
  rw [← cpsVdModelIds_of_get h]
  exact (length_getWords ..).symm

/-! ### A pass -/

/-- What the gateway knows of the node is right. -/
structure Listed (elementCnt : Option Byte) (page : List Byte) (rs : List ElementRecord) :
    Prop where
  cnt_eq : elementCnt = some (.ofNat 8 rs.length)
  length_lt : rs.length < 256
  models_lt : ∀ r ∈ rs, (models r).length < 256
  page_eq : ∃ head, head.length = offsetEle ∧ page = head ++ eleKind.putAll rs

/-- The gateway is at a model of an element, or behind the last one. -/
def Placed (rs : List ElementRecord) (p : KeyRefreshCfgclProc) : Prop :=
  rs = [] ∨ ∃ r rest, rs.drop p.eleBindIndex.toNat = r :: rest ∧
    p.modelBindIndex.toNat ≤ (models r).length

/-- A binding that has not ended. -/
structure Ready (rs : List ElementRecord) (c : KeyBindClient) : Prop where
  st_ne : c.proc.st ≠ .normal
  next_eq : c.proc.nextStFlag = .bindDefaultAppkey
  fast_eq : c.proc.fastBind = false
  slow : KeybindEve.suc ∉ c.uploads
  cps_at : c.proc.st ≠ .getCps → eleKind.At c.cps offsetEle rs
  placed : Placed rs c.proc
  first : c.proc.st ≠ .bindDefaultAppkey → c.proc.eleBindIndex = 0 ∧ c.proc.modelBindIndex = 0

section

variable {elementCnt : Option Byte} {page : List Byte} {c : KeyBindClient}

theorem getElem?_models (r : ElementRecord) (n : ℕ) : (models r)[n]? =
    if n < r.sig.length then some ((r.sig.getD n 0).setWidth 32, true)
    else if n < r.sig.length + r.vendor.length then
      some (r.vendor.getD (n - r.sig.length) 0, false)
    else none := by
  rw [models, List.getElem?_append, List.length_map]
  split
  · rename_i hlt
    rw [List.getElem?_map, List.getElem?_eq_getElem hlt, List.getD_eq_getElem _ _ hlt]
    rfl
  · rename_i hge
    rw [List.getElem?_map]
    split
    · rename_i hlt
      have hidx : n - r.sig.length < r.vendor.length := by omega
      rw [List.getElem?_eq_getElem hidx, List.getD_eq_getElem _ _ hidx]
      rfl
    · rename_i hge'
      rw [List.getElem?_eq_none (by omega)]
      rfl

/-- The search looks at the model the two indexes are at. -/
theorem vcSearch_eq {cnt : Byte} {rest : List ElementRecord} (hcnt : cnt ≠ 0)
    (hat : eleKind.At c.cps offsetEle rs)
    (hdrop : rs.drop c.proc.eleBindIndex.toNat = r :: rest) :
    vcSearchAndBindModel (some cnt) c =
      match (models r)[c.proc.modelBindIndex.toNat]? with
      | some md =>
        if isUseDeviceKey md.1 md.2 then (skipModel c, none) else askModel c md.1 md.2
      | none => (nextElement cnt c, none) := by
  have hget := get_pEle hat hdrop
  rw [vcSearchAndBindModel, getElem?_models]
  simp only [mdSig_of_get hget, cpsVdModelIds_of_get hget, eleNums_of_get hget,
    eleNumv_of_get hget, BitVec.lt_def, ne_eq, hcnt, not_false_eq_true, true_and]
  split
  · rfl
  · split <;> rfl

/-- What a pass does: it asks for the next status, goes on, or ends. -/
inductive Passed (rs : List ElementRecord) (c : KeyBindClient) :
    KeyBindClient × Option CfgclCmd → Prop
  | asks {c' : KeyBindClient} {cmd : CfgclCmd} {rest : List CfgclCmd} (hready : Ready rs c')
      (hhead : todo rs c.proc = cmd :: rest) (htodo : todo rs c'.proc = todo rs c.proc) :
      Passed rs c (c', some cmd)
  | goes {c' : KeyBindClient} (hready : Ready rs c') (htodo : todo rs c'.proc = todo rs c.proc) :
      Passed rs c (c', none)
  | ends {c' : KeyBindClient} (hst : c'.proc.st = .normal)
      (hfast : c'.proc.fastBind = c.proc.fastBind) (htodo : todo rs c.proc = []) :
      Passed rs c (c', none)

theorem bindCmds_drop (eleAdr : BitVec 16) (akIdx : KeyIdx) {l : List (BitVec 32 × Bool)} {n : ℕ}
    {md : BitVec 32 × Bool} (h : l[n]? = some md) :
    bindCmds eleAdr akIdx (l.drop n) =
      if isUseDeviceKey md.1 md.2 then bindCmds eleAdr akIdx (l.drop (n + 1))
      else .akBind eleAdr akIdx md.1 md.2 :: bindCmds eleAdr akIdx (l.drop (n + 1)) := by
  obtain ⟨hlt, rfl⟩ := List.getElem?_eq_some_iff.mp h
  rw [List.drop_eq_getElem_cons hlt, bindCmds, List.filter_cons]
  split
  · rename_i hdev
    rw [if_neg (by simpa using hdev)]
    rfl
  · rename_i hdev
    rw [if_pos (by simpa using hdev)]
    rfl

/-- At a model of an element. -/
theorem todo_of_drop {p : KeyRefreshCfgclProc} {rest : List ElementRecord}
    (hst : p.st = .bindDefaultAppkey) (hdrop : rs.drop p.eleBindIndex.toNat = r :: rest) :
    todo rs p = bindCmds (p.nodeAdr + p.eleBindIndex.setWidth 16) p.akIdx
      ((models r).drop p.modelBindIndex.toNat) ++
        bindAll p.nodeAdr p.akIdx (p.eleBindIndex.toNat + 1) rest := by
  rw [todo, hst]
  simp only [hdrop]

theorem todo_nil {p : KeyRefreshCfgclProc} (hst : p.st = .bindDefaultAppkey) : todo [] p = [] := by
  rw [todo, hst]
  simp only [List.drop_nil]

theorem cnt_ne_zero {rest : List ElementRecord} {n : ℕ} (hlen : rs.length < 256)
    (hdrop : rs.drop n = r :: rest) : BitVec.ofNat 8 rs.length ≠ 0 := by
  have hpos : 0 < rs.length := by
    have hl := congrArg List.length hdrop
    rw [List.length_drop, List.length_cons] at hl
    omega
  rw [ne_eq, ← BitVec.toNat_inj, BitVec.toNat_ofNat, Nat.mod_eq_of_lt hlen]
  exact Nat.ne_of_gt hpos

theorem toNat_succ {b : Byte} (h : b.toNat + 1 < 256) : (b + 1).toNat = b.toNat + 1 := by
  rw [BitVec.toNat_add]
  exact Nat.mod_eq_of_lt h

/-- Behind the last model of an element. -/
theorem passed_nextElement {rest : List ElementRecord} (hlen : rs.length < 256) (h : Ready rs c)
    (hst : c.proc.st = .bindDefaultAppkey) (hdrop : rs.drop c.proc.eleBindIndex.toNat = r :: rest)
    (htodo : todo rs c.proc =
      bindAll c.proc.nodeAdr c.proc.akIdx (c.proc.eleBindIndex.toNat + 1) rest) :
    Passed rs c (nextElement (.ofNat 8 rs.length) c, none) := by
  have hlt : c.proc.eleBindIndex.toNat + rest.length + 1 = rs.length := by
    have hl := congrArg List.length hdrop
    rw [List.length_drop, List.length_cons] at hl
    omega
  have hsucc := toNat_succ (b := c.proc.eleBindIndex) (by omega)
  have hcnt : (BitVec.ofNat 8 rs.length).toNat = rs.length := by
    rw [BitVec.toNat_ofNat, Nat.mod_eq_of_lt hlen]
  have hrest : rs.drop (c.proc.eleBindIndex.toNat + 1) = rest := by
    rw [← List.drop_drop, hdrop]
    rfl
  rw [nextElement]
  cases rest with
  | nil =>
    rw [if_neg (by rw [BitVec.lt_def, hsucc, hcnt]; simp only [List.length_nil] at hlt; omega)]
    exact .ends rfl rfl htodo
  | cons r' rest' =>
    rw [if_pos (by rw [BitVec.lt_def, hsucc, hcnt]; simp only [List.length_cons] at hlt; omega)]
    have hplace : rs.drop (c.proc.eleBindIndex + 1).toNat = r' :: rest' := hsucc ▸ hrest
    refine .goes ⟨h.st_ne, h.next_eq, h.fast_eq, h.slow, h.cps_at,
      .inr ⟨r', rest', hplace, Nat.zero_le _⟩, fun hne => absurd hst hne⟩
      ((todo_of_drop (p := { c.proc with
        eleBindIndex := c.proc.eleBindIndex + 1, modelBindIndex := 0, isNewModel := true })
        hst hplace).trans ?_)
    have hadr : (c.proc.eleBindIndex + 1).setWidth 16 =
        BitVec.ofNat 16 (c.proc.eleBindIndex.toNat + 1) := by
      rw [← hsucc, BitVec.ofNat_toNat]
    rw [htodo, bindAll, hadr, hsucc]
    rfl

theorem passed_search (hlist : Listed elementCnt page rs) (h : Ready rs c)
    (hst : c.proc.st = .bindDefaultAppkey) : Passed rs c (vcSearchAndBindModel elementCnt c) := by
  rw [hlist.cnt_eq]
  have hcps := h.cps_at (by rw [hst]; decide)
  obtain rfl | ⟨r, rest, hdrop, -⟩ := h.placed
  · exact .ends rfl rfl (todo_nil hst)
  rw [vcSearch_eq (cnt_ne_zero hlist.length_lt hdrop) hcps hdrop]
  have htodo := todo_of_drop hst hdrop
  cases hmd : (models r)[c.proc.modelBindIndex.toNat]? with
  | none =>
    refine passed_nextElement hlist.length_lt h hst hdrop ?_
    rw [htodo, List.drop_eq_nil_of_le (List.getElem?_eq_none_iff.mp hmd)]
    rfl
  | some md =>
    have hlt := (List.getElem?_eq_some_iff.mp hmd).1
    have hmem : r ∈ rs := List.mem_of_mem_drop (hdrop ▸ List.mem_cons_self)
    have hsucc := toNat_succ (b := c.proc.modelBindIndex) (by
      have := hlist.models_lt r hmem
      omega)
    rw [bindCmds_drop _ _ hmd] at htodo
    dsimp only
    split
    · rename_i hdev
      refine .goes ⟨h.st_ne, h.next_eq, h.fast_eq, h.slow, h.cps_at,
        .inr ⟨r, rest, hdrop, hsucc.trans_le hlt⟩, fun hne => absurd hst hne⟩
        ((todo_of_drop (p := { c.proc with modelBindIndex := c.proc.modelBindIndex + 1 })
          hst hdrop).trans ?_)
      rw [htodo, if_pos hdev, ← hsucc]
    · rename_i hdev
      rw [if_neg hdev, List.cons_append] at htodo
      exact .asks ⟨h.st_ne, h.next_eq, h.fast_eq, h.slow, h.cps_at, h.placed, h.first⟩ htodo rfl

/-- The number of attempts says nothing of what is to be asked. -/
theorem Ready.retryCnt (h : Ready rs c) (n : Byte) :
    Ready rs { c with proc := { c.proc with retryCnt := n } } :=
  ⟨h.st_ne, h.next_eq, h.fast_eq, h.slow, h.cps_at, h.placed, h.first⟩

theorem Passed.decrease {c' : KeyBindClient} {cmd : Option CfgclCmd} (h : Passed rs c (c', cmd)) :
    Passed rs c ({ c' with proc := c'.proc.retryDecrease }, cmd) := by
  cases h with
  | asks hready hhead htodo => exact .asks (hready.retryCnt _) hhead htodo
  | goes hready htodo => exact .goes (hready.retryCnt _) htodo
  | ends hst hfast htodo => exact .ends hst hfast htodo

/-- **A pass.** -/
theorem passed_proc (hlist : Listed elementCnt page rs) (h : Ready rs c) :
    Passed rs c (meshKrCfgclProc elementCnt c) := by
  rw [meshKrCfgclProc]
  cases hst : c.proc.st with
  | normal => exact absurd hst h.st_ne
  | getCps => exact (Passed.asks h (by rw [todo, hst]; rfl) rfl).decrease
  | addAppkey => exact (Passed.asks h (by rw [todo, hst]; rfl) rfl).decrease
  | bindDefaultAppkey => exact (passed_search hlist h hst).decrease

/-! ### A status -/

/-- What a status does: it counts for the next command, or changes nothing. -/
inductive Answered (rs : List ElementRecord) (c : KeyBindClient) (rsp : CfgclRsp) :
    KeyBindClient → Prop
  | counts {c' : KeyBindClient} {cmd : CfgclCmd} {rest : List CfgclCmd} (hready : Ready rs c')
      (hhead : todo rs c.proc = cmd :: rest) (hrsp : cmd.rsp = rsp)
      (htodo : todo rs c'.proc = rest) : Answered rs c rsp c'
  | ignored {c' : KeyBindClient} (hready : Ready rs c')
      (htodo : todo rs c'.proc = todo rs c.proc) : Answered rs c rsp c'

/-- A model that is asked for is the next one. -/
theorem search_asks (hlist : Listed elementCnt page rs) (h : Ready rs c)
    (hst : c.proc.st = .bindDefaultAppkey) {cmd : CfgclCmd}
    (hcmd : (vcSearchAndBindModel elementCnt c).2 = some cmd) :
    todo rs c.proc = cmd :: todo rs (skipModel c).proc ∧ Placed rs (skipModel c).proc := by
  rw [hlist.cnt_eq] at hcmd
  have hcps := h.cps_at (by rw [hst]; decide)
  obtain rfl | ⟨r, rest, hdrop, -⟩ := h.placed
  · cases hcmd
  rw [vcSearch_eq (cnt_ne_zero hlist.length_lt hdrop) hcps hdrop] at hcmd
  have htodo := todo_of_drop hst hdrop
  cases hmd : (models r)[c.proc.modelBindIndex.toNat]? with
  | none =>
    rw [hmd] at hcmd
    cases hcmd
  | some md =>
    have hlt := (List.getElem?_eq_some_iff.mp hmd).1
    have hmem : r ∈ rs := List.mem_of_mem_drop (hdrop ▸ List.mem_cons_self)
    have hsucc := toNat_succ (b := c.proc.modelBindIndex) (by
      have := hlist.models_lt r hmem
      omega)
    rw [hmd] at hcmd
    dsimp only at hcmd
    split at hcmd
    · cases hcmd
    · rename_i hdev
      obtain rfl := Option.some.inj hcmd
      rw [bindCmds_drop _ _ hmd, if_neg hdev, List.cons_append, ← hsucc] at htodo
      refine ⟨htodo.trans (congrArg _ (todo_of_drop (p := (skipModel c).proc) hst hdrop).symm),
        .inr ⟨r, rest, hdrop, hsucc.trans_le hlt⟩⟩

theorem at_copy (hlist : Listed elementCnt page rs) (m : ℕ → Byte) :
    eleKind.At (Reassembly.copy m 0 page) offsetEle rs := by
  obtain ⟨head, hhead, rfl⟩ := hlist.page_eq
  have hread := Reassembly.read_copy m 0 (head ++ eleKind.putAll rs) offsetEle
    (eleKind.putAll rs).length (by rw [List.length_append, hhead])
  rw [Nat.zero_add, ← hhead, List.drop_left, List.take_length] at hread
  rw [Kind.At, ← hhead]
  exact hread

/-- The composition data is saved. -/
theorem answered_cps (hlist : Listed elementCnt page rs) (h : Ready rs c)
    (hst : c.proc.st = .getCps) :
    Answered rs c .cpsStatus { c with
      cps := Reassembly.copy c.cps 0 page
      proc := { c.proc.retryInit with st := .addAppkey } } := by
  obtain ⟨he, hm⟩ := h.first (by rw [hst]; decide)
  have htodo : todo rs c.proc = allCmds c.proc.nodeAdr c.proc.nkIdx c.proc.akIdx c.proc.ak rs := by
    rw [todo, hst]
  exact .counts ⟨nofun, h.next_eq, h.fast_eq, h.slow, fun _ => at_copy hlist c.cps, h.placed,
    fun _ => ⟨he, hm⟩⟩ htodo rfl rfl

/-- The key is added. -/
theorem answered_appkey (h : Ready rs c) (hst : c.proc.st = .addAppkey) :
    Answered rs c .appkeyStatus
      { c with proc := { c.proc.retryInit with st := .bindDefaultAppkey } } := by
  obtain ⟨he, hm⟩ := h.first (by rw [hst]; decide)
  have htodo : todo rs c.proc = .akAdd c.proc.nkIdx c.proc.akIdx c.proc.ak ::
      bindAll c.proc.nodeAdr c.proc.akIdx 0 rs := by
    rw [todo, hst]
    rfl
  refine .counts ⟨nofun, h.next_eq, h.fast_eq, h.slow,
    fun _ => h.cps_at (by rw [hst]; decide), h.placed, fun _ => ⟨he, hm⟩⟩ htodo rfl ?_
  cases rs with
  | nil => exact todo_nil rfl
  | cons r rest =>
    have hdrop : (r :: rest).drop c.proc.eleBindIndex.toNat = r :: rest := by
      rw [he]
      rfl
    refine (todo_of_drop (p := { c.proc.retryInit with st := .bindDefaultAppkey }) rfl
      hdrop).trans ?_
    show bindCmds (c.proc.nodeAdr + c.proc.eleBindIndex.setWidth 16) c.proc.akIdx
      ((models r).drop c.proc.modelBindIndex.toNat) ++
        bindAll c.proc.nodeAdr c.proc.akIdx (c.proc.eleBindIndex.toNat + 1) rest = _
    rw [he, hm]
    rfl

/-- The status of a binding counts when it is that of the model asked for. -/
theorem answered_modeApp (hlist : Listed elementCnt page rs) (h : Ready rs c) {rsp : CfgclRsp}
    (hst : c.proc.st ≠ .getCps) (hstale : ¬ Stale elementCnt c rsp) :
    Answered rs c rsp { c with proc := rcvModeApp c.proc rsp } := by
  cases rsp with
  | cpsStatus => exact .ignored h rfl
  | appkeyStatus => exact .ignored h rfl
  | modeAppStatus modelId =>
    have hrcv : rcvModeApp c.proc (.modeAppStatus modelId) =
        if modelId = c.proc.modelId ∧ c.proc.isNewModel then
          { c.proc.retryInit with
            isNewModel := false, modelBindIndex := c.proc.modelBindIndex + 1 }
        else c.proc.retryInit := if_pos h.next_eq
    rw [hrcv]
    split
    · rename_i hnew
      obtain ⟨rfl, hnew⟩ := hnew
      have hasked : (meshKrCfgclProc elementCnt c).2.map CfgclCmd.rsp =
          some (.modeAppStatus c.proc.modelId) := not_not.mp fun hne => hstale ⟨rfl, hnew, hne⟩
      rw [meshKrCfgclProc] at hasked
      cases hst' : c.proc.st with
      | normal => exact absurd hst' h.st_ne
      | getCps => exact absurd hst' hst
      | addAppkey =>
        rw [hst'] at hasked
        cases hasked
      | bindDefaultAppkey =>
        rw [hst'] at hasked
        obtain ⟨cmd, hcmd, hrsp⟩ := Option.map_eq_some_iff.mp hasked
        obtain ⟨htodo, hplaced⟩ := search_asks hlist h hst' hcmd
        exact .counts ⟨h.st_ne, h.next_eq, h.fast_eq, h.slow, h.cps_at, hplaced,
          fun hne => absurd hst' hne⟩ htodo hrsp rfl
    · exact .ignored (h.retryCnt _) rfl

/-- **A status.** -/
theorem answered_status (hlist : Listed elementCnt page rs) (h : Ready rs c) {rsp : CfgclRsp}
    (hstale : ¬ Stale elementCnt c rsp) :
    Answered rs c rsp (meshKrCfgclStatusUpdate elementCnt page c rsp) := by
  have hslow : ¬ (rsp = .appkeyStatus ∧ c.proc.fastBind = true) := by
    rw [h.fast_eq]
    simp
  have hnext : ∀ st, nextSt c.proc st = st := fun st => if_pos h.next_eq
  rw [meshKrCfgclStatusUpdate, if_neg hslow]
  cases hst : c.proc.st with
  | normal => exact absurd hst h.st_ne
  | getCps =>
    have hsave : vcNodeCpsSave elementCnt c page =
        { c with cps := Reassembly.copy c.cps 0 page } := by
      rw [vcNodeCpsSave, hlist.cnt_eq]
      rfl
    dsimp only
    rw [hsave, hnext]
    split
    · rename_i hrsp
      exact hrsp ▸ answered_cps hlist h hst
    · exact .ignored h rfl
  | addAppkey =>
    dsimp only
    rw [hnext]
    split
    · rename_i hrsp
      exact hrsp ▸ answered_appkey h hst
    · exact answered_modeApp hlist h (by rw [hst]; decide) hstale
  | bindDefaultAppkey => exact answered_modeApp hlist h (by rw [hst]; decide) hstale

/-! ### A run -/

variable {σ : Type} {act : CfgclCmd → σ → σ} {final : σ}

/-- Where a binding is that is to leave the node as `final`: the next command has not been sent, it
has been, or the binding has ended. -/
inductive Stage (rs : List ElementRecord) (act : CfgclCmd → σ → σ) (final : σ) :
    KeyBindSystem σ → Prop
  | fresh {s : KeyBindSystem σ} {goal : σ} (hready : Ready rs s.client)
      (hdone : Done act goal s.link)
      (hchain : List.IsChain (· ≠ ·) (s.link.last :: (todo rs s.client.proc).map CfgclCmd.rsp))
      (hfinal : (todo rs s.client.proc).foldl (fun t cmd => act cmd t) goal = final) :
      Stage rs act final s
  | asked {s : KeyBindSystem σ} {goal : σ} {rest : List CfgclCmd} (hready : Ready rs s.client)
      (hhead : todo rs s.client.proc = s.link.cmd :: rest) (hlast : s.link.last = s.link.cmd.rsp)
      (hwait : Waiting act goal s.link)
      (hchain : List.IsChain (· ≠ ·) (s.link.last :: rest.map CfgclCmd.rsp))
      (hfinal : rest.foldl (fun t cmd => act cmd t) goal = final) : Stage rs act final s
  | ended {s : KeyBindSystem σ} (hst : s.client.proc.st = .normal)
      (hfast : s.client.proc.fastBind = false)
      (hdone : KeybindEve.suc ∈ s.client.uploads → Done act final s.link) : Stage rs act final s

variable {s : KeyBindSystem σ}

theorem Stage.pass (hlist : Listed elementCnt page rs) (h : Stage rs act final s) :
    Stage rs act final (next elementCnt page act s .pass) := by
  cases h with
  | fresh hready hdone hchain hfinal =>
    have hpass := passed_proc hlist hready
    rw [next]
    cases hproc : meshKrCfgclProc elementCnt s.client with | mk c' cmd =>
    rw [hproc] at hpass
    cases hpass with
    | asks hready' hhead htodo =>
      rw [hhead, List.map_cons] at hchain
      rw [hhead, List.foldl_cons] at hfinal
      obtain ⟨hne, hchain⟩ := List.isChain_cons_cons.mp hchain
      refine .asked hready' (htodo.trans hhead) rfl
        (.inl (hdone.request (fun x hx => ?_) (fun n hn => ?_) rfl)) hchain hfinal
      · rw [(hdone.down_eq x hx).1]
        exact hne
      · rw [(hdone.up_eq n hn).1]
        exact hne
    | goes hready' htodo => exact .fresh hready' hdone (htodo ▸ hchain) (htodo ▸ hfinal)
    | ends hst hfast htodo =>
      rw [htodo] at hfinal
      exact .ended hst (hfast.trans hready.fast_eq) fun _ => hfinal ▸ hdone
  | asked hready hhead hlast hwait hchain hfinal =>
    have hpass := passed_proc hlist hready
    rw [next]
    cases hproc : meshKrCfgclProc elementCnt s.client with | mk c' cmd =>
    rw [hproc] at hpass
    cases hpass with
    | asks hready' hhead' htodo =>
      obtain ⟨rfl, rfl⟩ := List.cons.inj (hhead.symm.trans hhead')
      have hagain := hwait.again
      rw [hlast] at hagain hchain
      exact .asked hready' (htodo.trans hhead) rfl hagain hchain hfinal
    | goes hready' htodo =>
      exact .asked hready' (htodo.trans hhead) hlast hwait hchain hfinal
    | ends hst hfast htodo => exact absurd (hhead.symm.trans htodo) (List.cons_ne_nil _ _)
  | ended hst hfast hdone =>
    rw [next, meshKrCfgclProc, hst]
    exact .ended hst hfast hdone

theorem Stage.clock (exceed : Bool) (h : Stage rs act final s) :
    Stage rs act final (next elementCnt page act s (.clock exceed)) := by
  rw [next, checkMeshKrCfgclTimeout]
  split
  · have hsuc : KeybindEve.suc ∈ s.client.uploads ++ [.timeout] → .suc ∈ s.client.uploads := by
      simp
    cases h with
    | fresh hready _ _ _ =>
      exact .ended rfl hready.fast_eq fun hmem => absurd (hsuc hmem) hready.slow
    | asked hready _ _ _ _ _ =>
      exact .ended rfl hready.fast_eq fun hmem => absurd (hsuc hmem) hready.slow
    | ended _ hfast hdone => exact .ended rfl hfast fun hmem => hdone (hsuc hmem)
  · exact h

theorem Stage.lose {down : List (CfgclRsp × CfgclCmd)} {up : List CfgclRsp}
    (h : Stage rs act final s) (hdown : down.Sublist s.link.down) (hup : up.Sublist s.link.up) :
    Stage rs act final { s with link := { s.link with down, up } } := by
  cases h with
  | fresh hready hdone hchain hfinal => exact .fresh hready (hdone.lose hdown hup) hchain hfinal
  | asked hready hhead hlast hwait hchain hfinal =>
    exact .asked hready hhead hlast (hwait.lose hdown hup) hchain hfinal
  | ended hst hfast hdone => exact .ended hst hfast fun hmem => (hdone hmem).lose hdown hup

theorem Stage.deliver (hidem : ∀ cmd t, act cmd (act cmd t) = act cmd t)
    (h : Stage rs act final s) : Stage rs act final (next elementCnt page act s .deliver) := by
  rw [next]
  split
  · exact h
  · rename_i x down hdown
    cases h with
    | fresh hready hdone hchain hfinal => exact .fresh hready (hdone.deliver hdown) hchain hfinal
    | asked hready hhead hlast hwait hchain hfinal =>
      exact .asked hready hhead hlast (hwait.deliver hidem hdown) hchain hfinal
    | ended hst hfast hdone => exact .ended hst hfast fun hmem => (hdone hmem).deliver hdown

theorem Stage.status (hlist : Listed elementCnt page rs) (h : Stage rs act final s)
    (hturn : InTurn elementCnt s .status) :
    Stage rs act final (next elementCnt page act s .status) := by
  rw [next]
  split
  · exact h
  · rename_i rsp up hup
    have hstale : ¬ Stale elementCnt s.client rsp := hturn rsp (by rw [hup]; rfl)
    have hsub : up.Sublist s.link.up := hup ▸ List.sublist_cons_self rsp up
    cases h with
    | fresh hready hdone hchain hfinal =>
      have hans := answered_status hlist hready hstale
      generalize meshKrCfgclStatusUpdate elementCnt page s.client rsp = c' at hans ⊢
      cases hans with
      | counts hready' hhead hrsp htodo =>
        -- all that is in flight is of the last command
        rw [hhead, List.map_cons] at hchain
        have hlast := (hdone.up_eq rsp (hup ▸ List.mem_cons_self)).1
        exact absurd (hlast.symm.trans hrsp.symm) (List.isChain_cons_cons.mp hchain).1
      | ignored hready' htodo =>
        exact .fresh hready' (hdone.lose (List.Sublist.refl _) hsub) (htodo ▸ hchain)
          (htodo ▸ hfinal)
    | asked hready hhead hlast hwait hchain hfinal =>
      have hans := answered_status hlist hready hstale
      generalize meshKrCfgclStatusUpdate elementCnt page s.client rsp = c' at hans ⊢
      cases hans with
      | counts hready' hhead' hrsp htodo =>
        obtain ⟨rfl, rfl⟩ := List.cons.inj (hhead.symm.trans hhead')
        have hhit : s.link.up = s.link.last :: up := by
          rw [hup, hlast, hrsp]
        exact .fresh hready' (hwait.confirm hhit) (htodo.symm ▸ hchain) (htodo.symm ▸ hfinal)
      | ignored hready' htodo =>
        exact .asked hready' (htodo.trans hhead) hlast (hwait.lose (List.Sublist.refl _) hsub)
          hchain hfinal
    | ended hst hfast hdone =>
      have hsame : meshKrCfgclStatusUpdate elementCnt page s.client rsp = s.client := by
        rw [meshKrCfgclStatusUpdate, hfast, if_neg (by simp), hst]
      rw [hsame]
      exact .ended hst hfast fun hmem => (hdone hmem).lose (List.Sublist.refl _) hsub

/-- One event. -/
theorem Stage.next (hlist : Listed elementCnt page rs)
    (hidem : ∀ cmd t, act cmd (act cmd t) = act cmd t) (h : Stage rs act final s)
    {e : KeyBindEvent} (hturn : InTurn elementCnt s e) :
    Stage rs act final (next elementCnt page act s e) := by
  cases e with
  | pass => exact h.pass hlist
  | clock exceed => exact h.clock exceed
  | deliver => exact h.deliver hidem
  | status => exact h.status hlist hturn
  | loseCmd i => exact h.lose (List.eraseIdx_sublist ..) (List.Sublist.refl _)
  | loseStatus i => exact h.lose (List.Sublist.refl _) (List.eraseIdx_sublist ..)

theorem Stage.run (hlist : Listed elementCnt page rs)
    (hidem : ∀ cmd t, act cmd (act cmd t) = act cmd t) {es : List KeyBindEvent}
    (h : Stage rs act final s)
    (hturn : GoodRun (KeyBind.next elementCnt page act) (InTurn elementCnt) s es) :
    Stage rs act final (es.foldl (KeyBind.next elementCnt page act) s) := by
  induction es generalizing s with
  | nil => exact h
  | cons e es ih => exact ih (h.next hlist hidem hturn.1) hturn.2

theorem rsp_ne_of_mem_bindAll {nodeAdr : BitVec 16} {akIdx : KeyIdx} {n : ℕ} {cmd : CfgclCmd}
    (h : cmd ∈ bindAll nodeAdr akIdx n rs) : CfgclRsp.appkeyStatus ≠ cmd.rsp := by
  induction rs generalizing n with
  | nil => cases h
  | cons r rs ih =>
    rcases List.mem_append.mp h with hmem | hmem
    · obtain ⟨md, -, rfl⟩ := List.mem_map.mp hmem
      nofun
    · exact ih hmem

/-- At the start. -/
theorem stage_start (c : KeyBindClient) (idx : Byte × Byte) (key : Key) (unicast : BitVec 16)
    (nkIdx : KeyIdx) (clockTime : BitVec 32) (node : σ)
    (hchain : List.IsChain (· ≠ ·)
      ((bindAll unicast (idx.1 ++ idx.2) 0 rs).map CfgclCmd.rsp)) :
    Stage rs act
      ((allCmds unicast nkIdx (idx.1 ++ idx.2) key rs).foldl (fun t cmd => act cmd t) node)
      (start c idx key unicast nkIdx clockTime node) := by
  refine .fresh ⟨nofun, rfl, rfl, List.not_mem_nil, fun hne => absurd rfl hne, ?_,
      fun _ => ⟨rfl, rfl⟩⟩
    ⟨fun x hx => absurd hx List.not_mem_nil, fun n hn => absurd hn List.not_mem_nil, rfl⟩ ?_ rfl
  · cases rs with
    | nil => exact .inl rfl
    | cons r rest => exact .inr ⟨r, rest, rfl, Nat.zero_le _⟩
  · show List.IsChain (· ≠ ·) (.appkeyStatus :: .cpsStatus :: .appkeyStatus ::
      (bindAll unicast (idx.1 ++ idx.2) 0 rs).map CfgclCmd.rsp)
    refine List.isChain_cons_cons.mpr ⟨nofun, List.isChain_cons_cons.mpr ⟨nofun, ?_⟩⟩
    refine List.isChain_cons.mpr ⟨fun rsp hrsp => ?_, hchain⟩
    obtain ⟨cmd, hcmd, rfl⟩ := List.mem_map.mp (List.mem_of_mem_head? hrsp)
    exact rsp_ne_of_mem_bindAll hcmd

/-- **A binding that ends with success is complete**: the node has taken the get of its composition
data, the key, and the key's binding to every model that is not one of the device key, in the order
of the elements. -/
theorem keyBind_complete (hlist : Listed elementCnt page rs)
    (hidem : ∀ cmd t, act cmd (act cmd t) = act cmd t)
    (c : KeyBindClient) (idx : Byte × Byte) (key : Key) (unicast : BitVec 16)
    (nkIdx : KeyIdx) (clockTime : BitVec 32) (node : σ) (es : List KeyBindEvent)
    (hchain : List.IsChain (· ≠ ·)
      ((bindAll unicast (idx.1 ++ idx.2) 0 rs).map CfgclCmd.rsp))
    (hturn : GoodRun (next elementCnt page act) (InTurn elementCnt)
      (start c idx key unicast nkIdx clockTime node) es)
    (hsuc : .suc ∈ (es.foldl (next elementCnt page act)
      (start c idx key unicast nkIdx clockTime node)).client.uploads) :
    (es.foldl (next elementCnt page act) (start c idx key unicast nkIdx clockTime node)).link.recv =
      (allCmds unicast nkIdx (idx.1 ++ idx.2) key rs).foldl (fun t cmd => act cmd t) node := by
  cases (stage_start c idx key unicast nkIdx clockTime node hchain).run hlist hidem hturn with
  | fresh hready _ _ _ => exact absurd hsuc hready.slow
  | asked hready _ _ _ _ _ => exact absurd hsuc hready.slow
  | ended _ _ hdone => exact (hdone hsuc).recv_eq

end

/-- A node of two elements, with a model of the device key and a vendor model. -/
def sampleElements : List ElementRecord :=
  [⟨0, [0x0000, 0x1000], [0x00010211], by decide, by decide⟩,
    ⟨1, [0x1002], [], by decide, by decide⟩]

def samplePage : List Byte := List.replicate 10 0 ++ eleKind.putAll sampleElements

/-- A node that lists the commands it has had. -/
def sampleAct (cmd : CfgclCmd) (t : List CfgclCmd) : List CfgclCmd :=
  if cmd ∈ t then t else t ++ [cmd]

def sampleClient : KeyBindClient where
  proc := ⟨.replicate 16 0, 0, 0, 0, 0, 0x1002, false, 0, .normal, .normal, 0, 0, false⟩
  cps _ := 0
  keyBindLock := false
  uploads := []

/-- A command is sent twice, a status is lost, and the others come. -/
def sampleEvents : List KeyBindEvent :=
  [.pass, .pass, .deliver, .status, .deliver, .loseStatus 0, .pass, .deliver, .status,
    .pass, .pass, .deliver, .status, .pass, .deliver, .status, .pass, .pass, .deliver, .status,
    .pass]

def sampleEnd : KeyBindSystem (List CfgclCmd) :=
  sampleEvents.foldl (next (some 2) samplePage sampleAct)
    (start sampleClient (0, 0) (.replicate 16 7) 5 0 0 [])

theorem keyBind_complete_sample : sampleEnd.link.recv =
    (allCmds 5 0 0 (.replicate 16 7) sampleElements).foldl (fun t cmd => sampleAct cmd t) [] := by
  have hlist : Listed (some 2) samplePage sampleElements :=
    ⟨rfl, by decide, by decide, List.replicate 10 0, rfl, rfl⟩
  have hidem : ∀ cmd t, sampleAct cmd (sampleAct cmd t) = sampleAct cmd t := fun cmd t => by
    unfold sampleAct
    split
    · rfl
    · rw [if_pos (by simp)]
  exact keyBind_complete hlist hidem sampleClient (0, 0) (.replicate 16 7) 5 0 0 [] sampleEvents
    (by decide +kernel) (by decide +kernel) (by decide +kernel)

/-- The status of the vendor model comes again behind its element: the model of the second element
is passed over, and the binding ends with success. -/
example :
    let s := ([.pass, .deliver, .status, .pass, .deliver, .status, .pass, .pass, .deliver, .status,
      .pass, .pass, .deliver, .deliver, .status, .pass, .status, .pass] : List KeyBindEvent).foldl
        (next (some 2) samplePage sampleAct)
        (start sampleClient (0, 0) (.replicate 16 7) 5 0 0 [])
    .suc ∈ s.client.uploads ∧ .akBind 6 0 0x1002 true ∉ s.link.recv := by
  decide +kernel

end PirMesh.KeyBind
