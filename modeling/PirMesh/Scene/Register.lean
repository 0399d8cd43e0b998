import Mathlib.Data.BitVec
import Mathlib.Logic.Function.Basic
import PirMesh.Keys.Table
import PirMesh.Library.Run
import PirMesh.Library.Slots

/-! # Scene — The scene register of `scene.c`

Every light has a register of `SCENE_CNT_MAX` scenes and two scene numbers: the
scene it shows and the scene a running transition leads to.  The handlers of the
store, delete and recall messages change both; the end of a transition, a level
set at once and the periodic comparison with the present level change the
numbers.

What a scene saves besides its lightness depends on the light type and is a
parameter (`Par`).

`RegisterOk` is the invariant of one light: its scene numbers are distinct, and the
scene it shows and the scene it goes to are in the register.  A store or a delete
writes one slot and both numbers at once (`RegisterOk.store`, `RegisterOk.delete`);
everything else only moves a number to the other place or clears it
(`RegisterOk.setProc`).

A store that finds the register full fails only for a number the register does not
hold: the slot of a number it holds is written again. -/

namespace PirMesh

open Slots

def sceneCntMax : Nat := 16

abbrev SceneId := BitVec 16

/-- The `s16` level of a light. -/
abbrev Level := BitVec 16

def sceneStore : Op := 0x4682

def sceneStoreNoack : Op := 0x4782

def sceneDel : Op := 0x9E82

inductive SceneSt
  | success
  | regFull
  | notFound
  deriving DecidableEq, Repr

/-- `ST_TRANS_TYPE`: the light types without `ST_TRANS_LIGHTNESS` are not told apart. -/
inductive StTransType
  | lightness
  | other
  deriving DecidableEq, Repr

structure SceneData (Par : Type) where
  id : SceneId
  lightness : Level
  par : Par

structure SceneProc where
  currentScene : SceneId
  targetScene : SceneId
  deriving DecidableEq, Repr

/-- `model_sig_scene.data`, `scene_proc` and the recall flag. -/
structure Scenes (lightCnt : Nat) (Par : Type) where
  data : Fin lightCnt → Fin sceneCntMax → SceneData Par
  proc : Fin lightCnt → SceneProc
  tansitionForcedByRecallFlag : Bool

/-- `memset(p, 0, sizeof(scene_data_t))` -/
def SceneData.zero {Par : Type} [Zero Par] : SceneData Par := ⟨0, 0, 0⟩

variable {lightCnt : Nat} {Par : Type}

namespace Scenes

/-- The scene numbers of a register, `0` for a free slot. -/
def ids (s : Scenes lightCnt Par) (idx : Fin lightCnt) : Fin sceneCntMax → SceneId :=
  fun i => (s.data idx i).id

def setData (s : Scenes lightCnt Par) (idx : Fin lightCnt) (i : Fin sceneCntMax)
    (d : SceneData Par) : Scenes lightCnt Par :=
  { s with data := Function.update s.data idx (Function.update (s.data idx) i d) }

def setProc (s : Scenes lightCnt Par) (idx : Fin lightCnt) (p : SceneProc) : Scenes lightCnt Par :=
  { s with proc := Function.update s.proc idx p }

end Scenes

/-! ### The two numbers -/

def sceneActiveSet (s : Scenes lightCnt Par) (idx : Fin lightCnt) (sceneId : SceneId)
    (transFlag : Bool) : Scenes lightCnt Par :=
  s.setProc idx (if transFlag then ⟨0, sceneId⟩ else ⟨sceneId, 0⟩)

def sceneTargetCompleteCheck (s : Scenes lightCnt Par) (idx : Fin lightCnt) : Scenes lightCnt Par :=
  if (s.proc idx).targetScene ≠ 0 then s.setProc idx ⟨(s.proc idx).targetScene, 0⟩ else s

/-- One pass of the loop of `scene_status_change_check`.  After the number is
cleared the remaining passes compare with `0` and meet the free slots. -/
def statusChangeLoop (presentLevel : Level) (stTransType : StTransType) (current : SceneId)
    (p : SceneData Par) : SceneId :=
  if p.id = current ∧ stTransType = .lightness ∧ presentLevel ≠ p.lightness then 0 else current

def sceneStatusChangeCheck (s : Scenes lightCnt Par) (idx : Fin lightCnt) (presentLevel : Level)
    (stTransType : StTransType) : Scenes lightCnt Par :=
  if (s.proc idx).currentScene ≠ 0 ∧ (s.proc idx).targetScene = 0 then
    s.setProc idx { s.proc idx with
      currentScene := ((List.finRange sceneCntMax).map (s.data idx)).foldl
        (statusChangeLoop presentLevel stTransType) (s.proc idx).currentScene }
  else s

/-- What `g_level_set` does to the scenes: a level set without a transition ends
a running one, unless a recall forces the transition. -/
def gLevelSet (s : Scenes lightCnt Par) (idx : Fin lightCnt) (withTrans : Bool) :
    Scenes lightCnt Par :=
  if withTrans then s
  else if s.tansitionForcedByRecallFlag then s else sceneTargetCompleteCheck s idx

/-! ### The messages -/

/-- A handled store or delete: its status, the scenes, and whether the register
is written to flash (`mesh_model_store`). -/
structure SceneSetRes (lightCnt : Nat) (Par : Type) where
  st : SceneSt
  scenes : Scenes lightCnt Par
  save : Bool

/-- The slot a store writes: the one that holds the number, else the first free one. -/
def sceneSaveSlot (s : Scenes lightCnt Par) (idx : Fin lightCnt) (sceneId : SceneId) :
    Option (Fin sceneCntMax) :=
  (find (s.ids idx) sceneId).orElse fun _ => find (s.ids idx) 0

/-- `lightness` and `par` are what the light shows now. -/
def meshCmdSigSceneSetLl [Zero Par] (s : Scenes lightCnt Par) (idx : Fin lightCnt) (op : Op)
    (sceneId : SceneId) (lightness : Level) (par : Par) : SceneSetRes lightCnt Par :=
  if op = sceneStore ∨ op = sceneStoreNoack then
    match sceneSaveSlot s idx sceneId with
    | some i =>
      ⟨.success, sceneActiveSet (s.setData idx i ⟨sceneId, lightness, par⟩) idx sceneId false, true⟩
    | none => ⟨.regFull, s, false⟩
  else
    match find (s.ids idx) sceneId with
    | some i =>
      let p := s.proc idx
      ⟨.success, (s.setData idx i .zero).setProc idx
        ⟨if sceneId = p.currentScene then 0 else p.currentScene,
          if sceneId = p.targetScene then 0 else p.targetScene⟩, true⟩
    | none => ⟨.success, s, false⟩

/-- The reserved number `SCENE_ID_INVALID` is ignored and gets no status. -/
def meshCmdSigSceneSet [Zero Par] (s : Scenes lightCnt Par) (idx : Fin lightCnt) (op : Op)
    (sceneId : SceneId) (lightness : Level) (par : Par) :
    Option SceneSt × Scenes lightCnt Par × Bool :=
  if sceneId = 0 then (none, s, false)
  else
    let r := meshCmdSigSceneSetLl s idx op sceneId lightness par
    (some r.st, r.scenes, r.save)

/-- `levelSets` says of each level the recall sets whether it starts a transition. -/
def meshCmdSigSceneRecall (s : Scenes lightCnt Par) (idx : Fin lightCnt) (sceneId : SceneId)
    (retransaction transFlag : Bool) (levelSets : List Bool) :
    Option SceneSt × Scenes lightCnt Par :=
  if sceneId = 0 then (none, s)
  else if retransaction then (some .notFound, s)
  else
    let s := { s with tansitionForcedByRecallFlag := true }
    let (st, s) := match find (s.ids idx) sceneId with
      | some _ =>
        (SceneSt.success, levelSets.foldl (fun s withTrans => gLevelSet s idx withTrans)
          (sceneActiveSet s idx sceneId transFlag))
      | none => (SceneSt.notFound, s)
    (some st, { s with tansitionForcedByRecallFlag := false })

/-! ### Runs -/

inductive SceneEvent (lightCnt : Nat) (Par : Type)
  | set (idx : Fin lightCnt) (op : Op) (sceneId : SceneId) (lightness : Level) (par : Par)
  | sceneRecall (idx : Fin lightCnt) (sceneId : SceneId) (retransaction transFlag : Bool)
      (levelSets : List Bool)
  | levelSet (idx : Fin lightCnt) (withTrans : Bool)
  | transitionEnd (idx : Fin lightCnt)
  | statusChange (idx : Fin lightCnt) (presentLevel : Level) (stTransType : StTransType)

def sceneStep [Zero Par] (s : Scenes lightCnt Par) : SceneEvent lightCnt Par → Scenes lightCnt Par
  | .set idx op sceneId lightness par => (meshCmdSigSceneSet s idx op sceneId lightness par).2.1
  | .sceneRecall idx sceneId retransaction transFlag levelSets =>
    (meshCmdSigSceneRecall s idx sceneId retransaction transFlag levelSets).2
  | .levelSet idx withTrans => gLevelSet s idx withTrans
  | .transitionEnd idx => sceneTargetCompleteCheck s idx
  | .statusChange idx presentLevel stTransType =>
    sceneStatusChangeCheck s idx presentLevel stTransType

/-- A node that never stored a scene. -/
def Scenes.blank [Zero Par] : Scenes lightCnt Par := ⟨fun _ _ => .zero, fun _ => ⟨0, 0⟩, false⟩

/-- At power-up no scene is active, and the register is the one an earlier run left. -/
def sceneSys (lightCnt : Nat) (Par : Type) [Zero Par] :
    Run.Sys (Scenes lightCnt Par) (SceneEvent lightCnt Par) :=
  .det (fun s => (∀ idx, Distinct (s.ids idx)) ∧ s.proc = fun _ => ⟨0, 0⟩) sceneStep

/-! ### The register over all runs -/

open Run

variable {lightCnt : Nat} {Par : Type} {s t : Scenes lightCnt Par} {idx idx' : Fin lightCnt}
  {id : SceneId} {op : Op} {i : Fin sceneCntMax} {d : SceneData Par} {p : SceneProc}

/-- No scene, or one of the register. -/
def NoneOr (ids : Fin sceneCntMax → SceneId) (id : SceneId) : Prop := id = 0 ∨ id ∈ keys ids

/-- The numbers of a light refer to its register. -/
structure ProcOk (ids : Fin sceneCntMax → SceneId) (p : SceneProc) : Prop where
  current : NoneOr ids p.currentScene
  target : NoneOr ids p.targetScene

structure RegisterOk (s : Scenes lightCnt Par) (idx : Fin lightCnt) : Prop where
  distinct : Distinct (s.ids idx)
  proc : ProcOk (s.ids idx) (s.proc idx)

/-! ### Writing a slot, writing the numbers -/

@[simp] theorem ids_setProc : (s.setProc idx p).ids = s.ids := rfl

theorem proc_setProc : (s.setProc idx p).proc idx = p := Function.update_self ..

theorem proc_setProc_of_ne (h : idx' ≠ idx) : (s.setProc idx p).proc idx' = s.proc idx' :=
  Function.update_of_ne h ..

theorem ids_setData : (s.setData idx i d).ids idx = Function.update (s.ids idx) i d.id := by
  funext j
  simp only [Scenes.ids, Scenes.setData, Function.update_self]
  by_cases hj : j = i
  · rw [hj, Function.update_self, Function.update_self]
  · rw [Function.update_of_ne hj, Function.update_of_ne hj]
    rfl

theorem ids_setData_of_ne (h : idx' ≠ idx) : (s.setData idx i d).ids idx' = s.ids idx' := by
  funext j
  simp only [Scenes.ids, Scenes.setData, Function.update_of_ne h]

/-- A light the call is not about. -/
theorem RegisterOk.of_eq (h : RegisterOk s idx') (hids : t.ids idx' = s.ids idx')
    (hproc : t.proc idx' = s.proc idx') : RegisterOk t idx' :=
  ⟨hids ▸ h.distinct, by rw [hids, hproc]; exact h.proc⟩

theorem RegisterOk.setProc (h : ∀ idx, RegisterOk s idx) (hp : ProcOk (s.ids idx) p) :
    ∀ idx', RegisterOk (s.setProc idx p) idx' := by
  intro idx'
  by_cases hi : idx' = idx
  · subst hi
    exact ⟨(h idx').distinct, by rw [proc_setProc]; exact hp⟩
  · exact (h idx').of_eq rfl (proc_setProc_of_ne hi)

/-- A slot and the numbers of its light are written in one call. -/
theorem RegisterOk.setData (h : ∀ idx, RegisterOk s idx)
    (hd : Distinct (Function.update (s.ids idx) i d.id))
    (hp : ProcOk (Function.update (s.ids idx) i d.id) p) :
    ∀ idx', RegisterOk ((s.setData idx i d).setProc idx p) idx' := by
  intro idx'
  by_cases hi : idx' = idx
  · subst hi
    refine ⟨?_, ?_⟩
    · rw [ids_setProc, ids_setData]
      exact hd
    · rw [ids_setProc, ids_setData, proc_setProc]
      exact hp
  · exact (h idx').of_eq (ids_setData_of_ne hi) (proc_setProc_of_ne hi)

/-! ### The numbers -/

theorem ProcOk.active {ids : Fin sceneCntMax → SceneId} (h : id ∈ keys ids) (transFlag : Bool) :
    ProcOk ids (if transFlag then ⟨0, id⟩ else ⟨id, 0⟩) := by
  cases transFlag with
  | false => exact ⟨.inr h, .inl rfl⟩
  | true => exact ⟨.inl rfl, .inr h⟩

theorem RegisterOk.targetComplete (h : ∀ idx, RegisterOk s idx) :
    ∀ idx', RegisterOk (sceneTargetCompleteCheck s idx) idx' := by
  unfold sceneTargetCompleteCheck
  split
  · exact .setProc h ⟨(h idx).proc.target, .inl rfl⟩
  · exact h

theorem statusChange_fold (presentLevel : Level) (stTransType : StTransType) (current : SceneId)
    (l : List (SceneData Par)) :
    l.foldl (statusChangeLoop presentLevel stTransType) current = 0 ∨
      l.foldl (statusChangeLoop presentLevel stTransType) current = current := by
  induction l generalizing current with
  | nil => exact .inr rfl
  | cons d l ih =>
    rw [List.foldl_cons]
    by_cases h : d.id = current ∧ stTransType = .lightness ∧ presentLevel ≠ d.lightness
    · rw [statusChangeLoop, if_pos h]
      exact .inl ((ih 0).elim (fun h => h) fun h => h)
    · rw [statusChangeLoop, if_neg h]
      exact ih current

theorem RegisterOk.statusChange (h : ∀ idx, RegisterOk s idx) (presentLevel : Level)
    (stTransType : StTransType) :
    ∀ idx', RegisterOk (sceneStatusChangeCheck s idx presentLevel stTransType) idx' := by
  unfold sceneStatusChangeCheck
  split
  · refine .setProc h ⟨?_, (h idx).proc.target⟩
    rcases statusChange_fold presentLevel stTransType (s.proc idx).currentScene
        ((List.finRange sceneCntMax).map (s.data idx)) with h0 | hsame
    · exact .inl h0
    · show NoneOr _ (List.foldl _ _ _)
      rw [hsame]
      exact (h idx).proc.current
  · exact h

theorem RegisterOk.gLevelSet (h : ∀ idx, RegisterOk s idx) (withTrans : Bool) :
    ∀ idx', RegisterOk (PirMesh.gLevelSet s idx withTrans) idx' := by
  unfold PirMesh.gLevelSet
  split
  · exact h
  · split
    · exact h
    · exact .targetComplete h

/-! ### Store, delete, recall -/

/-- The slot of a store: with the number written the register is distinct, and has that
number besides those it had. -/
theorem sceneSaveSlot_some (hd : Distinct (s.ids idx)) (hid : id ≠ 0)
    (h : sceneSaveSlot s idx id = some i) :
    Distinct (Function.update (s.ids idx) i id) ∧
      keys (Function.update (s.ids idx) i id) = insert id (keys (s.ids idx)) := by
  unfold sceneSaveSlot at h
  cases hexist : find (s.ids idx) id with
  | some j =>
    rw [hexist] at h
    obtain rfl : j = i := Option.some.inj h
    have hj : s.ids idx j = id := find_some hexist
    rw [← hj, Function.update_eq_self, Set.insert_eq_of_mem (mem_keys (hj ▸ hid))]
    exact ⟨hd, rfl⟩
  | none =>
    rw [hexist] at h
    have hnew := (find_none_iff hid).mp hexist
    exact ⟨hd.insert hnew i, keys_insert (find_some h) hid⟩

theorem sceneSaveSlot_none (hid : id ≠ 0) :
    sceneSaveSlot s idx id = none ↔ id ∉ keys (s.ids idx) ∧ Slots.Full (s.ids idx) := by
  rw [← find_none_iff hid]
  unfold sceneSaveSlot
  cases find (s.ids idx) id with
  | some j => simp
  | none => simp [find_none, Slots.Full]

theorem RegisterOk.store (h : ∀ idx, RegisterOk s idx) (hid : id ≠ 0)
    (hi : sceneSaveSlot s idx id = some i) (lightness : Level) (par : Par) :
    ∀ idx', RegisterOk (sceneActiveSet
      (s.setData idx i ⟨id, lightness, par⟩) idx id false) idx' := by
  obtain ⟨hd, hkeys⟩ := sceneSaveSlot_some (h idx).distinct hid hi
  refine .setData h hd (.active ?_ false)
  rw [hkeys]
  exact Set.mem_insert ..

/-- A number the delete leaves is still in the register. -/
theorem NoneOr.delete {ids : Fin sceneCntMax → SceneId} {k : SceneId} (h : NoneOr ids k)
    (hd : Distinct ids) (i : Fin sceneCntMax) :
    NoneOr (Function.update ids i 0) (if ids i = k then 0 else k) := by
  split
  · exact .inl rfl
  · rename_i hne
    refine h.imp_right fun hk => ?_
    rw [keys_clear hd]
    exact ⟨hk, fun heq => hne heq.symm⟩

section
variable [Zero Par] {lightness : Level} {par : Par}

/-- A delete of a number: its slot is zeroed and neither number keeps it. -/
def sceneDeleted (s : Scenes lightCnt Par) (idx : Fin lightCnt) (id : SceneId)
    (i : Fin sceneCntMax) : Scenes lightCnt Par :=
  (s.setData idx i .zero).setProc idx
    ⟨if id = (s.proc idx).currentScene then 0 else (s.proc idx).currentScene,
      if id = (s.proc idx).targetScene then 0 else (s.proc idx).targetScene⟩

theorem sceneSet_store (hop : op = sceneStore ∨ op = sceneStoreNoack) (hid : id ≠ 0)
    (h : sceneSaveSlot s idx id = some i) :
    meshCmdSigSceneSet s idx op id lightness par =
      (some .success, sceneActiveSet (s.setData idx i ⟨id, lightness, par⟩) idx id false,
        true) := by
  simp only [meshCmdSigSceneSet, meshCmdSigSceneSetLl, if_neg hid, if_pos hop, h]

theorem sceneSet_full (hop : op = sceneStore ∨ op = sceneStoreNoack) (hid : id ≠ 0)
    (h : sceneSaveSlot s idx id = none) :
    meshCmdSigSceneSet s idx op id lightness par = (some .regFull, s, false) := by
  simp only [meshCmdSigSceneSet, meshCmdSigSceneSetLl, if_neg hid, if_pos hop, h]

theorem sceneSet_del (hop : ¬ (op = sceneStore ∨ op = sceneStoreNoack)) (hid : id ≠ 0)
    (h : find (s.ids idx) id = some i) :
    meshCmdSigSceneSet s idx op id lightness par =
      (some .success, sceneDeleted s idx id i, true) := by
  simp only [meshCmdSigSceneSet, meshCmdSigSceneSetLl, if_neg hid, if_neg hop, h, sceneDeleted]

theorem sceneSet_del_none (hop : ¬ (op = sceneStore ∨ op = sceneStoreNoack)) (hid : id ≠ 0)
    (h : find (s.ids idx) id = none) :
    meshCmdSigSceneSet s idx op id lightness par = (some .success, s, false) := by
  simp only [meshCmdSigSceneSet, meshCmdSigSceneSetLl, if_neg hid, if_neg hop, h]

theorem RegisterOk.delete (h : ∀ idx, RegisterOk s idx) (hi : find (s.ids idx) id = some i) :
    ∀ idx', RegisterOk (sceneDeleted s idx id i) idx' := by
  obtain rfl := find_some hi
  have hd := (h idx).distinct
  exact .setData h (hd.clear i) ⟨(h idx).proc.current.delete hd i, (h idx).proc.target.delete hd i⟩

theorem RegisterOk.set (h : ∀ idx, RegisterOk s idx) (op : Op) (id : SceneId) :
    ∀ idx', RegisterOk (meshCmdSigSceneSet s idx op id lightness par).2.1 idx' := by
  by_cases hid : id = 0
  · rw [meshCmdSigSceneSet, if_pos hid]
    exact h
  by_cases hop : op = sceneStore ∨ op = sceneStoreNoack
  · cases hi : sceneSaveSlot s idx id with
    | some i =>
      rw [sceneSet_store hop hid hi]
      exact .store h hid hi lightness par
    | none =>
      rw [sceneSet_full hop hid hi]
      exact h
  · cases hi : find (s.ids idx) id with
    | some i =>
      rw [sceneSet_del hop hid hi]
      exact .delete h hi
    | none =>
      rw [sceneSet_del_none hop hid hi]
      exact h

end

/-- The flag is not part of the invariant. -/
theorem RegisterOk.forced (h : ∀ idx, RegisterOk s idx) (b : Bool) :
    ∀ idx', RegisterOk { s with tansitionForcedByRecallFlag := b } idx' :=
  fun idx' => (h idx').of_eq rfl rfl

theorem RegisterOk.recall (h : ∀ idx, RegisterOk s idx) (id : SceneId)
    (retransaction transFlag : Bool) (levelSets : List Bool) :
    ∀ idx',
      RegisterOk (meshCmdSigSceneRecall s idx id retransaction transFlag levelSets).2 idx' := by
  unfold meshCmdSigSceneRecall
  split
  · exact h
  rename_i hid
  split
  · exact h
  refine .forced ?_ false
  split
  · rename_i i hi
    have hmem : id ∈ keys (s.ids idx) := by
      obtain rfl := find_some hi
      exact mem_keys hid
    -- the levels are set after the scene is: each of them keeps the invariant
    refine List.foldlRecOn (motive := fun t => ∀ idx', RegisterOk t idx') levelSets _
      (.setProc (.forced h true) (.active hmem transFlag)) fun t ht withTrans _ => ?_
    exact .gLevelSet ht withTrans
  · exact .forced h true

/-! ### Runs -/

section
variable [Zero Par] {lightness : Level} {par : Par}

theorem RegisterOk.step (h : ∀ idx, RegisterOk s idx) (e : SceneEvent lightCnt Par) :
    ∀ idx', RegisterOk (sceneStep s e) idx' := by
  cases e with
  | set idx op id lightness par => exact .set h op id
  | sceneRecall idx id retransaction transFlag levelSets =>
    exact .recall h id retransaction transFlag levelSets
  | levelSet idx withTrans => exact .gLevelSet h withTrans
  | transitionEnd idx => exact .targetComplete h
  | statusChange idx presentLevel stTransType => exact .statusChange h presentLevel stTransType

theorem registerOk_reach (h : (sceneSys lightCnt Par).Reach s) : ∀ idx, RegisterOk s idx := by
  refine h.inv (P := fun s => ∀ idx, RegisterOk s idx) (fun s h0 idx => ?_) ?_
  · obtain ⟨hd, hproc⟩ := h0
    rw [funext_iff] at hproc
    exact ⟨hd idx, hproc idx ▸ ⟨.inl rfl, .inl rfl⟩⟩
  · rintro s e t hs rfl
    exact .step hs e

/-- What a delete leaves in each slot. -/
theorem data_sceneDeleted (hd : Distinct (s.ids idx)) (hid : id ≠ 0)
    (hi : find (s.ids idx) id = some i) (idx' : Fin lightCnt) (j : Fin sceneCntMax) :
    (sceneDeleted s idx id i).data idx' j =
      if idx' = idx ∧ (s.data idx' j).id = id then .zero else s.data idx' j := by
  have hij : s.ids idx i = id := find_some hi
  show (s.setData idx i .zero).data idx' j = _
  by_cases hidx : idx' = idx
  · subst hidx
    simp only [Scenes.setData, Function.update_self, true_and]
    by_cases hj : j = i
    · rw [hj, Function.update_self]
      exact (if_pos hij).symm
    · rw [Function.update_of_ne hj, if_neg]
      intro hjd
      exact hj (hd j i (fun h0 => hid (hjd.symm.trans h0)) (hjd.trans hij.symm))
  · rw [if_neg fun h => hidx h.1]
    simp only [Scenes.setData, Function.update_of_ne hidx]

/-- A deleted number is neither shown nor gone to. -/
theorem proc_sceneDeleted (hid : id ≠ 0) :
    ((sceneDeleted s idx id i).proc idx).currentScene ≠ id ∧
      ((sceneDeleted s idx id i).proc idx).targetScene ≠ id := by
  have hne (k : SceneId) : (if id = k then 0 else k) ≠ id := by
    split
    · exact hid.symm
    · rename_i h
      exact fun hk => h hk.symm
  rw [sceneDeleted, proc_setProc]
  exact ⟨hne _, hne _⟩

/-- **The scene register over all runs.** -/
theorem sceneRegister_runs (h : (sceneSys lightCnt Par).Reach s) (idx : Fin lightCnt) :
    RegisterOk s idx ∧ ∀ id lightness par, id ≠ 0 →
      (∀ op, op = sceneStore ∨ op = sceneStoreNoack →
        (id ∉ keys (s.ids idx) → Slots.Full (s.ids idx) →
          meshCmdSigSceneSet s idx op id lightness par = (some .regFull, s, false)) ∧
        (id ∈ keys (s.ids idx) ∨ ¬ Slots.Full (s.ids idx) → ∃ t,
          meshCmdSigSceneSet s idx op id lightness par = (some .success, t, true) ∧
          keys (t.ids idx) = insert id (keys (s.ids idx)) ∧ t.proc idx = ⟨id, 0⟩)) ∧
      (∀ op, ¬ (op = sceneStore ∨ op = sceneStoreNoack) → ∃ t save,
        meshCmdSigSceneSet s idx op id lightness par = (some .success, t, save) ∧
        (∀ idx' i, t.data idx' i =
          if idx' = idx ∧ (s.data idx' i).id = id then .zero else s.data idx' i) ∧
        RegisterOk t idx ∧ (t.proc idx).currentScene ≠ id ∧ (t.proc idx).targetScene ≠ id) := by
  have hok := registerOk_reach h
  refine ⟨hok idx, fun id lightness par hid =>
    ⟨fun op hop => ⟨fun hnew hfull => ?_, fun hroom => ?_⟩,
    fun op hop => ?_⟩⟩
  · exact sceneSet_full hop hid ((sceneSaveSlot_none hid).mpr ⟨hnew, hfull⟩)
  · cases hi : sceneSaveSlot s idx id with
    | none =>
      obtain ⟨hnew, hfull⟩ := (sceneSaveSlot_none hid).mp hi
      exact absurd hroom (not_or.mpr ⟨hnew, not_not_intro hfull⟩)
    | some i =>
      refine ⟨_, sceneSet_store hop hid hi, ?_, proc_setProc⟩
      rw [sceneActiveSet, ids_setProc, ids_setData]
      exact (sceneSaveSlot_some (hok idx).distinct hid hi).2
  · cases hi : find (s.ids idx) id with
    | some i =>
      exact ⟨_, true, sceneSet_del hop hid hi, data_sceneDeleted (hok idx).distinct hid hi,
        .delete hok hi idx, proc_sceneDeleted hid⟩
    | none =>
      have hgone : id ∉ keys (s.ids idx) := (find_none_iff hid).mp hi
      refine ⟨s, false, sceneSet_del_none hop hid hi, fun idx' j => ?_, hok idx, ?_, ?_⟩
      · rw [if_neg]
        rintro ⟨rfl, hj⟩
        exact find_none.mp hi j hj
      · exact fun hc => hgone ((hc ▸ (hok idx).proc.current).resolve_left hid)
      · exact fun ht => hgone ((ht ▸ (hok idx).proc.target).resolve_left hid)

end

/-- A register with the scenes 1 to 16 of one light. -/
def scenesFull : Scenes 1 Nat :=
  ((List.range 16).map fun n =>
    .set 0 sceneStore (BitVec.ofNat 16 (n + 1)) 0 0).foldl sceneStep .blank

theorem reach_scenesFull : (sceneSys 1 Nat).Reach scenesFull := by
  have hblank : (sceneSys 1 Nat).Reach .blank := .init ⟨fun _ => Distinct.free, rfl⟩
  exact Sys.reach_foldl hblank _

theorem full_scenesFull : Slots.Full (scenesFull.ids 0) := by
  unfold Slots.Full
  decide +kernel

theorem sceneRegister_runs_full : RegisterOk scenesFull 0 ∧
    meshCmdSigSceneSet scenesFull 0 sceneStore 17 0 0 = (some .regFull, scenesFull, false) :=
  have h := sceneRegister_runs reach_scenesFull 0
  ⟨h.1, ((h.2 17 0 0 (by decide)).1 sceneStore (.inl rfl)).1
    (fun hmem => hmem.2.elim (by decide +kernel)) full_scenesFull⟩

/-- A store into a full register that holds the number succeeds and writes. -/
theorem sceneStore_full_writes : ¬ ∀ s : Scenes 1 Nat, (sceneSys 1 Nat).Reach s →
    ∀ id : SceneId, id ≠ 0 → Slots.Full (s.ids 0) →
      meshCmdSigSceneSet s 0 sceneStore id 5 0 = (some .regFull, s, false) := by
  intro h
  have hfull := congrArg Prod.fst (h _ reach_scenesFull 1 (by decide) full_scenesFull)
  exact absurd hfull (by decide +kernel)

end PirMesh
