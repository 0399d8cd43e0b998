import PirMesh.Flash.ParDurable
import PirMesh.Flash.ParStore
import PirMesh.Library.Format

/-! # Node — The misc record

`mesh_misc_store`, `mesh_misc_retrieve` and `mesh_sno_save_check` of
`mesh_node.c`: the sequence number of the next PDU and the IV index are saved
now and then, and a boot starts an interval above the saved number.

One spec lemma for each function, over the log of its sector:

  * `meshMiscStore_run`, `cutAfter_meshMiscStore` — a store appends `miscSave`;
  * `meshSnoSaveCheck_run` — the check stores, or changes nothing;
  * `miscBoot_reads` — a boot starts from the log's current record. -/

namespace PirMesh

open Nor

/-! ### Variables -/

def meshCmdSnoSaveDelta : BitVec 32 := 0x80

def ivUpdateStartSno : BitVec 32 := 0xC00000

inductive IvUpdate
  | idle
  | step1
  | step2
  deriving DecidableEq, Repr

/-- `iv_idx_st`.  The indices are big-endian in memory; these are their values. -/
structure MeshIvIdxSt where
  cur : BitVec 32
  tx : BitVec 32
  updateTriggerBySave : Byte
  updateProcFlag : IvUpdate
  deriving DecidableEq, Repr

/-- The RAM variables of the misc record. -/
structure MiscRam where
  meshAdvTxCmdSno : BitVec 32
  meshAdvTxCmdSnoLast : BitVec 32
  ctFlag : Byte
  ivIdxSt : MeshIvIdxSt
  meshMiscAddr : Nat
  nodeNeedStoreMisc : Bool
  miscFlag : Byte
  deriving DecidableEq, Repr

/-! ### The record -/

/-- `misc_save_t` -/
structure MiscSave where
  sno : BitVec 32
  ctFlag : Byte
  ivUpdateTriggerFlag : Byte
  ivIndex : BitVec 32
  deriving DecidableEq, Repr

def miscSaveLayout : Layout MiscSave :=
  ((Layout.word 4).pair ((Layout.word 1).pair ((Layout.zeros 2).pair ((Layout.word 1).pair
    ((Layout.wordBE 4).pair ((Layout.zeros 8).pair (.zeros 8))))))).record
    (fun (sno, ctFlag, _, trigger, ivIndex, _, _) => ⟨sno, ctFlag, trigger, ivIndex⟩)
    (fun m => (m.sno, m.ctFlag, (), m.ivUpdateTriggerFlag, m.ivIndex, (), ())) fun _ => rfl

def sizeofMiscSave : Nat := 28

example : miscSaveLayout.size = sizeofMiscSave := rfl

def flashAdrMisc : Nat := 0x3d000

/-! ### Store -/

def isSnoExhausted (r : MiscRam) : Bool := decide (r.meshAdvTxCmdSno ≥ ivUpdateStartSno)

def meshDecreaseIvi (ivi : BitVec 32) : BitVec 32 := ivi - 1

/-- The record `mesh_misc_store` builds. -/
def miscSave (r : MiscRam) : MiscSave :=
  if r.ivIdxSt.updateProcFlag = .step1 then
    { sno := r.meshAdvTxCmdSno
      ctFlag := r.ctFlag
      ivUpdateTriggerFlag := if isSnoExhausted r then 0 else 1
      ivIndex := meshDecreaseIvi r.ivIdxSt.cur }
  else
    { sno := r.meshAdvTxCmdSno
      ctFlag := r.ctFlag
      ivUpdateTriggerFlag := r.ivIdxSt.updateTriggerBySave
      ivIndex := r.ivIdxSt.cur }

def meshMiscStore (r : MiscRam) : Prog MiscRam :=
  if r.nodeNeedStoreMisc then do
    let adr ← meshParStore meshSaveMap (miscSaveLayout.put (miscSave r)) r.meshMiscAddr flashAdrMisc
      sizeofMiscSave
    return { r with meshAdvTxCmdSnoLast := r.meshAdvTxCmdSno, meshMiscAddr := adr }
  else return r

def meshSnoSaveCheck (r : MiscRam) : Prog MiscRam :=
  if r.meshAdvTxCmdSno > r.meshAdvTxCmdSnoLast + meshCmdSnoSaveDelta then meshMiscStore r
  else return r

/-! ### Retrieve -/

/-- What a retrieved record sets; `factoryTest` is `is_actived_factory_test_mode()`. -/
def loadMisc (factoryTest : Bool) (m : MiscSave) (r : MiscRam) : MiscRam :=
  { r with
    meshAdvTxCmdSno := m.sno + meshCmdSnoSaveDelta
    meshAdvTxCmdSnoLast := m.sno + meshCmdSnoSaveDelta
    ctFlag := if factoryTest then r.ctFlag else m.ctFlag
    ivIdxSt := { r.ivIdxSt with
      cur := if m.ivIndex ≠ 0xFFFFFFFF then m.ivIndex else r.ivIdxSt.cur
      updateTriggerBySave := m.ivUpdateTriggerFlag } }

def meshMiscRetrieve (factoryTest : Bool) (r : MiscRam) : Prog (Int × MiscRam) := do
  let p ← meshParRetrieve
    (List.replicate sizeofMiscSave 0) r.meshMiscAddr flashAdrMisc sizeofMiscSave
  let r := { r with meshMiscAddr := p.pAdr }
  if p.err = 0 then
    return (p.err, { loadMisc factoryTest (miscSaveLayout.get p.out) r with miscFlag := 1 })
  else return (p.err, { r with miscFlag := 1 })

/-! ### Boot -/

/-- `IV_IDX_CUR` -/
def ivIdxCur : BitVec 32 := 0x12345678

/-- The variables as the program starts. -/
def miscRamInit : MiscRam where
  meshAdvTxCmdSno := 1
  meshAdvTxCmdSnoLast := 0
  ctFlag := 1
  ivIdxSt := { cur := ivIdxCur, tx := 0, updateTriggerBySave := 0, updateProcFlag := .idle }
  meshMiscAddr := flashAdrMisc
  nodeNeedStoreMisc := true
  miscFlag := 0

/-- The search mode of the library transmits with the current index. -/
def meshIvUpdateEnterSearchMode (r : MiscRam) : MiscRam :=
  { r with ivIdxSt := { r.ivIdxSt with tx := r.ivIdxSt.cur, updateProcFlag := .idle } }

/-- Retrieve, `mesh_node_init`, and the variables behind them. -/
def miscBoot (factoryTest : Bool) : Prog MiscRam := do
  let r ← meshMiscRetrieve factoryTest miscRamInit
  return meshIvUpdateEnterSearchMode r.2

/-! ### What the record keeps -/

open Nor.Prog CommitLog

/-! ### The place of the record -/

def miscCfg : ParCfg := ⟨flashAdrMisc, sizeofMiscSave, by decide, by decide⟩

def miscRecord (m : MiscSave) : Record miscCfg :=
  ⟨miscSaveLayout.put m, miscSaveLayout.length_put m⟩

/-- The sector and `mesh_misc_addr`. -/
def MiscRam.par (r : MiscRam) (f : Flash) : ParState := ⟨f, r.meshMiscAddr⟩

/-- The misc sector is not in the save map: its stores are never skipped. -/
theorem misc_not_mem_saveMap : miscCfg.adrBase ∉ meshSaveMap := by decide

variable {f : Flash} {r : MiscRam} {l : Log (List Byte)}

/-! ### What a store does -/

@[simp] theorem miscSave_sno (r : MiscRam) : (miscSave r).sno = r.meshAdvTxCmdSno := by
  unfold miscSave
  split <;> rfl

/-- The index in use: one below the current one while an update goes on. -/
def IvOk (iv : MeshIvIdxSt) : Prop :=
  iv.cur = if iv.updateProcFlag = .step1 then iv.tx + 1 else iv.tx

/-- **The saved index is the one in use.** -/
theorem miscSave_ivIndex (h : IvOk r.ivIdxSt) : (miscSave r).ivIndex = r.ivIdxSt.tx := by
  unfold IvOk at h
  unfold miscSave meshDecreaseIvi
  by_cases hs : r.ivIdxSt.updateProcFlag = .step1
  · rw [if_pos hs] at h
    rw [if_pos hs, h]
    exact BitVec.add_sub_cancel _ _
  · rw [if_neg hs] at h
    rw [if_neg hs, h]

/-- A completed store. -/
theorem meshMiscStore_run (h : LogState miscCfg (r.par f) l) (hneed : r.nodeNeedStoreMisc = true) :
    ∃ g adr l', (meshMiscStore r).run f =
        ({ r with meshAdvTxCmdSnoLast := r.meshAdvTxCmdSno, meshMiscAddr := adr }, g) ∧
      LogState miscCfg ⟨g, adr⟩ l' ∧ l'.current = some (miscSaveLayout.put (miscSave r)) := by
  obtain ⟨g, hrun, hg⟩ := meshParStore_run h.holds meshSaveMap (miscRecord (miscSave r))
  rw [← h.pAdr] at hrun
  have hstore : (meshParStore meshSaveMap
    (miscSaveLayout.put (miscSave r)) r.meshMiscAddr flashAdrMisc
    sizeofMiscSave).run f = _ := hrun
  refine ⟨g, _, _, ?_, ⟨hg, rfl⟩, ?_⟩
  · rw [meshMiscStore, if_pos hneed, run_bind_of hstore]
    rfl
  · rw [storeLog, if_neg fun hc => misc_not_mem_saveMap hc.1]
    exact Log.current_append ..

theorem cutAfter_meshMiscStore (hneed : r.nodeNeedStoreMisc = true) (n : Nat) :
    (meshMiscStore r).cutAfter n f =
      (parStoreProg miscCfg meshSaveMap (r.par f) (miscRecord (miscSave r))).cutAfter n f := by
  rw [meshMiscStore, if_pos hneed, cutAfter_map]
  rfl

/-! ### What a boot reads -/

/-- The variables behind a boot that found `found`. -/
def bootedRam (factoryTest : Bool) (found : Option MiscSave) (adr : Nat) : MiscRam :=
  let r := { miscRamInit with meshMiscAddr := adr }
  meshIvUpdateEnterSearchMode { (match found with
    | none => r
    | some m => loadMisc factoryTest m r) with miscFlag := 1 }

theorem readOnly_miscBoot (factoryTest : Bool) : (miscBoot factoryTest).ReadOnly := by
  refine ReadOnly.bind (ReadOnly.bind (readOnly_parRetrieveLoop ..) fun p => ?_) fun _ =>
    readOnly_pure _
  exact ReadOnly.ite (readOnly_pure _) (readOnly_pure _)

/-- **A boot starts from the log's current record.** -/
theorem miscBoot_run (h : Holds miscCfg f l) (factoryTest : Bool) : (miscBoot factoryTest).run f =
    (bootedRam factoryTest (l.current.map miscSaveLayout.get) (miscCfg.slotAdr l.length), f) := by
  have hret : (meshParRetrieve
    (List.replicate sizeofMiscSave 0) miscRamInit.meshMiscAddr flashAdrMisc
      sizeofMiscSave).run f = _ := meshParRetrieve_run h _ _
  rw [miscBoot, meshMiscRetrieve, run_bind, run_bind_of hret]
  cases l.current with
  | none => rfl
  | some x => rfl

theorem miscBoot_reads (h : Holds miscCfg f l) (factoryTest : Bool) : Reads f (miscBoot factoryTest)
    (bootedRam factoryTest (l.current.map miscSaveLayout.get) (miscCfg.slotAdr l.length)) := by
  have hreads := (readOnly_miscBoot factoryTest).reads f
  rwa [miscBoot_run h] at hreads

section

variable (factoryTest : Bool) (found : Option MiscSave) (adr : Nat)

theorem bootedRam_addr : (bootedRam factoryTest found adr).meshMiscAddr = adr := by
  cases found <;> rfl

theorem bootedRam_need : (bootedRam factoryTest found adr).nodeNeedStoreMisc = true := by
  cases found <;> rfl

theorem bootedRam_ivOk : IvOk (bootedRam factoryTest found adr).ivIdxSt := by
  cases found <;> rfl

theorem bootedRam_sno (m : MiscSave) : (bootedRam factoryTest (some m) adr).meshAdvTxCmdSno =
    m.sno + meshCmdSnoSaveDelta := rfl

theorem bootedRam_tx {m : MiscSave} (h : m.ivIndex ≠ 0xFFFFFFFF) :
    (bootedRam factoryTest (some m) adr).ivIdxSt.tx = m.ivIndex := if_pos h

end

end PirMesh
