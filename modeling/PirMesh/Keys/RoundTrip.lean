import PirMesh.Flash.ParDurable
import PirMesh.Keys.Delete
import PirMesh.Keys.Restore

/-! # Keys — Save, reboot, retrieve

`SameKeys t t'` says that two tables make the same NetKeys and AppKeys usable:
indexes, key values of both generations, and the refresh phase.  The image has
the generation in use only, so a reboot restores the table with every refresh
dropped (`dropRefresh`), and the table itself when no refresh is in progress.

Main result: `keySave_roundTrip`. -/

namespace PirMesh

open Nor CommitLog Run

section Defs

variable {Mat : Type} (D : KeyDeriv Mat)

/-! ### What a node can use -/

structure NetUse (Mat : Type) where
  key : Key
  mat : Mat
  phase : KeyPhase
  newKey : Option Key
  nodeIdentity : Byte
  privIdentity : Byte

/-- The new generation counts while a refresh runs. -/
def netUse (r : NetKeyRow Mat) : NetUse Mat where
  key := r.old.key
  mat := r.old.mat
  phase := r.old.keyPhase
  newKey := if r.old.keyPhase = .normal then none else some r.new.key
  nodeIdentity := r.old.nodeIdentity
  privIdentity := r.old.privIdentity

structure AppUse where
  key : Key
  aid : Byte
  newKey : Option Key

def appUse (r : NetKeyRow Mat) (j : Fin appKeyMax) : AppUse where
  key := (r.old.appKey j).key
  aid := (r.old.appKey j).aid
  newKey :=
    if r.old.keyPhase = .normal ∨ (r.new.appKey j).valid = false then none
    else some (r.new.appKey j).key

/-- NetKey `idx` is usable as `u`. -/
def NetUsable (t : MeshKey Mat) (idx : KeyIdx) (u : NetUse Mat) : Prop :=
  ∃ i, HasNet t i idx ∧ netUse (t.netKey i) = u

/-- AppKey `a` is usable as `u` under NetKey `idx`. -/
def AppUsable (t : MeshKey Mat) (idx a : KeyIdx) (u : AppUse) : Prop :=
  ∃ i j, HasNet t i idx ∧ HasApp t i j a ∧ appUse (t.netKey i) j = u

structure SameKeys (t t' : MeshKey Mat) : Prop where
  devKey : t'.devKey = t.devKey
  net : ∀ idx u, NetUsable t' idx u ↔ NetUsable t idx u
  app : ∀ idx a u, AppUsable t' idx a u ↔ AppUsable t idx a u

/-- No key refresh is in progress. -/
def NoRefresh (t : MeshKey Mat) : Prop :=
  ∀ i, (t.netKey i).old.valid = true → (t.netKey i).old.keyPhase = .normal

/-- The table with the generation in use only. -/
def dropRefresh (t : MeshKey Mat) : MeshKey Mat :=
  { t with netKey := fun i => ⟨{ (t.netKey i).old with keyPhase := .normal }, .zero D⟩ }

/-! ### The life of the table, phase changes included -/

/-- The transitions `Config Key Refresh Phase Set` asks for. -/
inductive Trans
  | trans2
  | trans3

def Trans.phase : Trans → PhaseSet
  | .trans2 => .phase2
  | .trans3 => .phase3

inductive RefreshEvent
  | call (e : KeyCall)
  | phase (tr : Trans) (keyIdx : KeyIdx)

def refreshNext (t : MeshKey Mat) : RefreshEvent → MeshKey Mat
  | .call e => (keyCall D t e).key
  | .phase tr keyIdx =>
    match isMeshNetKeyExist t keyIdx with
    | some i => meshKeyRefreshPhaseHandle D tr.phase t i
    | none => t

def refreshSys : Sys (MeshKey Mat) RefreshEvent :=
  .det (keySys D).init (refreshNext D)

/-! ### The reboot -/

/-- The place of the key image. -/
def keyCfg : ParCfg := ⟨flashAdrMeshKey, sizeofMeshKeySave, by decide, by decide⟩

/-- The flash a completed `mesh_key_save` leaves. -/
def savedFlash (K : KeyCipher) (s : ParState) (t : MeshKey Mat) : Flash :=
  (meshKeySave K t s.pAdr).exec s.flash

/-- The result and the table of `mesh_key_retrieve` at boot, on cleared RAM. -/
def bootKeys (K : KeyCipher) (factoryTest : MeshKey Mat → MeshKey Mat) (f : Flash) :
    Int × MeshKey Mat × Nat :=
  ((meshKeyRetrieve D K factoryTest (.empty D (Vector.replicate 16 0)) flashAdrMeshKey).run f).1

end Defs

variable {Mat : Type} {D : KeyDeriv Mat} {t : MeshKey Mat} {s : ParState}

/-! ### Reachable tables -/

theorem KeyInv.phaseHandle (h : KeyInv D t) (tr : Trans) (i : Fin netKeyMax) :
    KeyInv D (meshKeyRefreshPhaseHandle D tr.phase t i) := by
  unfold meshKeyRefreshPhaseHandle
  cases hp : (t.netKey i).old.keyPhase <;> cases tr
  · exact h
  · exact h
  · exact h.setPhase _ (by simp [hp])
  · exact h.complete (by simp [hp])
  · exact h
  · exact h.complete (by simp [hp])

theorem refreshNext_keyInv (h : KeyInv D t) (e : RefreshEvent) : KeyInv D (refreshNext D t e) := by
  cases e with
  | call e => exact keyCall_keyInv h e
  | phase tr idx =>
    simp only [refreshNext]
    cases isMeshNetKeyExist t idx with
    | some i => exact h.phaseHandle tr i
    | none => exact h

theorem refreshSys_inv (h : (refreshSys D).Reach t) : KeyInv D t := by
  refine h.inv ?_ ?_
  · rintro _ ⟨devKey, nk, idx, fresh, rfl⟩
    exact (tableInv_provisioned devKey nk idx fresh).key
  · rintro s e _ hs rfl
    exact refreshNext_keyInv hs e

/-! ### The image survives the reboot -/

theorem length_keyImage (K : KeyCipher) (t : MeshKey Mat) :
    (keyImage K t).length = keyCfg.size := by
  simp [keyImage, K.length_enc, keySaveLayout.length_put, keyCfg, sizeofMeshKeySave]
  rfl

theorem decode_keyImage (K : KeyCipher) (t : MeshKey Mat) :
    decodeKeyImage K (keyImage K t) = some (keySaveLayout.put (keySave t)) := by
  have hlen : (K.enc (keySaveLayout.put (keySave t))).length = 175 := by
    rw [K.length_enc, keySaveLayout.length_put]
    rfl
  have hflag : (keyImage K t).getD 175 0 = keySaveEncodeFlag := by
    simp [keyImage, hlen]
  rw [decodeKeyImage, if_pos hflag, keyImage, List.take_left' hlen, K.dec_enc]

/-- A saved image is what the next retrieve reads. -/
theorem savedFlash_retrieve (hs : (parSys keyCfg meshSaveMap).Reach s) (K : KeyCipher)
    (t : MeshKey Mat) (out : List Byte) (p : Nat) :
    ∃ q, (meshParRetrieve out p flashAdrMeshKey sizeofMeshKeySave).run (savedFlash K s t) =
      (⟨0, keyImage K t, q⟩, savedFlash K s t) := by
  obtain ⟨l, hl⟩ := par_reach_log hs
  have hst := hl.stored meshSaveMap ⟨keyImage K t, length_keyImage K t⟩
  have hnot : keyCfg.adrBase ∉ meshSaveMap := by decide
  rw [storeLog, if_neg fun h => hnot h.1] at hst
  refine ⟨keyCfg.slotAdr ((roomFor keyCfg l).append (keyImage K t)).length,
    (meshParRetrieve_run hst.holds out p).trans ?_⟩
  rw [Log.current_append]
  rfl

/-- The table a reboot builds from a saved image. -/
theorem bootKeys_saved (hs : (parSys keyCfg meshSaveMap).Reach s) (K : KeyCipher)
    (factoryTest : MeshKey Mat → MeshKey Mat) (t : MeshKey Mat) :
    ∃ q, bootKeys D K factoryTest (savedFlash K s t) =
      (0, restoreKeys D (keySave t) (.empty D (Vector.replicate 16 0)), q) := by
  obtain ⟨q, hq⟩ := savedFlash_retrieve hs K t (List.replicate sizeofMeshKeySave 0) flashAdrMeshKey
  refine ⟨q, ?_⟩
  rw [bootKeys, meshKeyRetrieve, Prog.run_bind_of hq]
  simp only [if_true, decode_keyImage, keySaveLayout.get_put]
  rfl

/-! ### What is restored -/

/-- Restored rows make usable what the rows of `t` in the generation in use do. -/
theorem Restored.sameKeys {s : MeshKey Mat} (ht : KeyInv D t)
    (h : Restored D t (List.finRange netKeyMax) s) : SameKeys (dropRefresh D t) s := by
  -- a restored entry and its origin, seen as usable keys
  have huse : ∀ {i k : Fin netKeyMax}, (t.netKey i).old.valid = true →
      SameEntry (t.netKey i).old (s.netKey k).old →
      netUse (s.netKey k) = netUse ((dropRefresh D t).netKey i) := by
    intro i k hv hsame
    have hmat : (s.netKey k).old.mat = (t.netKey i).old.mat := by
      rw [(h.inv.rows k).old.mat hsame.valid, (ht.rows i).old.mat hv, hsame.key]
    simp [netUse, dropRefresh, h.phase k, hsame.key, hmat, hsame.nodeIdentity, hsame.privIdentity]
  have happ : ∀ {i k : Fin netKeyMax} {j l : Fin appKeyMax},
      ((t.netKey i).old.appKey j).valid = true → ((s.netKey k).old.appKey l).valid = true →
      ((s.netKey k).old.appKey l).key = ((t.netKey i).old.appKey j).key →
      appUse (s.netKey k) l = appUse ((dropRefresh D t).netKey i) j := by
    intro i k j l hj hl hkey
    have haid : ((s.netKey k).old.appKey l).aid = ((t.netKey i).old.appKey j).aid := by
      rw [((h.inv.rows k).old.app l hl).2, ((ht.rows i).old.app j hj).2, hkey]
    simp [appUse, dropRefresh, h.phase k, hkey, haid]
  refine ⟨h.devKey, fun idx u => ⟨?_, ?_⟩, fun idx a u => ⟨?_, ?_⟩⟩
  · rintro ⟨k, hk, rfl⟩
    obtain ⟨i, -, hv, hsame⟩ := h.only k hk.1
    exact ⟨i, ⟨hv, hsame.index.symm.trans hk.2⟩, (huse hv hsame).symm⟩
  · rintro ⟨i, hi, rfl⟩
    obtain ⟨k, hsame⟩ := h.all i (List.mem_finRange i) hi.1
    exact ⟨k, ⟨hsame.valid, hsame.index.trans hi.2⟩, huse hi.1 hsame⟩
  · rintro ⟨k, l, hk, hl, rfl⟩
    obtain ⟨i, -, hv, hsame⟩ := h.only k hk.1
    obtain ⟨j, hj, hja, hjk⟩ := (hsame.app _ _).mp (appAt_of_hasApp hl)
    exact ⟨i, j, ⟨hv, hsame.index.symm.trans hk.2⟩, ⟨hv, hj, hja⟩, (happ hj hl.2.1 hjk.symm).symm⟩
  · rintro ⟨i, j, hi, hj, rfl⟩
    obtain ⟨k, hsame⟩ := h.all i (List.mem_finRange i) hi.1
    obtain ⟨l, hl, hla, hlk⟩ :=
      (hsame.app a ((t.netKey i).old.appKey j).key).mpr ⟨j, hj.2.1, hj.2.2, rfl⟩
    exact ⟨k, l, ⟨hsame.valid, hsame.index.trans hi.2⟩, ⟨hsame.valid, hl, hla⟩, happ hj.2.1 hl hlk⟩

/-- Without a refresh there is nothing to drop. -/
theorem NoRefresh.sameKeys {t' : MeshKey Mat} (h : NoRefresh t)
    (hs : SameKeys (dropRefresh D t) t') :
    SameKeys t t' where
  devKey := hs.devKey
  net idx u := (hs.net idx u).trans (exists_congr fun i => and_congr_right fun hi => by
    have hp := h i hi.1
    simp [netUse, dropRefresh, hp])
  app idx a u := (hs.app idx a u).trans (exists_congr fun i => exists_congr fun j =>
    and_congr_right fun hi => and_congr_right fun _ => by
      have hp := h i hi.1
      simp [appUse, dropRefresh, hp])

/-- **Key persistence.**  A save and a reboot restore the generation in use of every
table whose AppKeys are unique, and all of it when no refresh is in progress. -/
theorem keySave_roundTrip (ht : (refreshSys D).Reach t) (ha : AppUnique t)
    (hs : (parSys keyCfg meshSaveMap).Reach s) (K : KeyCipher)
    (factoryTest : MeshKey Mat → MeshKey Mat) :
    (bootKeys D K factoryTest (savedFlash K s t)).1 = 0 ∧
    SameKeys (dropRefresh D t) (bootKeys D K factoryTest (savedFlash K s t)).2.1 ∧
    (NoRefresh t → SameKeys t (bootKeys D K factoryTest (savedFlash K s t)).2.1) := by
  have hinv := refreshSys_inv ht
  obtain ⟨q, hq⟩ := bootKeys_saved (D := D) hs K factoryTest t
  have hsame := (restoreKeys_restored hinv ha (Vector.replicate 16 0)).sameKeys hinv
  rw [hq]
  exact ⟨rfl, hsame, fun hno => hno.sameKeys hsame⟩

/-! ### A reboot during a refresh -/

/-- The set functions alone reach no other tables. -/
theorem refreshSys_of_keySys (h : (keySys D).Reach t) : (refreshSys D).Reach t :=
  h.inv (fun _ h0 => .init h0) fun _ e _ ih hst => ih.step (e := .call e) hst

/-- A cipher that hides nothing and adds an empty MIC. -/
def plainCipher : KeyCipher where
  enc p := p ++ [0]
  dec c := some c.dropLast
  length_enc _ := by simp
  dec_enc _ := by simp

def erasedKeySector : ParState := ⟨fun _ => blank, flashAdrMeshKey⟩

theorem reach_erasedKeySector : (parSys keyCfg meshSaveMap).Reach erasedKeySector :=
  .init ⟨fun _ _ _ => rfl, rfl⟩

theorem keySave_roundTrip_bound :
    (bootKeys keyAsMat plainCipher id (savedFlash plainCipher erasedKeySector boundTable)).1 = 0 ∧
    SameKeys (dropRefresh keyAsMat boundTable)
      (bootKeys keyAsMat plainCipher id (savedFlash plainCipher erasedKeySector boundTable)).2.1 ∧
    (NoRefresh boundTable → SameKeys boundTable
      (bootKeys keyAsMat plainCipher id (savedFlash plainCipher erasedKeySector boundTable)).2.1) :=
  keySave_roundTrip (refreshSys_of_keySys reach_boundTable) (keySys_inv reach_boundTable).app
    reach_erasedKeySector plainCipher id

/-- NetKey 1 is in phase 1 with a new key; after the reboot it is not. -/
theorem keySave_drops_refresh :
    (refreshSys keyAsMat).Reach refreshTable ∧ (parSys keyCfg meshSaveMap).Reach erasedKeySector ∧
    ¬ SameKeys refreshTable
      (bootKeys keyAsMat plainCipher id
        (savedFlash plainCipher erasedKeySector refreshTable)).2.1 := by
  have hreach : (keySys keyAsMat).Reach refreshTable :=
    reach_boundTable.step (e := .net netkeyUpdate (sampleKey 4) 1 true) rfl
  refine ⟨refreshSys_of_keySys hreach, reach_erasedKeySector, fun hsame => ?_⟩
  have hinv := keySys_inv hreach
  have hres := restoreKeys_restored hinv.key hinv.app (Vector.replicate 16 0)
  obtain ⟨q, hq⟩ := bootKeys_saved (D := keyAsMat) reach_erasedKeySector plainCipher id refreshTable
  rw [hq] at hsame
  have hrow : HasNet refreshTable ⟨1, by decide⟩ 1 := by unfold HasNet; decide
  obtain ⟨k, -, hk⟩ := (hsame.net 1 _).mpr ⟨_, hrow, rfl⟩
  have hphase : KeyPhase.normal = (refreshTable.netKey ⟨1, by decide⟩).old.keyPhase :=
    (hres.phase k).symm.trans (congrArg NetUse.phase hk)
  exact absurd hphase (by decide)

end PirMesh
