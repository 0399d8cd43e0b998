import PirMesh.Keys.Invariant
import PirMesh.Keys.Save

/-! # Keys — Rebuilding the table from an image

`mesh_key_retrieve` adds the saved keys to an empty table one after another.
The invariant of its outer loop is `Restored D t L s`: the table `s` holds the
valid entries of the rows `L` of the saved table `t`, in rows of its own.  The
inner loop fills one entry (`Filling`).

Main result: `restoreKeys_restored` — at the end the rows of `t` in the
generation in use are all there, and nothing else is. -/

namespace PirMesh

open Slots

section Defs

variable {Mat : Type}

/-- The entry holds AppKey `a` with key value `ak`. -/
def AppAt (e : MeshNetKey Mat) (a : KeyIdx) (ak : Key) : Prop :=
  ∃ j, (e.appKey j).valid = true ∧ (e.appKey j).index = a ∧ (e.appKey j).key = ak

/-- A valid entry `e'` that holds what `e` holds, AppKey slots aside. -/
structure SameEntry (e e' : MeshNetKey Mat) : Prop where
  valid : e'.valid = true
  index : e'.index = e.index
  key : e'.key = e.key
  nodeIdentity : e'.nodeIdentity = e.nodeIdentity
  privIdentity : e'.privIdentity = e.privIdentity
  app : ∀ a ak, AppAt e' a ak ↔ AppAt e a ak

variable (D : KeyDeriv Mat)

/-- Row `k` of `s` is being filled with `e`: the AppKey slots `M` are done. -/
structure Filling (s : MeshKey Mat) (k : Fin netKeyMax) (e : MeshNetKey Mat)
    (M : List (Fin appKeyMax)) (s' : MeshKey Mat) : Prop where
  inv : KeyInv D s'
  apps : AppUnique s'
  devKey : s'.devKey = s.devKey
  other : ∀ i, i ≠ k → s'.netKey i = s.netKey i
  net : HasNet s' k e.index
  key : (s'.netKey k).old.key = e.key
  phase : (s'.netKey k).old.keyPhase = .normal
  app : ∀ a ak, AppAt (s'.netKey k).old a ak ↔
    ∃ j ∈ M, (e.appKey j).valid = true ∧ (e.appKey j).index = a ∧ (e.appKey j).key = ak
  cnt : count (fun j => ((s'.netKey k).old.appKey j).valid) ≤ M.length

/-- `s` holds the valid entries of the rows `L` of `t`. -/
structure Restored (t : MeshKey Mat) (L : List (Fin netKeyMax)) (s : MeshKey Mat) : Prop where
  inv : KeyInv D s
  apps : AppUnique s
  devKey : s.devKey = t.devKey
  phase : ∀ k, (s.netKey k).old.keyPhase = .normal
  cnt : getNetKeyCnt s ≤ L.length
  all : ∀ i ∈ L, (t.netKey i).old.valid = true → ∃ k, SameEntry (t.netKey i).old (s.netKey k).old
  only : ∀ k, (s.netKey k).old.valid = true →
    ∃ i ∈ L, (t.netKey i).old.valid = true ∧ SameEntry (t.netKey i).old (s.netKey k).old

end Defs

variable {Mat : Type} {D : KeyDeriv Mat} {s s' t : MeshKey Mat} {e : MeshNetKey Mat}
  {i k : Fin netKeyMax} {j l : Fin appKeyMax} {M : List (Fin appKeyMax)}
  {L : List (Fin netKeyMax)}

/-! ### Lookups in a table with distinct indexes -/

theorem exist_of_hasNet (h : NetUnique s) {idx : KeyIdx} (hk : HasNet s k idx) :
    isMeshNetKeyExist s idx = some k := by
  cases he : isMeshNetKeyExist s idx with
  | none => exact absurd hk (exist_none.mp he k)
  | some i => exact congrArg some (h i k idx (hasNet_of_exist he) hk)

theorem appAt_of_hasApp {a : KeyIdx} (h : HasApp s i j a) :
    AppAt (s.netKey i).old a ((s.netKey i).old.appKey j).key := ⟨j, h.2.1, h.2.2, rfl⟩

/-- An AppKey goes into a free slot. -/
theorem appAt_setApp (h : (e.appKey l).valid = false) (b : MeshAppKey) (a : KeyIdx) (ak : Key) :
    AppAt (e.setApp l b) a ak ↔ AppAt e a ak ∨ b.valid = true ∧ b.index = a ∧ b.key = ak := by
  constructor
  · rintro ⟨m, hm⟩
    by_cases hml : m = l
    · subst hml
      simp only [MeshNetKey.setApp, Function.update_self] at hm
      exact .inr hm
    · simp only [MeshNetKey.setApp, Function.update_of_ne hml] at hm
      exact .inl ⟨m, hm⟩
  · rintro (⟨m, hm⟩ | hb)
    · have hml : m ≠ l := fun hml => absurd hm.1 (by simp [hml, h])
      exact ⟨m, by simpa only [MeshNetKey.setApp, Function.update_of_ne hml] using hm⟩
    · exact ⟨l, by simpa only [MeshNetKey.setApp, Function.update_self] using hb⟩

theorem saveAppKey_valid (a : MeshAppKey) : (saveAppKey a).valid = a.valid := by
  unfold saveAppKey
  split
  · rfl
  · rename_i h
    simpa [MeshAppKey.zero] using (Bool.not_eq_true _).mp h

/-! ### The inner loop -/

/-- One more slot.  `hfree` says that the AppKey is nowhere in the table yet. -/
theorem Filling.step (h : Filling D s k e M s') (he : e.valid = true) (hlen : M.length < appKeyMax)
    (hfree : (e.appKey j).valid = true → (∀ i l, i ≠ k → ¬ HasApp s i l (e.appKey j).index) ∧
      ∀ m ∈ M, (e.appKey m).valid = true → (e.appKey m).index ≠ (e.appKey j).index) :
    Filling D s k e (M ++ [j]) (restoreAppKey D (saveNetKey e) s' j) := by
  have hsave : saveNetKey e = ⟨true, e.index, e.nodeIdentity, e.privIdentity, e.key,
      fun j => saveAppKey (e.appKey j)⟩ := by simp [saveNetKey, he]
  by_cases hv : (e.appKey j).valid = true
  · have hskip : saveAppKey (e.appKey j) = ⟨(e.appKey j).key, 0, (e.appKey j).index, true⟩ := by
      simp [saveAppKey, hv, MeshAppKey.zero]
    -- the lookups of `mesh_app_key_set`
    have hnone : isMeshAppKeyExist s' (e.appKey j).index = none :=
      appExist_none.mpr fun i l hi => by
      by_cases hik : i = k
      · subst hik
        obtain ⟨m, hm, hmv, hma, -⟩ := (h.app _ _).mp (appAt_of_hasApp hi)
        exact (hfree hv).2 m hm hmv hma
      · refine (hfree hv).1 i l hik ?_
        simpa only [HasApp, h.other i hik] using hi
    have hnet := exist_of_hasNet h.inv.unique h.net
    obtain ⟨l, hl⟩ := firstIdx_of_count_lt (Nat.lt_of_le_of_lt h.cnt hlen)
    have hcall : restoreAppKey D (saveNetKey e) s' j = s'.setOld k
        ((s'.netKey k).old.setApp l (appKeySet2 D (e.appKey j).key (e.appKey j).index)) := by
      simp [restoreAppKey, hsave, hskip, meshAppKeySet, hnone, hnet, meshAppKeyEmptySearch, hl]
    have hkeep : restoreAppKey D (saveNetKey e) s' j = (keyCall D s'
        (.app appkeyAdd (e.appKey j).key (e.appKey j).index e.index false)).key := by
      simp [restoreAppKey, hsave, hskip, keyCall]
    have hlfree : ((s'.netKey k).old.appKey l).valid = false := invalid_of_appEmpty hl
    have hrow : (restoreAppKey D (saveNetKey e) s' j).netKey k = ⟨(s'.netKey k).old.setApp l
        (appKeySet2 D (e.appKey j).key (e.appKey j).index), (s'.netKey k).new⟩ := by
      rw [hcall, MeshKey.setOld, MeshKey.netKey_setRow_self]
    refine ⟨hkeep ▸ keyCall_keyInv h.inv _, hkeep ▸ keyCall_appUnique h.inv h.apps _,
      by rw [hcall]; exact h.devKey, fun i hik => ?_, ?_, ?_, ?_, fun a ak => ?_, ?_⟩
    · rw [hcall, MeshKey.setOld, MeshKey.netKey_setRow_ne _ _ hik, h.other i hik]
    · simpa only [HasNet, hrow, MeshNetKey.setApp] using h.net
    · simpa only [hrow, MeshNetKey.setApp] using h.key
    · simpa only [hrow, MeshNetKey.setApp] using h.phase
    · rw [hrow, appAt_setApp hlfree, h.app]
      simp [appKeySet2, or_and_right, exists_or, hv]
    · rw [List.length_append, List.length_singleton]
      refine Nat.le_trans (count_le_succ l fun m hml hm => ?_) (Nat.succ_le_succ h.cnt)
      simpa only [hrow, MeshNetKey.setApp, Function.update_of_ne hml] using hm
  · have hcall : restoreAppKey D (saveNetKey e) s' j = s' := by
      simp [restoreAppKey, hsave, saveAppKey_valid, hv]
    rw [hcall]
    refine { h with app := fun a ak => ?_, cnt := Nat.le_trans h.cnt (by simp) }
    rw [h.app]
    simp [or_and_right, exists_or, hv]

/-- All slots: the induction is on the slots still to come. -/
theorem Filling.loop (he : e.valid = true)
    (hother : ∀ j, (e.appKey j).valid = true → ∀ i l, i ≠ k → ¬ HasApp s i l (e.appKey j).index)
    (hown : ∀ j m, (e.appKey j).valid = true → (e.appKey m).valid = true →
      (e.appKey m).index = (e.appKey j).index → m = j) :
    ∀ (N M : List (Fin appKeyMax)) (s' : MeshKey Mat), (M ++ N).Nodup →
      (M ++ N).length ≤ appKeyMax → Filling D s k e M s' →
      Filling D s k e (M ++ N) (N.foldl (restoreAppKey D (saveNetKey e)) s')
  | [], M, s', _, _, h => by simpa using h
  | j :: N, M, s', hnd, hlen, h => by
    have hj : j ∉ M := fun hj => (List.nodup_append.mp hnd).2.2 j hj j (by simp) rfl
    have hstep := h.step (j := j) he (by simp at hlen; omega) fun hv =>
      ⟨hother j hv, fun m hm hmv hidx => hj (hown j m hv hmv hidx ▸ hm)⟩
    have hassoc : M ++ j :: N = (M ++ [j]) ++ N := by simp
    rw [hassoc] at hnd hlen ⊢
    exact Filling.loop he hother hown N (M ++ [j]) _ hnd hlen hstep

/-! ### The outer loop -/

/-- The entry as `net_key_set2` makes it in an empty row, before any AppKey. -/
theorem Restored.filling (h : Restored D t L s) (hlen : L.length < netKeyMax)
    (hfree : ∀ k, ¬ HasNet s k e.index) :
    ∃ k, (s.netKey k).old.valid = false ∧
      Filling D s k e [] (meshNetKeySet D netkeyAdd e.key e.index false s).key := by
  obtain ⟨k, hk⟩ := firstIdx_of_count_lt (Nat.lt_of_le_of_lt h.cnt hlen)
  have hnone := exist_none.mpr hfree
  have hinv : (s.netKey k).old.valid = false := invalid_of_empty hk
  have hcall : (meshNetKeySet D netkeyAdd e.key e.index false s).key =
      s.setOld k (netKeySet2 D (s.netKey k).old e.key e.index) := by
    simp [meshNetKeySet, hnone, meshNetKeyEmptySearch, hk]
  have hrow : (meshNetKeySet D netkeyAdd e.key e.index false s).key.netKey k =
      ⟨netKeySet2 D (s.netKey k).old e.key e.index, (s.netKey k).new⟩ := by
    rw [hcall, MeshKey.setOld, MeshKey.netKey_setRow_self]
  -- an invalid entry holds no AppKey
  have happ : ∀ j, ((s.netKey k).old.appKey j).valid = false := fun j => by
    by_contra hj
    exact absurd ((h.inv.rows k).old.app j (by simpa using hj)).1 (by simp [hinv])
  refine ⟨k, hinv, keyCall_keyInv h.inv (.net netkeyAdd e.key e.index false),
    keyCall_appUnique h.inv h.apps (.net netkeyAdd e.key e.index false), by rw [hcall]; rfl,
    fun i hik => ?_, ?_, ?_, ?_, fun a ak => ?_, ?_⟩
  · rw [hcall, MeshKey.setOld, MeshKey.netKey_setRow_ne _ _ hik]
  · rw [HasNet, hrow]
    exact ⟨rfl, rfl⟩
  · rw [hrow]
    rfl
  · rw [hrow]
    exact h.phase k
  · simp [AppAt, hrow, netKeySet2, happ]
  · rw [hrow]
    exact Nat.le_of_eq (count_eq_zero happ)

/-- The filled entry, once its identities are set. -/
theorem Filling.done (hf : Filling D s k e (List.finRange appKeyMax) s') (he : e.valid = true) :
    SameEntry e ((setIdentities (saveNetKey e) s').netKey k).old ∧
      KeyInv D (setIdentities (saveNetKey e) s') ∧ AppUnique (setIdentities (saveNetKey e) s') ∧
      ((setIdentities (saveNetKey e) s').netKey k).old.keyPhase = .normal ∧
      (setIdentities (saveNetKey e) s').devKey = s.devKey ∧
      ∀ i, i ≠ k → (setIdentities (saveNetKey e) s').netKey i = s.netKey i := by
  have hsave : saveNetKey e = ⟨true, e.index, e.nodeIdentity, e.privIdentity, e.key,
      fun j => saveAppKey (e.appKey j)⟩ := by simp [saveNetKey, he]
  have hrow := hf.inv.rows k
  have hset : setIdentities (saveNetKey e) s' = s'.setOld k { (s'.netKey k).old with
      nodeIdentity := e.nodeIdentity, privIdentity := e.privIdentity } := by
    simp [setIdentities, hsave, exist_of_hasNet hf.inv.unique hf.net]
  rw [hset]
  refine ⟨?_, hf.inv.setRow ⟨⟨hrow.old.mat, hrow.old.app⟩, hrow.new, hrow.refresh⟩
      fun _ => hf.inv.sameIndex hf.net rfl,
    hf.apps.setRow ⟨0, by decide⟩ fun hv _ _ hl ha => .inl ⟨hv, hl, ha⟩, ?_, hf.devKey,
    fun i hik => by rw [MeshKey.setOld, MeshKey.netKey_setRow_ne _ _ hik, hf.other i hik]⟩
  · rw [MeshKey.setOld, MeshKey.netKey_setRow_self]
    exact ⟨hf.net.1, hf.net.2, hf.key, rfl, rfl, fun a ak => by
      simpa [AppAt] using hf.app a ak⟩
  · simpa [MeshKey.setOld] using hf.phase

/-- What `s` holds comes from other rows, so neither the index nor the AppKeys are there. -/
theorem Restored.not_hasNet (ht : KeyInv D t) (h : Restored D t L s) (hi : i ∉ L)
    (hv : (t.netKey i).old.valid = true) (k : Fin netKeyMax) :
    ¬ HasNet s k (t.netKey i).old.index := by
  intro hk
  obtain ⟨i', hi', hv', hsame⟩ := h.only k hk.1
  have heq := ht.unique i' i _ ⟨hv', hsame.index.symm.trans hk.2⟩ ⟨hv, rfl⟩
  exact hi (heq ▸ hi')

theorem Restored.not_hasApp (ha : AppUnique t) (h : Restored D t L s) (hi : i ∉ L)
    {j : Fin appKeyMax} {index : BitVec 16} (hj : HasApp t i j index) (k : Fin netKeyMax)
    (l : Fin appKeyMax) : ¬ HasApp s k l index := by
  intro hk
  obtain ⟨i', hi', hv', hsame⟩ := h.only k hk.1
  obtain ⟨m, hm, hma, -⟩ := (hsame.app _ _).mp (appAt_of_hasApp hk)
  have heq := (ha i' m i j _ ⟨hv', hm, hma⟩ hj).1
  exact hi (heq ▸ hi')

/-- A row that is not valid restores nothing. -/
theorem Restored.skip (h : Restored D t L s) (hv : ¬ (t.netKey i).old.valid = true) :
    Restored D t (L ++ [i]) (restoreNetKey D s (saveNetKey (t.netKey i).old)) := by
  have hres : restoreNetKey D s (saveNetKey (t.netKey i).old) = s := by
    simp [restoreNetKey, saveNetKey, hv, MeshNetKeySave.zero]
  rw [hres]
  refine { h with
    cnt := Nat.le_trans h.cnt (by simp)
    all := fun i' hi' hv' => ?_
    only := fun k hk => ?_ }
  · rcases List.mem_append.mp hi' with hi' | hi'
    · exact h.all i' hi' hv'
    · obtain rfl := List.mem_singleton.mp hi'
      exact absurd hv' hv
  · obtain ⟨i', hi', hrow⟩ := h.only k hk
    exact ⟨i', List.mem_append_left _ hi', hrow⟩

/-- One more row of the image. -/
theorem Restored.step (ht : KeyInv D t) (ha : AppUnique t) (h : Restored D t L s) (hi : i ∉ L)
    (hlen : L.length < netKeyMax) :
    Restored D t (L ++ [i]) (restoreNetKey D s (saveNetKey (t.netKey i).old)) := by
  by_cases hiv : (t.netKey i).old.valid = true
  · obtain ⟨e, hedef⟩ : ∃ e, e = (t.netKey i).old := ⟨_, rfl⟩
    have he : e.valid = true := hedef ▸ hiv
    have hat : ∀ j, (e.appKey j).valid = true → HasApp t i j (e.appKey j).index := by
      rw [hedef]
      exact fun j hj => ⟨hiv, hj, rfl⟩
    have hown : ∀ j m, (e.appKey j).valid = true → (e.appKey m).valid = true →
        (e.appKey m).index = (e.appKey j).index → m = j := fun j m hj hm hidx =>
      (ha i m i j _ (hidx ▸ hat m hm) (hat j hj)).2
    obtain ⟨k, hk, hfill⟩ := h.filling hlen (hedef ▸ h.not_hasNet ht hi hiv)
    have hloop := Filling.loop he (fun j hj k l _ => h.not_hasApp ha hi (hat j hj) k l) hown
      (List.finRange appKeyMax) [] _ (List.nodup_finRange _) (by simp) hfill
    obtain ⟨hsame, hinv, happ, hphase, hdev, hrest⟩ := Filling.done hloop he
    have hres : restoreNetKey D s (saveNetKey e) = setIdentities (saveNetKey e)
        ((List.finRange appKeyMax).foldl (restoreAppKey D (saveNetKey e))
          (meshNetKeySet D netkeyAdd e.key e.index false s).key) := by
      have hsave : (saveNetKey e).valid = true ∧ (saveNetKey e).key = e.key ∧
          (saveNetKey e).index = e.index := by simp [saveNetKey, he]
      simp [restoreNetKey, hsave]
    rw [← hedef, hres]
    refine ⟨hinv, happ, hdev.trans h.devKey, fun k' => ?_, ?_, fun i' hi' hv' => ?_,
      fun k' hk' => ?_⟩
    · by_cases hkk : k' = k
      · rw [hkk]
        exact hphase
      · rw [hrest k' hkk]
        exact h.phase k'
    · rw [List.length_append, List.length_singleton]
      refine Nat.le_trans (count_le_succ k fun k' hkk hv => ?_) (Nat.succ_le_succ h.cnt)
      rwa [hrest k' hkk] at hv
    · rcases List.mem_append.mp hi' with hi' | hi'
      · obtain ⟨k', hsame'⟩ := h.all i' hi' hv'
        have hkk : k' ≠ k := fun hkk => absurd hsame'.valid (by simp [hkk, hk])
        exact ⟨k', by rwa [hrest k' hkk]⟩
      · obtain rfl := List.mem_singleton.mp hi'
        exact ⟨k, hedef ▸ hsame⟩
    · by_cases hkk : k' = k
      · subst hkk
        exact ⟨i, by simp, hiv, hedef ▸ hsame⟩
      · rw [hrest k' hkk] at hk' ⊢
        obtain ⟨i', hi', hrow⟩ := h.only k' hk'
        exact ⟨i', List.mem_append_left _ hi', hrow⟩
  · exact h.skip hiv

/-- All rows: the induction is on the rows still to come. -/
theorem Restored.loop (ht : KeyInv D t) (ha : AppUnique t) :
    ∀ (N L : List (Fin netKeyMax)) (s : MeshKey Mat), (L ++ N).Nodup →
      (L ++ N).length ≤ netKeyMax → Restored D t L s →
      Restored D t (L ++ N)
        ((N.map fun i => saveNetKey (t.netKey i).old).foldl (restoreNetKey D) s)
  | [], L, s, _, _, h => by simpa using h
  | i :: N, L, s, hnd, hlen, h => by
    have hi : i ∉ L := fun hi => (List.nodup_append.mp hnd).2.2 i hi i (by simp) rfl
    have hstep := h.step ht ha hi (by simp at hlen; omega)
    have hassoc : L ++ i :: N = (L ++ [i]) ++ N := by simp
    rw [hassoc] at hnd hlen ⊢
    exact Restored.loop ht ha N (L ++ [i]) _ hnd hlen hstep

/-- **The table rebuilt from the image of `t`** holds the rows of `t` in the generation in
use, and nothing else. -/
theorem restoreKeys_restored (ht : KeyInv D t) (ha : AppUnique t) (devKey : Key) :
    Restored D t (List.finRange netKeyMax) (restoreKeys D (keySave t) (.empty D devKey)) := by
  have hempty : Restored D t [] { MeshKey.empty D devKey with devKey := t.devKey } := by
    refine ⟨keyInv_empty _, appUnique_empty _, rfl, fun _ => rfl, ?_, by simp, fun k hk => ?_⟩
    · exact Nat.le_of_eq (count_eq_zero fun _ => rfl)
    · exact absurd hk (by simp [MeshKey.empty, MeshNetKey.zero])
  exact Restored.loop ht ha (List.finRange netKeyMax) [] _ (List.nodup_finRange _) (by simp) hempty

end PirMesh
