import PirMesh.Keys.Invariant

/-! # Keys — What a delete leaves behind

`Leftover t e` says of a table entry that it still holds valid material for
what the delete call `e` on `t` names: the NetKey and the AppKeys bound to it,
or the AppKey.  A delete clears the generation in use (`delete_clears_old`) and
never touches the other one (`delete_keeps_new`); so it is complete exactly when
no new-generation entry held such material before. -/

namespace PirMesh

open Run

section Defs

variable {Mat : Type}

/-- `NETKEY_DEL` or `APPKEY_DEL`. -/
def KeyCall.IsDel : KeyCall → Prop
  | .net op _ _ _ => op = netkeyDel
  | .app op _ _ _ _ => op = appkeyDel

/-- The entry holds valid material for NetKey `idx`. -/
def NetMaterial (e : MeshNetKey Mat) (idx : KeyIdx) : Prop := e.valid = true ∧ e.index = idx

/-- The entry holds valid material for AppKey `a`. -/
def AppMaterial (e : MeshNetKey Mat) (a : KeyIdx) : Prop :=
  ∃ j, (e.appKey j).valid = true ∧ (e.appKey j).index = a

/-- AppKey `a` is bound to NetKey `idx`. -/
def Bound (t : MeshKey Mat) (idx a : KeyIdx) : Prop :=
  ∃ i j, HasNet t i idx ∧ HasApp t i j a

/-- The entry holds valid material for what the call deletes from `t`. -/
def Leftover (t : MeshKey Mat) : KeyCall → MeshNetKey Mat → Prop
  | .net _ _ idx _, e => NetMaterial e idx ∨ ∃ a, Bound t idx a ∧ AppMaterial e a
  | .app _ _ a _ _, e => AppMaterial e a

end Defs

variable {Mat : Type} {D : KeyDeriv Mat} {t : MeshKey Mat} {e : KeyCall}

theorem not_netMaterial_zero (idx : KeyIdx) : ¬ NetMaterial (.zero D : MeshNetKey Mat) idx :=
  fun h => absurd h.1 (by simp [MeshNetKey.zero])

theorem not_appMaterial_zero (a : KeyIdx) : ¬ AppMaterial (.zero D : MeshNetKey Mat) a :=
  fun ⟨_, h, _⟩ => absurd h (by simp [MeshNetKey.zero, MeshAppKey.zero])

/-- Material in the generation in use is what the lookups see. -/
theorem KeyInv.hasApp (h : KeyInv D t) {i : Fin netKeyMax} {a : KeyIdx}
    (hm : AppMaterial (t.netKey i).old a) : ∃ j, HasApp t i j a := by
  obtain ⟨j, hv, ha⟩ := hm
  exact ⟨j, ((h.rows i).old.app j hv).1, hv, ha⟩

/-- A delete that succeeds: nothing was there, or one entry or slot is cleared. -/
theorem netDel_cases {nk : Key} {idx : KeyIdx} {save : Bool}
    (hs : (meshNetKeySet D netkeyDel nk idx save t).st = .success) :
    ((∀ i, ¬ HasNet t i idx) ∧ (meshNetKeySet D netkeyDel nk idx save t).key = t) ∨
    ∃ i, HasNet t i idx ∧
      (meshNetKeySet D netkeyDel nk idx save t).key = t.setOld i (.zero D) := by
  have h1 : netkeyDel ≠ netkeyAdd := by decide
  have h2 : netkeyDel ≠ netkeyUpdate := by decide
  simp only [meshNetKeySet, if_neg h1, if_neg h2, if_true] at hs ⊢
  cases he : isMeshNetKeyExist t idx with
  | none => exact .inl ⟨exist_none.mp he, rfl⟩
  | some i =>
    simp only [he] at hs
    by_cases hc : getNetKeyCnt t ≤ 1
    · simp [hc] at hs
    · simp only [hc, if_false]
      exact .inr ⟨i, hasNet_of_exist he, rfl⟩

theorem appDel_cases {ak : Key} {a idx : KeyIdx} {save : Bool}
    (hs : (meshAppKeySet D appkeyDel ak a idx save t).st = .success) :
    ((∀ i j, ¬ HasApp t i j a) ∧ (meshAppKeySet D appkeyDel ak a idx save t).key = t) ∨
    ∃ i j, HasApp t i j a ∧ (meshAppKeySet D appkeyDel ak a idx save t).key =
      t.setOld i ((t.netKey i).old.setApp j .zero) := by
  have h1 : appkeyDel ≠ appkeyAdd := by decide
  have h2 : appkeyDel ≠ appkeyUpdate := by decide
  simp only [meshAppKeySet, if_neg h1, if_true, h2, false_and, if_false] at hs ⊢
  cases he : isMeshAppKeyExist t a with
  | none =>
    refine .inl ⟨appExist_none.mp he, ?_⟩
    cases isMeshNetKeyExist t idx <;> rfl
  | some ij =>
    obtain ⟨i, j⟩ := ij
    simp only [he] at hs
    by_cases hidx : idx = (t.netKey i).old.index
    · simp only [if_pos hidx]
      exact .inr ⟨i, j, hasApp_of_exist he, rfl⟩
    · simp [hidx] at hs

/-- A delete never touches the new generation. -/
theorem delete_keeps_new (hd : e.IsDel) (hs : (keyCall D t e).st = .success) (i : Fin netKeyMax) :
    ((keyCall D t e).key.netKey i).new = (t.netKey i).new := by
  have hrow : ∀ (k : Fin netKeyMax) (x : MeshNetKey Mat),
      ((t.setOld k x).netKey i).new = (t.netKey i).new := by
    intro k x
    by_cases hik : i = k
    · subst hik
      simp [MeshKey.setOld]
    · rw [MeshKey.setOld, MeshKey.netKey_setRow_ne t _ hik]
  cases e with
  | net op nk idx save =>
    obtain rfl : op = netkeyDel := hd
    rcases netDel_cases hs with ⟨-, h⟩ | ⟨k, -, h⟩
    · rw [keyCall, h]
    · rw [keyCall, h, hrow]
  | app op ak a idx save =>
    obtain rfl : op = appkeyDel := hd
    rcases appDel_cases hs with ⟨-, h⟩ | ⟨k, j, -, h⟩
    · rw [keyCall, h]
    · rw [keyCall, h, hrow]

/-- A delete that succeeds clears the generation in use. -/
theorem delete_clears_old (h : TableInv D t) (hd : e.IsDel)
    (hs : (keyCall D t e).st = .success) (i : Fin netKeyMax) :
    ¬ Leftover t e ((keyCall D t e).key.netKey i).old := by
  cases e with
  | net op nk idx save =>
    obtain rfl : op = netkeyDel := hd
    rcases netDel_cases hs with ⟨hno, heq⟩ | ⟨k, hk, heq⟩
    · rw [keyCall, heq]
      rintro (hm | ⟨a, ⟨l, j, hl, -⟩, -⟩)
      · exact hno i hm
      · exact hno l hl
    · rw [keyCall, heq]
      by_cases hik : i = k
      · subst hik
        rw [MeshKey.setOld, MeshKey.netKey_setRow_self]
        rintro (hm | ⟨a, -, hm⟩)
        · exact not_netMaterial_zero idx hm
        · exact not_appMaterial_zero a hm
      · rw [MeshKey.setOld, MeshKey.netKey_setRow_ne t _ hik]
        rintro (hm | ⟨a, ⟨l, j, hl, hla⟩, hm⟩)
        · exact hik (h.key.unique i k idx hm hk)
        · obtain ⟨j', hi⟩ := h.key.hasApp hm
          exact hik ((h.app i j' l j a hi hla).1.trans (h.key.unique l k idx hl hk))
  | app op ak a idx save =>
    obtain rfl : op = appkeyDel := hd
    rcases appDel_cases hs with ⟨hno, heq⟩ | ⟨k, l, hk, heq⟩
    · rw [keyCall, heq]
      intro hm
      obtain ⟨j, hj⟩ := h.key.hasApp hm
      exact hno i j hj
    · rw [keyCall, heq]
      by_cases hik : i = k
      · subst hik
        rw [MeshKey.setOld, MeshKey.netKey_setRow_self]
        rintro ⟨j, hv, ha⟩
        by_cases hjl : j = l
        · simp [MeshNetKey.setApp, hjl, MeshAppKey.zero] at hv
        · simp only [MeshNetKey.setApp, Function.update_of_ne hjl] at hv ha
          exact hjl (h.app i j i l a ⟨hk.1, hv, ha⟩ hk).2
      · rw [MeshKey.setOld, MeshKey.netKey_setRow_ne t _ hik]
        intro hm
        obtain ⟨j, hj⟩ := h.key.hasApp hm
        exact hik (h.app i j k l a hj hk).1

/-- **What deletes are complete.**  A delete that succeeds leaves no valid material
for what it names in either generation exactly when no new-generation entry held any
before. -/
theorem keyDel_complete_iff (h : (keySys D).Reach t) (hd : e.IsDel)
    (hs : (keyCall D t e).st = .success) :
    (∀ i, ¬ Leftover t e ((keyCall D t e).key.netKey i).old ∧
      ¬ Leftover t e ((keyCall D t e).key.netKey i).new) ↔
    ∀ i, ¬ Leftover t e (t.netKey i).new := by
  refine forall_congr' fun i => ?_
  rw [delete_keeps_new hd hs i]
  exact and_iff_right (delete_clears_old (keySys_inv h) hd hs i)

/-! ### A delete during a refresh -/

/-- NetKey 1 with AppKey 5 bound to it. -/
def boundTable : MeshKey Key :=
  (keyCall keyAsMat (keyCall keyAsMat sampleTable (.net netkeyAdd (sampleKey 2) 1 true)).key
    (.app appkeyAdd (sampleKey 3) 5 1 true)).key

theorem reach_boundTable : (keySys keyAsMat).Reach boundTable :=
  .step (.step reach_sampleTable (e := .net netkeyAdd (sampleKey 2) 1 true) rfl)
    (e := .app appkeyAdd (sampleKey 3) 5 1 true) rfl

theorem keyDel_complete_bound :
    (∀ i, ¬ Leftover boundTable (.net netkeyDel (sampleKey 0) 1 true)
        ((keyCall keyAsMat boundTable (.net netkeyDel (sampleKey 0) 1 true)).key.netKey i).old ∧
      ¬ Leftover boundTable (.net netkeyDel (sampleKey 0) 1 true)
        ((keyCall keyAsMat boundTable (.net netkeyDel (sampleKey 0) 1 true)).key.netKey i).new) ↔
    ∀ i, ¬ Leftover boundTable (.net netkeyDel (sampleKey 0) 1 true) (boundTable.netKey i).new :=
  keyDel_complete_iff reach_boundTable rfl (by decide)

/-- The same table with NetKey 1 in phase 1 of a refresh. -/
def refreshTable : MeshKey Key :=
  (keyCall keyAsMat boundTable (.net netkeyUpdate (sampleKey 4) 1 true)).key

/-- Deleting NetKey 1 succeeds; the new key and AppKey 5 stay valid in generation 1. -/
theorem netDel_leaves_new_generation :
    (keySys keyAsMat).Reach refreshTable ∧
    (keyCall keyAsMat refreshTable (.net netkeyDel (sampleKey 0) 1 true)).st = .success ∧
    ∃ i, Leftover refreshTable (.net netkeyDel (sampleKey 0) 1 true)
        ((keyCall keyAsMat refreshTable (.net netkeyDel (sampleKey 0) 1 true)).key.netKey i).new ∧
      AppMaterial
        ((keyCall keyAsMat refreshTable
          (.net netkeyDel (sampleKey 0) 1 true)).key.netKey i).new 5 :=
  ⟨.step reach_boundTable (e := .net netkeyUpdate (sampleKey 4) 1 true) rfl, by decide,
    ⟨1, by decide⟩, .inl (by unfold NetMaterial; decide), ⟨0, by decide⟩, by decide⟩

end PirMesh
