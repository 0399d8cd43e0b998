import PirMesh.Keys.Table

/-! # Keys — What one call does to the table

`KeyChange t t'` lists the changes `mesh_net_key_set` and `mesh_app_key_set`
make, each with what the lookups found.  `keyCall_cases` says that a call
leaves the table alone or succeeds with one of them. -/

namespace PirMesh

open Slots

/-! ### What the lookups find -/

section

variable {Mat : Type} {t : MeshKey Mat} {i k : Fin netKeyMax} {j : Fin appKeyMax}
  {idx a : KeyIdx}

/-- Row `i` holds the valid NetKey `idx`. -/
def HasNet (t : MeshKey Mat) (i : Fin netKeyMax) (idx : KeyIdx) : Prop :=
  (t.netKey i).old.valid = true ∧ (t.netKey i).old.index = idx

/-- Slot `j` of row `i` holds the valid AppKey `a`, under a valid NetKey. -/
def HasApp (t : MeshKey Mat) (i : Fin netKeyMax) (j : Fin appKeyMax) (a : KeyIdx) : Prop :=
  (t.netKey i).old.valid = true ∧ ((t.netKey i).old.appKey j).valid = true ∧
    ((t.netKey i).old.appKey j).index = a

theorem hasNet_of_exist (h : isMeshNetKeyExist t idx = some i) : HasNet t i idx := by
  have := firstIdx_some h
  simp only [Bool.and_eq_true, beq_iff_eq] at this
  exact ⟨this.1, this.2.symm⟩

theorem exist_none : isMeshNetKeyExist t idx = none ↔ ∀ i, ¬ HasNet t i idx := by
  refine firstIdx_none.trans (forall_congr' fun i => ?_)
  rw [← Bool.not_eq_true]
  simp only [HasNet, Bool.and_eq_true, beq_iff_eq, eq_comm (a := idx)]

theorem invalid_of_empty (h : meshNetKeyEmptySearch t = some i) :
    (t.netKey i).old.valid = false := by
  simpa using firstIdx_some h

theorem invalid_of_appEmpty {e : MeshNetKey Mat} (h : meshAppKeyEmptySearch e = some j) :
    (e.appKey j).valid = false := by
  simpa using firstIdx_some h

theorem appKeySlot_none {e : MeshNetKey Mat} :
    appKeySlot e a = none ↔ ∀ j, ¬ ((e.appKey j).valid = true ∧ (e.appKey j).index = a) := by
  refine firstIdx_none.trans (forall_congr' fun j => ?_)
  rw [← Bool.not_eq_true]
  simp only [Bool.and_eq_true, beq_iff_eq, eq_comm (a := a)]

theorem hasApp_of_exist (h : isMeshAppKeyExist t a = some (i, j)) : HasApp t i j a := by
  obtain ⟨k, -, hk⟩ := List.exists_of_findSome?_eq_some h
  split at hk
  · rename_i hv
    obtain ⟨l, hl, heq⟩ := Option.map_eq_some_iff.mp hk
    cases heq
    have := firstIdx_some hl
    simp only [Bool.and_eq_true, beq_iff_eq] at this
    exact ⟨hv, this.1, this.2.symm⟩
  · cases hk

theorem appExist_none : isMeshAppKeyExist t a = none ↔ ∀ i j, ¬ HasApp t i j a := by
  unfold isMeshAppKeyExist
  rw [List.findSome?_eq_none_iff]
  refine ⟨fun h i j ⟨hv, ha⟩ => ?_, fun h i _ => ?_⟩
  · have hi := h i (List.mem_finRange i)
    rw [if_pos hv, Option.map_eq_none_iff, appKeySlot_none] at hi
    exact hi j ha
  · split
    · rename_i hv
      rw [Option.map_eq_none_iff, appKeySlot_none]
      exact fun j ha => h i j ⟨hv, ha⟩
    · rfl

end

/-! ### The calls -/

inductive KeyCall
  | net (op : Op) (nk : Key) (keyIdx : KeyIdx) (save : Bool)
  | app (op : Op) (ak : Key) (appKeyIdx netKeyIdx : KeyIdx) (save : Bool)

variable {Mat : Type} (D : KeyDeriv Mat)

def keyCall (t : MeshKey Mat) : KeyCall → KeyResult Mat
  | .net op nk keyIdx save => meshNetKeySet D op nk keyIdx save t
  | .app op ak appKeyIdx netKeyIdx save => meshAppKeySet D op ak appKeyIdx netKeyIdx save t

/-- The changes of the table. -/
inductive KeyChange (t : MeshKey Mat) : MeshKey Mat → Prop
  | netAdd {i idx} (nk : Key) : (∀ k, ¬ HasNet t k idx) → (t.netKey i).old.valid = false →
      KeyChange t (t.setOld i (netKeySet2 D (t.netKey i).old nk idx))
  | netUpdate {i idx} (nk : Key) : HasNet t i idx → (t.netKey i).old.keyPhase = .normal →
      KeyChange t (t.setRow i ⟨{ (t.netKey i).old with keyPhase := .phase1 },
        netKeySet2 D (t.netKey i).old nk idx⟩)
  | netDel {i idx} : HasNet t i idx → 1 < getNetKeyCnt t → KeyChange t (t.setOld i (.zero D))
  | appAdd {i j a} (ak : Key) : (t.netKey i).old.valid = true → (∀ k l, ¬ HasApp t k l a) →
      KeyChange t (t.setOld i ((t.netKey i).old.setApp j (appKeySet2 D ak a)))
  | appUpdate {i k j a} (ak : Key) : HasApp t i j a → HasNet t k (t.netKey i).old.index →
      (t.netKey k).old.keyPhase = .phase1 →
      KeyChange t (t.setNew i ((t.netKey i).new.setApp j (appKeySet2 D ak a)))
  | appDel {i j a} : HasApp t i j a →
      KeyChange t (t.setOld i ((t.netKey i).old.setApp j .zero))

/-- A call either leaves the table alone, or succeeds with a change. -/
def CallCases (t : MeshKey Mat) (r : KeyResult Mat) : Prop :=
  r.key = t ∨ r.st = .success ∧ KeyChange D t r.key

variable {D} {t : MeshKey Mat}

@[simp] theorem MeshKey.netKey_setRow_self (t : MeshKey Mat) (i : Fin netKeyMax)
    (r : NetKeyRow Mat) :
    (t.setRow i r).netKey i = r := by simp [setRow]

theorem MeshKey.netKey_setRow_ne (t : MeshKey Mat) {i k : Fin netKeyMax} (r : NetKeyRow Mat)
    (h : k ≠ i) : (t.setRow i r).netKey k = t.netKey k := by simp [setRow, h]

/-- Entering phase 1 with the new generation in place writes the whole row. -/
theorem phase1_setNew {i : Fin netKeyMax} (hp : (t.netKey i).old.keyPhase = .normal)
    (e : MeshNetKey Mat) : meshKeyRefreshPhaseHandle D .phase1 (t.setNew i e) i =
      t.setRow i ⟨{ (t.netKey i).old with keyPhase := .phase1 }, e⟩ := by
  simp [meshKeyRefreshPhaseHandle, MeshKey.setNew, MeshKey.setOld, hp, MeshKey.setRow]

theorem meshNetKeySet_cases (op : Op) (nk : Key) (idx : KeyIdx) (save : Bool) :
    CallCases D t (meshNetKeySet D op nk idx save t) := by
  unfold meshNetKeySet
  by_cases hadd : op = netkeyAdd
  · rw [if_pos hadd]
    cases he : isMeshNetKeyExist t idx with
    | some i => exact .inl rfl
    | none =>
      cases hs : meshNetKeyEmptySearch t with
      | some i => exact .inr ⟨rfl, .netAdd nk (exist_none.mp he) (invalid_of_empty hs)⟩
      | none => exact .inl rfl
  rw [if_neg hadd]
  by_cases hupd : op = netkeyUpdate
  · rw [if_pos hupd]
    cases he : isMeshNetKeyExist t idx with
    | none => exact .inl rfl
    | some i =>
      by_cases hp : (t.netKey i).old.keyPhase = .normal
      · simp only [if_pos hp, phase1_setNew hp]
        exact .inr ⟨rfl, .netUpdate nk (hasNet_of_exist he) hp⟩
      · simp only [if_neg hp]
        exact .inl rfl
  rw [if_neg hupd]
  by_cases hdel : op = netkeyDel
  · rw [if_pos hdel]
    cases he : isMeshNetKeyExist t idx with
    | none => exact .inl rfl
    | some i =>
      by_cases hc : getNetKeyCnt t ≤ 1
      · simp only [if_pos hc]
        exact .inl rfl
      · simp only [if_neg hc]
        exact .inr ⟨rfl, .netDel (hasNet_of_exist he) (Nat.lt_of_not_le hc)⟩
  · rw [if_neg hdel]
    exact .inl rfl

theorem meshAppKeySet_cases (op : Op) (ak : Key) (a idx : KeyIdx) (save : Bool) :
    CallCases D t (meshAppKeySet D op ak a idx save t) := by
  unfold meshAppKeySet
  cases he : isMeshAppKeyExist t a with
  | some ij =>
    obtain ⟨i, j⟩ := ij
    have happ := hasApp_of_exist he
    by_cases hidx : idx = (t.netKey i).old.index
    · by_cases hadd : op = appkeyAdd
      · simp only [if_pos hidx, if_pos hadd]
        exact .inl rfl
      by_cases hupd : op = appkeyUpdate
      · simp only [if_pos hidx, if_neg hadd, if_pos hupd]
        split
        · rename_i hany
          obtain ⟨k, hk, hp⟩ := (Option.any_eq_true _ _).mp hany
          exact .inr ⟨rfl, .appUpdate ak happ (hidx ▸ hasNet_of_exist hk) (by simpa using hp)⟩
        · exact .inl rfl
      by_cases hdel : op = appkeyDel
      · simp only [if_pos hidx, if_neg hadd, if_neg hupd, if_pos hdel]
        exact .inr ⟨rfl, .appDel happ⟩
      · simp only [if_pos hidx, if_neg hadd, if_neg hupd, if_neg hdel]
        exact .inl rfl
    · simp only [if_neg hidx]
      split <;> exact .inl rfl
  | none =>
    have hnone := appExist_none.mp he
    cases hn : isMeshNetKeyExist t idx with
    | none => exact .inl rfl
    | some k =>
      by_cases hadd : op = appkeyAdd
      · simp only [if_pos hadd]
        cases hs : meshAppKeyEmptySearch (t.netKey k).old with
        | some j => exact .inr ⟨rfl, .appAdd ak (hasNet_of_exist hn).1 hnone⟩
        | none => exact .inl rfl
      · simp only [if_neg hadd]
        split
        · exact .inl rfl
        · split <;> exact .inl rfl

theorem keyCall_cases (e : KeyCall) : CallCases D t (keyCall D t e) := by
  cases e with
  | net op nk idx save => exact meshNetKeySet_cases op nk idx save
  | app op ak a idx save => exact meshAppKeySet_cases op ak a idx save

/-- A call that does not succeed leaves the table as it was. -/
theorem keyCall_unchanged {e : KeyCall} (h : (keyCall D t e).st ≠ .success) :
    (keyCall D t e).key = t :=
  (keyCall_cases e).resolve_right fun hs => h hs.1

end PirMesh
