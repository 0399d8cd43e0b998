import PirMesh.Keys.Step
import PirMesh.Library.Run

/-! # Keys — The invariant of the key table

`KeyInv` is what every row and the NetKey indexes satisfy; it survives the two
set functions and the phase changes of a key refresh.  `AppUnique` and
`SomeNet` survive the set functions.

Main result: `keyTable_invariant` — on a provisioned node NetKey indexes are
distinct, every AppKey index is valid at most once, some NetKey is left, and a
call that fails changes nothing. -/

namespace PirMesh

open Run Slots

section Defs

variable {Mat : Type} (D : KeyDeriv Mat)

/-- What an entry caches is derived from its keys, and AppKeys sit in valid entries. -/
structure EntryOk (e : MeshNetKey Mat) : Prop where
  mat : e.valid = true → e.mat = D.net e.key
  app : ∀ j, (e.appKey j).valid = true →
    e.valid = true ∧ (e.appKey j).aid = D.aid (e.appKey j).key

/-- A row; during a refresh both generations are valid and carry one index. -/
structure RowOk (r : NetKeyRow Mat) : Prop where
  old : EntryOk D r.old
  new : EntryOk D r.new
  refresh : r.old.keyPhase ≠ .normal →
    r.old.valid = true ∧ r.new.valid = true ∧ r.new.index = r.old.index

/-- The valid NetKey entries have pairwise distinct indexes. -/
def NetUnique (t : MeshKey Mat) : Prop :=
  ∀ i k idx, HasNet t i idx → HasNet t k idx → i = k

/-- Every AppKey index is valid under at most one NetKey, and at most once there. -/
def AppUnique (t : MeshKey Mat) : Prop :=
  ∀ i j k l a, HasApp t i j a → HasApp t k l a → i = k ∧ j = l

/-- At least one valid NetKey. -/
def SomeNet (t : MeshKey Mat) : Prop := ∃ i, (t.netKey i).old.valid = true

structure KeyInv (t : MeshKey Mat) : Prop where
  rows : ∀ i, RowOk D (t.netKey i)
  unique : NetUnique t

end Defs

variable {Mat : Type} {D : KeyDeriv Mat} {t t' : MeshKey Mat} {i : Fin netKeyMax}
  {r : NetKeyRow Mat}

/-! ### Entries -/

theorem entryOk_zero : EntryOk D (.zero D) where
  mat h := absurd h (by simp [MeshNetKey.zero])
  app j h := absurd h (by simp [MeshNetKey.zero, MeshAppKey.zero])

theorem EntryOk.netKeySet2 {e : MeshNetKey Mat} (h : EntryOk D e) (nk : Key) (idx : KeyIdx) :
    EntryOk D (netKeySet2 D e nk idx) where
  mat _ := rfl
  app j hj := ⟨rfl, (h.app j hj).2⟩

theorem EntryOk.keyPhase {e : MeshNetKey Mat} (h : EntryOk D e) (p : KeyPhase) :
    EntryOk D { e with keyPhase := p } := ⟨h.mat, h.app⟩

theorem EntryOk.setApp {e : MeshNetKey Mat} (h : EntryOk D e) (j : Fin appKeyMax)
    {a : MeshAppKey} (ha : a.valid = true → e.valid = true ∧ a.aid = D.aid a.key) :
    EntryOk D (e.setApp j a) where
  mat := h.mat
  app l hl := by
    by_cases hj : l = j
    · subst hj
      simp only [MeshNetKey.setApp, Function.update_self] at hl ⊢
      exact ha hl
    · simp only [MeshNetKey.setApp, Function.update_of_ne hj] at hl ⊢
      exact h.app l hl

/-! ### Rows -/

theorem hasNet_setRow {k : Fin netKeyMax} {idx : KeyIdx} : HasNet (t.setRow i r) k idx ↔
    if k = i then r.old.valid = true ∧ r.old.index = idx else HasNet t k idx := by
  by_cases h : k = i
  · subst h
    simp [HasNet]
  · simp [HasNet, h, MeshKey.netKey_setRow_ne t r h]

theorem hasApp_setRow {k : Fin netKeyMax} {l : Fin appKeyMax} {a : KeyIdx} :
    HasApp (t.setRow i r) k l a ↔
      if k = i then r.old.valid = true ∧ (r.old.appKey l).valid = true ∧ (r.old.appKey l).index = a
      else HasApp t k l a := by
  by_cases h : k = i
  · subst h
    simp [HasApp]
  · simp [HasApp, h, MeshKey.netKey_setRow_ne t r h]

/-- A row may take an index no other row holds. -/
theorem NetUnique.setRow (h : NetUnique t)
    (hr : r.old.valid = true → ∀ k, HasNet t k r.old.index → k = i) :
    NetUnique (t.setRow i r) := by
  intro k l idx hk hl
  rw [hasNet_setRow] at hk hl
  by_cases hki : k = i <;> by_cases hli : l = i <;>
    simp only [hki, hli, if_true, if_false] at hk hl ⊢
  · exact (hli (hr hk.1 l (hk.2 ▸ hl))).elim
  · exact (hki (hr hl.1 k (hl.2 ▸ hk))).elim
  · exact h k l idx hk hl

/-- A row may take AppKeys it had in the same slots, and one new AppKey. -/
theorem AppUnique.setRow (h : AppUnique t) (j : Fin appKeyMax)
    (hr : r.old.valid = true → ∀ l a, (r.old.appKey l).valid = true → (r.old.appKey l).index = a →
      HasApp t i l a ∨ (l = j ∧ ∀ k m, ¬ HasApp t k m a)) :
    AppUnique (t.setRow i r) := by
  have hcase : ∀ k l a, HasApp (t.setRow i r) k l a →
      HasApp t k l a ∨ (k = i ∧ l = j ∧ ∀ k m, ¬ HasApp t k m a) := by
    intro k l a hk
    rw [hasApp_setRow] at hk
    by_cases hki : k = i
    · subst hki
      rw [if_pos rfl] at hk
      exact (hr hk.1 l a hk.2.1 hk.2.2).imp_right fun hn => ⟨rfl, hn⟩
    · rw [if_neg hki] at hk
      exact .inl hk
  intro k l k' l' a h1 h2
  rcases hcase k l a h1 with h1 | ⟨rfl, rfl, hn1⟩ <;>
    rcases hcase k' l' a h2 with h2 | ⟨hk, hl, hn2⟩
  · exact h k l k' l' a h1 h2
  · exact absurd h1 (hn2 _ _)
  · exact absurd h2 (hn1 _ _)
  · exact ⟨hk.symm, hl.symm⟩

theorem KeyInv.setRow (h : KeyInv D t) (hr : RowOk D r)
    (hu : r.old.valid = true → ∀ k, HasNet t k r.old.index → k = i) : KeyInv D (t.setRow i r) where
  rows k := by
    by_cases hk : k = i
    · subst hk
      simpa using hr
    · rw [MeshKey.netKey_setRow_ne t r hk]
      exact h.rows k
  unique := h.unique.setRow hu

/-- A change that keeps the index of a row keeps the indexes distinct. -/
theorem KeyInv.sameIndex (h : KeyInv D t) {idx : KeyIdx} (hi : HasNet t i idx)
    (hidx : r.old.index = (t.netKey i).old.index) (k : Fin netKeyMax)
    (hk : HasNet t k r.old.index) : k = i :=
  h.unique k i _ hk (hidx ▸ ⟨hi.1, rfl⟩)

/-- The row phase 1 was found in is the row of the AppKey. -/
theorem KeyInv.appUpdate_row (h : KeyInv D t) {k : Fin netKeyMax} {j : Fin appKeyMax} {a : KeyIdx}
    (happ : HasApp t i j a) (hk : HasNet t k (t.netKey i).old.index) : k = i :=
  h.unique k i _ hk ⟨happ.1, rfl⟩

/-- The set functions keep `KeyInv`. -/
theorem KeyChange.keyInv (hc : KeyChange D t t') (h : KeyInv D t) : KeyInv D t' := by
  cases hc with
  | @netAdd i idx nk hfree hinv =>
    have hrow := h.rows i
    refine h.setRow ⟨hrow.old.netKeySet2 nk idx, hrow.new, fun hp => ?_⟩ fun _ k hk =>
      absurd hk (hfree k)
    exact absurd (hrow.refresh hp).1 (by simp [hinv])
  | @netUpdate i idx nk hi hp =>
    have hrow := h.rows i
    exact h.setRow ⟨hrow.old.keyPhase _, hrow.old.netKeySet2 nk idx,
      fun _ => ⟨hi.1, rfl, hi.2.symm⟩⟩
      fun _ => h.sameIndex hi rfl
  | @netDel i idx hi hcnt =>
    exact h.setRow ⟨entryOk_zero, (h.rows i).new, fun hp => absurd rfl hp⟩ fun hv =>
      absurd hv (by simp [MeshNetKey.zero])
  | @appAdd i j a ak hv hfree =>
    have hrow := h.rows i
    exact h.setRow ⟨hrow.old.setApp j fun _ => ⟨hv, rfl⟩, hrow.new, hrow.refresh⟩
      fun _ => h.sameIndex ⟨hv, rfl⟩ rfl
  | @appUpdate i k j a ak happ hk hp =>
    have hrow := h.rows i
    obtain rfl := h.appUpdate_row happ hk
    have hnew := (hrow.refresh (by simp [hp])).2.1
    exact h.setRow ⟨hrow.old, hrow.new.setApp j fun _ => ⟨hnew, rfl⟩, hrow.refresh⟩
      fun _ => h.sameIndex hk rfl
  | @appDel i j a happ =>
    have hrow := h.rows i
    exact h.setRow ⟨hrow.old.setApp j fun hz => absurd hz (by simp [MeshAppKey.zero]), hrow.new,
      hrow.refresh⟩ fun _ => h.sameIndex ⟨happ.1, rfl⟩ rfl

/-- The set functions keep AppKeys unique. -/
theorem KeyChange.appUnique (hc : KeyChange D t t') (h : KeyInv D t) (ha : AppUnique t) :
    AppUnique t' := by
  cases hc with
  | @netAdd i idx nk hfree hinv =>
    refine ha.setRow ⟨0, by decide⟩ fun _ l a hl _ => ?_
    exact absurd ((h.rows i).old.app l hl).1 (by simp [hinv])
  | @netUpdate i idx nk hi hp =>
    exact ha.setRow ⟨0, by decide⟩ fun hv l a hl hla => .inl ⟨hv, hl, hla⟩
  | @netDel i idx hi hcnt =>
    exact ha.setRow ⟨0, by decide⟩ fun hv => absurd hv (by simp [MeshNetKey.zero])
  | @appAdd i j a ak hv hfree =>
    refine ha.setRow j fun _ l b hl hb => ?_
    by_cases hlj : l = j
    · subst hlj
      simp only [MeshNetKey.setApp, Function.update_self, appKeySet2] at hb
      exact .inr ⟨rfl, hb ▸ hfree⟩
    · simp only [MeshNetKey.setApp, Function.update_of_ne hlj] at hl hb
      exact .inl ⟨hv, hl, hb⟩
  | @appUpdate i k j a ak happ hk hp =>
    exact ha.setRow j fun hv l b hl hb => .inl ⟨hv, hl, hb⟩
  | @appDel i j a happ =>
    refine ha.setRow j fun hv l b hl hb => ?_
    by_cases hlj : l = j
    · subst hlj
      simp [MeshNetKey.setApp, MeshAppKey.zero] at hl
    · simp only [MeshNetKey.setApp, Function.update_of_ne hlj] at hl hb
      exact .inl ⟨hv, hl, hb⟩

/-- The set functions never delete the last NetKey. -/
theorem KeyChange.someNet (hc : KeyChange D t t') : SomeNet t' := by
  -- a row that stays valid
  have keep : ∀ {i : Fin netKeyMax} {r : NetKeyRow Mat}, r.old.valid = true →
      SomeNet (t.setRow i r) := fun {i r} hr => ⟨i, by simpa using hr⟩
  cases hc with
  | netAdd => exact keep rfl
  | netUpdate nk hi => exact keep hi.1
  | @netDel i idx hi hcnt =>
    obtain ⟨k, hki, hk⟩ := exists_ne_of_one_lt_count hcnt i
    exact ⟨k, by rwa [MeshKey.setOld, MeshKey.netKey_setRow_ne t _ hki]⟩
  | appAdd ak hv => exact keep hv
  | appUpdate ak happ => exact keep happ.1
  | appDel happ => exact keep happ.1

/-! ### Phase changes -/

/-- `key_phase` moves on while a refresh runs. -/
theorem KeyInv.setPhase (h : KeyInv D t) (p : KeyPhase) (hp : (t.netKey i).old.keyPhase ≠ .normal) :
    KeyInv D (t.setOld i { (t.netKey i).old with keyPhase := p }) := by
  have hrow := h.rows i
  have href := hrow.refresh hp
  exact h.setRow ⟨hrow.old.keyPhase p, hrow.new, fun _ => href⟩ fun _ =>
    h.sameIndex ⟨href.1, rfl⟩ rfl

/-- The end of a refresh. -/
theorem KeyInv.complete (h : KeyInv D t) (hp : (t.netKey i).old.keyPhase ≠ .normal) :
    KeyInv D (keyRefreshComplete D t i) := by
  have hrow := h.rows i
  have href := hrow.refresh hp
  exact h.setRow ⟨hrow.new.keyPhase _, entryOk_zero, fun hp => absurd rfl hp⟩
    fun _ => h.sameIndex ⟨href.1, rfl⟩ href.2.2

/-! ### A provisioned node -/

theorem keyInv_empty (devKey : Key) : KeyInv D (.empty D devKey) where
  rows _ := ⟨entryOk_zero, entryOk_zero, fun hp => absurd rfl hp⟩
  unique _ _ _ h := absurd h.1 (by simp [MeshKey.empty, MeshNetKey.zero])

theorem appUnique_empty (devKey : Key) : AppUnique (MeshKey.empty D devKey) :=
  fun _ _ _ _ _ h => absurd h.1 (by simp [MeshKey.empty, MeshNetKey.zero])

theorem keyCall_keyInv (h : KeyInv D t) (e : KeyCall) : KeyInv D (keyCall D t e).key := by
  rcases keyCall_cases (D := D) (t := t) e with hs | ⟨-, hc⟩
  · rwa [hs]
  · exact hc.keyInv h

theorem keyCall_appUnique (h : KeyInv D t) (ha : AppUnique t) (e : KeyCall) :
    AppUnique (keyCall D t e).key := by
  rcases keyCall_cases (D := D) (t := t) e with hs | ⟨-, hc⟩
  · rwa [hs]
  · exact hc.appUnique h ha

theorem keyCall_someNet (h : SomeNet t) (e : KeyCall) : SomeNet (keyCall D t e).key := by
  rcases keyCall_cases (D := D) (t := t) e with hs | ⟨-, hc⟩
  · rwa [hs]
  · exact hc.someNet

/-- What the set functions keep. -/
structure TableInv (D : KeyDeriv Mat) (t : MeshKey Mat) : Prop where
  key : KeyInv D t
  app : AppUnique t
  net : SomeNet t

theorem TableInv.keyCall (h : TableInv D t) (e : KeyCall) : TableInv D (keyCall D t e).key :=
  ⟨keyCall_keyInv h.key e, keyCall_appUnique h.key h.app e, keyCall_someNet h.net e⟩

/-- The first NetKey goes into an empty table. -/
theorem netAdd_empty (devKey nk : Key) (idx : KeyIdx) (save : Bool) :
    (meshNetKeySet D netkeyAdd nk idx save (.empty D devKey)).st = .success ∧
      TableInv D (meshNetKeySet D netkeyAdd nk idx save (.empty D devKey)).key := by
  have hst : (meshNetKeySet D netkeyAdd nk idx save (.empty D devKey)).st = .success ∧
      SomeNet (meshNetKeySet D netkeyAdd nk idx save (.empty D devKey)).key := by
    have hnone : isMeshNetKeyExist (MeshKey.empty D devKey) idx = none :=
      exist_none.mpr fun i h => absurd h.1 (by simp [MeshKey.empty, MeshNetKey.zero])
    cases hs : meshNetKeyEmptySearch (MeshKey.empty D devKey) with
    | none =>
      have := firstIdx_none.mp hs ⟨0, by decide⟩
      simp [MeshKey.empty, MeshNetKey.zero] at this
    | some i =>
      simp only [meshNetKeySet, if_true, hnone, hs]
      exact ⟨trivial, i, by simp [MeshKey.setOld, netKeySet2]⟩
  exact ⟨hst.1, keyCall_keyInv (keyInv_empty devKey) (.net netkeyAdd nk idx save),
    keyCall_appUnique (keyInv_empty devKey) (appUnique_empty devKey) (.net netkeyAdd nk idx save),
    hst.2⟩

theorem TableInv.setPhase (h : TableInv D t) (p : KeyPhase)
    (hp : (t.netKey i).old.keyPhase ≠ .normal) :
    TableInv D (t.setOld i { (t.netKey i).old with keyPhase := p }) where
  key := h.key.setPhase p hp
  app := h.app.setRow ⟨0, by decide⟩ fun hv _ _ hl ha => .inl ⟨hv, hl, ha⟩
  net := ⟨i, by simp [MeshKey.setOld, ((h.key.rows i).refresh hp).1]⟩

/-- An update of an existing NetKey leaves its row in a refresh. -/
theorem netUpdate_phase {idx : KeyIdx} (he : isMeshNetKeyExist t idx = some i) (nk : Key)
    (save : Bool) :
    ((meshNetKeySet D netkeyUpdate nk idx save t).key.netKey i).old.keyPhase ≠ .normal := by
  have hne : netkeyUpdate ≠ netkeyAdd := by decide
  by_cases hp : (t.netKey i).old.keyPhase = .normal
  · simp [meshNetKeySet, hne, he, hp, phase1_setNew hp]
  · simp [meshNetKeySet, hne, he, hp]

/-- The refresh flag of provisioning leaves the NetKey in phase 2. -/
theorem TableInv.phase2 (h : TableInv D t) (nk : Key) (idx : KeyIdx) :
    TableInv D (meshNkUpdateSelfAndChange2phase2 D nk idx t) := by
  unfold meshNkUpdateSelfAndChange2phase2
  cases he : isMeshNetKeyExist t idx with
  | none => exact h
  | some i =>
    exact (h.keyCall (.net netkeyUpdate nk idx false)).setPhase _ (netUpdate_phase he nk false)

theorem tableInv_provisioned (devKey nk : Key) (idx : KeyIdx) (fresh : Bool) :
    TableInv D (meshNetKeyAddByProvision D nk idx fresh (.empty D devKey)) := by
  have hadd := netAdd_empty (D := D) devKey nk idx true
  simp only [meshNetKeyAddByProvision, hadd.1, if_true]
  cases fresh with
  | false => exact hadd.2
  | true => exact hadd.2.phase2 nk idx

/-! ### Runs -/

variable (D) in
/-- The life of the table of a provisioned node under the set functions. -/
def keySys : Sys (MeshKey Mat) KeyCall :=
  .det (fun t => ∃ devKey nk idx fresh,
    t = meshNetKeyAddByProvision D nk idx fresh (.empty D devKey)) fun t e => (keyCall D t e).key

theorem keySys_inv (h : (keySys D).Reach t) : TableInv D t := by
  refine h.inv ?_ ?_
  · rintro _ ⟨devKey, nk, idx, fresh, rfl⟩
    exact tableInv_provisioned devKey nk idx fresh
  · rintro s e _ hs rfl
    exact hs.keyCall e

/-- **The key table invariant.** -/
theorem keyTable_invariant (h : (keySys D).Reach t) :
    NetUnique t ∧ AppUnique t ∧ SomeNet t ∧
      ∀ e, (keyCall D t e).st ≠ .success → (keyCall D t e).key = t :=
  have hinv := keySys_inv h
  ⟨hinv.key.unique, hinv.app, hinv.net, fun _ he => keyCall_unchanged he⟩

/-- Derived material that is the key itself, for runs on concrete keys. -/
def keyAsMat : KeyDeriv Key := ⟨id, Vector.replicate 16 0, fun k => k[0]⟩

def sampleKey (b : Nor.Byte) : Key := Vector.replicate 16 b

/-- A node provisioned with NetKey 0. -/
def sampleTable : MeshKey Key :=
  meshNetKeyAddByProvision keyAsMat (sampleKey 1) 0 false (.empty keyAsMat (sampleKey 9))

theorem reach_sampleTable : (keySys keyAsMat).Reach sampleTable := .init ⟨_, _, _, _, rfl⟩

theorem keyTable_invariant_sample : NetUnique sampleTable ∧ AppUnique sampleTable ∧
    SomeNet sampleTable ∧ ∀ e, (keyCall keyAsMat sampleTable e).st ≠ .success →
      (keyCall keyAsMat sampleTable e).key = sampleTable :=
  keyTable_invariant reach_sampleTable

end PirMesh
