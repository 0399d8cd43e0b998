import Mathlib.Data.List.FinRange
import Mathlib.Data.List.Nodup
import Mathlib.Data.Set.Insert
import Mathlib.Logic.Function.Basic

/-! # Library — Fixed slots

A table of `n` slots is a function on `Fin n`.  `firstIdx` is the search loop
that stops at the first slot that meets a test, `count` the loop that counts
them; a search for a free slot succeeds when fewer than `n` are taken
(`firstIdx_of_count_lt`).

Where each slot is free (`0`) or taken by a key, `keys` is the set the table
stands for, and `Distinct` says that no key is held twice.  Writing a new key to
a slot keeps the keys distinct (`Distinct.insert`) and adds it to the set
(`keys_insert`); freeing a slot takes its key out (`keys_clear`). -/

namespace Slots

variable {n : Nat} {p q : Fin n → Bool} {i : Fin n}

/-- The first slot that meets `p`. -/
def firstIdx (p : Fin n → Bool) : Option (Fin n) := (List.finRange n).find? p

/-- How many slots meet `p`. -/
def count (p : Fin n → Bool) : Nat := (List.finRange n).countP p

theorem firstIdx_some (h : firstIdx p = some i) : p i = true := List.find?_some h

theorem firstIdx_none : firstIdx p = none ↔ ∀ i, p i = false := by
  simp [firstIdx, List.find?_eq_none]

theorem count_mono (h : ∀ i, p i = true → q i = true) : count p ≤ count q :=
  List.countP_mono_left fun i _ => h i

theorem count_eq_zero (h : ∀ i, p i = false) : count p = 0 :=
  List.countP_eq_zero.mpr fun i _ => by simp [h i]

theorem count_lt (h : p i = false) : count p < n := by
  have hle : count p ≤ (List.finRange n).length := List.countP_le_length
  rw [List.length_finRange] at hle
  refine Nat.lt_of_le_of_ne hle fun hcount => ?_
  have hall := List.countP_eq_length.mp (hcount.trans List.length_finRange.symm) i
    (List.mem_finRange i)
  rw [h] at hall
  cases hall

theorem count_pos (h : p i = true) : 0 < count p :=
  List.countP_pos_iff.mpr ⟨i, List.mem_finRange i, h⟩

/-- At most one slot is `i`. -/
theorem count_eq_le (i : Fin n) : count (fun k => k == i) ≤ 1 :=
  List.nodup_iff_count_le_one.mp (List.nodup_finRange n) i

theorem count_or_le (p q : Fin n → Bool) : count (fun i => p i || q i) ≤ count p + count q := by
  unfold count
  induction List.finRange n with
  | nil => simp
  | cons a l ih =>
    simp only [List.countP_cons]
    cases p a <;> cases q a <;> simp <;> omega

/-- Changing one slot adds at most one to the count. -/
theorem count_le_succ (i : Fin n) (h : ∀ k, k ≠ i → q k = true → p k = true) :
    count q ≤ count p + 1 := by
  calc count q ≤ count fun k => p k || k == i := count_mono fun k hk => by
        by_cases hki : k = i
        · simp [hki]
        · simp [h k hki hk]
    _ ≤ count p + count fun k => k == i := count_or_le _ _
    _ ≤ count p + 1 := Nat.add_le_add_left (count_eq_le i) _

/-- More than one slot meets `p`: one of them is not `i`. -/
theorem exists_ne_of_one_lt_count (h : 1 < count p) (i : Fin n) : ∃ k, k ≠ i ∧ p k = true := by
  by_contra hno
  have hle : count p ≤ count fun k => k == i := count_mono fun k hk => by
    by_cases hki : k = i
    · simp [hki]
    · exact absurd ⟨k, hki, hk⟩ hno
  have := count_eq_le i
  omega

/-- A free slot is found while not all are taken. -/
theorem firstIdx_of_count_lt (h : count p < n) : ∃ i, firstIdx (fun i => !p i) = some i := by
  cases hf : firstIdx fun i => !p i with
  | some i => exact ⟨i, rfl⟩
  | none =>
    have hall : ∀ i, p i = true := fun i => by simpa using firstIdx_none.mp hf i
    have hcount : count p = (List.finRange n).length := List.countP_eq_length.mpr fun i _ => hall i
    rw [List.length_finRange] at hcount
    omega

/-! ### Slots that hold keys -/

variable {n : Nat} {κ : Type} {key : Fin n → κ} {k : κ} {i : Fin n}

/-- The first slot that holds `k`. -/
def find [DecidableEq κ] (key : Fin n → κ) (k : κ) : Option (Fin n) := firstIdx fun i => key i = k

theorem find_some [DecidableEq κ] (h : find key k = some i) : key i = k :=
  of_decide_eq_true (firstIdx_some h)

theorem find_none [DecidableEq κ] : find key k = none ↔ ∀ i, key i ≠ k := by
  simp only [find, firstIdx_none, decide_eq_false_iff_not, ne_eq]

variable [Zero κ]

/-- The keys of the taken slots. -/
def keys (key : Fin n → κ) : Set κ := {k | k ≠ 0 ∧ ∃ i, key i = k}

/-- No key is held by two slots. -/
def Distinct (key : Fin n → κ) : Prop := ∀ i j, key i ≠ 0 → key i = key j → i = j

/-- No slot is free. -/
def Full (key : Fin n → κ) : Prop := ∀ i, key i ≠ 0

instance [DecidableEq κ] : Decidable (Full key) := inferInstanceAs (Decidable (∀ i, key i ≠ 0))

theorem mem_keys (h : key i ≠ 0) : key i ∈ keys key := ⟨h, i, rfl⟩

theorem ne_of_not_mem_keys (hk : k ≠ 0) (h : k ∉ keys key) (i : Fin n) : key i ≠ k :=
  fun hi => h ⟨hk, i, hi⟩

theorem Distinct.free : Distinct fun _ : Fin n => (0 : κ) := fun _ _ h => absurd rfl h

theorem Distinct.insert (h : Distinct key) (hk : k ∉ keys key) (i : Fin n) :
    Distinct (Function.update key i k) := by
  intro a b ha hab
  by_cases hai : a = i
  · by_cases hbi : b = i
    · rw [hai, hbi]
    · rw [hai, Function.update_self] at ha
      rw [hai, Function.update_self, Function.update_of_ne hbi] at hab
      exact absurd hab.symm (ne_of_not_mem_keys ha hk b)
  · rw [Function.update_of_ne hai] at ha hab
    by_cases hbi : b = i
    · rw [hbi, Function.update_self] at hab
      exact absurd ⟨hab ▸ ha, a, hab⟩ hk
    · rw [Function.update_of_ne hbi] at hab
      exact h a b ha hab

theorem Distinct.clear (h : Distinct key) (i : Fin n) : Distinct (Function.update key i 0) :=
  h.insert (fun hk => hk.1 rfl) i

theorem keys_insert (hi : key i = 0) (hk : k ≠ 0) :
    keys (Function.update key i k) = insert k (keys key) := by
  ext a
  constructor
  · rintro ⟨ha, j, hj⟩
    by_cases hji : j = i
    · rw [hji, Function.update_self] at hj
      exact .inl hj.symm
    · rw [Function.update_of_ne hji] at hj
      exact .inr ⟨ha, j, hj⟩
  · rintro (rfl | ⟨ha, j, hj⟩)
    · exact ⟨hk, i, Function.update_self ..⟩
    · have hji : j ≠ i := fun h => ha (by rw [← hj, h, hi])
      exact ⟨ha, j, by rw [Function.update_of_ne hji, hj]⟩

theorem keys_clear (h : Distinct key) (i : Fin n) :
    keys (Function.update key i 0) = keys key \ {key i} := by
  ext a
  constructor
  · rintro ⟨ha, j, hj⟩
    have hji : j ≠ i := fun h => ha (by rw [← hj, h, Function.update_self])
    rw [Function.update_of_ne hji] at hj
    refine ⟨⟨ha, j, hj⟩, fun hai => hji (h j i ?_ (hj.trans hai))⟩
    rw [hj]
    exact ha
  · rintro ⟨⟨ha, j, hj⟩, hai⟩
    have hji : j ≠ i := fun h => hai (by rw [← hj, h]; rfl)
    exact ⟨ha, j, by rw [Function.update_of_ne hji, hj]⟩

/-- A key is found when it is in the table. -/
theorem find_none_iff [DecidableEq κ] (hk : k ≠ 0) : find key k = none ↔ k ∉ keys key := by
  rw [find_none]
  exact ⟨fun h hm => hm.2.elim h, fun h => ne_of_not_mem_keys hk h⟩

end Slots
