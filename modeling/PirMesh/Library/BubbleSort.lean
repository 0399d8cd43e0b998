import Mathlib.Data.List.Nodup
import Mathlib.Data.List.Range
import Mathlib.Logic.Equiv.Basic

/-! # Library — Bubble sort on an array

The loops of the textbook program on an array `Nat → α`: the inner loop carries the
greatest of the first places to the end of them, the outer one repeats it on fewer.
`Moves n a b` says that `b` is `a` with its first `n` places rearranged.

The comparison need only agree with a number given to each element
(`hbig`) on the elements of the array: nothing is assumed of the others. -/

namespace BubbleSort

variable {α : Type} (big : α → α → Bool)

/-- `a[j]` and `a[j+1]` exchanged. -/
def swapAt (a : Nat → α) (j : Nat) : Nat → α :=
  Function.update (Function.update a j (a (j + 1))) (j + 1) (a j)

def compareSwap (a : Nat → α) (j : Nat) : Nat → α := if big (a j) (a (j + 1)) then swapAt a j else a

/-- `m` comparisons, from the front. -/
def pass (m : Nat) (a : Nat → α) : Nat → α := (List.range m).foldl (compareSwap big) a

/-- The outer loop up to `i`. -/
def passes (n i : Nat) (a : Nat → α) : Nat → α :=
  (List.range i).foldl (fun a i => pass big (n - i - 1) a) a

def sort (n : Nat) (a : Nat → α) : Nat → α := passes big n (n - 1) a

/-! ### Rearranging -/

variable {big} {a b c : Nat → α} {m n : Nat}

def Moves (n : Nat) (a b : Nat → α) : Prop :=
  ∃ σ : Equiv.Perm Nat, (∀ k, n ≤ k → σ k = k) ∧ b = a ∘ σ

theorem Moves.refl (n : Nat) (a : Nat → α) : Moves n a a := ⟨.refl _, fun _ _ => rfl, rfl⟩

theorem Moves.trans (h₁ : Moves n a b) (h₂ : Moves n b c) : Moves n a c := by
  obtain ⟨σ, hσ, rfl⟩ := h₁
  obtain ⟨τ, hτ, rfl⟩ := h₂
  refine ⟨τ.trans σ, fun k hk => ?_, rfl⟩
  rw [Equiv.trans_apply, hτ k hk, hσ k hk]

theorem Moves.eq_of_le (h : Moves n a b) {k : Nat} (hk : n ≤ k) : b k = a k := by
  obtain ⟨σ, hσ, rfl⟩ := h
  rw [Function.comp_apply, hσ k hk]

/-- What keeps the places from `n` on keeps those below. -/
theorem apply_lt_iff {σ : Equiv.Perm Nat} (hσ : ∀ k, n ≤ k → σ k = k) (k : Nat) :
    σ k < n ↔ k < n := by
  constructor
  · intro hk
    by_contra hge
    rw [hσ k (Nat.le_of_not_lt hge)] at hk
    exact hge hk
  · intro hk
    by_contra hge
    have hfix : σ (σ k) = σ k := hσ _ (Nat.le_of_not_lt hge)
    exact hge (by rw [σ.injective hfix]; exact hk)

/-- A place among the first `n` holds what one of the first `n` held. -/
theorem Moves.exists_lt (h : Moves n a b) {k : Nat} (hk : k < n) : ∃ j < n, b k = a j := by
  obtain ⟨σ, hσ, rfl⟩ := h
  exact ⟨σ k, (apply_lt_iff hσ k).mpr hk, rfl⟩

theorem Moves.perm (h : Moves n a b) : ((List.range n).map b).Perm ((List.range n).map a) := by
  obtain ⟨σ, hσ, rfl⟩ := h
  have hrange : ((List.range n).map σ).Perm (List.range n) := by
    rw [List.perm_ext_iff_of_nodup (List.nodup_range.map σ.injective) List.nodup_range]
    intro k
    simp only [List.mem_map, List.mem_range]
    constructor
    · rintro ⟨j, hj, rfl⟩
      exact (apply_lt_iff hσ j).mpr hj
    · intro hk
      refine ⟨σ.symm k, (apply_lt_iff hσ _).mp ?_, σ.apply_symm_apply k⟩
      rw [σ.apply_symm_apply]
      exact hk
  rw [← List.map_map]
  exact hrange.map a

theorem moves_swapAt (a : Nat → α) {j : Nat} (hj : j + 1 < n) : Moves n a (swapAt a j) := by
  refine ⟨Equiv.swap j (j + 1), fun k hk => Equiv.swap_apply_of_ne_of_ne (by omega) (by omega), ?_⟩
  rw [swapAt, Equiv.comp_swap_eq_update]
  exact (Function.update_comm (by omega) _ _ _).symm

theorem moves_compareSwap (a : Nat → α) {j : Nat} (hj : j + 1 < n) :
    Moves n a (compareSwap big a j) := by
  unfold compareSwap
  split
  · exact moves_swapAt a hj
  · exact .refl n a

theorem pass_succ (m : Nat) (a : Nat → α) :
    pass big (m + 1) a = compareSwap big (pass big m a) m := by
  rw [pass, List.range_succ, List.foldl_append]
  rfl

theorem moves_pass (a : Nat → α) (hm : m < n) : Moves n a (pass big m a) := by
  induction m with
  | zero => exact .refl n a
  | succ m ih =>
    rw [pass_succ]
    exact (ih (by omega)).trans (moves_compareSwap _ hm)

theorem passes_succ (n i : Nat) (a : Nat → α) :
    passes big n (i + 1) a = pass big (n - i - 1) (passes big n i a) := by
  rw [passes, List.range_succ, List.foldl_append]
  rfl

theorem moves_passes (a : Nat → α) {i : Nat} (hi : i ≤ n - 1) : Moves n a (passes big n i a) := by
  induction i with
  | zero => exact .refl n a
  | succ i ih =>
    rw [passes_succ]
    exact (ih (by omega)).trans (moves_pass _ (by omega))

theorem moves_sort (n : Nat) (a : Nat → α) : Moves n a (sort big n a) :=
  moves_passes a (Nat.le_refl _)

/-! ### Sorting -/

section
variable {key : α → Nat} {P : α → Prop}

theorem Moves.all (h : Moves n a b) (hP : ∀ k < n, P (a k)) : ∀ k < n, P (b k) := by
  intro k hk
  obtain ⟨j, hj, he⟩ := h.exists_lt hk
  rw [he]
  exact hP j hj

/-- A pass leaves the greatest element at its end. -/
theorem pass_greatest (hbig : ∀ x y, P x → P y → (big x y = true ↔ key y ≤ key x))
    (hP : ∀ k < m + 1, P (a k)) : ∀ k ≤ m, key (pass big m a k) ≤ key (pass big m a m) := by
  induction m with
  | zero =>
    intro k hk
    rw [Nat.le_zero.mp hk]
  | succ m ih =>
    intro k hk
    have hmoves : Moves (m + 2) a (pass big m a) := moves_pass a (by omega)
    have hPb := hmoves.all hP
    have hmax := ih fun k hk => hP k (by omega)
    rw [pass_succ]
    generalize pass big m a = b at hPb hmax
    unfold compareSwap
    have hcmp := hbig (b m) (b (m + 1)) (hPb m (by omega)) (hPb (m + 1) (by omega))
    split
    · rename_i hswap
      have hle := hcmp.mp hswap
      have hlast : swapAt b m (m + 1) = b m := Function.update_self ..
      rw [hlast]
      by_cases hkm : k = m + 1
      · rw [hkm, hlast]
      · rw [swapAt, Function.update_of_ne hkm]
        by_cases hk' : k = m
        · rw [hk', Function.update_self]
          exact hle
        · rw [Function.update_of_ne hk']
          exact hmax k (by omega)
    · rename_i hkeep
      have hlt : key (b m) < key (b (m + 1)) := Nat.lt_of_not_le fun hle => hkeep (hcmp.mpr hle)
      by_cases hkm : k = m + 1
      · rw [hkm]
      · exact (hmax k (by omega)).trans hlt.le

/-- After `i` passes the last `i` places are final. -/
theorem passes_sorted (hbig : ∀ x y, P x → P y → (big x y = true ↔ key y ≤ key x))
    (hP : ∀ k < n, P (a k)) {i : Nat} (hi : i ≤ n - 1) : ∀ p q, p < q → n - i ≤ q → q < n →
      key (passes big n i a p) ≤ key (passes big n i a q) := by
  induction i with
  | zero => exact fun p q _ hq hqn => absurd hqn (by omega)
  | succ i ih =>
    have hsorted := ih (by omega)
    have hmoves : Moves n a (passes big n i a) := moves_passes a (by omega)
    have hPb := hmoves.all hP
    rw [passes_succ]
    generalize passes big n i a = b at hmoves hsorted hPb
    have hpass : Moves (n - i) b (pass big (n - i - 1) b) := moves_pass b (by omega)
    intro p q hpq hq hqn
    by_cases hlast : q = n - i - 1
    · rw [hlast]
      exact pass_greatest hbig (fun k hk => hPb k (by omega)) p (by omega)
    · -- the pass rearranges what stands before the final places
      rw [hpass.eq_of_le (show n - i ≤ q by omega)]
      by_cases hp : p < n - i
      · obtain ⟨j, hj, he⟩ := hpass.exists_lt hp
        rw [he]
        exact hsorted j q (by omega) (by omega) hqn
      · rw [hpass.eq_of_le (by omega)]
        exact hsorted p q hpq (by omega) hqn

/-- **Bubble sort** puts the first `n` places in the order of the keys. -/
theorem sort_sorted (key : α → Nat) (P : α → Prop)
    (hbig : ∀ x y, P x → P y → (big x y = true ↔ key y ≤ key x)) (hP : ∀ k < n, P (a k)) :
    ∀ p q, p < q → q < n → key (sort big n a p) ≤ key (sort big n a q) :=
  fun p q hpq hq => passes_sorted hbig hP (Nat.le_refl _) p q hpq (by omega) hq

end

end BubbleSort
