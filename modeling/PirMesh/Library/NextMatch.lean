import Mathlib.Order.Bounds.Basic

/-! # Library — The next match

The least number from `n` on with a property, for properties of numbers in a mixed
radix: the high part and the low digit each have a property of their own
(`Digits`).  The next match keeps the high part and looks on in the digit
(`isLeast_stay`), or takes the next high part with the first digit
(`isLeast_carry`). -/

namespace NextMatch

variable {A C P : Nat → Prop} {B a c h k n v : Nat}

/-- The matches from `n` on. -/
def From (P : Nat → Prop) (n : Nat) : Set Nat := {u | n ≤ u ∧ P u}

/-- No match from `n` on. -/
def NoNext (P : Nat → Prop) (n : Nat) : Prop := ∀ u, n ≤ u → ¬ P u

/-- Numbers with `A` of the part above the last digit to base `B`, and `C` of that digit. -/
def Digits (B : Nat) (A C : Nat → Prop) (x : Nat) : Prop := A (x / B) ∧ C (x % B)

theorem isLeast_from (hv : n ≤ v) (hP : P v) (h : ∀ u, n ≤ u → P u → v ≤ u) :
    IsLeast (From P n) v :=
  ⟨⟨hv, hP⟩, fun u hu => h u hu.1 hu.2⟩

/-- A next match that lies later is the next one from the following number. -/
theorem later_of_isLeast (h : IsLeast (From P n) v) (hlt : n < v) :
    IsLeast (From P (n + 1)) v ∧ ¬ P n :=
  ⟨⟨⟨hlt, h.1.2⟩, fun _ hu => h.2 ⟨Nat.le_of_succ_le hu.1, hu.2⟩⟩,
    fun hn => absurd (h.2 ⟨Nat.le_refl n, hn⟩) (Nat.not_le.mpr hlt)⟩

theorem digits_mul_add (hc : c < B) : Digits B A C (a * B + c) ↔ A a ∧ C c := by
  have hB : 0 < B := Nat.zero_lt_of_lt hc
  rw [Digits, Nat.mul_comm, Nat.mul_add_div hB, Nat.mul_add_mod, Nat.div_eq_of_lt hc,
    Nat.mod_eq_of_lt hc, Nat.add_zero]

/-- What lies from `h * B + k` on has a later high part, or the same one and a digit from `k` on. -/
theorem high_or_digit {u : Nat} (hB : 0 < B) (hu : h * B + k ≤ u) :
    h + 1 ≤ u / B ∨ u / B = h ∧ k ≤ u % B := by
  have hdiv := Nat.div_add_mod' u B
  have hmod := Nat.mod_lt u hB
  rcases Nat.lt_trichotomy (u / B) h with hlt | rfl | hgt
  · have hmul := Nat.mul_le_mul_right B (Nat.succ_le_of_lt hlt)
    rw [Nat.succ_mul] at hmul
    omega
  · exact .inr ⟨rfl, by omega⟩
  · exact .inl hgt

/-- The next high part, with the first digit. -/
theorem isLeast_carry (hk : k ≤ B) (ha : IsLeast (From A (h + 1)) a) (hc : IsLeast (From C 0) c)
    (hB : c < B) (hno : A h → NoNext C k) :
    IsLeast (From (Digits B A C) (h * B + k)) (a * B + c) := by
  refine isLeast_from ?_ ((digits_mul_add hB).mpr ⟨ha.1.2, hc.1.2⟩) fun u hu ⟨hau, hcu⟩ => ?_
  · have hmul := Nat.mul_le_mul_right B ha.1.1
    rw [Nat.succ_mul] at hmul
    omega
  · rcases high_or_digit (Nat.zero_lt_of_lt hB) hu with hlt | ⟨heq, hle⟩
    · have hdiv := Nat.div_add_mod' u B
      have hmul := Nat.mul_le_mul_right B (ha.2 ⟨hlt, hau⟩)
      have hlow := hc.2 ⟨Nat.zero_le _, hcu⟩
      omega
    · exact absurd hcu (hno (heq ▸ hau) _ hle)

/-- The same high part, with a digit from `k` on. -/
theorem isLeast_stay (ha : A h) (hc : IsLeast (From C k) c) (hB : c < B) :
    IsLeast (From (Digits B A C) (h * B + k)) (h * B + c) := by
  refine isLeast_from (Nat.add_le_add_left hc.1.1 _) ((digits_mul_add hB).mpr ⟨ha, hc.1.2⟩)
    fun u hu ⟨_, hcu⟩ => ?_
  have hdiv := Nat.div_add_mod' u B
  rcases high_or_digit (Nat.zero_lt_of_lt hB) hu with hlt | ⟨heq, hle⟩
  · have hmul := Nat.mul_le_mul_right B hlt
    rw [Nat.succ_mul] at hmul
    omega
  · have hlow := hc.2 ⟨hle, hcu⟩
    rw [heq] at hdiv
    omega

/-- Neither the digit nor the high part has a next match. -/
theorem noNext_digits (hB : 0 < B) (ha : NoNext A (h + 1)) (hc : A h → NoNext C k) :
    NoNext (Digits B A C) (h * B + k) := by
  rintro u hu ⟨hau, hcu⟩
  rcases high_or_digit hB hu with hlt | ⟨heq, hle⟩
  · exact ha _ hlt hau
  · exact hc (heq ▸ hau) _ hle hcu

/-! ### The least of several, with all that attain it -/

section

variable {κ : Type} [DecidableEq κ]

/-- One element of a search for the least value: the bound so far, and who attains it. -/
def least (f : κ → Option Nat) (acc : Nat × (κ → Bool)) (k : κ) : Nat × (κ → Bool) :=
  match f k with
  | none => acc
  | some v =>
    if v < acc.1 then (v, fun j => j = k)
    else if v = acc.1 then (acc.1, fun j => acc.2 j || decide (j = k))
    else acc

/-- What a search from the bound `top` knows behind the elements `l`. -/
structure LeastOf (f : κ → Option Nat) (top : Nat) (l : List κ)
    (acc : Nat × (κ → Bool)) : Prop where
  lower : ∀ k ∈ l, ∀ v ∈ f k, acc.1 ≤ v
  attained : acc.1 = top ∨ ∃ k ∈ l, f k = some acc.1
  keys : ∀ k, acc.2 k = true ↔ k ∈ l ∧ f k = some acc.1

variable {f : κ → Option Nat} {top : Nat} {l l' : List κ} {acc : Nat × (κ → Bool)}

theorem LeastOf.step (h : LeastOf f top l acc) (k : κ) :
    LeastOf f top (l ++ [k]) (least f acc k) := by
  have hmem : ∀ {j : κ}, j ∈ l ++ [k] → j ∈ l ∨ j = k := fun hj => by simpa using hj
  have hl : ∀ {j : κ}, j ∈ l → j ∈ l ++ [k] := fun hj => List.mem_append_left _ hj
  have hk : k ∈ l ++ [k] := List.mem_concat_self
  have hattained : acc.1 = top ∨ ∃ j ∈ l ++ [k], f j = some acc.1 :=
    h.attained.imp_right fun ⟨j, hj, hf⟩ => ⟨j, hl hj, hf⟩
  unfold least
  cases hf : f k with
  | none =>
    refine ⟨fun j hj v hv => ?_, hattained, fun j => ?_⟩
    · rcases hmem hj with hj | rfl
      · exact h.lower j hj v hv
      · rw [hf] at hv
        exact absurd hv (Option.not_mem_none v)
    · rw [h.keys]
      refine ⟨fun hj => ⟨hl hj.1, hj.2⟩, fun hj => ⟨(hmem hj.1).resolve_right ?_, hj.2⟩⟩
      rintro rfl
      exact absurd (hf.symm.trans hj.2) (Option.some_ne_none _).symm
  | some v =>
    by_cases hlt : v < acc.1
    · -- a new least value
      simp only [if_pos hlt]
      refine ⟨fun j hj w hw => ?_, .inr ⟨k, hk, hf⟩, fun j => ?_⟩
      · rcases hmem hj with hj | rfl
        · exact Nat.le_trans hlt.le (h.lower j hj w hw)
        · exact (Option.some_inj.mp (hf.symm.trans hw)).le
      · refine ⟨fun hj => (of_decide_eq_true hj).symm ▸ ⟨hk, hf⟩, fun hj => decide_eq_true ?_⟩
        exact (hmem hj.1).resolve_left fun hjl =>
          absurd (h.lower j hjl v hj.2) (Nat.not_le.mpr hlt)
    · have hge : acc.1 ≤ v := Nat.le_of_not_lt hlt
      have hlower : ∀ j ∈ l ++ [k], ∀ w ∈ f j, acc.1 ≤ w := fun j hj w hw => by
        rcases hmem hj with hj | rfl
        · exact h.lower j hj w hw
        · exact hge.trans (Option.some_inj.mp (hf.symm.trans hw)).le
      simp only [if_neg hlt]
      by_cases heq : v = acc.1
      · simp only [if_pos heq]
        refine ⟨hlower, hattained, fun j => ?_⟩
        rw [Bool.or_eq_true, h.keys, decide_eq_true_iff]
        refine ⟨?_, fun hj => (hmem hj.1).imp_left fun hjl => ⟨hjl, hj.2⟩⟩
        rintro (hj | rfl)
        · exact ⟨hl hj.1, hj.2⟩
        · exact ⟨hk, hf.trans (congrArg some heq)⟩
      · simp only [if_neg heq]
        refine ⟨hlower, hattained, fun j => ?_⟩
        rw [h.keys]
        refine ⟨fun hj => ⟨hl hj.1, hj.2⟩, fun hj => ⟨(hmem hj.1).resolve_right ?_, hj.2⟩⟩
        rintro rfl
        exact heq (Option.some_inj.mp (hf.symm.trans hj.2))

/-- **The search for the least value.** -/
theorem LeastOf.foldl (h : LeastOf f top l acc) :
    LeastOf f top (l ++ l') (l'.foldl (least f) acc) := by
  induction l' generalizing l acc with
  | nil =>
    rw [List.append_nil]
    exact h
  | cons k l' ih =>
    rw [List.append_cons]
    exact ih (h.step k)

omit [DecidableEq κ] in
theorem LeastOf.nil : LeastOf f top [] (top, fun _ => false) :=
  ⟨fun _ h => absurd h List.not_mem_nil, .inl rfl, fun _ => by simp⟩

end

end NextMatch
