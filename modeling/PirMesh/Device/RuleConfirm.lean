import Mathlib.Data.BitVec
import Mathlib.Data.Nat.ModEq
import Mathlib.Tactic.WLOG
import PirMesh.Device.Join

/-! # Device — The divisors of the rule confirmation

`rd_rogo_rule_confirm` chains three calls of `modulo_calculate`, each of which divides
the larger of two numbers by the smaller one.  `Join` takes what the target does with
a zero divisor as a parameter; here such a division is a fault, and whatever ends
without one does not depend on that parameter (`rdRogoRuleConfirm_eq`).

The payload is safe iff each parameter meets the remainder before it: they are the
same number, or neither is zero (`RuleOk`, `ruleConfirm_safe`).  A remainder is zero
iff one of the two numbers divides the other. -/

namespace PirMesh

open Nor

/-- What stops the program. -/
inductive Fault
  | divByZero
  deriving DecidableEq, Repr

/-! ### The chain, with its faults -/

def umodChecked (a b : BitVec 16) : Except Fault (BitVec 16) :=
  if b = 0 then .error .divByZero else .ok (a % b)

/-- `none` is the return value 0. -/
def moduloCalculateChecked (par1 par2 : BitVec 16) : Except Fault (Option (BitVec 16)) :=
  if par2 < par1 then do
    let out ← umodChecked par1 par2
    return some out
  else if par1 < par2 then do
    let out ← umodChecked par2 par1
    return some out
  else return none

def rdRogoRuleConfirmChecked (data : Vector Byte 8) : Except Fault (BitVec 16) := do
  let ⟨param0, param1, param2, param3⟩ := ruleParams data
  match ← moduloCalculateChecked param0 param1 with
  | none => return 0
  | some modulo =>
    match ← moduloCalculateChecked modulo param2 with
    | none => return 0
    | some modulo =>
      let modulo ← moduloCalculateChecked modulo param3
      return modulo.getD 0

/-! ### The condition -/

/-- What `modulo_calculate` leaves of two numbers that differ. -/
def remainder (a b : ℕ) : ℕ := max a b % min a b

/-- `p1` meets `p0`, and so on along the parameters: a parameter is the remainder so far, or
neither of them is zero; a remainder is not zero when neither of its numbers divides the other. -/
def RuleOk (p0 p1 p2 p3 : ℕ) : Prop :=
  p0 = p1 ∨ p0 ≠ 0 ∧ p1 ≠ 0 ∧
    (remainder p0 p1 = p2 ∨ ¬ p0 ∣ p1 ∧ ¬ p1 ∣ p0 ∧ p2 ≠ 0 ∧
      (remainder (remainder p0 p1) p2 = p3 ∨
        ¬ remainder p0 p1 ∣ p2 ∧ ¬ p2 ∣ remainder p0 p1 ∧ p3 ≠ 0))

variable {a b : ℕ}

theorem remainder_comm (a b : ℕ) : remainder a b = remainder b a := by
  rw [remainder, remainder, max_comm, min_comm]

theorem remainder_of_le (h : b ≤ a) : remainder a b = a % b := by
  rw [remainder, max_eq_left h, min_eq_right h]

theorem remainder_eq_zero_iff (ha : a ≠ 0) (hb : b ≠ 0) :
    remainder a b = 0 ↔ a ∣ b ∨ b ∣ a := by
  wlog hle : b ≤ a generalizing a b
  · rw [remainder_comm, this hb ha (Nat.le_of_not_le hle)]
    exact or_comm
  rw [remainder_of_le hle, ← Nat.dvd_iff_mod_eq_zero]
  refine ⟨.inr, fun h => h.elim (fun hab => ?_) fun hba => hba⟩
  -- the larger number divides the smaller one only when they are the same
  rw [Nat.le_antisymm (Nat.le_of_dvd (Nat.pos_of_ne_zero hb) hab) hle]

/-! ### One call -/

variable {x y : BitVec 16}

theorem moduloCalculateChecked_same (x : BitVec 16) : moduloCalculateChecked x x = .ok none := by
  rw [moduloCalculateChecked, if_neg (BitVec.lt_irrefl x), if_neg (BitVec.lt_irrefl x)]
  rfl

/-- What two numbers leave fits where they do. -/
theorem toNat_remainder (x y : BitVec 16) :
    (BitVec.ofNat 16 (remainder x.toNat y.toNat)).toNat = remainder x.toNat y.toNat := by
  refine BitVec.toNat_ofNat .. |>.trans (Nat.mod_eq_of_lt ?_)
  exact (Nat.mod_le _ _).trans_lt (max_lt x.isLt y.isLt)

theorem umodChecked_ok (hy : y ≠ 0) (h : y < x) :
    umodChecked x y = .ok (.ofNat 16 (remainder x.toNat y.toNat)) := by
  rw [umodChecked, if_neg hy]
  congr 1
  apply BitVec.eq_of_toNat_eq
  rw [toNat_remainder, remainder_of_le (Nat.le_of_lt h), BitVec.toNat_umod]

theorem lt_of_not_lt (h : x ≠ y) (hlt : ¬ y < x) : x < y :=
  Nat.lt_of_le_of_ne (Nat.le_of_not_lt hlt) fun he => h (BitVec.eq_of_toNat_eq he)

theorem moduloCalculateChecked_ok (h : x ≠ y) (hx : x ≠ 0) (hy : y ≠ 0) :
    moduloCalculateChecked x y = .ok (some (.ofNat 16 (remainder x.toNat y.toNat))) := by
  rw [moduloCalculateChecked]
  by_cases hlt : y < x
  · rw [if_pos hlt, umodChecked_ok hy hlt]
    rfl
  · have hgt := lt_of_not_lt h hlt
    rw [if_neg hlt, if_pos hgt, umodChecked_ok hx hgt, remainder_comm]
    rfl

theorem moduloCalculateChecked_fault (h : x ≠ y) (h0 : x = 0 ∨ y = 0) :
    moduloCalculateChecked x y = .error .divByZero := by
  rw [moduloCalculateChecked]
  by_cases hlt : y < x
  · obtain rfl | rfl := h0
    · exact absurd hlt (Nat.not_lt_zero _)
    · rw [if_pos hlt]
      rfl
  · have hgt := lt_of_not_lt h hlt
    obtain rfl | rfl := h0
    · rw [if_neg hlt, if_pos hgt]
      rfl
    · exact absurd hgt (Nat.not_lt_zero _)

/-- A call and what follows it end without a fault: the numbers are the same, or neither is zero
and the rest goes on with their remainder. -/
theorem bind_ok_iff {α : Type} {k : Option (BitVec 16) → Except Fault α}
    (hnone : ∃ v, k none = .ok v) :
    (∃ v, (moduloCalculateChecked x y >>= k) = .ok v) ↔
      x.toNat = y.toNat ∨ x.toNat ≠ 0 ∧ y.toNat ≠ 0 ∧
        ∃ v, k (some (.ofNat 16 (remainder x.toNat y.toNat))) = .ok v := by
  by_cases h : x = y
  · obtain rfl := h
    rw [moduloCalculateChecked_same]
    exact iff_of_true hnone (.inl rfl)
  have hne : x.toNat ≠ y.toNat := fun he => h (BitVec.eq_of_toNat_eq he)
  by_cases h0 : x = 0 ∨ y = 0
  · rw [moduloCalculateChecked_fault h h0]
    refine iff_of_false (fun hk => hk.elim fun _ hv => (by cases hv)) fun hk => ?_
    obtain ⟨hx, hy, -⟩ := hk.resolve_left hne
    obtain rfl | rfl := h0
    · exact hx rfl
    · exact hy rfl
  · obtain ⟨hx, hy⟩ := not_or.mp h0
    rw [moduloCalculateChecked_ok h hx hy]
    exact ⟨fun hk => .inr ⟨BitVec.toNat_ne_iff_ne.mpr hx, BitVec.toNat_ne_iff_ne.mpr hy, hk⟩,
      fun hk => (hk.resolve_left hne).2.2⟩

/-- Without a fault the target's answer to a zero divisor does not matter. -/
theorem moduloCalculate_eq (modZero : BitVec 16 → BitVec 16) {out : Option (BitVec 16)}
    (h : moduloCalculateChecked x y = .ok out) : moduloCalculate modZero x y = out := by
  by_cases he : x = y
  · obtain rfl := he
    rw [moduloCalculateChecked_same] at h
    rw [moduloCalculate, if_neg (BitVec.lt_irrefl x), if_neg (BitVec.lt_irrefl x)]
    exact Except.ok.inj h
  by_cases h0 : x = 0 ∨ y = 0
  · rw [moduloCalculateChecked_fault he h0] at h
    cases h
  · obtain ⟨hx, hy⟩ := not_or.mp h0
    rw [moduloCalculateChecked] at h
    simp only [umodChecked, if_neg hx, if_neg hy] at h
    simp only [moduloCalculate, umod, if_neg hx, if_neg hy]
    split
    · rw [if_pos ‹_›] at h
      exact Except.ok.inj h
    · rw [if_neg ‹_›] at h
      split
      · rw [if_pos ‹_›] at h
        exact Except.ok.inj h
      · rw [if_neg ‹_›] at h
        exact Except.ok.inj h

/-! ### The payload -/

/-- **The model with faults is the model of the join procedure**, wherever it ends. -/
theorem rdRogoRuleConfirm_eq (modZero : BitVec 16 → BitVec 16) {data : Vector Byte 8}
    {v : BitVec 16} (h : rdRogoRuleConfirmChecked data = .ok v) :
    rdRogoRuleConfirm modZero data = v := by
  -- a call that is left without a fault has the result of the join procedure's call
  have call {k : Option (BitVec 16) → Except Fault (BitVec 16)}
      {g : BitVec 16 → Option (BitVec 16)} {x y : BitVec 16}
      (hnone : k none = .ok 0) (hsome : ∀ m, k (some m) = .ok v → (g m).getD 0 = v)
      (hk : (moduloCalculateChecked x y >>= k) = .ok v) :
      ((moduloCalculate modZero x y).bind g).getD 0 = v := by
    cases hc : moduloCalculateChecked x y with
    | error => rw [hc] at hk; cases hk
    | ok out =>
      rw [hc] at hk
      rw [moduloCalculate_eq modZero hc]
      cases out with
      | none => exact Except.ok.inj (hnone.symm.trans hk)
      | some m => exact hsome m hk
  refine call rfl (fun m hm => call rfl (fun m' hm' => ?_) hm) h
  have hlast := call (g := some) rfl (fun _ hm => Except.ok.inj hm) hm'
  rwa [Option.bind_fun_some] at hlast

/-- **The divisors of a payload.**  The confirmation ends without a division by zero iff the
parameters of the payload meet. -/
theorem ruleConfirm_safe (data : Vector Byte 8) :
    (∃ v, rdRogoRuleConfirmChecked data = .ok v) ↔
      RuleOk (ruleParams data).param0.toNat (ruleParams data).param1.toNat
        (ruleParams data).param2.toNat (ruleParams data).param3.toNat := by
  rw [rdRogoRuleConfirmChecked, RuleOk]
  obtain ⟨p0, p1, p2, p3⟩ := ruleParams data
  rw [bind_ok_iff ⟨0, rfl⟩]
  refine or_congr_right (and_congr_right fun h0 => and_congr_right fun h1 => ?_)
  -- a remainder is no divisor when one of its numbers divides the other
  rw [bind_ok_iff ⟨0, rfl⟩, toNat_remainder, Ne, remainder_eq_zero_iff h0 h1, not_or, and_assoc]
  refine or_congr_right (and_congr_right fun hr => and_congr_right fun hr' =>
    and_congr_right fun h2 => ?_)
  have hr0 : remainder p0.toNat p1.toNat ≠ 0 := fun hc =>
    (remainder_eq_zero_iff h0 h1).mp hc |>.elim hr hr'
  have hrem := toNat_remainder (.ofNat 16 (remainder p0.toNat p1.toNat)) p2
  rw [toNat_remainder p0 p1] at hrem
  show (∃ v, (moduloCalculateChecked _ p3 >>= fun modulo => pure (modulo.getD 0)) = .ok v) ↔ _
  rw [bind_ok_iff (by exact ⟨_, rfl⟩), hrem, Ne, remainder_eq_zero_iff hr0 h2, not_or, and_assoc]
  exact or_congr_right (and_congr_right fun _ => and_congr_right fun _ =>
    and_iff_left ⟨_, rfl⟩)

/-- The parameters 5 and 0, which are divided at once. -/
theorem ruleConfirm_safe_refuted :
    ¬ ∀ data : Vector Byte 8, ∃ v, rdRogoRuleConfirmChecked data = .ok v := by
  intro h
  obtain ⟨v, hv⟩ := h #v[0, 5, 0, 0, 0, 0, 0, 0]
  cases hv

end PirMesh
