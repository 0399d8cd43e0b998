import Mathlib.Data.BitVec
import Mathlib.Data.ENat.Lattice
import Mathlib.Data.Nat.Count
import Mathlib.Order.CompleteBooleanAlgebra
import Mathlib.Order.CompletePartialOrder
import Mathlib.Order.Monotone.Basic

/-! # Library — Something sent at a pace

A device is polled at the times `time n` and reads them from a wrapping clock of `w`
bits.  It keeps the reading of the last sending (`ref`), and a poll sends when there is
more to send and the clock is more than `span` beyond `ref`.  Two sendings are then
more than `span` apart (`Paced.apart`), and as long as the polls go on
(`GoesOn`) everything there is to send is sent (`Paced.count_reaches`). -/

namespace Pacing

variable {w span : ℕ} {time : ℕ → ℕ} {more sends : ℕ → Prop} {ref : ℕ → BitVec w}

/-- `ref` and `sends` of the polls at `time`. -/
structure Paced (w span : ℕ) (time : ℕ → ℕ) (more sends : ℕ → Prop)
    (ref : ℕ → BitVec w) : Prop where
  sends_iff (n : ℕ) : sends n ↔ more n ∧ span < (BitVec.ofNat w (time n) - ref n).toNat
  ref_of_sends (n : ℕ) : sends n → ref (n + 1) = BitVec.ofNat w (time n)
  ref_of_not (n : ℕ) : ¬ sends n → ref (n + 1) = ref n

/-- The polls never end, and do not leave the clock enough time to wrap. -/
structure GoesOn (w span : ℕ) (time : ℕ → ℕ) : Prop where
  mono : Monotone time
  unbounded (t : ℕ) : ∃ n, t < time n
  dense (n : ℕ) : time (n + 1) + span < time n + 2 ^ w

/-- What the clock shows never exceeds the time that has passed. -/
theorem toNat_sub_le {s t : ℕ} (h : s ≤ t) :
    (BitVec.ofNat w t - BitVec.ofNat w s).toNat ≤ t - s := by
  obtain ⟨d, rfl⟩ := Nat.exists_eq_add_of_le h
  rw [BitVec.ofNat_add, add_sub_cancel_left, Nat.add_sub_cancel_left, BitVec.toNat_ofNat]
  exact Nat.mod_le d _

theorem toNat_sub_of_lt {s t : ℕ} (h : s ≤ t) (hlt : t < s + 2 ^ w) :
    (BitVec.ofNat w t - BitVec.ofNat w s).toNat = t - s := by
  obtain ⟨d, rfl⟩ := Nat.exists_eq_add_of_le h
  rw [BitVec.ofNat_add, add_sub_cancel_left, Nat.add_sub_cancel_left, BitVec.toNat_ofNat,
    Nat.mod_eq_of_lt (Nat.lt_of_add_lt_add_left hlt)]

namespace Paced

/-- After a sending `ref` is the reading of the last one. -/
theorem ref_last (h : Paced w span time more sends ref) {n i : ℕ} (hi : i < n) (hs : sends i) :
    ∃ j, i ≤ j ∧ j < n ∧ sends j ∧ ref n = BitVec.ofNat w (time j) := by
  induction n with
  | zero => exact absurd hi (Nat.not_lt_zero i)
  | succ n ih =>
    by_cases hn : sends n
    · exact ⟨n, Nat.le_of_lt_succ hi, n.lt_succ_self, hn, h.ref_of_sends n hn⟩
    · have hne : i ≠ n := fun heq => hn (heq ▸ hs)
      obtain ⟨j, hij, hjn, hj, href⟩ := ih ((Nat.le_of_lt_succ hi).lt_of_ne hne)
      exact ⟨j, hij, hjn.trans n.lt_succ_self, hj, (h.ref_of_not n hn).trans href⟩

theorem apart (h : Paced w span time more sends ref) (hmono : Monotone time) {i j : ℕ}
    (hij : i < j) (hi : sends i) (hj : sends j) : time i + span < time j := by
  obtain ⟨k, hik, hkj, -, href⟩ := h.ref_last hij hi
  have hlt := ((h.sends_iff j).mp hj).2
  rw [href] at hlt
  have hle := toNat_sub_le (w := w) (hmono hkj.le)
  have hki := hmono hik
  omega

/-- While there is more to send a later poll sends. -/
theorem exists_sends (h : Paced w span time more sends ref) (hon : GoesOn w span time) {n : ℕ}
    (hmore : ∀ m, n ≤ m → (∀ k, n ≤ k → k < m → ¬ sends k) → more m) : ∃ m, n ≤ m ∧ sends m := by
  by_contra hnone
  push Not at hnone
  have href : ∀ d, ref (n + d) = ref n := by
    intro d
    induction d with
    | zero => rfl
    | succ d ih => exact (h.ref_of_not _ (hnone _ (Nat.le_add_right n d))).trans ih
  -- a time from `time n` on at which the clock shows `ref n`
  obtain ⟨l, hl, hread⟩ : ∃ l, time n ≤ l ∧ BitVec.ofNat w l = ref n := by
    refine ⟨time n + (ref n - BitVec.ofNat w (time n)).toNat, Nat.le_add_right _ _, ?_⟩
    rw [BitVec.ofNat_add, BitVec.ofNat_toNat, BitVec.setWidth_eq, add_sub_cancel]
  -- the first poll that is more than `span` beyond it
  have hex := hon.unbounded (l + span)
  obtain ⟨m, hm, hmin⟩ : ∃ m, l + span < time m ∧ ∀ k < m, ¬ l + span < time k :=
    ⟨Nat.find hex, Nat.find_spec hex, fun k hk => Nat.find_min hex hk⟩
  have hnm : n < m := by
    by_contra hle
    have hmn := hon.mono (Nat.le_of_not_lt hle)
    omega
  obtain ⟨d, rfl⟩ := Nat.exists_eq_add_of_lt hnm
  have hprev := hmin (n + d) (Nat.lt_succ_self _)
  have hdense := hon.dense (n + d)
  refine hnone (n + d + 1) (by omega) ((h.sends_iff _).mpr ⟨hmore _ (by omega) fun k hk _ =>
    hnone k hk, ?_⟩)
  rw [show n + d + 1 = n + (d + 1) from rfl, href, ← hread, toNat_sub_of_lt]
  all_goals rw [Nat.add_assoc] at hm hdense
  all_goals omega

/-- A number that `more` allows is reached. -/
theorem count_reaches [DecidablePred sends] (h : Paced w span time more sends ref)
    (hon : GoesOn w span time) {m : ℕ} (hmore : ∀ n, Nat.count sends n < m → more n) :
    ∃ n, Nat.count sends n = m := by
  induction m with
  | zero => exact ⟨0, Nat.count_zero _⟩
  | succ m ih =>
    obtain ⟨n, hn⟩ := ih fun n hlt => hmore n (hlt.trans m.lt_succ_self)
    -- between `n` and the next sending the count stays
    have hcount : ∀ d, (∀ k, n ≤ k → k < n + d → ¬ sends k) → Nat.count sends (n + d) = m := by
      intro d hd
      rw [Nat.count_add, hn, Nat.count_iff_forall_not.mpr, Nat.add_zero]
      exact fun k hk => hd (n + k) (Nat.le_add_right n k) (Nat.add_lt_add_left hk n)
    have hex : ∃ d, sends (n + d) := by
      obtain ⟨k, hk, hs⟩ := h.exists_sends hon (n := n) fun k hk hnone => by
        obtain ⟨d, rfl⟩ := Nat.exists_eq_add_of_le hk
        exact hmore _ ((hcount d hnone).trans_lt m.lt_succ_self)
      obtain ⟨d, rfl⟩ := Nat.exists_eq_add_of_le hk
      exact ⟨d, hs⟩
    refine ⟨n + Nat.find hex + 1, ?_⟩
    rw [Nat.count_succ, if_pos (Nat.find_spec hex), hcount]
    intro k hk hlt
    obtain ⟨d, rfl⟩ := Nat.exists_eq_add_of_le hk
    exact Nat.find_min hex (Nat.lt_of_add_lt_add_left hlt)

/-- As many are sent as there are to send. -/
theorem iSup_count [DecidablePred sends] (h : Paced w span time more sends ref)
    (hon : GoesOn w span time) {c : ℕ∞} (hle : ∀ n, (Nat.count sends n : ℕ∞) ≤ c)
    (hmore : ∀ n, (Nat.count sends n : ℕ∞) < c → more n) :
    ⨆ n, (Nat.count sends n : ℕ∞) = c := by
  refine le_antisymm (iSup_le hle) (le_of_forall_lt fun b hb => ?_)
  obtain ⟨m, rfl⟩ := ENat.ne_top_iff_exists.mp (hb.trans_le le_top).ne
  have hsucc : ((m + 1 : ℕ) : ℕ∞) ≤ c := by
    exact_mod_cast Order.add_one_le_of_lt hb
  obtain ⟨n, hn⟩ := h.count_reaches hon (m := m + 1) fun n hlt =>
    hmore n ((Nat.cast_lt.mpr hlt).trans_le hsucc)
  refine lt_of_lt_of_le ?_ (le_iSup _ n)
  rw [hn]
  exact_mod_cast m.lt_succ_self

end Paced

end Pacing
