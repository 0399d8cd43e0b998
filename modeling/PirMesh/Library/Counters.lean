import Mathlib.Algebra.BigOperators.Group.List.Basic
import Mathlib.Algebra.GroupWithZero.Nat
import Mathlib.Data.BitVec
import Mathlib.Data.List.Nodup
import Mathlib.Data.Set.BooleanAlgebra
import Mathlib.Data.Set.Disjoint
import Mathlib.Order.Basic
import Mathlib.Order.CompletePartialOrder

/-! # Library — Counters

Two readings of a counter of `w` bits are compared by their difference: `b` does
not come before `a` when `b - a` is below `q`.  Among readings that lie within `q`
of some `base` (`Within`), with `2 * q ≤ 2 ^ w`, this is the order of their
distances from `base` (`notBefore_iff`), so it is total and transitive there.

A counter hands out ranges: each begins where the counter stands, and the counter
moves on by its length (`Cut`).  As long as no more than `2 ^ w` numbers were handed
out, no number was handed out twice (`Cut.disjoint`), wherever the counter began and
whether or not it wrapped.

A dispenser stands at a value of a preorder and hands out the value it stands at only
when it moves strictly up in the same step; it may move up at any time.  So what it
hands out is increasing (`Draw.increasing`), and nothing is handed out twice
(`Draw.nodup`). -/

/-! ### Two readings -/

namespace Circular

variable {w q : Nat} {a b c base : BitVec w}

def NotBefore (q : Nat) (a b : BitVec w) : Prop := (b - a).toNat < q

instance : Decidable (NotBefore q a b) := inferInstanceAs (Decidable ((b - a).toNat < q))

/-- How far `a` is from `base`. -/
def off (base a : BitVec w) : Nat := (a - base).toNat

def Within (q : Nat) (base a : BitVec w) : Prop := off base a < q

instance : Decidable (Within q base a) := inferInstanceAs (Decidable (off base a < q))

theorem notBefore_iff (hq : 2 * q ≤ 2 ^ w) (ha : Within q base a) (hb : Within q base b) :
    NotBefore q a b ↔ off base a ≤ off base b := by
  have hsub : b - a = (b - base) - (a - base) := (sub_sub_sub_cancel_right b a base).symm
  unfold Within off at ha hb
  unfold NotBefore off
  rw [hsub, BitVec.toNat_sub]
  by_cases hle : (a - base).toNat ≤ (b - base).toNat
  · have hshift : 2 ^ w - (a - base).toNat + (b - base).toNat =
        2 ^ w + ((b - base).toNat - (a - base).toNat) := by omega
    rw [hshift, Nat.add_mod_left, Nat.mod_eq_of_lt (by omega)]
    exact iff_of_true (by omega) hle
  · rw [Nat.mod_eq_of_lt (by omega)]
    exact iff_of_false (by omega) hle

end Circular

/-! ### Ranges -/

namespace Cuts

variable {w n off : ℕ} {first next x : BitVec w} {l : List (BitVec w × ℕ)}

/-- The `n` numbers from `a` on. -/
def span (a : BitVec w) (n : ℕ) : Set (BitVec w) := {x | (x - a).toNat < n}

/-- `Cut first l next`: from `first` on the ranges `l` were cut off, the newest at the head,
and the counter stands at `next`. -/
inductive Cut (first : BitVec w) : List (BitVec w × ℕ) → BitVec w → Prop
  | nil : Cut first [] first
  | cons {l : List (BitVec w × ℕ)} {next : BitVec w} (n : ℕ) :
      Cut first l next → Cut first ((next, n) :: l) (next + BitVec.ofNat w n)

/-- How many numbers were handed out. -/
def total (l : List (BitVec w × ℕ)) : ℕ := (l.map Prod.snd).sum

@[simp] theorem total_cons (a : BitVec w) (n : ℕ) (l : List (BitVec w × ℕ)) :
    total ((a, n) :: l) = n + total l := List.sum_cons

/-- A range that does not reach around, measured from `first`. -/
theorem mem_span_iff (h : off + n ≤ 2 ^ w) : x ∈ span (first + BitVec.ofNat w off) n ↔
    off ≤ (x - first).toNat ∧ (x - first).toNat < off + n := by
  obtain rfl | hn := Nat.eq_zero_or_pos n
  · refine iff_of_false (Nat.not_lt_zero _) fun hc => ?_
    exact absurd (hc.1.trans_lt hc.2) (lt_irrefl off)
  have hoff : off < 2 ^ w := by
    omega
  have hsub : x - (first + BitVec.ofNat w off) = x - first - BitVec.ofNat w off :=
    sub_add_eq_sub_sub x first _
  have hlt := (x - first).isLt
  change (x - (first + BitVec.ofNat w off)).toNat < n ↔ _
  rw [hsub, BitVec.toNat_sub, BitVec.toNat_ofNat, Nat.mod_eq_of_lt hoff]
  obtain hgt | hle := Nat.lt_or_ge (x - first).toNat off
  · rw [Nat.mod_eq_of_lt (by omega)]
    omega
  · rw [show 2 ^ w - off + (x - first).toNat = (x - first).toNat - off + 2 ^ w by omega,
      Nat.add_mod_right, Nat.mod_eq_of_lt (by omega)]
    omega

theorem Cut.next_eq (h : Cut first l next) : next = first + BitVec.ofNat w (total l) := by
  induction h with
  | nil => exact (BitVec.add_zero first).symm
  | cons n _ ih =>
    rw [total_cons, Nat.add_comm, BitVec.ofNat_add, ← BitVec.add_assoc, ← ih]

/-- Every range lies between `first` and the counter. -/
theorem Cut.lt (h : Cut first l next) (hle : total l ≤ 2 ^ w) {p : BitVec w × ℕ} (hp : p ∈ l)
    (hx : x ∈ span p.1 p.2) : (x - first).toNat < total l := by
  induction h with
  | nil => exact absurd hp List.not_mem_nil
  | @cons l next n hcut ih =>
    rw [total_cons] at hle ⊢
    obtain rfl | hp := List.mem_cons.mp hp
    · rw [hcut.next_eq, mem_span_iff (by omega)] at hx
      omega
    · exact (ih (by omega) hp).trans_le (Nat.le_add_left _ n)

/-- **Nothing is handed out twice.** -/
theorem Cut.disjoint (h : Cut first l next) (hle : total l ≤ 2 ^ w) :
    l.Pairwise fun p q => Disjoint (span p.1 p.2) (span q.1 q.2) := by
  induction h with
  | nil => exact .nil
  | @cons l next n hcut ih =>
    rw [total_cons] at hle
    refine List.pairwise_cons.mpr ⟨fun q hq => ?_, ih (by omega)⟩
    refine Set.disjoint_left.mpr fun x hx hxq => ?_
    have hlt := hcut.lt (by omega) hq hxq
    rw [hcut.next_eq, mem_span_iff (by omega)] at hx
    exact absurd hx.1 (Nat.not_le_of_lt hlt)

end Cuts

/-! ### Dispensers -/

namespace Dispenser

variable {α : Type} [Preorder α]

/-- `Draw v es`: the dispenser has handed out `es`, and stands at `v`. -/
inductive Draw : α → List α → Prop
  | start (v : α) : Draw v []
  | rise {v w : α} {es : List α} : Draw v es → v ≤ w → Draw w es
  | emit {v w : α} {es : List α} : Draw v es → v < w → Draw w (es ++ [v])

variable {v : α} {es : List α}

/-- What was handed out lies below the value it stands at. -/
theorem Draw.lt (h : Draw v es) : ∀ e ∈ es, e < v := by
  induction h with
  | start v => exact fun e he => absurd he List.not_mem_nil
  | rise _ hvw ih => exact fun e he => lt_of_lt_of_le (ih e he) hvw
  | emit _ hvw ih =>
    intro e he
    rcases List.mem_append.mp he with he | he
    · exact lt_trans (ih e he) hvw
    · obtain rfl := List.mem_singleton.mp he
      exact hvw

theorem Draw.increasing (h : Draw v es) : es.Pairwise (· < ·) := by
  induction h with
  | start v => exact List.Pairwise.nil
  | rise _ _ ih => exact ih
  | emit hd _ ih =>
    refine List.pairwise_append.mpr ⟨ih, List.pairwise_singleton _ _, fun a ha b hb => ?_⟩
    obtain rfl := List.mem_singleton.mp hb
    exact hd.lt a ha

/-- **Nothing is handed out twice.** -/
theorem Draw.nodup (h : Draw v es) : es.Nodup := h.increasing.imp fun hab => ne_of_lt hab

end Dispenser
