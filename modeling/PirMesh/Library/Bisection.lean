import Mathlib.Order.Bounds.Basic
import Mathlib.Order.Cover
import Mathlib.Order.Monotone.Basic

/-! # Library — Bisection of a growing function

The greatest place whose value is at most `x` is between two ends, one with a value of at most `x`
and one above.  A turn looks at a place in between and takes the half that keeps this
(`Between.lower`, `Between.upper`); neighbours leave one place (`Between.isGreatest`), and so does a
value that is `x` itself. -/

namespace Bisection

variable {α β : Type*} [Preorder β] {f : α → β} {x : β} {lo mid hi : α}

/-- `x` is reached at `lo` and passed at `hi`. -/
structure Between (f : α → β) (x : β) (lo hi : α) : Prop where
  le : f lo ≤ x
  lt : x < f hi

theorem Between.lower (h : Between f x lo hi) (hmid : x < f mid) : Between f x lo mid :=
  ⟨h.le, hmid⟩

theorem Between.upper (h : Between f x lo hi) (hmid : f mid ≤ x) : Between f x mid hi :=
  ⟨hmid, h.lt⟩

variable [LinearOrder α]

theorem Between.ends (hf : StrictMono f) (h : Between f x lo hi) : lo < hi :=
  hf.lt_iff_lt.mp (h.le.trans_lt h.lt)

/-- Neighbours leave one place. -/
theorem Between.isGreatest (hf : StrictMono f) (h : Between f x lo hi) (hadj : lo ⋖ hi) :
    IsGreatest {r | f r ≤ x} lo := by
  refine ⟨h.le, fun r hr => ?_⟩
  have hlt : r < hi := Between.ends hf ⟨hr, h.lt⟩
  exact le_of_not_gt fun hgt => hadj.2 hgt hlt

theorem isGreatest_of_eq (hf : StrictMono f) (h : f mid = x) : IsGreatest {r | f r ≤ x} mid :=
  ⟨h.le, fun _ hr => hf.le_iff_le.mp (h ▸ hr)⟩

end Bisection
