import Mathlib.Algebra.Order.Group.Nat
import Mathlib.Order.Lattice
import PirMesh.Library.Run
import PirMesh.Library.Triple

/-! # Library — A coarse clock and its stamps

A counter that wraps at `wrap` is read in units of `unit` (`units`).  Between two
instants the units that begin are `passed`; without a wrap they are what the units
moved on by (`units_eq_add`), and a stamp that keeps the units modulo `m` falls short
by a multiple of `m` (`units_sub_stamp`).

`stampSys` is a device with a register that holds the stamp of an instant: a step
saves a new one or leaves the register as it is.  A program that does nothing else is
a run of it (`Traced`). -/

namespace CoarseClock

open Run StateProg

variable {wrap unit m r n n' : ℕ}

/-! ### Units -/

def units (wrap unit n : ℕ) : ℕ := n % wrap / unit

/-- Where the counter would stand at `n`, had it not wrapped since `r`. -/
def onward (wrap r n : ℕ) : ℕ := r % wrap + (n - r)

/-- The units that begin between `r` and `n`. -/
def passed (wrap unit r n : ℕ) : ℕ := onward wrap r n / unit - units wrap unit r

theorem onward_mono (h : n ≤ n') : onward wrap r n ≤ onward wrap r n' :=
  Nat.add_le_add_left (Nat.sub_le_sub_right h r) _

theorem onward_mod (h : r ≤ n) : onward wrap r n % wrap = n % wrap := by
  rw [onward, Nat.mod_add_mod, Nat.add_sub_cancel' h]

theorem units_of_onward_lt (h : r ≤ n) (hw : onward wrap r n < wrap) :
    units wrap unit n = onward wrap r n / unit := by
  rw [units, ← onward_mod h, Nat.mod_eq_of_lt hw]

theorem units_le_onward (wrap unit r n : ℕ) : units wrap unit r ≤ onward wrap r n / unit :=
  Nat.div_le_div_right (Nat.le_add_right _ _)

/-- Without a wrap the units move on by what passes. -/
theorem units_eq_add (h : r ≤ n) (hw : onward wrap r n < wrap) :
    units wrap unit n = units wrap unit r + passed wrap unit r n := by
  rw [units_of_onward_lt h hw, passed, Nat.add_sub_cancel' (units_le_onward wrap unit r n)]

/-- A stamp falls short of the units by a multiple of `m`. -/
theorem units_sub_stamp (h : r ≤ n) (hw : onward wrap r n < wrap) :
    units wrap unit n - units wrap unit r % m =
      passed wrap unit r n + m * (units wrap unit r / m) := by
  rw [units_eq_add h hw]
  have hdiv := Nat.mod_add_div (units wrap unit r) m
  omega

theorem stamp_le (h : r ≤ n) (hw : onward wrap r n < wrap) :
    units wrap unit r % m ≤ units wrap unit n := by
  rw [units_eq_add h hw]
  exact (Nat.mod_le _ _).trans (Nat.le_add_right _ _)

/-- Whole units apart, as many units begin in between. -/
theorem le_passed (hu : 0 < unit) {k : ℕ} (h : k * unit ≤ n - r) : k ≤ passed wrap unit r n := by
  have hadd : units wrap unit r + k ≤ onward wrap r n / unit := by
    rw [units, ← Nat.add_mul_div_right _ _ hu, onward]
    exact Nat.div_le_div_right (Nat.add_le_add_left h _)
  exact Nat.le_sub_of_add_le (Nat.add_comm _ k ▸ hadd)

/-! ### A register that holds a stamp -/

variable {δ ρ α β : Type}

structure Stamped (δ : Type) where
  dev : δ
  /-- The instant of the last save. -/
  stamp : ℕ
  clock : ℕ

inductive StampEvent (δ : Type)
  | save (dev : δ) (n : ℕ)
  | other (dev : δ) (n : ℕ)

def stampStep (reg : δ → ρ) (stored : ℕ → ρ) (s : Stamped δ) : StampEvent δ → Stamped δ → Prop
  | .save dev n, t => s.clock ≤ n ∧ reg dev = stored n ∧ t = ⟨dev, n, n⟩
  | .other dev n, t => s.clock ≤ n ∧ reg dev = reg s.dev ∧ t = ⟨dev, s.stamp, n⟩

def stampSys (reg : δ → ρ) (stored : ℕ → ρ) : Sys (Stamped δ) (StampEvent δ) where
  init s := reg s.dev = stored s.stamp ∧ s.stamp ≤ s.clock
  step := stampStep reg stored

variable {reg : δ → ρ} {stored : ℕ → ρ} {s : Stamped δ}

/-- The register holds the stamp of the last save. -/
theorem stamp_of_reach (h : (stampSys reg stored).Reach s) :
    reg s.dev = stored s.stamp ∧ s.stamp ≤ s.clock := by
  refine h.inv (P := fun s => reg s.dev = stored s.stamp ∧ s.stamp ≤ s.clock)
    (fun _ h0 => ⟨h0.1, h0.2⟩) fun s e t hs hst => ?_
  cases e with
  | save dev n =>
    obtain ⟨-, hreg, rfl⟩ := hst
    exact ⟨hreg, le_rfl⟩
  | other dev n =>
    obtain ⟨hle, hreg, rfl⟩ := hst
    exact ⟨hreg.trans hs.1, hs.2.trans hle⟩

/-! ### Programs as runs -/

section

-- the instants of the reads a program makes, which it numbers by `now`
variable {now : δ → ℕ} {clk : ℕ → ℕ} {m : StateM δ α}

/-- The program takes the device along a run. -/
def Traced (reg : δ → ρ) (stored : ℕ → ρ) (now : δ → ℕ) (clk : ℕ → ℕ) (m : StateM δ α) : Prop :=
  ∀ s : Stamped δ, s.clock ≤ clk (now s.dev) → ∃ es t, (stampSys reg stored).Steps s es t ∧
    t.clock ≤ clk (now t.dev) ∧ t.dev = (m.run s.dev).2

theorem Traced.bind {f : α → StateM δ β} (hm : Traced reg stored now clk m)
    (hf : ∀ a, Traced reg stored now clk (f a)) : Traced reg stored now clk (m >>= f) := by
  intro s hs
  obtain ⟨es, t, hrun, ht, hdev⟩ := hm s hs
  obtain ⟨es', u, hrun', hu, hdev'⟩ := hf (m.run s.dev).1 t ht
  exact ⟨es ++ es', u, hrun.trans hrun', hu, hdev'.trans (by rw [hdev]; rfl)⟩

theorem Traced.ite {c : Prop} [Decidable c] {m' : StateM δ α}
    (h : Traced reg stored now clk m) (h' : Traced reg stored now clk m') :
    Traced reg stored now clk (if c then m else m') := by split <;> assumption

/-- A program that leaves the register as it is. -/
theorem Traced.keep (hclk : Monotone clk)
    (h : ∀ v n, Keeps (fun d => reg d = v ∧ n ≤ now d) m) : Traced reg stored now clk m := by
  intro s hs
  obtain ⟨hreg, hnow⟩ := h (reg s.dev) (now s.dev) s.dev ⟨rfl, le_rfl⟩
  exact ⟨[.other (m.run s.dev).2 s.clock], ⟨(m.run s.dev).2, s.stamp, s.clock⟩,
    .more (.refl s) ⟨le_rfl, hreg, rfl⟩, hs.trans (hclk hnow), rfl⟩

/-- A program that saves the instant of its first read. -/
theorem Traced.save (hclk : Monotone clk) (hreg : ∀ d, reg (m.run d).2 = stored (clk (now d)))
    (hnow : ∀ d, now d ≤ now (m.run d).2) : Traced reg stored now clk m := by
  intro s hs
  exact ⟨[.save (m.run s.dev).2 (clk (now s.dev))], ⟨_, _, _⟩,
    .more (.refl s) ⟨hs, hreg s.dev, rfl⟩, hclk (hnow s.dev), rfl⟩

end

end CoarseClock
