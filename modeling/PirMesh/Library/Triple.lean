import Mathlib.Tactic.TypeStar

/-! # Library — Triples of state programs

`Triple P m Q`: from a state with `P`, the program `m` ends with a result and a
state that have `Q`.  The rules follow the program; `Keeps I` is the triple of a
program that leaves the invariant `I` as it is. -/

namespace StateProg

variable {σ α β : Type}

def Triple (P : σ → Prop) (m : StateM σ α) (Q : α → σ → Prop) : Prop :=
  ∀ s, P s → Q (m.run s).1 (m.run s).2

def Keeps (I : σ → Prop) (m : StateM σ α) : Prop := Triple I m fun _ => I

namespace Triple

variable {P P' : σ → Prop} {Q : α → σ → Prop} {R : β → σ → Prop} {m : StateM σ α}

theorem bind {f : α → StateM σ β} (hm : Triple P m Q) (hf : ∀ a, Triple (Q a) (f a) R) :
    Triple P (m >>= f) R := fun s h => hf _ _ (hm s h)

theorem ite {c : Prop} [Decidable c] {m' : StateM σ α} (h : Triple P m Q) (h' : Triple P m' Q) :
    Triple P (if c then m else m') Q := by split <;> assumption

theorem pre (h : Triple P m Q) (hP : ∀ s, P' s → P s) : Triple P' m Q := fun s hs => h s (hP s hs)

end Triple

namespace Keeps

variable {I : σ → Prop} {m : StateM σ α}

theorem pure (a : α) : Keeps I (Pure.pure a : StateM σ α) := fun _ h => h

theorem get : Keeps I (MonadState.get : StateM σ σ) := fun _ h => h

theorem update {f : σ → σ} (hf : ∀ s, I s → I (f s)) : Keeps I (modify f : StateM σ Unit) := hf

theorem step {f : σ → α × σ} (hf : ∀ s, I s → I (f s).2) : Keeps I (modifyGet f : StateM σ α) := hf

theorem bind {f : α → StateM σ β} (hm : Keeps I m) (hf : ∀ a, Keeps I (f a)) : Keeps I (m >>= f) :=
  Triple.bind hm hf

theorem ite {c : Prop} [Decidable c] {m' : StateM σ α} (h : Keeps I m) (h' : Keeps I m') :
    Keeps I (if c then m else m') := Triple.ite h h'

end Keeps

end StateProg
