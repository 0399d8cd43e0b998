import Mathlib.Data.List.Basic
import Mathlib.Logic.Relation

/-! # Library — Runs of a labelled system

A system is a set of initial states and a labelled step relation.  A state
is reachable when some finite run leads to it; an invariant is a predicate
that holds initially and survives one step (`Reach.inv`).  `restrict` keeps
only the steps that meet a side condition, so a conditional safety result
is a plain invariant of the restricted system.

A history grows at its end.  `Each P` says `P` of every entry with the history before it; it holds
of a longer history when it holds of the shorter one and of what was added. -/

namespace Run

/-- Initial states and a labelled step relation. -/
structure Sys (σ ε : Type) where
  init : σ → Prop
  step : σ → ε → σ → Prop

variable {σ ε : Type}

namespace Sys

/-- Every label acts as a function of the state. -/
def det (init : σ → Prop) (next : σ → ε → σ) : Sys σ ε where
  init := init
  step s e t := t = next s e

/-- The same system, with only the steps that meet `good`. -/
def restrict (S : Sys σ ε) (good : σ → ε → Prop) : Sys σ ε where
  init := S.init
  step s e t := good s e ∧ S.step s e t

/-- Runs, growing at the end. -/
inductive Steps (S : Sys σ ε) : σ → List ε → σ → Prop
  | refl (s : σ) : Steps S s [] s
  | more {s t u : σ} {es : List ε} {e : ε} : Steps S s es t → S.step t e u → Steps S s (es ++ [e]) u

/-- The states some run from an initial state ends in. -/
inductive Reach (S : Sys σ ε) : σ → Prop
  | init {s : σ} : S.init s → Reach S s
  | step {s t : σ} {e : ε} : Reach S s → S.step s e t → Reach S t

end Sys

variable {S : Sys σ ε}

/-- **Invariant rule.** -/
theorem Sys.Reach.inv {P : σ → Prop} {s : σ} (h : S.Reach s) (base : ∀ s, S.init s → P s)
    (one : ∀ s e t, P s → S.step s e t → P t) : P s := by
  induction h with
  | init h0 => exact base _ h0
  | step _ hst ih => exact one _ _ _ ih hst

/-- The invariant rule for a run that starts anywhere. -/
theorem Sys.Steps.inv {P : σ → Prop} {s t : σ} {es : List ε} (h : S.Steps s es t) (base : P s)
    (one : ∀ s e t, P s → S.step s e t → P t) : P t := by
  induction h with
  | refl => exact base
  | more _ hst ih => exact one _ _ _ ih hst

/-- The state a list of labels leads a deterministic system to. -/
theorem Sys.reach_foldl {init : σ → Prop} {next : σ → ε → σ} {s : σ} (h : (det init next).Reach s)
    (es : List ε) : (det init next).Reach (es.foldl next s) := by
  induction es generalizing s with
  | nil => exact h
  | cons e es ih => exact ih (.step h rfl)

/-- Every step of a run of a deterministic system meets `good`. -/
def GoodRun (next : σ → ε → σ) (good : σ → ε → Prop) : σ → List ε → Prop
  | _, [] => True
  | s, e :: es => good s e ∧ GoodRun next good (next s e) es

instance GoodRun.decidable (next : σ → ε → σ) (good : σ → ε → Prop) [∀ s e, Decidable (good s e)] :
    ∀ s es, Decidable (GoodRun next good s es)
  | _, [] => inferInstanceAs (Decidable True)
  | s, e :: es =>
    have := GoodRun.decidable next good (next s e) es
    inferInstanceAs (Decidable (good s e ∧ GoodRun next good (next s e) es))

theorem goodRun_congr {next : σ → ε → σ} {good good' : σ → ε → Prop}
    (h : ∀ s e, good s e ↔ good' s e) (es : List ε) (s : σ) :
    GoodRun next good s es ↔ GoodRun next good' s es := by
  induction es generalizing s with
  | nil => exact Iff.rfl
  | cons e es ih => exact and_congr (h s e) (ih (next s e))

/-- Two systems whose steps agree along a run end it in one state. -/
theorem GoodRun.foldl_eq {next next' : σ → ε → σ} {es : List ε} {s : σ}
    (h : GoodRun next (fun s e => next s e = next' s e) s es) :
    es.foldl next s = es.foldl next' s := by
  induction es generalizing s with
  | nil => rfl
  | cons e es ih =>
    rw [List.foldl_cons, List.foldl_cons, ← h.1]
    exact ih h.2

theorem GoodRun.mono {next : σ → ε → σ} {good good' : σ → ε → Prop} {es : List ε} {s : σ}
    (h : GoodRun next good s es) (himp : ∀ s e, good s e → good' s e) :
    GoodRun next good' s es := by
  induction es generalizing s with
  | nil => exact trivial
  | cons e es ih => exact ⟨himp s e h.1, ih h.2⟩

theorem GoodRun.of_forall {next : σ → ε → σ} {good : σ → ε → Prop} (h : ∀ s e, good s e)
    (es : List ε) (s : σ) : GoodRun next good s es := by
  induction es generalizing s with
  | nil => exact trivial
  | cons e es ih => exact ⟨h s e, ih (next s e)⟩

theorem goodRun_append {next : σ → ε → σ} {good : σ → ε → Prop} {s : σ} {es es' : List ε} :
    GoodRun next good s (es ++ es') ↔
      GoodRun next good s es ∧ GoodRun next good (es.foldl next s) es' := by
  induction es generalizing s with
  | nil => exact ⟨fun h => ⟨trivial, h⟩, fun h => h.2⟩
  | cons e es ih => exact (and_congr_right fun _ => ih).trans and_assoc.symm

/-- A run is good iff each of its steps is, in the state before it. -/
theorem forall_step_iff_goodRun {next : σ → ε → σ} {good : σ → ε → Prop} {es : List ε} {s : σ} :
    (∀ p e, p ++ [e] <+: es → good (p.foldl next s) e) ↔ GoodRun next good s es := by
  induction es generalizing s with
  | nil =>
    refine iff_of_true (fun p e hp => ?_) trivial
    exact absurd (List.prefix_nil.mp hp)
      (List.append_ne_nil_of_right_ne_nil p (List.cons_ne_nil e []))
  | cons x es ih =>
    constructor
    · intro h
      refine ⟨h [] x (List.prefix_append [x] es), ih.mp fun p e hp => ?_⟩
      exact h (x :: p) e (List.cons_prefix_cons.mpr ⟨rfl, hp⟩)
    · intro h p e hp
      cases p with
      | nil =>
        obtain ⟨rfl, -⟩ := List.cons_prefix_cons.mp hp
        exact h.1
      | cons y p =>
        obtain ⟨rfl, htail⟩ := List.cons_prefix_cons.mp hp
        exact ih.mpr h.2 p e htail

/-- The invariant rule for a good run. -/
theorem GoodRun.inv {next : σ → ε → σ} {good : σ → ε → Prop} {P : σ → Prop} {es : List ε} {s : σ}
    (h : GoodRun next good s es) (base : P s) (one : ∀ s e, P s → good s e → P (next s e)) :
    P (es.foldl next s) := by
  induction es generalizing s with
  | nil => exact base
  | cons e es ih => exact ih h.2 (one s e base h.1)

/-- The state a list of good labels leads to. -/
theorem Sys.reach_foldl_restrict {init : σ → Prop} {next : σ → ε → σ} {good : σ → ε → Prop}
    {s : σ} (h : ((det init next).restrict good).Reach s) {es : List ε}
    (hgood : GoodRun next good s es) : ((det init next).restrict good).Reach (es.foldl next s) := by
  induction es generalizing s with
  | nil => exact h
  | cons e es ih => exact ih (.step h ⟨hgood.1, rfl⟩) hgood.2

/-- The invariant rule with the labels so far. -/
theorem foldl_hist {next : σ → ε → σ} {s : σ} {P : List ε → σ → Prop} (base : P [] s)
    (one : ∀ es t e, P es t → P (es ++ [e]) (next t e)) (es : List ε) :
    P es (es.foldl next s) := by
  have hfrom : ∀ (es pre : List ε) (t : σ), P pre t → P (pre ++ es) (es.foldl next t) := by
    intro es
    induction es with
    | nil =>
      intro pre t h
      rwa [List.append_nil]
    | cons e es ih =>
      intro pre t h
      rw [List.append_cons]
      exact ih _ _ (one pre t e h)
  exact hfrom es [] s base

/-- A loop that looks for something and acts when it finds it. -/
theorem foldl_found {P : σ → Prop → Prop} {f : σ → ε → σ} {q : ε → Prop} {l : List ε}
    (step : ∀ a ∈ l, ∀ s C, P s C → P (f s a) (C ∨ q a)) {s : σ} {C : Prop} (h : P s C) :
    P (l.foldl f s) (C ∨ ∃ a ∈ l, q a) := by
  induction l generalizing s C with
  | nil => simpa using h
  | cons a l ih =>
    have hrest := ih (fun b hb => step b (List.mem_cons_of_mem a hb))
      (step a (List.mem_cons_self) s C h)
    have hmem : (∃ b ∈ a :: l, q b) ↔ q a ∨ ∃ b ∈ l, q b := by simp
    rw [List.foldl_cons, hmem, ← or_assoc]
    exact hrest

/-- A predicate holds in every state of a run iff the run is good, when a step keeps it exactly
if it is good, and good steps keep what that rests on. -/
theorem forall_prefix_iff_goodRun_of_kept {next : σ → ε → σ} {good : σ → ε → Prop}
    {K P : σ → Prop} {es : List ε} {s : σ} (kept : K s) (base : P s)
    (keep : ∀ s, ∀ e ∈ es, K s → P s → good s e → K (next s e))
    (one : ∀ s, ∀ e ∈ es, K s → P s → (P (next s e) ↔ good s e)) :
    (∀ p, p <+: es → P (p.foldl next s)) ↔ GoodRun next good s es := by
  induction es generalizing s with
  | nil => exact iff_of_true (fun p hp => (List.prefix_nil.mp hp) ▸ base) trivial
  | cons e es ih =>
    have hone := one s e List.mem_cons_self kept base
    have hkeep := keep s e List.mem_cons_self kept base
    have hrest : good s e → P (next s e) →
        ((∀ p, p <+: es → P (p.foldl next (next s e))) ↔ GoodRun next good (next s e) es) :=
      fun hgood he => ih (hkeep hgood) he (fun t x hx => keep t x (List.mem_cons_of_mem e hx))
        fun t x hx => one t x (List.mem_cons_of_mem e hx)
    constructor
    · intro h
      have he : P (next s e) := h [e] (List.prefix_append [e] es)
      refine ⟨hone.mp he, (hrest (hone.mp he) he).mp fun p hp => ?_⟩
      exact h (e :: p) (List.cons_prefix_cons.mpr ⟨rfl, hp⟩)
    · intro h p hp
      cases p with
      | nil => exact base
      | cons x p =>
        obtain ⟨rfl, htail⟩ := List.cons_prefix_cons.mp hp
        exact (hrest h.1 (hone.mpr h.1)).mpr h.2 p htail

/-- The same when the predicate rests on nothing else. -/
theorem forall_prefix_iff_goodRun {next : σ → ε → σ} {good : σ → ε → Prop} {P : σ → Prop}
    {es : List ε} {s : σ} (base : P s)
    (one : ∀ s, ∀ e ∈ es, P s → (P (next s e) ↔ good s e)) :
    (∀ p, p <+: es → P (p.foldl next s)) ↔ GoodRun next good s es :=
  forall_prefix_iff_goodRun_of_kept (K := fun _ => True) trivial base (fun _ _ _ _ _ _ => trivial)
    fun s e he _ => one s e he

theorem Sys.Steps.trans {s t u : σ} {es es' : List ε} (h : S.Steps s es t)
    (h' : S.Steps t es' u) : S.Steps s (es ++ es') u := by
  induction h' with
  | refl => rwa [List.append_nil]
  | more _ hst ih =>
    rw [← List.append_assoc]
    exact .more ih hst

/-- A run extends reachability. -/
theorem Sys.Reach.steps {s t : σ} {es : List ε} (h : S.Reach s) (hr : S.Steps s es t) : S.Reach t :=
  hr.inv h fun _ _ _ ih hst => ih.step hst

end Run

/-! ### Histories -/

namespace History

variable {α : Type} {P : List α → α → Prop}

/-- `P` holds of every entry and the history before it. -/
def Each (P : List α → α → Prop) (log : List α) : Prop :=
  ∀ before entry after, log = before ++ entry :: after → P before entry

/-- An entry of a longer history is the one that was added, or one of before. -/
theorem split_snoc {log before after : List α} {last entry : α}
    (h : log ++ [last] = before ++ entry :: after) :
    (before = log ∧ entry = last ∧ after = []) ∨
      ∃ after', after = after' ++ [last] ∧ log = before ++ entry :: after' := by
  rcases List.eq_nil_or_concat' after with rfl | ⟨after', last', rfl⟩
  · obtain ⟨hlog, hentry⟩ := List.append_inj' h rfl
    exact .inl ⟨hlog.symm, (List.cons.inj hentry).1.symm, rfl⟩
  · rw [← List.cons_append, ← List.append_assoc] at h
    obtain ⟨hlog, hlast⟩ := List.append_inj' h rfl
    exact .inr ⟨after', congrArg (after' ++ ·) hlast.symm, hlog⟩

theorem Each.snoc {log : List α} {entry : α} (h : Each P log) (he : P log entry) :
    Each P (log ++ [entry]) := by
  intro before entry' after heq
  rcases split_snoc heq with ⟨rfl, rfl, -⟩ | ⟨after', -, hlog⟩
  · exact he
  · exact h before entry' after' hlog

theorem Each.init {log : List α} {entry : α} (h : Each P (log ++ [entry])) : Each P log := by
  intro before entry' after heq
  refine h before entry' (after ++ [entry]) ?_
  rw [heq, List.append_assoc]
  rfl

theorem Each.last {log : List α} {entry : α} (h : Each P (log ++ [entry])) : P log entry :=
  h log entry [] rfl

/-- Entries of which `P` holds behind any history. -/
theorem Each.append {log entries : List α} (h : Each P log)
    (hentries : ∀ entry ∈ entries, ∀ before, P before entry) : Each P (log ++ entries) := by
  induction entries generalizing log with
  | nil => rwa [List.append_nil]
  | cons entry entries ih =>
    rw [List.append_cons]
    refine ih (h.snoc (hentries entry List.mem_cons_self log)) fun entry' hmem => ?_
    exact hentries entry' (List.mem_cons_of_mem _ hmem)

end History
