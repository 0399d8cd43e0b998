import PirMesh.Library.Run

/-! # Library — Programs that tell what they access

A program comes with a list of what it accesses on the way to its value.  `Within ok` says that
all of that is allowed.  Its rules follow the program, and a loop stays within if each of its
turns does (`within_foldlM`). -/

namespace Accesses

open Run

/-- A value, and what is accessed on the way to it. -/
structure Traced (ι α : Type) where
  val : α
  log : List ι

variable {ι α β σ : Type}

namespace Traced

instance : Monad (Traced ι) where
  pure a := ⟨a, []⟩
  bind x f := ⟨(f x.val).val, x.log ++ (f x.val).log⟩

/-- An access that tells nothing. -/
def touch (i : ι) : Traced ι Unit := ⟨(), [i]⟩

/-- An access that finds a value. -/
def look (i : ι) (a : α) : Traced ι α := ⟨a, [i]⟩

def Within (ok : ι → Prop) (x : Traced ι α) : Prop := ∀ i ∈ x.log, ok i

instance (ok : ι → Prop) [DecidablePred ok] (x : Traced ι α) : Decidable (x.Within ok) :=
  inferInstanceAs (Decidable (∀ i ∈ x.log, ok i))

/-! ### Values -/

@[simp] theorem val_pure (a : α) : (pure a : Traced ι α).val = a := rfl

@[simp] theorem val_bind (x : Traced ι α) (f : α → Traced ι β) :
    (x >>= f).val = (f x.val).val := rfl

@[simp] theorem val_touch (i : ι) : (touch i).val = () := rfl

@[simp] theorem val_look (i : ι) (a : α) : (look i a).val = a := rfl

theorem val_ite {c : Prop} [Decidable c] (x y : Traced ι α) :
    (if c then x else y).val = if c then x.val else y.val := apply_ite val ..

theorem val_foldlM (f : σ → α → Traced ι σ) (l : List α) (s : σ) :
    (l.foldlM f s).val = l.foldl (fun s a => (f s a).val) s := by
  induction l generalizing s with
  | nil => rfl
  | cons a l ih => exact ih (f s a).val

/-! ### Accesses -/

variable {ok : ι → Prop}

@[simp] theorem within_pure (a : α) : (pure a : Traced ι α).Within ok := by
  intro i hi
  cases hi

@[simp] theorem within_touch (i : ι) : (touch i).Within ok ↔ ok i := List.forall_mem_singleton

@[simp] theorem within_look (i : ι) (a : α) : (look i a).Within ok ↔ ok i :=
  List.forall_mem_singleton

@[simp] theorem within_bind (x : Traced ι α) (f : α → Traced ι β) :
    (x >>= f).Within ok ↔ x.Within ok ∧ (f x.val).Within ok := List.forall_mem_append

theorem within_ite {c : Prop} [Decidable c] (x y : Traced ι α) :
    (if c then x else y).Within ok ↔ if c then x.Within ok else y.Within ok := by
  split <;> rfl

/-- A loop stays within exactly if its turns do. -/
theorem within_foldlM (f : σ → α → Traced ι σ) (l : List α) (s : σ) :
    (l.foldlM f s).Within ok ↔
      GoodRun (fun s a => (f s a).val) (fun s a => (f s a).Within ok) s l := by
  induction l generalizing s with
  | nil => exact iff_of_true (within_pure s) trivial
  | cons a l ih => exact (within_bind (f s a) _).trans (and_congr_right fun _ => ih _)

/-- A loop whose turns are allowed or not whatever was before. -/
theorem within_foldlM_iff {f : σ → α → Traced ι σ} {q : α → Prop}
    (h : ∀ s a, (f s a).Within ok ↔ q a) (l : List α) (s : σ) :
    (l.foldlM f s).Within ok ↔ ∀ a ∈ l, q a := by
  induction l generalizing s with
  | nil => exact iff_of_true (within_pure s) (List.forall_mem_nil q)
  | cons a l ih =>
    rw [List.forall_mem_cons]
    exact (within_bind (f s a) _).trans (and_congr (h s a) (ih _))

theorem Within.mono {ok' : ι → Prop} {x : Traced ι α} (h : x.Within ok)
    (himp : ∀ i, ok i → ok' i) : x.Within ok' := fun i hi => himp i (h i hi)

end Traced

end Accesses
