import Mathlib.Data.List.Basic
import Mathlib.Data.List.GetD

/-! # Library — A log of slots with commit marks

A record is stored by appending a slot: the slot is opened (pending), filled,
committed, and then the slot before it is retired.  What the log stores is the
data of its last committed slot (`current`).

`appendStates` lists the logs an append goes through.  Main results:

  * `current_append` — a completed append stores its record;
  * `current_appendStates` — every log on the way stores the old record or
    the new one. -/

namespace CommitLog

inductive Mark
  | pending
  | committed
  | retired
  deriving DecidableEq, Repr

structure Slot (α : Type) where
  mark : Mark
  data : α
  deriving DecidableEq

abbrev Log (α : Type) := List (Slot α)

variable {α : Type}

namespace Log

/-- What reading one more slot makes of the record found so far. -/
def scan (found : Option α) (s : Slot α) : Option α :=
  match s.mark with
  | .committed => some s.data
  | _ => found

/-- The record the log stores: the last committed one. -/
def current (l : Log α) : Option α := l.foldl scan none

/-- The log with its last slot retired. -/
def retireLast (l : Log α) : Log α :=
  match l.getLast? with
  | none => []
  | some s => l.dropLast ++ [{ s with mark := .retired }]

/-- The log after a completed append. -/
def append (l : Log α) (x : α) : Log α := l.retireLast ++ [⟨.committed, x⟩]

/-- The logs an append goes through; `old` is what an opened slot holds. -/
def appendStates (l : Log α) (old x : α) : List (Log α) :=
  [l, l ++ [⟨.pending, old⟩], l ++ [⟨.pending, x⟩], l ++ [⟨.committed, x⟩], l.append x]

/-- The log once an append has made `n` of its steps. -/
def appendAfter (l : Log α) (old x : α) (n : Nat) : Log α :=
  (l.appendStates old x).getD n (l.append x)

/-! ### What is stored -/

@[simp] theorem current_nil : current ([] : Log α) = none := rfl

@[simp] theorem current_snoc (l : Log α) (s : Slot α) : current (l ++ [s]) = scan l.current s := by
  simp [current]

@[simp] theorem scan_committed (o : Option α) (x : α) : scan o ⟨.committed, x⟩ = some x := rfl

@[simp] theorem scan_pending (o : Option α) (x : α) : scan o ⟨.pending, x⟩ = o := rfl

/-- **A completed append stores its record.** -/
theorem current_append (l : Log α) (x : α) : (l.append x).current = some x := by simp [append]

/-- **Every log on the way stores the old record or the new one.** -/
theorem current_appendStates {l l' : Log α} {old x : α} (h : l' ∈ l.appendStates old x) :
    l'.current = l.current ∨ l'.current = some x := by
  simp only [appendStates, List.mem_cons, List.not_mem_nil, or_false] at h
  rcases h with rfl | rfl | rfl | rfl | rfl
  · exact .inl rfl
  · exact .inl (by simp)
  · exact .inl (by simp)
  · exact .inr (by simp)
  · exact .inr (current_append ..)

@[simp] theorem appendAfter_zero (l : Log α) (old x : α) : l.appendAfter old x 0 = l := rfl

theorem appendAfter_mem (l : Log α) (old x : α) (n : Nat) :
    l.appendAfter old x n ∈ l.appendStates old x := by
  rcases Nat.lt_or_ge n (l.appendStates old x).length with hn | hn
  · rw [appendAfter, List.getD_eq_getElem _ _ hn]
    exact List.getElem_mem hn
  · rw [appendAfter, List.getD_eq_default _ _ hn]
    simp [appendStates]

/-- The third step commits the record. -/
theorem current_appendAfter (l : Log α) (old x : α) {n : Nat} (h : 3 ≤ n) :
    (l.appendAfter old x n).current = some x := by
  obtain ⟨k, rfl⟩ := Nat.exists_eq_add_of_le h
  match k with
  | 0 => exact current_snoc ..
  | k + 1 =>
    rw [appendAfter, show 3 + (k + 1) = k + 4 by omega]
    cases k <;> exact current_append ..

/-- A log that ends in a committed slot stores that slot's record. -/
theorem current_of_getLast {l : Log α} {x : α} (h : l.getLast? = some ⟨.committed, x⟩) :
    l.current = some x := by
  obtain ⟨init, rfl⟩ := List.getLast?_eq_some_iff.mp h
  simp

/-! ### Shape -/

@[simp] theorem retireLast_nil : retireLast ([] : Log α) = [] := rfl

@[simp] theorem retireLast_snoc (l : Log α) (s : Slot α) :
    retireLast (l ++ [s]) = l ++ [{ s with mark := .retired }] := by
  simp [retireLast]

@[simp] theorem length_retireLast (l : Log α) : l.retireLast.length = l.length := by
  rcases List.eq_nil_or_concat l with rfl | ⟨init, s, rfl⟩ <;> simp

@[simp] theorem length_append (l : Log α) (x : α) : (l.append x).length = l.length + 1 := by
  simp [append]

@[simp] theorem getLast?_append (l : Log α) (x : α) :
    (l.append x).getLast? = some ⟨.committed, x⟩ := by simp [append]

end Log

end CommitLog
