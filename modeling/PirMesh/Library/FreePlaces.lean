import Mathlib.Data.Finset.Card
import Mathlib.Data.List.Nodup

/-! # Library — Lists with free places

A list of fixed length whose places are free (`0`) or taken by an entry.  `contents` is
the set it stands for, and `Table` says how long it is and that no entry stands in it
twice.  `put` writes an entry to the first free place unless the list has it, and
`takeOut` frees every place of an entry: as long as there is room they are the insertion
and the erasure (`contents_put`, `contents_takeOut`). -/

namespace FreePlaces

variable {α : Type} [DecidableEq α] [Zero α] {n : ℕ} {l : List α} {a : α}

/-- The places that are taken. -/
def entries (l : List α) : List α := l.filter (· ≠ 0)

def contents (l : List α) : Finset α := (entries l).toFinset

structure Table (n : ℕ) (l : List α) : Prop where
  length_eq : l.length = n
  nodup : (entries l).Nodup

def put (l : List α) (a : α) : List α := if a ∈ l then l else l.set (l.idxOf 0) a

def takeOut (l : List α) (a : α) : List α := l.map fun b => if a = b then 0 else b

def putAll (l as : List α) : List α := as.foldl put l

def takeOutAll (l as : List α) : List α := as.foldl takeOut l

/-! ### The set of a list -/

theorem mem_entries : a ∈ entries l ↔ a ∈ l ∧ a ≠ 0 := by
  rw [entries, List.mem_filter, decide_eq_true_iff]

theorem mem_contents : a ∈ contents l ↔ a ∈ l ∧ a ≠ 0 := by
  rw [contents, List.mem_toFinset, mem_entries]

theorem Table.card_contents (h : Table n l) : (contents l).card = (entries l).length :=
  List.toFinset_card_of_nodup h.nodup

theorem Table.card_le (h : Table n l) : (contents l).card ≤ n := by
  rw [h.card_contents, ← h.length_eq]
  exact List.length_filter_le _ l

/-- A list that is not full has a free place. -/
theorem Table.free (h : Table n l) (hlt : (contents l).card < n) : 0 ∈ l := by
  by_contra hfree
  have hall : entries l = l :=
    List.filter_eq_self.mpr fun b hb => decide_eq_true fun h0 => hfree (h0 ▸ hb)
  rw [h.card_contents, hall, h.length_eq] at hlt
  exact lt_irrefl n hlt

theorem entries_cons_zero (l : List α) : entries (0 :: l) = entries l :=
  List.filter_cons_of_neg (by simp)

theorem entries_cons (ha : a ≠ 0) (l : List α) : entries (a :: l) = a :: entries l :=
  List.filter_cons_of_pos (by simpa using ha)

/-! ### Putting in -/

theorem entries_set (h0 : 0 ∈ l) (ha : a ≠ 0) :
    (entries (l.set (l.idxOf 0) a)).Perm (a :: entries l) := by
  induction l with
  | nil => exact absurd h0 List.not_mem_nil
  | cons b l ih =>
    by_cases hb : b = 0
    · rw [hb, List.idxOf_cons_self, List.set_cons_zero, entries_cons ha, entries_cons_zero]
    · rw [List.idxOf_cons_ne l hb, List.set_cons_succ, entries_cons hb, entries_cons hb]
      have hl := List.mem_of_ne_of_mem (Ne.symm hb) h0
      exact ((ih hl).cons b).trans (.swap a b _)

theorem put_zero (l : List α) : put l 0 = l := by
  rw [put]
  split
  · rfl
  · next h0 => rw [List.set_eq_of_length_le (List.idxOf_eq_length h0).ge]

theorem length_put (l : List α) (a : α) : (put l a).length = l.length := by
  rw [put]
  split
  · rfl
  · exact List.length_set

/-- An entry that is not in the list, and has no room or goes to a free place. -/
theorem put_of_not_mem (h0 : 0 ∈ l) (ha : a ≠ 0) (hnot : a ∉ l) :
    (entries (put l a)).Perm (a :: entries l) := by
  rw [put, if_neg hnot]
  exact entries_set h0 ha

theorem Table.put (h : Table n l) (a : α) : Table n (put l a) := by
  refine ⟨(length_put l a).trans h.length_eq, ?_⟩
  by_cases ha : a = 0
  · rw [ha, put_zero]
    exact h.nodup
  by_cases hmem : a ∈ l
  · rw [FreePlaces.put, if_pos hmem]
    exact h.nodup
  by_cases h0 : 0 ∈ l
  · refine (put_of_not_mem h0 ha hmem).nodup_iff.mpr (List.nodup_cons.mpr ⟨fun hin => ?_, h.nodup⟩)
    exact hmem (mem_entries.mp hin).1
  · rw [FreePlaces.put, if_neg hmem, List.set_eq_of_length_le (List.idxOf_eq_length h0).ge]
    exact h.nodup

theorem contents_put (h : Table n l) (ha : a ≠ 0) (hroom : (insert a (contents l)).card ≤ n) :
    contents (put l a) = insert a (contents l) := by
  by_cases hmem : a ∈ l
  · rw [put, if_pos hmem, Finset.insert_eq_of_mem (mem_contents.mpr ⟨hmem, ha⟩)]
  · have hnot : a ∉ contents l := fun hin => hmem (mem_contents.mp hin).1
    rw [Finset.card_insert_of_notMem hnot] at hroom
    have hperm := put_of_not_mem (h.free hroom) ha hmem
    rw [contents, List.toFinset_eq_of_perm _ _ hperm, List.toFinset_cons, contents]

theorem Table.putAll (h : Table n l) (as : List α) : Table n (putAll l as) := by
  induction as generalizing l with
  | nil => exact h
  | cons a as ih => exact ih (h.put a)

theorem contents_putAll (h : Table n l) (as : List α)
    (hroom : (contents l ∪ as.toFinset.erase 0).card ≤ n) :
    contents (putAll l as) = contents l ∪ as.toFinset.erase 0 := by
  induction as generalizing l with
  | nil => rw [List.toFinset_nil, Finset.erase_empty, Finset.union_empty, putAll, List.foldl_nil]
  | cons a as ih =>
    by_cases ha : a = 0
    · have hsame : (a :: as).toFinset.erase 0 = as.toFinset.erase 0 := by
        rw [List.toFinset_cons, ha, Finset.erase_insert_eq_erase]
      rw [hsame] at hroom ⊢
      have hstep : putAll l (a :: as) = putAll l as := by
        rw [putAll, List.foldl_cons, ha, put_zero, putAll]
      rw [hstep]
      exact ih h hroom
    · have hinsert : contents l ∪ (a :: as).toFinset.erase 0 =
          insert a (contents l) ∪ as.toFinset.erase 0 := by
        rw [List.toFinset_cons, Finset.erase_insert_of_ne ha, Finset.union_insert,
          Finset.insert_union]
      rw [hinsert] at hroom ⊢
      have hone := contents_put h ha ((Finset.card_le_card Finset.subset_union_left).trans hroom)
      have hrest := ih (h.put a) (hone ▸ hroom)
      rw [hone] at hrest
      exact hrest

/-! ### Taking out -/

theorem entries_takeOut (l : List α) (a : α) :
    entries (takeOut l a) = (entries l).filter (a ≠ ·) := by
  induction l with
  | nil => rfl
  | cons b l ih =>
    have hstep : takeOut (b :: l) a = (if a = b then 0 else b) :: takeOut l a := rfl
    rw [hstep]
    by_cases hb : b = 0
    · have hz : (if a = 0 then 0 else (0 : α)) = 0 := ite_self 0
      rw [hb, hz, entries_cons_zero, entries_cons_zero, ih]
    · rw [entries_cons hb]
      by_cases hab : a = b
      · rw [if_pos hab, entries_cons_zero, List.filter_cons_of_neg (by simpa using hab), ih]
      · rw [if_neg hab, entries_cons hb, List.filter_cons_of_pos (by simpa using hab), ih]

theorem Table.takeOut (h : Table n l) (a : α) : Table n (takeOut l a) := by
  refine ⟨(List.length_map _).trans h.length_eq, ?_⟩
  rw [entries_takeOut]
  exact h.nodup.filter _

theorem contents_takeOut (l : List α) (a : α) : contents (takeOut l a) = (contents l).erase a := by
  ext b
  rw [contents, entries_takeOut, List.mem_toFinset, List.mem_filter, decide_eq_true_iff,
    Finset.mem_erase, contents, List.mem_toFinset, and_comm, ne_comm]

theorem Table.takeOutAll (h : Table n l) (as : List α) : Table n (takeOutAll l as) := by
  induction as generalizing l with
  | nil => exact h
  | cons a as ih => exact ih (h.takeOut a)

theorem contents_takeOutAll (l as : List α) :
    contents (takeOutAll l as) = contents l \ as.toFinset := by
  induction as generalizing l with
  | nil => rw [List.toFinset_nil, Finset.sdiff_empty, takeOutAll, List.foldl_nil]
  | cons a as ih =>
    have hstep : takeOutAll l (a :: as) = takeOutAll (takeOut l a) as := rfl
    rw [hstep, ih, contents_takeOut, List.toFinset_cons, Finset.sdiff_insert,
      Finset.erase_sdiff_comm]

end FreePlaces
