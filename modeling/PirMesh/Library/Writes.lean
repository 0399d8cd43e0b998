import Mathlib.Data.List.Induction
import Mathlib.Logic.Function.Basic
import PirMesh.Library.Run

/-! # Library — Writing to many places

A store of one value a place, an operation that is idempotent, and a list of
places to apply it at, some of which do not exist: however often a place is
listed, it gets the operation once (`foldl_applyAt`).

Or each element of a list is written to the place of its key.  What a place has then is from the
last element of its key (`writeAll_of_last`), and a table that has all of these already is left as
it is (`writeAll_eq_self_iff`).  When some writes wipe all the other places, what a place has then
is the same if it was blank wherever it is not written again (`wipeAll_eq_iff`). -/

/-! ### One operation at many places -/

namespace Targets

variable {κ L : Type} [DecidableEq κ] {f : L → L} {there : κ → Bool} {k : κ}

/-- The operation at `k`, when `k` exists. -/
def applyAt (f : L → L) (there : κ → Bool) (s : κ → L) (k : κ) : κ → L :=
  if there k then Function.update s k (f (s k)) else s

theorem applyAt_self (h : there k = true) (s : κ → L) : applyAt f there s k k = f (s k) := by
  rw [applyAt, if_pos h, Function.update_self]

theorem applyAt_of_ne {j : κ} (h : j ≠ k) (s : κ → L) : applyAt f there s k j = s j := by
  unfold applyAt
  split
  · rw [Function.update_of_ne h]
  · rfl

theorem foldl_applyAt_of_not_mem {ks : List κ} (h : k ∉ ks) (s : κ → L) :
    ks.foldl (applyAt f there) s k = s k := by
  induction ks generalizing s with
  | nil => rfl
  | cons j ks ih =>
    rw [List.mem_cons, not_or] at h
    rw [List.foldl_cons, ih h.2, applyAt_of_ne h.1]

theorem foldl_applyAt (hf : ∀ l, f (f l) = f l) {ks : List κ} (hk : there k = true) (h : k ∈ ks)
    (s : κ → L) : ks.foldl (applyAt f there) s k = f (s k) := by
  induction ks generalizing s with
  | nil => cases h
  | cons j ks ih =>
    rw [List.foldl_cons]
    by_cases hmem : k ∈ ks
    · rw [ih hmem]
      by_cases hj : k = j
      · rw [hj, applyAt_self (hj ▸ hk), hf]
      · rw [applyAt_of_ne hj]
    · obtain rfl : k = j := (List.mem_cons.mp h).resolve_right hmem
      rw [foldl_applyAt_of_not_mem hmem, applyAt_self hk]

end Targets

/-! ### One after the other -/

namespace Writes

variable {α κ ν : Type} (key : α → κ) (val : α → ν)

/-- `a` stands in the list, and nothing of its key behind it. -/
def Last (l : List α) (a : α) : Prop :=
  ∃ pre post, l = pre ++ a :: post ∧ ∀ b ∈ post, key b ≠ key a

variable {key val} {l : List α} {a : α}

theorem Last.mem (h : Last key l a) : a ∈ l := by
  obtain ⟨pre, post, rfl, -⟩ := h
  exact List.mem_append_right pre List.mem_cons_self

variable (key) in
theorem exists_last (h : a ∈ l) : ∃ b, Last key l b ∧ key b = key a := by
  induction l generalizing a with
  | nil => cases h
  | cons c l ih =>
    by_cases hlater : ∃ b ∈ l, key b = key a
    · obtain ⟨b, hb, hkey⟩ := hlater
      obtain ⟨d, ⟨pre, post, rfl, hpost⟩, hd⟩ := ih hb
      exact ⟨d, ⟨c :: pre, post, rfl, hpost⟩, hd.trans hkey⟩
    · have ha : a ∉ l := fun ha => hlater ⟨a, ha, rfl⟩
      obtain rfl := (List.mem_cons.mp h).resolve_right ha
      exact ⟨a, ⟨[], l, rfl, fun b hb hkey => hlater ⟨b, hb, hkey⟩⟩, rfl⟩

section

variable [DecidableEq κ]

variable (key val) in
def writeAll (t : κ → ν) (l : List α) : κ → ν :=
  l.foldl (fun t a => Function.update t (key a) (val a)) t

variable {t : κ → ν} {k : κ}

theorem writeAll_append (t : κ → ν) (l l' : List α) :
    writeAll key val t (l ++ l') = writeAll key val (writeAll key val t l) l' :=
  List.foldl_append

theorem writeAll_of_ne (h : ∀ a ∈ l, key a ≠ k) : writeAll key val t l k = t k := by
  induction l generalizing t with
  | nil => rfl
  | cons a l ih =>
    have hrest := ih (t := Function.update t (key a) (val a)) fun b hb =>
      h b (List.mem_cons_of_mem a hb)
    exact hrest.trans (Function.update_of_ne (h a List.mem_cons_self).symm _ _)

theorem writeAll_append_of_ne {l' : List α} (h : ∀ a ∈ l', key a ≠ k) :
    writeAll key val t (l ++ l') k = writeAll key val t l k := by
  rw [writeAll_append]
  exact writeAll_of_ne h

theorem writeAll_of_last (h : Last key l a) : writeAll key val t l (key a) = val a := by
  obtain ⟨pre, post, rfl, hpost⟩ := h
  rw [writeAll_append]
  exact (writeAll_of_ne hpost).trans (Function.update_self _ _ _)

/-- Writing what is there already changes nothing. -/
theorem writeAll_eq_self_iff :
    writeAll key val t l = t ↔ ∀ a, Last key l a → t (key a) = val a := by
  constructor
  · intro h a ha
    exact (congrFun h (key a)).symm.trans (writeAll_of_last ha)
  · intro h
    funext k
    by_cases hk : ∃ a ∈ l, key a = k
    · obtain ⟨a, ha, rfl⟩ := hk
      obtain ⟨b, hb, hkey⟩ := exists_last key ha
      rw [← hkey, writeAll_of_last hb, h b hb]
    · exact writeAll_of_ne fun a ha hkey => hk ⟨a, ha, hkey⟩

/-! A write may wipe all the other places, with a value of its own. -/

variable (key val) in
def wipeAll (wipes : α → Prop) [DecidablePred wipes] (blank : ν) (t : κ → ν) (l : List α) : κ → ν :=
  l.foldl (fun t a => Function.update (if wipes a then fun _ => blank else t) (key a) (val a)) t

variable {wipes : α → Prop} [DecidablePred wipes] {blank : ν}

theorem wipeAll_concat_self (t : κ → ν) (l : List α) (a : α) :
    wipeAll key val wipes blank t (l ++ [a]) (key a) = val a := by
  rw [wipeAll, List.foldl_append]
  exact Function.update_self ..

theorem wipeAll_concat_of_ne (t : κ → ν) (l : List α) (h : key a ≠ k) :
    wipeAll key val wipes blank t (l ++ [a]) k =
      if wipes a then blank else wipeAll key val wipes blank t l k := by
  rw [wipeAll, List.foldl_append]
  exact (Function.update_of_ne h.symm ..).trans (ite_apply ..)

/-- A place is as if nothing were wiped when it is blank wherever it is wiped for good. -/
theorem wipeAll_eq_iff :
    wipeAll key val wipes blank t l k = writeAll key val t l k ↔
      ∀ pre a post, l = pre ++ a :: post → wipes a → key a ≠ k → (∀ b ∈ post, key b ≠ k) →
        writeAll key val t pre k = blank := by
  induction l using List.reverseRecOn with
  | nil => exact iff_of_true rfl fun pre a post h => by simp at h
  | append_singleton l b ih =>
    by_cases hb : key b = k
    · subst hb
      rw [wipeAll_concat_self, writeAll_of_last ⟨l, [], rfl, by simp⟩]
      refine iff_of_true rfl fun pre a post h _ ha hpost => ?_
      rcases History.split_snoc h with ⟨-, rfl, -⟩ | ⟨post', rfl, -⟩
      · exact absurd rfl ha
      · exact absurd rfl (hpost b (by simp))
    · have hlast : writeAll key val t (l ++ [b]) k = writeAll key val t l k :=
        writeAll_append_of_ne (by simpa using hb)
      rw [wipeAll_concat_of_ne t l hb, hlast]
      by_cases hwipes : wipes b
      · rw [if_pos hwipes]
        constructor
        · intro hblank pre a post h _ hka hpost
          rcases History.split_snoc h with ⟨rfl, -, -⟩ | ⟨post', rfl, rfl⟩
          · exact hblank.symm
          · rw [hblank]
            refine (writeAll_append_of_ne fun c hc => ?_).symm
            rcases List.mem_cons.mp hc with rfl | hc
            · exact hka
            · exact hpost c (List.mem_append_left _ hc)
        · exact fun h => (h l b [] rfl hwipes hb (by simp)).symm
      · rw [if_neg hwipes, ih]
        constructor
        · intro h pre a post hl ha hka hpost
          rcases History.split_snoc hl with ⟨-, rfl, -⟩ | ⟨post', rfl, hl'⟩
          · exact absurd ha hwipes
          · exact h pre a post' hl' ha hka fun c hc => hpost c (List.mem_append_left _ hc)
        · intro h pre a post hl ha hka hpost
          refine h pre a (post ++ [b]) ?_ ha hka ?_
          · rw [hl, List.append_assoc, List.cons_append]
          · simpa [or_imp, forall_and, hb] using hpost

end

end Writes
