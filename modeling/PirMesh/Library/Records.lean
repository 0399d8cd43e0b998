import PirMesh.Library.Format
import PirMesh.Library.Reassembly

/-! # Library — Records one after another

Records of different lengths stand in memory one after another.  A reader that stands at a record
can tell its length, and whatever stands there is a record of that length (`Kind`).  So every
stretch of memory is whole records and a rest that is none, or too short for one
(`Kind.exists_rest`). -/

namespace Records

open Reassembly

variable {α ρ : Type}

/-- How a record is written, and what a reader finds at an address. -/
structure Kind (α ρ : Type) where
  put : ρ → List α
  get : (ℕ → α) → ℕ → ρ
  len : (ℕ → α) → ℕ → ℕ
  len_pos : ∀ m p, 0 < len m p
  put_get : ∀ m p, put (get m p) = read m p (len m p)
  get_put : ∀ m p r, read m p (put r).length = put r → get m p = r

/-- A block that is two, one after the other. -/
theorem read_append_iff {m : ℕ → α} {p : ℕ} {l l' : List α} :
    read m p (l ++ l').length = l ++ l' ↔
      read m p l.length = l ∧ read m (p + l.length) l'.length = l' := by
  rw [List.length_append, read_add]
  constructor
  · exact fun h => List.append_inj h (length_read m p _)
  · rintro ⟨h, h'⟩
    rw [h, h']

/-! ### Words one after another -/

section

open Nor (Byte)

variable {F : Format α}

/-- `n` values of a fixed size from `p` on. -/
def getWords (F : Format α) (m : ℕ → Byte) (p n : ℕ) : List α :=
  (List.range n).map fun i => F.get (read m (p + F.size * i) F.size)

@[simp] theorem length_getWords (F : Format α) (m : ℕ → Byte) (p n : ℕ) :
    (getWords F m p n).length = n := by
  rw [getWords, List.length_map, List.length_range]

theorem getWords_succ (F : Format α) (m : ℕ → Byte) (p n : ℕ) :
    getWords F m p (n + 1) = F.get (read m p F.size) :: getWords F m (p + F.size) n := by
  unfold getWords
  rw [List.range_succ_eq_map, List.map_cons, List.map_map, Nat.mul_zero, Nat.add_zero]
  refine congrArg (_ :: ·) (List.map_congr_left fun i _ => ?_)
  show F.get (read m (p + F.size * (i + 1)) F.size) =
    F.get (read m (p + F.size + F.size * i) F.size)
  rw [Nat.mul_succ, Nat.add_comm (F.size * i), ← Nat.add_assoc]

theorem length_flatMap_put (hF : F.Exact) (l : List α) :
    (l.flatMap F.put).length = F.size * l.length := by
  induction l with
  | nil => rfl
  | cons a l ih =>
    rw [List.flatMap_cons, List.length_append, hF.length_put, ih, List.length_cons, Nat.mul_succ,
      Nat.add_comm]

/-- What is read is written back as it was. -/
theorem flatMap_getWords (hF : F.Exact) (m : ℕ → Byte) (p n : ℕ) :
    (getWords F m p n).flatMap F.put = read m p (F.size * n) := by
  induction n generalizing p with
  | zero => rfl
  | succ n ih =>
    rw [getWords_succ, List.flatMap_cons, ih, hF.put_get _ (length_read m p _), Nat.mul_succ,
      Nat.add_comm (F.size * n), read_add]

/-- Values that stand there are read. -/
theorem getWords_eq (hF : F.Exact) {m : ℕ → Byte} {p : ℕ} {l : List α} (hfits : ∀ a ∈ l, F.Fits a)
    (h : read m p (l.flatMap F.put).length = l.flatMap F.put) : getWords F m p l.length = l := by
  induction l generalizing p with
  | nil => rfl
  | cons a l ih =>
    rw [List.flatMap_cons, read_append_iff, hF.length_put] at h
    rw [List.length_cons, getWords_succ, h.1, hfits a List.mem_cons_self,
      ih (fun b hb => hfits b (List.mem_cons_of_mem a hb)) h.2]

end

namespace Kind

variable (K : Kind α ρ)

/-- All of them, one after another. -/
def putAll (rs : List ρ) : List α := rs.flatMap K.put

@[simp] theorem putAll_nil : K.putAll [] = [] := rfl

@[simp] theorem putAll_cons (r : ρ) (rs : List ρ) : K.putAll (r :: rs) = K.put r ++ K.putAll rs :=
  List.flatMap_cons

theorem putAll_append (rs rs' : List ρ) : K.putAll (rs ++ rs') = K.putAll rs ++ K.putAll rs' :=
  List.flatMap_append

/-- The records that stand at `p`. -/
def At (m : ℕ → α) (p : ℕ) (rs : List ρ) : Prop := read m p (K.putAll rs).length = K.putAll rs

/-- Where they end. -/
def finish (p : ℕ) (rs : List ρ) : ℕ := p + (K.putAll rs).length

@[simp] theorem finish_nil (p : ℕ) : K.finish p [] = p := rfl

variable {K} {m : ℕ → α} {p e : ℕ} {r : ρ} {rs : List ρ}

theorem at_nil (m : ℕ → α) (p : ℕ) : K.At m p [] := rfl

theorem len_eq (h : read m p (K.put r).length = K.put r) : K.len m p = (K.put r).length := by
  have hget := K.put_get m p
  rw [K.get_put m p r h] at hget
  exact ((congrArg List.length hget).trans (length_read m p _)).symm

/-- The reader finds the first one, and the others behind it. -/
theorem at_cons : K.At m p (r :: rs) ↔ K.get m p = r ∧ K.At m (p + K.len m p) rs := by
  unfold At
  rw [putAll_cons, read_append_iff]
  constructor
  · rintro ⟨hr, hrs⟩
    exact ⟨K.get_put m p r hr, (len_eq hr).symm ▸ hrs⟩
  · rintro ⟨rfl, hrs⟩
    have hlen : (K.put (K.get m p)).length = K.len m p := by
      rw [K.put_get, length_read]
    rw [hlen]
    exact ⟨(K.put_get m p).symm, hrs⟩

theorem le_finish (p : ℕ) (rs : List ρ) : p ≤ K.finish p rs := Nat.le_add_right _ _

theorem finish_put (p : ℕ) (r : ρ) (rs : List ρ) :
    K.finish p (r :: rs) = K.finish (p + (K.put r).length) rs := by
  unfold finish
  rw [putAll_cons, List.length_append, Nat.add_assoc]

theorem finish_cons (h : K.At m p (r :: rs)) :
    K.finish p (r :: rs) = K.finish (p + K.len m p) rs := by
  obtain ⟨hr, -⟩ := at_cons.mp h
  have hlen : (K.put r).length = K.len m p := by
    rw [← hr, K.put_get, length_read]
  rw [finish_put, hlen]

theorem finish_append (p : ℕ) (rs rs' : List ρ) :
    K.finish p (rs ++ rs') = K.finish (K.finish p rs) rs' := by
  unfold finish
  rw [putAll_append, List.length_append, Nat.add_assoc]

theorem at_append {rs' : List ρ} :
    K.At m p (rs ++ rs') ↔ K.At m p rs ∧ K.At m (K.finish p rs) rs' := by
  unfold At finish
  rw [putAll_append, read_append_iff]

/-- Records depend on the memory they stand in. -/
theorem At.congr {m' : ℕ → α} (hat : K.At m p rs)
    (h : ∀ a, p ≤ a → a < K.finish p rs → m' a = m a) : K.At m' p rs :=
  (read_congr fun i hi => h (p + i) (Nat.le_add_right p i) (Nat.add_lt_add_left hi p)).trans hat

theorem At.eq_nil (hat : K.At m p rs) (h : K.finish p rs = p) : rs = [] := by
  cases rs with
  | nil => rfl
  | cons r rs =>
    have hpos := K.len_pos m p
    have hle := le_finish (K := K) (p + K.len m p) rs
    rw [← finish_cons hat] at hle
    omega

/-- Records that end behind `p` begin with the one that stands there. -/
theorem At.exists_cons (hat : K.At m p rs) (hlt : p < K.finish p rs) :
    ∃ rs', rs = K.get m p :: rs' ∧ K.At m (p + K.len m p) rs' ∧
      K.finish (p + K.len m p) rs' = K.finish p rs := by
  cases rs with
  | nil => exact absurd hlt (lt_irrefl p)
  | cons r rs =>
    obtain ⟨rfl, hrest⟩ := at_cons.mp hat
    exact ⟨rs, rfl, hrest, (finish_cons hat).symm⟩

/-- **Whole records and a rest**: up to `e` there are records, and behind them nothing, or one that
does not fit. -/
theorem exists_rest (K : Kind α ρ) (m : ℕ → α) {p e : ℕ} (h : p ≤ e) :
    ∃ rs, K.At m p rs ∧ K.finish p rs ≤ e ∧
      (K.finish p rs = e ∨ e < K.finish p rs + K.len m (K.finish p rs)) := by
  -- by induction on what is left
  induction hn : e - p using Nat.strongRecOn generalizing p with
  | ind n ih =>
    rcases Nat.eq_or_lt_of_le h with rfl | hlt
    · exact ⟨[], at_nil m p, le_rfl, .inl rfl⟩
    · rcases Nat.lt_or_ge e (p + K.len m p) with hover | hfit
      · exact ⟨[], at_nil m p, h, .inr hover⟩
      · have hpos := K.len_pos m p
        obtain ⟨rs, hat, hle, hrest⟩ := ih (e - (p + K.len m p)) (by omega) hfit rfl
        have hcons : K.At m p (K.get m p :: rs) := at_cons.mpr ⟨rfl, hat⟩
        refine ⟨K.get m p :: rs, hcons, ?_⟩
        rw [finish_cons hcons]
        exact ⟨hle, hrest⟩

end Kind

end Records
