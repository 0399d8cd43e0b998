import Mathlib.Algebra.Group.Nat.Defs
import Mathlib.Data.List.GetD

/-! # Library — NOR flash

A flash is a memory of bytes in which programming can only clear bits
(`write` ANDs) and only erasing a range brings bits back.  The lemmas are
the frame and the effect of each operation at one address and at a block. -/

namespace Nor

abbrev Byte := BitVec 8

/-- What each address holds. -/
abbrev Flash := Nat → Byte

/-- The value of a byte no program operation has touched since its erase. -/
def blank : Byte := 0xFF

namespace Flash

/-- `len` bytes from `adr`. -/
def read (f : Flash) (adr len : Nat) : List Byte := (List.range len).map fun i => f (adr + i)

/-- Program `bs` at `adr`: bits go from 1 to 0, never back. -/
def write (f : Flash) (adr : Nat) (bs : List Byte) : Flash := fun a =>
  if adr ≤ a then f a &&& bs.getD (a - adr) blank else f a

/-- Erase `len` bytes from `adr`. -/
def erase (f : Flash) (adr len : Nat) : Flash := fun a =>
  if adr ≤ a ∧ a < adr + len then blank else f a

/-! ### Reading -/

@[simp] theorem length_read (f : Flash) (adr len : Nat) : (f.read adr len).length = len := by
  simp [read]

@[simp] theorem read_zero (f : Flash) (adr : Nat) : f.read adr 0 = [] := rfl

theorem read_one (f : Flash) (adr : Nat) : f.read adr 1 = [f adr] := rfl

@[simp] theorem getElem_read (f : Flash) (adr len i : Nat) (h : i < (f.read adr len).length) :
    (f.read adr len)[i] = f (adr + i) := by
  simp [read]

theorem read_add (f : Flash) (adr m n : Nat) :
    f.read adr (m + n) = f.read adr m ++ f.read (adr + m) n := by
  simp [read, List.range_add, List.map_append, Nat.add_assoc]

theorem read_congr {f g : Flash} {adr len : Nat} (h : ∀ i < len, f (adr + i) = g (adr + i)) :
    f.read adr len = g.read adr len :=
  List.map_congr_left fun i hi => h i (List.mem_range.mp hi)

theorem read_eq_replicate {f : Flash} {adr len : Nat} {b : Byte}
    (h : ∀ i < len, f (adr + i) = b) : f.read adr len = List.replicate len b := by
  refine List.eq_replicate_iff.mpr ⟨by simp, fun x hx => ?_⟩
  obtain ⟨i, hi, rfl⟩ := List.mem_map.mp hx
  exact h i (List.mem_range.mp hi)

theorem drop_read (f : Flash) (adr len n : Nat) :
    (f.read adr len).drop n = f.read (adr + n) (len - n) := by
  refine List.ext_getElem (by simp) fun i _ _ => ?_
  rw [List.getElem_drop, getElem_read, getElem_read, Nat.add_assoc]

theorem take_read (f : Flash) (adr len n : Nat) (h : n ≤ len) :
    (f.read adr len).take n = f.read adr n := by
  refine List.ext_getElem (by simp [h]) fun i _ _ => ?_
  rw [List.getElem_take, getElem_read, getElem_read]

/-! ### Programming -/

@[simp] theorem and_blank (b : Byte) : b &&& blank = b := BitVec.and_allOnes

@[simp] theorem blank_and (b : Byte) : blank &&& b = b := BitVec.allOnes_and

/-- The frame of a write. -/
theorem write_outside (f : Flash) {adr a : Nat} {bs : List Byte}
    (h : a < adr ∨ adr + bs.length ≤ a) : f.write adr bs a = f a := by
  unfold write
  split
  · rw [List.getD_eq_default _ _ (by omega), and_blank]
  · rfl

theorem write_at (f : Flash) (adr : Nat) {bs : List Byte} {i : Nat} (h : i < bs.length) :
    f.write adr bs (adr + i) = f (adr + i) &&& bs[i] := by
  simp [write, h]

theorem write_head (f : Flash) (adr : Nat) (b : Byte) (bs : List Byte) :
    f.write adr (b :: bs) adr = f adr &&& b := by
  simp [write]

theorem read_write_outside (f : Flash) {adr at' len : Nat} {bs : List Byte}
    (h : at' + len ≤ adr ∨ adr + bs.length ≤ at') :
    (f.write adr bs).read at' len = f.read at' len :=
  read_congr fun _ _ => write_outside f (by omega)

/-- Programming one block and the next one is programming both. -/
theorem write_write (f : Flash) (adr : Nat) (bs bs' : List Byte) :
    (f.write adr bs).write (adr + bs.length) bs' = f.write adr (bs ++ bs') := by
  funext a
  unfold write
  by_cases hlow : adr ≤ a
  · by_cases hhigh : adr + bs.length ≤ a
    · rw [if_pos hhigh, if_pos hlow, if_pos hlow, List.getD_eq_default _ _ (by omega), and_blank,
        List.getD_append_right _ _ _ _ (by omega), Nat.sub_sub]
    · rw [if_neg hhigh, if_pos hlow, if_pos hlow, List.getD_append _ _ _ _ (by omega)]
  · rw [if_neg hlow, if_neg hlow, if_neg (by omega)]

/-- A block is copied in two pieces, to where it does not run into itself. -/
theorem write_read_add (f : Flash) {src dst k m : Nat} (h : dst ≤ src ∨ src + k + m ≤ dst) :
    (f.write dst (f.read src k)).write (dst + k)
      ((f.write dst (f.read src k)).read (src + k) m) = f.write dst (f.read src (k + m)) := by
  have hlen := length_read f src k
  rw [read_write_outside f (by omega), read_add, ← write_write, hlen]

theorem write_nil (f : Flash) (adr : Nat) : f.write adr [] = f :=
  funext fun a => write_outside f (Nat.lt_or_ge a adr)

/-- Zeros can be programmed over anything. -/
theorem read_write_zeros (f : Flash) (adr n : Nat) :
    (f.write adr (List.replicate n 0)).read adr n = List.replicate n 0 := by
  refine List.ext_getElem (by simp) fun i hi hi' => ?_
  rw [getElem_read, write_at f adr hi', List.getElem_replicate]
  exact BitVec.and_zero

/-- Programming a blank block stores exactly what is programmed. -/
theorem read_write_blank {f : Flash} {adr : Nat} {bs : List Byte}
    (h : ∀ i < bs.length, f (adr + i) = blank) :
    (f.write adr bs).read adr bs.length = bs := by
  refine List.ext_getElem (by simp) fun i h1 h2 => ?_
  rw [getElem_read, write_at f adr h2, h i h2, blank_and]

/-- The same for a part of what is programmed. -/
theorem read_write_part {f : Flash} {adr : Nat} (off len : Nat) {bs : List Byte}
    (hlen : off + len ≤ bs.length) (h : ∀ i < len, f (adr + off + i) = blank) :
    (f.write adr bs).read (adr + off) len = (bs.drop off).take len := by
  refine List.ext_getElem (by simp; omega) fun i h1 h2 => ?_
  have hi : i < len := by simpa using h1
  rw [getElem_read, Nat.add_assoc, write_at f adr (by omega), ← Nat.add_assoc, h i hi, blank_and,
    List.getElem_take, List.getElem_drop]

/-! ### Erasing -/

theorem erase_inside (f : Flash) {adr len a : Nat} (h : adr ≤ a ∧ a < adr + len) :
    f.erase adr len a = blank := if_pos h

theorem erase_outside (f : Flash) {adr len a : Nat} (h : a < adr ∨ adr + len ≤ a) :
    f.erase adr len a = f a := if_neg (by omega)

/-- Erase `len` bytes from each address of a list. -/
def eraseList (f : Flash) (len : Nat) (l : List Nat) : Flash := l.foldl (fun f a => f.erase a len) f

theorem eraseList_outside (f : Flash) {len a : Nat} {l : List Nat}
    (h : ∀ b ∈ l, a < b ∨ b + len ≤ a) : f.eraseList len l a = f a := by
  unfold eraseList
  induction l generalizing f with
  | nil => rfl
  | cons b l ih =>
    rw [List.foldl_cons, ih _ fun c hc => h c (List.mem_cons_of_mem b hc)]
    exact erase_outside f (h b List.mem_cons_self)

/-- Erasing leaves a byte as it is, or blank. -/
theorem eraseList_or (f : Flash) (len a : Nat) (l : List Nat) :
    f.eraseList len l a = f a ∨ f.eraseList len l a = blank := by
  unfold eraseList
  induction l generalizing f with
  | nil => exact .inl rfl
  | cons b l ih =>
    rw [List.foldl_cons]
    by_cases hb : b ≤ a ∧ a < b + len
    · have hblank := erase_inside f hb
      exact .inr ((ih (f.erase b len)).elim (·.trans hblank) id)
    · have hsame : f.erase b len a = f a := if_neg hb
      exact (ih (f.erase b len)).imp (·.trans hsame) id

theorem eraseList_inside (f : Flash) {len a b : Nat} {l : List Nat} (hb : b ∈ l)
    (h : b ≤ a ∧ a < b + len) : f.eraseList len l a = blank := by
  obtain ⟨l₁, l₂, rfl⟩ := List.append_of_mem hb
  have hblank : ((f.eraseList len l₁).erase b len) a = blank := erase_inside _ h
  have hsplit : f.eraseList len (l₁ ++ b :: l₂) =
      ((f.eraseList len l₁).erase b len).eraseList len l₂ := by
    rw [eraseList, List.foldl_append, List.foldl_cons]
    rfl
  rw [hsplit]
  exact (eraseList_or _ len a l₂).elim (·.trans hblank) id

end Flash

end Nor
