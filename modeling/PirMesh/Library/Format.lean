import Mathlib.Algebra.GroupWithZero.Nat
import Mathlib.Data.Fin.Tuple.Basic
import PirMesh.Library.Nor

/-! # Library — Layouts and formats of a fixed size

A layout writes every value of a type in the same number of bytes and reads it
back.  Layouts of packed records are put together from the layouts of their
fields (`pair`, `vec`), and carry their own round trip.

A format writes a value as octets and reads octets as a value, with no promise that one
undoes the other.  It is exact when what is read from a string of its size is written as
that string (`Exact`), and a value fits when it is read back from what it is written as
(`Fits`).  Formats of records are put together from those of their fields, and both laws
with them. -/

/-! ### Layouts -/

namespace Nor

structure Layout (α : Type) where
  size : Nat
  put : α → List Byte
  get : List Byte → α
  length_put : ∀ a, (put a).length = size
  get_put : ∀ a, get (put a) = a

/-! ### Little-endian words -/

/-- The low `n` bytes of `v`, the lowest first. -/
def toLE : Nat → Nat → List Byte
  | 0, _ => []
  | n + 1, v => BitVec.ofNat 8 v :: toLE n (v / 256)

def ofLE : List Byte → Nat
  | [] => 0
  | b :: bs => b.toNat + 256 * ofLE bs

@[simp] theorem length_toLE (n v : Nat) : (toLE n v).length = n := by
  induction n generalizing v with
  | zero => rfl
  | succ n ih => simp [toLE, ih]

theorem ofLE_toLE (n v : Nat) : ofLE (toLE n v) = v % 256 ^ n := by
  induction n generalizing v with
  | zero => simp [toLE, ofLE, Nat.mod_one]
  | succ n ih =>
    rw [toLE, ofLE, ih, Nat.pow_succ, Nat.mul_comm (256 ^ n), Nat.mod_mul]
    simp

namespace Layout

variable {α β : Type}

/-- A little-endian word of `n` bytes. -/
def word (n : Nat) : Layout (BitVec (8 * n)) where
  size := n
  put v := toLE n v.toNat
  get l := BitVec.ofNat _ (ofLE l)
  length_put _ := length_toLE _ _
  get_put v := by
    have hpow : 256 ^ n = 2 ^ (8 * n) := by rw [Nat.pow_mul]
    rw [ofLE_toLE, hpow, Nat.mod_eq_of_lt v.isLt, BitVec.ofNat_toNat, BitVec.setWidth_eq]

/-- A big-endian word of `n` bytes. -/
def wordBE (n : Nat) : Layout (BitVec (8 * n)) where
  size := n
  put v := ((word n).put v).reverse
  get l := (word n).get l.reverse
  length_put v := by rw [List.length_reverse, (word n).length_put]; rfl
  get_put v := by rw [List.reverse_reverse, (word n).get_put]

/-- A flag byte, tested against zero. -/
def flag : Layout Bool where
  size := 1
  put b := [if b then 1 else 0]
  get l := decide (l.headD 0 ≠ 0)
  length_put _ := rfl
  get_put b := by cases b <;> decide

/-- An array of bytes. -/
def bytes (n : Nat) : Layout (Vector Byte n) where
  size := n
  put v := v.toList
  get l := Vector.ofFn fun i => l.getD i 0
  length_put _ := Vector.length_toList
  get_put v := by
    ext i hi
    simp

/-- Reserved bytes, written as zero. -/
def zeros (n : Nat) : Layout Unit where
  size := n
  put _ := List.replicate n 0
  get _ := ()
  length_put _ := List.length_replicate
  get_put _ := rfl

/-- Two fields in a row. -/
def pair (L : Layout α) (M : Layout β) : Layout (α × β) where
  size := L.size + M.size
  put p := L.put p.1 ++ M.put p.2
  get l := (L.get (l.take L.size), M.get (l.drop L.size))
  length_put p := by rw [List.length_append, L.length_put, M.length_put]
  get_put p := by
    rw [List.take_left' (L.length_put p.1), List.drop_left' (L.length_put p.1),
      L.get_put, M.get_put]

/-- `k` equal fields in a row. -/
def vec (L : Layout α) : (k : Nat) → Layout (Fin k → α)
  | 0 => ⟨0, fun _ => [], fun _ => Fin.elim0, fun _ => rfl, fun _ => Subsingleton.elim _ _⟩
  | k + 1 =>
    { size := L.size + (L.vec k).size
      put := fun f => L.put (f 0) ++ (L.vec k).put (Fin.tail f)
      get := fun l => Fin.cons (L.get (l.take L.size)) ((L.vec k).get (l.drop L.size))
      length_put := fun f => by rw [List.length_append, L.length_put, (L.vec k).length_put]
      get_put := fun f => by
        rw [List.take_left' (L.length_put _), List.drop_left' (L.length_put _), L.get_put,
          (L.vec k).get_put, Fin.cons_self_tail] }

/-- The layout of a record from the layout of its fields. -/
def record (L : Layout α) (mk : α → β) (fields : β → α) (h : ∀ b, mk (fields b) = b) :
    Layout β where
  size := L.size
  put b := L.put (fields b)
  get l := mk (L.get l)
  length_put b := L.length_put _
  get_put b := by rw [L.get_put, h]

end Layout

end Nor

/-! ### Formats -/

namespace Nor

/-! ### Little-endian words -/

theorem toLE_ofLE (l : List Byte) : toLE l.length (ofLE l) = l := by
  induction l with
  | nil => rfl
  | cons b l ih =>
    have hlow : BitVec.ofNat 8 (b.toNat + 256 * ofLE l) = b := by
      refine BitVec.eq_of_toNat_eq ?_
      rw [BitVec.toNat_ofNat, Nat.add_mul_mod_self_left, Nat.mod_eq_of_lt b.isLt]
    have hhigh : (b.toNat + 256 * ofLE l) / 256 = ofLE l := by
      rw [Nat.add_mul_div_left _ _ (by decide), Nat.div_eq_of_lt b.isLt, Nat.zero_add]
    rw [ofLE, List.length_cons, toLE, hlow, hhigh, ih]

theorem ofLE_lt (l : List Byte) : ofLE l < 256 ^ l.length := by
  induction l with
  | nil => exact Nat.one_pos
  | cons b l ih =>
    have hb : b.toNat < 256 := b.isLt
    rw [ofLE, List.length_cons, Nat.pow_succ]
    omega

end Nor

structure Format (α : Type) where
  size : ℕ
  put : α → List Nor.Byte
  get : List Nor.Byte → α

namespace Format

open Nor (Byte toLE ofLE)

variable {α β : Type}

structure Exact (F : Format α) : Prop where
  length_put : ∀ a, (F.put a).length = F.size
  put_get : ∀ l, l.length = F.size → F.put (F.get l) = l

def Fits (F : Format α) (a : α) : Prop := F.get (F.put a) = a

/-- The low `n` octets of a word, the lowest first. -/
def word (w n : ℕ) : Format (BitVec w) where
  size := n
  put v := toLE n v.toNat
  get l := BitVec.ofNat w (ofLE l)

def pair (F : Format α) (G : Format β) : Format (α × β) where
  size := F.size + G.size
  put p := F.put p.1 ++ G.put p.2
  get l := (F.get (l.take F.size), G.get (l.drop F.size))

/-- The format of a record from that of its fields. -/
def record (F : Format α) (mk : α → β) (fields : β → α) : Format β where
  size := F.size
  put b := F.put (fields b)
  get l := mk (F.get l)

/-- A value of the first format, with one of the second after it or nothing. -/
def putTail (F : Format α) (G : Format β) (p : α × Option β) : List Byte :=
  F.put p.1 ++ octetsOf p.2
where
  octetsOf : Option β → List Byte
    | some b => G.put b
    | none => []

def getTail (F : Format α) (G : Format β) (l : List Byte) : Option (α × Option β) :=
  if l.length = F.size then some (F.get l, none)
  else if l.length = F.size + G.size then
    some (F.get (l.take F.size), some (G.get (l.drop F.size)))
  else none

variable {F : Format α} {G : Format β} {w n : ℕ}

theorem Exact.word (h : 8 * n ≤ w) : (word w n).Exact where
  length_put _ := Nor.length_toLE _ _
  put_get l hl := by
    have hlt : ofLE l < 2 ^ w := by
      refine (Nor.ofLE_lt l).trans_le ?_
      rw [show (256 : ℕ) = 2 ^ 8 from rfl, ← Nat.pow_mul, show l.length = n from hl]
      exact Nat.pow_le_pow_right (by decide) h
    show toLE n (BitVec.ofNat w (ofLE l)).toNat = l
    rw [BitVec.toNat_ofNat, Nat.mod_eq_of_lt hlt, ← show l.length = n from hl, Nor.toLE_ofLE]

theorem fits_word {v : BitVec w} (h : v.toNat < 256 ^ n) : (word w n).Fits v := by
  show BitVec.ofNat w (ofLE (toLE n v.toNat)) = v
  rw [Nor.ofLE_toLE, Nat.mod_eq_of_lt h, BitVec.ofNat_toNat, BitVec.setWidth_eq]

theorem Exact.pair (hF : F.Exact) (hG : G.Exact) : (F.pair G).Exact where
  length_put p := by
    show (F.put p.1 ++ G.put p.2).length = _
    rw [List.length_append, hF.length_put, hG.length_put]
    rfl
  put_get l hl := by
    have hlen : l.length = F.size + G.size := hl
    show F.put (F.get (l.take F.size)) ++ G.put (G.get (l.drop F.size)) = l
    rw [hF.put_get _ (List.length_take_of_le (hlen ▸ Nat.le_add_right ..)),
      hG.put_get _ (by rw [List.length_drop, hlen, Nat.add_sub_cancel_left]),
      List.take_append_drop]

theorem fits_pair {p : α × β} (hF : F.Exact) (h₁ : F.Fits p.1) (h₂ : G.Fits p.2) :
    (F.pair G).Fits p := by
  show (F.get ((F.put p.1 ++ G.put p.2).take F.size),
    G.get ((F.put p.1 ++ G.put p.2).drop F.size)) = p
  rw [List.take_left' (hF.length_put p.1), List.drop_left' (hF.length_put p.1), h₁, h₂]

theorem Exact.record (hF : F.Exact) {mk : α → β} {fields : β → α}
    (h : ∀ l, fields (mk (F.get l)) = F.get l) : (F.record mk fields).Exact where
  length_put b := hF.length_put (fields b)
  put_get l hl := by
    show F.put (fields (mk (F.get l))) = l
    rw [h, hF.put_get l hl]

theorem fits_record {b : β} {mk : α → β} {fields : β → α} (h : F.Fits (fields b))
    (hb : mk (fields b) = b) : (F.record mk fields).Fits b := by
  show mk (F.get (F.put (fields b))) = b
  rw [h, hb]

theorem putTail_getTail (hF : F.Exact) (hG : G.Exact) {l : List Byte} {p : α × Option β}
    (h : F.getTail G l = some p) : F.putTail G p = l := by
  unfold getTail at h
  split_ifs at h with hhead hboth
  · rw [← Option.some.inj h]
    show F.put (F.get l) ++ [] = l
    rw [hF.put_get l hhead, List.append_nil]
  · rw [← Option.some.inj h]
    exact (hF.pair hG).put_get l hboth

theorem getTail_head (hF : F.Exact) {a : α} (ha : F.Fits a) :
    F.getTail G (F.putTail G (a, none)) = some (a, none) := by
  show (if (F.put a ++ []).length = F.size then some (F.get (F.put a ++ []), none) else _) = _
  rw [List.append_nil, if_pos (hF.length_put a), ha]

theorem getTail_both (hF : F.Exact) (hG : G.Exact) (hsize : 0 < G.size) {a : α} {b : β}
    (ha : F.Fits a) (hb : G.Fits b) :
    F.getTail G (F.putTail G (a, some b)) = some (a, some b) := by
  have hlen : (F.putTail G (a, some b)).length = F.size + G.size := (hF.pair hG).length_put (a, b)
  have hget : (F.get ((F.put a ++ G.put b).take F.size),
      G.get ((F.put a ++ G.put b).drop F.size)) = (a, b) := fits_pair (p := (a, b)) hF ha hb
  unfold getTail
  rw [if_neg (by omega), if_pos hlen]
  exact congrArg (fun q : α × β => some (q.1, some q.2)) hget

end Format
