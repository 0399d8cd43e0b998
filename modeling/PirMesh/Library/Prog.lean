import PirMesh.Library.Nor

/-! # Library — Flash programs and power cuts

A program is the tree of its flash operations: it reads a block and branches
on what it read, programs a block, erases a range, or returns.  Two meanings:

  * `run` — power stays on: the result and the final flash.
  * `cutAfter n` — power fails once `n` operations that change the flash are
    done: the flash that is left.  Reads change nothing and are not counted,
    so every moment between two operations is some `n`.

`Always P p f` says that `P` holds of the flash wherever the power fails,
the end included; its rules follow the program (`always_bind`). -/

namespace Nor

inductive Prog (α : Type) : Type
  | pure (a : α)
  | read (adr len : Nat) (next : List Byte → Prog α)
  | write (adr : Nat) (bs : List Byte) (next : Prog α)
  | erase (adr len : Nat) (next : Prog α)

namespace Prog

variable {α β : Type}

def bind : Prog α → (α → Prog β) → Prog β
  | pure a, q => q a
  | read adr len next, q => read adr len fun bs => (next bs).bind q
  | write adr bs next, q => write adr bs (next.bind q)
  | erase adr len next, q => erase adr len (next.bind q)

instance : Monad Prog where
  pure := Prog.pure
  bind := Prog.bind

/-! ### The single operations -/

def readAt (adr len : Nat) : Prog (List Byte) := read adr len pure

def writeAt (adr : Nat) (bs : List Byte) : Prog Unit := write adr bs (pure ())

def eraseAt (adr len : Nat) : Prog Unit := erase adr len (pure ())

/-! ### Meanings -/

/-- The result and the flash of an uninterrupted run. -/
def run : Prog α → Flash → α × Flash
  | pure a, f => (a, f)
  | read adr len next, f => (next (f.read adr len)).run f
  | write adr bs next, f => next.run (f.write adr bs)
  | erase adr len next, f => next.run (f.erase adr len)

/-- The flash when power fails after `n` changing operations. -/
def cutAfter : Prog α → Nat → Flash → Flash
  | pure _, _, f => f
  | read adr len next, n, f => (next (f.read adr len)).cutAfter n f
  | write _ _ _, 0, f => f
  | write adr bs next, n + 1, f => next.cutAfter n (f.write adr bs)
  | erase _ _ _, 0, f => f
  | erase adr len next, n + 1, f => next.cutAfter n (f.erase adr len)

/-- The flash after an uninterrupted run. -/
def exec (p : Prog α) (f : Flash) : Flash := (p.run f).2

/-- `P` holds wherever the power fails. -/
def Always (P : Flash → Prop) (p : Prog α) (f : Flash) : Prop := ∀ n, P (p.cutAfter n f)

/-- The program changes nothing. -/
def ReadOnly : Prog α → Prop
  | pure _ => True
  | read _ _ next => ∀ bs, (next bs).ReadOnly
  | write _ _ _ => False
  | erase _ _ _ => False

/-! ### Uninterrupted runs -/

@[simp] theorem run_pure (a : α) (f : Flash) : (Pure.pure a : Prog α).run f = (a, f) := rfl

@[simp] theorem run_readAt (adr len : Nat) (f : Flash) :
    (readAt adr len).run f = (f.read adr len, f) := rfl

@[simp] theorem run_writeAt (adr : Nat) (bs : List Byte) (f : Flash) :
    (writeAt adr bs).run f = ((), f.write adr bs) := rfl

@[simp] theorem run_eraseAt (adr len : Nat) (f : Flash) :
    (eraseAt adr len).run f = ((), f.erase adr len) := rfl

/-- Sequencing runs the second program on what the first leaves. -/
theorem run_bind (p : Prog α) (q : α → Prog β) (f : Flash) :
    (p >>= q).run f = (q (p.run f).1).run (p.run f).2 := by
  show (p.bind q).run f = _
  induction p generalizing f with
  | pure a => rfl
  | read adr len next ih => exact ih _ f
  | write adr bs next ih => exact ih _
  | erase adr len next ih => exact ih _

theorem run_bind_of {p : Prog α} {f g : Flash} {a : α} (h : p.run f = (a, g)) (q : α → Prog β) :
    (p >>= q).run f = (q a).run g := by rw [run_bind, h]

@[simp] theorem run_readAt_bind (adr len : Nat) (q : List Byte → Prog β) (f : Flash) :
    (readAt adr len >>= q).run f = (q (f.read adr len)).run f := rfl

@[simp] theorem run_writeAt_bind (adr : Nat) (bs : List Byte) (q : Unit → Prog β) (f : Flash) :
    (writeAt adr bs >>= q).run f = (q ()).run (f.write adr bs) := rfl

@[simp] theorem run_eraseAt_bind (adr len : Nat) (q : Unit → Prog β) (f : Flash) :
    (eraseAt adr len >>= q).run f = (q ()).run (f.erase adr len) := rfl

theorem run_ite {c : Prop} {_ : Decidable c} (p q : Prog α) (f : Flash) :
    (if c then p else q).run f = if c then p.run f else q.run f := apply_ite (Prog.run · f) ..

/-! ### Power cuts -/

@[simp] theorem cutAfter_zero (p : Prog α) (f : Flash) : p.cutAfter 0 f = f := by
  induction p generalizing f with
  | pure a => rfl
  | read adr len next ih => exact ih _ f
  | write adr bs next _ => rfl
  | erase adr len next _ => rfl

theorem Always.start {P : Flash → Prop} {p : Prog α} {f : Flash} (h : Always P p f) : P f :=
  cutAfter_zero p f ▸ h 0

@[simp] theorem always_pure (P : Flash → Prop) (a : α) (f : Flash) :
    Always P (Pure.pure a : Prog α) f ↔ P f := ⟨fun h => h 0, fun h _ => h⟩

@[simp] theorem always_readAt (P : Flash → Prop) (adr len : Nat) (f : Flash) :
    Always P (readAt adr len) f ↔ P f := ⟨fun h => h 0, fun h _ => h⟩

theorem always_write (P : Flash → Prop) (adr : Nat) (bs : List Byte) (p : Prog α) (f : Flash) :
    Always P (write adr bs p) f ↔ P f ∧ Always P p (f.write adr bs) := by
  refine ⟨fun h => ⟨h 0, fun n => h (n + 1)⟩, fun h n => ?_⟩
  cases n with
  | zero => exact h.1
  | succ n => exact h.2 n

theorem always_erase (P : Flash → Prop) (adr len : Nat) (p : Prog α) (f : Flash) :
    Always P (erase adr len p) f ↔ P f ∧ Always P p (f.erase adr len) := by
  refine ⟨fun h => ⟨h 0, fun n => h (n + 1)⟩, fun h n => ?_⟩
  cases n with
  | zero => exact h.1
  | succ n => exact h.2 n

@[simp] theorem always_writeAt (P : Flash → Prop) (adr : Nat) (bs : List Byte) (f : Flash) :
    Always P (writeAt adr bs) f ↔ P f ∧ P (f.write adr bs) := by
  rw [writeAt, always_write]
  exact and_congr_right fun _ => always_pure ..

@[simp] theorem always_eraseAt (P : Flash → Prop) (adr len : Nat) (f : Flash) :
    Always P (eraseAt adr len) f ↔ P f ∧ P (f.erase adr len) := by
  rw [eraseAt, always_erase]
  exact and_congr_right fun _ => always_pure ..

/-- The flash at the end is one of the flashes a cut can leave. -/
theorem Always.exec {P : Flash → Prop} {p : Prog α} {f : Flash} (h : Always P p f) :
    P (p.exec f) := by
  induction p generalizing f with
  | pure a => exact h 0
  | read adr len next ih => exact ih _ (f := f) h
  | write adr bs next ih => exact ih ((always_write ..).mp h).2
  | erase adr len next ih => exact ih ((always_erase ..).mp h).2

/-- **Cuts of a sequence.**  The power fails in the first program, or in the
second one run on what the first leaves. -/
theorem always_bind (P : Flash → Prop) (p : Prog α) (q : α → Prog β) (f : Flash) :
    Always P (p >>= q) f ↔ Always P p f ∧ Always P (q (p.run f).1) (p.run f).2 := by
  show Always P (p.bind q) f ↔ _
  induction p generalizing f with
  | pure a =>
    exact ⟨fun h => ⟨fun _ => h.start, h⟩, And.right⟩
  | read adr len next ih => exact ih _ f
  | write adr bs next ih =>
    exact (always_write ..).trans
      ((and_congr_right fun _ => ih _).trans (and_assoc.symm.trans
        (and_congr_left fun _ => (always_write ..).symm)))
  | erase adr len next ih =>
    exact (always_erase ..).trans
      ((and_congr_right fun _ => ih _).trans (and_assoc.symm.trans
        (and_congr_left fun _ => (always_erase ..).symm)))

theorem Always.mono {P Q : Flash → Prop} {p : Prog α} {f : Flash} (h : Always P p f)
    (hPQ : ∀ g, P g → Q g) : Always Q p f := fun n => hPQ _ (h n)

/-! ### Programs that only read -/

theorem ReadOnly.run {p : Prog α} (h : p.ReadOnly) (f : Flash) : (p.run f).2 = f := by
  induction p with
  | pure a => rfl
  | read adr len next ih => exact ih _ (h _)
  | write adr bs next ih => exact h.elim
  | erase adr len next ih => exact h.elim

theorem ReadOnly.always {p : Prog α} (h : p.ReadOnly) (P : Flash → Prop) (f : Flash) :
    Always P p f ↔ P f := by
  refine ⟨fun hp => h.run f ▸ hp.exec, fun hf n => ?_⟩
  induction p generalizing n with
  | pure a => exact hf
  | read adr len next ih => exact ih _ (h _) n
  | write adr bs next ih => exact h.elim
  | erase adr len next ih => exact h.elim

theorem readOnly_pure (a : α) : (Pure.pure a : Prog α).ReadOnly := trivial

theorem readOnly_readAt (adr len : Nat) : (readAt adr len).ReadOnly := fun _ => trivial

theorem ReadOnly.bind {p : Prog α} {q : α → Prog β} (hp : p.ReadOnly) (hq : ∀ a, (q a).ReadOnly) :
    (p >>= q).ReadOnly := by
  show (p.bind q).ReadOnly
  induction p with
  | pure a => exact hq a
  | read adr len next ih => exact fun bs => ih bs (hp bs)
  | write adr bs next ih => exact hp.elim
  | erase adr len next ih => exact hp.elim

theorem ReadOnly.ite {c : Prop} [Decidable c] {p q : Prog α} (hp : p.ReadOnly) (hq : q.ReadOnly) :
    (if c then p else q).ReadOnly := by split <;> assumption

/-- On `f` the program only reads, and returns `a`. -/
inductive Reads (f : Flash) : Prog α → α → Prop
  | pure (a : α) : Reads f (Prog.pure a) a
  | read {adr len : Nat} {next : List Byte → Prog α} {a : α} :
      Reads f (next (f.read adr len)) a → Reads f (Prog.read adr len next) a

theorem Reads.run {f : Flash} {p : Prog α} {a : α} (h : Reads f p a) : p.run f = (a, f) := by
  induction h with
  | pure a => rfl
  | read _ ih => exact ih

theorem Reads.bind {f : Flash} {p : Prog α} {q : α → Prog β} {a : α} {b : β} (hp : Reads f p a)
    (hq : Reads f (q a) b) : Reads f (p >>= q) b := by
  induction hp with
  | pure a => exact hq
  | read _ ih => exact .read (ih hq)

theorem ReadOnly.reads {p : Prog α} (h : p.ReadOnly) (f : Flash) : Reads f p (p.run f).1 := by
  induction p with
  | pure a => exact .pure a
  | read adr len next ih => exact .read (ih _ (h _))
  | write adr bs next ih => exact h.elim
  | erase adr len next ih => exact h.elim

/-- Cuts behind a program that only reads. -/
theorem Reads.cutAfter_bind {f : Flash} {p : Prog α} {a : α} (h : Reads f p a) (q : α → Prog β)
    (n : Nat) : (p >>= q).cutAfter n f = (q a).cutAfter n f := by
  induction h with
  | pure a => rfl
  | read _ ih => exact ih

theorem Reads.cutAfter {f : Flash} {p : Prog α} {a : α} (h : Reads f p a) (n : Nat) :
    p.cutAfter n f = f := by
  induction h with
  | pure a => rfl
  | read _ ih => exact ih

/-- Nothing is left to cut when the second program returns at once. -/
theorem cutAfter_bind_pure {f : Flash} {p : Prog α} {q : α → Prog β} {b : β}
    (h : q (p.run f).1 = Pure.pure b) (n : Nat) : (p >>= q).cutAfter n f = p.cutAfter n f := by
  show (p.bind q).cutAfter n f = _
  induction p generalizing f n with
  | pure a =>
    show (q a).cutAfter n f = f
    rw [show q a = Pure.pure b from h]
    rfl
  | read adr len next ih => exact ih _ h n
  | write adr bs next ih =>
    cases n with
    | zero => rfl
    | succ n => exact ih h n
  | erase adr len next ih =>
    cases n with
    | zero => rfl
    | succ n => exact ih h n

@[simp] theorem cutAfter_map (p : Prog α) (g : α → β) (n : Nat) (f : Flash) :
    (p >>= fun a => Pure.pure (g a)).cutAfter n f = p.cutAfter n f :=
  cutAfter_bind_pure (b := g (p.run f).1) rfl n

/-! ### Where a program writes -/

/-- Every byte the program can program is in `R`; it may erase anything. -/
def WritesIn (R : Nat → Prop) : Prog α → Prop
  | pure _ => True
  | read _ _ next => ∀ bs, (next bs).WritesIn R
  | write adr bs next => (∀ i < bs.length, R (adr + i)) ∧ next.WritesIn R
  | erase _ _ next => next.WritesIn R

/-- A blank byte where the program does not write is blank wherever power fails. -/
theorem WritesIn.blank {R : Nat → Prop} {p : Prog α} (h : p.WritesIn R) {f : Flash} {a : Nat}
    (ha : ¬ R a) (hf : f a = Nor.blank) (n : Nat) : p.cutAfter n f a = Nor.blank := by
  induction p generalizing f n with
  | pure b => exact hf
  | read adr len next ih => exact ih _ (h _) hf n
  | write adr bs next ih =>
    cases n with
    | zero => exact hf
    | succ n =>
      refine ih h.2 ?_ n
      rw [Flash.write_outside, hf]
      by_cases hlt : a < adr
      · exact .inl hlt
      · refine .inr (Nat.le_of_not_lt fun hlt' => ha ?_)
        have := h.1 (a - adr) (by omega)
        rwa [Nat.add_sub_cancel' (Nat.le_of_not_lt hlt)] at this
  | erase adr len next ih =>
    cases n with
    | zero => exact hf
    | succ n =>
      refine ih h ?_ n
      show (if adr ≤ a ∧ a < adr + len then Nor.blank else f a) = Nor.blank
      split
      · rfl
      · exact hf

theorem WritesIn.bind {R : Nat → Prop} {p : Prog α} {q : α → Prog β} (hp : p.WritesIn R)
    (hq : ∀ a, (q a).WritesIn R) : (p >>= q).WritesIn R := by
  show (p.bind q).WritesIn R
  induction p with
  | pure a => exact hq a
  | read adr len next ih => exact fun bs => ih bs (hp bs)
  | write adr bs next ih => exact ⟨hp.1, ih hp.2⟩
  | erase adr len next ih => exact ih hp

theorem WritesIn.ite {R : Nat → Prop} {c : Prop} [Decidable c] {p q : Prog α} (hp : p.WritesIn R)
    (hq : q.WritesIn R) : (if c then p else q).WritesIn R := by split <;> assumption

theorem ReadOnly.writesIn {p : Prog α} (h : p.ReadOnly) (R : Nat → Prop) : p.WritesIn R := by
  induction p with
  | pure a => trivial
  | read adr len next ih => exact fun bs => ih bs (h bs)
  | write adr bs next ih => exact h.elim
  | erase adr len next ih => exact h.elim

/-! ### Erasing a list of sectors -/

def eraseList (len : Nat) : List Nat → Prog Unit
  | [] => Pure.pure ()
  | a :: as => do
    eraseAt a len
    eraseList len as

@[simp] theorem run_eraseList (len : Nat) (l : List Nat) (f : Flash) :
    (eraseList len l).run f = ((), f.eraseList len l) := by
  induction l generalizing f with
  | nil => rfl
  | cons a l ih => exact ih _

theorem writesIn_eraseList (R : Nat → Prop) (len : Nat) (l : List Nat) :
    (eraseList len l).WritesIn R := by
  induction l with
  | nil => trivial
  | cons a l ih => exact ih

/-- A cut leaves the first sectors of the list erased. -/
theorem cutAfter_eraseList (len : Nat) (l : List Nat) (n : Nat) (f : Flash) :
    (eraseList len l).cutAfter n f = f.eraseList len (l.take n) := by
  induction l generalizing n f with
  | nil => rw [List.take_nil]; rfl
  | cons a l ih =>
    cases n with
    | zero => exact cutAfter_zero _ _
    | succ n => exact ih n _

/-! ### Programming a byte at a time -/

/-- A cut can fall between any two bytes. -/
def writeBytes (adr : Nat) : List Byte → Prog Unit
  | [] => Pure.pure ()
  | b :: bs => do
    writeAt adr [b]
    writeBytes (adr + 1) bs

theorem write_cons (f : Flash) (adr : Nat) (b : Byte) (bs : List Byte) :
    (f.write adr [b]).write (adr + 1) bs = f.write adr (b :: bs) := by
  funext a
  rcases Nat.lt_trichotomy a adr with hlt | rfl | hgt
  · rw [Flash.write_outside _ (.inl (by omega)), Flash.write_outside _ (.inl hlt),
      Flash.write_outside _ (.inl hlt)]
  · rw [Flash.write_outside _ (.inl (Nat.lt_succ_self a)), Flash.write_head, Flash.write_head]
  · obtain ⟨k, rfl⟩ : ∃ k, a = adr + 1 + k := ⟨a - (adr + 1), by omega⟩
    have hsub : adr + 1 + k - adr = k + 1 := by omega
    unfold Flash.write
    rw [if_pos (Nat.le_add_right _ _), if_pos (by omega), if_pos (by omega), hsub,
      Nat.add_sub_cancel_left, List.getD_cons_succ, List.getD_cons_succ, List.getD_nil,
      Flash.and_blank]

@[simp] theorem run_writeBytes (adr : Nat) (bs : List Byte) (f : Flash) :
    (writeBytes adr bs).run f = ((), f.write adr bs) := by
  induction bs generalizing adr f with
  | nil =>
    have hnil : f.write adr [] = f := funext fun a => Flash.write_outside f (Nat.lt_or_ge a adr)
    rw [hnil]
    rfl
  | cons b bs ih =>
    rw [writeBytes, run_writeAt_bind, ih, write_cons]

/-- The bytes up to the cut are programmed. -/
theorem cutAfter_writeBytes (adr : Nat) (bs : List Byte) (n : Nat) (f : Flash) :
    (writeBytes adr bs).cutAfter n f = f.write adr (bs.take n) := by
  induction bs generalizing adr f n with
  | nil =>
    rw [List.take_nil]
    exact (funext fun a => Flash.write_outside f (Nat.lt_or_ge a adr)).symm
  | cons b bs ih =>
    cases n with
    | zero =>
      rw [cutAfter_zero, List.take_zero]
      exact (funext fun a => Flash.write_outside f (Nat.lt_or_ge a adr)).symm
    | succ n => exact (ih (adr + 1) n (f.write adr [b])).trans (write_cons f adr b (bs.take n))

end Prog

end Nor
