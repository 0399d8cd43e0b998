import PirMesh.Library.Prog

/-! # Library — Flash programs: frames and the place of a cut

`ChangesIn R p` says that `p` programs and erases only addresses in `R`; every other byte is the
same wherever the power fails.  `ops p f` counts the operations that change the flash, and so
tells in which of two programs in a row a cut falls (`cutAfter_bind`). -/

namespace Nor

namespace Flash

theorem eq_of_read_eq {f g : Flash} {a b len : Nat} (h : f.read a len = g.read b len) {i : Nat}
    (hi : i < len) : f (a + i) = g (b + i) := by
  have hget := congrArg (fun l => l[i]?) h
  have hf : i < (f.read a len).length := by rwa [length_read]
  have hg : i < (g.read b len).length := by rwa [length_read]
  rw [List.getElem?_eq_getElem hf, List.getElem?_eq_getElem hg, getElem_read, getElem_read] at hget
  exact Option.some.inj hget

/-- Programming what is there changes nothing. -/
theorem write_same {f : Flash} {adr : Nat} {bs : List Byte}
    (h : ∀ (i : Nat) (hi : i < bs.length), f (adr + i) = bs[i]) : f.write adr bs = f := by
  funext a
  by_cases hin : adr ≤ a ∧ a < adr + bs.length
  · obtain ⟨i, rfl⟩ : ∃ i, a = adr + i := ⟨a - adr, (Nat.add_sub_cancel' hin.1).symm⟩
    have hi : i < bs.length := Nat.lt_of_add_lt_add_left hin.2
    rw [write_at f adr hi, h i hi, BitVec.and_self]
  · exact write_outside f (by omega)

end Flash

namespace Prog

variable {α β : Type} {R : Nat → Prop}

/-! ### Frames -/

def ChangesIn (R : Nat → Prop) : Prog α → Prop
  | pure _ => True
  | read _ len next => ∀ bs, bs.length = len → (next bs).ChangesIn R
  | write adr bs next => (∀ i < bs.length, R (adr + i)) ∧ next.ChangesIn R
  | erase adr len next => (∀ i < len, R (adr + i)) ∧ next.ChangesIn R

/-- Every other byte stays, wherever the power fails. -/
theorem ChangesIn.cutAfter {p : Prog α} (h : p.ChangesIn R) (f : Flash) {a : Nat} (ha : ¬ R a)
    (n : Nat) : p.cutAfter n f a = f a := by
  have hout : ∀ adr len, (∀ i < len, R (adr + i)) → a < adr ∨ adr + len ≤ a := by
    intro adr len hin
    by_cases hno : a < adr ∨ adr + len ≤ a
    · exact hno
    · have hR := hin (a - adr) (by omega)
      rw [Nat.add_sub_cancel' (by omega)] at hR
      exact absurd hR ha
  induction p generalizing f n with
  | pure b => rfl
  | read adr len next ih => exact ih _ (h _ (Flash.length_read ..)) f n
  | write adr bs next ih =>
    cases n with
    | zero => rfl
    | succ n => exact (ih h.2 _ n).trans (Flash.write_outside f (hout adr bs.length h.1))
  | erase adr len next ih =>
    cases n with
    | zero => rfl
    | succ n => exact (ih h.2 _ n).trans (Flash.erase_outside f (hout adr len h.1))

theorem ChangesIn.exec {p : Prog α} (h : p.ChangesIn R) (f : Flash) {a : Nat} (ha : ¬ R a) :
    p.exec f a = f a :=
  Always.exec (P := fun g => g a = f a) fun n => h.cutAfter f ha n

theorem ChangesIn.mono {R' : Nat → Prop} {p : Prog α} (h : p.ChangesIn R)
    (hR : ∀ a, R a → R' a) : p.ChangesIn R' := by
  induction p with
  | pure a => trivial
  | read adr len next ih => exact fun bs hlen => ih bs (h bs hlen)
  | write adr bs next ih => exact ⟨fun i hi => hR _ (h.1 i hi), ih h.2⟩
  | erase adr len next ih => exact ⟨fun i hi => hR _ (h.1 i hi), ih h.2⟩

theorem ChangesIn.bind {p : Prog α} {q : α → Prog β} (hp : p.ChangesIn R)
    (hq : ∀ a, (q a).ChangesIn R) : (p >>= q).ChangesIn R := by
  show (p.bind q).ChangesIn R
  induction p with
  | pure a => exact hq a
  | read adr len next ih => exact fun bs hlen => ih bs (hp bs hlen)
  | write adr bs next ih => exact ⟨hp.1, ih hp.2⟩
  | erase adr len next ih => exact ⟨hp.1, ih hp.2⟩

theorem ChangesIn.ite {c : Prop} [Decidable c] {p q : Prog α} (hp : p.ChangesIn R)
    (hq : q.ChangesIn R) : (if c then p else q).ChangesIn R := by split <;> assumption

theorem changesIn_pure (a : α) : (Pure.pure a : Prog α).ChangesIn R := trivial

/-- The rest of the program has only to do with blocks of the length that is read. -/
theorem changesIn_readAt_bind {adr len : Nat} {q : List Byte → Prog β}
    (hq : ∀ bs, bs.length = len → (q bs).ChangesIn R) : (readAt adr len >>= q).ChangesIn R := hq

theorem changesIn_writeAt {adr : Nat} {bs : List Byte} (h : ∀ i < bs.length, R (adr + i)) :
    (writeAt adr bs).ChangesIn R := ⟨h, trivial⟩

theorem changesIn_eraseAt {adr len : Nat} (h : ∀ i < len, R (adr + i)) :
    (eraseAt adr len).ChangesIn R := ⟨h, trivial⟩

/-! ### Reading first -/

theorem cutAfter_readAt_bind (adr len : Nat) (q : List Byte → Prog β) (n : Nat) (f : Flash) :
    (readAt adr len >>= q).cutAfter n f = (q (f.read adr len)).cutAfter n f := rfl

theorem always_readAt_bind (P : Flash → Prop) (adr len : Nat) (q : List Byte → Prog β)
    (f : Flash) : Always P (readAt adr len >>= q) f ↔ Always P (q (f.read adr len)) f := Iff.rfl

/-! ### Operations -/

/-- How many operations change the flash. -/
def ops : Prog α → Flash → Nat
  | pure _, _ => 0
  | read adr len next, f => (next (f.read adr len)).ops f
  | write adr bs next, f => next.ops (f.write adr bs) + 1
  | erase adr len next, f => next.ops (f.erase adr len) + 1

/-- No cut behind the last operation. -/
theorem cutAfter_of_ops_le {p : Prog α} {f : Flash} {n : Nat} (h : p.ops f ≤ n) :
    p.cutAfter n f = p.exec f := by
  induction p generalizing f n with
  | pure a => rfl
  | read adr len next ih => exact ih _ h
  | write adr bs next ih =>
    cases n with
    | zero => exact absurd h (Nat.not_succ_le_zero _)
    | succ n => exact ih (Nat.le_of_succ_le_succ h)
  | erase adr len next ih =>
    cases n with
    | zero => exact absurd h (Nat.not_succ_le_zero _)
    | succ n => exact ih (Nat.le_of_succ_le_succ h)

/-- **Two programs in a row.**  The cut falls in the first one, or in the second. -/
theorem cutAfter_bind (p : Prog α) (q : α → Prog β) (f : Flash) (n : Nat) :
    (p >>= q).cutAfter n f =
      if n < p.ops f then p.cutAfter n f
      else (q (p.run f).1).cutAfter (n - p.ops f) (p.run f).2 := by
  show (p.bind q).cutAfter n f = _
  induction p generalizing f n with
  | pure a => exact (if_neg (Nat.not_lt_zero n)).symm
  | read adr len next ih => exact ih _ f n
  | write adr bs next ih =>
    cases n with
    | zero => exact (if_pos (Nat.succ_pos _)).symm
    | succ n =>
      refine (ih (f.write adr bs) n).trans ?_
      show _ = if n + 1 < next.ops (f.write adr bs) + 1 then _ else
        Prog.cutAfter _ (n + 1 - (next.ops (f.write adr bs) + 1)) _
      by_cases hlt : n < next.ops (f.write adr bs)
      · rw [if_pos hlt, if_pos (Nat.succ_lt_succ hlt)]
        rfl
      · rw [if_neg hlt, if_neg fun h => hlt (Nat.lt_of_succ_lt_succ h), Nat.add_sub_add_right]
        rfl
  | erase adr len next ih =>
    cases n with
    | zero => exact (if_pos (Nat.succ_pos _)).symm
    | succ n =>
      refine (ih (f.erase adr len) n).trans ?_
      show _ = if n + 1 < next.ops (f.erase adr len) + 1 then _ else
        Prog.cutAfter _ (n + 1 - (next.ops (f.erase adr len) + 1)) _
      by_cases hlt : n < next.ops (f.erase adr len)
      · rw [if_pos hlt, if_pos (Nat.succ_lt_succ hlt)]
        rfl
      · rw [if_neg hlt, if_neg fun h => hlt (Nat.lt_of_succ_lt_succ h), Nat.add_sub_add_right]
        rfl

end Prog

end Nor
