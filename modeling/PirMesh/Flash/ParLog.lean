import PirMesh.Flash.ParStore
import PirMesh.Library.CommitLog

/-! # Flash — A parameter sector as a log of slots

`Holds c f l` says that the sector of record place `c` in flash `f` is the log
`l`: slot `k` carries the mark and the data of the log's slot `k`, and
everything behind the last slot is blank, with room for one more flag word.
Each flash operation of the store is one step of the log under `Holds`. -/

namespace PirMesh

open Nor CommitLog

/-! ### Record places -/

/-- Where a parameter record lives: its sector and its length. -/
structure ParCfg where
  adrBase : Nat
  size : Nat
  size_pos : 0 < size
  size_le : size + sizeSaveFlag + sizeSaveFlag ≤ flashSectorSize

/-- A parameter block of the record's length. -/
abbrev Record (c : ParCfg) := { x : List Byte // x.length = c.size }

namespace ParCfg

variable (c : ParCfg)

def sizeSave : Nat := c.size + sizeSaveFlag

def slotAdr (k : Nat) : Nat := c.adrBase + k * c.sizeSave

theorem slotAdr_zero : c.slotAdr 0 = c.adrBase := by simp [slotAdr]

theorem slotAdr_succ (k : Nat) : c.slotAdr (k + 1) = c.slotAdr k + c.sizeSave := by
  simp [slotAdr, Nat.add_mul, Nat.add_assoc]

theorem slotAdr_mono {j k : Nat} (h : j ≤ k) : c.slotAdr j ≤ c.slotAdr k :=
  Nat.add_le_add_left (Nat.mul_le_mul_right _ h) _

/-- Slots do not overlap. -/
theorem slotAdr_lt {j k : Nat} (h : j < k) : c.slotAdr j + c.sizeSave ≤ c.slotAdr k :=
  c.slotAdr_succ j ▸ c.slotAdr_mono h

end ParCfg

/-! ### One slot -/

/-- The flag byte of each mark. -/
def markByte : Mark → Byte
  | .pending => saveFlagPre
  | .committed => saveFlag
  | .retired => 0

theorem markByte_eq_saveFlag {m : Mark} : markByte m = saveFlag ↔ m = .committed := by
  cases m <;> decide

section

variable {c : ParCfg} {f g : Flash} {k : Nat} {s : Slot (List Byte)}

structure SlotAt (c : ParCfg) (f : Flash) (k : Nat) (s : Slot (List Byte)) : Prop where
  flag : f (c.slotAdr k) = markByte s.mark
  data : f.read (c.slotAdr k + sizeSaveFlag) c.size = s.data

/-- Two flashes agree away from slot `k`. -/
def SameOutside (c : ParCfg) (k : Nat) (f g : Flash) : Prop :=
  ∀ a, a < c.slotAdr k ∨ c.slotAdr k + c.sizeSave ≤ a → g a = f a

theorem SlotAt.congr (h : SlotAt c f k s)
    (hfg : ∀ a, c.slotAdr k ≤ a → a < c.slotAdr k + c.sizeSave → g a = f a) : SlotAt c g k s where
  flag := (hfg _ (Nat.le_refl _) (by simp only [ParCfg.sizeSave, sizeSaveFlag]; omega)).trans h.flag
  data := (Flash.read_congr fun i hi =>
    hfg _ (by omega) (by simp only [ParCfg.sizeSave]; omega)).trans
    h.data

/-- Opening a blank slot. -/
theorem SlotAt.opened
    (h : ∀ a, c.slotAdr k ≤ a → a < c.slotAdr k + c.sizeSave → f a = blank) :
    SlotAt c (f.write (c.slotAdr k) (flagWord saveFlagPre)) k
      ⟨.pending, List.replicate c.size blank⟩ where
  flag := by
    rw [flagWord, Flash.write_head, h _ (Nat.le_refl _) (by simp [ParCfg.sizeSave, sizeSaveFlag]),
      Flash.blank_and]
    rfl
  data := by
    rw [Flash.read_write_outside f (by simp [flagWord, sizeSaveFlag])]
    exact Flash.read_eq_replicate fun i hi => h _ (by omega) (by simp only [ParCfg.sizeSave]; omega)

/-- Filling an opened slot. -/
theorem SlotAt.filled (h : SlotAt c f k ⟨.pending, List.replicate c.size blank⟩) (x : Record c) :
    SlotAt c (f.write (c.slotAdr k + sizeSaveFlag) x.1) k ⟨.pending, x.1⟩ where
  flag := (Flash.write_outside f (.inl (by simp [sizeSaveFlag]))).trans h.flag
  data := by
    have hb : ∀ i < x.1.length, f (c.slotAdr k + sizeSaveFlag + i) = blank := fun i hi => by
      have hlen : i < (f.read (c.slotAdr k + sizeSaveFlag) c.size).length := by
        simpa using x.2 ▸ hi
      rw [← Flash.getElem_read f _ c.size i hlen, List.getElem_of_eq h.data hlen,
        List.getElem_replicate]
    have h := Flash.read_write_blank hb
    rwa [x.2] at h

/-- Programming a flag word over a slot's flag moves its mark. -/
theorem SlotAt.flagged {m : Mark} {b : Byte} (h : SlotAt c f k s)
    (hm : markByte s.mark &&& b = markByte m) :
    SlotAt c (f.write (c.slotAdr k) (flagWord b)) k { s with mark := m } where
  flag := by rw [flagWord, Flash.write_head, h.flag, hm]
  data := (Flash.read_write_outside f (by simp [flagWord, sizeSaveFlag])).trans h.data

theorem sameOutside_flag (b : Byte) :
    SameOutside c k f (f.write (c.slotAdr k) (flagWord b)) := fun a ha =>
  Flash.write_outside f
    (by simp only [flagWord, ParCfg.sizeSave, sizeSaveFlag] at ha ⊢; simp; omega)

theorem sameOutside_data (x : Record c) :
    SameOutside c k f (f.write (c.slotAdr k + sizeSaveFlag) x.1) := fun a ha =>
  Flash.write_outside f (by rw [x.2]; simp only [ParCfg.sizeSave] at ha; omega)

end

/-! ### The whole sector -/

structure Holds (c : ParCfg) (f : Flash) (l : Log (List Byte)) : Prop where
  slots : ∀ k (h : k < l.length), SlotAt c f k l[k]
  fresh : ∀ a, c.slotAdr l.length ≤ a → a < c.adrBase + flashSectorSize → f a = blank
  room : l.length * c.sizeSave + sizeSaveFlag ≤ flashSectorSize

/-- No room for another slot and the blank flag word behind it. -/
def Full (c : ParCfg) (l : Log (List Byte)) : Prop :=
  flashSectorSize < (l.length + 1) * c.sizeSave + sizeSaveFlag

instance (c : ParCfg) (l : Log (List Byte)) : Decidable (Full c l) :=
  inferInstanceAs (Decidable (_ < _))

section

variable {c : ParCfg} {f g : Flash} {l : Log (List Byte)} {s t : Slot (List Byte)}

theorem holds_nil (h : ∀ a, c.adrBase ≤ a → a < c.adrBase + flashSectorSize → f a = blank) :
    Holds c f [] where
  slots k hk := absurd hk (by simp)
  fresh a h1 h2 := h a (by simpa [c.slotAdr_zero] using h1) h2
  room := by simp [sizeSaveFlag, flashSectorSize]

/-- The log is what the sector's own bytes say. -/
theorem Holds.congr (h : Holds c f l)
    (hfg : ∀ a, c.adrBase ≤ a → a < c.adrBase + flashSectorSize → g a = f a) : Holds c g l where
  slots k hk := by
    refine (h.slots k hk).congr fun a ha ha' => hfg a ?_ ?_
    · exact Nat.le_trans (Nat.le_add_right _ _) ha
    · have hend := c.slotAdr_lt hk
      have hroom := h.room
      simp only [ParCfg.slotAdr] at ha' hend
      omega
  fresh a ha ha' := by
    rw [hfg a (Nat.le_trans (Nat.le_add_right _ _) ha) ha', h.fresh a ha ha']
  room := h.room

/-- Erasing empties the log. -/
theorem holds_erase (c : ParCfg) (f : Flash) : Holds c (f.erase c.adrBase flashSectorSize) [] :=
  holds_nil fun _ h1 h2 => Flash.erase_inside f ⟨h1, h2⟩

/-- The last slot, and the log before it. -/
theorem holds_snoc : Holds c f (l ++ [s]) ↔
    (∀ k (h : k < l.length), SlotAt c f k l[k]) ∧ SlotAt c f l.length s ∧
    (∀ a, c.slotAdr (l.length + 1) ≤ a → a < c.adrBase + flashSectorSize → f a = blank) ∧
    (l.length + 1) * c.sizeSave + sizeSaveFlag ≤ flashSectorSize := by
  constructor
  · refine fun h => ⟨fun k hk => ?_, ?_, ?_, ?_⟩
    · have := h.slots k (by simp; omega)
      rwa [List.getElem_append_left hk] at this
    · simpa using h.slots l.length (by simp)
    · simpa using h.fresh
    · simpa using h.room
  · refine fun ⟨h1, h2, h3, h4⟩ => ⟨fun k hk => ?_, by simpa using h3, by simpa using h4⟩
    rcases Nat.lt_or_ge k l.length with hlt | hge
    · rw [List.getElem_append_left hlt]
      exact h1 k hlt
    · obtain rfl : k = l.length := by simp at hk; omega
      simpa using h2

/-- A change to the last slot only. -/
theorem Holds.last (h : Holds c f (l ++ [s])) (hfg : SameOutside c l.length f g)
    (hs : SlotAt c g l.length t) : Holds c g (l ++ [t]) := by
  obtain ⟨h1, -, h3, h4⟩ := holds_snoc.mp h
  refine holds_snoc.mpr ⟨fun k hk => (h1 k hk).congr fun a _ ha => hfg a (.inl ?_), hs,
    fun a ha hb => ?_, h4⟩
  · exact Nat.lt_of_lt_of_le ha (c.slotAdr_lt hk)
  · rw [hfg a (.inr (c.slotAdr_succ _ ▸ ha))]
    exact h3 a ha hb

/-- A new slot behind the log. -/
theorem Holds.extend (h : Holds c f l) (hroom : ¬ Full c l) (hfg : SameOutside c l.length f g)
    (hs : SlotAt c g l.length s) : Holds c g (l ++ [s]) := by
  refine holds_snoc.mpr ⟨fun k hk => (h.slots k hk).congr fun a _ ha => hfg a (.inl ?_), hs,
    fun a ha hb => ?_, Nat.le_of_not_lt hroom⟩
  · exact Nat.lt_of_lt_of_le ha (c.slotAdr_lt hk)
  · rw [hfg a (.inr (c.slotAdr_succ _ ▸ ha))]
    exact h.fresh a (Nat.le_trans (c.slotAdr_mono (Nat.le_succ _)) ha) hb

/-- A change to the slot before the last. -/
theorem Holds.beforeLast {r : Slot (List Byte)} (h : Holds c f (l ++ [s] ++ [r]))
    (hfg : SameOutside c l.length f g) (hs : SlotAt c g l.length t) :
    Holds c g (l ++ [t] ++ [r]) := by
  obtain ⟨h1, h2, h3, h4⟩ := holds_snoc.mp h
  have hend := c.slotAdr_lt (j := l.length) (k := l.length + 1) (Nat.lt_succ_self _)
  simp only [List.length_append, List.length_singleton] at h2 h3 h4
  refine holds_snoc.mpr ⟨fun k hk => ?_, ?_, ?_, by simpa using h4⟩
  · rcases Nat.lt_or_ge k l.length with hlt | hge
    · have := h1 k (by simp; omega)
      rw [List.getElem_append_left hlt] at this ⊢
      exact this.congr fun a _ ha => hfg a (.inl (Nat.lt_of_lt_of_le ha (c.slotAdr_lt hlt)))
    · obtain rfl : k = l.length := by simp at hk; omega
      simpa using hs
  · simp only [List.length_append, List.length_singleton]
    exact h2.congr fun a ha _ => hfg a (.inr (Nat.le_trans hend ha))
  · simp only [List.length_append, List.length_singleton]
    intro a ha hb
    have := c.slotAdr_succ (l.length + 1)
    rw [hfg a (.inr (by omega))]
    exact h3 a ha hb

/-! ### The flash operations of a store -/

theorem Holds.blankSlot (h : Holds c f l) (hroom : ¬ Full c l) (a : Nat)
    (h1 : c.slotAdr l.length ≤ a) (h2 : a < c.slotAdr l.length + c.sizeSave) : f a = blank := by
  refine h.fresh a h1 ?_
  simp only [Full, Nat.add_mul, Nat.one_mul, Nat.not_lt] at hroom
  simp only [ParCfg.slotAdr] at h2
  omega

theorem Holds.opened (h : Holds c f l) (hroom : ¬ Full c l) :
    Holds c (f.write (c.slotAdr l.length) (flagWord saveFlagPre))
      (l ++ [⟨.pending, List.replicate c.size blank⟩]) :=
  h.extend hroom (sameOutside_flag _) (.opened (h.blankSlot hroom))

theorem Holds.filled (h : Holds c f (l ++ [⟨.pending, List.replicate c.size blank⟩]))
    (x : Record c) :
    Holds c (f.write (c.slotAdr l.length + sizeSaveFlag) x.1) (l ++ [⟨.pending, x.1⟩]) :=
  h.last (sameOutside_data x) ((holds_snoc.mp h).2.1.filled x)

theorem Holds.committed {x : List Byte} (h : Holds c f (l ++ [⟨.pending, x⟩])) :
    Holds c (f.write (c.slotAdr l.length) (flagWord saveFlag)) (l ++ [⟨.committed, x⟩]) :=
  h.last (sameOutside_flag _)
    ((holds_snoc.mp h).2.1.flagged (by simp [markByte, saveFlagPre, saveFlag]))

theorem Holds.retired (h : Holds c f (l ++ [s] ++ [t])) :
    Holds c (f.write (c.slotAdr l.length) (flagWord 0))
      (l ++ [{ s with mark := .retired }] ++ [t]) := by
  refine h.beforeLast (sameOutside_flag _) (SlotAt.flagged ?_ (by simp [markByte]))
  simpa using (holds_snoc.mp h).1 l.length (by simp)

end

end PirMesh
