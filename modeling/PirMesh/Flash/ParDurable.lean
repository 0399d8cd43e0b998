import PirMesh.Flash.ParSpec
import PirMesh.Library.Run

/-! # Flash — Durability and atomicity of the parameter log

A sector lives through stores, power cuts inside a store, and boots; each boot
runs `mesh_par_retrieve`.  In every state such a life reaches the sector is a
log and `*p_adr` points behind it (`par_reach_log`).

A completed store is durable exactly when it did not take a half-written slot
for a stored one: the skip test of `mesh_par_store` looks at the data of the
slot before `*p_adr` and not at its flag.

A power cut inside `mesh_par_store` leaves the old record or the new one, as
long as the store does not wrap: `cut_current` says so for the log, and
`meshParStore_atomic_iff` for retrieve.  A store that wraps erases the sector
before it writes, and a cut behind the erase leaves nothing to retrieve. -/

namespace PirMesh

open Nor Nor.Prog CommitLog Run

/-! ### The life of a sector -/

structure ParState where
  flash : Flash
  pAdr : Nat

inductive ParEvent (c : ParCfg)
  | store (x : Record c)
  | cut (x : Record c) (n : Nat)
  | boot

section

variable (c : ParCfg) (saveMap : List Nat)

/-- Boot: RAM starts over, and retrieve finds `*p_adr`. -/
def parBoot (f : Flash) : ParState where
  flash := f
  pAdr := ((meshParRetrieve (List.replicate c.size 0) c.adrBase c.adrBase c.size).run f).1.pAdr

/-- The program a store of `x` runs in state `s`. -/
def parStoreProg (s : ParState) (x : Record c) : Prog Nat :=
  meshParStore saveMap x.1 s.pAdr c.adrBase c.size

def parNext (s : ParState) : ParEvent c → ParState
  | .store x => ⟨((parStoreProg c saveMap s x).run s.flash).2,
      ((parStoreProg c saveMap s x).run s.flash).1⟩
  | .cut x n => parBoot c ((parStoreProg c saveMap s x).cutAfter n s.flash)
  | .boot => parBoot c s.flash

/-- A sector starts erased, `*p_adr` at its base. -/
def parSys : Sys ParState (ParEvent c) :=
  .det (fun s => (∀ a, c.adrBase ≤ a → a < c.adrBase + flashSectorSize → s.flash a = blank) ∧
    s.pAdr = c.adrBase) (parNext c saveMap)

end

variable {c : ParCfg} {saveMap : List Nat} {s : ParState} {l : Log (List Byte)}

/-- The sector is the log `l`, and `*p_adr` is behind it. -/
structure LogState (c : ParCfg) (s : ParState) (l : Log (List Byte)) : Prop where
  holds : Holds c s.flash l
  pAdr : s.pAdr = c.slotAdr l.length

theorem logState_boot {f : Flash} (h : Holds c f l) : LogState c (parBoot c f) l where
  holds := h
  pAdr := by
    rw [parBoot, meshParRetrieve_run h]
    cases l.current <;> rfl

theorem LogState.stored (h : LogState c s l) (saveMap : List Nat) (x : Record c) :
    LogState c (parNext c saveMap s (.store x)) (storeLog c saveMap l x.1) := by
  obtain ⟨g, hrun, hg⟩ := meshParStore_run h.holds saveMap x
  simp only [parNext, parStoreProg, h.pAdr, hrun]
  exact ⟨hg, rfl⟩

theorem LogState.cut (h : LogState c s l) (saveMap : List Nat) (x : Record c) (n : Nat) :
    ∃ l', StoreCut c l x.1 l' ∧ LogState c (parNext c saveMap s (.cut x n)) l' := by
  obtain ⟨l', hl', hg⟩ := meshParStore_cuts h.holds saveMap x n
  refine ⟨l', hl', logState_boot ?_⟩
  rwa [parStoreProg, h.pAdr]

/-- **In every reachable state the sector is a log.** -/
theorem par_reach_log (h : (parSys c saveMap).Reach s) : ∃ l, LogState c s l := by
  refine h.inv (P := fun s => ∃ l, LogState c s l)
    (fun s ⟨hb, hp⟩ => ⟨[], holds_nil hb, by simp [hp, c.slotAdr_zero]⟩) ?_
  rintro s e t ⟨l, hl⟩ rfl
  cases e with
  | store x => exact ⟨_, hl.stored saveMap x⟩
  | cut x n =>
    obtain ⟨l', -, hl'⟩ := hl.cut saveMap x n
    exact ⟨l', hl'⟩
  | boot => exact ⟨l, logState_boot hl.holds⟩

/-! ### Durability -/

/-- The next retrieve succeeds, copies `x`, and leaves `*p_adr` at the slot
behind the committed record `x`. -/
def Durable (c : ParCfg) (f : Flash) (x : List Byte) : Prop :=
  ∀ (out : List Byte) (p : Nat),
    ((meshParRetrieve out p c.adrBase c.size).run f).1.err = 0 ∧
    ((meshParRetrieve out p c.adrBase c.size).run f).1.out = x ∧
    ∃ k, ((meshParRetrieve out p c.adrBase c.size).run f).1.pAdr = c.slotAdr (k + 1) ∧
      f (c.slotAdr k) = saveFlag ∧ f.read (c.slotAdr k + sizeSaveFlag) c.size = x

/-- The slot before `*p_adr` was filled with `x` but never committed, and the
store of `x` takes it for stored. -/
def SkipsUncommitted (c : ParCfg) (saveMap : List Nat) (s : ParState) (x : List Byte) : Prop :=
  c.adrBase ∈ saveMap ∧ s.pAdr ≤ c.adrBase + flashSectorSize - c.sizeSave - sizeSaveFlag ∧
  c.adrBase + c.sizeSave ≤ s.pAdr ∧ s.flash (s.pAdr - c.sizeSave) ≠ saveFlag ∧
  s.flash.read (s.pAdr - c.sizeSave + sizeSaveFlag) c.size = x

theorem slotAdr_inj {j k : Nat} (h : c.slotAdr j = c.slotAdr k) : j = k := by
  have hpos : 0 < c.sizeSave := by simp [ParCfg.sizeSave, sizeSaveFlag]
  rcases Nat.lt_trichotomy j k with hlt | heq | hlt
  · have := c.slotAdr_lt hlt
    omega
  · exact heq
  · have := c.slotAdr_lt hlt
    omega

/-- A log is durable at `x` iff its last slot is `x`, committed. -/
theorem durable_iff_last {f : Flash} (h : Holds c f l) (x : List Byte) :
    Durable c f x ↔ l.getLast? = some ⟨.committed, x⟩ := by
  constructor
  · intro hd
    obtain ⟨-, -, k, hp, hflag, hdata⟩ := hd [] 0
    rw [meshParRetrieve_run h] at hp
    have hk : l.length = k + 1 :=
      slotAdr_inj (by cases hc : l.current <;> simpa [hc, retrieved] using hp)
    obtain ⟨init, ⟨m, d⟩, rfl⟩ := (List.eq_nil_or_concat' l).resolve_left
      (List.ne_nil_of_length_pos (by omega))
    obtain rfl : init.length = k := by simpa using hk
    have hlast := (holds_snoc.mp h).2.1
    have hm : m = .committed := markByte_eq_saveFlag.mp (hlast.flag.symm.trans hflag)
    have hx : d = x := hlast.data.symm.trans hdata
    simp [hm, hx]
  · intro hl out p
    obtain ⟨init, rfl⟩ := List.getLast?_eq_some_iff.mp hl
    have hlast := (holds_snoc.mp h).2.1
    rw [meshParRetrieve_run h, Log.current_of_getLast hl]
    exact ⟨rfl, rfl, init.length, by simp [retrieved], hlast.flag, hlast.data⟩

/-- The skip of an uncommitted slot, on the log. -/
theorem skipsUncommitted_iff (h : LogState c s l) (x : List Byte) :
    SkipsUncommitted c saveMap s x ↔ c.adrBase ∈ saveMap ∧
      ∃ t, (roomFor c l).getLast? = some t ∧ t.mark ≠ .committed ∧ t.data = x := by
  unfold SkipsUncommitted
  rw [h.pAdr, ← Nat.not_lt]
  refine and_congr_right fun _ => ?_
  by_cases hf : Full c l
  · have := (wrap_iff c l).mpr hf
    simp [roomFor, hf, this]
  have hw := mt (wrap_iff c l).mp hf
  simp only [roomFor, if_neg hf]
  rcases List.eq_nil_or_concat' l with rfl | ⟨init, t, rfl⟩
  · simpa using fun _ hp => absurd rfl ((prev_iff c []).mp hp)
  · have hprev := (prev_iff c (init ++ [t])).mpr (by simp)
    have hlast : c.slotAdr (init ++ [t]).length - c.sizeSave = c.slotAdr init.length := by
      simp [c.slotAdr_succ]
    have hslot := (holds_snoc.mp h.holds).2.1
    rw [hlast, hslot.flag, hslot.data, ne_eq, markByte_eq_saveFlag]
    simp only [hw, hprev, not_false_eq_true, true_and, List.getLast?_concat, Option.some.injEq,
      exists_eq_left', ne_eq]

/-- **Durability.**  In every reachable state a completed store of `x` is durable
exactly when it does not skip over an uncommitted slot that holds `x`. -/
theorem meshParStore_durable_iff (h : (parSys c saveMap).Reach s) (x : Record c) :
    Durable c (parNext c saveMap s (.store x)).flash x.1 ↔
      ¬ SkipsUncommitted c saveMap s x.1 := by
  obtain ⟨l, hl⟩ := par_reach_log h
  rw [durable_iff_last (hl.stored saveMap x).holds, skipsUncommitted_iff hl]
  unfold storeLog
  by_cases hs : c.adrBase ∈ saveMap ∧ LastHolds (roomFor c l) x.1
  · obtain ⟨hm, hlast⟩ := hs
    obtain ⟨⟨m, d⟩, ht, rfl⟩ := Option.map_eq_some_iff.mp hlast
    simp [hm, LastHolds, ht]
  · rw [if_neg hs]
    simp only [Log.getLast?_append, true_iff, not_and, not_exists]
    exact fun hm t ht _ hd => hs ⟨hm, by simp [LastHolds, ht, hd]⟩

/-! ### The skip at work -/

/-- The place of `light_res_sw_save`. -/
def swLevelCfg : ParCfg := ⟨0x38000, 30, by decide, by decide⟩

def swLevelRecord (b : Byte) : Record swLevelCfg := ⟨List.replicate 30 b, List.length_replicate⟩

def erasedSwLevel : ParState := ⟨fun _ => blank, 0x38000⟩

/-- One record stored; the store of another is cut before its flag is committed. -/
def cutSwLevel : ParState :=
  parNext swLevelCfg meshSaveMap (parNext swLevelCfg meshSaveMap erasedSwLevel
    (.store (swLevelRecord 1))) (.cut (swLevelRecord 2) 2)

theorem reach_erasedSwLevel : (parSys swLevelCfg meshSaveMap).Reach erasedSwLevel :=
  .init ⟨fun _ _ _ => rfl, rfl⟩

theorem reach_cutSwLevel : (parSys swLevelCfg meshSaveMap).Reach cutSwLevel :=
  .step (.step reach_erasedSwLevel (e := .store (swLevelRecord 1)) rfl)
    (e := .cut (swLevelRecord 2) 2) rfl

/-- Storing the cut record again returns and leaves the old record in place. -/
theorem meshParStore_skips_uncommitted : (parSys swLevelCfg meshSaveMap).Reach cutSwLevel ∧
    ¬ Durable swLevelCfg
      (parNext swLevelCfg meshSaveMap cutSwLevel (.store (swLevelRecord 2))).flash
      (swLevelRecord 2).1 := by
  refine ⟨reach_cutSwLevel, fun h => ?_⟩
  have hout := (h [] 0).2.1
  revert hout
  decide +kernel

theorem meshParStore_durable_first : (parSys swLevelCfg meshSaveMap).Reach erasedSwLevel ∧
    (Durable swLevelCfg
      (parNext swLevelCfg meshSaveMap erasedSwLevel (.store (swLevelRecord 1))).flash
      (swLevelRecord 1).1 ↔
        ¬ SkipsUncommitted swLevelCfg meshSaveMap erasedSwLevel (swLevelRecord 1).1) :=
  ⟨reach_erasedSwLevel, meshParStore_durable_iff reach_erasedSwLevel (swLevelRecord 1)⟩

/-! ### A cut inside a store -/

variable {c : ParCfg} {saveMap : List Nat} {s : ParState} {l : Log (List Byte)}

/-- Retrieve succeeds with `x`. -/
def Retrieves (c : ParCfg) (f : Flash) (x : List Byte) : Prop :=
  ∀ (out : List Byte) (p : Nat),
    ((meshParRetrieve out p c.adrBase c.size).run f).1.err = 0 ∧
    ((meshParRetrieve out p c.adrBase c.size).run f).1.out = x

/-- Retrieve finds the log's current record and nothing else. -/
theorem retrieves_iff {f : Flash} (h : Holds c f l) (x : List Byte) :
    Retrieves c f x ↔ l.current = some x := by
  unfold Retrieves
  simp only [meshParRetrieve_run h]
  cases hc : l.current with
  | none => simp [retrieved]
  | some y => simp [retrieved]

/-- The store of a record that does not fit behind the log starts with an erase. -/
def Wraps (c : ParCfg) (s : ParState) : Prop :=
  s.pAdr > c.adrBase + flashSectorSize - c.sizeSave - sizeSaveFlag

theorem LogState.wraps_iff (h : LogState c s l) : Wraps c s ↔ Full c l := by
  rw [Wraps, h.pAdr, wrap_iff]

/-- A cut inside a store that does not wrap leaves the old record or the new one. -/
theorem cut_current {x : List Byte} {l' : Log (List Byte)} (hf : ¬ Full c l)
    (h : StoreCut c l x l') : l'.current = l.current ∨ l'.current = some x := by
  rcases h with rfl | h
  · exact .inl rfl
  · rw [roomFor, if_neg hf] at h
    exact Log.current_appendStates h

/-- A store once there is room: the skip test and the write. -/
def parStoreRest (saveMap : List Nat) (inp : List Byte) (adrBase sizeSave pAdr : Nat) :
    Prog Nat := do
  let same ← parStoreSame saveMap inp pAdr adrBase sizeSave
  if same then Pure.pure pAdr
  else do
    parStoreWrite inp pAdr adrBase sizeSave
    Pure.pure (pAdr + sizeSave)

/-- A store that wraps starts with the erase. -/
theorem parStoreProg_wraps (h : Wraps c s) (x : Record c) : parStoreProg c saveMap s x = (do
    Prog.eraseAt c.adrBase flashSectorSize
    parStoreRest saveMap x.1 c.adrBase c.sizeSave c.adrBase) := by
  have hwrap : parStoreWrap s.pAdr c.adrBase (c.size + sizeSaveFlag) = (do
      flashEraseSector c.adrBase
      Pure.pure c.adrBase) := if_pos h
  simp only [parStoreProg, meshParStore, hwrap]
  rfl

theorem parStoreProg_room (h : ¬ Wraps c s) (x : Record c) : parStoreProg c saveMap s x =
    parStoreRest saveMap x.1 c.adrBase c.sizeSave s.pAdr := by
  have hwrap : parStoreWrap s.pAdr c.adrBase (c.size + sizeSaveFlag) = Pure.pure s.pAdr := if_neg h
  simp only [parStoreProg, meshParStore, hwrap]
  rfl

theorem cutAfter_one_of_wraps (h : Wraps c s) (x : Record c) :
    (parStoreProg c saveMap s x).cutAfter 1 s.flash = s.flash.erase c.adrBase flashSectorSize := by
  rw [parStoreProg_wraps h]
  exact cutAfter_zero _ _

/-! ### Cuts behind the commit -/

instance (c : ParCfg) (s : ParState) : Decidable (Wraps c s) := inferInstanceAs (Decidable (_ > _))

/-- How many operations a store takes to commit its record. -/
def commitOps (c : ParCfg) (s : ParState) : Nat := if Wraps c s then 4 else 3

/-- Outside the save map nothing is skipped: a store with room is an append. -/
theorem cutAfter_parStoreRest {f : Flash} (h : Holds c f l) (hroom : ¬ Full c l)
    (hmap : c.adrBase ∉ saveMap) (x : Record c) (n : Nat) :
    Holds c ((parStoreRest saveMap x.1 c.adrBase c.sizeSave (c.slotAdr l.length)).cutAfter n f)
      (l.appendAfter (List.replicate c.size blank) x.1 n) := by
  have hreads := (readOnly_parStoreSame saveMap x.1
    (c.slotAdr l.length) c.adrBase c.sizeSave).reads f
  rw [parStoreSame_run h, show decide (c.adrBase ∈ saveMap ∧ LastHolds l x.1) = false from
    decide_eq_false fun hc => hmap hc.1] at hreads
  rw [parStoreRest, hreads.cutAfter_bind, if_neg Bool.false_ne_true, cutAfter_map]
  exact parStoreWrite_cut h hroom x n

/-- **A cut behind the commit leaves the new record.** -/
theorem cut_committed (h : LogState c s l) (hmap : c.adrBase ∉ saveMap) (x : Record c) {n : Nat}
    (hn : commitOps c s ≤ n) : ∃ l',
      Holds c ((parStoreProg c saveMap s x).cutAfter n s.flash) l' ∧ l'.current = some x.1 := by
  unfold commitOps at hn
  by_cases hw : Wraps c s
  · rw [if_pos hw] at hn
    obtain ⟨k, rfl⟩ := Nat.exists_eq_add_of_le' hn
    refine ⟨_, ?_, Log.current_appendAfter [] (List.replicate c.size blank) x.1
      (Nat.le_add_left 3 k)⟩
    rw [parStoreProg_wraps hw]
    have hcut := cutAfter_parStoreRest (holds_erase c s.flash) (not_full_nil c) hmap x (k + 3)
    rwa [List.length_nil, c.slotAdr_zero] at hcut
  · rw [if_neg hw] at hn
    refine ⟨_, ?_, Log.current_appendAfter l (List.replicate c.size blank) x.1 hn⟩
    rw [parStoreProg_room hw, h.pAdr]
    exact cutAfter_parStoreRest h.holds (mt h.wraps_iff.mpr hw) hmap x n

/-- A cut that does not fall between the erase and the commit of a wrapping store leaves
the old record or the new one. -/
theorem cut_old_or_new (h : LogState c s l) (hmap : c.adrBase ∉ saveMap) (x : Record c) {n : Nat}
    (hn : Wraps c s → n = 0 ∨ commitOps c s ≤ n) : ∃ l',
      Holds c ((parStoreProg c saveMap s x).cutAfter n s.flash) l' ∧
        (l'.current = l.current ∨ l'.current = some x.1) := by
  by_cases hw : Wraps c s
  · rcases hn hw with rfl | hn
    · exact ⟨l, (cutAfter_zero _ _).symm ▸ h.holds, .inl rfl⟩
    · obtain ⟨l', hl', hcur⟩ := cut_committed h hmap x hn
      exact ⟨l', hl', .inr hcur⟩
  · obtain ⟨l', hcut, hl'⟩ := meshParStore_cuts h.holds saveMap x n
    rw [← h.pAdr] at hl'
    exact ⟨l', hl', cut_current (mt h.wraps_iff.mpr hw) hcut⟩

/-! ### Atomicity -/

/-- **Crash atomicity.**  From a reachable state that retrieves `a`, every cut inside
the store of `b` retrieves `a` or `b` exactly when the store does not wrap. -/
theorem meshParStore_atomic_iff (h : (parSys c saveMap).Reach s) {a : List Byte}
    (ha : Retrieves c s.flash a) (b : Record c) :
    (∀ n, Retrieves c ((parStoreProg c saveMap s b).cutAfter n s.flash) a ∨
      Retrieves c ((parStoreProg c saveMap s b).cutAfter n s.flash) b.1) ↔ ¬ Wraps c s := by
  obtain ⟨l, hl⟩ := par_reach_log h
  constructor
  · intro hall hw
    have hnone := fun x => retrieves_iff (holds_erase c s.flash) x
    rcases hall 1 with h1 | h1 <;>
    · rw [cutAfter_one_of_wraps hw, hnone] at h1
      exact absurd h1 (by simp)
  · intro hw n
    have hcur := (retrieves_iff hl.holds a).mp ha
    obtain ⟨l', hcut, hl'⟩ := meshParStore_cuts hl.holds saveMap b n
    rw [← hl.pAdr] at hl'
    rcases cut_current (mt hl.wraps_iff.mpr hw) hcut with hold | hnew
    · exact .inl ((retrieves_iff hl' a).mpr (hold.trans hcur))
    · exact .inr ((retrieves_iff hl' b.1).mpr hnew)

/-! ### The wrap at work -/

/-- `n` different records stored one after another. -/
def swLevelStores : Nat → ParState
  | 0 => erasedSwLevel
  | n + 1 => parNext swLevelCfg meshSaveMap (swLevelStores n)
      (.store (swLevelRecord (BitVec.ofNat 8 n)))

theorem reach_swLevelStores (n : Nat) :
    (parSys swLevelCfg meshSaveMap).Reach (swLevelStores n) := by
  induction n with
  | zero => exact reach_erasedSwLevel
  | succ n ih => exact ih.step (e := .store _) rfl

theorem swLevelRecord_succ_ne (n : Nat) :
    (swLevelRecord (BitVec.ofNat 8 n)).1 ≠ (swLevelRecord (BitVec.ofNat 8 (n + 1))).1 := by
  intro h
  have hb := congrArg BitVec.toNat (List.replicate_inj.mp h |>.2.resolve_left (by decide))
  simp only [BitVec.toNat_ofNat] at hb
  omega

/-- The sector takes 120 records before it is full. -/
theorem swLevelStores_log (n : Nat) (hn : n < 120) : ∃ l : Log (List Byte),
    LogState swLevelCfg (swLevelStores (n + 1))
      (l ++ [⟨.committed, (swLevelRecord (BitVec.ofNat 8 n)).1⟩]) ∧ l.length = n := by
  induction n with
  | zero =>
    have h0 : LogState swLevelCfg erasedSwLevel [] := ⟨holds_nil fun _ _ _ => rfl, rfl⟩
    refine ⟨[], ?_, rfl⟩
    simpa [storeLog, roomFor, LastHolds, Log.append, swLevelStores] using
      h0.stored meshSaveMap (swLevelRecord (BitVec.ofNat 8 0))
  | succ n ih =>
    obtain ⟨l, hl, hlen⟩ := ih (by omega)
    have hroom : ¬ Full swLevelCfg (l ++ [⟨.committed, (swLevelRecord (BitVec.ofNat 8 n)).1⟩]) := by
      simp [Full, hlen, swLevelCfg, ParCfg.sizeSave, sizeSaveFlag, flashSectorSize]
      omega
    have hst := hl.stored meshSaveMap (swLevelRecord (BitVec.ofNat 8 (n + 1)))
    rw [storeLog, roomFor, if_neg hroom, if_neg fun hc => by
      simp [LastHolds, swLevelRecord_succ_ne n] at hc] at hst
    exact ⟨_, hst, by simp [hlen]⟩

/-- A cut behind the erase of a wrapping store leaves no record to retrieve. -/
theorem meshParStore_wrap_loses :
    (parSys swLevelCfg meshSaveMap).Reach (swLevelStores 120) ∧
    Retrieves swLevelCfg (swLevelStores 120).flash (swLevelRecord 119).1 ∧
    ∀ x, ¬ Retrieves swLevelCfg ((parStoreProg swLevelCfg meshSaveMap (swLevelStores 120)
      (swLevelRecord 120)).cutAfter 1 (swLevelStores 120).flash) x := by
  obtain ⟨l, hl, hlen⟩ := swLevelStores_log 119 (by decide)
  refine ⟨reach_swLevelStores 120, (retrieves_iff hl.holds _).mpr (by simp), fun x hx => ?_⟩
  have hw : Wraps swLevelCfg (swLevelStores 120) := hl.wraps_iff.mpr (by
    simp [Full, hlen, swLevelCfg, ParCfg.sizeSave, sizeSaveFlag, flashSectorSize])
  rw [cutAfter_one_of_wraps hw, retrieves_iff (holds_erase swLevelCfg _)] at hx
  exact absurd hx (by simp)

theorem retrieves_one_store : Retrieves swLevelCfg (swLevelStores 1).flash (swLevelRecord 0).1 := by
  obtain ⟨l, hl, -⟩ := swLevelStores_log 0 (by decide)
  exact (retrieves_iff hl.holds _).mpr (by simp)

theorem meshParStore_atomic_second :
    (∀ n, Retrieves swLevelCfg ((parStoreProg swLevelCfg meshSaveMap (swLevelStores 1)
        (swLevelRecord 5)).cutAfter n (swLevelStores 1).flash) (swLevelRecord 0).1 ∨
      Retrieves swLevelCfg ((parStoreProg swLevelCfg meshSaveMap (swLevelStores 1)
        (swLevelRecord 5)).cutAfter n (swLevelStores 1).flash) (swLevelRecord 5).1) ↔
    ¬ Wraps swLevelCfg (swLevelStores 1) :=
  meshParStore_atomic_iff (reach_swLevelStores 1) retrieves_one_store (swLevelRecord 5)

end PirMesh
