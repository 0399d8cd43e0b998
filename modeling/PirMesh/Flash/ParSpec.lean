import PirMesh.Flash.ParLog

/-! # Flash — What retrieve and store do to the log

One spec lemma for each function of the parameter store, over `Holds`:

  * `meshFlashDataCmp_allSame` — the comparison is an equality test;
  * `meshParRetrieve_run` — retrieve reads the log's current record;
  * `meshParStore_run`, `meshParStore_cuts` — a store is `storeLog`, and a cut
    inside it leaves one of `storeCuts`. -/

namespace PirMesh

open Nor Nor.Prog CommitLog

/-! ### Read-back helpers -/

theorem readOnly_writeCheckLoop (fuel : Nat) : ∀ (adr : Nat) (inp : List Byte),
    (flashWriteCheckLoop fuel adr inp).ReadOnly := by
  induction fuel with
  | zero => exact fun _ _ => readOnly_pure _
  | succ fuel ih =>
    exact fun _ _ => (readOnly_pure _).ite
      ((readOnly_readAt _ _).bind fun _ => (readOnly_pure _).ite (ih _ _))

@[simp] theorem run_flashWriteWithCheck (adr : Nat) (inp : List Byte) (f : Flash) :
    (flashWriteWithCheck adr inp).run f = ((), f.write adr inp) := by
  have h := (readOnly_writeCheckLoop inp.length adr inp).run (f.write adr inp)
  simp only [flashWriteWithCheck, flashWritePage, meshFlashWriteCheck, run_bind, run_writeAt,
    run_pure, h]

@[simp] theorem always_flashWriteWithCheck (P : Flash → Prop) (adr : Nat) (inp : List Byte)
    (f : Flash) : Always P (flashWriteWithCheck adr inp) f ↔ P f ∧ P (f.write adr inp) := by
  have h := readOnly_writeCheckLoop inp.length adr inp
  simp only [flashWriteWithCheck, flashWritePage, meshFlashWriteCheck, always_bind,
    always_writeAt, run_writeAt, h.always, h.run, always_pure, and_self, and_assoc]

/-- A checked write is one operation. -/
theorem cutAfter_flashWriteWithCheck {β : Type} (adr : Nat) (inp : List Byte) (q : Unit → Prog β)
    (n : Nat) (f : Flash) : (flashWriteWithCheck adr inp >>= q).cutAfter (n + 1) f =
      (q ()).cutAfter n (f.write adr inp) :=
  (((readOnly_writeCheckLoop inp.length adr inp).bind fun _ =>
    readOnly_pure ()).reads _).cutAfter_bind
    q n

theorem readOnly_dataCmpLoop (fuel : Nat) : ∀ (adr : Nat) (inp : List Byte) (same : Bool),
    (flashDataCmpLoop fuel adr inp same).ReadOnly := by
  induction fuel with
  | zero => exact fun _ _ _ => readOnly_pure _
  | succ fuel ih =>
    exact fun _ _ _ => (readOnly_pure _).ite ((readOnly_readAt _ _).bind fun _ =>
      ((readOnly_pure _).ite (ih _ _ _)).ite ((readOnly_pure _).ite (ih _ _ _)))

theorem lenRead_pos {inp : List Byte} (h : inp ≠ []) : 0 < lenRead inp := by
  unfold lenRead
  split
  · decide
  · exact List.length_pos_iff.mpr h

theorem lenRead_le (inp : List Byte) : lenRead inp ≤ inp.length := by
  unfold lenRead
  split <;> omega

/-- A block equals the input iff its first part and the rest do. -/
theorem read_eq_split (f : Flash) (adr n : Nat) {inp : List Byte} (h : n ≤ inp.length) :
    f.read adr inp.length = inp ↔
      f.read adr n = inp.take n ∧ f.read (adr + n) (inp.drop n).length = inp.drop n := by
  have hlen : inp.length = n + (inp.drop n).length := by simp; omega
  constructor
  · intro h
    rw [hlen, Flash.read_add] at h
    exact List.append_inj (h.trans (List.take_append_drop n inp).symm) (by simp; omega)
  · rintro ⟨h1, h2⟩
    rw [hlen, Flash.read_add, h1, h2, List.take_append_drop]

/-- The loop answers `FLASH_CMP_ALL_SAME` iff no chunk before differed and this
input is there: the induction is on the chunks left. -/
theorem dataCmpLoop_allSame (f : Flash) (fuel : Nat) :
    ∀ (adr : Nat) (inp : List Byte) (same : Bool),
    inp.length ≤ fuel →
    (((flashDataCmpLoop fuel adr inp same).run f).1 = .allSame ↔
      same = true ∧ inp ≠ [] ∧ f.read adr inp.length = inp) := by
  induction fuel with
  | zero =>
    intro adr inp same h
    have hnil : inp = [] := List.length_eq_zero_iff.mp (by omega)
    simp [flashDataCmpLoop, hnil]
  | succ fuel ih =>
    intro adr inp same h
    by_cases hnil : inp = []
    · simp [flashDataCmpLoop, hnil]
    have hlen : inp.length ≠ 0 := fun h0 => hnil (List.length_eq_zero_iff.mp h0)
    have hpos := lenRead_pos hnil
    have hle := lenRead_le inp
    have hrest := fun same => ih (adr + lenRead inp) (inp.drop (lenRead inp)) same (by simp; omega)
    rw [read_eq_split f adr (lenRead inp) hle]
    simp only [flashDataCmpLoop, flashReadPage, if_neg hlen, run_readAt_bind, run_ite]
    by_cases hc : f.read adr (lenRead inp) = inp.take (lenRead inp)
    · by_cases hlast : inp.length ≤ flashCheckSizeMax ∧ same = true
      · have hall : lenRead inp = inp.length := if_neg (by omega)
        rw [hall, List.take_length] at hc
        simp [hc, hlast, hnil, hall]
      · simp only [hc, ne_eq, not_true_eq_false, if_false, if_neg hlast, hrest]
        cases same with
        | false => simp
        | true =>
          -- more than one chunk is left, so the rest is not empty
          have hlong : flashCheckSizeMax < inp.length := by simpa using hlast
          have hfull : lenRead inp = flashCheckSizeMax := if_pos hlong
          simp [hnil, hfull]
          omega
    · by_cases hz : (f.read adr (lenRead inp)).zipWith (· &&& ·) (inp.take (lenRead inp)) =
          inp.take (lenRead inp)
      · simp [hc, hz, hrest]
      · simp [hc, hz]

/-- **The comparison is an equality test.** -/
theorem meshFlashDataCmp_allSame (f : Flash) (adr : Nat) {inp : List Byte} (h : inp ≠ []) :
    ((meshFlashDataCmp adr inp).run f).1 = .allSame ↔ f.read adr inp.length = inp := by
  simp [meshFlashDataCmp, dataCmpLoop_allSame f inp.length adr inp true (Nat.le_refl _), h]

theorem readOnly_meshFlashDataCmp (adr : Nat) (inp : List Byte) :
    (meshFlashDataCmp adr inp).ReadOnly := readOnly_dataCmpLoop _ _ _ _

/-! ### Retrieve -/

/-- The result of retrieve when the record found is `found`. -/
def retrieved (out : List Byte) : Option (List Byte) → Nat → ParRetrieve
  | none, pAdr => ⟨-1, out, pAdr⟩
  | some x, pAdr => ⟨0, x, pAdr⟩

@[simp] theorem retrieved_move (out : List Byte) (found : Option (List Byte)) (p q : Nat) :
    { retrieved out found p with pAdr := q } = retrieved out found q := by cases found <;> rfl

theorem run_parRetrieveLoop_cons (adrBase size i : Nat) (is : List Nat) (r : ParRetrieve)
    (f : Flash) : (parRetrieveLoop adrBase size (i :: is) r).run f =
      if f (adrBase + i) = saveFlag then (parRetrieveLoop adrBase size is
        ⟨0, f.read (adrBase + i + sizeSaveFlag) size, adrBase + i⟩).run f
      else if f (adrBase + i) ≠ blank then
        (parRetrieveLoop adrBase size is { r with pAdr := adrBase + i }).run f
      else ({ r with pAdr := adrBase + i }, f) := by
  simp only [parRetrieveLoop, flashReadPage, run_readAt_bind, run_ite, Flash.read_one,
    List.cons.injEq, and_true, ne_eq, run_pure]
  by_cases h1 : f (adrBase + i) = saveFlag
  · simp [h1]
  · by_cases h2 : f (adrBase + i) = saveFlagPre
    · simp [h2, saveFlagPre, saveFlag, blank]
    · by_cases h3 : f (adrBase + i) = blank
      · simp [h3, saveFlagPre, saveFlag, blank]
      · have h3' : f (adrBase + i) ≠ 0xFF := h3
        simp only [h1, h2, h3, h3', if_false, not_false_eq_true, if_true]

section

variable {c : ParCfg} {f : Flash} {l : Log (List Byte)}

/-- The loop reads the slots from `j` on, up to the blank flag behind them: the
induction is on these slots, `found` is what the slots before them hold. -/
theorem parRetrieveLoop_slots (out : List Byte) (rest : List Nat) :
    ∀ (l : Log (List Byte)) (j : Nat)
    (found : Option (List Byte)) (p : Nat), (∀ k (h : k < l.length), SlotAt c f (j + k) l[k]) →
    f (c.slotAdr (j + l.length)) = blank →
    (parRetrieveLoop c.adrBase c.size
      (List.range' (j * c.sizeSave) l.length c.sizeSave ++ (j + l.length) * c.sizeSave :: rest)
      (retrieved out found p)).run f =
    (retrieved out (l.foldl Log.scan found) (c.slotAdr (j + l.length)), f) := by
  intro l
  induction l with
  | nil =>
    intro j found p _ hb
    have hb' : f (c.adrBase + j * c.sizeSave) = blank := hb
    simp [run_parRetrieveLoop_cons, hb', saveFlag, blank, ParCfg.slotAdr]
  | cons s l ih =>
    intro j found p hs hb
    have hhead : SlotAt c f j s := hs 0 (by simp)
    have hflag : f (c.adrBase + j * c.sizeSave) = markByte s.mark := hhead.flag
    have hdata : f.read (c.adrBase + j * c.sizeSave + sizeSaveFlag) c.size = s.data := hhead.data
    have htail := ih (j + 1) (Log.scan found s) (c.slotAdr j)
      (fun k hk => by
        have := hs (k + 1) (by simp; omega)
        simpa [Nat.add_assoc, Nat.add_comm 1 k] using this)
      (by simpa [Nat.add_assoc, Nat.add_comm 1 l.length] using hb)
    have hj : j + (l.length + 1) = j + 1 + l.length := by omega
    have hstep : j * c.sizeSave + c.sizeSave = (j + 1) * c.sizeSave := by simp [Nat.add_mul]
    simp only [List.length_cons, List.range'_succ, List.cons_append, run_parRetrieveLoop_cons,
      hflag, hj, hstep, List.foldl_cons]
    rw [← htail]
    obtain ⟨m, d⟩ := s
    cases m with
    | committed => simp [markByte, retrieved, hdata, ParCfg.slotAdr]
    | pending => simp [markByte, saveFlagPre, saveFlag, blank, Log.scan, ParCfg.slotAdr]
    | retired => simp [markByte, saveFlag, blank, Log.scan, ParCfg.slotAdr]

/-- Every slot start that leaves room for a flag word is an offset of the loop. -/
theorem sectorOffsets_split {n step : Nat} (h : n * step < flashSectorSize) (hs : 0 < step) :
    ∃ rest, sectorOffsets step = List.range' 0 n step ++ n * step :: rest := by
  have hn : n < (flashSectorSize + step - 1) / step := by
    rw [Nat.lt_div_iff_mul_lt hs]
    omega
  obtain ⟨k, hk⟩ := Nat.exists_eq_add_of_lt hn
  refine ⟨List.range' (n * step + step) k step, ?_⟩
  rw [sectorOffsets, hk, show n + k + 1 = n + (k + 1) by omega, ← List.range'_append,
    List.range'_succ]
  simp [Nat.mul_comm]

theorem readOnly_parRetrieveLoop (adrBase size : Nat) (is : List Nat) : ∀ r,
    (parRetrieveLoop adrBase size is r).ReadOnly := by
  induction is with
  | nil => exact fun _ => readOnly_pure _
  | cons i is ih =>
    exact fun _ => (readOnly_readAt _ _).bind fun _ =>
      ((readOnly_readAt _ _).bind fun _ => ih _).ite ((ih _).ite ((ih _).ite (readOnly_pure _)))

/-- **Retrieve reads the log's current record** and stops behind the last slot. -/
theorem meshParRetrieve_run (h : Holds c f l) (out : List Byte) (p : Nat) :
    (meshParRetrieve out p c.adrBase c.size).run f =
      (retrieved out l.current (c.slotAdr l.length), f) := by
  have hroom : l.length * c.sizeSave < flashSectorSize := by
    have := h.room
    simp only [sizeSaveFlag] at this
    omega
  obtain ⟨rest, hoff⟩ := sectorOffsets_split hroom (by simp [ParCfg.sizeSave, sizeSaveFlag])
  have hb : f (c.slotAdr (0 + l.length)) = blank := by
    rw [Nat.zero_add]
    exact h.fresh _ (Nat.le_refl _) (Nat.add_lt_add_left hroom _)
  have := parRetrieveLoop_slots out rest l 0 none p (by simpa using h.slots) hb
  rw [meshParRetrieve, show c.size + sizeSaveFlag = c.sizeSave from rfl, hoff]
  simpa [retrieved, Log.current] using this

/-! ### Store -/

/-- The log a store writes to: emptied first when it is full. -/
def roomFor (c : ParCfg) (l : Log (List Byte)) : Log (List Byte) := if Full c l then [] else l

/-- The last slot already holds `x`, whatever its flag says. -/
def LastHolds (l : Log (List Byte)) (x : List Byte) : Prop := l.getLast?.map Slot.data = some x

instance (l : Log (List Byte)) (x : List Byte) : Decidable (LastHolds l x) :=
  inferInstanceAs (Decidable (_ = _))

/-- What a store makes of the log. -/
def storeLog (c : ParCfg) (saveMap : List Nat) (l : Log (List Byte)) (x : List Byte) :
    Log (List Byte) :=
  if c.adrBase ∈ saveMap ∧ LastHolds (roomFor c l) x then roomFor c l
  else (roomFor c l).append x

theorem not_full_nil (c : ParCfg) : ¬ Full c [] := by
  have := c.size_le
  simp only [Full, ParCfg.sizeSave, List.length_nil]
  omega

theorem not_full_roomFor (c : ParCfg) (l : Log (List Byte)) : ¬ Full c (roomFor c l) := by
  unfold roomFor
  split
  · exact not_full_nil c
  · assumption

/-- The wrap test of the code is `Full`. -/
theorem wrap_iff (c : ParCfg) (l : Log (List Byte)) :
    c.slotAdr l.length > c.adrBase + flashSectorSize - c.sizeSave - sizeSaveFlag ↔ Full c l := by
  have := c.size_le
  simp only [Full, ParCfg.slotAdr, Nat.add_mul, Nat.one_mul]
  simp only [ParCfg.sizeSave] at *
  omega

/-- The code's test for a slot before `*p_adr`. -/
theorem prev_iff (c : ParCfg) (l : Log (List Byte)) :
    c.slotAdr l.length ≥ c.adrBase + c.sizeSave ↔ l ≠ [] := by
  cases l with
  | nil => simp [c.slotAdr_zero, ParCfg.sizeSave, sizeSaveFlag]
  | cons s l =>
    have := c.slotAdr_mono (Nat.succ_le_of_lt (Nat.succ_pos l.length))
    rw [c.slotAdr_succ, c.slotAdr_zero] at this
    simpa using this

theorem parStoreWrap_run (c : ParCfg) (l : Log (List Byte)) (f : Flash) :
    (parStoreWrap (c.slotAdr l.length) c.adrBase c.sizeSave).run f =
      (c.slotAdr (roomFor c l).length,
        if Full c l then f.erase c.adrBase flashSectorSize else f) := by
  unfold parStoreWrap roomFor
  by_cases hf : Full c l
  · rw [if_pos ((wrap_iff c l).mpr hf), if_pos hf, if_pos hf]
    simp [flashEraseSector, c.slotAdr_zero]
  · rw [if_neg (mt (wrap_iff c l).mp hf), if_neg hf, if_neg hf]
    rfl

theorem holds_roomFor (h : Holds c f l) :
    Holds c (if Full c l then f.erase c.adrBase flashSectorSize else f) (roomFor c l) := by
  unfold roomFor
  split
  · exact holds_erase c f
  · exact h

theorem readOnly_parStoreSame (saveMap : List Nat) (inp : List Byte) (pAdr adrBase ss : Nat) :
    (parStoreSame saveMap inp pAdr adrBase ss).ReadOnly :=
  ((readOnly_meshFlashDataCmp _ _).bind fun _ => readOnly_pure _).ite (readOnly_pure _)

/-- The skip test compares data only: the flag of the slot is not looked at. -/
theorem parStoreSame_run (h : Holds c f l) (saveMap : List Nat) (x : Record c) :
    (parStoreSame saveMap x.1 (c.slotAdr l.length) c.adrBase c.sizeSave).run f =
      (decide (c.adrBase ∈ saveMap ∧ LastHolds l x.1), f) := by
  refine Prod.ext ?_ ((readOnly_parStoreSame ..).run f)
  have hx : x.1 ≠ [] := fun h0 => (Nat.ne_of_gt c.size_pos) (x.2 ▸ List.length_eq_zero_iff.mpr h0)
  unfold parStoreSame
  rcases List.eq_nil_or_concat' l with rfl | ⟨init, s, rfl⟩
  · rw [if_neg fun hc => (prev_iff c []).mp hc.1 rfl]
    simp [LastHolds]
  · have hprev := (prev_iff c (init ++ [s])).mpr (by simp)
    have hdata := ((holds_snoc.mp h).2.1).data
    by_cases hm : c.adrBase ∈ saveMap
    · have hlast : c.slotAdr (init ++ [s]).length - c.sizeSave = c.slotAdr init.length := by
        simp [c.slotAdr_succ]
      rw [if_pos ⟨hprev, hm⟩, run_bind, hlast, run_pure]
      simp only [decide_eq_decide, hm, true_and, LastHolds,
        meshFlashDataCmp_allSame f _ hx, x.2]
      simp [hdata]
    · simp [hm]

/-- Clearing the flag before the last slot, when there is one. -/
theorem holds_clearPrev {s : Slot (List Byte)} (h : Holds c f (l ++ [s])) :
    Holds c (if c.slotAdr l.length ≥ c.adrBase + c.sizeSave then
      f.write (c.slotAdr l.length - c.sizeSave) (flagWord 0) else f) (l.retireLast ++ [s]) := by
  rcases List.eq_nil_or_concat' l with rfl | ⟨init, t, rfl⟩
  · rwa [if_neg fun hc => (prev_iff c []).mp hc rfl]
  · have hlast : c.slotAdr (init ++ [t]).length - c.sizeSave = c.slotAdr init.length := by
      simp [c.slotAdr_succ]
    rw [if_pos ((prev_iff c _).mpr (by simp)), hlast, Log.retireLast_snoc]
    exact h.retired

/-- A slot is written: the record is appended to the log. -/
theorem parStoreWrite_run (h : Holds c f l) (hroom : ¬ Full c l) (x : Record c) :
    Holds c ((parStoreWrite x.1 (c.slotAdr l.length) c.adrBase c.sizeSave).exec f)
      (l.append x.1) := by
  have h4 := holds_clearPrev ((h.opened hroom).filled x).committed
  simp only [parStoreWrite, Prog.exec, run_bind, run_flashWriteWithCheck, flashWritePage, run_ite,
    run_writeAt, run_pure]
  by_cases hp : c.slotAdr l.length ≥ c.adrBase + c.sizeSave
  · rwa [if_pos hp] at h4 ⊢
  · rwa [if_neg hp] at h4 ⊢

/-- **Cuts of a write.**  After `n` operations the append has made `n` of its steps. -/
theorem parStoreWrite_cut (h : Holds c f l) (hroom : ¬ Full c l) (x : Record c) (n : Nat) :
    Holds c ((parStoreWrite x.1 (c.slotAdr l.length) c.adrBase c.sizeSave).cutAfter n f)
      (l.appendAfter (List.replicate c.size blank) x.1 n) := by
  have h1 := h.opened hroom
  have h2 := h1.filled x
  have h3 := h2.committed
  match n with
  | 0 => rwa [cutAfter_zero]
  | 1 =>
    rw [parStoreWrite, cutAfter_flashWriteWithCheck, cutAfter_zero]
    exact h1
  | 2 =>
    rw [parStoreWrite, cutAfter_flashWriteWithCheck, cutAfter_flashWriteWithCheck, cutAfter_zero]
    exact h2
  | n + 3 =>
    rw [parStoreWrite, cutAfter_flashWriteWithCheck, cutAfter_flashWriteWithCheck,
      cutAfter_flashWriteWithCheck]
    have h4 := holds_clearPrev h3
    by_cases hp : c.slotAdr l.length ≥ c.adrBase + c.sizeSave
    · rw [if_pos hp] at h4 ⊢
      match n with
      | 0 => exact h3
      | 1 => exact h4
      | n + 2 => exact h4
    · -- the first slot of the sector has no slot before it to clear
      obtain rfl : l = [] := Decidable.not_not.mp (mt (prev_iff c l).mpr hp)
      rw [if_neg hp]
      match n with
      | 0 => exact h3
      | 1 => exact h3
      | n + 2 => exact h3

/-- **A completed store is `storeLog`.** -/
theorem meshParStore_run (h : Holds c f l) (saveMap : List Nat) (x : Record c) :
    ∃ g, (meshParStore saveMap x.1 (c.slotAdr l.length) c.adrBase c.size).run f =
        (c.slotAdr (storeLog c saveMap l x.1).length, g) ∧
      Holds c g (storeLog c saveMap l x.1) := by
  have hw := holds_roomFor h
  simp only [meshParStore, show c.size + sizeSaveFlag = c.sizeSave from rfl,
    run_bind_of (parStoreWrap_run c l f), run_bind_of (parStoreSame_run hw saveMap x)]
  by_cases hs : c.adrBase ∈ saveMap ∧ LastHolds (roomFor c l) x.1
  · simp only [hs, storeLog, and_self, decide_true, if_true, run_pure]
    exact ⟨_, rfl, hw⟩
  · simp only [hs, storeLog, decide_false, if_false, Bool.false_eq_true, run_bind, run_pure,
      Log.length_append, c.slotAdr_succ]
    exact ⟨_, rfl, parStoreWrite_run hw (not_full_roomFor c l) x⟩

/-- The logs a cut inside a store can leave. -/
def StoreCut (c : ParCfg) (l : Log (List Byte)) (x : List Byte) (l' : Log (List Byte)) : Prop :=
  l' = l ∨ l' ∈ (roomFor c l).appendStates (List.replicate c.size blank) x

/-- **A cut inside a store leaves the old log, or one of an append to the log
that was made room in.** -/
theorem meshParStore_cuts (h : Holds c f l) (saveMap : List Nat) (x : Record c) :
    Always (fun g => ∃ l', StoreCut c l x.1 l' ∧ Holds c g l')
      (meshParStore saveMap x.1 (c.slotAdr l.length) c.adrBase c.size) f := by
  have hw := holds_roomFor h
  have hold : StoreCut c l x.1 l := .inl rfl
  have hroom : StoreCut c l x.1 (roomFor c l) := .inr (by simp [Log.appendStates])
  simp only [meshParStore, show c.size + sizeSaveFlag = c.sizeSave from rfl, always_bind,
    parStoreWrap_run, parStoreSame_run hw, (readOnly_parStoreSame ..).always]
  refine ⟨?_, ⟨_, hroom, hw⟩, ?_⟩
  · unfold parStoreWrap
    by_cases hf : Full c l
    · rw [if_pos ((wrap_iff c l).mpr hf)]
      rw [if_pos hf] at hw
      simp only [always_bind, flashEraseSector, always_eraseAt, run_eraseAt, always_pure]
      exact ⟨⟨⟨l, hold, h⟩, ⟨_, hroom, hw⟩⟩, ⟨_, hroom, hw⟩⟩
    · rw [if_neg (mt (wrap_iff c l).mp hf), always_pure]
      exact ⟨l, hold, h⟩
  · split
    · exact (always_pure ..).mpr ⟨_, hroom, hw⟩
    · rw [always_bind]
      refine ⟨fun n => ⟨_, .inr (Log.appendAfter_mem _ _ _ n),
        parStoreWrite_cut hw (not_full_roomFor c l) x n⟩, (always_pure ..).mpr ?_⟩
      exact ⟨_, .inr (by simp [Log.appendStates]), parStoreWrite_run hw (not_full_roomFor c l) x⟩

end

end PirMesh
