import PirMesh.Ota.Accept

/-! # Ota — What an update that fails leaves in flash

Data packets are written only inside the area of the new image.  When an update ends with an
error the sectors are erased that the packets up to the last index lie in.  A packet that does
not read back as it was written does not move the index: where it is the first of its sector,
the sector is left out (`otaCleanup_iff`). -/

namespace PirMesh

open Nor Reassembly Run

/-! ### Sessions -/

/-- The packet is written: its index follows, its check sum is right, and it lies in the area. -/
def Ota.TakesPacket (s : Ota) (p : OtaPkt) : Prop :=
  s.otaAdrIndex + 1 = otaAdr p ∧ otaCrcOk p = true ∧ otaAdr p <<< 4 < otaFirmwareSizeK <<< 10

instance (s : Ota) (p : OtaPkt) : Decidable (s.TakesPacket p) := inferInstanceAs (Decidable (_ ∧ _))

/-- The device with the indexes of the packets written since it started or an update did. -/
structure OtaSession where
  written : List ℕ
  ota : Ota

namespace OtaSession

def next (t : OtaSession) (e : OtaEvent) : OtaSession where
  written :=
    if t.ota.rebooted.isSome then t.written
    else match e with
      | .write enable _ p =>
        if !enable then t.written
        else if otaAdr p = cmdOtaStart then []
        else if t.ota.TakesPacket p then t.written ++ [otaAdr p]
        else t.written
      | _ => t.written
  ota := otaStep t.ota e

def boot (off : ℕ) (flash : Flash) : OtaSession := ⟨[], otaBoot off flash⟩

end OtaSession

/-- The sector of a packet. -/
def otaSector (s : Ota) (i : ℕ) : ℕ := s.otaProgramOffset + i / 256 * 4096

/-- What `rf_link_slave_ota_finish_led_and_reboot` erases. -/
def otaErased (s : Ota) (st : Byte) : List ℕ :=
  if st ≠ otaSuccess ∧ s.otaAdrIndex ≥ 0 then otaSectors s else []

/-- With any error, every sector is erased that a packet was written to. -/
def OtaSession.Right (t : OtaSession) : Prop :=
  ∀ st ≠ otaSuccess, ∀ i ∈ t.written, otaSector t.ota i ∈ otaErased t.ota st

/-- Every bit that is set in the packet is still erased in flash. -/
def Ota.Programs (s : Ota) (p : OtaPkt) : Prop :=
  ∀ i < 16, s.flash (s.otaProgramOffset + otaAdr p <<< 4 + i) &&& (otaSaved p).getD i 0 =
    (otaSaved p).getD i 0

instance (s : Ota) (p : OtaPkt) : Decidable (s.Programs p) :=
  inferInstanceAs (Decidable (∀ i < 16, _))

/-- A packet that begins a sector can be written as it is. -/
def OtaSession.InTurn (t : OtaSession) : OtaEvent → Prop
  | .write true _ p => t.ota.rebooted = none → otaAdr p ≠ cmdOtaStart → t.ota.TakesPacket p →
    otaAdr p % 256 = 0 → t.ota.Programs p
  | _ => True

/-! ### Writing a packet -/

section Write

variable {s : Ota} {p : OtaPkt} {now : BitVec 32} {errFlg : Byte}

/-- A packet reads back as it was written iff flash has the bits for it. -/
theorem reads_back_iff :
    (s.flash.write (s.otaProgramOffset + otaAdr p <<< 4) (otaSaved p)).read
      (s.otaProgramOffset + otaAdr p <<< 4) 16 = otaSaved p ↔ s.Programs p := by
  have hlen := length_otaSaved p
  constructor
  · intro h i hi
    have hget := congrArg (fun l : List Byte => l.getD i 0) h
    simp only [List.getD_eq_getElem?_getD] at hget ⊢
    rw [List.getElem?_eq_getElem (by simpa using hi), Flash.getElem_read,
      Flash.write_at _ _ (by omega), List.getElem?_eq_getElem (by omega)] at hget
    rw [List.getElem?_eq_getElem (by omega)]
    exact hget
  · intro h
    refine List.ext_getElem (by simp [hlen]) fun i hi hi' => ?_
    have hbits := h i (by omega)
    rw [List.getD_eq_getElem?_getD, List.getElem?_eq_getElem hi'] at hbits
    rw [Flash.getElem_read, Flash.write_at _ _ hi']
    exact hbits

theorem bltOtaFinishedFlagSet_frame (now : BitVec 32) (s : Ota) (flag : Byte) :
    (bltOtaFinishedFlagSet now s flag).otaAdrIndex = s.otaAdrIndex ∧
      (bltOtaFinishedFlagSet now s flag).flash = s.flash ∧
      (bltOtaFinishedFlagSet now s flag).otaProgramOffset = s.otaProgramOffset := by
  unfold bltOtaFinishedFlagSet
  split
  · exact ⟨rfl, rfl, rfl⟩
  · exact ⟨rfl, rfl, rfl⟩

section

variable {errFlg : Byte}

theorem otaStore_writes (hsize : otaAdr p <<< 4 < otaFirmwareSizeK <<< 10) :
    (otaStore s p errFlg).1.flash =
      s.flash.write (s.otaProgramOffset + otaAdr p <<< 4) (otaSaved p) := by
  unfold otaStore
  rw [if_neg (Nat.not_le_of_lt hsize)]
  dsimp only
  split
  · rfl
  · rfl

/-- The index moves on if the packet reads back. -/
theorem otaStore_index (hsize : otaAdr p <<< 4 < otaFirmwareSizeK <<< 10) :
    (otaStore s p errFlg).1.otaAdrIndex =
      if s.Programs p then (otaAdr p : ℤ) else s.otaAdrIndex := by
  unfold otaStore
  rw [if_neg (Nat.not_le_of_lt hsize), ← if_congr reads_back_iff rfl rfl]
  dsimp only
  split
  · rfl
  · rfl

/-- What the write of a packet does to the index and to flash. -/
theorem otaStore_effect (s : Ota) (p : OtaPkt) (errFlg : Byte) :
    (otaStore s p errFlg).1.otaProgramOffset = s.otaProgramOffset ∧
      if otaAdr p <<< 4 < otaFirmwareSizeK <<< 10 then
        (otaStore s p errFlg).1.flash =
            s.flash.write (s.otaProgramOffset + otaAdr p <<< 4) (otaSaved p) ∧
          (otaStore s p errFlg).1.otaAdrIndex =
            if s.Programs p then (otaAdr p : ℤ) else s.otaAdrIndex
      else (otaStore s p errFlg).1.flash = s.flash ∧
        (otaStore s p errFlg).1.otaAdrIndex = s.otaAdrIndex := by
  refine ⟨otaStore_frame.1, ?_⟩
  by_cases hsize : otaAdr p <<< 4 < otaFirmwareSizeK <<< 10
  · rw [if_pos hsize]
    exact ⟨otaStore_writes hsize, otaStore_index hsize⟩
  · have hbig : otaStore s p errFlg = (s, otaOverflow) := if_pos (Nat.le_of_not_lt hsize)
    rw [if_neg hsize, hbig]
    exact ⟨rfl, rfl⟩

end

/-- What a data packet does to the index and to flash. -/
theorem otaData_effect (now : BitVec 32) (s : Ota) (p : OtaPkt) :
    let s' := (otaData now s p).1
    s'.otaProgramOffset = s.otaProgramOffset ∧
      if s.TakesPacket p then
        s'.flash = s.flash.write (s.otaProgramOffset + otaAdr p <<< 4) (otaSaved p) ∧
          s'.otaAdrIndex = if s.Programs p then (otaAdr p : ℤ) else s.otaAdrIndex
      else s'.flash = s.flash ∧ s'.otaAdrIndex = s.otaAdrIndex := by
  obtain ⟨hidx, hflash, hoff, -⟩ := @otaAddCheck_frame { s with bltOtaStartTick := now ||| 1 } p
  unfold otaData
  dsimp only
  -- the order, the check sum and the size are looked at in this order
  by_cases hnext : s.otaAdrIndex + 1 = otaAdr p
  · rw [if_pos hnext]
    by_cases hcrc : otaCrcOk p = true
    · rw [if_pos hcrc]
      generalize (otaHeader { s with bltOtaStartTick := now ||| 1 } p).2 = errFlg
      generalize otaAddCheck (otaHeader { s with bltOtaStartTick := now ||| 1 } p).1 p = s₁ at *
      obtain ⟨hoff', heffect⟩ := otaStore_effect s₁ p errFlg
      refine ⟨hoff'.trans hoff, ?_⟩
      by_cases hsize : otaAdr p <<< 4 < otaFirmwareSizeK <<< 10
      · rw [if_pos hsize, hflash, hoff, hidx] at heffect
        have hbits : s₁.Programs p ↔ s.Programs p := by
          unfold Ota.Programs
          rw [hflash, hoff]
        rw [if_pos (show s.TakesPacket p from ⟨hnext, hcrc, hsize⟩)]
        exact ⟨heffect.1, heffect.2.trans (if_congr hbits rfl rfl)⟩
      · rw [if_neg hsize] at heffect
        rw [if_neg (show ¬ s.TakesPacket p from fun hc => hsize hc.2.2)]
        exact ⟨heffect.1.trans hflash, heffect.2.trans hidx⟩
    · have hnot : ¬ s.TakesPacket p := fun hc => hcrc hc.2.1
      rw [if_neg hcrc, if_neg hnot]
      exact ⟨rfl, rfl, rfl⟩
  · have hnot : ¬ s.TakesPacket p := fun hc => hnext hc.1
    rw [if_neg hnext, if_neg hnot]
    split
    · exact ⟨rfl, rfl, rfl⟩
    · exact ⟨rfl, rfl, rfl⟩

/-- A command is not an index of the area. -/
theorem Ota.TakesPacket.not_command (h : s.TakesPacket p) :
    otaAdr p ≠ cmdOtaFwVersion ∧ otaAdr p ≠ cmdOtaStart ∧ otaAdr p ≠ cmdOtaEnd := by
  have hlt := h.2.2
  refine ⟨fun heq => ?_, fun heq => ?_, fun heq => ?_⟩
  · rw [heq] at hlt
    exact absurd hlt (by decide)
  · rw [heq] at hlt
    exact absurd hlt (by decide)
  · rw [heq] at hlt
    exact absurd hlt (by decide)

/-- What a write does to the index and to flash. -/
theorem otaWrite_effect (now : BitVec 32) (s : Ota) (p : OtaPkt) :
    let s' := otaWrite true now s p
    s'.otaProgramOffset = s.otaProgramOffset ∧
      if otaAdr p = cmdOtaStart then s'.flash = s.flash ∧ s'.otaAdrIndex = -1
      else if s.TakesPacket p then
        s'.flash = s.flash.write (s.otaProgramOffset + otaAdr p <<< 4) (otaSaved p) ∧
          s'.otaAdrIndex = if s.Programs p then (otaAdr p : ℤ) else s.otaAdrIndex
      else s'.flash = s.flash ∧ s'.otaAdrIndex = s.otaAdrIndex := by
  unfold otaWrite
  dsimp only
  rw [if_neg (by decide)]
  by_cases hversion : otaAdr p = cmdOtaFwVersion
  · have hnot : ¬ s.TakesPacket p := fun hc => hc.not_command.1 hversion
    have hstart : otaAdr p ≠ cmdOtaStart := by
      rw [hversion]
      decide
    rw [if_pos hversion, if_neg hstart, if_neg hnot]
    exact ⟨rfl, rfl, rfl⟩
  rw [if_neg hversion]
  by_cases hstart : otaAdr p = cmdOtaStart
  · rw [if_pos hstart, if_pos hstart]
    split
    · exact ⟨rfl, rfl, rfl⟩
    · exact ⟨rfl, rfl, rfl⟩
  rw [if_neg hstart, if_neg hstart]
  by_cases hend : otaAdr p = cmdOtaEnd
  · have hnot : ¬ s.TakesPacket p := fun hc => hc.not_command.2.2 hend
    obtain ⟨hidx, hflash, hoff⟩ := bltOtaFinishedFlagSet_frame now s (otaEndErr s p)
    rw [if_pos hend, if_neg hnot]
    exact ⟨hoff, hflash, hidx⟩
  rw [if_neg hend]
  have hdata := otaData_effect now s p
  dsimp only at hdata
  -- an error only sets the flag and the time
  split
  · obtain ⟨hidx, hflash, hoff⟩ :=
      bltOtaFinishedFlagSet_frame now (otaData now s p).1 (otaData now s p).2
    rw [hidx, hflash, hoff]
    exact hdata
  · exact hdata

/-- **A write lies in the area** of the new image, or there is none. -/
theorem otaWrite_bounds (enable : Bool) (now : BitVec 32) (s : Ota) (p : OtaPkt) :
    (otaWrite enable now s p).flash = s.flash ∨
      ∃ adr bs, (otaWrite enable now s p).flash = s.flash.write adr bs ∧
        s.otaProgramOffset ≤ adr ∧
        adr + bs.length ≤ s.otaProgramOffset + 1024 * otaFirmwareSizeK := by
  cases enable with
  | false => exact .inl rfl
  | true =>
    obtain ⟨-, heffect⟩ := otaWrite_effect now s p
    by_cases hstart : otaAdr p = cmdOtaStart
    · rw [if_pos hstart] at heffect
      exact .inl heffect.1
    rw [if_neg hstart] at heffect
    by_cases htakes : s.TakesPacket p
    · rw [if_pos htakes] at heffect
      refine .inr ⟨_, _, heffect.1, Nat.le_add_right _ _, ?_⟩
      have hlt := htakes.2.2
      rw [Nat.shiftLeft_eq, Nat.shiftLeft_eq] at hlt
      rw [length_otaSaved, Nat.shiftLeft_eq]
      omega
    · rw [if_neg htakes] at heffect
      exact .inl heffect.1

end Write

/-! ### The end of a session -/

theorem flash_finish_error {s : Ota} {st : Byte} (hst : st ≠ otaSuccess) :
    (rfLinkSlaveOtaFinishLedAndReboot s st).flash = s.flash.eraseList 4096 (otaErased s st) := by
  unfold rfLinkSlaveOtaFinishLedAndReboot otaErased
  dsimp only
  rw [if_neg hst]
  by_cases hidx : s.otaAdrIndex ≥ 0
  · rw [if_pos hidx, if_pos ⟨hst, hidx⟩]
  · rw [if_neg hidx, if_neg fun hc => hidx hc.2]
    rfl

/-- The main loop's call counts down, or is the end with a result. -/
theorem blsOtaProcTimeout_finish (now timeoutUs : BitVec 32) (s : Ota) :
    ∃ cnt flag, let t := { s with terminateCnt := cnt, bltOtaTerminateFlag := flag }
      blsOtaProcTimeout now timeoutUs s = t ∨
        ∃ st, blsOtaProcTimeout now timeoutUs s = rfLinkSlaveOtaFinishLedAndReboot t st := by
  have hhandle : ∃ cnt flag, let t := { s with terminateCnt := cnt, bltOtaTerminateFlag := flag }
      bltSlaveOtaFinishHandle now s = t ∨
        bltSlaveOtaFinishHandle now s =
          rfLinkSlaveOtaFinishLedAndReboot t s.bltOtaFinishedFlag := by
    unfold bltSlaveOtaFinishHandle
    by_cases htime : s.bltOtaFinishedTime = 0
    · rw [if_pos htime]
      exact ⟨s.terminateCnt, s.bltOtaTerminateFlag, .inl rfl⟩
    · rw [if_neg htime]
      -- the count is one lower, whatever it starts from
      generalize (if s.terminateCnt = 0 ∧ s.bltOtaTerminateFlag then 6 else s.terminateCnt) = cnt
      refine ⟨cnt - 1, s.bltOtaTerminateFlag ||
        tickExceeded now s.bltOtaFinishedTime (2000 * 1000), ?_⟩
      dsimp only
      split
      · exact .inr rfl
      · exact .inl rfl
  obtain ⟨cnt, flag, hsame | hreboot⟩ := hhandle
  · refine ⟨cnt, flag, ?_⟩
    unfold blsOtaProcTimeout
    dsimp only
    rw [hsame]
    split
    · exact .inl rfl
    · split
      · exact .inr ⟨otaTimeout, rfl⟩
      · exact .inl rfl
  · refine ⟨cnt, flag, .inr ⟨s.bltOtaFinishedFlag, ?_⟩⟩
    unfold blsOtaProcTimeout
    dsimp only
    rw [hreboot]
    exact if_pos rfl

/-- **An update that ends with an error** erases these sectors. -/
theorem flash_otaStep_error {s : Ota} (e : OtaEvent) (hup : s.rebooted = none) {st : Byte}
    (hst : st ≠ otaSuccess) (hdown : (otaStep s e).rebooted = some st) :
    (otaStep s e).flash = s.flash.eraseList 4096 (otaErased s st) := by
  have hnot : ¬ s.rebooted.isSome := by
    rw [hup]
    exact Bool.false_ne_true
  have hne : ∀ {x : Option Byte}, x = none → x ≠ some st := by
    rintro _ rfl
    exact nofun
  unfold otaStep at hdown ⊢
  rw [if_neg hnot] at hdown ⊢
  cases e with
  | write enable now p => exact absurd hdown (hne ((otaWrite_rebooted enable).trans hup))
  | rebootFlag flag => exact absurd hdown (hne hup)
  | procTimeout now timeoutUs =>
    obtain ⟨cnt, flag, hsame | ⟨st', hreboot⟩⟩ := blsOtaProcTimeout_finish now timeoutUs s
    · dsimp only at hdown
      rw [hsame] at hdown
      exact absurd hdown (hne hup)
    · dsimp only at hdown ⊢
      rw [hreboot] at hdown ⊢
      obtain rfl : st' = st := Option.some.inj hdown
      exact flash_finish_error hst

/-! ### One event -/

namespace OtaSession

variable {t : OtaSession}

theorem mem_otaErased {s : Ota} {st : Byte} (hst : st ≠ otaSuccess) (i : ℕ) :
    otaSector s i ∈ otaErased s st ↔ 0 ≤ s.otaAdrIndex ∧ i / 256 ≤ s.otaAdrIndex.toNat / 256 := by
  unfold otaErased otaSectors otaSector
  by_cases hidx : s.otaAdrIndex ≥ 0
  · rw [if_pos ⟨hst, hidx⟩, and_iff_right hidx, List.mem_map]
    constructor
    · rintro ⟨k, hk, heq⟩
      rw [List.mem_range] at hk
      omega
    · exact fun hle => ⟨i / 256, List.mem_range.mpr (Nat.lt_succ_of_le hle), rfl⟩
  · rw [if_neg fun hc => hidx hc.2]
    exact iff_of_false List.not_mem_nil fun hc => hidx hc.1

/-- The index covers every packet. -/
theorem right_iff (t : OtaSession) : t.Right ↔
    ∀ i ∈ t.written, 0 ≤ t.ota.otaAdrIndex ∧ i / 256 ≤ t.ota.otaAdrIndex.toNat / 256 := by
  constructor
  · exact fun h i hi => (mem_otaErased (by decide) i).mp (h otaTimeout (by decide) i hi)
  · exact fun h st hst i hi => (mem_otaErased hst i).mpr (h i hi)

theorem right_congr {t' : OtaSession} (hw : t'.written = t.written)
    (hidx : t'.ota.otaAdrIndex = t.ota.otaAdrIndex) : t'.Right ↔ t.Right := by
  rw [right_iff, right_iff, hw, hidx]

/-- A packet that is written. -/
theorem right_next_takes (h : t.Right) (hup : t.ota.rebooted = none) {p : OtaPkt}
    (now : BitVec 32) (hstart : otaAdr p ≠ cmdOtaStart) (htakes : t.ota.TakesPacket p) :
    (t.next (.write true now p)).Right ↔ (otaAdr p % 256 = 0 → t.ota.Programs p) := by
  have hnot : ¬ t.ota.rebooted.isSome := by
    rw [hup]
    exact Bool.false_ne_true
  have hw : (t.next (.write true now p)).written = t.written ++ [otaAdr p] := by
    change (if t.ota.rebooted.isSome then t.written else _) = _
    rw [if_neg hnot, if_neg (by decide), if_neg hstart, if_pos htakes]
  have hota : (t.next (.write true now p)).ota = otaWrite true now t.ota p := if_neg hnot
  obtain ⟨-, heffect⟩ := otaWrite_effect now t.ota p
  rw [if_neg hstart, if_pos htakes] at heffect
  have hidx := heffect.2
  have hnext := htakes.1
  have hold := (right_iff t).mp h
  rw [right_iff, hw, hota, hidx, List.forall_mem_append, List.forall_mem_singleton]
  by_cases hprog : t.ota.Programs p
  · -- the index moves on
    rw [if_pos hprog]
    refine iff_of_true ⟨fun i hi => ?_, ?_⟩ fun _ => hprog
    · have hcover := hold i hi
      omega
    · omega
  · rw [if_neg hprog]
    constructor
    · intro hcover h0
      omega
    · intro hmod
      have hne : otaAdr p % 256 ≠ 0 := fun h0 => hprog (hmod h0)
      refine ⟨hold, ?_⟩
      omega

/-- An event that writes no packet and leaves the index. -/
theorem right_next_kept (h : t.Right) {e : OtaEvent} (hw : (t.next e).written = t.written)
    (hidx : (t.next e).ota.otaAdrIndex = t.ota.otaAdrIndex) (hturn : t.InTurn e) :
    (t.next e).Right ↔ t.InTurn e :=
  iff_of_true ((right_congr hw hidx).mpr h) hturn

/-- A device that reboots takes nothing. -/
theorem right_next_rebooted (h : t.Right) (hdown : t.ota.rebooted.isSome) (e : OtaEvent) :
    (t.next e).Right ↔ t.InTurn e := by
  have hota : (t.next e).ota = t.ota := if_pos hdown
  refine right_next_kept h (if_pos hdown) (congrArg Ota.otaAdrIndex hota) ?_
  cases e with
  | write enable now p =>
    cases enable with
    | false => exact trivial
    | true =>
      intro hnone
      rw [hnone] at hdown
      exact absurd hdown Bool.false_ne_true
  | procTimeout now timeoutUs => exact trivial
  | rebootFlag flag => exact trivial

theorem otaAdrIndex_procTimeout (now timeoutUs : BitVec 32) (s : Ota) :
    (blsOtaProcTimeout now timeoutUs s).otaAdrIndex = s.otaAdrIndex := by
  obtain ⟨cnt, flag, hsame | ⟨st, hreboot⟩⟩ := blsOtaProcTimeout_finish now timeoutUs s
  · rw [hsame]
  · rw [hreboot]
    unfold rfLinkSlaveOtaFinishLedAndReboot
    dsimp only
    split_ifs <;> rfl

theorem right_next_write (h : t.Right) (hup : t.ota.rebooted = none) (now : BitVec 32)
    (p : OtaPkt) : (t.next (.write true now p)).Right ↔ t.InTurn (.write true now p) := by
  have hnot : ¬ t.ota.rebooted.isSome := by
    rw [hup]
    exact Bool.false_ne_true
  have hota : (t.next (.write true now p)).ota = otaWrite true now t.ota p := if_neg hnot
  have hw : (t.next (.write true now p)).written =
      if otaAdr p = cmdOtaStart then []
      else if t.ota.TakesPacket p then t.written ++ [otaAdr p]
      else t.written := if_neg hnot
  obtain ⟨-, heffect⟩ := otaWrite_effect now t.ota p
  by_cases hstart : otaAdr p = cmdOtaStart
  · rw [if_pos hstart] at hw
    refine iff_of_true ?_ fun _ hne => absurd hstart hne
    rw [right_iff, hw]
    exact fun i hi => absurd hi List.not_mem_nil
  rw [if_neg hstart] at hw heffect
  by_cases htakes : t.ota.TakesPacket p
  · refine (right_next_takes h hup now hstart htakes).trans ?_
    exact ⟨fun hc _ _ _ => hc, fun hc => hc hup hstart htakes⟩
  · rw [if_neg htakes] at hw heffect
    exact right_next_kept h hw ((congrArg Ota.otaAdrIndex hota).trans heffect.2)
      fun _ _ hc => absurd hc htakes

/-- **One event** leaves every sector to be erased exactly when it is in turn. -/
theorem right_next_iff (h : t.Right) (e : OtaEvent) : (t.next e).Right ↔ t.InTurn e := by
  by_cases hdown : t.ota.rebooted.isSome
  · exact right_next_rebooted h hdown e
  cases e with
  | write enable now p =>
    cases enable with
    | false =>
      have hota : (t.next (.write false now p)).ota = otaWrite false now t.ota p := if_neg hdown
      exact right_next_kept h (if_neg hdown) (congrArg Ota.otaAdrIndex hota) trivial
    | true => exact right_next_write h (Option.not_isSome_iff_eq_none.mp hdown) now p
  | procTimeout now timeoutUs =>
    have hota : (t.next (.procTimeout now timeoutUs)).ota =
        blsOtaProcTimeout now timeoutUs t.ota := if_neg hdown
    exact right_next_kept h (if_neg hdown)
      ((congrArg Ota.otaAdrIndex hota).trans (otaAdrIndex_procTimeout _ _ _)) trivial
  | rebootFlag flag =>
    have hota : (t.next (.rebootFlag flag)).ota = { t.ota with otaRebootFlag := flag } :=
      if_neg hdown
    refine right_next_kept h (if_neg hdown) ?_ trivial
    rw [hota]

end OtaSession

/-- What an update may do to flash: a write lies in the area, and the end with an error erases the
sectors. -/
structure OtaSession.Bounded (t : OtaSession) (e : OtaEvent) : Prop where
  write : ∀ enable now p, e = .write enable now p → (t.next e).ota.flash = t.ota.flash ∨
    ∃ adr bs, (t.next e).ota.flash = t.ota.flash.write adr bs ∧
      t.ota.otaProgramOffset ≤ adr ∧
      adr + bs.length ≤ t.ota.otaProgramOffset + 1024 * otaFirmwareSizeK
  finish : ∀ st ≠ otaSuccess, t.ota.rebooted = none → (t.next e).ota.rebooted = some st →
    (t.next e).ota.flash = t.ota.flash.eraseList 4096 (otaErased t.ota st)

theorem OtaSession.bounded (t : OtaSession) (e : OtaEvent) : t.Bounded e := by
  constructor
  · rintro enable now p rfl
    by_cases hdown : t.ota.rebooted.isSome
    · exact .inl (congrArg Ota.flash (if_pos hdown))
    · have hota : (t.next (.write enable now p)).ota = otaWrite enable now t.ota p := if_neg hdown
      rw [hota]
      exact otaWrite_bounds enable now t.ota p
  · exact fun st hst hup hdown => flash_otaStep_error e hup hst hdown

/-- **Every write is in bounds, and with any error every sector is erased that a packet was written
to**, the latter in the whole run exactly when every packet is in turn. -/
theorem otaCleanup_iff (off : ℕ) (flash : Flash) (es : List OtaEvent) :
    (∀ q e, q ++ [e] <+: es → (q.foldl OtaSession.next (.boot off flash)).Bounded e) ∧
      ((∀ q, q <+: es → (q.foldl OtaSession.next (.boot off flash)).Right) ↔
        GoodRun OtaSession.next OtaSession.InTurn (.boot off flash) es) := by
  have hboot : (OtaSession.boot off flash).Right := by
    rw [OtaSession.right_iff]
    exact fun i hi => absurd hi List.not_mem_nil
  refine ⟨fun q e _ => OtaSession.bounded _ e, forall_prefix_iff_goodRun hboot ?_⟩
  exact fun t e _ h => OtaSession.right_next_iff h e

/-- One octet of an older image is left, where the device does not look when it starts. -/
def leftOver : Flash := fun a => if a = 4 then 0 else blank

/-- The first packet does not read back, and nothing is erased. -/
theorem otaCleanup_refuted : ¬ ∀ (off : ℕ) (flash : Flash) (es : List OtaEvent) (e : OtaEvent)
    (st : Byte), st ≠ otaSuccess →
    (es.foldl OtaSession.next (.boot off flash)).ota.rebooted = none →
    ((es.foldl OtaSession.next (.boot off flash)).next e).ota.rebooted = some st →
    ∀ i ∈ (es.foldl OtaSession.next (.boot off flash)).written,
      ∀ a, otaSector (es.foldl OtaSession.next (.boot off flash)).ota i ≤ a →
        a < otaSector (es.foldl OtaSession.next (.boot off flash)).ota i + 4096 →
        ((es.foldl OtaSession.next (.boot off flash)).next e).ota.flash a = blank := by
  intro h
  have hblank := h 0 leftOver [.write true 0 startPkt, .write true 0 firstPkt] fourSeconds
    otaWriteFlashErr (by decide) (by decide +kernel) (by decide +kernel) 0 (by decide +kernel) 0
    (by decide +kernel) (by decide +kernel)
  exact absurd hblank (by decide +kernel)

end PirMesh
