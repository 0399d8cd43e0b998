import PirMesh.Library.Run
import PirMesh.Ota.Write

/-! # Ota — What makes a new image bootable

While an update runs without an error, the packets that have been taken since the last
start are the first of an image (`Taken`): each has its index and a right check sum and
lies in flash, packet 1 has set the number of packets, and the running check value is
that of the packets so far.  An end packet in that state closes a whole image.

The number of packets and the check type outlast a start.  An end packet in front of
packet 1 meets the number of an earlier update or none, and a result outlasts it too. -/

namespace PirMesh

open Nor Reassembly

/-! ### Images -/

/-- The check type packet 0 announces. -/
def Announces (pkts : List OtaPkt) (type : Byte) : Prop :=
  (type = fwCheckAgthm1 ∨ type = fwCheckAgthm2) ∧ ∃ p ∈ pkts.head?, p.dat 8 = 0x5D ∧ p.dat 9 = type

/-- The check value of packets. -/
def checkOver (type : Byte) (pkts : List OtaPkt) : BitVec 32 :=
  pkts.foldl (fwCheckAdd type) (fwCheckInit type 0)

/-- The packets of a whole image. -/
structure ValidImage (pkts : List OtaPkt) : Prop where
  count : 3 ≤ pkts.length
  index : ∀ i (h : i < pkts.length), otaAdr pkts[i] = i
  crc : ∀ p ∈ pkts, otaCrcOk p = true
  total : ∀ p ∈ pkts[1]?, pkts.length = ((otaImageLen p).toNat + 15) / 16
  check : ∀ type, Announces pkts type → ∀ p ∈ pkts.getLast?,
    checkOver type pkts.dropLast = otaCrcBin p

/-- The packets lie in flash one after the other. -/
def Stored (s : Ota) (pkts : List OtaPkt) : Prop :=
  ∀ i (h : i < pkts.length), s.flash.read (s.otaProgramOffset + i <<< 4) 16 = otaSaved pkts[i]

/-! ### Histories -/

def sinceStep (l : List OtaPkt) : OtaEvent → List OtaPkt
  | .write enable _ p =>
    if !enable then l
    else if otaAdr p = cmdOtaStart then []
    else if otaAdr p = cmdOtaFwVersion ∨ otaAdr p = cmdOtaEnd then l
    else l ++ [p]
  | .procTimeout _ _ => l
  | .rebootFlag _ => l

/-- The device with the data packets since the last start. -/
def otaSys : Run.Sys (List OtaPkt × Ota) OtaEvent :=
  .det (fun x => x.1 = [] ∧ ∃ off flash, x.2 = otaBoot off flash)
    fun x e => (sinceStep x.1 e, otaStep x.2 e)

/-- The image that the flag is set for came since the last start, `l` being what came. -/
def Accepted (l : List OtaPkt) (s : Ota) : Prop :=
  ∃ pkts, pkts.Sublist l ∧ ValidImage pkts ∧ Stored s pkts

/-- A started update without a result. -/
def Ota.Taking (s : Ota) : Prop := s.otaStartFlag = true ∧ s.bltOtaFinishedTime = 0

def Ota.Succeeded (s : Ota) : Prop :=
  s.bltOtaFinishedTime ≠ 0 ∧ s.bltOtaFinishedFlag = otaSuccess

/-- The checks of an end packet: its index, where it has one, and the number of packets. -/
def EndPasses (s : Ota) (p : OtaPkt) : Prop :=
  (p.l2cap = 9 ∧ BitVec.ofNat 16 (ofLE (read p.dat 2 2)) ^^^
      BitVec.ofNat 16 (ofLE (read p.dat 4 2)) = 0xffff →
    ((BitVec.ofNat 16 (ofLE (read p.dat 2 2))).toNat : Int) = s.otaAdrIndex) ∧
  (s.otaPktTotal.toNat : Int) = s.otaAdrIndex + 1

/-- No start after a success; while an update runs, no end that passes in front of packet 1,
and no packet 1 with more packets than 16 bits count. -/
def OtaGood (s : Ota) : OtaEvent → Prop
  | .write true _ p =>
    (otaAdr p = cmdOtaStart → ¬ s.Succeeded) ∧
    (s.Taking → otaAdr p = cmdOtaEnd → EndPasses s p → 1 ≤ s.otaAdrIndex) ∧
    (s.Taking → otaAdr p = 1 → s.otaAdrIndex = 0 → otaCrcOk p = true → ¬ otaTotal p < 3 →
      ((otaImageLen p).toNat + 15) / 16 < 2 ^ 16)
  | _ => True

/-! ### The check of the packets so far -/

/-- What the variables of the check say of the packets `pkts` since the start; the number
of packets is that of packet 1 as soon as it has come. -/
structure ImageChecked (s : Ota) (pkts : List OtaPkt) : Prop where
  total : ∀ p ∈ pkts[1]?, 3 ≤ s.otaPktTotal.toNat ∧
    s.otaPktTotal.toNat = ((otaImageLen p).toNat + 15) / 16
  check : ∀ type, Announces pkts type → s.needCheckType = type ∧
    s.fwCheckVal = checkOver type
      (if pkts.length ≤ 1 then pkts else pkts.take (s.otaPktTotal.toNat - 1))
  last : ∀ type, Announces pkts type → 2 ≤ pkts.length → pkts.length = s.otaPktTotal.toNat →
    ∀ p ∈ pkts.getLast?, checkOver type pkts.dropLast = otaCrcBin p

variable {s s' : Ota} {p : OtaPkt} {pkts : List OtaPkt} {now : BitVec 32} {errFlg : Byte}

theorem checkOver_append (type : Byte) (pkts : List OtaPkt) (p : OtaPkt) :
    checkOver type (pkts ++ [p]) = fwCheckAdd type (checkOver type pkts) p := by
  rw [checkOver, List.foldl_append]
  rfl

theorem announces_append {type : Byte} (h : pkts ≠ []) :
    Announces (pkts ++ [p]) type ↔ Announces pkts type := by
  rw [Announces, List.head?_append_of_ne_nil _ h]
  rfl

theorem ImageChecked.congr (h : ImageChecked s pkts) (htotal : s'.otaPktTotal = s.otaPktTotal)
    (htype : s'.needCheckType = s.needCheckType) (hval : s'.fwCheckVal = s.fwCheckVal) :
    ImageChecked s' pkts where
  total := by
    rw [htotal]
    exact h.total
  check := by
    rw [htotal, htype, hval]
    exact h.check
  last := by
    rw [htotal]
    exact h.last

/-- Packet 0 sets the type and begins the check value. -/
theorem imageChecked_first (hadr : otaAdr p = 0) :
    ImageChecked (otaAddCheck (otaHeader s p).1 p) [p] := by
  have hstate : otaAddCheck (otaHeader s p).1 p = { s with
      needCheckType := if p.dat 8 = 0x5D then p.dat 9 else s.needCheckType
      fwCheckVal := fwCheckAdd (if p.dat 8 = 0x5D then p.dat 9 else s.needCheckType)
        (fwCheckInit (if p.dat 8 = 0x5D then p.dat 9 else s.needCheckType) s.fwCheckVal) p } := by
    simp only [otaAddCheck, otaHeader, hadr, true_or, if_true]
  refine ⟨fun q hq => by simp at hq, fun type ha => ?_, fun type _ h2 => by simp at h2⟩
  obtain ⟨htype, q, hq, hflag, hval⟩ := ha
  obtain rfl : p = q := by simpa using hq
  have hinit : fwCheckInit type s.fwCheckVal = fwCheckInit type 0 := by
    unfold fwCheckInit
    rcases htype with rfl | rfl <;> rfl
  rw [hstate]
  simp only [hflag, if_true, hval, hinit, true_and]
  rfl

/-- Packet 1 sets the number of packets. -/
theorem imageChecked_second {p₀ : OtaPkt} (h : ImageChecked s [p₀]) (hadr : otaAdr p = 1)
    (herr : (otaHeader s p).2 = otaSuccess)
    (hlen : ¬ otaTotal p < 3 → ((otaImageLen p).toNat + 15) / 16 < 2 ^ 16) :
    ImageChecked (otaAddCheck (otaHeader s p).1 p) [p₀, p] := by
  have hne : otaErrSts ≠ otaSuccess := by decide
  have hge : ¬ otaTotal p < 3 := by
    intro hlt
    rw [otaHeader, if_neg (by omega), if_pos hadr, if_pos hlt] at herr
    exact hne herr
  have htotal : (otaTotal p).toNat = ((otaImageLen p).toNat + 15) / 16 := by
    have hfit := hlen hge
    have hsum : (otaImageLen p + 15).toNat = (otaImageLen p).toNat + 15 := by
      have h15 : (15 : BitVec 32).toNat = 15 := rfl
      rw [BitVec.toNat_add, h15]
      omega
    have h16 : (16 : BitVec 32).toNat = 16 := rfl
    rw [otaTotal, BitVec.toNat_setWidth, BitVec.toNat_udiv, hsum, h16, Nat.mod_eq_of_lt hfit]
  have h3 : 3 ≤ (otaTotal p).toNat := Nat.not_lt.mp fun hlt => hge (BitVec.lt_def.mpr hlt)
  have hstate : otaAddCheck (otaHeader s p).1 p = { s with
      otaPktTotal := otaTotal p
      fwCheckVal := fwCheckAdd s.needCheckType s.fwCheckVal p } := by
    have hlt : otaAdr p = 0 ∨ (otaAdr p : Int) < (otaTotal p).toNat - 1 := by omega
    have hheader : (otaHeader s p).1 = { s with otaPktTotal := otaTotal p } := by
      rw [otaHeader, if_neg (by omega), if_pos hadr]
    rw [hheader, otaAddCheck, if_pos hlt]
  rw [hstate]
  refine ⟨fun q hq => ?_, fun type ha => ?_, fun type _ _ h2 => ?_⟩
  · obtain rfl : p = q := by simpa using hq
    exact ⟨h3, htotal⟩
  · obtain ⟨htype, hval⟩ := h.check type ((announces_append (by simp)).mp ha)
    refine ⟨htype, ?_⟩
    have htake : [p₀, p].take ((otaTotal p).toNat - 1) = [p₀] ++ [p] :=
      List.take_of_length_le (by simp; omega)
    simp only [htype, hval, List.length_cons, List.length_nil, htake]
    rw [if_pos (by decide), if_neg (by decide), checkOver_append]
  · simp at h2
    omega

/-- Every later packet adds to the check value; the last one is compared with it. -/
theorem imageChecked_later (h : ImageChecked s pkts) (h2 : 2 ≤ pkts.length)
    (hadr : otaAdr p = pkts.length)
    (herr : (otaHeader s p).2 = otaSuccess) :
    ImageChecked (otaAddCheck (otaHeader s p).1 p) (pkts ++ [p]) := by
  obtain ⟨h3, htotal⟩ := h.total pkts[1] (by simp)
  have hnil : pkts ≠ [] := fun hn => by simp [hn] at h2
  have hget : (pkts ++ [p])[1]? = pkts[1]? := List.getElem?_append_left (by omega)
  have hheader : (otaHeader s p).1 = s := by
    rw [otaHeader, if_neg (by omega), if_neg (by omega)]
    split <;> rfl
  have hprev (type : Byte) (ha : Announces pkts type) : s.needCheckType = type ∧
      s.fwCheckVal = checkOver type (pkts.take (s.otaPktTotal.toNat - 1)) := by
    have hc := h.check type ha
    rwa [if_neg (by omega)] at hc
  have hsum : ¬ (pkts ++ [p]).length ≤ 1 := by simp; omega
  rw [hheader, otaAddCheck]
  by_cases hlt : otaAdr p = 0 ∨ (otaAdr p : Int) < s.otaPktTotal.toNat - 1
  · have hle : pkts.length + 1 ≤ s.otaPktTotal.toNat - 1 := by omega
    rw [if_pos hlt]
    refine ⟨hget ▸ h.total, fun type ha => ?_, fun type _ _ hlen => ?_⟩
    · obtain ⟨htype, hval⟩ := hprev type ((announces_append hnil).mp ha)
      refine ⟨htype, ?_⟩
      rw [List.take_of_length_le (by omega)] at hval
      simp only [htype, hval, if_neg hsum]
      rw [List.take_of_length_le (by simp; omega), checkOver_append]
    · simp only [List.length_append, List.length_singleton] at hlen
      omega
  · have hge : s.otaPktTotal.toNat - 1 ≤ pkts.length := by omega
    rw [if_neg hlt]
    refine ⟨hget ▸ h.total, fun type ha => ?_, fun type ha _ hlen => ?_⟩
    · obtain ⟨htype, hval⟩ := hprev type ((announces_append hnil).mp ha)
      refine ⟨htype, ?_⟩
      rw [if_neg hsum, List.take_append_of_le_length hge, hval]
    · obtain ⟨htype, hval⟩ := hprev type ((announces_append hnil).mp ha)
      simp only [List.length_append, List.length_singleton] at hlen
      -- the number of the packet is the last index
      have hlast : (otaAdr p : Int) = s.otaPktTotal.toNat - 1 := by omega
      have hne : otaFwCheckErr ≠ otaSuccess := by decide
      have hequal : s.fwCheckVal = otaCrcBin p := by
        by_contra hdiff
        rw [otaHeader, if_neg (by omega), if_neg (by omega), if_pos hlast,
          if_pos ⟨htype ▸ ha.1, hdiff⟩] at herr
        exact hne herr
      rw [List.take_of_length_le (by omega)] at hval
      intro q hq
      obtain rfl : p = q := by simpa using hq
      rw [List.dropLast_concat, ← hval, hequal]

/-- A packet that follows and is right. -/
theorem ImageChecked.append (h : ImageChecked s pkts) (hadr : otaAdr p = pkts.length)
    (herr : (otaHeader s p).2 = otaSuccess)
    (hlen : otaAdr p = 1 → ¬ otaTotal p < 3 → ((otaImageLen p).toNat + 15) / 16 < 2 ^ 16) :
    ImageChecked (otaAddCheck (otaHeader s p).1 p) (pkts ++ [p]) := by
  match pkts, h, hadr with
  | [], _, hadr => exact imageChecked_first hadr
  | [_], h, hadr => exact imageChecked_second h hadr herr (hlen hadr)
  | _ :: _ :: _, h, hadr => exact imageChecked_later h (by simp) hadr herr

/-! ### The flash -/

/-- The variables an image check does not touch. -/
theorem otaAddCheck_frame : (otaAddCheck (otaHeader s p).1 p).otaAdrIndex = s.otaAdrIndex ∧
    (otaAddCheck (otaHeader s p).1 p).flash = s.flash ∧
    (otaAddCheck (otaHeader s p).1 p).otaProgramOffset = s.otaProgramOffset ∧
    (otaAddCheck (otaHeader s p).1 p).otaStartFlag = s.otaStartFlag ∧
    (otaAddCheck (otaHeader s p).1 p).bltOtaFinishedTime = s.bltOtaFinishedTime ∧
    (otaAddCheck (otaHeader s p).1 p).bltOtaFinishedFlag = s.bltOtaFinishedFlag ∧
    (otaAddCheck (otaHeader s p).1 p).rebooted = s.rebooted := by
  unfold otaAddCheck otaHeader
  repeat' split
  all_goals exact ⟨rfl, rfl, rfl, rfl, rfl, rfl, rfl⟩

/-- What a write to flash leaves of the other variables. -/
theorem otaStore_frame : (otaStore s p errFlg).1.otaProgramOffset = s.otaProgramOffset ∧
    (otaStore s p errFlg).1.otaStartFlag = s.otaStartFlag ∧
    (otaStore s p errFlg).1.bltOtaFinishedTime = s.bltOtaFinishedTime ∧
    (otaStore s p errFlg).1.bltOtaFinishedFlag = s.bltOtaFinishedFlag ∧
    (otaStore s p errFlg).1.rebooted = s.rebooted ∧
    (otaStore s p errFlg).1.otaPktTotal = s.otaPktTotal ∧
    (otaStore s p errFlg).1.needCheckType = s.needCheckType ∧
    (otaStore s p errFlg).1.fwCheckVal = s.fwCheckVal := by
  unfold otaStore
  dsimp only
  split
  · exact ⟨rfl, rfl, rfl, rfl, rfl, rfl, rfl, rfl⟩
  split <;> exact ⟨rfl, rfl, rfl, rfl, rfl, rfl, rfl, rfl⟩

/-- A packet changes the flash at its own place, if at all. -/
theorem otaStore_flash : (otaStore s p errFlg).1.flash = s.flash ∨
    (otaStore s p errFlg).1.flash =
      s.flash.write (s.otaProgramOffset + otaAdr p <<< 4) (otaSaved p) := by
  unfold otaStore
  dsimp only
  split
  · exact Or.inl rfl
  split
  all_goals
    dsimp only
    exact Or.inr rfl

theorem length_otaSaved (p : OtaPkt) : (otaSaved p).length = 16 := by
  unfold otaSaved
  split_ifs
  · rw [List.length_set]
    exact length_read _ _ _
  · exact length_read _ _ _

/-- What lies below a packet stays. -/
theorem Stored.otaStore (h : Stored s pkts) (hadr : pkts.length ≤ otaAdr p) :
    Stored (otaStore s p errFlg).1 pkts := by
  intro i hi
  obtain ⟨hoff, -⟩ := @otaStore_frame s p errFlg
  have hbelow : s.otaProgramOffset + i <<< 4 + 16 ≤ s.otaProgramOffset + otaAdr p <<< 4 := by
    rw [Nat.shiftLeft_eq, Nat.shiftLeft_eq]
    omega
  rw [hoff]
  rcases @otaStore_flash s p errFlg with hsame | hwrite
  · rw [hsame]
    exact h i hi
  · rw [hwrite, Flash.read_write_outside _ (Or.inl hbelow)]
    exact h i hi

/-- A packet that is written without an error. -/
theorem otaStore_ok (hok : (otaStore s p errFlg).2 = otaSuccess) :
    errFlg = otaSuccess ∧ (otaStore s p errFlg).1.otaAdrIndex = otaAdr p ∧
      (otaStore s p errFlg).1.flash.read (s.otaProgramOffset + otaAdr p <<< 4) 16 = otaSaved p := by
  have hover : otaOverflow ≠ otaSuccess := by decide
  have hflash : otaWriteFlashErr ≠ otaSuccess := by decide
  unfold otaStore at hok ⊢
  dsimp only at hok ⊢
  split at hok
  · exact absurd hok hover
  split at hok
  · rename_i hsize hread
    rw [if_neg hsize, if_pos hread]
    dsimp only
    exact ⟨hok, rfl, hread⟩
  · exact absurd hok hflash

/-! ### Data packets -/

/-- The packets of an update so far. -/
structure Taken (s : Ota) (pkts : List OtaPkt) : Prop where
  adrIndex : s.otaAdrIndex + 1 = pkts.length
  index : ∀ i (h : i < pkts.length), otaAdr pkts[i] = i
  crc : ∀ p ∈ pkts, otaCrcOk p = true
  stored : Stored s pkts
  checked : ImageChecked s pkts

/-- An update begins with no packet. -/
theorem taken_nil (h : s.otaAdrIndex = -1) : Taken s [] where
  adrIndex := by rw [h]; rfl
  index i hi := absurd hi (Nat.not_lt_zero i)
  crc p hp := absurd hp List.not_mem_nil
  stored i hi := absurd hi (Nat.not_lt_zero i)
  checked := by
    refine ⟨fun p hp => by simp at hp, fun type ha => ?_, fun type ha => ?_⟩
    all_goals
      obtain ⟨-, p, hp, -⟩ := ha
      simp at hp

/-- **A packet is taken.** -/
theorem Taken.store (h : Taken s pkts) (hadr : s.otaAdrIndex + 1 = otaAdr p)
    (hcrc : otaCrcOk p = true)
    (hlen : otaAdr p = 1 → ¬ otaTotal p < 3 → ((otaImageLen p).toNat + 15) / 16 < 2 ^ 16)
    (hok : (otaStore (otaAddCheck (otaHeader s p).1 p) p (otaHeader s p).2).2 = otaSuccess) :
    Taken (otaStore (otaAddCheck (otaHeader s p).1 p) p (otaHeader s p).2).1 (pkts ++ [p]) := by
  obtain ⟨herr, hindex, hread⟩ := otaStore_ok hok
  obtain ⟨-, hflash, hoff, -⟩ := @otaAddCheck_frame s p
  obtain ⟨hoff', -, -, -, -, htotal, htype, hval⟩ :=
    @otaStore_frame (otaAddCheck (otaHeader s p).1 p) p (otaHeader s p).2
  have hnum : otaAdr p = pkts.length := by
    have hidx := h.adrIndex
    omega
  have hbelow : Stored (otaAddCheck (otaHeader s p).1 p) pkts := fun i hi => by
    rw [hflash, hoff]
    exact h.stored i hi
  have hchecked := h.checked.append hnum herr hlen
  have hlast (q : OtaPkt) (i : Nat) (hi : i < (pkts ++ [p]).length) (hq : (pkts ++ [p])[i] = q) :
      (∃ h : i < pkts.length, pkts[i] = q) ∨ (i = pkts.length ∧ p = q) := by
    rw [List.getElem_append] at hq
    split at hq
    · rename_i hlt
      exact Or.inl ⟨hlt, hq⟩
    · rename_i hge
      rw [List.length_append, List.length_singleton] at hi
      exact Or.inr ⟨by omega, by simpa using hq⟩
  refine ⟨by rw [hindex, hnum]; simp, fun i hi => ?_, fun q hq => ?_, fun i hi => ?_, ?_⟩
  · rcases hlast _ i hi rfl with ⟨hlt, heq⟩ | ⟨rfl, heq⟩
    · rw [← heq]
      exact h.index i hlt
    · rw [← heq]
      exact hnum
  · rcases List.mem_append.mp hq with hq | hq
    · exact h.crc q hq
    · rw [List.mem_singleton.mp hq]
      exact hcrc
  · rcases hlast _ i hi rfl with ⟨hlt, heq⟩ | ⟨rfl, heq⟩
    · rw [← heq]
      exact hbelow.otaStore (le_of_eq hnum.symm) i hlt
    · rw [← heq, hoff', ← hnum]
      exact hread
  · exact hchecked.congr htotal htype hval

/-- A data packet without an error is taken, or one that has been. -/
theorem Taken.data (h : Taken s pkts)
    (hlen : otaAdr p = 1 → s.otaAdrIndex = 0 → otaCrcOk p = true → ¬ otaTotal p < 3 →
      ((otaImageLen p).toNat + 15) / 16 < 2 ^ 16)
    (hok : (otaData now s p).2 = otaSuccess) :
    Taken (otaData now s p).1 pkts ∨ Taken (otaData now s p).1 (pkts ++ [p]) := by
  have hcrcErr : otaDataCrcErr ≠ otaSuccess := by decide
  have hloss : otaPacketLoss ≠ otaSuccess := by decide
  unfold otaData at hok ⊢
  dsimp only at hok ⊢
  split at hok
  · rename_i hadr
    rw [if_pos hadr]
    split at hok
    · rename_i hcrc
      rw [if_pos hcrc]
      have hstart : Taken { s with bltOtaStartTick := now ||| 1 } pkts :=
        ⟨h.adrIndex, h.index, h.crc, h.stored, h.checked.congr rfl rfl rfl⟩
      exact Or.inr (hstart.store hadr hcrc (fun h1 => hlen h1 (by omega) hcrc) hok)
    · exact absurd hok hcrcErr
  · rename_i hadr
    rw [if_neg hadr]
    split at hok
    · rename_i hge
      rw [if_pos hge]
      exact Or.inl h
    · exact absurd hok hloss

/-- What a data packet leaves of the result. -/
theorem otaData_frame : (otaData now s p).1.otaStartFlag = s.otaStartFlag ∧
    (otaData now s p).1.bltOtaFinishedTime = s.bltOtaFinishedTime ∧
    (otaData now s p).1.bltOtaFinishedFlag = s.bltOtaFinishedFlag ∧
    (otaData now s p).1.rebooted = s.rebooted := by
  obtain ⟨-, -, -, hstart, htime, hflag, hup⟩ :=
    @otaAddCheck_frame { s with bltOtaStartTick := now ||| 1 } p
  obtain ⟨-, hstart', htime', hflag', hup', -⟩ :=
    @otaStore_frame (otaAddCheck (otaHeader { s with bltOtaStartTick := now ||| 1 } p).1 p) p
      (otaHeader { s with bltOtaStartTick := now ||| 1 } p).2
  unfold otaData
  dsimp only
  split
  · split
    · exact ⟨hstart'.trans hstart, htime'.trans htime, hflag'.trans hflag, hup'.trans hup⟩
    · exact ⟨rfl, rfl, rfl, rfl⟩
  split <;> exact ⟨rfl, rfl, rfl, rfl⟩

/-- A data packet never reaches below the index. -/
theorem otaData_keeps (h : Stored s pkts) (hindex : (pkts.length : Int) ≤ s.otaAdrIndex + 1) :
    Stored (otaData now s p).1 pkts ∧
      (pkts.length : Int) ≤ (otaData now s p).1.otaAdrIndex + 1 := by
  obtain ⟨hidx, hflash, hoff, -⟩ :=
    @otaAddCheck_frame { s with bltOtaStartTick := now ||| 1 } p
  unfold otaData
  dsimp only
  split
  · rename_i hadr
    split
    · have hbelow : Stored
          (otaAddCheck (otaHeader { s with bltOtaStartTick := now ||| 1 } p).1 p) pkts :=
        fun i hi => by
          rw [hflash, hoff]
          exact h i hi
      refine ⟨hbelow.otaStore (by omega), ?_⟩
      unfold otaStore
      dsimp only
      split
      · rw [hidx]
        exact hindex
      split
      · dsimp only
        omega
      · rw [hidx]
        exact hindex
    · exact ⟨h, hindex⟩
  · split <;> exact ⟨h, hindex⟩

/-! ### The result -/

/-- The first result of a started update is kept. -/
theorem bltOtaFinishedFlagSet_taking (h : s.Taking) : bltOtaFinishedFlagSet now s errFlg =
    { s with bltOtaFinishedFlag := errFlg, bltOtaFinishedTime := now ||| 1 } := if_pos h

theorem bltOtaFinishedFlagSet_not_taking (h : ¬ s.Taking) :
    bltOtaFinishedFlagSet now s errFlg = s := if_neg h

/-- A write never starts the device again. -/
theorem otaWrite_rebooted (enable : Bool) : (otaWrite enable now s p).rebooted = s.rebooted := by
  have hset (t : Ota) (f : Byte) : (bltOtaFinishedFlagSet now t f).rebooted = t.rebooted := by
    unfold bltOtaFinishedFlagSet
    split <;> rfl
  obtain ⟨-, -, -, hdata⟩ := @otaData_frame s p now
  unfold otaWrite
  dsimp only
  split
  · rfl
  split
  · rfl
  split
  · split <;> rfl
  split
  · exact hset s _
  split
  · exact (hset _ _).trans hdata
  · exact hdata

theorem now_or_one_ne_zero (now : BitVec 32) : now ||| 1 ≠ 0 := by
  intro h
  have hbit : (now ||| 1).getLsbD 0 = (0 : BitVec 32).getLsbD 0 := by rw [h]
  simp at hbit

theorem otaEndErr_eq_success : otaEndErr s p = otaSuccess ↔ EndPasses s p := by
  have hne : otaDataUncomplete ≠ otaSuccess := by decide
  unfold otaEndErr EndPasses
  dsimp only
  constructor
  · intro h
    split at h
    · exact absurd h hne
    · rename_i htotal
      refine ⟨fun hcheck => ?_, not_not.mp htotal⟩
      by_contra hidx
      rw [if_pos ⟨hcheck.1, hcheck.2, hidx⟩] at h
      exact hne h
  · rintro ⟨hidx, htotal⟩
    rw [if_neg (not_not.mpr htotal), if_neg]
    rintro ⟨hlen, hcheck, hdiff⟩
    exact hdiff (hidx ⟨hlen, hcheck⟩)

/-- An end that passes with packet 1 taken closes a whole image. -/
theorem Taken.valid (h : Taken s pkts) (hindex : 1 ≤ s.otaAdrIndex) (hend : EndPasses s p) :
    ValidImage pkts := by
  have hlen : 2 ≤ pkts.length := by
    have hidx := h.adrIndex
    omega
  have hcount : pkts.length = s.otaPktTotal.toNat := by
    have hidx := h.adrIndex
    have htotal := hend.2
    omega
  have hsecond : pkts[1]? = some pkts[1] := List.getElem?_eq_getElem _
  obtain ⟨h3, htotal⟩ := h.checked.total pkts[1] hsecond
  refine ⟨hcount ▸ h3, h.index, h.crc, fun q hq => ?_, fun type ha => ?_⟩
  · obtain rfl : pkts[1] = q := by
      rw [hsecond] at hq
      exact Option.some.inj hq
    exact hcount.trans htotal
  · exact h.checked.last type ha hlen hcount

/-! ### Runs -/

/-- The image of a success lies in flash, below the index. -/
def Done (l : List OtaPkt) (s : Ota) : Prop :=
  ∃ pkts, pkts.Sublist l ∧ ValidImage pkts ∧ Stored s pkts ∧
    (pkts.length : Int) ≤ s.otaAdrIndex + 1

/-- What the packets since the last start have to do with the state. -/
structure OtaInv (l : List OtaPkt) (s : Ota) : Prop where
  taking : s.Taking → ∃ pkts, pkts.Sublist l ∧ Taken s pkts
  done : s.Succeeded → Done l s

variable {l : List OtaPkt}

theorem otaInv_boot (off : Nat) (flash : Flash) : OtaInv [] (otaBoot off flash) where
  taking h := absurd h.1 Bool.false_ne_true
  done h := absurd rfl h.1

/-- Ticks, counters and the reboot flag have nothing to do with the packets. -/
theorem OtaInv.congr (h : OtaInv l s) {tick : BitVec 32} {terminate : Bool} {cnt : Nat}
    {flag : Byte} : OtaInv l { s with
      bltOtaStartTick := tick, bltOtaTerminateFlag := terminate, terminateCnt := cnt
      otaRebootFlag := flag } where
  taking ht := by
    obtain ⟨pkts, hsub, htaken⟩ := h.taking ht
    exact ⟨pkts, hsub, ⟨htaken.adrIndex, htaken.index, htaken.crc, htaken.stored,
      htaken.checked.congr rfl rfl rfl⟩⟩
  done := h.done

/-- A result is recorded. -/
theorem OtaInv.set (h : OtaInv l s) (hdone : s.Taking → errFlg = otaSuccess → Done l s) :
    OtaInv l (bltOtaFinishedFlagSet now s errFlg) := by
  by_cases htaking : s.Taking
  · rw [bltOtaFinishedFlagSet_taking htaking]
    exact ⟨fun ht => absurd ht.2 (now_or_one_ne_zero now), fun hs => hdone htaking hs.2⟩
  · rw [bltOtaFinishedFlagSet_not_taking htaking]
    exact h

/-- A start forgets the packets, and there is no success to keep. -/
theorem otaInv_start (hgood : ¬ s.Succeeded) (hindex : s'.otaAdrIndex = -1)
    (htime : s'.bltOtaFinishedTime = s.bltOtaFinishedTime)
    (hflag : s'.bltOtaFinishedFlag = s.bltOtaFinishedFlag) : OtaInv [] s' where
  taking _ := ⟨[], List.Sublist.refl [], taken_nil hindex⟩
  done hs := absurd ⟨htime ▸ hs.1, hflag ▸ hs.2⟩ hgood

/-- A data packet, before its error is recorded. -/
theorem OtaInv.data (h : OtaInv l s)
    (hlen : s.Taking → otaAdr p = 1 → s.otaAdrIndex = 0 → otaCrcOk p = true → ¬ otaTotal p < 3 →
      ((otaImageLen p).toNat + 15) / 16 < 2 ^ 16)
    (hok : s.Taking → (otaData now s p).2 = otaSuccess) :
    OtaInv (l ++ [p]) (otaData now s p).1 := by
  obtain ⟨hstart, htime, hflag, -⟩ := @otaData_frame s p now
  constructor
  · intro ht
    have htaking : s.Taking := ⟨hstart ▸ ht.1, htime ▸ ht.2⟩
    obtain ⟨pkts, hsub, htaken⟩ := h.taking htaking
    rcases htaken.data (hlen htaking) (hok htaking) with hsame | hmore
    · exact ⟨pkts, hsub.trans (List.sublist_append_left l [p]), hsame⟩
    · exact ⟨pkts ++ [p], hsub.append (List.Sublist.refl [p]), hmore⟩
  · intro hs
    obtain ⟨pkts, hsub, hvalid, hstored, hindex⟩ := h.done ⟨htime ▸ hs.1, hflag ▸ hs.2⟩
    obtain ⟨hstored', hindex'⟩ := @otaData_keeps s p pkts now hstored hindex
    exact ⟨pkts, hsub.trans (List.sublist_append_left l [p]), hvalid, hstored', hindex'⟩

/-- A data packet with an error ends the update; without one it leaves a result alone. -/
theorem OtaInv.write_data (h : OtaInv l s)
    (hlen : s.Taking → otaAdr p = 1 → s.otaAdrIndex = 0 → otaCrcOk p = true → ¬ otaTotal p < 3 →
      ((otaImageLen p).toNat + 15) / 16 < 2 ^ 16) :
    OtaInv (l ++ [p]) (if (otaData now s p).2 ≠ otaSuccess then
      bltOtaFinishedFlagSet now (otaData now s p).1 (otaData now s p).2
      else (otaData now s p).1) := by
  by_cases hok : (otaData now s p).2 = otaSuccess
  · rw [if_neg (not_not.mpr hok)]
    exact h.data hlen fun _ => hok
  · rw [if_pos hok]
    by_cases htaking : (otaData now s p).1.Taking
    · rw [bltOtaFinishedFlagSet_taking htaking]
      exact ⟨fun ht => absurd ht.2 (now_or_one_ne_zero now), fun hs => absurd hs.2 hok⟩
    · obtain ⟨hstart, htime, -⟩ := @otaData_frame s p now
      rw [bltOtaFinishedFlagSet_not_taking htaking]
      exact h.data hlen fun ht => absurd ⟨hstart ▸ ht.1, htime ▸ ht.2⟩ htaking

/-- **One write.** -/
theorem OtaInv.write (h : OtaInv l s) {enable : Bool} (hgood : OtaGood s (.write enable now p)) :
    OtaInv (sinceStep l (.write enable now p)) (otaWrite enable now s p) := by
  cases enable with
  | false => exact h
  | true =>
    obtain ⟨hstart, hend, hlen⟩ := hgood
    have hvs : cmdOtaFwVersion ≠ cmdOtaStart := by decide
    have hes : cmdOtaEnd ≠ cmdOtaStart := by decide
    have hev : cmdOtaEnd ≠ cmdOtaFwVersion := by decide
    unfold sinceStep otaWrite
    simp only [Bool.not_true, Bool.false_eq_true, if_false]
    by_cases hadr : otaAdr p = cmdOtaFwVersion
    · rw [if_pos hadr, if_neg (hadr ▸ hvs), if_pos (Or.inl hadr)]
      exact h.congr
    · rw [if_neg hadr]
      by_cases hadr' : otaAdr p = cmdOtaStart
      · rw [if_pos hadr', if_pos hadr']
        split <;> exact otaInv_start (hstart hadr') rfl rfl rfl
      · rw [if_neg hadr', if_neg hadr']
        by_cases hadr'' : otaAdr p = cmdOtaEnd
        · rw [if_pos hadr'', if_pos (Or.inr hadr'')]
          refine h.set fun htaking herr => ?_
          have hpass := otaEndErr_eq_success.mp herr
          obtain ⟨pkts, hsub, htaken⟩ := h.taking htaking
          exact ⟨pkts, hsub, htaken.valid (hend htaking hadr'' hpass) hpass, htaken.stored,
            le_of_eq htaken.adrIndex.symm⟩
        · rw [if_neg hadr'', if_neg (fun hor => hor.elim hadr hadr'')]
          exact h.write_data hlen

/-- The device starts again with the result, or only counts down to it. -/
theorem bltSlaveOtaFinishHandle_cases (now : BitVec 32) (s : Ota) :
    (∃ cnt flag, bltSlaveOtaFinishHandle now s =
      { s with terminateCnt := cnt, bltOtaTerminateFlag := flag }) ∨
    ((bltSlaveOtaFinishHandle now s).rebooted = some s.bltOtaFinishedFlag ∧
      s.bltOtaFinishedTime ≠ 0) := by
  unfold bltSlaveOtaFinishHandle
  by_cases htime : s.bltOtaFinishedTime = 0
  · rw [if_pos htime]
    exact Or.inl ⟨s.terminateCnt, s.bltOtaTerminateFlag, rfl⟩
  · rw [if_neg htime]
    generalize (if s.terminateCnt = 0 ∧ s.bltOtaTerminateFlag then 6 else s.terminateCnt) = cnt
    dsimp only
    by_cases hend : decide (cnt = 1) = true ∨
      tickExceeded now s.bltOtaFinishedTime (4000 * 1000) = true
    · rw [if_pos hend]
      exact Or.inr ⟨rfl, htime⟩
    · rw [if_neg hend]
      exact Or.inl ⟨_, _, rfl⟩

/-- The main loop's call: a countdown, the result, or the time out. -/
theorem blsOtaProcTimeout_cases (now timeoutUs : BitVec 32) (hup : s.rebooted = none) :
    (∃ cnt flag, blsOtaProcTimeout now timeoutUs s =
      { s with terminateCnt := cnt, bltOtaTerminateFlag := flag }) ∨
    ((blsOtaProcTimeout now timeoutUs s).rebooted = some s.bltOtaFinishedFlag ∧
      s.bltOtaFinishedTime ≠ 0) ∨
    (blsOtaProcTimeout now timeoutUs s).rebooted = some otaTimeout := by
  unfold blsOtaProcTimeout
  dsimp only
  rcases bltSlaveOtaFinishHandle_cases now s with ⟨cnt, flag, hsame⟩ | ⟨hreboot, htime⟩
  · rw [hsame, hup]
    simp only [Option.isSome_none, Bool.false_eq_true, if_false]
    split
    · exact Or.inr (Or.inr rfl)
    · exact Or.inl ⟨cnt, flag, by rw [← hup]⟩
  · rw [hreboot]
    exact Or.inr (Or.inl ⟨hreboot, htime⟩)

/-- **One event.** -/
theorem OtaInv.step (h : OtaInv l s) (hup : s.rebooted = none) {e : OtaEvent} (hgood : OtaGood s e)
    (hup' : (otaStep s e).rebooted = none) : OtaInv (sinceStep l e) (otaStep s e) := by
  have hnot : ¬ s.rebooted.isSome := by rw [hup]; exact Bool.false_ne_true
  unfold otaStep at hup' ⊢
  rw [if_neg hnot] at hup' ⊢
  cases e with
  | write enable now p => exact h.write hgood
  | procTimeout now timeoutUs =>
    rcases blsOtaProcTimeout_cases now timeoutUs hup with
      ⟨cnt, flag, hsame⟩ | ⟨hreboot, -⟩ | hreboot
    · dsimp only
      rw [hsame]
      exact h.congr
    · exact absurd (hreboot.symm.trans hup') (Option.some_ne_none _)
    · exact absurd (hreboot.symm.trans hup') (Option.some_ne_none _)
  | rebootFlag flag => exact h.congr

/-- While the device is up, the packets since the last start bear out what the state says. -/
theorem otaInv_reach {x : List OtaPkt × Ota}
    (h : (otaSys.restrict fun x e => OtaGood x.2 e).Reach x) :
    x.2.rebooted = none → OtaInv x.1 x.2 := by
  refine Run.Sys.Reach.inv (P := fun x => x.2.rebooted = none → OtaInv x.1 x.2) h ?_ ?_
  · rintro ⟨l, s⟩ ⟨rfl, off, flash, rfl⟩ -
    exact otaInv_boot off flash
  · rintro ⟨l, s⟩ e t hinv ⟨hgood, rfl⟩ hup'
    have hup : s.rebooted = none := by
      by_contra hne
      have hdown : otaStep s e = s := if_pos (Option.isSome_iff_ne_none.mpr hne)
      exact hne (hdown ▸ hup')
    exact (hinv hup).step hup hgood hup'

/-- **The boot flag is set for a whole image.**  In a run whose steps are good, a device that
starts again with a success has been sent, since the last start, the packets of a whole
image, and they lie in its flash. -/
theorem otaSetFlag_accepted {l : List OtaPkt} {s : Ota}
    (h : (otaSys.restrict fun x e => OtaGood x.2 e).Reach (l, s)) (hup : s.rebooted = none)
    {e : OtaEvent} (hset : (otaStep s e).rebooted = some otaSuccess) : Accepted l s := by
  have hne : some otaTimeout ≠ some otaSuccess := by decide
  have hnot : ¬ s.rebooted.isSome := by rw [hup]; exact Bool.false_ne_true
  have hflag : s.Succeeded := by
    unfold otaStep at hset
    rw [if_neg hnot] at hset
    cases e with
    | write enable now p =>
      dsimp only at hset
      rw [otaWrite_rebooted, hup] at hset
      exact absurd hset.symm (Option.some_ne_none _)
    | procTimeout now timeoutUs =>
      rcases blsOtaProcTimeout_cases now timeoutUs hup with
        ⟨cnt, flag, hsame⟩ | ⟨hreboot, htime⟩ | hout
      · dsimp only at hset
        rw [hsame] at hset
        exact absurd (hup.symm.trans hset).symm (Option.some_ne_none _)
      · exact ⟨htime, Option.some.inj (hreboot.symm.trans hset)⟩
      · exact absurd (hout.symm.trans hset) hne
    | rebootFlag flag => exact absurd (hup.symm.trans hset).symm (Option.some_ne_none _)
  obtain ⟨pkts, hsub, hvalid, hstored, -⟩ := (otaInv_reach h hup).done hflag
  exact ⟨pkts, hsub, hvalid, hstored⟩

/-! ### An image of three packets -/

instance (s : Ota) : Decidable s.Taking := inferInstanceAs (Decidable (_ ∧ _))

instance (s : Ota) : Decidable s.Succeeded := inferInstanceAs (Decidable (_ ∧ _))

instance (s : Ota) (p : OtaPkt) : Decidable (EndPasses s p) :=
  inferInstanceAs (Decidable ((_ → _) ∧ _))

instance (s : Ota) : ∀ e, Decidable (OtaGood s e)
  | .write true _ p =>
    have : Decidable (s.Taking → otaAdr p = 1 → s.otaAdrIndex = 0 → otaCrcOk p = true →
      ¬ otaTotal p < 3 → ((otaImageLen p).toNat + 15) / 16 < 2 ^ 16) := inferInstance
    have : Decidable (s.Taking → otaAdr p = cmdOtaEnd → EndPasses s p → 1 ≤ s.otaAdrIndex) :=
      inferInstance
    inferInstanceAs (Decidable ((otaAdr p = cmdOtaStart → ¬ s.Succeeded) ∧ _ ∧ _))
  | .write false _ _ | .procTimeout _ _ | .rebootFlag _ => inferInstanceAs (Decidable True)

/-- A write of octets. -/
def pktOf (l2cap : BitVec 16) (l : List Byte) : OtaPkt where
  l2cap := l2cap
  dat i := l.getD i 0

/-- A data packet with its check sum. -/
def dataPkt (adr : Nat) (block : List Byte) : OtaPkt :=
  pktOf 27 (toLE 2 adr ++ block ++ toLE 2 (crc16 (toLE 2 adr ++ block)).toNat)

def startPkt : OtaPkt := pktOf 9 (toLE 2 cmdOtaStart)

def endPkt : OtaPkt := pktOf 5 (toLE 2 cmdOtaEnd)

/-- The image announces the sum of the check sums. -/
def firstPkt : OtaPkt :=
  dataPkt 0 ([1, 2, 3, 4, 5, 6, 0x5D, 1] ++ toLE 4 startUpFlag ++ [7, 8, 9, 10])

def secondPkt : OtaPkt := dataPkt 1 (List.replicate 8 0 ++ toLE 4 48 ++ List.replicate 4 0)

def thirdPkt : OtaPkt :=
  dataPkt 2 (toLE 4 (checkOver fwCheckAgthm1 [firstPkt, secondPkt]).toNat ++ List.replicate 12 0xff)

def threePkts : List OtaEvent :=
  [startPkt, firstPkt, secondPkt, secondPkt, thirdPkt, endPkt].map (.write true 0)

def startEnd : List OtaEvent := [startPkt, endPkt].map (.write true 0)

/-- The device after a list of events, with the packets since the last start. -/
def otaAfter (es : List OtaEvent) : List OtaPkt × Ota :=
  es.foldl (fun x e => (sinceStep x.1 e, otaStep x.2 e)) ([], otaBoot 0 fun _ => blank)

/-- The call that starts the device again four seconds later. -/
def fourSeconds : OtaEvent := .procTimeout 64000002 30000000

theorem reach_otaAfter {es : List OtaEvent}
    (h : Run.GoodRun (fun x e => (sinceStep x.1 e, otaStep x.2 e)) (fun x e => OtaGood x.2 e)
      ([], otaBoot 0 fun _ => blank) es) :
    (otaSys.restrict fun x e => OtaGood x.2 e).Reach ((otaAfter es).1, (otaAfter es).2) := by
  have hboot : (otaSys.restrict fun x e => OtaGood x.2 e).Reach ([], otaBoot 0 fun _ => blank) :=
    .init ⟨rfl, 0, fun _ => blank, rfl⟩
  exact Run.Sys.reach_foldl_restrict hboot h

theorem otaSetFlag_accepted_three :
    Accepted (otaAfter threePkts).1 (otaAfter threePkts).2 := by
  have hreach := @reach_otaAfter threePkts (by decide +kernel)
  have hup : (otaAfter threePkts).2.rebooted = none := by decide +kernel
  have hset : (otaStep (otaAfter threePkts).2 fourSeconds).rebooted = some otaSuccess := by
    decide +kernel
  exact otaSetFlag_accepted hreach hup hset

/-- Right after the device has started, a start and an end are a success. -/
theorem otaSetFlag_no_packets : ¬ ∀ (l : List OtaPkt) (s : Ota) (e : OtaEvent),
    otaSys.Reach (l, s) → s.rebooted = none → (otaStep s e).rebooted = some otaSuccess →
    Accepted l s := by
  intro h
  have hboot : otaSys.Reach ([], otaBoot 0 fun _ => blank) := .init ⟨rfl, 0, fun _ => blank, rfl⟩
  have hreach : otaSys.Reach (otaAfter startEnd) :=
    Run.Sys.reach_foldl hboot startEnd
  have hup : (otaAfter startEnd).2.rebooted = none := by decide +kernel
  have hset : (otaStep (otaAfter startEnd).2 fourSeconds).rebooted = some otaSuccess := by
    decide +kernel
  obtain ⟨pkts, hsub, hvalid, -⟩ :=
    h (otaAfter startEnd).1 (otaAfter startEnd).2 fourSeconds hreach hup hset
  have hnone : (otaAfter startEnd).1.length = 0 := by decide +kernel
  have hcount := hvalid.count
  have hle := hsub.length_le
  omega

end PirMesh
