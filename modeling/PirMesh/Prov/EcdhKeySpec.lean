import PirMesh.Prov.EcdhKey

/-! # Prov — Recovery of the stored key pair

A record that is flagged and has a right check sum is never looked at again, so a pair in it that
does not match stays (`Mismatched`); no cut makes such a record from another one
(`not_mismatched_afterBoot`).  From any other record three starts to their end come to a good one.

The rest of the sector is kept by every start but the one that erases.  That one keeps what is
blank, and what it has written back when the power fails (`sectorKept_iff`). -/

namespace PirMesh

open Nor Prog

namespace Ecdh

variable {calDskDpkIsValidOrNot : List Byte → List Byte → Bool}

/-! ### Fields of a record -/

theorem recordAt_eq (sector : Nat) (f : Flash) :
    recordAt sector f =
      { dsk := f.read (flashAdrEdchPara sector) 32
        dpk := f.read (flashAdrEdchPara sector + 32) 64
        valid := ofLE (f.read (flashAdrEdchPara sector + 96) 4)
        crc := ofLE (f.read (flashAdrEdchPara sector + 100) 4) } := by
  have hpart : ∀ off len, off + len ≤ 104 →
      ((f.read (flashAdrEdchPara sector) 104).drop off).take len =
        f.read (flashAdrEdchPara sector + off) len :=
    fun off len h => (Reassembly.read_part f (flashAdrEdchPara sector) off len 104 h).symm
  have hdsk := hpart 0 32 (by decide)
  rw [List.drop_zero, Nat.add_zero] at hdsk
  unfold recordAt KeyStr.ofFlash
  rw [hdsk, hpart 32 64 (by decide), hpart 96 4 (by decide), hpart 100 4 (by decide)]

/-- A word of ones is blank. -/
theorem blank_of_ofLE {f : Flash} {adr : Nat} (h : ofLE (f.read adr 4) = 0xffffffff) :
    ∀ i < 4, f (adr + i) = blank := by
  have h0 := (f (adr + 0)).isLt
  have h1 := (f (adr + 1)).isLt
  have h2 := (f (adr + 2)).isLt
  have h3 := (f (adr + 3)).isLt
  have hword : (f (adr + 0)).toNat + 256 * ((f (adr + 1)).toNat + 256 * ((f (adr + 2)).toNat +
      256 * ((f (adr + 3)).toNat + 256 * 0))) = 0xffffffff := h
  have hbyte : ∀ b : Byte, b.toNat = 255 → b = blank := fun b hb => BitVec.eq_of_toNat_eq hb
  intro i hi
  match i, hi with
  | 0, _ => exact hbyte _ (by omega)
  | 1, _ => exact hbyte _ (by omega)
  | 2, _ => exact hbyte _ (by omega)
  | 3, _ => exact hbyte _ (by omega)

theorem ofLE_of_blank {f : Flash} {adr : Nat} (h : ∀ i < 4, f (adr + i) = blank) :
    ofLE (f.read adr 4) = 0xffffffff := by
  rw [Flash.read_eq_replicate h]
  rfl

theorem getFlashDataIsValid_read {f : Flash} {adr len : Nat} :
    getFlashDataIsValid (f.read adr len) = false ↔ ∀ i < len, f (adr + i) = blank := by
  unfold getFlashDataIsValid
  rw [List.any_eq_false]
  constructor
  · intro h i hi
    have hmem : f (adr + i) ∈ f.read adr len := List.mem_map.mpr ⟨i, List.mem_range.mpr hi, rfl⟩
    have hb : f (adr + i) = 0xff := by simpa using h _ hmem
    exact hb
  · intro h b hb
    obtain ⟨i, hi, rfl⟩ := List.mem_map.mp hb
    have hb : f (adr + i) = 0xff := h i (List.mem_range.mp hi)
    simpa using hb

/-- A record is created in blank bytes, but for its check sum. -/
theorem creates_iff {sector : Nat} {f : Flash} :
    Creates (recordAt sector f) ↔ ∀ i < 100, f (flashAdrEdchPara sector + i) = blank := by
  have hsts : ∀ k : KeyStr, getEcdhKeySts k = .noneValid ↔
      getFlashDataIsValid k.dsk = false ∧ getFlashDataIsValid k.dpk = false := by
    intro k
    unfold getEcdhKeySts
    cases getFlashDataIsValid k.dsk <;> cases getFlashDataIsValid k.dpk <;> decide
  unfold Creates
  rw [hsts, recordAt_eq]
  dsimp only
  rw [getFlashDataIsValid_read, getFlashDataIsValid_read]
  constructor
  · rintro ⟨hvalid, hdsk, hdpk⟩ i hi
    by_cases h32 : i < 32
    · exact hdsk i h32
    by_cases h96 : i < 96
    · have hpk := hdpk (i - 32) (by omega)
      rwa [Nat.add_assoc, Nat.add_sub_cancel' (by omega)] at hpk
    · have hv := blank_of_ofLE hvalid (i - 96) (by omega)
      rwa [Nat.add_assoc, Nat.add_sub_cancel' (by omega)] at hv
  · intro h
    refine ⟨ofLE_of_blank fun i hi => ?_, fun i hi => h i (by omega), fun i hi => ?_⟩
    · rw [Nat.add_assoc]
      exact h _ (by omega)
    · rw [Nat.add_assoc]
      exact h _ (by omega)

/-! ### Good records -/

variable (calDskDpkIsValidOrNot) in
/-- The valid flag, a right check sum and a matching pair. -/
def Good (sector : Nat) (f : Flash) : Prop :=
  Trusted (recordAt sector f) ∧
    calDskDpkIsValidOrNot (recordAt sector f).dsk (recordAt sector f).dpk = true

variable (calDskDpkIsValidOrNot) in
/-- A record that no start looks at again, with a pair that does not match. -/
def Mismatched (sector : Nat) (f : Flash) : Prop :=
  Trusted (recordAt sector f) ∧
    calDskDpkIsValidOrNot (recordAt sector f).dsk (recordAt sector f).dpk = false

variable (calDskDpkIsValidOrNot) in
/-- A matching pair with the flag; the check sum may be wrong. -/
def Flagged (sector : Nat) (f : Flash) : Prop :=
  (recordAt sector f).valid = ecdhKeyValidFlag ∧
    calDskDpkIsValidOrNot (recordAt sector f).dsk (recordAt sector f).dpk = true

def BlankRecord (sector : Nat) (f : Flash) : Prop :=
  ∀ i < 104, f (flashAdrEdchPara sector + i) = blank

variable {sector : Nat} {f : Flash}

theorem not_trusted_of_blank (h : (recordAt sector f).valid = 0xffffffff) :
    ¬ Trusted (recordAt sector f) :=
  fun ht => flag_ne_blank (ht.1.symm.trans h)

theorem Flagged.good_or_erases (h : Flagged calDskDpkIsValidOrNot sector f) :
    Good calDskDpkIsValidOrNot sector f ∨ Erases calDskDpkIsValidOrNot (recordAt sector f) := by
  by_cases ht : Trusted (recordAt sector f)
  · exact .inl ⟨ht, h.2⟩
  · refine .inr ⟨ht, fun hc => ?_, fun hc => ?_⟩
    · exact flag_ne_blank (h.1.symm.trans hc.1)
    · exact flag_ne_blank (h.1.symm.trans hc.1)

/-! ### Bytes of the sector after an erase -/

theorem restored_apply {n i : Nat} (hi : i < 4096) :
    restored sector f (n + 1) (sectorAdr sector + i) =
      ((savedSector sector f).take n).getD i blank := by
  have hle : sectorAdr sector ≤ sectorAdr sector + i := Nat.le_add_right _ _
  have herase := @Flash.erase_inside f (sectorAdr sector) 4096 (sectorAdr sector + i)
    ⟨hle, by omega⟩
  rw [restored]
  unfold Flash.write
  rw [if_pos hle, herase, Flash.blank_and, Nat.add_sub_cancel_left]

/-- The key area is blank as soon as the sector is erased. -/
theorem blankRecord_restored (n : Nat) : BlankRecord sector (restored sector f (n + 1)) := by
  intro i hi
  rw [adr_eq, Nat.add_assoc, restored_apply (by omega)]
  by_cases hlt : 0x100 + i < ((savedSector sector f).take n).length
  · have hlen : (f.read (sectorAdr sector) 0x100).length ≤ 0x100 + i := by
      rw [Flash.length_read]
      omega
    rw [List.getD_eq_getElem _ _ hlt, List.getElem_take]
    unfold savedSector
    rw [List.getElem_append_right hlen, List.getElem_replicate]
    rfl
  · exact List.getD_eq_default _ _ (by omega)

/-! ### What a cut leaves of a record -/

theorem length_newRecord (p : KeyPair calDskDpkIsValidOrNot) :
    (p.dsk ++ p.dpk ++ flagAndCrc p.dsk p.dpk).length = 104 := by
  rw [List.length_append, List.length_append, p.length_dsk, p.length_dpk, flagAndCrc,
    List.length_append, length_toLE, length_toLE]

/-- The fields that have been written in full, where the flash was blank. -/
theorem read_created (p : KeyPair calDskDpkIsValidOrNot) {n : Nat} (off len : Nat)
    (hlen : off + len ≤ 104) (hn : off + len ≤ n)
    (hblank : ∀ i < len, f (flashAdrEdchPara sector + off + i) = blank) :
    (f.write (flashAdrEdchPara sector)
        ((p.dsk ++ p.dpk ++ flagAndCrc p.dsk p.dpk).take n)).read
      (flashAdrEdchPara sector + off) len =
        ((p.dsk ++ p.dpk ++ flagAndCrc p.dsk p.dpk).drop off).take len := by
  have hnew := length_newRecord p
  rw [Flash.read_write_part off len (by rw [List.length_take]; omega) hblank, List.drop_take,
    List.take_take, Nat.min_eq_left (by omega)]

/-- Behind the pair, a record that is created has it. -/
theorem created_pair (p : KeyPair calDskDpkIsValidOrNot) {n : Nat} (hn : 96 ≤ n)
    (hblank : ∀ i < 100, f (flashAdrEdchPara sector + i) = blank) :
    (recordAt sector (f.write (flashAdrEdchPara sector)
      ((p.dsk ++ p.dpk ++ flagAndCrc p.dsk p.dpk).take n))).dsk = p.dsk ∧
    (recordAt sector (f.write (flashAdrEdchPara sector)
      ((p.dsk ++ p.dpk ++ flagAndCrc p.dsk p.dpk).take n))).dpk = p.dpk := by
  have hdsk := @read_created _ sector f p n 0 32 (by decide) (by omega) fun i hi =>
    hblank i (by omega)
  have hdpk := @read_created _ sector f p n 32 64 (by decide) (by omega) fun i hi => by
      rw [Nat.add_assoc]
      exact hblank _ (by omega)
  rw [recordAt_eq]
  constructor
  · refine hdsk.trans ?_
    rw [List.drop_zero, List.append_assoc, List.take_left' p.length_dsk]
  · refine hdpk.trans ?_
    rw [List.append_assoc, List.drop_left' p.length_dsk, List.take_left' p.length_dpk]

theorem created_valid (p : KeyPair calDskDpkIsValidOrNot) {n : Nat} (hn : 100 ≤ n)
    (hblank : ∀ i < 100, f (flashAdrEdchPara sector + i) = blank) :
    (recordAt sector (f.write (flashAdrEdchPara sector)
      ((p.dsk ++ p.dpk ++ flagAndCrc p.dsk p.dpk).take n))).valid = ecdhKeyValidFlag := by
  have hvalid := @read_created _ sector f p n 96 4 (by decide) (by omega) fun i hi => by
      rw [Nat.add_assoc]
      exact hblank _ (by omega)
  have hpair : (p.dsk ++ p.dpk).length = 96 := by
    rw [List.length_append, p.length_dsk, p.length_dpk]
  rw [recordAt_eq]
  dsimp only
  rw [hvalid, List.drop_left' hpair, flagAndCrc, List.take_left' (length_toLE 4 _)]
  exact ofLE_toLE 4 ecdhKeyValidFlag

/-- In front of the flag nothing has been written there. -/
theorem created_unflagged (p : KeyPair calDskDpkIsValidOrNot) {n : Nat} (hn : n ≤ 96)
    (hblank : ∀ i < 100, f (flashAdrEdchPara sector + i) = blank) :
    (recordAt sector (f.write (flashAdrEdchPara sector)
      ((p.dsk ++ p.dpk ++ flagAndCrc p.dsk p.dpk).take n))).valid = 0xffffffff := by
  rw [recordAt_eq]
  dsimp only
  refine ofLE_of_blank fun i hi => ?_
  rw [Flash.write_outside _ (.inr (by rw [List.length_take]; omega)), Nat.add_assoc]
  exact hblank _ (by omega)

/-- A record that is completed keeps its pair. -/
theorem completed_pair (l : List Byte) :
    (recordAt sector (f.write (flashAdrEdchPara sector + 96) l)).dsk = (recordAt sector f).dsk ∧
    (recordAt sector (f.write (flashAdrEdchPara sector + 96) l)).dpk =
      (recordAt sector f).dpk := by
  rw [recordAt_eq, recordAt_eq]
  constructor
  · exact Flash.read_write_outside f (.inl (by omega))
  · exact Flash.read_write_outside f (.inl (by omega))

theorem completed_valid {dsk dpk : List Byte} (h : (recordAt sector f).valid = 0xffffffff) :
    (recordAt sector (f.write (flashAdrEdchPara sector + 96) (flagAndCrc dsk dpk))).valid =
      ecdhKeyValidFlag := by
  rw [recordAt_eq] at h ⊢
  dsimp only at h ⊢
  have hblank := blank_of_ofLE h
  have hlen : 0 + 4 ≤ (flagAndCrc dsk dpk).length := by
    rw [flagAndCrc, List.length_append, length_toLE, length_toLE]
    decide
  have hread := @Flash.read_write_part f (flashAdrEdchPara sector + 96) 0 4 _ hlen hblank
  rw [Nat.add_zero] at hread
  rw [hread, List.drop_zero, flagAndCrc, List.take_left' (length_toLE 4 _)]
  exact ofLE_toLE 4 ecdhKeyValidFlag

/-! ### Starts -/

/-- **No start makes a mismatched record**, wherever the power fails. -/
theorem not_mismatched_afterBoot (b : Boot calDskDpkIsValidOrNot)
    (h : ¬ Mismatched calDskDpkIsValidOrNot sector f) :
    ¬ Mismatched calDskDpkIsValidOrNot sector (afterBoot sector f b) := by
  rw [afterBoot_eq]
  split_ifs with htrust hcreate hcomplete
  · exact h
  · have hblank := creates_iff.mp hcreate
    intro hmis
    rcases Nat.le_total (b.cut.getD 104) 96 with hn | hn
    · exact not_trusted_of_blank (created_unflagged b.pair hn hblank) hmis.1
    · obtain ⟨hdsk, hdpk⟩ := created_pair b.pair hn hblank
      have hno := hmis.2
      rw [hdsk, hdpk, b.pair.matching] at hno
      exact absurd hno (by decide)
  · intro hmis
    obtain ⟨hdsk, hdpk⟩ := @completed_pair sector f
      ((flagAndCrc (recordAt sector f).dsk (recordAt sector f).dpk).take (b.cut.getD 8))
    have hno := hmis.2
    rw [hdsk, hdpk, hcomplete.2.2] at hno
    exact absurd hno (by decide)
  · cases hcut : b.cut.getD 0x201 with
    | zero => exact h
    | succ n =>
      intro hmis
      have hblank := @blankRecord_restored sector f n
      have hcreate' := creates_iff.mpr fun i hi => hblank i (by omega)
      exact not_trusted_of_blank hcreate'.1 hmis.1

/-- A start that comes to its end. -/
def complete (p : KeyPair calDskDpkIsValidOrNot) : Boot calDskDpkIsValidOrNot := ⟨p, none⟩

theorem Good.stays (h : Good calDskDpkIsValidOrNot sector f) (b : Boot calDskDpkIsValidOrNot) :
    afterBoot sector f b = f := by
  rw [afterBoot_eq, if_pos h.1]

/-- A pair is created, or found and completed. -/
theorem flagged_complete (h : ¬ Trusted (recordAt sector f))
    (he : ¬ Erases calDskDpkIsValidOrNot (recordAt sector f))
    (p : KeyPair calDskDpkIsValidOrNot) :
    Flagged calDskDpkIsValidOrNot sector (afterBoot sector f (complete p)) := by
  rw [afterBoot_eq, if_neg h]
  split_ifs with hcreate hcomplete
  · have hblank := creates_iff.mp hcreate
    obtain ⟨hdsk, hdpk⟩ := @created_pair _ sector f p 104 (by decide) hblank
    refine ⟨@created_valid _ sector f p 104 (by decide) hblank, ?_⟩
    exact (congrArg₂ calDskDpkIsValidOrNot hdsk hdpk).trans p.matching
  · have hfull : (flagAndCrc (recordAt sector f).dsk (recordAt sector f).dpk).take 8 =
        flagAndCrc (recordAt sector f).dsk (recordAt sector f).dpk := by
      refine List.take_of_length_le ?_
      rw [flagAndCrc, List.length_append, length_toLE, length_toLE]
    obtain ⟨hdsk, hdpk⟩ := @completed_pair sector f
      (flagAndCrc (recordAt sector f).dsk (recordAt sector f).dpk)
    show Flagged _ _ (f.write _ (List.take 8 _))
    rw [hfull]
    refine ⟨completed_valid hcomplete.1, ?_⟩
    rw [hdsk, hdpk]
    exact hcomplete.2.2
  · exact absurd ⟨h, hcreate, hcomplete⟩ he

theorem blank_complete (he : Erases calDskDpkIsValidOrNot (recordAt sector f))
    (p : KeyPair calDskDpkIsValidOrNot) :
    BlankRecord sector (afterBoot sector f (complete p)) := by
  rw [afterBoot_eq, if_neg he.1, if_neg he.2.1, if_neg he.2.2]
  exact blankRecord_restored 0x200

/-- A blank record becomes a good one. -/
theorem BlankRecord.complete (h : BlankRecord sector f) (p : KeyPair calDskDpkIsValidOrNot) :
    Good calDskDpkIsValidOrNot sector (afterBoot sector f (complete p)) := by
  have hcreate : Creates (recordAt sector f) := creates_iff.mpr fun i hi => h i (by omega)
  have hblank := creates_iff.mp hcreate
  have htrust := not_trusted_of_blank hcreate.1
  have hflag := flagged_complete htrust (fun he => he.2.1 hcreate) p
  refine ⟨⟨hflag.1, ?_⟩, hflag.2⟩
  have hafter : afterBoot sector f (Ecdh.complete p) = f.write (flashAdrEdchPara sector)
      ((p.dsk ++ p.dpk ++ flagAndCrc p.dsk p.dpk).take 104) := by
    rw [afterBoot_eq, if_neg htrust, if_pos hcreate]
    rfl
  obtain ⟨hdsk, hdpk⟩ := @created_pair _ sector f p 104 (by decide) hblank
  have hcrc := @read_created _ sector f p 104 100 4 (by decide) (by decide) fun i hi => by
    rw [Nat.add_assoc]
    exact h _ (by omega)
  have hfield : ((p.dsk ++ p.dpk ++ flagAndCrc p.dsk p.dpk).drop 100).take 4 =
      toLE 4 (crcOf p.dsk p.dpk) := by
    have hhead : (p.dsk ++ p.dpk ++ toLE 4 ecdhKeyValidFlag).length = 100 := by
      rw [List.length_append, List.length_append, p.length_dsk, p.length_dpk, length_toLE]
    rw [flagAndCrc, ← List.append_assoc, List.drop_left' hhead]
    exact List.take_of_length_le (le_of_eq (length_toLE 4 _))
  have hlt : crcOf p.dsk p.dpk < 256 ^ 4 := by
    have hcrc16 := (crc16 (p.dsk ++ p.dpk)).isLt
    unfold crcOf
    omega
  rw [hafter, hdsk, hdpk, recordAt_eq]
  dsimp only
  rw [hcrc, hfield, ofLE_toLE, Nat.mod_eq_of_lt hlt]

/-- Once flagged, a record is good after two starts. -/
theorem Flagged.two_boots (h : Flagged calDskDpkIsValidOrNot sector f)
    (p q : KeyPair calDskDpkIsValidOrNot) :
    Good calDskDpkIsValidOrNot sector
      (afterBoot sector (afterBoot sector f (complete p)) (complete q)) := by
  rcases h.good_or_erases with hgood | herase
  · rw [hgood.stays, hgood.stays]
    exact hgood
  · exact (blank_complete herase p).complete q

/-- **Three starts.**  From any record but a mismatched one they come to a good one. -/
theorem three_boots (h : ¬ Mismatched calDskDpkIsValidOrNot sector f)
    (p q r : KeyPair calDskDpkIsValidOrNot) :
    Good calDskDpkIsValidOrNot sector
      (afterBoots sector f [complete p, complete q, complete r]) := by
  show Good calDskDpkIsValidOrNot sector
    (afterBoot sector
      (afterBoot sector (afterBoot sector f (complete p)) (complete q)) (complete r))
  by_cases htrust : Trusted (recordAt sector f)
  · have hgood : Good calDskDpkIsValidOrNot sector f := by
      refine ⟨htrust, ?_⟩
      by_contra hno
      exact h ⟨htrust, Bool.eq_false_of_not_eq_true hno⟩
    rw [hgood.stays, hgood.stays, hgood.stays]
    exact hgood
  by_cases herase : Erases calDskDpkIsValidOrNot (recordAt sector f)
  · have hgood := (blank_complete herase p).complete q
    rw [hgood.stays (complete r)]
    exact hgood
  · exact (flagged_complete htrust herase p).two_boots q r

/-! ### The rest of the sector -/

/-- A byte of the sector outside the key area. -/
def Outside (sector a : Nat) : Prop :=
  sectorAdr sector ≤ a ∧ a < sectorAdr sector + 4096 ∧
    ¬ (flashAdrEdchPara sector ≤ a ∧ a < flashAdrEdchPara sector + 0x100)

/-- A start that erases the sector keeps the bytes that are blank and those that are written back
before the power fails. -/
def SectorKept (sector : Nat) (f : Flash) (b : Boot calDskDpkIsValidOrNot) : Prop :=
  Erases calDskDpkIsValidOrNot (recordAt sector f) → b.cut ≠ some 0 →
    ∀ i < 4096, Outside sector (sectorAdr sector + i) →
      min (b.cut.getD 0x201 - 1) sectorParSizeMax ≤ i → f (sectorAdr sector + i) = blank

theorem restored_outside {n i : Nat} (hi : i < 4096)
    (hout : Outside sector (sectorAdr sector + i)) :
    restored sector f (n + 1) (sectorAdr sector + i) =
      if i < min n sectorParSizeMax then f (sectorAdr sector + i) else blank := by
  have hmax : sectorParSizeMax = 0x200 := rfl
  have hlen : ((savedSector sector f).take n).length = min n sectorParSizeMax := by
    rw [List.length_take, length_savedSector, hmax]
  rw [restored_apply hi]
  split_ifs with hlt
  · have hkey : i < 0x100 := by
      by_contra hge
      exact hout.2.2 ⟨by rw [adr_eq]; omega, by rw [adr_eq]; omega⟩
    rw [List.getD_eq_getElem _ _ (by rw [hlen]; exact hlt), List.getElem_take]
    unfold savedSector
    rw [List.getElem_append_left (by rw [Flash.length_read]; exact hkey), Flash.getElem_read]
  · exact List.getD_eq_default _ _ (by rw [hlen]; omega)

/-- **One start keeps the rest of the sector** exactly when it does not lose a byte. -/
theorem sectorKept_iff (b : Boot calDskDpkIsValidOrNot) :
    (∀ a, Outside sector a → afterBoot sector f b a = f a) ↔ SectorKept sector f b := by
  have hmax : sectorParSizeMax = 0x200 := rfl
  by_cases herase : Erases calDskDpkIsValidOrNot (recordAt sector f)
  · have hafter : afterBoot sector f b = restored sector f (b.cut.getD 0x201) := by
      rw [afterBoot_eq, if_neg herase.1, if_neg herase.2.1, if_neg herase.2.2]
    rw [hafter]
    by_cases hzero : b.cut = some 0
    · rw [hzero]
      exact iff_of_true (fun _ _ => rfl) fun _ hne => absurd hzero hne
    · obtain ⟨n, hn⟩ : ∃ n, b.cut.getD 0x201 = n + 1 := by
        refine Nat.exists_eq_succ_of_ne_zero fun h0 => hzero ?_
        cases hcut : b.cut with
        | none =>
          rw [hcut] at h0
          exact absurd h0 (by decide)
        | some m =>
          rw [hcut] at h0
          exact congrArg some h0
      rw [hn]
      constructor
      · intro hsame _ _ i hi hout hge
        have hold := hsame _ hout
        rw [restored_outside hi hout, if_neg (by omega)] at hold
        exact hold.symm
      · intro hkept a hout
        obtain ⟨i, rfl⟩ : ∃ i, a = sectorAdr sector + i := ⟨_, (Nat.add_sub_cancel' hout.1).symm⟩
        have hi : i < 4096 := by
          have hlt := hout.2.1
          omega
        rw [restored_outside hi hout]
        split_ifs with hlt
        · rfl
        · exact (hkept herase hzero i hi hout (by omega)).symm
  · refine iff_of_true (fun a hout => ?_) fun he => absurd he herase
    have hwrite : ∀ off (l : List Byte), off + l.length ≤ 0x100 →
        f.write (flashAdrEdchPara sector + off) l a = f a := by
      intro off l hl
      refine Flash.write_outside f ?_
      by_contra hin
      exact hout.2.2 ⟨by omega, by omega⟩
    have hnew := length_newRecord b.pair
    rw [afterBoot_eq]
    split_ifs with htrust hcreate hcomplete
    · rfl
    · exact hwrite 0 _ (by rw [List.length_take]; omega)
    · refine hwrite 96 _ ?_
      rw [List.length_take, flagAndCrc, List.length_append, length_toLE, length_toLE]
      omega
    · exact absurd ⟨htrust, hcreate, hcomplete⟩ herase

/-! ### Runs -/

/-- Starts with any cuts, and three more that come to their end: the record is a good one, and
the rest of the sector was the same all the time. -/
structure Recovers (sector : Nat) (f : Flash) (bs : List (Boot calDskDpkIsValidOrNot))
    (p q r : KeyPair calDskDpkIsValidOrNot) : Prop where
  good : Good calDskDpkIsValidOrNot sector
    (afterBoots sector f (bs ++ [complete p, complete q, complete r]))
  outside : ∀ earlier later, bs ++ [complete p, complete q, complete r] = earlier ++ later →
    ∀ a, Outside sector a → afterBoots sector f earlier a = f a

theorem afterBoots_append (f : Flash) (bs cs : List (Boot calDskDpkIsValidOrNot)) :
    afterBoots sector f (bs ++ cs) = afterBoots sector (afterBoots sector f bs) cs :=
  List.foldl_append

theorem not_mismatched_afterBoots (bs : List (Boot calDskDpkIsValidOrNot))
    (h : ¬ Mismatched calDskDpkIsValidOrNot sector f) :
    ¬ Mismatched calDskDpkIsValidOrNot sector (afterBoots sector f bs) := by
  induction bs generalizing f with
  | nil => exact h
  | cons b bs ih => exact ih (not_mismatched_afterBoot b h)

theorem mismatched_afterBoots (bs : List (Boot calDskDpkIsValidOrNot))
    (h : Mismatched calDskDpkIsValidOrNot sector f) : afterBoots sector f bs = f := by
  induction bs with
  | nil => rfl
  | cons b bs ih =>
    have hsame : afterBoot sector f b = f := by rw [afterBoot_eq, if_pos h.1]
    exact (congrArg (afterBoots sector · bs) hsame).trans ih

/-- The rest of the sector over a run. -/
theorem outside_afterBoots_iff (bs : List (Boot calDskDpkIsValidOrNot)) :
    (∀ earlier later, bs = earlier ++ later →
      ∀ a, Outside sector a → afterBoots sector f earlier a = f a) ↔
    ∀ earlier b later, bs = earlier ++ b :: later →
      SectorKept sector (afterBoots sector f earlier) b := by
  constructor
  · intro hsame earlier b later hbs
    refine (sectorKept_iff b).mp fun a hout => ?_
    have hnext := hsame (earlier ++ [b]) later (by simpa using hbs) a hout
    rw [afterBoots_append] at hnext
    exact hnext.trans (hsame earlier (b :: later) hbs a hout).symm
  · intro hkept earlier
    induction earlier using List.reverseRecOn with
    | nil => exact fun _ _ _ _ => rfl
    | append_singleton earlier b ih =>
      intro later hbs a hout
      have hbs' : bs = earlier ++ b :: later := by simpa using hbs
      rw [afterBoots_append]
      exact ((sectorKept_iff b).mpr (hkept earlier b later hbs') a hout).trans
        (ih (b :: later) hbs' a hout)

/-- For every flash and every run: the pair recovers exactly when the first record is not a
mismatched one, and no start loses a byte of the sector. -/
theorem ecdhKey_recovers_iff (sector : Nat) (f : Flash) (bs : List (Boot calDskDpkIsValidOrNot))
    (p q r : KeyPair calDskDpkIsValidOrNot) :
    Recovers sector f bs p q r ↔
      ¬ Mismatched calDskDpkIsValidOrNot sector f ∧
      ∀ earlier b later, bs ++ [complete p, complete q, complete r] = earlier ++ b :: later →
        SectorKept sector (afterBoots sector f earlier) b := by
  constructor
  · rintro ⟨hgood, hout⟩
    refine ⟨fun hmis => ?_, (outside_afterBoots_iff _).mp hout⟩
    rw [mismatched_afterBoots _ hmis] at hgood
    exact absurd (hgood.2.symm.trans hmis.2) (by decide)
  · rintro ⟨hmis, hkept⟩
    refine ⟨?_, (outside_afterBoots_iff _).mpr hkept⟩
    rw [afterBoots_append]
    exact three_boots (not_mismatched_afterBoots bs hmis) p q r

/-- A stand-in for the curve: the public key is the private one twice. -/
def twice (dsk dpk : List Byte) : Bool := decide (dpk = dsk ++ dsk)

theorem twice_replicate : twice (List.replicate 32 1) (List.replicate 64 1) = true := by
  decide +kernel

def somePair : KeyPair twice where
  dsk := List.replicate 32 1
  dpk := List.replicate 64 1
  length_dsk := rfl
  length_dpk := rfl
  matching := twice_replicate

/-- A MAC address, and a flag without a check sum. -/
def macAndFlag : Flash := fun a =>
  if a < 6 then 0x11 else if a = 0x160 then 0xa5 else if 0x160 < a ∧ a < 0x164 then 0 else 0xff

/-- A power cut right behind the erase takes the MAC address along. -/
theorem ecdhKey_recovers_refuted :
    ¬ ∀ (cal : List Byte → List Byte → Bool) (sector : Nat) (f : Flash) (bs : List (Boot cal))
      (p q r : KeyPair cal), Recovers sector f bs p q r := by
  intro hall
  have hout := (hall twice 0 macAndFlag [⟨somePair, some 1⟩] somePair somePair somePair).outside
    [⟨somePair, some 1⟩] _ rfl 0 ⟨by decide, by decide, by decide⟩
  exact absurd hout (by decide +kernel)

end Ecdh

end PirMesh
