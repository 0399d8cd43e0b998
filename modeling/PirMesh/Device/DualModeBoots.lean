import PirMesh.Device.DualMode

/-! # Device — Runs of starts with two firmwares (`dual_mode_en_init`)

Sector 0 holds the image as long as every start is a good one: a start that restores is cut in
front of its erase, or has the right check sum and is not cut before the start flag.  After the
first start that is not, byte 8 is blank for ever (`sectorIs_afterBoots_iff`). -/

namespace PirMesh

open Nor Prog

namespace DualMode

variable {image f g : Flash} {otaProgramOffset : Nat}

/-! ### What a start looks at -/

def BothFirmwares (f : Flash) : Prop :=
  ofLE (f.read (dualModeFwAddrSigmesh + 8) 4) ||| 0x4b = startUpFlag ∧
    ofLE (f.read (dualModeFwAddrZigbee + 8) 4) = startUpFlag

def meshType (f : Flash) : Nat := ofLE (f.read flashAdrMeshTypeFlag 4)

def Enabled (f : Flash) : Prop :=
  f cfgAdrDualModeEn = 0xff ∨ f cfgAdrDualModeEn = dualModeSaveEnable

/-- The part behind the enable flag restores. -/
structure SelectRestores (otaProgramOffset : Nat) (f : Flash) : Prop where
  firmwares : BothFirmwares f
  recover : meshType f = typeDualModeRecover
  copied : caliFlag f = dualModeCaliValFlag
  offset : otaProgramOffset = 0

/-- The start restores. -/
def Restores (otaProgramOffset : Nat) (f : Flash) : Prop :=
  Enabled f ∧ SelectRestores otaProgramOffset f

/-- The gate: a blank byte is no cleared start flag. -/
theorem not_bothFirmwares (h : f 8 = blank) : ¬ BothFirmwares f := by
  intro hboth
  have hlow := congrArg (· % 2 ^ 8) hboth.1
  have hword : ofLE (f.read (dualModeFwAddrSigmesh + 8) 4) % 2 ^ 8 = 255 := by
    show ((f 8).toNat + 256 * _) % 256 = 255
    rw [h, Nat.add_mul_mod_self_left]
    rfl
  rw [Nat.or_mod_two_pow, hword] at hlow
  exact absurd hlow (by decide)

theorem SelectRestores.congr (hsame : ∀ a, a ≠ cfgAdrDualModeEn → g a = f a)
    (h : SelectRestores otaProgramOffset g) : SelectRestores otaProgramOffset f := by
  have hread : ∀ {adr}, adr + 4 ≤ cfgAdrDualModeEn ∨ cfgAdrDualModeEn < adr →
      f.read adr 4 = g.read adr 4 :=
    fun hadr => Flash.read_congr fun i hi => (hsame _ (by omega)).symm
  refine ⟨⟨?_, ?_⟩, ?_, ?_, h.offset⟩
  · rw [hread (.inl (by decide))]
    exact h.firmwares.1
  · rw [hread (.inl (by decide))]
    exact h.firmwares.2
  · unfold meshType
    rw [hread (.inl (by decide))]
    exact h.recover
  · unfold caliFlag
    rw [hread (.inr (by decide))]
    exact h.copied

/-! ### Behind the enable flag -/

/-- The flash with the same sector 0, and a copy as the flag says. -/
structure Spared (image f g : Flash) : Prop where
  sector : ∀ a < 4096, g a = f a
  backed : Backed image g

theorem cutAfter_select (h : SelectRestores otaProgramOffset f) (n : Nat) :
    (dualModeSelect otaProgramOffset).cutAfter n f =
      (eraseAt 0 4096 >>= fun _ => restoreWrite).cutAfter n f := by
  have hrestore : dualModeRestoreTlk4K otaProgramOffset = readAt cfgAdrDualCaliValFlag 4 >>=
      fun cali => if ofLE cali = dualModeCaliValFlag ∧ otaProgramOffset = 0 then
        eraseAt 0 4096 >>= fun _ => restoreWrite else Pure.pure () := rfl
  have hgate := h.firmwares
  unfold BothFirmwares at hgate
  have hrecover := h.recover
  unfold meshType at hrecover
  have hcopied := h.copied
  unfold caliFlag at hcopied
  have hstandby : ofLE (f.read flashAdrMeshTypeFlag 4) ≠ typeDualModeStandby := by
    rw [hrecover]
    decide
  rw [dualModeSelect, cutAfter_readAt_bind, cutAfter_readAt_bind, if_pos hgate,
    cutAfter_readAt_bind, if_neg hstandby, if_pos hrecover, cutAfter_map _ (fun _ => none),
    hrestore, cutAfter_readAt_bind, if_pos ⟨hcopied, h.offset⟩]

/-- Where nothing is restored, sector 0 stays. -/
theorem always_select (hno : ¬ SelectRestores otaProgramOffset f)
    (hs : BothFirmwares f → SectorIs image f) (hb : Backed image f) :
    Always (Spared image f) (dualModeSelect otaProgramOffset) f := by
  have hstay : Spared image f f := ⟨fun _ _ => rfl, hb⟩
  rw [dualModeSelect]
  refine (always_readAt_bind ..).mpr ((always_readAt_bind ..).mpr ?_)
  by_cases hboth : BothFirmwares f
  · have hgate := hboth
    unfold BothFirmwares at hgate
    rw [if_pos hgate]
    refine (always_readAt_bind ..).mpr ?_
    split_ifs with hstandby hrecover
    · have hbackup : Always (Spared image f) dualModeBackupTlk4K f := fun n =>
        ⟨fun a ha => changesIn_backup.cutAfter f (Nat.not_le_of_lt ha) n,
          always_backup (hs hboth) hb n⟩
      refine (always_bind ..).mpr ⟨hbackup, ?_⟩
      cases (dualModeBackupTlk4K.run f).1 with
      | none => exact (always_pure ..).mpr hbackup.exec
      | some ok => exact (always_pure ..).mpr hbackup.exec
    · have hcond : ¬ (ofLE (f.read cfgAdrDualCaliValFlag 4) = dualModeCaliValFlag ∧
          otaProgramOffset = 0) := fun hc => hno ⟨hboth, hrecover, hc.1, hc.2⟩
      have hnone : Always (Spared image f) (dualModeRestoreTlk4K otaProgramOffset) f := by
        rw [dualModeRestoreTlk4K]
        refine (always_readAt_bind ..).mpr ?_
        rw [if_neg hcond]
        exact (always_pure ..).mpr hstay
      exact (always_bind ..).mpr ⟨hnone, (always_pure ..).mpr hnone.exec⟩
    · exact (always_pure ..).mpr hstay
  · unfold BothFirmwares at hboth
    rw [if_neg hboth]
    exact (always_pure ..).mpr hstay

/-- A restore by the number of its operations: the erase, 64 blocks, the start flag. -/
theorem cutAfter_select_restores (hflag : image 8 = 0x4b) (hs : SectorIs image f)
    (hb : Backed image f) (h : SelectRestores otaProgramOffset f) (n : Nat) :
    if n = 0 ∨ storedSum f = crcSum image 64 0 ∧ 66 ≤ n then
      SectorIs image ((dualModeSelect otaProgramOffset).cutAfter n f)
    else (dualModeSelect otaProgramOffset).cutAfter n f 8 = blank := by
  rw [cutAfter_select h]
  cases n with
  | zero =>
    rw [if_pos (.inl rfl), cutAfter_zero]
    exact hs
  | succ n =>
    have hbase : flashAdrDualMode4K = 0x78000 := rfl
    have hcfg : cfgAdrDualCaliVal = 0x76088 := rfl
    have hcopy : BackupIs image (f.erase 0 4096) := by
      intro i hi
      rw [Flash.erase_outside f (.inr (by omega))]
      exact hb h.copied i hi
    have hstored : storedSum (f.erase 0 4096) = storedSum f :=
      congrArg ofLE (Flash.read_congr fun i hi => Flash.erase_outside f (.inr (by omega)))
    have hcut := cutAfter_restoreWrite hflag hcopy
      (fun a ha => Flash.erase_inside f ⟨Nat.zero_le a, by omega⟩) n
    rw [hstored] at hcut
    have hcond : (n + 1 = 0 ∨ storedSum f = crcSum image 64 0 ∧ 66 ≤ n + 1) ↔
        storedSum f = crcSum image 64 0 ∧ 65 ≤ n := by
      constructor
      · rintro (h0 | ⟨hsum, hn⟩)
        · exact absurd h0 (Nat.succ_ne_zero n)
        · exact ⟨hsum, Nat.le_of_succ_le_succ hn⟩
      · rintro ⟨hsum, hn⟩
        exact .inr ⟨hsum, Nat.succ_le_succ hn⟩
    have hcutErase : (eraseAt 0 4096 >>= fun _ => restoreWrite).cutAfter (n + 1) f =
        restoreWrite.cutAfter n (f.erase 0 4096) := rfl
    rw [hcutErase]
    simp only [hcond]
    exact hcut

/-- A restore does not touch the copy. -/
theorem backed_select (hb : Backed image f) (h : SelectRestores otaProgramOffset f) (n : Nat) :
    Backed image ((dualModeSelect otaProgramOffset).cutAfter n f) := by
  have hchanges : (eraseAt 0 4096 >>= fun _ => restoreWrite).ChangesIn (· < 4096) :=
    (changesIn_eraseAt fun i hi => by omega).bind fun _ => changesIn_restoreWrite
  rw [cutAfter_select h]
  refine hb.congr fun a ha => hchanges.cutAfter f (fun hlt => ?_) n
  have hbase : flashAdrDualMode4K = 0x78000 := rfl
  have hcfg : cfgAdrDualCaliValFlag = 0x76084 := rfl
  rcases ha with hin | hin
  · have hge := hin.1
    omega
  · have hge := hin.1
    omega

/-! ### A start -/

/-- The operations in front of the part behind the enable flag. -/
def enableOps (f : Flash) : Nat := if f cfgAdrDualModeEn = 0xff then 1 else 0

def enabled (f : Flash) : Flash :=
  if f cfgAdrDualModeEn = 0xff then f.write cfgAdrDualModeEn [dualModeSaveEnable] else f

theorem write_en_same (v : Byte) {a : Nat} (ha : a ≠ cfgAdrDualModeEn) :
    f.write cfgAdrDualModeEn [v] a = f a :=
  Flash.write_outside f (by rw [List.length_singleton]; omega)

theorem enabled_same {a : Nat} (ha : a ≠ cfgAdrDualModeEn) : enabled f a = f a := by
  unfold enabled
  split_ifs
  · exact write_en_same _ ha
  · rfl

theorem InCopy.ne_en {a : Nat} (h : InCopy a) : a ≠ cfgAdrDualModeEn := by
  have hbase : flashAdrDualMode4K = 0x78000 := rfl
  have hcfg : cfgAdrDualCaliValFlag = 0x76084 := rfl
  have hen : cfgAdrDualModeEn = 0x76080 := rfl
  rcases h with hin | hin
  · have hge := hin.1
    omega
  · have hge := hin.1
    omega

theorem ne_en_of_lt {a : Nat} (h : a < 4096) : a ≠ cfgAdrDualModeEn := by
  have hen : cfgAdrDualModeEn = 0x76080 := rfl
  omega

theorem selectRestores_enabled :
    SelectRestores otaProgramOffset (enabled f) ↔ SelectRestores otaProgramOffset f :=
  ⟨.congr fun _ ha => enabled_same ha, .congr fun _ ha => (enabled_same ha).symm⟩

theorem cutAfter_enInit (h : Enabled f) (n : Nat) :
    (dualModeEnInit otaProgramOffset).cutAfter n f =
      if n < enableOps f then f
      else (dualModeSelect otaProgramOffset).cutAfter (n - enableOps f) (enabled f) := by
  rw [dualModeEnInit, cutAfter_readAt_bind, Flash.read_one]
  unfold enableOps enabled
  by_cases hff : f cfgAdrDualModeEn = 0xff
  · rw [if_pos (congrArg (fun b => [b]) hff), if_pos hff, if_pos hff]
    cases n with
    | zero => rw [cutAfter_zero, if_pos Nat.zero_lt_one]
    | succ n =>
      rw [if_neg (by omega)]
      rfl
  · have hne : [f cfgAdrDualModeEn] ≠ [0xff] := fun heq => hff (List.singleton_inj.mp heq)
    have hon : [f cfgAdrDualModeEn] = [dualModeSaveEnable] :=
      congrArg (fun b => [b]) (h.resolve_left hff)
    rw [if_neg hne, if_pos hon, if_neg hff, if_neg hff, if_neg (Nat.not_lt_zero n)]
    rfl

/-- The other starts change the enable flag at most. -/
theorem cutAfter_enInit_disabled (h : ¬ Enabled f) (n : Nat) {a : Nat}
    (ha : a ≠ cfgAdrDualModeEn) : (dualModeEnInit otaProgramOffset).cutAfter n f a = f a := by
  have hne : [f cfgAdrDualModeEn] ≠ [0xff] := fun heq => h (.inl (List.singleton_inj.mp heq))
  have hoff : [f cfgAdrDualModeEn] ≠ [dualModeSaveEnable] :=
    fun heq => h (.inr (List.singleton_inj.mp heq))
  rw [dualModeEnInit, cutAfter_readAt_bind, Flash.read_one, if_neg hne, if_neg hoff]
  split_ifs
  · rfl
  · cases n with
    | zero => rw [cutAfter_zero]
    | succ n => exact write_en_same 0 ha

/-- A cut behind `n` operations does no harm: the start does not restore, or it has not erased
yet, or it is through. -/
def Harmless (otaProgramOffset : Nat) (image f : Flash) (n : Nat) : Prop :=
  Restores otaProgramOffset f →
    n ≤ enableOps f ∨ storedSum f = crcSum image 64 0 ∧ enableOps f + 66 ≤ n

/-- **One start**, cut behind any number of operations. -/
theorem cutAfter_enInit_of_sectorIs (hflag : image 8 = 0x4b) (hs : SectorIs image f)
    (hb : Backed image f) (n : Nat) :
    Backed image ((dualModeEnInit otaProgramOffset).cutAfter n f) ∧
      (Harmless otaProgramOffset image f n →
        SectorIs image ((dualModeEnInit otaProgramOffset).cutAfter n f)) ∧
      (¬ Harmless otaProgramOffset image f n →
        (dualModeEnInit otaProgramOffset).cutAfter n f 8 = blank) := by
  by_cases hen : Enabled f
  · rw [cutAfter_enInit hen]
    by_cases hlt : n < enableOps f
    · rw [if_pos hlt]
      exact ⟨hb, fun _ => hs, fun hno => absurd (fun _ => .inl (Nat.le_of_lt hlt)) hno⟩
    rw [if_neg hlt]
    have hs' : SectorIs image (enabled f) := fun a ha =>
      (enabled_same (ne_en_of_lt ha)).trans (hs a ha)
    have hb' : Backed image (enabled f) := hb.congr fun a ha => enabled_same ha.ne_en
    have hstored : storedSum (enabled f) = storedSum f := by
      refine congrArg ofLE (Flash.read_congr fun i hi => enabled_same ?_)
      have hcfg : cfgAdrDualCaliVal = 0x76088 := rfl
      have hadr : cfgAdrDualModeEn = 0x76080 := rfl
      omega
    by_cases hrest : SelectRestores otaProgramOffset (enabled f)
    · have hselect := cutAfter_select_restores hflag hs' hb' hrest (n - enableOps f)
      rw [hstored] at hselect
      have hcond : Harmless otaProgramOffset image f n ↔
          n - enableOps f = 0 ∨ storedSum f = crcSum image 64 0 ∧ 66 ≤ n - enableOps f := by
        have hdoes : Restores otaProgramOffset f := ⟨hen, selectRestores_enabled.mp hrest⟩
        refine (imp_iff_right hdoes).trans (or_congr (by omega) (and_congr_right fun _ => ?_))
        omega
      refine ⟨backed_select hb' hrest _, fun hok => ?_, fun hno => ?_⟩
      · rwa [if_pos (hcond.mp hok)] at hselect
      · rwa [if_neg (mt hcond.mpr hno)] at hselect
    · have hspared := always_select hrest (fun _ => hs') hb' (n - enableOps f)
      have hok : Harmless otaProgramOffset image f n :=
        fun hdoes => absurd (selectRestores_enabled.mpr hdoes.2) hrest
      exact ⟨hspared.backed, fun _ a ha => (hspared.sector a ha).trans (hs' a ha),
        fun hno => absurd hok hno⟩
  · have hok : Harmless otaProgramOffset image f n := fun hdoes => absurd hdoes.1 hen
    refine ⟨hb.congr fun a ha => cutAfter_enInit_disabled hen n ha.ne_en, fun _ a ha => ?_,
      fun hno => absurd hok hno⟩
    exact (cutAfter_enInit_disabled hen n (ne_en_of_lt ha)).trans (hs a ha)

/-- Once byte 8 is blank it stays so. -/
theorem cutAfter_enInit_of_blank (h : f 8 = blank) (hb : Backed image f) (n : Nat) :
    Backed image ((dualModeEnInit otaProgramOffset).cutAfter n f) ∧
      (dualModeEnInit otaProgramOffset).cutAfter n f 8 = blank := by
  have h8 : (8 : Nat) ≠ cfgAdrDualModeEn := ne_en_of_lt (by decide)
  by_cases hen : Enabled f
  · rw [cutAfter_enInit hen]
    split_ifs
    · exact ⟨hb, h⟩
    · have hblank : enabled f 8 = blank := (enabled_same h8).trans h
      have hno := not_bothFirmwares hblank
      have hspared := @always_select image (enabled f) otaProgramOffset
        (fun hr => hno hr.firmwares) (fun hboth => absurd hboth hno)
        (hb.congr fun a ha => enabled_same ha.ne_en) (n - enableOps f)
      exact ⟨hspared.backed, (hspared.sector 8 (by decide)).trans hblank⟩
  · exact ⟨hb.congr fun a ha => cutAfter_enInit_disabled hen n ha.ne_en,
      (cutAfter_enInit_disabled hen n h8).trans h⟩

/-- A mesh type is written to its own sector. -/
theorem typed_same (b : Boot) {a : Nat} (ha : a < 4096 ∨ InCopy a) : typed f b a = f a := by
  have hadr : flashAdrMeshTypeFlag = 0x73000 := rfl
  have hbase : flashAdrDualMode4K = 0x78000 := rfl
  have hcfg : cfgAdrDualCaliValFlag = 0x76084 := rfl
  have hout : a < flashAdrMeshTypeFlag ∨ flashAdrMeshTypeFlag + 4096 ≤ a := by
    rcases ha with hlow | hin | hin
    · exact .inl (by omega)
    · exact .inr (by omega)
    · exact .inr (by omega)
  unfold typed
  cases b.meshType with
  | none => rfl
  | some sdkType =>
    have hlen : (toLE 4 sdkType).length = 4 := length_toLE 4 sdkType
    refine (Flash.write_outside _ (by omega)).trans ?_
    split_ifs
    · exact Flash.erase_outside f hout
    · rfl

/-! ### Runs -/

/-- The start does not restore, or is cut in front of the erase, or has the right check sum and is
not cut before the start flag. -/
def GoodBoot (otaProgramOffset : Nat) (image f : Flash) (b : Boot) : Prop :=
  Restores otaProgramOffset (typed f b) →
    (∃ n, b.cut = some n ∧ n ≤ enableOps (typed f b)) ∨
      storedSum (typed f b) = crcSum image 64 0 ∧
        ∀ n, b.cut = some n → enableOps (typed f b) + 66 ≤ n

/-- The moment a start ends. -/
theorem afterBoot_eq_cutAfter (f : Flash) (b : Boot) :
    ∃ n, afterBoot otaProgramOffset f b =
        (dualModeEnInit otaProgramOffset).cutAfter n (typed f b) ∧
      (Harmless otaProgramOffset image (typed f b) n ↔ GoodBoot otaProgramOffset image f b) := by
  unfold afterBoot Harmless GoodBoot
  cases b.cut with
  | some n =>
    refine ⟨n, rfl, imp_congr_right fun _ => or_congr ?_ (and_congr_right fun _ => ?_)⟩
    · exact ⟨fun h => ⟨n, rfl, h⟩, fun ⟨m, hm, h⟩ => Option.some.inj hm ▸ h⟩
    · exact ⟨fun h m hm => Option.some.inj hm ▸ h, fun h => h n rfl⟩
  | none =>
    have hle := Nat.le_max_left ((dualModeEnInit otaProgramOffset).ops (typed f b))
      (enableOps (typed f b) + 66)
    have hge := Nat.le_max_right ((dualModeEnInit otaProgramOffset).ops (typed f b))
      (enableOps (typed f b) + 66)
    refine ⟨_, (cutAfter_of_ops_le hle).symm, imp_congr_right fun _ => ?_⟩
    constructor
    · rintro (hlow | hright)
      · omega
      · exact .inr ⟨hright.1, fun n hn => absurd hn (by simp)⟩
    · rintro (hcut | hright)
      · obtain ⟨n, hn, hlow⟩ := hcut
        exact absurd hn (by simp)
      · exact .inr ⟨hright.1, hge⟩

/-- Every start of the run is a good one. -/
def GoodRun (otaProgramOffset : Nat) (image : Flash) : Flash → List Boot → Prop
  | _, [] => True
  | f, b :: bs => GoodBoot otaProgramOffset image f b ∧
      GoodRun otaProgramOffset image (afterBoot otaProgramOffset f b) bs

theorem backed_typed (hb : Backed image f) (b : Boot) : Backed image (typed f b) :=
  hb.congr fun _ ha => typed_same b (.inr ha)

theorem afterBoots_of_blank (h : f 8 = blank) (hb : Backed image f) (bs : List Boot) :
    Backed image (afterBoots otaProgramOffset f bs) ∧
      afterBoots otaProgramOffset f bs 8 = blank := by
  induction bs generalizing f with
  | nil => exact ⟨hb, h⟩
  | cons b bs ih =>
    obtain ⟨n, hn, -⟩ := @afterBoot_eq_cutAfter image otaProgramOffset f b
    have h8 : typed f b 8 = blank := (typed_same b (.inl (by decide))).trans h
    have hnext := @cutAfter_enInit_of_blank image (typed f b) otaProgramOffset h8
      (backed_typed hb b) n
    rw [← hn] at hnext
    exact ih hnext.2 hnext.1

/-- **Every run.**  The sector holds the image exactly as long as the starts are good ones; behind
any other run byte 8 is blank. -/
theorem afterBoots_of_sectorIs (hflag : image 8 = 0x4b) (hs : SectorIs image f)
    (hb : Backed image f) (bs : List Boot) :
    Backed image (afterBoots otaProgramOffset f bs) ∧
      (GoodRun otaProgramOffset image f bs →
        SectorIs image (afterBoots otaProgramOffset f bs)) ∧
      (¬ GoodRun otaProgramOffset image f bs → afterBoots otaProgramOffset f bs 8 = blank) := by
  induction bs generalizing f with
  | nil => exact ⟨hb, fun _ => hs, fun hno => absurd trivial hno⟩
  | cons b bs ih =>
    obtain ⟨n, hn, hgood⟩ := @afterBoot_eq_cutAfter image otaProgramOffset f b
    have hs' : SectorIs image (typed f b) := fun a ha => (typed_same b (.inl ha)).trans (hs a ha)
    obtain ⟨hbacked, hsector, hblank⟩ :=
      @cutAfter_enInit_of_sectorIs image (typed f b) otaProgramOffset hflag hs'
        (backed_typed hb b) n
    rw [← hn] at hbacked hsector hblank
    rw [hgood] at hsector hblank
    by_cases hok : GoodBoot otaProgramOffset image f b
    · obtain ⟨hbacked', hsector', hblank'⟩ := ih (hsector hok) hbacked
      exact ⟨hbacked', fun hrun => hsector' hrun.2,
        fun hno => hblank' fun hrun => hno ⟨hok, hrun⟩⟩
    · obtain ⟨hbacked', hblank'⟩ :=
        @afterBoots_of_blank image _ otaProgramOffset (hblank hok) hbacked bs
      exact ⟨hbacked', fun hrun => absurd hrun.1 hok, fun _ => hblank'⟩

theorem sectorIs_afterBoots_iff (hflag : image 8 = 0x4b) (hs : SectorIs image f)
    (hb : Backed image f) (bs : List Boot) :
    SectorIs image (afterBoots otaProgramOffset f bs) ↔ GoodRun otaProgramOffset image f bs := by
  obtain ⟨-, hsector, hblank⟩ := @afterBoots_of_sectorIs image f otaProgramOffset hflag hs hb bs
  refine ⟨fun hsec => ?_, hsector⟩
  by_contra hno
  have h8 := (hsec 8 (by decide)).symm.trans (hblank hno)
  rw [hflag] at h8
  exact absurd h8 (by decide)

/-- The start runs to its end with mesh type RECOVER. -/
def Recovers (f : Flash) (b : Boot) : Prop :=
  b.cut = none ∧ meshType (typed f b) = typeDualModeRecover

/-- What the copy is for: a start with mesh type RECOVER that runs to its end leaves the image in
sector 0, and at no moment of any start there is a start flag without the image. -/
structure PowerFailSafe (otaProgramOffset : Nat) (f : Flash) (bs : List Boot) : Prop where
  restored : ∀ earlier b later, bs = earlier ++ b :: later →
    Recovers (afterBoots otaProgramOffset f earlier) b →
      SectorIs f (afterBoots otaProgramOffset f (earlier ++ [b]))
  flagged : ∀ earlier b later, bs = earlier ++ b :: later →
    Always (StartFlagRight f) (dualModeEnInit otaProgramOffset)
      (typed (afterBoots otaProgramOffset f earlier) b)

/-- For every image with a start flag, and every run of starts with any cuts: the image is there
behind each start that recovers exactly when the starts up to it are good ones. -/
theorem dualMode_powerFailSafe_iff (otaProgramOffset : Nat) (f : Flash) (hflag : f 8 = 0x4b)
    (hcopy : Backed f f) (bs : List Boot) :
    PowerFailSafe otaProgramOffset f bs ↔
      ∀ earlier b later, bs = earlier ++ b :: later →
        Recovers (afterBoots otaProgramOffset f earlier) b →
          GoodRun otaProgramOffset f f (earlier ++ [b]) := by
  have hs : SectorIs f f := fun _ _ => rfl
  constructor
  · intro h earlier b later hbs hrec
    exact (sectorIs_afterBoots_iff hflag hs hcopy _).mp (h.restored earlier b later hbs hrec)
  · intro h
    refine ⟨fun earlier b later hbs hrec => ?_, fun earlier b later hbs n => ?_⟩
    · exact (sectorIs_afterBoots_iff hflag hs hcopy _).mpr (h earlier b later hbs hrec)
    · obtain ⟨hbacked, hsector, hblank⟩ :=
        @afterBoots_of_sectorIs f f otaProgramOffset hflag hs hcopy earlier
      generalize afterBoots otaProgramOffset f earlier = g at hbacked hsector hblank
      by_cases hrun : GoodRun otaProgramOffset f f earlier
      · have hs' : SectorIs f (typed g b) := fun a ha =>
          (typed_same b (.inl ha)).trans (hsector hrun a ha)
        obtain ⟨-, hok, hno⟩ :=
          @cutAfter_enInit_of_sectorIs f (typed g b) otaProgramOffset hflag hs'
            (backed_typed hbacked b) n
        by_cases hn : Harmless otaProgramOffset f (typed g b) n
        · exact fun _ => hok hn
        · exact startFlagRight_of_blank (hno hn)
      · have h8 : typed g b 8 = blank := (typed_same b (.inl (by decide))).trans (hblank hrun)
        exact startFlagRight_of_blank (cutAfter_enInit_of_blank h8 (backed_typed hbacked b) n).2

def bootSector (a : Nat) : Byte :=
  if a = 8 then 0x4b else if a = 9 then 0x4e else if a = 10 then 0x4c else if a = 11 then 0x54
  else 0xff

/-- Both firmwares, mesh type RECOVER, and a copy of sector 0 with a sum of check sums. -/
def copied (crcTotal : Nat) : Flash := fun a =>
  if a < 0x1000 then bootSector a
  else if a < 0x73000 then bootSector (a - 0x40000)
  else if a < 0x76080 then (toLE 4 typeDualModeRecover).getD (a - 0x73000) 0xff
  else if a < 0x76084 then [dualModeSaveEnable].getD (a - 0x76080) 0xff
  else if a < 0x76088 then (toLE 4 dualModeCaliValFlag).getD (a - 0x76084) 0xff
  else if a < 0x78000 then (toLE 4 crcTotal).getD (a - 0x76088) 0xff
  else bootSector (a - 0x78000)

theorem backed_copied (crcTotal : Nat) : Backed (copied crcTotal) (copied crcTotal) := by
  intro _ i hi
  have hbase : flashAdrDualMode4K = 0x78000 := rfl
  unfold copied
  rw [if_neg (by omega), if_neg (by omega), if_neg (by omega), if_neg (by omega),
    if_neg (by omega), if_neg (by omega), if_pos hi, hbase, Nat.add_sub_cancel_left]

theorem storedSum_copied : storedSum (copied (crcSum bootSector 64 0)) =
    crcSum (copied (crcSum bootSector 64 0)) 64 0 := by
  have hread : ∀ v, storedSum (copied v) = ofLE (toLE 4 v) := fun _ => rfl
  have hle := crcSum_le bootSector 64 0
  have hsame : crcSum bootSector 64 0 = crcSum (copied (crcSum bootSector 64 0)) 64 0 :=
    crcSum_congr fun i hi => (if_pos (by omega)).symm
  rw [hread, ofLE_toLE, Nat.mod_eq_of_lt (by omega)]
  exact hsame

/-- A start that restores and runs to its end. -/
theorem dualMode_powerFailSafe_copied :
    PowerFailSafe 0 (copied (crcSum bootSector 64 0)) [⟨none, none⟩] := by
  refine (dualMode_powerFailSafe_iff 0 _ rfl (backed_copied _) _).mpr
    fun earlier b later hbs _ => ?_
  obtain ⟨rfl, hlast⟩ : earlier = [] ∧ b :: later = [⟨none, none⟩] := by
    cases earlier with
    | nil => exact ⟨rfl, hbs.symm⟩
    | cons c earlier => exact absurd (congrArg List.length hbs) (by simp)
  cases hlast
  exact ⟨fun _ => .inr ⟨storedSum_copied, fun n hn => absurd hn (by simp)⟩, trivial⟩

/-- A cut right behind the erase: the next start runs to its end and restores nothing. -/
theorem dualMode_powerFailSafe_refuted :
    ¬ ∀ (otaProgramOffset : Nat) (f : Flash) (bs : List Boot), f 8 = 0x4b → Backed f f →
      PowerFailSafe otaProgramOffset f bs := by
  intro hall
  have hsafe := hall 0 (copied (crcSum bootSector 64 0)) [⟨none, some 1⟩, ⟨none, none⟩] rfl
    (backed_copied _)
  have h8 := hsafe.restored [⟨none, some 1⟩] ⟨none, none⟩ [] rfl
    ⟨rfl, by decide +kernel⟩ 8 (by decide)
  exact absurd h8 (by decide +kernel)

end DualMode

end PirMesh
