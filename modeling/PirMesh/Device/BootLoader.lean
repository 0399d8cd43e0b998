import PirMesh.Library.Format
import PirMesh.Library.ProgFrame
import PirMesh.Ota.Write

/-! # Device — The boot loader (`boot_loader/main.c`)

A device with two firmwares starts in a boot loader.  It takes the place of the firmware from the
mesh type, looks whether a new image lies in the update area, copies it there a page at a time,
clears the start flag of the update area and erases it; then it starts the ram code of the
firmware.

Until the flag is cleared a start copies again from the update area, which the copy does not
touch; afterwards no start changes anything (`Pending`, `Settled`).  So the power may fail at any
point of any number of starts, and the next one starts what an undisturbed start would have
(`main_cuts`).

An image that says it is longer than the area is not copied, but erased, over its whole length,
and behind the update area lie the firmwares (`main_none_iff`). -/

namespace PirMesh

open Nor Prog

namespace BootLoader

/-! ### Addresses and values -/

def flashAdrUpdateNewFw : Nat := 0x40000

def dualModeFwAddrSigmesh : Nat := 0x80000

def dualModeFwAddrZigbee : Nat := 0xC0000

/-- `DUAL_MODE_ZB_FW_SIZE_MAX_K * 1024`, for either firmware. -/
def fwSizeMax : Nat := 256 * 1024

def fwRamcodeSizeMax : Nat := 0x4000

def flashAdrMeshTypeFlag : Nat := 0x24000

def typeTlkZigbee : Nat := 0x3C

def typeDualModeZigbeeReset : Nat := 0x53

/-! ### The program -/

def isValidFwBootloader (addrFw : Nat) : Prog Bool := do
  let startupFlag ← readAt (addrFw + 8) 4
  return decide (ofLE startupFlag = startUpFlag)

/-- The first page of a sector erases it. -/
def eraseFirst (addrLoad i : Nat) : Prog Unit :=
  if i &&& 0xfff = 0 then eraseAt (addrLoad + i) 4096 else return ()

/-- `n` more rounds of the copy, with `i` the offset of the next page. -/
def copyLoop (addrLoad : Nat) : (n i : Nat) → Prog Unit
  | 0, _ => return ()
  | n + 1, i => do
    eraseFirst addrLoad i
    let buff ← readAt (flashAdrUpdateNewFw + i) 256
    writeAt (addrLoad + i) buff
    copyLoop addrLoad n (i + 256)

/-- The sectors of the update area that an image of the size lies in; the sum is 32-bit, and so
are the addresses. -/
def updateSectors (fwSize : Nat) : List Nat :=
  (List.range ((fwSize + 4095) % 2 ^ 32 / 4096)).map fun i =>
    (flashAdrUpdateNewFw + i * 4096) % 2 ^ 32

def copyImage (addrLoad fwSize : Nat) : Prog Unit :=
  if fwSize ≤ fwSizeMax then copyLoop addrLoad ((fwSize + 255) / 256) 0 else return ()

/-- The start flag of the update area goes first. -/
def clearUpdate (fwSize : Nat) : Prog Unit := do
  writeAt (flashAdrUpdateNewFw + 8) [0]
  eraseList 4096 (updateSectors fwSize)

def installUpdate (addrLoad : Nat) : Prog Unit := do
  let buff ← readAt flashAdrUpdateNewFw 256
  let fwSize := ofLE ((buff.drop 0x18).take 4)
  copyImage addrLoad fwSize
  clearUpdate fwSize

/-- The part of `boot_load_with_ota_check` that is about the update area. -/
def otaCheck (addrLoad : Nat) : Prog Unit := do
  if ← isValidFwBootloader flashAdrUpdateNewFw then installUpdate addrLoad else return ()

/-- The ram code that is started, where there is a firmware. -/
def startFw (addrLoad : Nat) : Prog (Option (List Byte)) := do
  if ← isValidFwBootloader addrLoad then
    let ramcodeSize ← readAt (addrLoad + 0x0c) 2
    let ramcode ← readAt addrLoad (min (ofLE ramcodeSize * 16) fwRamcodeSizeMax)
    return some ramcode
  else return none

def bootLoadWithOtaCheck (addrLoad : Nat) : Prog (Option (List Byte)) := do
  otaCheck addrLoad
  startFw addrLoad

/-- `g_addr_load` -/
def gAddrLoad (meshType : List Byte) : Nat :=
  if ofLE meshType = typeTlkZigbee ∨ ofLE meshType = typeDualModeZigbeeReset then
    dualModeFwAddrZigbee
  else dualModeFwAddrSigmesh

def main : Prog (Option (List Byte)) := do
  let meshType ← readAt flashAdrMeshTypeFlag 4
  bootLoadWithOtaCheck (gAddrLoad meshType)

/-- The flash after starts that the power cuts short, each after a number of operations. -/
def afterStarts (f : Flash) (cuts : List Nat) : Flash := cuts.foldl (fun f n => main.cutAfter n f) f

/-! ### What a flash says -/

def addrLoad (f : Flash) : Nat := gAddrLoad (f.read flashAdrMeshTypeFlag 4)

def Valid (adr : Nat) (f : Flash) : Prop := ofLE (f.read (adr + 8) 4) = startUpFlag

/-- The size in the header of the update area. -/
def fwSize (f : Flash) : Nat := ofLE (f.read (flashAdrUpdateNewFw + 0x18) 4)

def InUpdate (a : Nat) : Prop := flashAdrUpdateNewFw ≤ a ∧ a < flashAdrUpdateNewFw + fwSizeMax

def pageEnd (n : Nat) : Nat := (n + 255) / 256 * 256

def sectorEnd (n : Nat) : Nat := (n + 4095) / 4096 * 4096

/-- The sectors that an image of the size takes. -/
def InLoad (adr size a : Nat) : Prop := adr ≤ a ∧ a < adr + sectorEnd size

/-- An image of `size` octets in whole pages, the rest of its last sector blank. -/
def loaded (adr size : Nat) (f : Flash) : Flash := fun a =>
  if adr ≤ a ∧ a < adr + sectorEnd size then
    if a < adr + pageEnd size then f (flashAdrUpdateNewFw + (a - adr)) else blank
  else f a

/-- The ram code of the firmware at an address. -/
def ramcode (adr : Nat) (f : Flash) : Option (List Byte) := ((startFw adr).run f).1

instance (adr : Nat) (f : Flash) : Decidable (Valid adr f) := inferInstanceAs (Decidable (_ = _))

variable {f g : Flash} {L n i a : Nat}

theorem addrLoad_cases (f : Flash) :
    addrLoad f = dualModeFwAddrSigmesh ∨ addrLoad f = dualModeFwAddrZigbee := by
  unfold addrLoad gAddrLoad
  split
  · exact .inr rfl
  · exact .inl rfl

theorem addrLoad_ge (f : Flash) : flashAdrUpdateNewFw + fwSizeMax ≤ addrLoad f := by
  rcases addrLoad_cases f with h | h
  all_goals
    rw [h]
    decide

theorem addrLoad_congr (h : ∀ i < 4, g (flashAdrMeshTypeFlag + i) = f (flashAdrMeshTypeFlag + i)) :
    addrLoad g = addrLoad f := congrArg gAddrLoad (Flash.read_congr h)

theorem valid_congr (h : ∀ i < 4, g (L + 8 + i) = f (L + 8 + i)) : Valid L g ↔ Valid L f := by
  unfold Valid
  rw [Flash.read_congr h]

/-- The first octet of the flag is neither 0 nor blank. -/
theorem Valid.head (h : Valid L f) : f (L + 8) = 0x4b := by
  have hle := toLE_ofLE (f.read (L + 8) 4)
  rw [Flash.length_read, h] at hle
  have hhead := congrArg (fun l : List Byte => l.head?) hle
  exact (Option.some.inj hhead).symm

/-! ### Reading -/

theorem run_isValid : (isValidFwBootloader L).run f = (decide (Valid L f), f) := rfl

/-- A check, and what follows it. -/
theorem reads_isValid : Reads f (isValidFwBootloader L) (decide (Valid L f)) := .read (.pure _)

theorem readOnly_startFw : (startFw L).ReadOnly := by
  refine (readOnly_readAt _ _).bind fun _ => ReadOnly.ite ?_ (readOnly_pure _)
  exact (readOnly_readAt _ _).bind fun _ => (readOnly_readAt _ _).bind fun _ => readOnly_pure _

/-! ### The copy -/

theorem run_eraseFirst : (eraseFirst L i).run f =
    ((), if i % 4096 = 0 then f.erase (L + i) 4096 else f) := by
  have hmask : i &&& 0xfff = i % 4096 := Nat.and_two_pow_sub_one_eq_mod i 12
  unfold eraseFirst
  rw [hmask]
  split_ifs
  · rfl
  · rfl

/-- What is left of the sector is blank in front of a page. -/
theorem eraseFirst_apply (hi : i % 256 = 0)
    (hblank : ∀ j, i ≤ j → j < sectorEnd i → f (L + j) = blank) (a : Nat) :
    ((eraseFirst L i).run f).2 a =
      if L + i ≤ a ∧ a < L + sectorEnd (i + 256) then blank else f a := by
  rw [run_eraseFirst]
  unfold sectorEnd at hblank ⊢
  dsimp only
  by_cases hin : L + i ≤ a ∧ a < L + (i + 256 + 4095) / 4096 * 4096
  · rw [if_pos hin]
    by_cases hfirst : i % 4096 = 0
    · rw [if_pos hfirst]
      exact Flash.erase_inside f (by omega)
    · rw [if_neg hfirst]
      have hrest := hblank (a - L) (by omega) (by omega)
      rwa [Nat.add_sub_cancel' (by omega)] at hrest
  · rw [if_neg hin]
    split_ifs
    · exact Flash.erase_outside f (by omega)
    · rfl

theorem copyPage_apply (src dst len a : Nat) (h : ∀ i < len, f (dst + i) = blank) :
    f.write dst (f.read src len) a =
      if dst ≤ a ∧ a < dst + len then f (src + (a - dst)) else f a := by
  by_cases hin : dst ≤ a ∧ a < dst + len
  · obtain ⟨j, rfl⟩ : ∃ j, a = dst + j := ⟨a - dst, (Nat.add_sub_cancel' hin.1).symm⟩
    have hj : j < len := by omega
    rw [if_pos hin, Flash.write_at f dst (by rwa [Flash.length_read]), Flash.getElem_read, h j hj,
      Flash.blank_and, Nat.add_sub_cancel_left]
  · rw [if_neg hin]
    refine Flash.write_outside f ?_
    rw [Flash.length_read]
    omega

/-- **The copy**, from a page on. -/
theorem run_copyLoop (hL : flashAdrUpdateNewFw + fwSizeMax ≤ L) (hi : i % 256 = 0)
    (hle : i + 256 * n ≤ fwSizeMax)
    (hblank : ∀ j, i ≤ j → j < sectorEnd i → f (L + j) = blank) (a : Nat) :
    ((copyLoop L n i).run f).2 a =
      if L + i ≤ a ∧ a < L + sectorEnd (i + 256 * n) then
        if a < L + i + 256 * n then f (flashAdrUpdateNewFw + (a - L)) else blank
      else f a := by
  induction n generalizing i f with
  | zero =>
    show f a = _
    rw [Nat.mul_zero, Nat.add_zero, Nat.add_zero]
    split_ifs with hin
    · exact absurd hin.1 (by omega)
    · have hrest := hblank (a - L) (by omega) (by omega)
      rwa [Nat.add_sub_cancel' (by omega)] at hrest
    · rfl
  | succ n ih =>
    have hbase : flashAdrUpdateNewFw = 0x40000 := rfl
    have hmax : fwSizeMax = 0x40000 := rfl
    generalize hg : ((eraseFirst L i).run f).2 = g
    have hg' : ∀ b, g b = if L + i ≤ b ∧ b < L + sectorEnd (i + 256) then blank else f b := by
      intro b
      rw [← hg]
      exact eraseFirst_apply hi hblank b
    generalize hw : g.write (L + i) (g.read (flashAdrUpdateNewFw + i) 256) = w
    have hw' : ∀ b, w b =
        if L + i ≤ b ∧ b < L + i + 256 then f (flashAdrUpdateNewFw + (b - L)) else g b := by
      intro b
      rw [← hw, copyPage_apply]
      · refine ite_congr rfl (fun hin => ?_) fun _ => rfl
        have hsrc : flashAdrUpdateNewFw + i + (b - (L + i)) = flashAdrUpdateNewFw + (b - L) := by
          omega
        rw [hsrc, hg', if_neg (by omega)]
      · intro j hj
        rw [hg', if_pos ⟨by omega, by unfold sectorEnd; omega⟩]
    have hrun : (copyLoop L (n + 1) i).run f = (copyLoop L n (i + 256)).run w := by
      rw [copyLoop, run_bind, hg, ← hw]
      rfl
    rw [hrun, ih (by omega) (by omega) (fun j hge hlt => ?_)]
    · have hsum : i + 256 + 256 * n = i + 256 * (n + 1) := by omega
      have hlen : L + (i + 256) + 256 * n = L + i + 256 * (n + 1) := by
        rw [Nat.add_assoc, hsum, Nat.add_assoc]
      have hend : sectorEnd (i + 256) ≤ sectorEnd (i + 256 * (n + 1)) := by
        unfold sectorEnd
        omega
      have hsize : i + 256 * (n + 1) ≤ sectorEnd (i + 256 * (n + 1)) := by
        unfold sectorEnd
        omega
      have hsrc : ∀ b < flashAdrUpdateNewFw + fwSizeMax, w b = f b := fun b hb => by
        rw [hw', if_neg (by omega), hg', if_neg (by omega)]
      rw [hsum]
      by_cases hpage : L + i ≤ a ∧ a < L + i + 256
      · rw [if_neg (by omega), hw', if_pos hpage, if_pos (by omega), if_pos (by omega)]
      by_cases hlater : L + (i + 256) ≤ a ∧ a < L + sectorEnd (i + 256 * (n + 1))
      · have hge : L + i ≤ a := by
          have hlow := hlater.1
          omega
        have hin : L + i ≤ a ∧ a < L + sectorEnd (i + 256 * (n + 1)) := ⟨hge, hlater.2⟩
        rw [if_pos hlater, if_pos hin, hlen]
        split_ifs with hcopied
        · exact hsrc (flashAdrUpdateNewFw + (a - L)) (by omega)
        · rfl
      · rw [if_neg hlater, if_neg (by omega), hw', if_neg hpage, hg', if_neg (by omega)]
    · rw [hw', if_neg (by omega), hg', if_pos]
      unfold sectorEnd at hlt ⊢
      omega

theorem sectorEnd_pages (n : Nat) : sectorEnd (0 + 256 * ((n + 255) / 256)) = sectorEnd n := by
  unfold sectorEnd
  omega

theorem changesIn_copyLoop (hi : i % 256 = 0) :
    (copyLoop L n i).ChangesIn fun a => L ≤ a ∧ a < L + sectorEnd (i + 256 * n) := by
  induction n generalizing i with
  | zero => exact changesIn_pure _
  | succ n ih =>
    have hsum : i + 256 + 256 * n = i + 256 * (n + 1) := by omega
    have hsector : i / 4096 * 4096 + 4096 ≤ sectorEnd (i + 256 * (n + 1)) := by
      unfold sectorEnd
      omega
    have hpage : i + 256 ≤ i / 4096 * 4096 + 4096 := by omega
    have hmask : i &&& 0xfff = i % 4096 := Nat.and_two_pow_sub_one_eq_mod i 12
    have herase : (eraseFirst L i).ChangesIn
        fun a => L ≤ a ∧ a < L + sectorEnd (i + 256 * (n + 1)) := by
      unfold eraseFirst
      rw [hmask]
      by_cases hfirst : i % 4096 = 0
      · rw [if_pos hfirst]
        exact changesIn_eraseAt fun j hj => by omega
      · rw [if_neg hfirst]
        exact changesIn_pure _
    refine herase.bind fun _ => changesIn_readAt_bind fun buff hlen => ?_
    refine (changesIn_writeAt fun j hj => by omega).bind fun _ => ?_
    have hrest := ih (i := i + 256) (by omega)
    rwa [hsum] at hrest

/-! ### The update area -/

theorem updateSectors_small (h : n ≤ fwSizeMax) {b : Nat} (hb : b ∈ updateSectors n) :
    flashAdrUpdateNewFw ≤ b ∧ b + 4096 ≤ flashAdrUpdateNewFw + fwSizeMax := by
  have hbase : flashAdrUpdateNewFw = 0x40000 := rfl
  have hmax : fwSizeMax = 0x40000 := rfl
  obtain ⟨k, hk, rfl⟩ := List.mem_map.mp hb
  have hlt := List.mem_range.mp hk
  omega

/-- The flag is gone from the first operation of the clean-up on. -/
theorem not_valid_cleared (l : List Nat) :
    ¬ Valid flashAdrUpdateNewFw
      ((f.write (flashAdrUpdateNewFw + 8) [0]).eraseList 4096 l) := by
  intro hvalid
  have hhead := hvalid.head
  have hzero : f.write (flashAdrUpdateNewFw + 8) [0] (flashAdrUpdateNewFw + 8) = 0 := by
    rw [Flash.write_head]
    exact BitVec.and_zero
  rcases Flash.eraseList_or (f.write (flashAdrUpdateNewFw + 8) [0]) 4096
    (flashAdrUpdateNewFw + 8) l with hsame | hblank
  · rw [hsame, hzero] at hhead
    exact absurd hhead (by decide)
  · rw [hblank] at hhead
    exact absurd hhead (by decide)

/-! ### The states between starts -/

/-- What a start makes of the flash `f`, the update area apart. -/
def settled (f : Flash) : Flash :=
  if Valid flashAdrUpdateNewFw f then loaded (addrLoad f) (fwSize f) f else f

/-- The new image of `f` is waiting; only the place it goes to may differ. -/
structure Pending (f g : Flash) : Prop where
  waits : Valid flashAdrUpdateNewFw f
  same : ∀ a, ¬ InLoad (addrLoad f) (fwSize f) a → g a = f a

structure Settled (f g : Flash) : Prop where
  flag : ¬ Valid flashAdrUpdateNewFw g
  same : ∀ a, ¬ InUpdate a → g a = settled f a

/-- An image that fits, if there is one. -/
def Fits (f : Flash) : Prop := Valid flashAdrUpdateNewFw f → fwSize f ≤ fwSizeMax

theorem not_inLoad_of_lt (ha : a < flashAdrUpdateNewFw + fwSizeMax) :
    ¬ InLoad (addrLoad f) n a := fun h => absurd (Nat.le_trans (addrLoad_ge f) h.1) (by omega)

theorem loaded_of_not_inLoad (h : ¬ InLoad L n a) : loaded L n f a = f a := if_neg h

theorem addrLoad_settled (f : Flash) : addrLoad (settled f) = addrLoad f := by
  unfold settled
  split_ifs
  · exact addrLoad_congr fun i hi => loaded_of_not_inLoad (not_inLoad_of_lt
      (by unfold flashAdrMeshTypeFlag flashAdrUpdateNewFw fwSizeMax; omega))
  · rfl

theorem Pending.low (h : Pending f g) (ha : a < flashAdrUpdateNewFw + fwSizeMax) : g a = f a :=
  h.same a (not_inLoad_of_lt ha)

theorem Pending.addrLoad_eq (h : Pending f g) : addrLoad g = addrLoad f :=
  addrLoad_congr fun i hi =>
    h.low (by unfold flashAdrMeshTypeFlag flashAdrUpdateNewFw fwSizeMax; omega)

theorem Pending.valid (h : Pending f g) : Valid flashAdrUpdateNewFw g :=
  (valid_congr fun i hi =>
    h.low (by unfold flashAdrUpdateNewFw fwSizeMax; omega)).mpr h.waits

theorem Pending.fwSize_eq (h : Pending f g) : fwSize g = fwSize f := by
  unfold fwSize
  rw [Flash.read_congr fun i hi =>
    h.low (by unfold flashAdrUpdateNewFw fwSizeMax; omega)]

theorem Settled.addrLoad_eq (h : Settled f g) : addrLoad g = addrLoad f := by
  rw [← addrLoad_settled f]
  refine addrLoad_congr fun i hi => h.same _ fun hin => absurd hin.1 ?_
  unfold flashAdrMeshTypeFlag flashAdrUpdateNewFw
  omega

/-- A start begins in one of the two states. -/
theorem pending_or_settled (f : Flash) : Pending f f ∨ Settled f f := by
  by_cases h : Valid flashAdrUpdateNewFw f
  · exact .inl ⟨h, fun _ _ => rfl⟩
  · exact .inr ⟨h, fun _ _ => by rw [settled, if_neg h]⟩

/-- The copy of a waiting image, whatever lies in its place. -/
theorem Pending.copied (h : Pending f g) (hfit : Fits f) :
    ((copyImage (addrLoad f) (fwSize f)).run g).2 =
      loaded (addrLoad f) (fwSize f) f := by
  have hmax : fwSizeMax = 0x40000 := rfl
  have hsize := hfit h.waits
  funext a
  unfold copyImage
  rw [if_pos hsize, run_copyLoop (addrLoad_ge f) rfl (by omega)
    (fun j _ hj => absurd hj (by unfold sectorEnd; omega)), sectorEnd_pages]
  unfold loaded pageEnd
  rw [Nat.add_zero, Nat.mul_comm]
  split_ifs with hin hcopied
  · exact h.low (by omega)
  · rfl
  · exact h.same a hin

theorem changesIn_copyImage (hsize : n ≤ fwSizeMax) :
    (copyImage L n).ChangesIn (InLoad L n) := by
  unfold copyImage
  rw [if_pos hsize]
  exact (changesIn_copyLoop rfl).mono fun a ha => by rwa [sectorEnd_pages] at ha

/-- Wherever the copy is cut, the image still waits. -/
theorem Pending.always_copy (h : Pending f g) (hfit : Fits f) :
    Always (Pending f) (copyImage (addrLoad f) (fwSize f)) g := fun n =>
  ⟨h.waits, fun a ha =>
    ((changesIn_copyImage (hfit h.waits)).cutAfter g ha n).trans (h.same a ha)⟩

/-- The clean-up settles the flash with its first operation. -/
theorem settled_clear (hvalid : Valid flashAdrUpdateNewFw f) (hfit : Fits f) (n : Nat) :
    Settled f (((loaded (addrLoad f) (fwSize f) f).write (flashAdrUpdateNewFw + 8) [0]).eraseList
      4096 ((updateSectors (fwSize f)).take n)) where
  flag := not_valid_cleared _
  same a ha := by
    have hbase : flashAdrUpdateNewFw = 0x40000 := rfl
    have hmax : fwSizeMax = 0x40000 := rfl
    have hout : ¬ (flashAdrUpdateNewFw ≤ a ∧ a < flashAdrUpdateNewFw + fwSizeMax) := ha
    rw [settled, if_pos hvalid, Flash.eraseList_outside, Flash.write_outside]
    · rw [List.length_singleton]
      omega
    · intro b hb
      have hin := updateSectors_small (hfit hvalid) (List.mem_of_mem_take hb)
      omega

theorem Pending.always_clear (hvalid : Valid flashAdrUpdateNewFw f) (hfit : Fits f) :
    Always (fun k => Pending f k ∨ Settled f k) (clearUpdate (fwSize f))
      (loaded (addrLoad f) (fwSize f) f) := by
  refine (always_bind ..).mpr ⟨(always_writeAt ..).mpr ⟨.inl ⟨hvalid, fun a ha => ?_⟩, .inr ?_⟩,
    fun n => .inr ?_⟩
  · exact loaded_of_not_inLoad ha
  · exact settled_clear hvalid hfit 0
  · rw [cutAfter_eraseList]
    exact settled_clear hvalid hfit n

theorem header_size (g : Flash) :
    ofLE (((g.read flashAdrUpdateNewFw 256).drop 0x18).take 4) = fwSize g := by
  have hsplit : g.read flashAdrUpdateNewFw 256 = g.read flashAdrUpdateNewFw 0x18 ++
      (g.read (flashAdrUpdateNewFw + 0x18) 4 ++ g.read (flashAdrUpdateNewFw + 0x18 + 4) 228) := by
    rw [← Flash.read_add, ← Flash.read_add]
  rw [hsplit, List.drop_left' (Flash.length_read ..), List.take_left' (Flash.length_read ..)]
  rfl

/-- An installation that comes to its end. -/
theorem run_install (L : Nat) (g : Flash) : ((installUpdate L).run g).2 =
    (((copyImage L (fwSize g)).run g).2.write (flashAdrUpdateNewFw + 8) [0]).eraseList 4096
      (updateSectors (fwSize g)) := by
  unfold installUpdate clearUpdate
  rw [run_readAt_bind]
  dsimp only
  rw [header_size, run_bind, run_writeAt_bind, run_eraseList]

/-- Whatever of the installation is done, the image waits or the flash is settled. -/
theorem Pending.always_install (h : Pending f g) (hfit : Fits f) :
    Always (fun k => Pending f k ∨ Settled f k) (installUpdate (addrLoad f)) g := by
  refine (always_readAt_bind ..).mpr ?_
  dsimp only
  rw [header_size, h.fwSize_eq, always_bind, h.copied hfit]
  exact ⟨(h.always_copy hfit).mono fun _ => .inl, Pending.always_clear h.waits hfit⟩

theorem Pending.installed (h : Pending f g) (hfit : Fits f) :
    Settled f ((installUpdate (addrLoad f)).run g).2 := by
  have hall := settled_clear h.waits hfit (updateSectors (fwSize f)).length
  rw [List.take_length] at hall
  rwa [run_install, h.fwSize_eq, h.copied hfit]

/-! ### A start -/

theorem ramcode_eq : ramcode L f = if Valid L f then
    some (f.read L (min (ofLE (f.read (L + 0x0c) 2) * 16) fwRamcodeSizeMax)) else none := by
  unfold ramcode startFw
  rw [run_bind, run_isValid]
  dsimp only
  by_cases h : Valid L f
  · rw [if_pos h, decide_eq_true h]
    rfl
  · rw [if_neg h, decide_eq_false h]
    rfl

/-- The ram code lies in the first sectors of a firmware. -/
theorem ramcode_congr {M : Nat} (h : ∀ i < fwRamcodeSizeMax, g (L + i) = f (M + i)) :
    ramcode L g = ramcode M f := by
  have hread : ∀ off len, off + len ≤ fwRamcodeSizeMax →
      g.read (L + off) len = f.read (M + off) len := by
    intro off len hle
    refine List.map_congr_left fun i hi => ?_
    rw [Nat.add_assoc, Nat.add_assoc]
    exact h _ (Nat.lt_of_lt_of_le (Nat.add_lt_add_left (List.mem_range.mp hi) off) hle)
  have hvalid : Valid L g ↔ Valid M f := by
    unfold Valid
    rw [hread 8 4 (by decide)]
  rw [ramcode_eq, ramcode_eq, hread 0x0c 2 (by decide)]
  refine ite_congr (propext hvalid) (fun _ => ?_) fun _ => rfl
  exact congrArg some (hread 0 _ (by rw [Nat.zero_add]; exact Nat.min_le_right _ _))

theorem run_otaCheck : ((otaCheck L).run f).2 =
    if Valid flashAdrUpdateNewFw f then ((installUpdate L).run f).2 else f := by
  unfold otaCheck
  rw [run_bind, run_isValid]
  dsimp only
  by_cases h : Valid flashAdrUpdateNewFw f
  · rw [if_pos h, decide_eq_true h]
    rfl
  · rw [if_neg h, decide_eq_false h]
    rfl

/-- A start installs what waits, then starts the firmware. -/
theorem run_main (f : Flash) :
    main.run f = (ramcode (addrLoad f) ((otaCheck (addrLoad f)).run f).2,
      ((otaCheck (addrLoad f)).run f).2) := by
  have hstart : main.run f = (startFw (addrLoad f)).run ((otaCheck (addrLoad f)).run f).2 := by
    unfold main bootLoadWithOtaCheck
    rw [run_readAt_bind, run_bind]
    rfl
  rw [hstart]
  generalize ((otaCheck (addrLoad f)).run f).2 = g
  have hsame : ((startFw (addrLoad f)).run g).2 = g := readOnly_startFw.run g
  exact Prod.ext rfl hsame

/-- Without a new image a start changes nothing. -/
theorem reads_main (h : ¬ Valid flashAdrUpdateNewFw f) :
    Reads f main (ramcode (addrLoad f) f) := by
  have hcheck : Reads f (otaCheck (addrLoad f)) () := by
    refine reads_isValid.bind ?_
    rw [decide_eq_false h]
    exact .pure ()
  exact .read (hcheck.bind (readOnly_startFw.reads f))

/-- **One start**, cut or not, from either state. -/
theorem always_main (h : Pending f g ∨ Settled f g) (hfit : Fits f) :
    Always (fun k => Pending f k ∨ Settled f k) main g := by
  rcases h with hwait | hdone
  · have hL : gAddrLoad (g.read flashAdrMeshTypeFlag 4) = addrLoad f := hwait.addrLoad_eq
    have hcheck : Always (fun k => Pending f k ∨ Settled f k) (otaCheck (addrLoad f)) g := by
      have hread : (isValidFwBootloader flashAdrUpdateNewFw).ReadOnly :=
        (readOnly_readAt _ _).bind fun _ => readOnly_pure _
      unfold otaCheck
      rw [always_bind, hread.always, run_isValid, decide_eq_true hwait.valid]
      exact ⟨.inl hwait, hwait.always_install hfit⟩
    unfold main bootLoadWithOtaCheck
    rw [always_readAt_bind, hL, always_bind, readOnly_startFw.always, run_otaCheck,
      if_pos hwait.valid]
    exact ⟨hcheck, .inr (hwait.installed hfit)⟩
  · intro n
    rw [(reads_main hdone.flag).cutAfter n]
    exact .inr hdone

/-- However many starts were cut. -/
theorem afterStarts_state (hfit : Fits f) (cuts : List Nat) :
    Pending f (afterStarts f cuts) ∨ Settled f (afterStarts f cuts) := by
  have hrun : ∀ g, Pending f g ∨ Settled f g →
      Pending f (afterStarts g cuts) ∨ Settled f (afterStarts g cuts) := by
    induction cuts with
    | nil => exact fun g h => h
    | cons n cuts ih => exact fun g h => ih _ (always_main h hfit n)
  exact hrun f (pending_or_settled f)

/-- A start that comes to its end. -/
theorem run_main_state (h : Pending f g ∨ Settled f g) (hfit : Fits f) :
    Settled f (main.exec g) ∧ (main.run g).1 = ramcode (addrLoad f) (settled f) := by
  have hend : Settled f (main.exec g) ∧ (main.run g).1 = ramcode (addrLoad f) (main.exec g) := by
    unfold exec
    rw [run_main]
    dsimp only
    rw [run_otaCheck]
    rcases h with hwait | hdone
    · rw [if_pos hwait.valid, hwait.addrLoad_eq]
      exact ⟨hwait.installed hfit, rfl⟩
    · rw [if_neg hdone.flag, hdone.addrLoad_eq]
      exact ⟨hdone, rfl⟩
  refine ⟨hend.1, hend.2.trans (ramcode_congr fun i hi => hend.1.same _ fun hin => ?_)⟩
  have hge := addrLoad_ge f
  exact absurd hin.2 (by omega)

/-! ### A new image -/

theorem settled_load (hnew : Valid flashAdrUpdateNewFw f) (hi : i < pageEnd (fwSize f)) :
    settled f (addrLoad f + i) = f (flashAdrUpdateNewFw + i) := by
  have hend : pageEnd (fwSize f) ≤ sectorEnd (fwSize f) := by
    unfold pageEnd sectorEnd
    omega
  rw [settled, if_pos hnew, loaded, if_pos (by omega), if_pos (by omega), Nat.add_sub_cancel_left]

/-- The ram code of an image whose pages hold it. -/
theorem ramcode_settled (hnew : Valid flashAdrUpdateNewFw f) (hpos : 0 < fwSize f)
    (hram : min (ofLE (f.read (flashAdrUpdateNewFw + 0x0c) 2) * 16) fwRamcodeSizeMax ≤
      pageEnd (fwSize f)) :
    ramcode (addrLoad f) (settled f) = ramcode flashAdrUpdateNewFw f := by
  have hpage : 256 ≤ pageEnd (fwSize f) := by
    unfold pageEnd
    omega
  have hread : ∀ off len, off + len ≤ pageEnd (fwSize f) →
      (settled f).read (addrLoad f + off) len = f.read (flashAdrUpdateNewFw + off) len := by
    intro off len hle
    refine List.map_congr_left fun i hi => ?_
    rw [Nat.add_assoc, Nat.add_assoc]
    exact settled_load hnew <|
      Nat.lt_of_lt_of_le (Nat.add_lt_add_left (List.mem_range.mp hi) off) hle
  have hvalid : Valid (addrLoad f) (settled f) := by
    unfold Valid
    rw [hread 8 4 (by omega)]
    exact hnew
  rw [ramcode_eq, ramcode_eq, if_pos hvalid, if_pos hnew, hread 0x0c 2 (by omega)]
  exact congrArg some (hread 0 _ (by rw [Nat.zero_add]; exact hram))

/-- **A new image is installed, wherever the power fails.**  After any starts that were cut short,
the next whole start leaves the image in its place and nothing else changed but the update area,
and starts what it would have started without them: the image, when its pages hold its ram
code. -/
theorem main_installs {f : Flash} (hnew : Valid flashAdrUpdateNewFw f)
    (hsize : fwSize f ≤ fwSizeMax) (cuts : List Nat) :
    (main.exec (afterStarts f cuts)).read (addrLoad f) (fwSize f) =
        f.read flashAdrUpdateNewFw (fwSize f) ∧
      (∀ a, ¬ InLoad (addrLoad f) (fwSize f) a → ¬ InUpdate a →
        main.exec (afterStarts f cuts) a = f a) ∧
      ¬ Valid flashAdrUpdateNewFw (main.exec (afterStarts f cuts)) ∧
      (main.run (afterStarts f cuts)).1 = (main.run f).1 ∧
      (0 < fwSize f → min (ofLE (f.read (flashAdrUpdateNewFw + 0x0c) 2) * 16) fwRamcodeSizeMax ≤
          pageEnd (fwSize f) →
        (main.run (afterStarts f cuts)).1 = ramcode flashAdrUpdateNewFw f) := by
  have hfit : Fits f := fun _ => hsize
  obtain ⟨hend, hstarted⟩ := run_main_state (afterStarts_state hfit cuts) hfit
  have hplain := (run_main_state (pending_or_settled f) hfit).2
  have hge := addrLoad_ge f
  refine ⟨?_, fun a hload hupdate => ?_, hend.flag, hstarted.trans hplain.symm,
    fun hpos hram => hstarted.trans (ramcode_settled hnew hpos hram)⟩
  · refine List.map_congr_left fun i hi => ?_
    have hlt : i < fwSize f := List.mem_range.mp hi
    rw [hend.same _ fun hin => absurd hin.2 (by omega)]
    exact settled_load hnew (by unfold pageEnd; omega)
  · rw [hend.same a hupdate, settled, if_pos hnew]
    exact loaded_of_not_inLoad hload

/-- A blank flash with the header of an image at an address. -/
def withHeader (f : Flash) (adr size : Nat) : Flash :=
  (f.write (adr + 8) (toLE 4 startUpFlag)).write (adr + 0x18) (toLE 4 size)

def sampleFlash (size : Nat) : Flash := withHeader (fun _ => blank) flashAdrUpdateNewFw size

theorem main_installs_cut :
    ¬ Valid flashAdrUpdateNewFw (main.exec (afterStarts (sampleFlash 5000) [7, 0, 21])) :=
  (main_installs (f := sampleFlash 5000) (by decide +kernel) (by decide +kernel)
    [7, 0, 21]).2.2.1

/-! ### An image that is too long -/

/-- What a whole start makes of the flash when the image is too long to be copied. -/
theorem exec_long (hnew : Valid flashAdrUpdateNewFw f) (hlong : fwSizeMax < fwSize f) :
    main.exec f = (f.write (flashAdrUpdateNewFw + 8) [0]).eraseList 4096
      (updateSectors (fwSize f)) := by
  have hcopy : ((copyImage (addrLoad f) (fwSize f)).run f).2 = f := by
    unfold copyImage
    rw [if_neg (Nat.not_le.mpr hlong)]
    rfl
  unfold exec
  rw [run_main]
  dsimp only
  rw [run_otaCheck, if_pos hnew, run_install, hcopy]

theorem not_valid_erased {l : List Nat} (hb : L ∈ l) : ¬ Valid L (f.eraseList 4096 l) := by
  intro hvalid
  have hhead := hvalid.head
  rw [Flash.eraseList_inside f hb (by omega)] at hhead
  exact absurd hhead (by decide)

theorem mem_updateSectors (hL : flashAdrUpdateNewFw + fwSizeMax ≤ L) (hlt : L < 2 ^ 32)
    (halign : L % 4096 = 0) (hlong : L - flashAdrUpdateNewFw < n) (hfit : n + 4095 < 2 ^ 32) :
    L ∈ updateSectors n := by
  have hbase : flashAdrUpdateNewFw = 0x40000 := rfl
  have hmax : fwSizeMax = 0x40000 := rfl
  refine List.mem_map.mpr ⟨(L - flashAdrUpdateNewFw) / 4096, List.mem_range.mpr ?_, ?_⟩
  · rw [Nat.mod_eq_of_lt hfit]
    omega
  · omega

/-- Nothing is erased behind a length that fits, and nothing at all when the sum wraps. -/
theorem valid_kept (hL : flashAdrUpdateNewFw + fwSizeMax ≤ L) (hlt : L ≤ 0xC0000)
    (halign : L % 4096 = 0) (h32 : n < 2 ^ 32)
    (hshort : n ≤ L - flashAdrUpdateNewFw ∨ 2 ^ 32 ≤ n + 4095) :
    Valid L ((f.write (flashAdrUpdateNewFw + 8) [0]).eraseList 4096 (updateSectors n)) ↔
      Valid L f := by
  have hbase : flashAdrUpdateNewFw = 0x40000 := rfl
  have hmax : fwSizeMax = 0x40000 := rfl
  refine valid_congr fun i hi => ?_
  rw [Flash.eraseList_outside, Flash.write_outside]
  · rw [List.length_singleton]
    omega
  · intro b hb
    obtain ⟨k, hk, rfl⟩ := List.mem_map.mp hb
    have hlt := List.mem_range.mp hk
    omega

theorem fwSize_lt (f : Flash) : fwSize f < 2 ^ 32 := by
  have hlt := ofLE_lt (f.read (flashAdrUpdateNewFw + 0x18) 4)
  rwa [Flash.length_read] at hlt

theorem afterStarts_same (h : ¬ Valid flashAdrUpdateNewFw f) (cuts : List Nat) :
    afterStarts f cuts = f := by
  induction cuts with
  | nil => rfl
  | cons n cuts ih =>
    show afterStarts (main.cutAfter n f) cuts = f
    rw [(reads_main h).cutAfter n, ih]

theorem addrLoad_place (f : Flash) : flashAdrUpdateNewFw + fwSizeMax ≤ addrLoad f ∧
    addrLoad f ≤ 0xC0000 ∧ addrLoad f % 4096 = 0 := by
  rcases addrLoad_cases f with h | h
  all_goals
    rw [h]
    decide

/-- An image that is copied, or none of it, leaves a firmware. -/
theorem valid_settled (hnew : Valid flashAdrUpdateNewFw f) (hold : Valid (addrLoad f) f) :
    Valid (addrLoad f) (settled f) := by
  rcases Nat.eq_zero_or_pos (fwSize f) with hzero | hpos
  · rw [settled, if_pos hnew, hzero]
    refine (valid_congr fun i hi => ?_).mpr hold
    exact loaded_of_not_inLoad fun hin => absurd (Nat.lt_of_le_of_lt hin.1 hin.2)
      (Nat.lt_irrefl _)
  · have hpage : 256 ≤ pageEnd (fwSize f) := by
      unfold pageEnd
      omega
    have hread : (settled f).read (addrLoad f + 8) 4 = f.read (flashAdrUpdateNewFw + 8) 4 := by
      refine List.map_congr_left fun i hi => ?_
      have hlt : i < 4 := List.mem_range.mp hi
      rw [Nat.add_assoc, Nat.add_assoc]
      exact settled_load hnew (by omega)
    unfold Valid
    rw [hread]
    exact hnew

theorem valid_exec (hnew : Valid flashAdrUpdateNewFw f) (hold : Valid (addrLoad f) f)
    (hshort : fwSize f ≤ addrLoad f - flashAdrUpdateNewFw ∨ 2 ^ 32 ≤ fwSize f + 4095) :
    Valid (addrLoad f) (main.exec f) := by
  obtain ⟨hge, hle, halign⟩ := addrLoad_place f
  by_cases hsize : fwSize f ≤ fwSizeMax
  · have hend := (run_main_state (pending_or_settled f) fun _ => hsize).1
    refine (valid_congr fun i _ => hend.same _ fun hin => ?_).mpr (valid_settled hnew hold)
    exact absurd hin.2 (by omega)
  · rw [exec_long hnew (Nat.not_le.mp hsize)]
    exact (valid_kept hge hle halign (fwSize_lt f) hshort).mpr hold

/-- The place of the firmware stays, or both firmwares are gone. -/
theorem not_valid_exec (hnew : Valid flashAdrUpdateNewFw f)
    (hlong : addrLoad f - flashAdrUpdateNewFw < fwSize f) (hfit : fwSize f + 4095 < 2 ^ 32) :
    ¬ Valid (addrLoad f) (main.exec f) ∧ ¬ Valid (addrLoad (main.exec f)) (main.exec f) := by
  obtain ⟨hge, hle, halign⟩ := addrLoad_place f
  have hbase : flashAdrUpdateNewFw = 0x40000 := rfl
  have hmax : fwSizeMax = 0x40000 := rfl
  rw [exec_long hnew (by omega)]
  generalize hl : updateSectors (fwSize f) = l
  have hmine : addrLoad f ∈ l := by
    rw [← hl]
    exact mem_updateSectors hge (by omega) halign hlong hfit
  refine ⟨not_valid_erased hmine, not_valid_erased ?_⟩
  generalize hg : (f.write (flashAdrUpdateNewFw + 8) [0]).eraseList 4096 l = g
  by_cases hfar : fwSize f ≤ 0x80000
  · have hsame : addrLoad g = addrLoad f := by
      refine addrLoad_congr fun i hi => ?_
      have htype : flashAdrMeshTypeFlag = 0x24000 := rfl
      rw [← hg, Flash.eraseList_outside, Flash.write_outside]
      · rw [List.length_singleton]
        omega
      · intro b hb
        rw [← hl] at hb
        obtain ⟨k, hk, rfl⟩ := List.mem_map.mp hb
        have hlt := List.mem_range.mp hk
        omega
    rw [hsame]
    exact hmine
  · obtain ⟨hge', hle', halign'⟩ := addrLoad_place g
    rw [← hl]
    exact mem_updateSectors hge' (by omega) halign' (by omega) hfit

/-- **Which images end the device.**  No firmware starts any more once an image is found whose
length reaches into the firmware that is to be loaded, unless the sum of its sectors wraps. -/
theorem main_none_iff {f : Flash} (hnew : Valid flashAdrUpdateNewFw f)
    (hold : Valid (addrLoad f) f) :
    ((main.run f).1 = none ∧ ∀ cuts, (main.run (afterStarts (main.exec f) cuts)).1 = none) ↔
      addrLoad f - flashAdrUpdateNewFw < fwSize f ∧ fwSize f + 4095 < 2 ^ 32 := by
  have hresult : (main.run f).1 = ramcode (addrLoad f) (main.exec f) := by
    unfold exec
    rw [run_main]
  constructor
  · rintro ⟨hnone, -⟩
    by_contra hshort
    have hvalid := valid_exec hnew hold (by omega)
    rw [hresult, ramcode_eq, if_pos hvalid] at hnone
    exact absurd hnone (Option.some_ne_none _)
  · rintro ⟨hlong, hfit⟩
    obtain ⟨hmine, hnext⟩ := not_valid_exec hnew hlong hfit
    have hgone : ¬ Valid flashAdrUpdateNewFw (main.exec f) := by
      have hge := addrLoad_ge f
      rw [exec_long hnew (by omega)]
      exact not_valid_cleared _
    refine ⟨by rw [hresult, ramcode_eq, if_neg hmine], fun cuts => ?_⟩
    rw [afterStarts_same hgone, (reads_main hgone).run, ramcode_eq, if_neg hnext]

/-- A length of 300 KiB, with a firmware to load. -/
theorem main_none_iff_long :
    (main.run (withHeader (sampleFlash 0x4B000) dualModeFwAddrSigmesh 1000)).1 = none :=
  ((main_none_iff (f := withHeader (sampleFlash 0x4B000) dualModeFwAddrSigmesh 1000)
    (by decide +kernel) (by decide +kernel)).mpr (by decide +kernel)).1

end BootLoader

end PirMesh
