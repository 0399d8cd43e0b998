import PirMesh.FastProv.Device
import PirMesh.Library.Accesses
import PirMesh.Library.Reassembly

/-! # FastProv — The octets of an address-get (`fast_provision_model.c`)

`cbVdMeshGetAddr` on the octets that came: what it writes to its local `mac_get`, and what it
divides by.  The local is memory from its first octet on, with `stack` in it before the copy.

The node it leaves is that of the message which the octets are (`cbVdMeshGetAddr_dev`), so the runs
of the device are about these handlers. -/

namespace PirMesh.AddrGet

open Accesses Accesses.Traced Reassembly
open Nor (Byte ofLE)

/-- `sizeof(mac_addr_get_t)` -/
def sizeofMacAddrGet : ℕ := 4

inductive Access
  /-- The first `n` octets of `mac_get` are written. -/
  | macGet (n : ℕ)
  | divisor (d : ℤ)
  deriving DecidableEq, Repr

def Access.Ok : Access → Prop
  | macGet n => n ≤ sizeofMacAddrGet
  | divisor d => d ≠ 0

instance : DecidablePred Access.Ok
  | .macGet n => inferInstanceAs (Decidable (n ≤ sizeofMacAddrGet))
  | .divisor d => inferInstanceAs (Decidable (d ≠ 0))

abbrev Handler := Traced Access

/-- The node, and the MAC and the product that go back. -/
structure Done where
  dev : FastProvDev
  rsp : Option (BitVec 48 × BitVec 16)

def u16At (m : ℕ → Byte) (p : ℕ) : BitVec 16 := BitVec.ofNat 16 (ofLE (read m p 2))

/-- The product is meant that this node is, or any. -/
def Selects (cfg : DevConfig) (pid : BitVec 16) : Prop := pid = cfg.meshPidSel ∨ pid = 0xffff

instance (cfg : DevConfig) (pid : BitVec 16) : Decidable (Selects cfg pid) :=
  inferInstanceAs (Decidable (_ ∨ _))

section

variable (cfg : DevConfig) (dev : FastProvDev) (par : List Byte) (stack : ℕ → Byte)
  (clock : BitVec 32)

/-- `memcpy(&mac_get, par, par_len)` -/
def copyPar : Handler (ℕ → Byte) := look (.macGet par.length) (copy stack 0 par)

/-- `tmp_ele_addr` -/
def tmpEleAddr (eleAddr : BitVec 16) : Handler (BitVec 16) :=
  look (.divisor (0x8000 - 256 - eleAddr.toNat)) (FastProvDev.defaultEleAddr eleAddr clock)

/-- The node takes an address of its own, once. -/
def takeDefault (eleAddr : BitVec 16) : Handler FastProvDev :=
  if sizeofMacAddrGet ≤ par.length ∧ dev.defaultAddrRandom = false then do
    let adr ← tmpEleAddr clock eleAddr
    pure (FastProvDev.meshSetEleAdrLl { dev with defaultAddrRandom := true } adr)
  else pure dev

/-- What is left to do when `mac_get` is there. -/
def answer (macGet : ℕ → Byte) : Handler Done :=
  if Selects cfg (u16At macGet 0) then do
    let dev ← takeDefault dev par clock (u16At macGet 2)
    pure ⟨dev.meshFastProvRcvOp .addrGet, some (cfg.tblMac, cfg.meshPidSel)⟩
  else pure ⟨dev.meshFastProvRcvOp .addrGet, none⟩

/-- `cb_vd_mesh_get_addr` -/
def cbVdMeshGetAddr : Handler Done :=
  if dev.notNeedProv ∨ !dev.getMacEn then pure ⟨dev, none⟩
  else do
    let macGet ← copyPar par stack
    answer cfg dev par clock macGet

end

/-! ### The message -/

def pidOf (par : List Byte) : BitVec 16 := BitVec.ofNat 16 (ofLE (par.take 2))

def eleAddrOf (par : List Byte) : BitVec 16 := BitVec.ofNat 16 (ofLE ((par.drop 2).take 2))

section

variable {cfg : DevConfig} {dev : FastProvDev} {par : List Byte} {stack : ℕ → Byte}
  {clock : BitVec 32}

theorem u16At_copy {p : ℕ} (h : p + 2 ≤ par.length) :
    u16At (copy stack 0 par) p = BitVec.ofNat 16 (ofLE ((par.drop p).take 2)) := by
  unfold u16At
  congr 2
  have hread := read_copy stack 0 par p 2 h
  rw [Nat.zero_add] at hread
  exact hread

@[simp] theorem val_copyPar : (copyPar par stack).val = copy stack 0 par := rfl

theorem val_takeDefault (eleAddr : BitVec 16) : (takeDefault dev par clock eleAddr).val =
    if sizeofMacAddrGet ≤ par.length ∧ dev.defaultAddrRandom = false then
      FastProvDev.meshSetEleAdrLl { dev with defaultAddrRandom := true }
        (FastProvDev.defaultEleAddr eleAddr clock)
    else dev := val_ite _ _

theorem answer_dev (macGet : ℕ → Byte) : (answer cfg dev par clock macGet).val.dev =
    if Selects cfg (u16At macGet 0) then
      (takeDefault dev par clock (u16At macGet 2)).val.meshFastProvRcvOp .addrGet
    else dev.meshFastProvRcvOp .addrGet := by
  unfold answer
  rw [val_ite]
  exact apply_ite Done.dev ..

theorem cbVdMeshGetAddr_on (hneed : dev.notNeedProv = false) (hen : dev.getMacEn = true) :
    cbVdMeshGetAddr cfg dev par stack clock =
      (copyPar par stack >>= fun macGet => answer cfg dev par clock macGet) := by
  refine if_neg ?_
  rw [hneed, hen]
  decide

theorem u16At_pid (h : sizeofMacAddrGet ≤ par.length) : u16At (copy stack 0 par) 0 = pidOf par :=
  u16At_copy (by unfold sizeofMacAddrGet at h; omega)

theorem u16At_eleAddr (h : sizeofMacAddrGet ≤ par.length) :
    u16At (copy stack 0 par) 2 = eleAddrOf par := u16At_copy h

/-- **The handler is that of the device**, on the message that is in `mac_get`. -/
theorem cbVdMeshGetAddr_dev : (cbVdMeshGetAddr cfg dev par stack clock).val.dev =
    dev.receive cfg clock (.addrGet (u16At (copy stack 0 par) 0)
      (if sizeofMacAddrGet ≤ par.length then some (u16At (copy stack 0 par) 2) else none)) := by
  unfold cbVdMeshGetAddr FastProvDev.receive FastProvDev.cbVdMeshGetAddr
  rw [val_ite, apply_ite Done.dev]
  refine ite_congr rfl (fun _ => rfl) fun _ => ?_
  refine (answer_dev _).trans ?_
  rw [val_copyPar, val_takeDefault]
  by_cases hlen : sizeofMacAddrGet ≤ par.length
  · rw [if_pos hlen]
    by_cases hsel : Selects cfg (u16At (copy stack 0 par) 0)
    · rw [if_pos hsel]
      cases hfresh : dev.defaultAddrRandom with
      | false =>
        rw [if_pos ⟨hlen, rfl⟩]
        exact (congrArg (FastProvDev.meshFastProvRcvOp · .addrGet) (if_pos ⟨hsel, rfl⟩)).symm
      | true =>
        rw [if_neg fun h => Bool.noConfusion h.2]
        exact (congrArg (FastProvDev.meshFastProvRcvOp · .addrGet)
          (if_neg fun h => Bool.noConfusion h.2)).symm
    · rw [if_neg hsel]
      exact (congrArg (FastProvDev.meshFastProvRcvOp · .addrGet) (if_neg fun h => hsel h.1)).symm
  · rw [if_neg hlen, if_neg (not_and_of_not_left _ hlen), ite_self]

/-! ### Accesses -/

theorem takeDefault_within (eleAddr : BitVec 16) :
    (takeDefault dev par clock eleAddr).Within Access.Ok ↔
      (sizeofMacAddrGet ≤ par.length ∧ dev.defaultAddrRandom = false → eleAddr ≠ 0x7f00) := by
  have hdivisor : Access.Ok (.divisor (0x8000 - 256 - eleAddr.toNat)) ↔ eleAddr ≠ 0x7f00 := by
    show (0x8000 - 256 - (eleAddr.toNat : ℤ)) ≠ 0 ↔ eleAddr ≠ 0x7f00
    bv_omega
  unfold takeDefault
  rw [within_ite]
  by_cases htake : sizeofMacAddrGet ≤ par.length ∧ dev.defaultAddrRandom = false
  · rw [if_pos htake, within_bind, tmpEleAddr, within_look, hdivisor,
      and_iff_left (within_pure _), forall_prop_of_true htake]
  · rw [if_neg htake]
    exact iff_of_true (within_pure _) fun h => absurd h htake

theorem answer_within (macGet : ℕ → Byte) :
    (answer cfg dev par clock macGet).Within Access.Ok ↔
      (Selects cfg (u16At macGet 0) → sizeofMacAddrGet ≤ par.length ∧
        dev.defaultAddrRandom = false → u16At macGet 2 ≠ 0x7f00) := by
  unfold answer
  rw [within_ite]
  by_cases hsel : Selects cfg (u16At macGet 0)
  · rw [if_pos hsel, within_bind, takeDefault_within, and_iff_left (within_pure _),
      forall_prop_of_true hsel]
  · rw [if_neg hsel]
    exact iff_of_true (within_pure _) fun h => absurd h hsel

/-- An address above the one asked for, where there is room for it. -/
theorem defaultEleAddr_bounds {eleAddr : BitVec 16} (h : eleAddr.toNat + 256 ≤ 0x7fff)
    (clock : BitVec 32) :
    eleAddr.toNat + 256 ≤ (FastProvDev.defaultEleAddr eleAddr clock).toNat ∧
      (FastProvDev.defaultEleAddr eleAddr clock).toNat ≤ 0x7fff := by
  have hdiv : (0 : ℤ) < 0x8000 - 256 - eleAddr.toNat := by omega
  have hnn := Int.tmod_nonneg (0x8000 - 256 - (eleAddr.toNat : ℤ))
    (Int.natCast_nonneg (clock.setWidth 16).toNat)
  have hlt := Int.tmod_lt_of_pos ((clock.setWidth 16).toNat : ℤ) hdiv
  unfold FastProvDev.defaultEleAddr
  generalize Int.tmod (clock.setWidth 16).toNat (0x8000 - 256 - eleAddr.toNat) = r at *
  have hmask : ∀ x : BitVec 16, (x &&& 0x7fff).toNat = x.toNat % 2 ^ 15 := fun x =>
    (BitVec.toNat_and x 0x7fff).trans (Nat.and_two_pow_sub_one_eq_mod x.toNat 15)
  rw [hmask, BitVec.toNat_ofInt]
  omega

theorem meshSetEleAdrLl_unicast (dev : FastProvDev) {adr : BitVec 16}
    (h : FastProvDev.isUnicast adr = true) :
    dev.meshSetEleAdrLl adr = { dev with eleAdrPrimary := adr } := if_pos h

/-! ### What a message may do -/

/-- The octets fit `mac_get`, and what the node divides by is not 0. -/
structure Harmless (cfg : DevConfig) (dev : FastProvDev) (par : List Byte) : Prop where
  fits : par.length ≤ sizeofMacAddrGet
  divides : par.length = sizeofMacAddrGet → Selects cfg (pidOf par) →
    dev.defaultAddrRandom = false → eleAddrOf par ≠ 0x7f00

/-- Nothing outside is written, nothing is divided by 0, and an address that the node takes is a
unicast address above the one in the message. -/
structure Safe (cfg : DevConfig) (dev : FastProvDev) (par : List Byte) (stack : ℕ → Byte)
    (clock : BitVec 32) : Prop where
  accesses : (cbVdMeshGetAddr cfg dev par stack clock).Within Access.Ok
  above : dev.defaultAddrRandom = false →
    (cbVdMeshGetAddr cfg dev par stack clock).val.dev.defaultAddrRandom = true →
      (eleAddrOf par).toNat + 256 ≤ 0x7fff →
        FastProvDev.isUnicast (cbVdMeshGetAddr cfg dev par stack clock).val.dev.eleAdrPrimary =
            true ∧
          (eleAddrOf par).toNat <
            (cbVdMeshGetAddr cfg dev par stack clock).val.dev.eleAdrPrimary.toNat

theorem cbVdMeshGetAddr_within (hneed : dev.notNeedProv = false) :
    (cbVdMeshGetAddr cfg dev par stack clock).Within Access.Ok ↔
      (dev.getMacEn = true → Harmless cfg dev par) := by
  cases hen : dev.getMacEn with
  | false =>
    have hoff : cbVdMeshGetAddr cfg dev par stack clock = pure ⟨dev, none⟩ :=
      if_pos (.inr (by rw [hen]; rfl))
    rw [hoff]
    exact iff_of_true (within_pure _) fun h => Bool.noConfusion h
  | true =>
    rw [cbVdMeshGetAddr_on hneed hen, within_bind, val_copyPar, answer_within,
      forall_prop_of_true rfl]
    have hcopy : (copyPar par stack).Within Access.Ok ↔ par.length ≤ sizeofMacAddrGet :=
      within_look _ _
    rw [hcopy]
    constructor
    · rintro ⟨hfits, hdivides⟩
      refine ⟨hfits, fun hlen hsel hfresh => ?_⟩
      rw [u16At_pid hlen.ge, u16At_eleAddr hlen.ge] at hdivides
      exact hdivides hsel ⟨hlen.ge, hfresh⟩
    · rintro ⟨hfits, hdivides⟩
      refine ⟨hfits, fun hsel ⟨hlen, hfresh⟩ => ?_⟩
      rw [u16At_pid hlen] at hsel
      rw [u16At_eleAddr hlen]
      exact hdivides (hfits.antisymm hlen) hsel hfresh

/-- A node that takes an address has all octets of one. -/
theorem eq_takeDefault_of_taken (hfresh : dev.defaultAddrRandom = false)
    (htaken : (cbVdMeshGetAddr cfg dev par stack clock).val.dev.defaultAddrRandom = true) :
    (cbVdMeshGetAddr cfg dev par stack clock).val.dev =
      (FastProvDev.meshSetEleAdrLl { dev with defaultAddrRandom := true }
        (FastProvDev.defaultEleAddr (eleAddrOf par) clock)).meshFastProvRcvOp .addrGet := by
  have hold : ∀ d : FastProvDev, d.defaultAddrRandom = dev.defaultAddrRandom →
      d.defaultAddrRandom ≠ true := fun d hd => by
    rw [hd, hfresh]
    exact Bool.false_ne_true
  unfold cbVdMeshGetAddr at *
  rw [val_ite, apply_ite Done.dev] at *
  by_cases hoff : dev.notNeedProv = true ∨ (!dev.getMacEn) = true
  · rw [if_pos hoff] at htaken
    exact absurd htaken (hold _ rfl)
  · rw [if_neg hoff, val_bind, val_copyPar, answer_dev, val_takeDefault] at *
    by_cases hsel : Selects cfg (u16At (copy stack 0 par) 0)
    · rw [if_pos hsel] at *
      by_cases hlen : sizeofMacAddrGet ≤ par.length
      · rw [if_pos ⟨hlen, hfresh⟩, u16At_eleAddr hlen]
      · rw [if_neg (not_and_of_not_left _ hlen)] at htaken
        exact absurd htaken (hold _ rfl)
    · rw [if_neg hsel] at htaken
      exact absurd htaken (hold _ rfl)

/-- An address that the node takes. -/
theorem cbVdMeshGetAddr_above (hfresh : dev.defaultAddrRandom = false)
    (htaken : (cbVdMeshGetAddr cfg dev par stack clock).val.dev.defaultAddrRandom = true)
    (hroom : (eleAddrOf par).toNat + 256 ≤ 0x7fff) :
    FastProvDev.isUnicast (cbVdMeshGetAddr cfg dev par stack clock).val.dev.eleAdrPrimary =
        true ∧
      (eleAddrOf par).toNat <
        (cbVdMeshGetAddr cfg dev par stack clock).val.dev.eleAdrPrimary.toNat := by
  obtain ⟨hge, hle⟩ := defaultEleAddr_bounds hroom clock
  have hunicast : FastProvDev.isUnicast (FastProvDev.defaultEleAddr (eleAddrOf par) clock) =
      true := decide_eq_true ⟨by omega, by omega⟩
  rw [eq_takeDefault_of_taken hfresh htaken, meshSetEleAdrLl_unicast _ hunicast]
  exact ⟨hunicast, by
    show (eleAddrOf par).toNat < (FastProvDev.defaultEleAddr (eleAddrOf par) clock).toNat
    omega⟩

/-- **An address-get is safe** exactly if its octets are harmless or the node does not look. -/
theorem addrGet_safe_iff (hneed : dev.notNeedProv = false) :
    Safe cfg dev par stack clock ↔ (dev.getMacEn = true → Harmless cfg dev par) := by
  rw [← cbVdMeshGetAddr_within hneed]
  exact ⟨Safe.accesses, fun h => ⟨h, cbVdMeshGetAddr_above⟩⟩

end

/-- A node out of the box, with product 1. -/
def boxed : FastProvDev :=
  FastProvDev.valInit ⟨meshFastProvValInit, false, false, none, .zero, 1, false, false, false⟩

def boxedCfg : DevConfig := ⟨0xA4C138112233, 1, 1⟩

/-- Room above 0x0100 is asked for, of any product. -/
theorem addrGet_safe_room :
    Safe boxedCfg boxed [0xff, 0xff, 0x00, 0x01] (fun _ => 0) 0x12345678 :=
  (addrGet_safe_iff rfl).mpr fun _ => ⟨by decide, by decide⟩

/-- A fifth octet is written behind `mac_get`, and with 0x7f00 the room to divide by is 0. -/
theorem addrGet_refuted : boxed.notNeedProv = false ∧
    ¬ Safe boxedCfg boxed [0xff, 0xff, 0x00, 0x01, 0x00] (fun _ => 0) 0x12345678 ∧
    ¬ Safe boxedCfg boxed [0xff, 0xff, 0x00, 0x7f] (fun _ => 0) 0x12345678 := by
  refine ⟨rfl, fun h => ?_, fun h => ?_⟩
  · exact absurd ((cbVdMeshGetAddr_within rfl).mp h.accesses rfl).fits (by decide)
  · exact absurd ((cbVdMeshGetAddr_within rfl).mp h.accesses rfl).divides (by decide)

end PirMesh.AddrGet
