import PirMesh.Library.Prog

/-! # Flash — The parameter store of `mesh_node.c`

`mesh_par_retrieve`, `mesh_flash_data_cmp` and `mesh_par_store` as flash
programs.  A parameter sector is a row of slots, each a four-byte flag word
and the parameter block; RAM variables passed by pointer (`*p_adr`, the `out`
buffer) are arguments and results. -/

namespace PirMesh

open Nor

/-! ### Constants -/

def flashSectorSize : Nat := 4096

def sizeSaveFlag : Nat := 4

def flashCheckSizeMax : Nat := 64

def saveFlagPre : Byte := 0xAF

def saveFlag : Byte := 0xA5

/-- The bytes of the little-endian word `save_flag`, whose value fits one byte. -/
def flagWord (b : Byte) : List Byte := [b, 0, 0, 0]

/-! ### Flash access -/

def flashReadPage (adr len : Nat) : Prog (List Byte) := Prog.readAt adr len

def flashWritePage (adr : Nat) (buf : List Byte) : Prog Unit := Prog.writeAt adr buf

def flashEraseSector (adr : Nat) : Prog Unit := Prog.eraseAt adr flashSectorSize

/-- `len_read`: the read-back compares chunks of `FLASH_CHECK_SIZE_MAX` bytes. -/
def lenRead (inp : List Byte) : Nat :=
  if inp.length > flashCheckSizeMax then flashCheckSizeMax else inp.length

/-- The loop of `mesh_flash_write_check`; `fuel` bounds the chunks left. -/
def flashWriteCheckLoop : Nat → Nat → List Byte → Prog Int
  | 0, _, _ => pure 0
  | fuel + 1, adr, inp =>
    if inp.length = 0 then pure 0
    else do
      let dataRead ← flashReadPage adr (lenRead inp)
      if dataRead ≠ inp.take (lenRead inp) then pure (-1)
      else flashWriteCheckLoop fuel (adr + lenRead inp) (inp.drop (lenRead inp))

def meshFlashWriteCheck (adr : Nat) (inp : List Byte) : Prog Int :=
  flashWriteCheckLoop inp.length adr inp

/-- The result of the check is dropped. -/
def flashWriteWithCheck (adr : Nat) (inp : List Byte) : Prog Unit := do
  flashWritePage adr inp
  let _ ← meshFlashWriteCheck adr inp
  pure ()

inductive FlashCmp
  | diffAfterAnd
  | allSame
  | sameAfterAnd
  deriving DecidableEq, Repr

/-- The loop of `mesh_flash_data_cmp`; `fuel` bounds the chunks left. -/
def flashDataCmpLoop : Nat → Nat → List Byte → Bool → Prog FlashCmp
  | 0, _, _, _ => pure .sameAfterAnd
  | fuel + 1, adr, inp, same =>
    if inp.length = 0 then pure .sameAfterAnd
    else do
      let dataRead ← flashReadPage adr (lenRead inp)
      if dataRead ≠ inp.take (lenRead inp) then
        if dataRead.zipWith (· &&& ·) (inp.take (lenRead inp)) ≠ inp.take (lenRead inp) then
          pure .diffAfterAnd
        else flashDataCmpLoop fuel (adr + lenRead inp) (inp.drop (lenRead inp)) false
      else if inp.length ≤ flashCheckSizeMax ∧ same = true then pure .allSame
      else flashDataCmpLoop fuel (adr + lenRead inp) (inp.drop (lenRead inp)) same

def meshFlashDataCmp (adr : Nat) (inp : List Byte) : Prog FlashCmp :=
  flashDataCmpLoop inp.length adr inp true

/-! ### Retrieve -/

structure ParRetrieve where
  err : Int
  out : List Byte
  pAdr : Nat
  deriving DecidableEq, Repr

/-- The loop body for each offset `i`, until the first blank flag. -/
def parRetrieveLoop (adrBase size : Nat) : List Nat → ParRetrieve → Prog ParRetrieve
  | [], r => pure r
  | i :: is, r => do
    let pAdr := adrBase + i
    let flag ← flashReadPage pAdr 1
    if flag = [saveFlag] then do
      let out ← flashReadPage (pAdr + sizeSaveFlag) size
      parRetrieveLoop adrBase size is ⟨0, out, pAdr⟩
    else if flag = [saveFlagPre] then parRetrieveLoop adrBase size is { r with pAdr := pAdr }
    else if flag ≠ [0xFF] then parRetrieveLoop adrBase size is { r with pAdr := pAdr }
    else pure { r with pAdr := pAdr }

/-- The values `for(i = 0; i < FLASH_SECTOR_SIZE; i += step)` gives `i`. -/
def sectorOffsets (step : Nat) : List Nat :=
  List.range' 0 ((flashSectorSize + step - 1) / step) step

def meshParRetrieve (out : List Byte) (pAdr adrBase size : Nat) : Prog ParRetrieve :=
  parRetrieveLoop adrBase size (sectorOffsets (size + sizeSaveFlag)) ⟨-1, out, pAdr⟩

/-! ### Store -/

/-- The sectors `mesh_save_map` lists, in its order. -/
def meshSaveMap : List Nat :=
  [0x38000, 0x31000, 0x32000, 0x33000, 0x3a000, 0x72000, 0x71000, 0x35000, 0x36000, 0x70000]

/-- The sector is erased when the slot would not leave a blank flag word behind it. -/
def parStoreWrap (pAdr adrBase sizeSave : Nat) : Prog Nat :=
  if pAdr > adrBase + flashSectorSize - sizeSave - sizeSaveFlag then do
    flashEraseSector adrBase
    pure adrBase
  else pure pAdr

/-- Whether the slot before `pAdr` already holds `inp`; asked for the sectors of
the save map only. -/
def parStoreSame (saveMap : List Nat) (inp : List Byte) (pAdr adrBase sizeSave : Nat) :
    Prog Bool :=
  if pAdr ≥ adrBase + sizeSave ∧ adrBase ∈ saveMap then do
    let ret ← meshFlashDataCmp (pAdr - sizeSave + sizeSaveFlag) inp
    pure (decide (ret = .allSame))
  else pure false

/-- The slot is opened, filled and committed, and the flag before it cleared. -/
def parStoreWrite (inp : List Byte) (pAdr adrBase sizeSave : Nat) : Prog Unit := do
  flashWriteWithCheck pAdr (flagWord saveFlagPre)
  flashWriteWithCheck (pAdr + sizeSaveFlag) inp
  flashWriteWithCheck pAdr (flagWord saveFlag)
  if pAdr ≥ adrBase + sizeSave then
    flashWritePage (pAdr - sizeSave) (flagWord 0)
  else pure ()

/-- Stores `inp` and returns the new `*p_adr`; `saveMap` are the sectors of `mesh_save_map`. -/
def meshParStore (saveMap : List Nat) (inp : List Byte) (pAdr adrBase size : Nat) :
    Prog Nat := do
  let sizeSave := size + sizeSaveFlag
  let pAdr ← parStoreWrap pAdr adrBase sizeSave
  let same ← parStoreSame saveMap inp pAdr adrBase sizeSave
  if same then pure pAdr
  else do
    parStoreWrite inp pAdr adrBase sizeSave
    pure (pAdr + sizeSave)

end PirMesh
