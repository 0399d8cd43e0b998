import Mathlib.Data.List.Flatten
import PirMesh.Library.Nor
import PirMesh.Library.Records
import PirMesh.Library.Words

/-! # Device — The record store (`telink_sdk_mible_api.c`)

Records with an identifier lie one behind another in a sector of the flash.  Writing one sets the
identifier of the old one to zero and puts the new one behind the others; when the sector is full,
the records that are left go to a second sector and back.

`Holds` is the invariant: the sector is a list of slots, dead or alive, and blank behind them.  The
slots that are alive are the records, in the order in which they were written; every run of calls
does to them what `Records.step` says, as long as no identifier is one of the two special values and
the records fit (`run_refines`). -/

namespace PirMesh.MiRecord

open Nor Words

/-! ### Data -/

/-- `sizeof(telink_record_t)` and the octets of `dat` in it. -/
def sizeRecord : ℕ := 16

def sizeDat : ℕ := 13

/-- `RECORD_RESERVE_SPACE` -/
def recordReserveSpace : ℕ := 16

/-- `RECORD_MAX_LEN` -/
def recordMaxLen : ℕ := 250

def sectorSize : ℕ := 4096

/-- `rec_id` and `len` of a `telink_record_t` that was read. -/
def recId (buf : List Byte) : BitVec 16 := word buf 0

def recLen (buf : List Byte) : ℕ := (buf.getD 2 0).toNat

/-- `mible_status_t` -/
inductive MiStatus
  | success
  | errInvalidLength
  | errInvalidAddr
  | errInvalidParam
  deriving DecidableEq, Repr

/-- `MIBLE_ARCH_EVT_RECORD_DELETE` and `MIBLE_ARCH_EVT_RECORD_WRITE`, with their parameters. -/
inductive ArchEvt
  | recordDelete (id : BitVec 16) (status : MiStatus)
  | recordWrite (id : BitVec 16) (status : MiStatus)
  deriving DecidableEq, Repr

/-- The flash and `flash_idx_adr`. -/
structure RecordPart where
  flash : Flash
  flashIdxAdr : ℕ

section

variable (A : ℕ)

/-- `FLASH_ADR_MI_RECORD_TMP` and `FLASH_ADR_MI_RECORD_MAX`; `A` is `FLASH_ADR_MI_RECORD`. -/
def recordTmp : ℕ := A + sectorSize

def recordMax : ℕ := A + 2 * sectorSize

/-! ### Finding -/

/-- The loop of `telink_record_part_init`; `none` when the turns run out. -/
def partInitLoop (f : Flash) : ℕ → ℕ → Option ℕ
  | 0, _ => none
  | n + 1, adr =>
    let buf := f.read adr sizeRecord
    if recId buf = 0xffff ∨ adr ≥ recordTmp A then some adr
    else partInitLoop f n (adr + (recLen buf + 3))

def telinkRecordPartInit (f : Flash) : Option RecordPart :=
  (partInitLoop A f sectorSize A).map (⟨f, ·⟩)

/-- The loop of `find_record_adr`: the place in the sector, and the window of the flash with the
place in it. -/
def findLoop (f : Flash) (id : BitVec 16) : ℕ → ℕ → ℕ → List Byte → Option (Option ℕ)
  | 0, _, _, _ => none
  | n + 1, idx, recordIdx, buf =>
    if idx + recordReserveSpace < 4096 then
      let window := if recordIdx + 3 > 512 then (0, f.read (A + idx) 512) else (recordIdx, buf)
      let p := window.2.drop window.1
      if recId p = 0xffff then some none
      else if recId p = id then some (some (A + idx))
      else findLoop f id n (idx + (recLen p + 3)) (window.1 + (recLen p + 3)) window.2
    else some none

/-- The address of a record, `none` inside for `FALSE`. -/
def findRecordAdr (f : Flash) (id : BitVec 16) : Option (Option ℕ) :=
  findLoop A f id sectorSize 0 0 (f.read A 512)

/-! ### Cleaning -/

/-- `telink_write_flash` -/
def telinkWriteFlash (s : RecordPart) (buf : List Byte) : RecordPart :=
  ⟨s.flash.write s.flashIdxAdr buf, s.flashIdxAdr + buf.length⟩

/-- A record to the second sector: its address, where it goes, what is left of it, the buffer. -/
def cpyRecord : ℕ → Flash → ℕ → ℕ → ℕ → List Byte → Option (Flash × ℕ × ℕ)
  | 0, _, _, _, _, _ => none
  | n + 1, f, adr, cpy, totalLen, buf =>
    if totalLen = 0 then some (f, adr, cpy)
    else if totalLen > sizeRecord then
      let f := f.write cpy buf
      cpyRecord n f (adr + sizeRecord) (cpy + sizeRecord) (totalLen - sizeRecord)
        (f.read (adr + sizeRecord) sizeRecord)
    else cpyRecord n (f.write cpy (buf.take totalLen)) (adr + totalLen) (cpy + totalLen) 0 buf

/-- The records that are alive to the second sector: where they end. -/
def cleanLoop : ℕ → Flash → ℕ → ℕ → Option (Flash × ℕ)
  | 0, _, _, _ => none
  | n + 1, f, adr, cpy =>
    let buf := f.read adr sizeRecord
    if recId buf = 0xffff ∨ adr ≥ recordMax A then some (f, cpy)
    else if recId buf = 0 then cleanLoop n f (adr + (recLen buf + 3)) cpy
    else
      -- `total_len` has 8 bits
      (cpyRecord 17 f adr cpy ((recLen buf + 3) % 256) buf).bind fun (f, adr, cpy) =>
        cleanLoop n f adr cpy

/-- The octets of the second sector back. -/
def cpyBack : ℕ → Flash → ℕ → ℕ → Option Flash
  | 0, _, _, _ => none
  | n + 1, f, idx, cnt =>
    if cnt = 0 then some f
    else if cnt > sizeRecord then
      cpyBack n (f.write (A + idx) (f.read (recordTmp A + idx) sizeRecord)) (idx + sizeRecord)
        (cnt - sizeRecord)
    else cpyBack n (f.write (A + idx) (f.read (recordTmp A + idx) cnt)) idx 0

def telinkRecordCleanCpy (s : RecordPart) : Option RecordPart :=
  (cleanLoop A (2 * sectorSize + 1) (s.flash.erase (recordTmp A) sectorSize) A (recordTmp A)).bind
    fun (f, cpy) =>
      (cpyBack A (sectorSize + 1) (f.erase A sectorSize) 0 (cpy - recordTmp A)).map
        (⟨·, A + (cpy - recordTmp A)⟩)

/-! ### The calls -/

def telinkRecordDelete (s : RecordPart) (id : BitVec 16) :
    Option (RecordPart × MiStatus × List ArchEvt) :=
  (findRecordAdr A s.flash id).map fun
    | none => (s, .errInvalidParam, [.recordDelete id .errInvalidParam])
    | some adr =>
      ({ s with flash := s.flash.write adr [0, 0] }, .success, [.recordDelete id .success])

/-- The octets that are read; a null pointer for them is refused. -/
def telinkRecordRead (s : RecordPart) (id : BitVec 16) (null : Bool) (len : ℕ) :
    Option (MiStatus × List Byte) :=
  if len > recordMaxLen ∨ len = 0 then some (.errInvalidLength, [])
  else if null then some (.errInvalidAddr, [])
  else
    (findRecordAdr A s.flash id).map fun
      | none => (.errInvalidParam, [])
      | some adr =>
        let buf := s.flash.read adr sizeRecord
        if len > recLen buf then (.errInvalidLength, [])
        else if len ≤ sizeDat then (.success, (buf.drop 3).take len)
        else (.success, s.flash.read (adr + 3) len)

/-- The rest of the data, in the turns left. -/
def writeRest : ℕ → RecordPart → List Byte → Option RecordPart
  | 0, _, _ => none
  | n + 1, s, data =>
    if data.length = 0 then some s
    else if data.length > sizeRecord then
      writeRest n (telinkWriteFlash s (data.take sizeRecord)) (data.drop sizeRecord)
    else writeRest n (telinkWriteFlash s data) []

/-- `rec_id` and `len` as they are written. -/
def header (id : BitVec 16) (len : ℕ) : List Byte :=
  wordBytes id ++ [.ofNat 8 len]

/-- The part of `telink_record_write` from the header on. -/
def putRecord (s : RecordPart) (id : BitVec 16) (data : List Byte) : Option RecordPart :=
  if data.length > sizeDat then
    writeRest 17 (telinkWriteFlash s (header id data.length ++ data.take sizeDat))
      (data.drop sizeDat)
  else writeRest 17 (telinkWriteFlash s (header id data.length ++ data)) []

def telinkRecordWrite (s : RecordPart) (id : BitVec 16) (data : List Byte) :
    Option (RecordPart × MiStatus × List ArchEvt) :=
  if data.length > recordMaxLen ∨ data.length = 0 then
    some (s, .errInvalidLength, [.recordWrite id .errInvalidLength])
  else
    (telinkRecordDelete A s id).bind fun (s, _, evts) =>
      ((if s.flashIdxAdr + (data.length + 3) + recordReserveSpace > recordTmp A then
          telinkRecordCleanCpy A s
        else some s).bind (putRecord · id data)).map
        (·, .success, evts ++ [.recordWrite id .success])

end

/-! ### Slots -/

/-- A record in the flash, or what is left of one: the length has an octet. -/
structure Slot where
  id : BitVec 16
  dat : List Byte
  fits : dat.length < 256

/-- Slots stand one behind another. -/
def slots : Records.Kind Byte Slot where
  put s := header s.id s.dat.length ++ s.dat
  get m p := ⟨m (p + 1) ++ m p, Reassembly.read m (p + 3) (m (p + 2)).toNat, by
    rw [Reassembly.length_read]
    exact (m (p + 2)).isLt⟩
  len m p := (m (p + 2)).toNat + 3
  len_pos _ _ := Nat.succ_pos _
  put_get m p := by
    have hhead : header (m (p + 1) ++ m p) (m (p + 2)).toNat = Reassembly.read m p 3 := by
      rw [header, wordBytes_append, BitVec.ofNat_toNat, BitVec.setWidth_eq]
      rfl
    show header (m (p + 1) ++ m p) (Reassembly.read m (p + 3) (m (p + 2)).toNat).length ++
      Reassembly.read m (p + 3) (m (p + 2)).toNat = _
    rw [Reassembly.length_read, hhead, ← Reassembly.read_add, Nat.add_comm 3]
  get_put m p s h := by
    obtain ⟨id, dat, fits⟩ := s
    have hlen : (header id dat.length).length = 3 := rfl
    rw [List.length_append, hlen, Reassembly.read_add] at h
    obtain ⟨hhead, hdat⟩ := List.append_inj h rfl
    have h0 : m p = id.setWidth 8 := (List.cons.inj hhead).1
    have h1 : m (p + 1) = (id >>> 8).setWidth 8 := (List.cons.inj (List.cons.inj hhead).2).1
    have h2 : m (p + 2) = .ofNat 8 dat.length :=
      (List.cons.inj (List.cons.inj (List.cons.inj hhead).2).2).1
    have hn : (m (p + 2)).toNat = dat.length := by
      rw [h2, BitVec.toNat_ofNat, Nat.mod_eq_of_lt fits]
    have hid : m (p + 1) ++ m p = id := by
      rw [h0, h1, append_wordBytes]
    simp only [hid, hn, hdat]

@[simp] theorem length_header (id : BitVec 16) (len : ℕ) : (header id len).length = 3 := rfl

theorem length_put (r : Slot) : (slots.put r).length = r.dat.length + 3 := by
  rw [slots, List.length_append, length_header, Nat.add_comm]

/-- What the code reads of a slot. -/
theorem recId_read (f : Flash) (p : ℕ) {n : ℕ} (h : 2 ≤ n) :
    recId (f.read p n) = (slots.get f p).id := by
  obtain ⟨k, rfl⟩ := Nat.exists_eq_add_of_le h
  rw [Flash.read_add]
  rfl

theorem recLen_read (f : Flash) (p : ℕ) {n : ℕ} (h : 3 ≤ n) :
    recLen (f.read p n) = (slots.get f p).dat.length := by
  obtain ⟨k, rfl⟩ := Nat.exists_eq_add_of_le h
  rw [Flash.read_add]
  exact (Reassembly.length_read ..).symm

theorem len_slots (f : Flash) (p : ℕ) : slots.len f p = (slots.get f p).dat.length + 3 :=
  congrArg (· + 3) (Reassembly.length_read ..).symm

/-- A blank word is no slot. -/
theorem recId_blank {f : Flash} {p n : ℕ} (hn : 2 ≤ n)
    (h : ∀ a, p ≤ a → a < p + 2 → f a = blank) : recId (f.read p n) = 0xffff := by
  rw [recId_read f p hn]
  show (f (p + 1) ++ f p : BitVec 16) = _
  rw [h p (by omega) (by omega), h (p + 1) (by omega) (by omega)]
  rfl

/-! ### Finding a slot -/

/-- Where the slot of a record is, of slots from `p` on. -/
def findSlot (id : BitVec 16) : ℕ → List Slot → Option ℕ
  | _, [] => none
  | p, r :: log => if r.id = id then some p else findSlot id (p + (r.dat.length + 3)) log

theorem findSlot_eq_none {id : BitVec 16} {p : ℕ} {log : List Slot} :
    findSlot id p log = none ↔ ∀ r ∈ log, r.id ≠ id := by
  induction log generalizing p with
  | nil => simp [findSlot]
  | cons r log ih =>
    rw [findSlot, List.forall_mem_cons]
    split
    · rename_i hid
      simp [hid]
    · rename_i hid
      simp [hid, ih]

theorem exists_of_findSlot {id : BitVec 16} {p q : ℕ} {log : List Slot}
    (h : findSlot id p log = some q) :
    ∃ l₁ r l₂, log = l₁ ++ r :: l₂ ∧ r.id = id ∧ (∀ r' ∈ l₁, r'.id ≠ id) ∧
      q = slots.finish p l₁ := by
  induction log generalizing p with
  | nil => cases h
  | cons r log ih =>
    rw [findSlot] at h
    split at h
    · rename_i hid
      exact ⟨[], r, log, rfl, hid, by simp, (Option.some.inj h).symm⟩
    · rename_i hne
      obtain ⟨l₁, r', l₂, rfl, hid, hl₁, rfl⟩ := ih h
      refine ⟨r :: l₁, r', l₂, rfl, hid, List.forall_mem_cons.mpr ⟨hne, hl₁⟩, ?_⟩
      rw [Records.Kind.finish_put, length_put]

/-- The window has the header of the slot in it. -/
theorem exists_window (A : ℕ) (f : Flash) {idx recordIdx : ℕ} (hidx : recordIdx ≤ idx) :
    ∃ i ≤ idx, i + 3 ≤ 512 ∧
      (if recordIdx + 3 > 512 then (0, f.read (A + idx) 512)
        else (recordIdx, f.read (A + (idx - recordIdx)) 512)) =
      (i, f.read (A + (idx - i)) 512) := by
  split
  · exact ⟨0, Nat.zero_le _, by omega, rfl⟩
  · exact ⟨recordIdx, hidx, by omega, rfl⟩

theorem drop_window (A : ℕ) (f : Flash) {idx i : ℕ} (h : i ≤ idx) :
    (f.read (A + (idx - i)) 512).drop i = f.read (A + idx) (512 - i) := by
  rw [Flash.drop_read]
  congr 1
  omega

/-- The loop finds the slot, or nothing where the slots end. -/
theorem findLoop_eq {A : ℕ} {f : Flash} {id : BitVec 16} {log : List Slot}
    (hids : ∀ r ∈ log, r.id ≠ 0xffff) {n idx recordIdx : ℕ} (hidx : recordIdx ≤ idx)
    (hat : slots.At f (A + idx) log) (hroom : slots.finish (A + idx) log + 16 ≤ A + 4096)
    (hblank : ∀ a, slots.finish (A + idx) log ≤ a → a < A + 4096 → f a = blank)
    (hn : log.length < n) :
    findLoop A f id n idx recordIdx (f.read (A + (idx - recordIdx)) 512) =
      some (findSlot id (A + idx) log) := by
  induction log generalizing n idx recordIdx with
  | nil =>
    obtain ⟨n, rfl⟩ := Nat.exists_eq_succ_of_ne_zero (Nat.ne_of_gt hn)
    obtain ⟨i, hi, hi3, hwin⟩ := exists_window A f hidx
    rw [Records.Kind.finish_nil] at hblank hroom
    rw [findLoop, findSlot, hwin]
    simp only [drop_window A f hi, recId_blank (n := 512 - i) (by omega)
      fun a h h' => hblank a h (by omega)]
    split <;> rfl
  | cons r log ih =>
    obtain ⟨n, rfl⟩ := Nat.exists_eq_succ_of_ne_zero (Nat.ne_of_gt (Nat.zero_lt_of_lt hn))
    obtain ⟨i, hi, hi3, hwin⟩ := exists_window A f hidx
    obtain ⟨hr, hlog⟩ := Records.Kind.at_cons.mp hat
    have hfin := Records.Kind.finish_cons hat
    rw [len_slots, hr] at hlog hfin
    rw [hfin] at hroom hblank
    have hlt := Records.Kind.le_finish (K := slots) (A + idx + (r.dat.length + 3)) log
    rw [findLoop, findSlot, hwin, if_pos (show idx + recordReserveSpace < 4096 by
      unfold recordReserveSpace; omega)]
    simp only [drop_window A f hi, recId_read f _ (show 2 ≤ 512 - i by omega),
      recLen_read f _ (show 3 ≤ 512 - i by omega), hr]
    rw [if_neg (hids r List.mem_cons_self)]
    split
    · rfl
    · have hnext : findLoop A f id n (idx + (r.dat.length + 3)) (i + (r.dat.length + 3))
          (f.read (A + (idx + (r.dat.length + 3) - (i + (r.dat.length + 3)))) 512) =
          some (findSlot id (A + (idx + (r.dat.length + 3))) log) :=
        ih (fun r hr => hids r (List.mem_cons_of_mem _ hr)) (by omega) (by rwa [← Nat.add_assoc])
          (by rwa [← Nat.add_assoc]) (by rwa [← Nat.add_assoc]) (Nat.lt_of_succ_lt_succ hn)
      rwa [Nat.add_sub_add_right, ← Nat.add_assoc A] at hnext

/-! ### The records -/

/-- The records, in the order in which they were written. -/
abbrev Store := List (BitVec 16 × List Byte)

namespace Store

def without (l : Store) (id : BitVec 16) : Store := l.filter (·.1 ≠ id)

/-- What the slots of the records take. -/
def size (l : Store) : ℕ := (l.map fun r => r.2.length + 3).sum

def Keyed (l : Store) : Prop := (l.map Prod.fst).Nodup

/-- What a deletion answers. -/
def deleted (l : Store) (id : BitVec 16) : MiStatus :=
  if (l.lookup id).isSome then .success else .errInvalidParam

/-- What a reading answers. -/
def read (l : Store) (id : BitVec 16) (null : Bool) (len : ℕ) : MiStatus × List Byte :=
  if len > recordMaxLen ∨ len = 0 then (.errInvalidLength, [])
  else if null then (.errInvalidAddr, [])
  else
    match l.lookup id with
    | none => (.errInvalidParam, [])
    | some data => if len > data.length then (.errInvalidLength, []) else (.success, data.take len)

variable {l l' : Store} {id : BitVec 16} {data : List Byte}

theorem without_append : (l ++ l').without id = l.without id ++ l'.without id :=
  List.filter_append ..

theorem without_eq_self : l.without id = l ↔ id ∉ l.map Prod.fst := by
  unfold without
  rw [List.filter_eq_self, List.mem_map]
  constructor
  · rintro h ⟨r, hr, rfl⟩
    simpa using h r hr
  · intro h r hr
    simpa using fun hid => h ⟨r, hr, hid⟩

theorem lookup_eq_none : l.lookup id = none ↔ id ∉ l.map Prod.fst := by
  rw [List.lookup_eq_none_iff, List.mem_map]
  constructor
  · rintro h ⟨r, hr, rfl⟩
    simpa using h r hr
  · intro h r hr
    simpa using fun hid => h ⟨r, hr, hid.symm⟩

theorem notMem_without (l : Store) (id : BitVec 16) : id ∉ (l.without id).map Prod.fst := by
  rw [List.mem_map]
  rintro ⟨r, hr, rfl⟩
  simp [without] at hr

theorem Keyed.without (h : l.Keyed) (id : BitVec 16) : (l.without id).Keyed :=
  h.sublist (List.filter_sublist.map _)

/-- A record that is written is the last one. -/
theorem Keyed.concat (h : l.Keyed) (id : BitVec 16) (data : List Byte) :
    Keyed (l.without id ++ [(id, data)]) := by
  unfold Keyed
  rw [List.map_append, List.nodup_append]
  refine ⟨h.without id, List.nodup_singleton _, fun a ha b hb => ?_⟩
  obtain rfl : b = id := List.mem_singleton.mp hb
  rintro rfl
  exact notMem_without l a ha

end Store

/-- The slots that are not deleted. -/
def alive (log : List Slot) : List Slot := log.filter (·.id ≠ 0)

/-- The records of the slots. -/
def live (log : List Slot) : Store := (alive log).map fun r => (r.id, r.dat)

theorem live_append (l₁ l₂ : List Slot) : live (l₁ ++ l₂) = live l₁ ++ live l₂ := by
  rw [live, alive, List.filter_append, List.map_append]
  rfl

theorem alive_cons {r : Slot} (h : r.id ≠ 0) (log : List Slot) :
    alive (r :: log) = r :: alive log :=
  List.filter_cons_of_pos (by simpa using h)

theorem alive_cons_dead {r : Slot} (h : r.id = 0) (log : List Slot) :
    alive (r :: log) = alive log :=
  List.filter_cons_of_neg (by simpa using h)

theorem live_cons {r : Slot} (h : r.id ≠ 0) (log : List Slot) :
    live (r :: log) = (r.id, r.dat) :: live log := by
  rw [live, alive_cons h]
  rfl

theorem live_cons_dead {r : Slot} (h : r.id = 0) (log : List Slot) :
    live (r :: log) = live log := by
  rw [live, alive_cons_dead h]
  rfl

/-- Cleaning has nothing more to clean. -/
theorem live_alive (log : List Slot) : live (alive log) = live log := by
  rw [live, alive, alive, List.filter_filter]
  simp only [Bool.and_self]
  rfl

theorem mem_keys_live {id : BitVec 16} {log : List Slot} (hid : id ≠ 0) :
    id ∈ (live log).map Prod.fst ↔ ∃ r ∈ log, r.id = id := by
  rw [live, alive, List.map_map, List.mem_map]
  constructor
  · rintro ⟨r, hr, rfl⟩
    exact ⟨r, (List.mem_filter.mp hr).1, rfl⟩
  · rintro ⟨r, hr, rfl⟩
    exact ⟨r, List.mem_filter.mpr ⟨hr, by simpa using hid⟩, rfl⟩

/-- What the slots of the records take. -/
theorem length_putAll_alive (log : List Slot) :
    (slots.putAll (alive log)).length = (live log).size := by
  unfold live Store.size
  induction alive log with
  | nil => rfl
  | cons r log ih =>
    rw [Records.Kind.putAll_cons, List.length_append, length_put, ih, List.map_cons, List.map_cons,
      List.sum_cons]

/-! ### The invariant -/

/-- A slot that was written. -/
structure Slot.Ok (r : Slot) : Prop where
  id_ne : r.id ≠ 0xffff
  len_pos : 0 < r.dat.length
  len_le : r.dat.length ≤ recordMaxLen

/-- The sector is the slots and blank behind them. -/
structure Holds (A : ℕ) (log : List Slot) (s : RecordPart) : Prop where
  slotsAt : slots.At s.flash A log
  idx : s.flashIdxAdr = slots.finish A log
  behind : ∀ a, slots.finish A log ≤ a → a < A + 4096 → s.flash a = blank
  room : slots.finish A log + recordReserveSpace ≤ A + 4096
  ok : ∀ r ∈ log, r.Ok
  keyed : (live log).Keyed

/-- Outside the two sectors nothing has changed. -/
def SameOutside (A : ℕ) (s s' : RecordPart) : Prop :=
  ∀ a, a < A ∨ recordMax A ≤ a → s'.flash a = s.flash a

theorem SameOutside.refl (A : ℕ) (s : RecordPart) : SameOutside A s s := fun _ _ => rfl

theorem SameOutside.trans {A : ℕ} {s s' s'' : RecordPart} (h : SameOutside A s s')
    (h' : SameOutside A s' s'') : SameOutside A s s'' :=
  fun a ha => (h' a ha).trans (h a ha)

section

variable {A : ℕ} {log : List Slot} {s : RecordPart} {id : BitVec 16}

/-- The slots are fewer than the turns of the loops. -/
theorem length_le_putAll (log : List Slot) : log.length ≤ (slots.putAll log).length := by
  induction log with
  | nil => exact Nat.le_refl _
  | cons r log ih =>
    rw [Records.Kind.putAll_cons, List.length_append, length_put, List.length_cons]
    omega

theorem Holds.length_lt (h : Holds A log s) : log.length < sectorSize := by
  have hle := length_le_putAll log
  have hroom := h.room
  unfold Records.Kind.finish recordReserveSpace at hroom
  unfold sectorSize
  omega

theorem Holds.findRecordAdr (h : Holds A log s) (id : BitVec 16) :
    findRecordAdr A s.flash id = some (findSlot id A log) :=
  findLoop_eq (fun r hr => (h.ok r hr).id_ne) (Nat.le_refl 0) h.slotsAt h.room h.behind h.length_lt

/-- A record that is not found is none of them. -/
theorem lookup_of_findSlot_none (hid : id ≠ 0) (h : findSlot id A log = none) :
    (live log).lookup id = none := by
  rw [Store.lookup_eq_none, mem_keys_live hid]
  rintro ⟨r, hr, hr'⟩
  exact findSlot_eq_none.mp h r hr hr'

/-- One that is found is the first with its identifier. -/
theorem lookup_split {l₁ l₂ : List Slot} {r : Slot} (hid : r.id ≠ 0)
    (hl₁ : ∀ r' ∈ l₁, r'.id ≠ r.id) : (live (l₁ ++ r :: l₂)).lookup r.id = some r.dat := by
  have hnone : (live l₁).lookup r.id = none := by
    rw [Store.lookup_eq_none, mem_keys_live hid]
    rintro ⟨r', hr', heq⟩
    exact hl₁ r' hr' heq
  rw [live_append, live_cons hid, List.lookup_append, hnone, List.lookup_cons_self]
  rfl

/-! ### Deleting -/

/-- A slot whose record is deleted. -/
def Slot.dead (r : Slot) : Slot := { r with id := 0 }

/-- The slots with one of them and with its record deleted. -/
theorem putAll_dead (r : Slot) (l₂ : List Slot) : ∃ rest,
    slots.putAll (r :: l₂) = wordBytes r.id ++ rest ∧
    slots.putAll (r.dead :: l₂) = [0, 0] ++ rest := by
  have hzero : wordBytes 0 = [0, 0] := by decide
  have hput : ∀ r : Slot,
      slots.putAll (r :: l₂) =
        wordBytes r.id ++ ([.ofNat 8 r.dat.length] ++ (r.dat ++ slots.putAll l₂)) := fun _ => by
    rw [Records.Kind.putAll_cons]
    show wordBytes _ ++ _ ++ _ ++ _ = _
    rw [List.append_assoc, List.append_assoc]
  exact ⟨_, hput r, hzero ▸ hput r.dead⟩

/-- Two zeros over the identifier are a deletion of the slot. -/
theorem at_dead {f : Flash} {l₁ l₂ : List Slot} {r : Slot}
    (h : slots.At f A (l₁ ++ r :: l₂)) :
    slots.At (f.write (slots.finish A l₁) [0, 0]) A (l₁ ++ r.dead :: l₂) := by
  obtain ⟨h₁, h₂⟩ := Records.Kind.at_append.mp h
  refine Records.Kind.at_append.mpr
    ⟨h₁.congr fun a _ ha => Flash.write_outside f (.inl ha), ?_⟩
  obtain ⟨rest, hrest, hdead⟩ := putAll_dead r l₂
  unfold Records.Kind.At at h₂ ⊢
  rw [hrest, Records.read_append_iff] at h₂
  rw [hdead, Records.read_append_iff]
  exact ⟨Flash.read_write_zeros f _ 2,
    (Flash.read_write_outside f (.inr (Nat.le_refl _))).trans h₂.2⟩

theorem live_dead {l₁ l₂ : List Slot} {r : Slot} (hid : r.id ≠ 0)
    (hkeyed : (live (l₁ ++ r :: l₂)).Keyed) :
    live (l₁ ++ r.dead :: l₂) = (live (l₁ ++ r :: l₂)).without r.id := by
  rw [live_append, live_append, live_cons hid, live_cons_dead rfl, Store.without_append]
  unfold Store.Keyed at hkeyed
  rw [live_append, live_cons hid, List.map_append, List.map_cons, List.nodup_append] at hkeyed
  obtain ⟨-, hnodup, hdisj⟩ := hkeyed
  have h₁ : r.id ∉ (live l₁).map Prod.fst := fun hmem =>
    hdisj r.id hmem r.id List.mem_cons_self rfl
  have h₂ : r.id ∉ (live l₂).map Prod.fst := (List.nodup_cons.mp hnodup).1
  have hhead : Store.without ((r.id, r.dat) :: live l₂) r.id = (live l₂).without r.id :=
    List.filter_cons_of_neg (by simp)
  rw [Store.without_eq_self.mpr h₁, hhead, Store.without_eq_self.mpr h₂]

theorem finish_dead (A : ℕ) (l₁ : List Slot) (r : Slot) (l₂ : List Slot) :
    slots.finish A (l₁ ++ r.dead :: l₂) = slots.finish A (l₁ ++ r :: l₂) := by
  rw [Records.Kind.finish_append, Records.Kind.finish_append, Records.Kind.finish_put,
    Records.Kind.finish_put, length_put, length_put]
  rfl

theorem Holds.dead {l₁ l₂ : List Slot} {r : Slot} (h : Holds A (l₁ ++ r :: l₂) s) (hid : r.id ≠ 0) :
    Holds A (l₁ ++ r.dead :: l₂)
      { s with flash := s.flash.write (slots.finish A l₁) [0, 0] } where
  slotsAt := at_dead h.slotsAt
  idx := h.idx.trans (finish_dead A l₁ r l₂).symm
  behind a ha ha' := by
    rw [finish_dead] at ha
    refine (Flash.write_outside _ (.inr ?_)).trans (h.behind a ha ha')
    rw [Records.Kind.finish_append, Records.Kind.finish_put, length_put] at ha
    have hle := Records.Kind.le_finish (K := slots) (slots.finish A l₁ + (r.dat.length + 3)) l₂
    simp only [List.length_cons, List.length_nil]
    omega
  room := (finish_dead A l₁ r l₂).symm ▸ h.room
  ok r' hr' := by
    rcases List.mem_append.mp hr' with hmem | hmem
    · exact h.ok r' (List.mem_append_left _ hmem)
    · rcases List.mem_cons.mp hmem with rfl | hmem
      · have hr := h.ok r (List.mem_append_right _ List.mem_cons_self)
        exact ⟨show (0 : BitVec 16) ≠ 0xffff by decide, hr.len_pos, hr.len_le⟩
      · exact h.ok r' (List.mem_append_right _ (List.mem_cons_of_mem r hmem))
  keyed := live_dead hid h.keyed ▸ h.keyed.without r.id

theorem Holds.sameOutside_dead {l₁ l₂ : List Slot} {r : Slot} (h : Holds A (l₁ ++ r :: l₂) s) :
    SameOutside A s { s with flash := s.flash.write (slots.finish A l₁) [0, 0] } := fun a ha => by
  have hroom := h.room
  rw [Records.Kind.finish_append, Records.Kind.finish_put, length_put] at hroom
  have hle := Records.Kind.le_finish (K := slots) A l₁
  have hle' := Records.Kind.le_finish (K := slots) (slots.finish A l₁ + (r.dat.length + 3)) l₂
  unfold recordMax sectorSize at ha
  refine Flash.write_outside _ (ha.imp (fun h => by omega) fun h => ?_)
  simp only [List.length_cons, List.length_nil]
  omega

/-- A deletion takes the record away. -/
theorem Holds.delete (h : Holds A log s) (hid : id ≠ 0) :
    ∃ log' s', telinkRecordDelete A s id =
        some (s', (live log).deleted id, [.recordDelete id ((live log).deleted id)]) ∧
      Holds A log' s' ∧ SameOutside A s s' ∧ live log' = (live log).without id := by
  rw [telinkRecordDelete, h.findRecordAdr]
  cases hfind : findSlot id A log with
  | none =>
    have hnone := lookup_of_findSlot_none hid hfind
    refine ⟨log, s, ?_, h, .refl A s,
      (Store.without_eq_self.mpr (Store.lookup_eq_none.mp hnone)).symm⟩
    rw [Store.deleted, hnone]
    rfl
  | some q =>
    obtain ⟨l₁, r, l₂, rfl, rfl, hl₁, rfl⟩ := exists_of_findSlot hfind
    refine ⟨_, _, ?_, h.dead hid, h.sameOutside_dead, live_dead hid h.keyed⟩
    rw [Store.deleted, lookup_split hid hl₁]
    rfl

/-! ### Writing -/

/-- An empty sector has no slots. -/
theorem holds_nil {f : Flash} (h : ∀ a, A ≤ a → a < A + sectorSize → f a = blank) :
    Holds A [] ⟨f, A⟩ where
  slotsAt := Records.Kind.at_nil f A
  idx := rfl
  behind := h
  room := by unfold recordReserveSpace Records.Kind.finish; exact Nat.add_le_add_left (by decide) A
  ok := by simp
  keyed := List.nodup_nil

/-- Slots behind the others, where there is room. -/
theorem Holds.append (h : Holds A log s) (log' : List Slot) (hok : ∀ r ∈ log', r.Ok)
    (hroom : slots.finish A (log ++ log') + recordReserveSpace ≤ A + 4096)
    (hkeyed : (live (log ++ log')).Keyed) :
    Holds A (log ++ log') (telinkWriteFlash s (slots.putAll log')) where
  slotsAt := by
    rw [telinkWriteFlash, h.idx]
    refine Records.Kind.at_append.mpr
      ⟨h.slotsAt.congr fun a _ ha => Flash.write_outside _ (.inl ha), ?_⟩
    refine Flash.read_write_blank fun i hi => h.behind _ (Nat.le_add_right _ i) ?_
    rw [Records.Kind.finish_append] at hroom
    unfold Records.Kind.finish at hroom ⊢
    omega
  idx := by
    rw [telinkWriteFlash, h.idx, Records.Kind.finish_append]
    rfl
  behind a ha ha' := by
    rw [Records.Kind.finish_append] at ha
    rw [telinkWriteFlash, h.idx]
    exact (Flash.write_outside _ (.inr ha)).trans
      (h.behind a (le_trans (Records.Kind.le_finish _ log') ha) ha')
  room := hroom
  ok r hr := (List.mem_append.mp hr).elim (h.ok r) (hok r)
  keyed := hkeyed

theorem Holds.sameOutside_append (h : Holds A log s) (log' : List Slot)
    (hroom : slots.finish A (log ++ log') + recordReserveSpace ≤ A + 4096) :
    SameOutside A s (telinkWriteFlash s (slots.putAll log')) := fun a ha => by
  rw [Records.Kind.finish_append] at hroom
  unfold Records.Kind.finish at hroom
  unfold recordMax sectorSize at ha
  rw [telinkWriteFlash, h.idx]
  unfold Records.Kind.finish
  exact Flash.write_outside _ (by omega)

/-! ### Cleaning -/

/-- A record is copied in pieces. -/
theorem cpyRecord_eq {n : ℕ} {f : Flash} {adr cpy total : ℕ}
    (hcpy : adr + total + sizeRecord ≤ cpy)
    (hn : total ≤ sizeRecord * n) :
    cpyRecord (n + 1) f adr cpy total (f.read adr sizeRecord) =
      some (f.write cpy (f.read adr total), adr + total, cpy + total) := by
  induction n generalizing f adr cpy total with
  | zero =>
    obtain rfl : total = 0 := Nat.le_zero.mp hn
    rw [cpyRecord, if_pos rfl, Flash.read_zero, Flash.write_nil]
    rfl
  | succ n ih =>
    rw [cpyRecord]
    split
    · rename_i hzero
      rw [hzero, Flash.read_zero, Flash.write_nil]
      rfl
    split
    · rename_i hlt
      have hsum : sizeRecord + (total - sizeRecord) = total := by omega
      rw [ih (by omega) (by rw [Nat.mul_succ] at hn; omega),
        Flash.write_read_add f (.inr (by omega)), Nat.add_assoc adr, Nat.add_assoc cpy, hsum]
    · have hle : total ≤ sizeRecord := by omega
      rw [Flash.take_read f adr sizeRecord total hle]
      cases n <;> rfl

theorem put_eq_read {f : Flash} {p : ℕ} {r : Slot} (h : slots.get f p = r) :
    f.read p (r.dat.length + 3) = slots.put r := by
  subst h
  rw [← len_slots]
  exact (slots.put_get f p).symm

/-- The second sector has the slots of the records. -/
theorem cleanLoop_eq {n : ℕ} {f : Flash} {adr cpy : ℕ} (hok : ∀ r ∈ log, r.Ok)
    (hat : slots.At f adr log) (hroom : slots.finish adr log + recordReserveSpace ≤ A + 4096)
    (hbehind : ∀ a, slots.finish adr log ≤ a → a < A + 4096 → f a = blank)
    (hcpy : recordTmp A ≤ cpy) (hn : log.length < n) :
    cleanLoop A n f adr cpy = some (f.write cpy (slots.putAll (alive log)),
      slots.finish cpy (alive log)) := by
  induction log generalizing n f adr cpy with
  | nil =>
    obtain ⟨n, rfl⟩ := Nat.exists_eq_succ_of_ne_zero (Nat.ne_of_gt hn)
    rw [Records.Kind.finish_nil] at hroom hbehind
    have hblank : recId (f.read adr sizeRecord) = 0xffff :=
      recId_blank (by decide) fun a h h' =>
        hbehind a h (by unfold recordReserveSpace at hroom; omega)
    rw [cleanLoop]
    simp only [hblank, true_or, if_true, alive, List.filter_nil]
    rw [Records.Kind.putAll_nil, Flash.write_nil]
    rfl
  | cons r log ih =>
    obtain ⟨n, rfl⟩ := Nat.exists_eq_succ_of_ne_zero (Nat.ne_of_gt (Nat.zero_lt_of_lt hn))
    obtain ⟨hr, hlog⟩ := Records.Kind.at_cons.mp hat
    have hfin := Records.Kind.finish_cons hat
    rw [len_slots, hr] at hlog hfin
    rw [hfin] at hroom hbehind
    have hle := Records.Kind.le_finish (K := slots) (adr + (r.dat.length + 3)) log
    have hrok := hok r List.mem_cons_self
    have hrest : ∀ r ∈ log, r.Ok := fun r hr => hok r (List.mem_cons_of_mem _ hr)
    have hn' : log.length < n := Nat.lt_of_succ_lt_succ hn
    unfold recordReserveSpace at hroom
    rw [cleanLoop]
    simp only [recId_read f _ (show 2 ≤ sizeRecord by decide),
      recLen_read f _ (show 3 ≤ sizeRecord by decide), hr]
    rw [if_neg (by
      rintro (hid | hmax)
      · exact hrok.id_ne hid
      · unfold recordMax sectorSize at hmax
        omega)]
    split
    · rename_i hid
      rw [ih hrest hlog hroom hbehind hcpy hn', alive_cons_dead hid]
    · rename_i hid
      have hlen := hrok.len_le
      unfold recordMaxLen at hlen
      unfold recordTmp sectorSize at hcpy
      rw [Nat.mod_eq_of_lt (by omega), cpyRecord_eq (by unfold sizeRecord; omega)
        (by unfold sizeRecord; omega), Option.bind_some, alive_cons hid, put_eq_read hr]
      have hout : ∀ a < cpy, f.write cpy (slots.put r) a = f a := fun a ha =>
        Flash.write_outside f (.inl ha)
      have hcpy' : recordTmp A ≤ cpy + (r.dat.length + 3) := Nat.le_add_right_of_le hcpy
      rw [ih hrest (hlog.congr fun a _ ha => hout a (by omega)) hroom
        (fun a h h' => (hout a (by omega)).trans (hbehind a h h')) hcpy' hn',
        ← length_put r, Flash.write_write, Records.Kind.putAll_cons, Records.Kind.finish_put]

/-- The octets of the second sector are copied in pieces. -/
theorem cpyBack_eq {n : ℕ} {f : Flash} {idx cnt : ℕ} (hn : cnt < n) :
    cpyBack A n f idx cnt = some (f.write (A + idx) (f.read (recordTmp A + idx) cnt)) := by
  induction n generalizing f idx cnt with
  | zero => exact absurd hn (Nat.not_lt_zero cnt)
  | succ n ih =>
    rw [cpyBack]
    split
    · rename_i hzero
      rw [hzero, Flash.read_zero, Flash.write_nil]
    split
    · rename_i hlt
      have hsum : sizeRecord + (cnt - sizeRecord) = cnt := by omega
      rw [ih (by unfold sizeRecord; omega), ← Nat.add_assoc, ← Nat.add_assoc,
        Flash.write_read_add f (.inl (by unfold recordTmp; omega)), hsum]
    · rw [ih (by omega), Flash.read_zero, Flash.write_nil]


theorem length_putAll_alive_le (log : List Slot) :
    (slots.putAll (alive log)).length ≤ (slots.putAll log).length :=
  (List.filter_sublist.flatMap slots.put).length_le

/-- Cleaning writes the slots of the records into the sector that was erased. -/
theorem Holds.clean_eq (h : Holds A log s) :
    telinkRecordCleanCpy A s = some (telinkWriteFlash
      ⟨((s.flash.erase (recordTmp A) sectorSize).write (recordTmp A)
        (slots.putAll (alive log))).erase A sectorSize, A⟩ (slots.putAll (alive log))) := by
  have hroom := h.room
  have hle := length_putAll_alive_le log
  unfold Records.Kind.finish recordReserveSpace at hroom
  have hsector : ∀ a < A + 4096, s.flash.erase (recordTmp A) sectorSize a = s.flash a :=
    fun a ha => Flash.erase_outside _ (.inl ha)
  have hloop := cleanLoop_eq (n := 2 * sectorSize + 1) (f := s.flash.erase (recordTmp A) sectorSize)
    h.ok (h.slotsAt.congr fun a _ ha => hsector a (by unfold Records.Kind.finish at ha; omega))
    h.room (fun a ha ha' => (hsector a ha').trans (h.behind a ha ha')) (Nat.le_refl (recordTmp A))
    (by have := h.length_lt; omega)
  have hfinish : slots.finish (recordTmp A) (alive log) - recordTmp A =
      (slots.putAll (alive log)).length := Nat.add_sub_cancel_left ..
  have hblank : ∀ i < (slots.putAll (alive log)).length,
      s.flash.erase (recordTmp A) sectorSize (recordTmp A + i) = blank := fun i hi =>
    Flash.erase_inside _ ⟨Nat.le_add_right _ i, by unfold sectorSize; omega⟩
  rw [telinkRecordCleanCpy, hloop, Option.bind_some]
  simp only [hfinish]
  have hread : ∀ (f : Flash) (n : ℕ),
      (f.erase A sectorSize).read (recordTmp A) n = f.read (recordTmp A) n := fun f n =>
    Flash.read_congr fun i _ => Flash.erase_outside f (.inr (Nat.le_add_right _ i))
  rw [cpyBack_eq (by unfold sectorSize; omega), Nat.add_zero, Nat.add_zero, hread,
    Flash.read_write_blank hblank]
  rfl

/-- Cleaning leaves the slots of the records. -/
theorem Holds.clean (h : Holds A log s) :
    ∃ s', telinkRecordCleanCpy A s = some s' ∧ Holds A (alive log) s' ∧ SameOutside A s s' := by
  have hempty : ∀ f : Flash, Holds A [] ⟨f.erase A sectorSize, A⟩ := fun f =>
    holds_nil fun a ha ha' => Flash.erase_inside f ⟨ha, ha'⟩
  have hroom := h.room
  have hle := length_putAll_alive_le log
  unfold Records.Kind.finish at hroom
  have hfit : slots.finish A (alive log) + recordReserveSpace ≤ A + 4096 := by
    unfold Records.Kind.finish
    omega
  have hholds := (hempty ((s.flash.erase (recordTmp A) sectorSize).write (recordTmp A)
    (slots.putAll (alive log)))).append (alive log) (fun r hr => h.ok r (List.mem_filter.mp hr).1)
    hfit ((live_alive log).symm ▸ h.keyed)
  refine ⟨_, h.clean_eq, hholds, fun a ha => ?_⟩
  refine ((hempty _).sameOutside_append (alive log) hfit a ha).trans ?_
  unfold recordMax recordTmp sectorSize at *
  exact (Flash.erase_outside _ (by omega)).trans
    ((Flash.write_outside _ (by omega)).trans (Flash.erase_outside _ (by omega)))

/-! ### The calls on the records -/

theorem telinkWriteFlash_append (s : RecordPart) (bs bs' : List Byte) :
    telinkWriteFlash (telinkWriteFlash s bs) bs' = telinkWriteFlash s (bs ++ bs') := by
  rw [telinkWriteFlash, telinkWriteFlash, telinkWriteFlash, Flash.write_write, List.length_append,
    Nat.add_assoc]

theorem telinkWriteFlash_nil (s : RecordPart) : telinkWriteFlash s [] = s := by
  rw [telinkWriteFlash, Flash.write_nil]
  rfl

theorem writeRest_eq {n : ℕ} {data : List Byte} (h : data.length ≤ sizeRecord * n) :
    writeRest (n + 1) s data = some (telinkWriteFlash s data) := by
  induction n generalizing s data with
  | zero =>
    obtain rfl : data = [] := List.length_eq_zero_iff.mp (Nat.le_zero.mp h)
    rw [telinkWriteFlash_nil]
    rfl
  | succ n ih =>
    rw [writeRest]
    split
    · rename_i hzero
      rw [List.length_eq_zero_iff.mp hzero, telinkWriteFlash_nil]
    split
    · rw [ih (by rw [List.length_drop]; rw [Nat.mul_succ] at h; omega), telinkWriteFlash_append,
        List.take_append_drop]
    · rw [ih (Nat.zero_le _), telinkWriteFlash_nil]

/-- The pieces of a record are its slot. -/
theorem putRecord_eq (s : RecordPart) (r : Slot) (h : r.dat.length ≤ recordMaxLen) :
    putRecord s r.id r.dat = some (telinkWriteFlash s (slots.put r)) := by
  unfold recordMaxLen at h
  rw [putRecord]
  split
  · rw [writeRest_eq (by rw [List.length_drop]; unfold sizeRecord; omega), telinkWriteFlash_append,
      List.append_assoc, List.take_append_drop]
    rfl
  · rw [writeRest_eq (Nat.zero_le _), telinkWriteFlash_nil]
    rfl

/-- There is room for a record, or there is after cleaning. -/
theorem Holds.room_or_clean (h : Holds A log s) {n : ℕ}
    (hroom : (live log).size + n + recordReserveSpace ≤ 4096) :
    ∃ log' s', (if s.flashIdxAdr + n + recordReserveSpace > recordTmp A then
        telinkRecordCleanCpy A s else some s) = some s' ∧
      Holds A log' s' ∧ SameOutside A s s' ∧ live log' = live log ∧
      slots.finish A log' + n + recordReserveSpace ≤ A + 4096 := by
  split
  · obtain ⟨s', hclean, hholds, hout⟩ := h.clean
    refine ⟨alive log, s', hclean, hholds, hout, live_alive log, ?_⟩
    unfold Records.Kind.finish
    rw [length_putAll_alive]
    omega
  · rename_i hle
    rw [h.idx] at hle
    exact ⟨log, s, rfl, h, .refl A s, rfl, Nat.le_of_not_gt hle⟩

/-- A record that is written is the last one; the one with its identifier is gone. -/
theorem Holds.write (h : Holds A log s) {data : List Byte} (hid : id ≠ 0) (hff : id ≠ 0xffff)
    (hpos : 0 < data.length) (hmax : data.length ≤ recordMaxLen)
    (hroom : ((live log).without id).size + (data.length + 3) + recordReserveSpace ≤ 4096) :
    ∃ log' s', telinkRecordWrite A s id data = some (s', .success,
        [.recordDelete id ((live log).deleted id), .recordWrite id .success]) ∧
      Holds A log' s' ∧ SameOutside A s s' ∧
      live log' = (live log).without id ++ [(id, data)] := by
  obtain ⟨log₁, s₁, hdel, h₁, hout₁, hlive₁⟩ := h.delete hid
  rw [← hlive₁] at hroom
  obtain ⟨log₂, s₂, hclean, h₂, hout₂, hlive₂, hfin⟩ := h₁.room_or_clean hroom
  obtain ⟨r, rfl, rfl⟩ : ∃ r : Slot, r.id = id ∧ r.dat = data :=
    ⟨⟨id, data, by unfold recordMaxLen at hmax; omega⟩, rfl, rfl⟩
  have hlive : live (log₂ ++ [r]) = (live log).without r.id ++ [(r.id, r.dat)] := by
    rw [live_append, hlive₂, hlive₁, live_cons hid]
    rfl
  have hput : slots.putAll [r] = slots.put r := by
    rw [Records.Kind.putAll_cons, Records.Kind.putAll_nil, List.append_nil]
  have hok : ∀ r' ∈ [r], r'.Ok := List.forall_mem_singleton.mpr ⟨hff, hpos, hmax⟩
  have hfit : slots.finish A (log₂ ++ [r]) + recordReserveSpace ≤ A + 4096 := by
    rwa [Records.Kind.finish_append, Records.Kind.finish_put, length_put, Records.Kind.finish_nil]
  have h₃ := h₂.append [r] hok hfit (hlive ▸ h.keyed.concat r.id r.dat)
  refine ⟨log₂ ++ [r], _, ?_, h₃, (hout₁.trans hout₂).trans (h₂.sameOutside_append [r] hfit), hlive⟩
  rw [telinkRecordWrite, if_neg (by omega), hdel]
  simp only [Option.bind_some, hclean, putRecord_eq s₂ r hmax, hput, Option.map_some]
  rfl

theorem read_dat {f : Flash} {p len : ℕ} {r : Slot} (h : slots.get f p = r)
    (hlen : len ≤ r.dat.length) : f.read (p + 3) len = r.dat.take len := by
  have hdrop := congrArg (List.drop 3) (put_eq_read h)
  rw [Flash.drop_read, Nat.add_sub_cancel] at hdrop
  rw [← Flash.take_read f (p + 3) r.dat.length len hlen, hdrop]
  rfl

/-- What is read is the record. -/
theorem Holds.read (h : Holds A log s) (hid : id ≠ 0) {null : Bool} {len : ℕ} :
    telinkRecordRead A s id null len = some (Store.read (live log) id null len) := by
  rw [telinkRecordRead, Store.read]
  split
  · rfl
  split
  · rfl
  rw [h.findRecordAdr]
  cases hfind : findSlot id A log with
  | none =>
    rw [lookup_of_findSlot_none hid hfind]
    rfl
  | some q =>
    obtain ⟨l₁, r, l₂, rfl, rfl, hl₁, rfl⟩ := exists_of_findSlot hfind
    obtain ⟨hr, -⟩ := Records.Kind.at_cons.mp (Records.Kind.at_append.mp h.slotsAt).2
    rw [lookup_split hid hl₁, Option.map_some]
    simp only [recLen_read s.flash _ (show 3 ≤ sizeRecord by decide), hr]
    split
    · rfl
    rename_i hlen
    have hdat := read_dat hr (Nat.le_of_not_gt hlen)
    split
    · rename_i hle
      rw [Flash.drop_read, Flash.take_read _ _ (sizeRecord - 3) len hle, hdat]
    · rw [hdat]

theorem partInitLoop_eq {f : Flash} {adr n : ℕ} (hids : ∀ r ∈ log, r.id ≠ 0xffff)
    (hat : slots.At f adr log) (hroom : slots.finish adr log + recordReserveSpace ≤ A + 4096)
    (hbehind : ∀ a, slots.finish adr log ≤ a → a < A + 4096 → f a = blank) (hn : log.length < n) :
    partInitLoop A f n adr = some (slots.finish adr log) := by
  unfold recordReserveSpace at hroom
  induction log generalizing n adr with
  | nil =>
    obtain ⟨n, rfl⟩ := Nat.exists_eq_succ_of_ne_zero (Nat.ne_of_gt hn)
    rw [Records.Kind.finish_nil] at hroom hbehind ⊢
    rw [partInitLoop, recId_blank (by decide) fun a h h' => hbehind a h (by omega)]
    exact if_pos (.inl rfl)
  | cons r log ih =>
    obtain ⟨n, rfl⟩ := Nat.exists_eq_succ_of_ne_zero (Nat.ne_of_gt (Nat.zero_lt_of_lt hn))
    obtain ⟨hr, hlog⟩ := Records.Kind.at_cons.mp hat
    have hfin := Records.Kind.finish_cons hat
    rw [len_slots, hr] at hlog hfin
    rw [hfin] at hroom hbehind ⊢
    have hle := Records.Kind.le_finish (K := slots) (adr + (r.dat.length + 3)) log
    rw [partInitLoop]
    simp only [recId_read f _ (show 2 ≤ sizeRecord by decide),
      recLen_read f _ (show 3 ≤ sizeRecord by decide), hr]
    rw [if_neg (by
      rintro (hid | hmax)
      · exact hids r List.mem_cons_self hid
      · unfold recordTmp sectorSize at hmax
        omega)]
    exact ih (fun r hr => hids r (List.mem_cons_of_mem _ hr)) hlog hroom hbehind
      (Nat.lt_of_succ_lt_succ hn)

/-- The slots are found again at the start. -/
theorem Holds.partInit (h : Holds A log s) : telinkRecordPartInit A s.flash = some s := by
  rw [telinkRecordPartInit, partInitLoop_eq (fun r hr => (h.ok r hr).id_ne) h.slotsAt h.room
    h.behind h.length_lt, ← h.idx]
  rfl

end

/-! ### Runs -/

inductive Call
  | write (id : BitVec 16) (data : List Byte)
  | delete (id : BitVec 16)
  | read (id : BitVec 16) (null : Bool) (len : ℕ)
  | restart
  deriving DecidableEq, Repr

/-- The status, the octets that are read, the events. -/
abbrev Reply := MiStatus × List Byte × List ArchEvt

def step (A : ℕ) (s : RecordPart) : Call → Option (RecordPart × Reply)
  | .write id data =>
    (telinkRecordWrite A s id data).map fun (s, status, evts) => (s, status, [], evts)
  | .delete id => (telinkRecordDelete A s id).map fun (s, status, evts) => (s, status, [], evts)
  | .read id null len =>
    (telinkRecordRead A s id null len).map fun (status, data) => (s, status, data, [])
  | .restart => (telinkRecordPartInit A s.flash).map (·, .success, [], [])

/-- One call after another: what they answer, and the state they leave. -/
def run (A : ℕ) (s : RecordPart) : List Call → Option (RecordPart × List Reply)
  | [] => some (s, [])
  | c :: cs => (step A s c).bind fun (s, r) => (run A s cs).map fun (s, rs) => (s, r :: rs)

namespace Store

/-- What a call does to the records. -/
def step (l : Store) : Call → Store × Reply
  | .write id data =>
    if data.length > recordMaxLen ∨ data.length = 0 then
      (l, .errInvalidLength, [], [.recordWrite id .errInvalidLength])
    else
      (l.without id ++ [(id, data)], .success, [],
        [.recordDelete id (l.deleted id), .recordWrite id .success])
  | .delete id => (l.without id, l.deleted id, [], [.recordDelete id (l.deleted id)])
  | .read id null len => (l, (l.read id null len).1, (l.read id null len).2, [])
  | .restart => (l, .success, [], [])

def run (l : Store) : List Call → Store × List Reply
  | [] => (l, [])
  | c :: cs => (((l.step c).1.run cs).1, (l.step c).2 :: ((l.step c).1.run cs).2)

/-- A call of a record that is one, and that has room among the others. -/
def Fits (l : Store) : Call → Prop
  | .write id data => id ≠ 0 ∧ id ≠ 0xffff ∧
    (l.without id).size + (data.length + 3) + recordReserveSpace ≤ sectorSize
  | .delete id | .read id _ _ => id ≠ 0
  | .restart => True

def FitAll (l : Store) : List Call → Prop
  | [] => True
  | c :: cs => l.Fits c ∧ (l.step c).1.FitAll cs

end Store

/-- A call does to the slots what it does to the records. -/
theorem Holds.step {A : ℕ} {log : List Slot} {s : RecordPart} (h : Holds A log s) {c : Call}
    (hfits : (live log).Fits c) :
    ∃ log' s', step A s c = some (s', ((live log).step c).2) ∧ Holds A log' s' ∧
      SameOutside A s s' ∧ live log' = ((live log).step c).1 := by
  cases c with
  | write id data =>
    obtain ⟨hid, hff, hroom⟩ := hfits
    simp only [MiRecord.step, Store.step]
    by_cases hlen : data.length > recordMaxLen ∨ data.length = 0
    · exact ⟨log, s, by rw [telinkRecordWrite, if_pos hlen, if_pos hlen]; rfl, h, .refl A s,
        by rw [if_pos hlen]⟩
    · obtain ⟨log', s', hwrite, hholds, hout, hlive⟩ :=
        h.write hid hff (by omega) (by omega) hroom
      exact ⟨log', s', by rw [hwrite, if_neg hlen]; rfl, hholds, hout,
        by rw [if_neg hlen, hlive]⟩
  | delete id =>
    obtain ⟨log', s', hdel, hholds, hout, hlive⟩ := h.delete hfits
    exact ⟨log', s', congrArg (Option.map _) hdel, hholds, hout, hlive⟩
  | read id null len =>
    exact ⟨log, s, congrArg (Option.map _) (h.read hfits), h, .refl A s, rfl⟩
  | restart => exact ⟨log, s, congrArg (Option.map _) h.partInit, h, .refl A s, rfl⟩

theorem Holds.run {A : ℕ} {log : List Slot} {s : RecordPart} (h : Holds A log s) {cs : List Call}
    (hfits : (live log).FitAll cs) :
    ∃ log' s', run A s cs = some (s', ((live log).run cs).2) ∧ Holds A log' s' ∧
      SameOutside A s s' ∧ live log' = ((live log).run cs).1 := by
  induction cs generalizing log s with
  | nil => exact ⟨log, s, rfl, h, .refl A s, rfl⟩
  | cons c cs ih =>
    obtain ⟨log₁, s₁, hstep, h₁, hout₁, hlive₁⟩ := h.step hfits.1
    obtain ⟨log', s', hrun, h', hout', hlive'⟩ := ih h₁ (hlive₁ ▸ hfits.2)
    rw [hlive₁] at hrun hlive'
    refine ⟨log', s', ?_, h', hout₁.trans hout', hlive'⟩
    rw [MiRecord.run, hstep, Option.bind_some]
    simp only [hrun, Option.map_some]
    rfl

/-- **The store keeps the records**: from an erased sector, every run of calls and restarts answers
what the list of records answers, as long as the records fit and no identifier is 0 or `0xffff`;
only the two sectors change. -/
theorem run_refines (A : ℕ) (f : Flash) (cs : List Call)
    (hblank : ∀ a, A ≤ a → a < A + sectorSize → f a = blank) (hfits : Store.FitAll [] cs) :
    ∃ s, (telinkRecordPartInit A f).bind (run A · cs) = some (s, (Store.run [] cs).2) ∧
      ∀ a, a < A ∨ recordMax A ≤ a → s.flash a = f a := by
  have h := holds_nil hblank
  obtain ⟨-, s, hrun, -, hout, -⟩ := h.run hfits
  exact ⟨s, by rw [h.partInit, Option.bind_some, hrun]; rfl, hout⟩

/-- A record, another one, the first one again, a restart between them. -/
def sampleCalls : List Call :=
  [.write 5 [1, 2], .write 6 (List.replicate 20 7), .restart, .write 5 [3], .read 5 false 1,
    .read 6 false 20, .delete 6, .read 6 false 1]

theorem run_refines_sample :
    ∃ s, (telinkRecordPartInit 0x1000 fun _ => blank).bind (run 0x1000 · sampleCalls) =
        some (s, (Store.run [] sampleCalls).2) ∧
      ∀ a, a < 0x1000 ∨ recordMax 0x1000 ≤ a → s.flash a = blank := by
  refine run_refines 0x1000 (fun _ => blank) sampleCalls (fun _ _ _ => rfl) ?_
  simp only [sampleCalls, Store.FitAll, Store.Fits]
  decide

example : ((Store.run [] sampleCalls).2.map fun r => r.2.1) =
    [[], [], [], [], [3], List.replicate 20 7, [], []] := by
  decide

end PirMesh.MiRecord
