import PirMesh.Ota.Accept

/-! # Ota — The phone that sends an image (`OTAManager.m`)

The phone writes a version packet, a start packet, the image in packets of 16 octets and an end
packet, each to the characteristic that the device reads with `otaWrite`.  Part way through an
update the packets taken are the first of the image, and the rest of the flash area is blank
(`Receiving`); every packet of a right image is then taken without an error, and the end packet
closes it (`otaWrite_image`). -/

namespace PirMesh

open Nor Reassembly

namespace OtaManager

/-! ### Packets -/

def poly : List (BitVec 16) := [0, 0xa001]

/-- One octet: the check sum so far and what is left of `ds`. -/
def crc16Bit (x : BitVec 16 × Byte) : BitVec 16 × Byte :=
  ((x.1 >>> 1) ^^^ poly.getD ((x.1 ^^^ x.2.setWidth 16) &&& 1).toNat 0, x.2 >>> 1)

def crc16 (pD : List Byte) : BitVec 16 :=
  pD.foldl (fun crc ds => ((List.range 8).foldl (fun x _ => crc16Bit x) (crc, ds)).1) 0xffff

/-- The two low octets of an `int`. -/
def intOctets (x : Int) : List Byte := toLE 2 (BitVec.ofInt 32 x).toNat

def sendOTAData (data : List Byte) (index : Int) : List Byte :=
  if data.length = 0 then intOctets index ++ toLE 2 (crc16 (intOctets index)).toNat
  else
    let resultBytes := intOctets index ++ data ++ List.replicate (16 - data.length) 0xff
    resultBytes ++ toLE 2 (crc16 resultBytes).toNat

def sendReadFirmwareVersion : List Byte := [0x00, 0xff]

def sendStartOTA : List Byte := [0x01, 0xff]

def sendOTAEndData (data : List Byte) (index : Int) : List Byte :=
  data ++ intOctets index ++ intOctets (~~~ index)

/-- What is written from `offset` on, `otaIndex` being the index of the last packet. -/
def sendPartData (localData : List Byte) (offset : Nat) (otaIndex : Int) : List (List Byte) :=
  let lastLength := localData.length - offset
  if lastLength = 0 then [sendOTAEndData [0x02, 0xff] otaIndex]
  else
    let writeLength := if 16 ≤ lastLength then 16 else lastLength
    (if otaIndex + 1 = 0 then [sendReadFirmwareVersion, sendStartOTA] else []) ++
      sendOTAData ((localData.drop offset).take writeLength) (otaIndex + 1) ::
        sendPartData localData (offset + writeLength) (otaIndex + 1)
  termination_by localData.length - offset
  decreasing_by
    split
    all_goals omega

/-! ### Images -/

/-- The number of packets. -/
def packetCount (image : List Byte) : Nat := (image.length + 15) / 16

/-- Packet `i` of an image, filled up. -/
def block (image : List Byte) (i : Nat) : List Byte :=
  let data := (image.drop (16 * i)).take 16
  data ++ List.replicate (16 - data.length) 0xff

/-- An image filled up to whole packets. -/
def padded (image : List Byte) : List Byte :=
  image ++ List.replicate (16 * packetCount image - image.length) 0xff

/-- The check value over all packets but the last: the sum of their check sums, or the CRC-32 of
their data. -/
def imageCheck (type : Byte) (image : List Byte) : BitVec 32 :=
  if type = fwCheckAgthm1 then
    (List.range (packetCount image - 1)).foldl
      (fun val i => val + (crc16 (toLE 2 i ++ block image i)).setWidth 32) 0
  else getCrc32OfBytes 0xFFFFFFFF (image.take (16 * (packetCount image - 1)))

/-- An image that the device can take: its length field, the flag, and the check value in front
of its last packet when octets 6 and 7 announce one. -/
structure RightImage (image : List Byte) : Prop where
  ge : 48 ≤ image.length
  le : image.length ≤ otaFirmwareSizeK <<< 10
  lengthField : ofLE ((image.drop 24).take 4) = image.length
  flag : (image.drop 8).take 4 = toLE 4 startUpFlag
  check : ∀ type, (type = fwCheckAgthm1 ∨ type = fwCheckAgthm2) →
    image[6]? = some 0x5D → image[7]? = some type →
    imageCheck type image = BitVec.ofNat 32 (ofLE ((block image (packetCount image - 1)).take 4))

end OtaManager

/-! ### The device -/

/-- A sector whose first word, or the word in its middle, is not blank is erased. -/
def clearSector (otaProgramOffset : Nat) (flash : Flash) (i : Nat) : Flash :=
  let curFlashSetor := otaProgramOffset + i * 0x1000
  let tmp1 := flash.read curFlashSetor 4
  let tmp2 := flash.read (curFlashSetor + 2048) 4
  if tmp1 ≠ List.replicate 4 0xff ∨ tmp2 ≠ List.replicate 4 0xff then
    flash.erase curFlashSetor 4096
  else flash

def blsOtaClearNewFwDataArea (otaProgramOffset : Nat) (flash : Flash) : Flash :=
  (List.range (otaFirmwareSizeK >>> 2)).foldl (clearSector otaProgramOffset) flash

/-- A device that can begin an update: no result, no check type of another image, and a blank
area in one of the two places of the firmware. -/
structure OtaReady (s : Ota) : Prop where
  unfinished : s.bltOtaFinishedTime = 0
  reboot : s.otaRebootFlag ≠ 0
  untyped : s.needCheckType = 0
  place : s.otaProgramOffset = 0 ∨ s.otaProgramOffset = otaProgramBootAddr
  area : ∀ i < otaFirmwareSizeK <<< 10, s.flash (s.otaProgramOffset + i) = blank

/-- A sector in use shows in one of the two words. -/
def SectorShows (flash : Flash) (adr : Nat) : Prop :=
  (∀ i < 4096, flash (adr + i) = blank) ∨
    flash.read adr 4 ≠ List.replicate 4 0xff ∨ flash.read (adr + 2048) 4 ≠ List.replicate 4 0xff

/-- A sector that shows its use is blank afterwards, and no other changes. -/
theorem clearSector_apply {off n : Nat} {flash : Flash}
    (h : SectorShows flash (off + n * 0x1000)) (i : Nat) :
    clearSector off flash n (off + i) =
      if n * 4096 ≤ i ∧ i < (n + 1) * 4096 then blank else flash (off + i) := by
  unfold clearSector
  by_cases hin : n * 4096 ≤ i ∧ i < (n + 1) * 4096
  · rw [if_pos hin]
    split_ifs with hused
    · exact Flash.erase_inside _ (by omega)
    · have hblank := h.resolve_right hused (i - n * 4096) (by omega)
      have hadr : off + n * 4096 + (i - n * 4096) = off + i := by omega
      rwa [hadr] at hblank
  · rw [if_neg hin]
    split_ifs
    · exact Flash.erase_outside _ (by omega)
    · rfl

/-- After `n` sectors: those are blank, and the others are as they were. -/
theorem clearSectors_apply {off : Nat} {flash : Flash} {n : Nat}
    (h : ∀ i < n, SectorShows flash (off + i * 0x1000)) (i : Nat) :
    (List.range n).foldl (clearSector off) flash (off + i) =
      if i < n * 4096 then blank else flash (off + i) := by
  induction n generalizing i with
  | zero =>
    rw [if_neg (by omega)]
    rfl
  | succ n ih =>
    have hold := fun i => ih (fun j hj => h j (by omega)) i
    rw [List.range_succ, List.foldl_append, List.foldl_cons, List.foldl_nil]
    generalize (List.range n).foldl (clearSector off) flash = flash' at hold
    have hsame : ∀ a, n * 4096 ≤ a → flash' (off + a) = flash (off + a) := by
      intro a ha
      rw [hold a, if_neg (by omega)]
    have hshows : SectorShows flash' (off + n * 0x1000) := by
      have hn := h n (by omega)
      have hread : ∀ a len, n * 4096 ≤ a → flash'.read (off + a) len = flash.read (off + a) len :=
        fun a len ha => Flash.read_congr fun j _ => by
          rw [Nat.add_assoc]
          exact hsame (a + j) (by omega)
      unfold SectorShows at hn ⊢
      rw [hread _ 4 (le_of_eq rfl), Nat.add_assoc, hread _ 4 (by omega), ← Nat.add_assoc]
      refine hn.imp_left fun hblank j hj => ?_
      rw [Nat.add_assoc, hsame _ (by omega), ← Nat.add_assoc]
      exact hblank j hj
    rw [clearSector_apply hshows, hold i]
    split_ifs
    all_goals first
      | rfl
      | omega

/-- The area of a device that has just started. -/
theorem otaReady_boot {off : Nat} {flash : Flash}
    (hplace : off = 0 ∨ off = otaProgramBootAddr)
    (hshows : ∀ i < otaFirmwareSizeK >>> 2, SectorShows flash (off + i * 0x1000)) :
    OtaReady (otaBoot off (blsOtaClearNewFwDataArea off flash)) where
  unfinished := rfl
  reboot := by
    show (1 : Byte) ≠ 0
    decide
  untyped := rfl
  place := hplace
  area i hi := by
    have hsize : otaFirmwareSizeK <<< 10 = (otaFirmwareSizeK >>> 2) * 4096 := rfl
    have hlt : i < (otaFirmwareSizeK >>> 2) * 4096 := Nat.lt_of_lt_of_eq hi hsize
    unfold otaBoot blsOtaClearNewFwDataArea
    dsimp only
    rw [clearSectors_apply hshows, if_pos hlt]

/-- A write command of the octets, at a time; what lies behind them in memory is not theirs. -/
structure Carries (octets : List Byte) (w : BitVec 32 × OtaPkt) : Prop where
  l2cap : w.2.l2cap = BitVec.ofNat 16 (octets.length + 3)
  dat : read w.2.dat 0 octets.length = octets

def receive (s : Ota) (writes : List (BitVec 32 × OtaPkt)) : Ota :=
  writes.foldl (fun s w => otaWrite true w.1 s w.2) s

/-! ### Packets of an image -/

namespace OtaManager

theorem poly_getD (x : BitVec 16) :
    poly.getD (x &&& 1).toNat 0 = if x &&& 1 = 1 then 0xa001 else 0 := by
  have hbit : x &&& 1 = 0 ∨ x &&& 1 = 1 := by
    have hlow : (x &&& 1).toNat = x.toNat % 2 := by
      rw [BitVec.toNat_and]
      exact Nat.and_two_pow_sub_one_eq_mod x.toNat 1
    rcases Nat.mod_two_eq_zero_or_one x.toNat with h | h
    · exact .inl (BitVec.eq_of_toNat_eq (hlow.trans h))
    · exact .inr (BitVec.eq_of_toNat_eq (hlow.trans h))
  rcases hbit with h | h
  · rw [h]
    rfl
  · rw [h]
    rfl

/-- Phone and device go through the bits of an octet alike. -/
theorem crc16_eq (l : List Byte) : crc16 l = PirMesh.crc16 l := by
  have hbits : ∀ (crc : BitVec 16) (ds : Byte) (n : Nat),
      (List.range n).foldl (fun x _ => crc16Bit x) (crc, ds) =
        ((List.range n).foldl (fun (crc : BitVec 16) i => (crc >>> 1) ^^^
          (if (crc ^^^ (ds >>> i).setWidth 16) &&& 1 = 1 then 0xa001 else 0)) crc, ds >>> n) := by
    intro crc ds n
    induction n with
    | zero => rfl
    | succ n ih =>
      rw [List.range_succ, List.foldl_append, List.foldl_append, ih]
      dsimp only [List.foldl_cons, List.foldl_nil, crc16Bit]
      rw [poly_getD, ← BitVec.shiftRight_add]
  have hoctet : (fun crc ds => ((List.range 8).foldl (fun x _ => crc16Bit x) (crc, ds)).1) =
      crc16Octet := by
    funext crc ds
    rw [hbits]
    rfl
  unfold crc16 PirMesh.crc16
  rw [hoctet]

theorem intOctets_natCast {k : Nat} (h : k < 2 ^ 16) : intOctets k = toLE 2 k := by
  have hint : (BitVec.ofInt 32 (k : Int)).toNat = k := by
    rw [BitVec.ofInt_natCast, BitVec.toNat_ofNat]
    exact Nat.mod_eq_of_lt (by omega)
  rw [intOctets, hint]

theorem length_block (image : List Byte) (i : Nat) : (block image i).length = 16 := by
  unfold block
  dsimp only
  rw [List.length_append, List.length_replicate, List.length_take]
  omega

/-- Packet `i`. -/
def imagePacket (image : List Byte) (i : Nat) : List Byte :=
  toLE 2 i ++ block image i ++ toLE 2 (PirMesh.crc16 (toLE 2 i ++ block image i)).toNat

/-- Up to which octet the packets before packet `k` go. -/
def offsetOf (image : List Byte) (k : Nat) : Nat := min (16 * k) image.length

theorem lt_packetCount {image : List Byte} {k : Nat} :
    k < packetCount image ↔ 16 * k < image.length := by
  unfold packetCount
  omega

/-- One call: packet `k`, behind the version and the start where it is the first. -/
theorem sendPartData_packet {image : List Byte} {k : Nat} (hk : k < packetCount image)
    (hfit : k < 2 ^ 16) :
    sendPartData image (offsetOf image k) ((k : Int) - 1) =
      (if k = 0 then [sendReadFirmwareVersion, sendStartOTA] else []) ++
        imagePacket image k :: sendPartData image (offsetOf image (k + 1)) k := by
  have hlt := lt_packetCount.mp hk
  have hoffset : offsetOf image k = 16 * k := Nat.min_eq_left (Nat.le_of_lt hlt)
  have hindex : (k : Int) - 1 + 1 = k := by omega
  have hzero : ((k : Int) = 0) = (k = 0) := by simp
  have hdata : (image.drop (16 * k)).take (if 16 ≤ image.length - 16 * k then 16
      else image.length - 16 * k) = (image.drop (16 * k)).take 16 := by
    split_ifs with hle
    · rfl
    · rw [List.take_of_length_le (by rw [List.length_drop]),
        List.take_of_length_le (by rw [List.length_drop]; omega)]
  have hnext : 16 * k + (if 16 ≤ image.length - 16 * k then 16 else image.length - 16 * k) =
      offsetOf image (k + 1) := by
    unfold offsetOf
    split_ifs with hle
    · omega
    · omega
  have hsend : sendOTAData ((image.drop (16 * k)).take 16) k = imagePacket image k := by
    have hlen : ¬ ((image.drop (16 * k)).take 16).length = 0 := by
      rw [List.length_take, List.length_drop]
      omega
    unfold sendOTAData
    rw [if_neg hlen, intOctets_natCast hfit]
    dsimp only
    have hbytes : toLE 2 k ++ (image.drop (16 * k)).take 16 ++
        List.replicate (16 - ((image.drop (16 * k)).take 16).length) 0xff =
          toLE 2 k ++ block image k := List.append_assoc _ _ _
    rw [crc16_eq, hbytes]
    rfl
  rw [hoffset, sendPartData, if_neg (by omega)]
  dsimp only
  rw [hindex, hdata, hnext, hsend]
  simp only [hzero]

theorem sendPartData_end (image : List Byte) (otaIndex : Int) :
    sendPartData image (offsetOf image (packetCount image)) otaIndex =
      [sendOTAEndData [0x02, 0xff] otaIndex] := by
  have hoffset : image.length - offsetOf image (packetCount image) = 0 := by
    unfold offsetOf packetCount
    omega
  rw [sendPartData, if_pos hoffset]

/-! ### Parts of an image -/

variable {image : List Byte}

/-- A field of the image inside one packet. -/
theorem block_field (i off len : Nat) (hin : off + len ≤ 16)
    (hlen : 16 * i + off + len ≤ image.length) :
    ((block image i).drop off).take len = (image.drop (16 * i + off)).take len := by
  have htake : ((image.drop (16 * i)).take 16).length = min 16 (image.length - 16 * i) := by
    rw [List.length_take, List.length_drop]
  unfold block
  dsimp only
  rw [List.drop_append_of_le_length (by omega), List.take_append_of_le_length
    (by rw [List.length_drop]; omega), List.drop_take, List.drop_drop, List.take_take,
    Nat.min_eq_left (by omega)]

theorem block_full {i : Nat} (h : 16 * (i + 1) ≤ image.length) :
    block image i = (image.drop (16 * i)).take 16 := by
  have hlen : ((image.drop (16 * i)).take 16).length = 16 := by
    rw [List.length_take, List.length_drop]
    omega
  unfold block
  dsimp only
  rw [hlen, Nat.sub_self, List.replicate_zero, List.append_nil]

/-- All packets but the last are full. -/
theorem flatten_blocks {k : Nat} (h : 16 * k ≤ image.length) :
    ((List.range k).map (block image)).flatten = image.take (16 * k) := by
  induction k with
  | zero => rfl
  | succ k ih =>
    rw [List.range_succ, List.map_append, List.flatten_append, ih (by omega), List.map_singleton,
      List.flatten_singleton, block_full h, Nat.mul_succ, List.take_add]

theorem length_padded (image : List Byte) : (padded image).length = 16 * packetCount image := by
  unfold padded packetCount
  rw [List.length_append, List.length_replicate]
  omega

/-- The packets one after the other are the image, filled up. -/
theorem flatten_padded (h : image ≠ []) :
    ((List.range (packetCount image)).map (block image)).flatten = padded image := by
  obtain ⟨m, hm⟩ : ∃ m, packetCount image = m + 1 := by
    have hpos := List.length_pos_iff.mpr h
    exact ⟨packetCount image - 1, by unfold packetCount; omega⟩
  have hlow : 16 * m ≤ image.length := by
    unfold packetCount at hm
    omega
  have hlast : (image.drop (16 * m)).take 16 = image.drop (16 * m) := by
    refine List.take_of_length_le ?_
    rw [List.length_drop]
    unfold packetCount at hm
    omega
  have hpad : 16 - (image.drop (16 * m)).length = 16 * (m + 1) - image.length := by
    rw [List.length_drop]
    omega
  rw [hm, List.range_succ, List.map_append, List.flatten_append, flatten_blocks hlow,
    List.map_singleton, List.flatten_singleton]
  unfold block padded
  dsimp only
  rw [hlast, hpad, hm, ← List.append_assoc, List.take_append_drop]

end OtaManager

/-! ### One packet -/

open OtaManager

variable {image : List Byte} {s : Ota} {p : OtaPkt} {pkts : List OtaPkt} {now : BitVec 32} {k : Nat}

/-- What the device reads in packet `k` of the image. -/
structure IsPacket (image : List Byte) (k : Nat) (p : OtaPkt) : Prop where
  adr : otaAdr p = k
  data : otaBlock p = block image k
  field : otaCrcField p = PirMesh.crc16 (toLE 2 k ++ block image k)
  crc : otaCrcOk p = true

theorem Carries.part {octets : List Byte} {w : BitVec 32 × OtaPkt} (h : Carries octets w)
    (off len : Nat) (hle : off + len ≤ octets.length) :
    read w.2.dat off len = (octets.drop off).take len := by
  have hpart := read_part w.2.dat 0 off len octets.length hle
  rw [Nat.zero_add, h.dat] at hpart
  exact hpart

theorem isPacket_carries {w : BitVec 32 × OtaPkt} (h : Carries (imagePacket image k) w)
    (hk : k < 2 ^ 16) : IsPacket image k w.2 := by
  have hblock := length_block image k
  have hhead : (toLE 2 k ++ block image k).length = 18 := by
    rw [List.length_append, length_toLE, hblock]
  have hlen : (imagePacket image k).length = 20 := by
    unfold imagePacket
    rw [List.length_append, hhead, length_toLE]
  have hadr : read w.2.dat 0 2 = toLE 2 k := by
    rw [h.part _ _ (by omega), List.drop_zero, imagePacket, List.append_assoc,
      List.take_left' (length_toLE 2 k)]
  have hdata : read w.2.dat 2 16 = block image k := by
    rw [h.part _ _ (by omega), imagePacket, List.append_assoc,
      List.drop_left' (length_toLE 2 k), List.take_left' hblock]
  have hall : read w.2.dat 0 18 = toLE 2 k ++ block image k := by
    rw [h.part _ _ (by omega), List.drop_zero, imagePacket, List.take_left' hhead]
  have hfield : otaCrcField w.2 = PirMesh.crc16 (toLE 2 k ++ block image k) := by
    have hread : read w.2.dat 18 2 =
        toLE 2 (PirMesh.crc16 (toLE 2 k ++ block image k)).toNat := by
      rw [h.part _ _ (by omega), imagePacket, List.drop_left' hhead]
      exact List.take_of_length_le (by rw [length_toLE])
    rw [otaCrcField, hread, ofLE_toLE]
    refine BitVec.eq_of_toNat_eq ?_
    have hlt := (PirMesh.crc16 (toLE 2 k ++ block image k)).isLt
    rw [BitVec.toNat_ofNat]
    omega
  refine ⟨?_, hdata, hfield, ?_⟩
  · rw [otaAdr, hadr, ofLE_toLE]
    exact Nat.mod_eq_of_lt hk
  · exact decide_eq_true (hfield.trans (congrArg PirMesh.crc16 hall.symm))

/-- A field of a packet is one of the image. -/
theorem IsPacket.field_eq (h : IsPacket image k p) (off len : Nat) (hin : off + len ≤ 16)
    (hlen : 16 * k + off + len ≤ image.length) :
    read p.dat (2 + off) len = (image.drop (16 * k + off)).take len := by
  rw [read_part p.dat 2 off len 16 hin, ← block_field k off len hin hlen, ← h.data]
  rfl

theorem IsPacket.dat_eq (h : IsPacket image k p) (off : Nat) (hin : off < 16)
    (hlen : 16 * k + off < image.length) : image[16 * k + off]? = some (p.dat (2 + off)) := by
  have hread := h.field_eq off 1 (by omega) (by omega)
  have hone : (image.drop (16 * k + off)).take 1 = [p.dat (2 + off)] := hread.symm
  have hhead : ((image.drop (16 * k + off)).take 1)[0]? = some (p.dat (2 + off)) := by
    rw [hone]
    rfl
  rwa [List.getElem?_take_of_lt Nat.one_pos, List.getElem?_drop, Nat.add_zero] at hhead

/-- Part way through an update: `pkts` are the first packets of the image, and the area behind
them is blank. -/
structure Receiving (image : List Byte) (pkts : List OtaPkt) (s : Ota) : Prop where
  taken : Taken s pkts
  packets : ∀ i (h : i < pkts.length), IsPacket image i pkts[i]
  taking : s.Taking
  typed : s.needCheckType = fwCheckAgthm1 ∨ s.needCheckType = fwCheckAgthm2 →
    Announces pkts s.needCheckType
  area : ∀ i, 16 * pkts.length ≤ i → i < otaFirmwareSizeK <<< 10 →
    s.flash (s.otaProgramOffset + i) = blank

/-! ### Packets are taken -/

theorem getCrc32OfBytes_append (val : BitVec 32) (l l' : List Byte) :
    getCrc32OfBytes val (l ++ l') = getCrc32OfBytes (getCrc32OfBytes val l) l' := by
  unfold getCrc32OfBytes
  rw [List.flatMap_append, List.foldl_append]

theorem getCrc32OfBytes_flatten (val : BitVec 32) (blocks : List (List Byte)) :
    blocks.foldl getCrc32OfBytes val = getCrc32OfBytes val blocks.flatten := by
  induction blocks generalizing val with
  | nil => rfl
  | cons b blocks ih =>
    rw [List.foldl_cons, ih, List.flatten_cons, getCrc32OfBytes_append]

/-- The check value over the first packets of an image. -/
theorem checkOver_blocks (hpkts : ∀ i (h : i < pkts.length), IsPacket image i pkts[i])
    (hlen : 16 * pkts.length ≤ image.length) {type : Byte}
    (htype : type = fwCheckAgthm1 ∨ type = fwCheckAgthm2) :
    checkOver type pkts =
      if type = fwCheckAgthm1 then
        (List.range pkts.length).foldl
          (fun val i => val + (PirMesh.crc16 (toLE 2 i ++ block image i)).setWidth 32) 0
      else getCrc32OfBytes 0xFFFFFFFF (image.take (16 * pkts.length)) := by
  have hmap : pkts.map otaBlock = (List.range pkts.length).map (block image) := by
    refine List.ext_getElem (by simp) fun i h _ => ?_
    rw [List.getElem_map, List.getElem_map, List.getElem_range]
    exact (hpkts i (by simpa using h)).data
  have hsum : pkts.map otaCrcField = (List.range pkts.length).map
      fun i => PirMesh.crc16 (toLE 2 i ++ block image i) := by
    refine List.ext_getElem (by simp) fun i h _ => ?_
    rw [List.getElem_map, List.getElem_map, List.getElem_range]
    exact (hpkts i (by simpa using h)).field
  have hne : fwCheckAgthm2 ≠ fwCheckAgthm1 := by decide
  rcases htype with rfl | rfl
  · have hadd : fwCheckAdd fwCheckAgthm1 = fun val p => val + (otaCrcField p).setWidth 32 := rfl
    have hinit : fwCheckInit fwCheckAgthm1 0 = 0 := rfl
    have hfold := congrArg (List.foldl (fun (val : BitVec 32) crc => val + crc.setWidth 32) 0) hsum
    rw [List.foldl_map, List.foldl_map] at hfold
    rw [checkOver, hadd, hinit, if_pos rfl, hfold]
  · have hadd : fwCheckAdd fwCheckAgthm2 = fun val p => getCrc32OfBytes val (otaBlock p) := rfl
    have hinit : fwCheckInit fwCheckAgthm2 0 = 0xFFFFFFFF := rfl
    have hblocks := getCrc32OfBytes_flatten 0xFFFFFFFF (pkts.map otaBlock)
    rw [List.foldl_map] at hblocks
    rw [checkOver, hadd, hinit, if_neg hne, ← flatten_blocks hlen, ← hmap, hblocks]

/-- Packets of an image that has a check type. -/
theorem checkOver_packets (himage : RightImage image)
    (hpkts : ∀ i (h : i < pkts.length), IsPacket image i pkts[i])
    (hlen : pkts.length = packetCount image - 1) {type : Byte}
    (htype : type = fwCheckAgthm1 ∨ type = fwCheckAgthm2) :
    checkOver type pkts = imageCheck type image := by
  have hge := himage.ge
  have hlow : 16 * pkts.length ≤ image.length := by
    rw [hlen]
    unfold packetCount
    omega
  rw [checkOver_blocks hpkts hlow htype, hlen, imageCheck]
  simp only [OtaManager.crc16_eq]

theorem otaImageLen_packet (himage : RightImage image) (h : IsPacket image 1 p) :
    (otaImageLen p).toNat = image.length := by
  have hge := himage.ge
  have hle := himage.le
  have hsize : otaFirmwareSizeK <<< 10 = 196608 := rfl
  have hread : read p.dat 10 4 = (image.drop 24).take 4 :=
    h.field_eq 8 4 (by omega) (by omega)
  rw [otaImageLen, hread, himage.lengthField, BitVec.toNat_ofNat]
  exact Nat.mod_eq_of_lt (by omega)

theorem packetCount_ge (himage : RightImage image) : 3 ≤ packetCount image := by
  have hge := himage.ge
  unfold packetCount
  omega

theorem packetCount_le (himage : RightImage image) : packetCount image ≤ 12288 := by
  have hle := himage.le
  have hsize : otaFirmwareSizeK <<< 10 = 196608 := rfl
  unfold packetCount
  omega

theorem otaTotal_packet (himage : RightImage image) (h : IsPacket image 1 p) :
    (otaTotal p).toNat = packetCount image := by
  have h15 : (15 : BitVec 32).toNat = 15 := rfl
  have h16 : (16 : BitVec 32).toNat = 16 := rfl
  have hlen := himage.le
  have hsize : otaFirmwareSizeK <<< 10 = 196608 := rfl
  rw [otaTotal, BitVec.toNat_setWidth, BitVec.toNat_udiv, BitVec.toNat_add,
    otaImageLen_packet himage h, h15, h16]
  unfold packetCount
  omega

/-- The last packet brings the check value of the image. -/
theorem otaCrcBin_packet {i : ℕ} (h : IsPacket image i p) :
    otaCrcBin p = BitVec.ofNat 32 (ofLE ((block image i).take 4)) := by
  have hread := read_part p.dat 2 0 4 16 (by omega)
  have hdata : read p.dat 2 16 = block image i := h.data
  rw [hdata, List.drop_zero] at hread
  exact congrArg (fun l => BitVec.ofNat 32 (ofLE l)) hread

/-- The check value before the last packet is the one it brings. -/
theorem Receiving.fwCheckVal_eq (h : Receiving image pkts s) (himage : RightImage image)
    (hp : IsPacket image pkts.length p) (hlen : pkts.length = packetCount image - 1)
    (htype : s.needCheckType = fwCheckAgthm1 ∨ s.needCheckType = fwCheckAgthm2) :
    s.fwCheckVal = otaCrcBin p := by
  have hge := himage.ge
  have hcount := packetCount_ge himage
  obtain ⟨-, htotal⟩ := h.taken.checked.total pkts[1] (by simp)
  rw [otaImageLen_packet himage (h.packets 1 (by omega))] at htotal
  have hann := h.typed htype
  obtain ⟨-, hval⟩ := h.taken.checked.check _ hann
  -- packet 1 told the number of packets
  have hlast : packetCount image = s.otaPktTotal.toNat := by
    unfold packetCount
    omega
  rw [if_neg (by omega), List.take_of_length_le (by omega),
    checkOver_packets himage h.packets hlen htype] at hval
  -- the type is the one the image announces, and its check value is right
  obtain ⟨-, p₀, hp₀, hflag, htype₀⟩ := hann
  have hfirst : pkts[0]? = some p₀ := by
    rw [← List.head?_eq_getElem?]
    exact hp₀
  obtain ⟨hpos, hget⟩ := List.getElem?_eq_some_iff.mp hfirst
  have hpkt₀ : IsPacket image 0 p₀ := hget ▸ h.packets 0 hpos
  have h6 : image[6]? = some 0x5D := hflag ▸ hpkt₀.dat_eq 6 (by omega) (by omega)
  have h7 : image[7]? = some s.needCheckType := htype₀ ▸ hpkt₀.dat_eq 7 (by omega) (by omega)
  have hbin := otaCrcBin_packet hp
  rw [hlen] at hbin
  exact hval.trans ((himage.check _ htype h6 h7).trans hbin.symm)

/-- What packet 0, packet 1 and the last packet say is right. -/
theorem Receiving.header (h : Receiving image pkts s) (himage : RightImage image)
    (hp : IsPacket image pkts.length p) : (otaHeader s p).2 = otaSuccess := by
  have hge := himage.ge
  have hcount := packetCount_ge himage
  have hadr := hp.adr
  by_cases h0 : pkts.length = 0
  · rw [h0] at hp
    have hflag : isValidTlkFwBuf p = true :=
      decide_eq_true ((hp.field_eq 8 4 (by omega) (by omega)).trans himage.flag)
    rw [otaHeader, if_pos (hadr.trans h0), hflag]
    rfl
  by_cases h1 : pkts.length = 1
  · rw [h1] at hp
    have htotal : ¬ otaTotal p < 3 := by
      intro hlt
      have hlt' : (otaTotal p).toNat < 3 := hlt
      rw [otaTotal_packet himage hp] at hlt'
      omega
    rw [otaHeader, if_neg (by omega), if_pos (hadr.trans h1), if_neg htotal]
  · obtain ⟨-, htotal⟩ := h.taken.checked.total pkts[1] (by simp)
    rw [otaImageLen_packet himage (h.packets 1 (by omega))] at htotal
    rw [otaHeader, if_neg (by omega), if_neg (by omega)]
    by_cases hlast : (otaAdr p : Int) = s.otaPktTotal.toNat - 1
    · have hlen : pkts.length = packetCount image - 1 := by
        unfold packetCount
        omega
      rw [if_pos hlast, if_neg]
      rintro ⟨htype, hdiff⟩
      exact hdiff (h.fwCheckVal_eq himage hp hlen htype)
    · rw [if_neg hlast]

/-- Packet 0 announces the check type; later ones leave it. -/
theorem Receiving.announces (h : Receiving image pkts s) (hp : IsPacket image pkts.length p)
    (htype : (otaAddCheck (otaHeader s p).1 p).needCheckType = fwCheckAgthm1 ∨
      (otaAddCheck (otaHeader s p).1 p).needCheckType = fwCheckAgthm2) :
    Announces (pkts ++ [p]) (otaAddCheck (otaHeader s p).1 p).needCheckType := by
  have hkeep : ∀ t : Ota, (otaAddCheck t p).needCheckType = t.needCheckType := by
    intro t
    unfold otaAddCheck
    split_ifs
    · rfl
    · rfl
  rw [hkeep] at htype ⊢
  cases pkts with
  | nil =>
    have h0 : otaAdr p = 0 := hp.adr
    have hnone : ¬ (s.needCheckType = fwCheckAgthm1 ∨ s.needCheckType = fwCheckAgthm2) := by
      intro hold
      obtain ⟨-, q, hq, -⟩ := h.typed hold
      cases hq
    rw [otaHeader, if_pos h0] at htype ⊢
    dsimp only at htype ⊢
    by_cases hflag : p.dat 8 = 0x5D
    · rw [if_pos hflag] at htype ⊢
      exact ⟨htype, p, rfl, hflag, rfl⟩
    · rw [if_neg hflag] at htype
      exact absurd htype hnone
  | cons p₀ rest =>
    have hadr : otaAdr p = rest.length + 1 := hp.adr
    have hsame : (otaHeader s p).1.needCheckType = s.needCheckType := by
      unfold otaHeader
      rw [if_neg (by omega)]
      split_ifs
      all_goals rfl
    rw [hsame] at htype ⊢
    exact (announces_append (List.cons_ne_nil p₀ rest)).mpr (h.typed htype)

/-- A packet fits the area, and what is written is read back. -/
theorem otaStore_blank {errFlg : Byte} (herr : errFlg = otaSuccess)
    (hsize : otaAdr p <<< 4 < otaFirmwareSizeK <<< 10)
    (hblank : ∀ i < 16, s.flash (s.otaProgramOffset + otaAdr p <<< 4 + i) = blank) :
    otaStore s p errFlg = ({ s with
      fwOtaValue := if otaAdr p = 0 then p.dat 10 else s.fwOtaValue
      flash := s.flash.write (s.otaProgramOffset + otaAdr p <<< 4) (otaSaved p)
      otaAdrIndex := otaAdr p }, otaSuccess) := by
  have hlen := length_otaSaved p
  have hread : (s.flash.write (s.otaProgramOffset + otaAdr p <<< 4) (otaSaved p)).read
      (s.otaProgramOffset + otaAdr p <<< 4) 16 = otaSaved p := by
    have hback := @Flash.read_write_blank s.flash (s.otaProgramOffset + otaAdr p <<< 4)
      (otaSaved p) (by rwa [hlen])
    rwa [hlen] at hback
  unfold otaStore
  dsimp only
  rw [if_neg (by omega), if_pos hread, herr]

theorem otaWrite_place (now : BitVec 32) (s : Ota) (p : OtaPkt) :
    (otaWrite true now s p).otaProgramOffset = s.otaProgramOffset := by
  have hset : ∀ (t : Ota) (flag : Byte),
      (bltOtaFinishedFlagSet now t flag).otaProgramOffset = t.otaProgramOffset := by
    intro t flag
    unfold bltOtaFinishedFlagSet
    split_ifs
    all_goals rfl
  have hdata : (otaData now s p).1.otaProgramOffset = s.otaProgramOffset := by
    unfold otaData
    dsimp only
    split_ifs
    · exact otaStore_frame.1.trans otaAddCheck_frame.2.2.1
    all_goals rfl
  unfold otaWrite
  dsimp only
  split_ifs
  all_goals first
    | rfl
    | exact hset _ _
    | exact (hset _ _).trans hdata
    | exact hdata

/-- **A packet of the image is taken.** -/
theorem Receiving.packet (h : Receiving image pkts s) (now : BitVec 32) (himage : RightImage image)
    (hp : IsPacket image pkts.length p) (hlt : pkts.length < packetCount image) :
    Receiving image (pkts ++ [p]) (otaWrite true now s p) := by
  have hadr := hp.adr
  have hle := packetCount_le himage
  have hcmd : cmdOtaFwVersion = 65280 ∧ cmdOtaStart = 65281 ∧ cmdOtaEnd = 65282 := ⟨rfl, rfl, rfl⟩
  have hfw : otaFirmwareSizeK <<< 10 = 196608 := rfl
  have hshift : otaAdr p <<< 4 = 16 * pkts.length := by
    rw [hadr, Nat.shiftLeft_eq]
    omega
  have hnext : s.otaAdrIndex + 1 = otaAdr p := by
    rw [h.taken.adrIndex, hadr]
  have hsize : otaAdr p <<< 4 < otaFirmwareSizeK <<< 10 := by
    omega
  -- the tick does not matter
  have hstart : Receiving image pkts { s with bltOtaStartTick := now ||| 1 } :=
    ⟨⟨h.taken.adrIndex, h.taken.index, h.taken.crc, h.taken.stored,
      h.taken.checked.congr rfl rfl rfl⟩, h.packets, h.taking, h.typed, h.area⟩
  generalize hs' : ({ s with bltOtaStartTick := now ||| 1 } : Ota) = s' at hstart
  have hindex' : s'.otaAdrIndex + 1 = otaAdr p := by
    rw [← hs']
    exact hnext
  have herr := hstart.header himage hp
  obtain ⟨-, hflash, hoff, hstartFlag, htime, -, -⟩ := @otaAddCheck_frame s' p
  have hstore := @otaStore_blank (s := otaAddCheck (otaHeader s' p).1 p) (p := p) _ herr hsize (by
    intro i hi
    rw [hflash, hoff, Nat.add_assoc]
    exact hstart.area _ (by omega) (by omega))
  have htaken := hstart.taken.store hindex' hp.crc
    (fun h1 _ => by
      rw [otaImageLen_packet himage (p := p) (by rw [← h1, hadr]; exact hp)]
      have hlen := himage.le
      omega) (by rw [hstore])
  have hwrite : otaWrite true now s p =
      (otaStore (otaAddCheck (otaHeader s' p).1 p) p (otaHeader s' p).2).1 := by
    have hdata : otaData now s p =
        otaStore (otaAddCheck (otaHeader s' p).1 p) p (otaHeader s' p).2 := by
      unfold otaData
      rw [if_pos hnext, hs', if_pos hp.crc]
    unfold otaWrite
    rw [if_neg (by decide), if_neg (by omega), if_neg (by omega), if_neg (by omega), hdata, hstore]
    exact if_neg fun hne => hne rfl
  rw [hwrite]
  refine ⟨htaken, fun i hi => ?_, ?_, ?_, ?_⟩
  · rw [List.getElem_append]
    split_ifs with hi'
    · exact h.packets i hi'
    · rw [List.length_append, List.length_singleton] at hi
      obtain rfl : i = pkts.length := by omega
      simpa using hp
  · rw [hstore]
    exact ⟨hstartFlag.trans hstart.taking.1, htime.trans hstart.taking.2⟩
  · rw [hstore]
    exact hstart.announces hp
  · rw [hstore]
    intro i hge hi
    rw [List.length_append, List.length_singleton] at hge
    dsimp only
    rw [Flash.write_outside _ (Or.inr (by rw [length_otaSaved, hoff]; omega)), hflash, hoff]
    exact hstart.area i (by omega) hi

/-! ### The start and the end -/

/-- The version packet and the start packet. -/
theorem OtaReady.started (h : OtaReady s) (image : List Byte) {w₀ w₁ : BitVec 32 × OtaPkt}
    (h₀ : Carries sendReadFirmwareVersion w₀) (h₁ : Carries sendStartOTA w₁) :
    Receiving image [] (receive s [w₀, w₁]) ∧
      (receive s [w₀, w₁]).otaProgramOffset = s.otaProgramOffset := by
  have hversion : otaAdr w₀.2 = cmdOtaFwVersion := by
    have hread : read w₀.2.dat 0 2 = sendReadFirmwareVersion := h₀.dat
    rw [otaAdr, hread]
    rfl
  have hstart : otaAdr w₁.2 = cmdOtaStart := by
    have hread : read w₁.2.dat 0 2 = sendStartOTA := h₁.dat
    rw [otaAdr, hread]
    rfl
  have hne : cmdOtaStart ≠ cmdOtaFwVersion := by decide
  have hstate : receive s [w₀, w₁] = { s with
      otaAdrIndex := -1
      otaStartFlag := true
      bltOtaStartTick := w₁.1 ||| 1 } := by
    unfold receive
    rw [List.foldl_cons, List.foldl_cons, List.foldl_nil, otaWrite, otaWrite, hversion, hstart]
    exact if_pos h.reboot
  rw [hstate]
  refine ⟨⟨taken_nil rfl, fun i hi => absurd hi (Nat.not_lt_zero i), ⟨rfl, h.unfinished⟩, ?_, ?_⟩,
    rfl⟩
  · intro htype
    dsimp only at htype
    rw [h.untyped] at htype
    exact absurd htype (by decide)
  · intro i _ hi
    exact h.area i hi

/-- The end packet closes the image. -/
theorem Receiving.ended (h : Receiving image pkts s) (himage : RightImage image)
    (hlen : pkts.length = packetCount image) {w : BitVec 32 × OtaPkt}
    (hw : Carries (sendOTAEndData [0x02, 0xff] ((pkts.length : Int) - 1)) w) :
    otaWrite true w.1 s w.2 =
      { s with bltOtaFinishedFlag := otaSuccess, bltOtaFinishedTime := w.1 ||| 1 } := by
  have hcount := packetCount_ge himage
  have hle := packetCount_le himage
  obtain ⟨n, hn⟩ : ∃ n, pkts.length = n + 1 := ⟨pkts.length - 1, by omega⟩
  have hindex : (pkts.length : Int) - 1 = n := by omega
  have hoctets : intOctets ((pkts.length : Int) - 1) = toLE 2 n := by
    rw [hindex]
    exact intOctets_natCast (by omega)
  have htwo : ([0x02, 0xff] : List Byte).length = 2 := rfl
  have hsix : (sendOTAEndData [0x02, 0xff] ((pkts.length : Int) - 1)).length = 6 := by
    simp only [sendOTAEndData, intOctets, List.length_append, length_toLE, List.length_cons,
      List.length_nil]
  have hadr : otaAdr w.2 = cmdOtaEnd := by
    have hread : read w.2.dat 0 2 = [0x02, 0xff] := by
      rw [hw.part _ _ (by omega), sendOTAEndData, List.append_assoc, List.drop_zero,
        List.take_left' htwo]
    rw [otaAdr, hread]
    rfl
  have hmax : read w.2.dat 2 2 = toLE 2 n := by
    rw [hw.part _ _ (by omega), sendOTAEndData, List.append_assoc, List.drop_left' htwo, hoctets,
      List.take_left' (length_toLE 2 n)]
  obtain ⟨-, htotal⟩ := h.taken.checked.total pkts[1] (by simp)
  rw [otaImageLen_packet himage (h.packets 1 (by omega))] at htotal
  have hadrIndex := h.taken.adrIndex
  have hpasses : EndPasses s w.2 := by
    refine ⟨fun _ => ?_, ?_⟩
    · rw [hmax, ofLE_toLE, BitVec.toNat_ofNat]
      omega
    · rw [htotal, hadrIndex, hlen]
      rfl
  have hcmd : cmdOtaEnd ≠ cmdOtaFwVersion ∧ cmdOtaEnd ≠ cmdOtaStart := by decide
  unfold otaWrite
  rw [if_neg (by decide), hadr, if_neg hcmd.1, if_neg hcmd.2, if_pos rfl,
    otaEndErr_eq_success.mpr hpasses, bltOtaFinishedFlagSet_taking h.taking]

/-! ### The flash after the update -/

theorem Stored.flatten (h : Stored s pkts) {k : Nat} (hk : k ≤ pkts.length) :
    s.flash.read s.otaProgramOffset (16 * k) = ((pkts.take k).map otaSaved).flatten := by
  induction k with
  | zero => rfl
  | succ k ih =>
    have hstored := h k (by omega)
    have hplace : s.otaProgramOffset + k <<< 4 = s.otaProgramOffset + 16 * k := by
      rw [Nat.shiftLeft_eq]
      omega
    rw [hplace] at hstored
    rw [Nat.mul_succ, Flash.read_add, ih (by omega), hstored, List.take_add_one,
      List.getElem?_eq_getElem (by omega), Option.toList_some, List.map_append,
      List.flatten_append, List.map_singleton, List.flatten_singleton]

/-- The area holds the image, but for the boot flag. -/
theorem Receiving.flash_eq (h : Receiving image pkts s) (himage : RightImage image)
    (hlen : pkts.length = packetCount image) :
    s.flash.read s.otaProgramOffset (padded image).length = (padded image).set 8 0xff := by
  have hge := packetCount_ge himage
  have hne : image ≠ [] := by
    intro hnil
    have hlong := himage.ge
    rw [hnil] at hlong
    exact absurd hlong (by decide)
  have hsaved : pkts.map otaSaved =
      (List.range (packetCount image)).map fun i =>
        if i = 0 then (block image 0).set 8 0xff else block image i := by
    refine List.ext_getElem (by simp [hlen]) fun i hi _ => ?_
    have hpkt := h.packets i (by simpa using hi)
    rw [List.getElem_map, List.getElem_map, List.getElem_range, otaSaved, hpkt.adr, hpkt.data]
    split_ifs with hzero
    · rw [hzero]
    · rfl
  have hall := h.taken.stored.flatten (le_of_eq rfl)
  rw [List.take_length, hsaved, hlen] at hall
  rw [length_padded, hall, ← flatten_padded hne]
  obtain ⟨n, hn⟩ : ∃ n, packetCount image = n + 1 := ⟨packetCount image - 1, by omega⟩
  rw [hn, List.range_succ_eq_map, List.map_cons, List.map_cons, List.flatten_cons,
    List.flatten_cons, List.map_map, List.map_map, if_pos rfl,
    List.set_append_left _ _ (by rw [length_block]; decide)]
  rfl

/-- The flag that the device writes is the one of the image; the flag of the running firmware
lies in the other place. -/
theorem otaSetFlag_flash (himage : RightImage image)
    (hplace : s.otaProgramOffset = 0 ∨ s.otaProgramOffset = otaProgramBootAddr)
    (hread : s.flash.read s.otaProgramOffset (padded image).length = (padded image).set 8 0xff) :
    (otaSetFlag s).flash.read s.otaProgramOffset (padded image).length = padded image := by
  have hboot : otaProgramBootAddr = 262144 := rfl
  have hle := packetCount_le himage
  have hlen := length_padded image
  have hge := himage.ge
  have hrunning : ∀ i < (padded image).length, (otaSetFlag s).flash (s.otaProgramOffset + i) =
      s.flash.write (s.otaProgramOffset + 8) [0x4b] (s.otaProgramOffset + i) := by
    intro i hi
    unfold otaSetFlag
    refine Flash.write_outside _ ?_
    simp only [List.length_cons, List.length_nil]
    rcases hplace with hoff | hoff
    · rw [hoff, if_neg (by decide)]
      omega
    · rw [hoff, if_pos (by decide)]
      omega
  have hflag : (padded image)[8]? = some 0x4b := by
    have hhead : ((image.drop 8).take 4)[0]? = some 0x4b := by
      rw [himage.flag]
      rfl
    rw [List.getElem?_take_of_lt (by decide), List.getElem?_drop] at hhead
    unfold padded
    rw [List.getElem?_append_left (by omega)]
    exact hhead
  refine List.ext_getElem (Flash.length_read _ _ _) fun i h₁ h₂ => ?_
  have hold := congrArg (fun l : List Byte => l[i]?) hread
  rw [List.getElem?_set, List.getElem?_eq_getElem (by rw [Flash.length_read]; exact h₂),
    Flash.getElem_read] at hold
  rw [Flash.getElem_read, hrunning i h₂]
  by_cases hi : i = 8
  · subst hi
    rw [if_pos rfl, if_pos h₂] at hold
    rw [Flash.write_head, Option.some.inj hold]
    rw [List.getElem?_eq_getElem h₂] at hflag
    exact (Option.some.inj hflag).symm
  · rw [if_neg (Ne.symm hi), List.getElem?_eq_getElem h₂] at hold
    rw [Flash.write_outside _ (by simp only [List.length_cons, List.length_nil]; omega)]
    exact Option.some.inj hold

/-! ### The whole update -/

/-- What a whole update leaves. -/
structure Updated (image : List Byte) (off : Nat) (s : Ota) : Prop where
  succeeded : s.Succeeded
  area : s.flash.read off (padded image).length = (padded image).set 8 0xff
  flagged : (otaSetFlag s).flash.read off (padded image).length = padded image

/-- The packets from packet `k` on, and the end. -/
theorem Receiving.rest (himage : RightImage image) {m : Nat} : ∀ {pkts : List OtaPkt} {s : Ota}
    {writes : List (BitVec 32 × OtaPkt)}, Receiving image pkts s → pkts ≠ [] →
    pkts.length + m = packetCount image →
    (s.otaProgramOffset = 0 ∨ s.otaProgramOffset = otaProgramBootAddr) →
    List.Forall₂ Carries (sendPartData image (offsetOf image pkts.length) ((pkts.length : Int) - 1))
      writes → Updated image s.otaProgramOffset (receive s writes) := by
  have hle := packetCount_le himage
  induction m with
  | zero =>
    intro pkts s writes h _ hlen hplace hw
    rw [Nat.add_zero] at hlen
    rw [hlen, sendPartData_end, ← hlen] at hw
    obtain ⟨w, _, hend, hnil, rfl⟩ := List.forall₂_cons_left_iff.mp hw
    obtain rfl := List.forall₂_nil_left_iff.mp hnil
    have hflash := h.flash_eq himage hlen
    have hfinal : receive s [w] =
        { s with bltOtaFinishedFlag := otaSuccess, bltOtaFinishedTime := w.1 ||| 1 } :=
      h.ended himage hlen hend
    rw [hfinal]
    exact ⟨⟨now_or_one_ne_zero w.1, rfl⟩, hflash, otaSetFlag_flash himage hplace hflash⟩
  | succ m ih =>
    intro pkts s writes h hne hlen hplace hw
    have hpos : pkts.length ≠ 0 := fun hzero => hne (List.length_eq_zero_iff.mp hzero)
    rw [sendPartData_packet (by omega) (by omega), if_neg hpos, List.nil_append] at hw
    obtain ⟨w, later, hfirst, hlater, rfl⟩ := List.forall₂_cons_left_iff.mp hw
    have hpacket := h.packet w.1 himage (isPacket_carries hfirst (by omega)) (by omega)
    have hnext : (pkts ++ [w.2]).length = pkts.length + 1 := List.length_append
    have hcast : ((pkts.length + 1 : Nat) : Int) - 1 = pkts.length := by omega
    rw [← otaWrite_place w.1 s w.2] at hplace ⊢
    refine ih hpacket (by simp) (by omega) hplace ?_
    rw [hnext, hcast]
    exact hlater

/-- **A right image is taken, and lies in the flash.**  Whatever times the packets come at. -/
theorem otaWrite_image {image : List Byte} (himage : RightImage image) {s : Ota} (hs : OtaReady s)
    {writes : List (BitVec 32 × OtaPkt)}
    (hw : List.Forall₂ Carries (sendPartData image 0 (-1)) writes) :
    Updated image s.otaProgramOffset (receive s writes) := by
  have hcount := packetCount_ge himage
  have hle := packetCount_le himage
  have hfirst : sendPartData image 0 (-1) =
      sendPartData image (offsetOf image 0) ((0 : Nat) - 1) := by
    have hoffset : offsetOf image 0 = 0 := Nat.zero_min _
    rw [hoffset]
    rfl
  rw [hfirst, sendPartData_packet (by omega) (by decide), if_pos rfl] at hw
  obtain ⟨w₀, _, h₀, hw₀, rfl⟩ := List.forall₂_cons_left_iff.mp hw
  obtain ⟨w₁, _, h₁, hw₁, rfl⟩ := List.forall₂_cons_left_iff.mp hw₀
  obtain ⟨w, later, hpacket, hlater, rfl⟩ := List.forall₂_cons_left_iff.mp hw₁
  obtain ⟨hstarted, hplace⟩ := hs.started image h₀ h₁
  have htaken := hstarted.packet w.1 himage (isPacket_carries hpacket (by decide))
    (by rw [List.length_nil]; omega)
  have hplace' : (otaWrite true w.1 (receive s [w₀, w₁]) w.2).otaProgramOffset =
      s.otaProgramOffset := (otaWrite_place _ _ _).trans hplace
  rw [← hplace']
  refine htaken.rest himage (m := packetCount image - 1) (by simp) ?_ ?_ hlater
  · rw [List.nil_append, List.length_singleton]
    omega
  · rw [hplace']
    exact hs.place

/-- An image of 48 octets with its CRC-32. -/
def sampleImage : List Byte :=
  let head := List.replicate 6 0 ++ [0x5D, 2] ++ toLE 4 startUpFlag ++ List.replicate 12 0 ++
    toLE 4 48 ++ List.replicate 4 0
  head ++ toLE 4 (getCrc32OfBytes 0xFFFFFFFF head).toNat ++ List.replicate 12 0

/-- The write of octets at time 0. -/
def writeOf (octets : List Byte) : BitVec 32 × OtaPkt :=
  (0, pktOf (BitVec.ofNat 16 (octets.length + 3)) octets)

theorem carries_writeOf (octets : List Byte) : Carries octets (writeOf octets) := by
  refine ⟨rfl, List.ext_getElem (length_read _ _ _) fun i _ h => ?_⟩
  rw [getElem_read, Nat.zero_add]
  exact List.getD_eq_getElem _ _ h

theorem otaWrite_image_sample :
    Updated sampleImage 0 (receive (otaBoot 0 fun _ => blank)
      ((sendPartData sampleImage 0 (-1)).map writeOf)) :=
  otaWrite_image
    { ge := by decide +kernel
      le := by decide +kernel
      lengthField := by decide +kernel
      flag := by decide +kernel
      check := by
        rintro type (rfl | rfl) _ h7
        · exact absurd h7 (by decide +kernel)
        · decide +kernel }
    (s := otaBoot 0 fun _ => blank) ⟨rfl, by decide, rfl, .inl rfl, fun _ _ => rfl⟩
    (List.forall₂_map_right_iff.mpr (List.forall₂_same.mpr fun octets _ => carries_writeOf octets))

end PirMesh
