import PirMesh.Library.Crc
import PirMesh.Ota.Cleanup
import PirMesh.Ota.Sender

/-! # Ota — The check value of an image in blocks (`mesh_node.c`)

The mesh update checks an image block by block: the first kind of check value is the sum of the
check sums of its lines of 16 octets, each with its number in front, the second a CRC-32 that
goes on from block to block.  Over consecutive blocks they give the value of the whole image,
which is the one `otaWrite` comes to packet by packet; and the CRC-32 of the half octets is the
one bit by bit (`blkCrc_agree`). -/

namespace PirMesh

open Nor Reassembly OtaManager

/-! ### The functions -/

/-- The octets of a line. -/
def otaLine (data : List Byte) (i : ℕ) : List Byte := (data.drop (16 * i)).take 16

/-- The number of a line, as `buf` begins. -/
def lineOctets (line : BitVec 32) : List Byte :=
  [(line &&& 0xff).setWidth 8, ((line >>> 8) &&& 0xff).setWidth 8]

def lineCrc (data : List Byte) (addr : BitVec 32) (i : ℕ) : BitVec 32 :=
  (PirMesh.crc16 (lineOctets (addr / 16 + BitVec.ofNat 32 i) ++ otaLine data i)).setWidth 32

def getBlkCrcTlkType1 (data : List Byte) (len : ℕ) (addr : BitVec 32) : BitVec 32 :=
  (List.range (len / 16)).foldl (fun crc i => crc + lineCrc data addr i) 0

/-- `get_crc32_16bytes` is `getCrc32OfBytes` of a line. -/
def getBlkCrcTlkType2 (crcInit : BitVec 32) (data : List Byte) (len : ℕ) : BitVec 32 :=
  (List.range (len / 16)).foldl (fun crc i => getCrc32OfBytes crc (otaLine data i)) crcInit

/-- The blocks one after the other, each with its own address. -/
def sumBlkCrcTlkType1 : BitVec 32 → List (List Byte) → BitVec 32
  | _, [] => 0
  | addr, b :: blocks =>
    getBlkCrcTlkType1 b b.length addr + sumBlkCrcTlkType1 (addr + BitVec.ofNat 32 b.length) blocks

/-- Each block goes on from the value of the one before. -/
def chainBlkCrcTlkType2 (crcInit : BitVec 32) (blocks : List (List Byte)) : BitVec 32 :=
  blocks.foldl (fun crc b => getBlkCrcTlkType2 crc b b.length) crcInit

/-- The polynomial of CRC-32, reflected. -/
def crc32Poly : BitVec 32 := 0xEDB88320

/-! ### The sum of the lines -/

theorem toNat_lowOctet (x : BitVec 32) : ((x &&& 0xff).setWidth 8).toNat = x.toNat % 256 := by
  have hmask : (0xff : BitVec 32).toNat = 2 ^ 8 - 1 := rfl
  rw [BitVec.toNat_setWidth, BitVec.toNat_and, hmask, Nat.and_two_pow_sub_one_eq_mod]
  omega

/-- Only 16 bits of a line's number count. -/
theorem lineOctets_congr {line line' : BitVec 32}
    (h : line.toNat % 65536 = line'.toNat % 65536) : lineOctets line = lineOctets line' := by
  unfold lineOctets
  refine congrArg₂ (fun a b => [a, b]) (BitVec.eq_of_toNat_eq ?_) (BitVec.eq_of_toNat_eq ?_)
  · rw [toNat_lowOctet, toNat_lowOctet]
    omega
  · rw [toNat_lowOctet, toNat_lowOctet, BitVec.toNat_ushiftRight, BitVec.toNat_ushiftRight,
      Nat.shiftRight_eq_div_pow, Nat.shiftRight_eq_div_pow]
    omega

/-- A line of the whole image has the index of its packet in front. -/
theorem lineOctets_ofNat (i : ℕ) : lineOctets (0 / 16 + BitVec.ofNat 32 i) = toLE 2 i := by
  have hline : ((0 : BitVec 32) / 16 + BitVec.ofNat 32 i).toNat = i % 2 ^ 32 := by
    have hzero : (0 : BitVec 32) / 16 = 0#32 := rfl
    rw [hzero, BitVec.zero_add, BitVec.toNat_ofNat]
  unfold lineOctets
  refine congrArg₂ (fun a b => [a, b]) (BitVec.eq_of_toNat_eq ?_) (BitVec.eq_of_toNat_eq ?_)
  · rw [toNat_lowOctet, hline, BitVec.toNat_ofNat]
    omega
  · rw [toNat_lowOctet, BitVec.toNat_ushiftRight, hline, Nat.shiftRight_eq_div_pow,
      BitVec.toNat_ofNat]
    omega

theorem getBlkCrcTlkType1_eq_sum (data : List Byte) (len : ℕ) (addr : BitVec 32) :
    getBlkCrcTlkType1 data len addr = ((List.range (len / 16)).map (lineCrc data addr)).sum := by
  have hfold : ∀ (l : List ℕ) (c : BitVec 32),
      l.foldl (fun crc i => crc + lineCrc data addr i) c = c + (l.map (lineCrc data addr)).sum := by
    intro l
    induction l with
    | nil => exact fun c => (add_zero c).symm
    | cons i l ih =>
      intro c
      rw [List.foldl_cons, ih, List.map_cons, List.sum_cons, add_assoc]
  exact (hfold _ 0).trans (zero_add _)

/-- **A block in front of the rest.** -/
theorem getBlkCrcTlkType1_append {b : List Byte} (hb : b.length % 16 = 0) (rest : List Byte)
    (addr : BitVec 32) :
    getBlkCrcTlkType1 (b ++ rest) (b ++ rest).length addr =
      getBlkCrcTlkType1 b b.length addr +
        getBlkCrcTlkType1 rest rest.length (addr + BitVec.ofNat 32 b.length) := by
  have hcount : (b ++ rest).length / 16 = b.length / 16 + rest.length / 16 := by
    rw [List.length_append]
    omega
  rw [getBlkCrcTlkType1_eq_sum, getBlkCrcTlkType1_eq_sum, getBlkCrcTlkType1_eq_sum, hcount,
    List.range_add, List.map_append, List.sum_append, List.map_map]
  -- the lines of the second part are numbered on, by octets or by lines
  refine congrArg₂ (fun x y : List (BitVec 32) => x.sum + y.sum) ?_ ?_
  · refine List.map_congr_left fun i hi => ?_
    have hlt := List.mem_range.mp hi
    have hline : otaLine (b ++ rest) i = otaLine b i := by
      unfold otaLine
      rw [List.drop_append_of_le_length (by omega), List.take_append_of_le_length]
      rw [List.length_drop]
      omega
    rw [lineCrc, lineCrc, hline]
  · refine List.map_congr_left fun i hi => ?_
    have hline : otaLine (b ++ rest) (b.length / 16 + i) = otaLine rest i := by
      have hat : 16 * (b.length / 16 + i) = b.length + 16 * i := by omega
      unfold otaLine
      rw [hat, List.drop_append, List.drop_eq_nil_of_le (Nat.le_add_right _ _),
        Nat.add_sub_cancel_left, List.nil_append]
    have hnumber : lineOctets (addr / 16 + BitVec.ofNat 32 (b.length / 16 + i)) =
        lineOctets ((addr + BitVec.ofNat 32 b.length) / 16 + BitVec.ofNat 32 i) := by
      have h16 : (16 : BitVec 32).toNat = 16 := rfl
      have haddr := addr.isLt
      refine lineOctets_congr ?_
      simp only [BitVec.toNat_add, BitVec.toNat_udiv, BitVec.toNat_ofNat, h16]
      omega
    change lineCrc (b ++ rest) addr (b.length / 16 + i) = _
    rw [lineCrc, lineCrc, hline, hnumber]

theorem sumBlkCrcTlkType1_eq {blocks : List (List Byte)}
    (h : ∀ b ∈ blocks, b.length % 16 = 0) (addr : BitVec 32) :
    sumBlkCrcTlkType1 addr blocks =
      getBlkCrcTlkType1 blocks.flatten blocks.flatten.length addr := by
  induction blocks generalizing addr with
  | nil => rfl
  | cons b blocks ih =>
    obtain ⟨hb, hblocks⟩ := List.forall_mem_cons.mp h
    rw [sumBlkCrcTlkType1, ih hblocks, List.flatten_cons, getBlkCrcTlkType1_append hb]

/-! ### The CRC-32 over the lines -/

/-- The lines one after the other are the data. -/
theorem getBlkCrcTlkType2_eq {data : List Byte} (h : data.length % 16 = 0) (init : BitVec 32) :
    getBlkCrcTlkType2 init data data.length = getCrc32OfBytes init data := by
  have hcount : 16 * (data.length / 16) = data.length := by omega
  have hlines : (List.range (data.length / 16)).map (otaLine data) =
      (List.range (data.length / 16)).map (block data) := by
    refine List.map_congr_left fun i hi => ?_
    have hlt := List.mem_range.mp hi
    exact (block_full (by omega)).symm
  have hfold := getCrc32OfBytes_flatten init ((List.range (data.length / 16)).map (otaLine data))
  rw [List.foldl_map, hlines, flatten_blocks (by omega), hcount, List.take_length] at hfold
  exact hfold

theorem chainBlkCrcTlkType2_eq {blocks : List (List Byte)} (h : ∀ b ∈ blocks, b.length % 16 = 0)
    (init : BitVec 32) : chainBlkCrcTlkType2 init blocks = getCrc32OfBytes init blocks.flatten := by
  rw [← getCrc32OfBytes_flatten]
  induction blocks generalizing init with
  | nil => rfl
  | cons b blocks ih =>
    obtain ⟨hb, hblocks⟩ := List.forall_mem_cons.mp h
    rw [List.foldl_cons, ← ih hblocks, ← getBlkCrcTlkType2_eq hb]
    rfl

theorem length_flatten_mod {blocks : List (List Byte)} (h : ∀ b ∈ blocks, b.length % 16 = 0) :
    blocks.flatten.length % 16 = 0 := by
  induction blocks with
  | nil => rfl
  | cons b blocks ih =>
    obtain ⟨hb, hblocks⟩ := List.forall_mem_cons.mp h
    have hrest := ih hblocks
    rw [List.flatten_cons, List.length_append]
    omega

/-! ### Half octets and bits -/

theorem isTable_crc32HalfTbl : Crc.IsTable crc32Poly 4 crc32HalfTbl := by decide

/-- One half octet is four bits. -/
theorem crc32HalfStep_eq (crc : BitVec 32) {half : Byte} (h : half.toNat < 16) :
    crc32HalfStep crc half = Crc.bits crc32Poly 4 (crc ^^^ half.setWidth 32) := by
  have hhigh : half.setWidth 32 >>> 4 = 0#32 := by
    refine BitVec.eq_of_toNat_eq ?_
    have hwide : (half.setWidth 32).toNat = half.toNat := by
      rw [BitVec.toNat_setWidth]
      omega
    have hzero : (0#32).toNat = 0 := rfl
    rw [BitVec.toNat_ushiftRight, hwide, Nat.shiftRight_eq_div_pow, hzero]
    omega
  have hlow : ∀ x : BitVec 32, (x &&& 0x0f).toNat = x.toNat % 2 ^ 4 := by
    intro x
    have hmask : (0x0f : BitVec 32).toNat = 2 ^ 4 - 1 := rfl
    rw [BitVec.toNat_and, hmask, Nat.and_two_pow_sub_one_eq_mod]
  rw [isTable_crc32HalfTbl.bits_eq, BitVec.ushiftRight_xor_distrib, hhigh, BitVec.xor_zero,
    crc32HalfStep, hlow]

/-- **The CRC-32 by half octets is the one bit by bit.** -/
theorem getCrc32OfBytes_eq (init : BitVec 32) (data : List Byte) :
    getCrc32OfBytes init data = Crc.run crc32Poly init data := by
  induction data generalizing init with
  | nil => rfl
  | cons b data ih =>
    have hlow : (b &&& 0x0f).toNat < 16 := by
      have hmask : (0x0f : Byte).toNat = 2 ^ 4 - 1 := rfl
      rw [BitVec.toNat_and, hmask, Nat.and_two_pow_sub_one_eq_mod]
      exact Nat.mod_lt _ (by decide)
    have hhigh : (b >>> 4).toNat < 16 := by
      have hlt := b.isLt
      rw [BitVec.toNat_ushiftRight, Nat.shiftRight_eq_div_pow]
      omega
    have hone : getCrc32OfBytes init [b] = Crc.octet crc32Poly init b := by
      rw [Crc.octet_halves (by decide), ← crc32HalfStep_eq _ hlow, ← crc32HalfStep_eq _ hhigh]
      rfl
    have hcons : getCrc32OfBytes init (b :: data) =
        getCrc32OfBytes (getCrc32OfBytes init [b]) data := getCrc32OfBytes_append init [b] data
    rw [hcons, hone, ih]
    rfl

/-! ### Packet by packet -/

/-- An update that has taken the packets of the image.  Behind the image comes one packet more,
as its length field says; octets 6 and 7 name the check type, or it is an older one. -/
structure ImageReceived (type : Byte) (image : List Byte) (s : Ota)
    (writes : List (BitVec 32 × OtaPkt)) : Prop where
  begins : s.otaAdrIndex = -1
  nonempty : image ≠ []
  count : image.length = 16 * writes.length
  packets : ∀ i (h : i < writes.length), IsPacket image i writes[i].2
  taken : ∀ i < writes.length, (receive s (writes.take (i + 1))).otaAdrIndex = i
  typed : (if image[6]? = some 0x5D then image[7]? else some s.needCheckType) = some type
  total : 2 ≤ writes.length → (ofLE ((image.drop 24).take 4) + 15) / 16 = writes.length + 1

/-- What a packet that is taken does to the check. -/
theorem otaWrite_check {s : Ota} {p : OtaPkt} (h : s.TakesPacket p) (now : BitVec 32) :
    (otaWrite true now s p).needCheckType = (otaAddCheck (otaHeader s p).1 p).needCheckType ∧
      (otaWrite true now s p).fwCheckVal = (otaAddCheck (otaHeader s p).1 p).fwCheckVal ∧
      (otaWrite true now s p).otaPktTotal = (otaAddCheck (otaHeader s p).1 p).otaPktTotal := by
  obtain ⟨hversion, hstart, hend⟩ := h.not_command
  have hset : ∀ (t : Ota) (flag : Byte),
      (bltOtaFinishedFlagSet now t flag).needCheckType = t.needCheckType ∧
        (bltOtaFinishedFlagSet now t flag).fwCheckVal = t.fwCheckVal ∧
        (bltOtaFinishedFlagSet now t flag).otaPktTotal = t.otaPktTotal := by
    intro t flag
    unfold bltOtaFinishedFlagSet
    split_ifs
    · exact ⟨rfl, rfl, rfl⟩
    · exact ⟨rfl, rfl, rfl⟩
  -- the check does not read the tick
  have htick : ∀ t : Ota, t = { s with bltOtaStartTick := now ||| 1 } →
      (otaAddCheck (otaHeader t p).1 p).needCheckType =
          (otaAddCheck (otaHeader s p).1 p).needCheckType ∧
        (otaAddCheck (otaHeader t p).1 p).fwCheckVal =
          (otaAddCheck (otaHeader s p).1 p).fwCheckVal ∧
        (otaAddCheck (otaHeader t p).1 p).otaPktTotal =
          (otaAddCheck (otaHeader s p).1 p).otaPktTotal := by
    rintro t rfl
    unfold otaAddCheck otaHeader
    split_ifs
    all_goals exact ⟨rfl, rfl, rfl⟩
  obtain ⟨htype, hval, htotal⟩ := htick _ rfl
  obtain ⟨-, -, -, -, -, htotal', htype', hval'⟩ := @otaStore_frame
    (otaAddCheck (otaHeader { s with bltOtaStartTick := now ||| 1 } p).1 p) p
    (otaHeader { s with bltOtaStartTick := now ||| 1 } p).2
  have hdata : otaData now s p =
      otaStore (otaAddCheck (otaHeader { s with bltOtaStartTick := now ||| 1 } p).1 p) p
        (otaHeader { s with bltOtaStartTick := now ||| 1 } p).2 := by
    unfold otaData
    rw [if_pos h.1, if_pos h.2.1]
  unfold otaWrite
  rw [if_neg (by decide), if_neg hversion, if_neg hstart, if_neg hend, hdata]
  dsimp only
  split_ifs
  · obtain ⟨h₁, h₂, h₃⟩ := hset _ _
    exact ⟨h₁.trans (htype'.trans htype), h₂.trans (hval'.trans hval),
      h₃.trans (htotal'.trans htotal)⟩
  · exact ⟨htype'.trans htype, hval'.trans hval, htotal'.trans htotal⟩

namespace ImageReceived

variable {type : Byte} {image : List Byte} {s : Ota} {writes : List (BitVec 32 × OtaPkt)} {k : ℕ}

theorem receive_succ (s : Ota) (hk : k < writes.length) :
    receive s (writes.take (k + 1)) =
      otaWrite true writes[k].1 (receive s (writes.take k)) writes[k].2 := by
  unfold receive
  rw [List.take_add_one, List.getElem?_eq_getElem hk, Option.toList_some, List.foldl_append]
  rfl

theorem index (h : ImageReceived type image s writes) (hk : k ≤ writes.length) :
    (receive s (writes.take k)).otaAdrIndex + 1 = k := by
  cases k with
  | zero => exact congrArg (· + 1) h.begins
  | succ k =>
    rw [h.taken k hk]
    rfl

/-- The index moves for a packet that is written only. -/
theorem takes (h : ImageReceived type image s writes) (hk : k < writes.length) :
    (receive s (writes.take k)).TakesPacket writes[k].2 := by
  obtain ⟨-, heffect⟩ :=
    otaWrite_effect writes[k].1 (receive s (writes.take k)) writes[k].2
  rw [← receive_succ s hk, h.taken k hk] at heffect
  have hold := h.index (Nat.le_of_lt hk)
  by_contra hnot
  rw [if_neg hnot] at heffect
  split_ifs at heffect
  · have hidx := heffect.2
    omega
  · have hidx := heffect.2
    omega

/-- The check after the packets `pkts` of an image in `n`. -/
structure Checked (type : Byte) (n : ℕ) (pkts : List OtaPkt) (s : Ota) : Prop where
  typed : pkts ≠ [] → s.needCheckType = type
  val : pkts ≠ [] → s.fwCheckVal = checkOver type pkts
  total : 2 ≤ pkts.length → s.otaPktTotal.toNat = n + 1

/-- Packet 0 sets the type, or leaves the one there is, and begins the check value. -/
theorem checked_first (h : ImageReceived type image s writes)
    (htype : type = fwCheckAgthm1 ∨ type = fwCheckAgthm2) {p : OtaPkt} (hp : IsPacket image 0 p)
    (n : ℕ) : Checked type n [p] (otaAddCheck (otaHeader s p).1 p) := by
  have hcount := h.count
  have hpos := List.length_pos_iff.mpr h.nonempty
  have h6 : image[6]? = some (p.dat 8) := hp.dat_eq 6 (by decide) (by omega)
  have h7 : image[7]? = some (p.dat 9) := hp.dat_eq 7 (by decide) (by omega)
  have htyped : (if p.dat 8 = 0x5D then p.dat 9 else s.needCheckType) = type := by
    have hold := h.typed
    rw [h6, h7] at hold
    split_ifs at hold with hsome
    · rw [if_pos (Option.some.inj hsome)]
      exact Option.some.inj hold
    · rw [if_neg fun hc => hsome (congrArg some hc)]
      exact Option.some.inj hold
  have hinit : fwCheckInit type s.fwCheckVal = fwCheckInit type 0 := by
    unfold fwCheckInit
    rcases htype with rfl | rfl
    · rfl
    · rfl
  have hstate : otaAddCheck (otaHeader s p).1 p = { s with
      needCheckType := type
      fwCheckVal := fwCheckAdd type (fwCheckInit type 0) p } := by
    simp only [otaAddCheck, otaHeader, hp.adr, true_or, if_true, htyped, hinit]
  rw [hstate]
  exact ⟨fun _ => rfl, fun _ => rfl, fun h2 => absurd h2 (Nat.not_succ_le_self 1)⟩

theorem bound (h : ImageReceived type image s writes) : writes.length ≤ 12288 := by
  by_contra hlt
  have hk : 12288 < writes.length := Nat.lt_of_not_le hlt
  have hin := (h.takes hk).2.2
  rw [(h.packets 12288 hk).adr] at hin
  exact absurd hin (by decide)

/-- Packet 1 tells the number of packets. -/
theorem otaTotal_eq (h : ImageReceived type image s writes) (h2 : 2 ≤ writes.length) {p : OtaPkt}
    (hp : IsPacket image 1 p) : (otaTotal p).toNat = writes.length + 1 := by
  have hcount := h.count
  have htotal := h.total h2
  have hbound := h.bound
  have hread : read p.dat 10 4 = (image.drop 24).take 4 := hp.field_eq 8 4 (by omega) (by omega)
  have h15 : (15 : BitVec 32).toNat = 15 := rfl
  have h16 : (16 : BitVec 32).toNat = 16 := rfl
  rw [otaTotal, BitVec.toNat_setWidth, BitVec.toNat_udiv, BitVec.toNat_add, otaImageLen, hread,
    BitVec.toNat_ofNat, h15, h16]
  omega

/-- A later packet goes into the check value. -/
theorem checked_later {t : Ota} {n : ℕ} {pkts : List OtaPkt} {p : OtaPkt}
    (hc : Checked type n pkts t) (hadr : otaAdr p = pkts.length) (hne : pkts ≠ [])
    (hlt : pkts.length < n) (htotal : otaAdr p = 1 → (otaTotal p).toNat = n + 1) :
    Checked type n (pkts ++ [p]) (otaAddCheck (otaHeader t p).1 p) := by
  have hpos := List.length_pos_iff.mpr hne
  -- packet 1 brings the number of packets, later ones find it
  have hheader : (otaHeader t p).1.needCheckType = t.needCheckType ∧
      (otaHeader t p).1.fwCheckVal = t.fwCheckVal ∧
      (otaHeader t p).1.otaPktTotal.toNat = n + 1 := by
    unfold otaHeader
    rw [if_neg (by omega)]
    by_cases h1 : otaAdr p = 1
    · rw [if_pos h1]
      exact ⟨rfl, rfl, htotal h1⟩
    · have hold := hc.total (by omega)
      rw [if_neg h1]
      split
      · exact ⟨rfl, rfl, hold⟩
      · exact ⟨rfl, rfl, hold⟩
  obtain ⟨htype, hval, hnum⟩ := hheader
  have hadd : otaAddCheck (otaHeader t p).1 p = { (otaHeader t p).1 with
      fwCheckVal :=
        fwCheckAdd (otaHeader t p).1.needCheckType (otaHeader t p).1.fwCheckVal p } := by
    unfold otaAddCheck
    rw [if_pos (.inr (by omega))]
  rw [hadd]
  refine ⟨fun _ => htype.trans (hc.typed hne), fun _ => ?_, fun _ => hnum⟩
  dsimp only
  rw [htype, hval, hc.typed hne, hc.val hne, checkOver_append]

theorem Checked.congr {n : ℕ} {pkts : List OtaPkt} {t t' : Ota} (hc : Checked type n pkts t)
    (h : t'.needCheckType = t.needCheckType ∧ t'.fwCheckVal = t.fwCheckVal ∧
      t'.otaPktTotal = t.otaPktTotal) : Checked type n pkts t' := by
  obtain ⟨htype, hval, htotal⟩ := h
  refine ⟨fun hne => htype.trans (hc.typed hne), fun hne => hval.trans (hc.val hne), fun h2 => ?_⟩
  rw [htotal]
  exact hc.total h2

/-- The check after `k` packets, whatever comes behind. -/
theorem checked (h : ImageReceived type image s writes)
    (htype : type = fwCheckAgthm1 ∨ type = fwCheckAgthm2) (hk : k ≤ writes.length) :
    Checked type writes.length ((writes.take k).map Prod.snd) (receive s (writes.take k)) := by
  induction k with
  | zero => exact ⟨fun hne => absurd rfl hne, fun hne => absurd rfl hne, nofun⟩
  | succ k ih =>
    have hold := ih (Nat.le_of_lt hk)
    have hpkts : (writes.take (k + 1)).map Prod.snd =
        (writes.take k).map Prod.snd ++ [writes[k].2] := by
      rw [List.take_add_one, List.getElem?_eq_getElem hk, Option.toList_some, List.map_append]
      rfl
    have hlen : ((writes.take k).map Prod.snd).length = k := by
      rw [List.length_map, List.length_take]
      omega
    have hp := h.packets k hk
    rw [receive_succ s hk, hpkts]
    refine Checked.congr ?_ (otaWrite_check (h.takes hk) writes[k].1)
    -- the first packet names the type and starts the value
    by_cases h0 : k = 0
    · subst h0
      exact h.checked_first htype hp _
    · refine checked_later hold (hp.adr.trans hlen.symm) ?_ (by omega) fun h1 => ?_
      · refine List.length_pos_iff.mp ?_
        omega
      · obtain rfl : k = 1 := hp.adr.symm.trans h1
        exact h.otaTotal_eq (by omega) hp

/-- The running value is the one of the packets. -/
theorem fwCheckVal_eq (h : ImageReceived type image s writes)
    (htype : type = fwCheckAgthm1 ∨ type = fwCheckAgthm2) :
    (receive s writes).fwCheckVal =
      if type = fwCheckAgthm1 then getBlkCrcTlkType1 image image.length 0
      else getBlkCrcTlkType2 0xFFFFFFFF image image.length := by
  have hcount := h.count
  have hpos := List.length_pos_iff.mpr h.nonempty
  have hne : writes.map Prod.snd ≠ [] := by
    refine List.length_pos_iff.mp ?_
    rw [List.length_map]
    omega
  have hchecked := h.checked htype (Nat.le_refl _)
  rw [List.take_length] at hchecked
  have hblocks := @checkOver_blocks image (writes.map Prod.snd) ?_ ?_ _ htype
  · have hhalf : image.length / 16 = writes.length := by omega
    have hall : 16 * writes.length = image.length := hcount.symm
    rw [hchecked.val hne, hblocks, List.length_map, hall, List.take_length,
      getBlkCrcTlkType2_eq (by omega)]
    refine if_congr Iff.rfl ?_ rfl
    unfold getBlkCrcTlkType1
    rw [hhalf]
    refine List.foldl_ext _ _ _ fun crc i hi => ?_
    have hlt := List.mem_range.mp hi
    rw [lineCrc, lineOctets_ofNat, block_full (by omega), otaLine]
  · intro i hi
    rw [List.getElem_map]
    exact h.packets i (by simpa using hi)
  · rw [List.length_map]
    omega

end ImageReceived

end PirMesh
