import PirMesh.Prov.PbAdv

/-! # Prov — A provisioning PDU arrives as it was sent -/

namespace PirMesh

open Nor Reassembly

variable (crc8Rohc : List Byte → Byte) (iniRole : ProvisionRoles)

/-! ### Deliveries -/

/-- The PDU that goes to the protocol. -/
def PbAdvDispatch.data : PbAdvDispatch → Option (List Byte)
  | .beacon _ => none
  | .node buf | .provisioner buf => some (pbData buf)

/-- A packet and the memory it is received into. -/
abbrev Delivery := List Byte × (Nat → Byte)

def deliver (r : PbAdvReceiver) (d : Delivery) : PbAdvReceiver × Option (List Byte) :=
  let out := meshProvisonProcess crc8Rohc iniRole (copy d.2 0 d.1) r
  (out.1, out.2.1.bind PbAdvDispatch.data)

def deliverAll (r : PbAdvReceiver) (ds : List Delivery) : PbAdvReceiver :=
  ds.foldl (fun r d => (deliver crc8Rohc iniRole r d).1) r

/-- Whatever has been delivered, the next packet reports the PDU if every packet has come
with it, and nothing otherwise. -/
def RoundTrip (r : PbAdvReceiver) (pkts : List (List Byte)) (para : List Byte) : Prop :=
  ∀ (ds : List Delivery) (d : Delivery), (∀ e ∈ ds ++ [d], e.1 ∈ pkts) →
    (deliver crc8Rohc iniRole (deliverAll crc8Rohc iniRole r ds) d).2 =
      if pkts ⊆ (ds ++ [d]).map Prod.fst then some para else none

/-! ### A packet in memory -/

theorem copy_getElem? {junk : Nat → Byte} {l : List Byte} {i : Nat} {b : Byte}
    (h : l[i]? = some b) : copy junk 0 l i = b := by
  obtain ⟨hi, rfl⟩ := List.getElem?_eq_some_iff.mp h
  rw [← copy_inside junk 0 hi, Nat.zero_add]

section Octets

variable (junk : Nat → Byte) (linkId : BitVec 32) (t v fcs x y : Byte) (data : List Byte)

theorem length_startOctets :
    (startOctets linkId t v fcs [x, y] data).length = 11 + data.length := by
  simp [startOctets, pbAdv]
  omega

theorem length_conOctets : (conOctets linkId t v data).length = 8 + data.length := by
  simp [conOctets, pbAdv]
  omega

/-- Swapped, the length is the little-endian word it is read as. -/
theorem swapTotalLen_start :
    swapTotalLen (copy junk 0 (startOctets linkId t v fcs [x, y] data)) =
      copy junk 0 (startOctets linkId t v fcs [y, x] data) := by
  have hx : copy junk 0 (startOctets linkId t v fcs [x, y] data) 8 = x := copy_getElem? rfl
  have hy : copy junk 0 (startOctets linkId t v fcs [x, y] data) 9 = y := copy_getElem? rfl
  have hcopy := copy_copy junk 0 (startOctets linkId t v fcs [x, y] data) 8 [y, x]
    (by rw [length_startOctets]; exact Nat.le_add_right_of_le (Nat.le_succ 10))
  rw [swapTotalLen, hx, hy]
  exact hcopy

theorem pbLength_start : pbLength (copy junk 0 (startOctets linkId t v fcs [x, y] data)) =
    BitVec.ofNat 8 (10 + data.length) :=
  copy_getElem? rfl

theorem pbAdType_start :
    pbAdType (copy junk 0 (startOctets linkId t v fcs [x, y] data)) = meshAdvTypePro :=
  copy_getElem? rfl

theorem pbLinkId_start :
    pbLinkId (copy junk 0 (startOctets linkId t v fcs [x, y] data)) = toLE 4 linkId.toNat :=
  (read_copy junk 0 _ 2 4 (by rw [length_startOctets]; omega)).trans rfl

theorem pbTransNum_start : pbTransNum (copy junk 0 (startOctets linkId t v fcs [x, y] data)) = t :=
  copy_getElem? rfl

theorem octet_start :
    copy junk 0 (startOctets linkId t v fcs [x, y] data) 7 = gpcfOctet transStart v :=
  copy_getElem? rfl

theorem pbTotalLen_start :
    pbTotalLen (copy junk 0 (startOctets linkId t v fcs [x, y] data)) = ofLE [x, y] := by
  rw [pbTotalLen, ← Nat.zero_add 8, read_copy junk 0 _ 8 2 (by rw [length_startOctets]; omega)]
  rfl

theorem pbFcs_start : pbFcs (copy junk 0 (startOctets linkId t v fcs [x, y] data)) = fcs :=
  copy_getElem? rfl

theorem pbLength_con :
    pbLength (copy junk 0 (conOctets linkId t v data)) = BitVec.ofNat 8 (7 + data.length) :=
  copy_getElem? rfl

theorem pbAdType_con : pbAdType (copy junk 0 (conOctets linkId t v data)) = meshAdvTypePro :=
  copy_getElem? rfl

theorem pbLinkId_con :
    pbLinkId (copy junk 0 (conOctets linkId t v data)) = toLE 4 linkId.toNat :=
  (read_copy junk 0 _ 2 4 (by rw [length_conOctets]; omega)).trans rfl

theorem pbTransNum_con : pbTransNum (copy junk 0 (conOctets linkId t v data)) = t :=
  copy_getElem? rfl

theorem octet_con : copy junk 0 (conOctets linkId t v data) 7 = gpcfOctet transCon v :=
  copy_getElem? rfl

theorem read_con : read (copy junk 0 (conOctets linkId t v data)) 8 data.length = data := by
  rw [← Nat.zero_add 8, read_copy junk 0 _ 8 data.length (by rw [length_conOctets])]
  exact List.take_of_length_le (l := data) (le_refl _)

end Octets

/-- The kind and the index are read back, an index of six bits. -/
theorem gpcfOctet_start {v : Byte} (h : v < 64) :
    gpcfOctet transStart v &&& 3 = transStart ∧ gpcfOctet transStart v >>> 2 = v := by
  revert v
  decide +kernel

theorem gpcfOctet_con {v : Byte} (h : v < 64) :
    gpcfOctet transCon v &&& 3 = transCon ∧ gpcfOctet transCon v >>> 2 = v := by
  revert v
  decide +kernel

/-! ### The image of a long PDU -/

/-- The continuations of a PDU of `len` octets. -/
def conCount (len : Nat) : Nat := (len + 2) / 23

section Image

variable (linkId : BitVec 32) (t segN fcs : Byte) (para : List Byte)

def pbPacket (i : Fin (conCount para.length + 1)) : List Byte :=
  if i.val = 0 then startOctets linkId t segN fcs [0, BitVec.ofNat 8 para.length] (para.take 20)
  else conOctets linkId t (BitVec.ofNat 8 i) ((para.drop (20 + 23 * (i - 1))).take 23)

/-- What `rcv_pb` holds at the end. -/
def pbImage : List Byte :=
  startOctets linkId t segN fcs [BitVec.ofNat 8 para.length, 0] (para.take 20) ++ para.drop 20

theorem length_pbImage : (pbImage linkId t segN fcs para).length = 11 + para.length := by
  rw [pbImage, List.length_append, length_startOctets, List.length_take, List.length_drop]
  omega

/-- The packets cut the image. -/
def pbCut : Cut Byte (conCount para.length + 1) where
  image := copy (fun _ => 0) 0 (pbImage linkId t segN fcs para)
  total := 11 + para.length
  lo i := if i.val = 0 then 0 else 31 + 23 * (i - 1)
  hi i := if i.val = 0 then 31 else min (31 + 23 * i) (11 + para.length)
  cover a ha := by
    by_cases hstart : a < 31
    · exact ⟨0, by simpa using hstart⟩
    · have hi : (a - 31) / 23 + 1 < conCount para.length + 1 := by
        unfold conCount
        omega
      refine ⟨⟨(a - 31) / 23 + 1, hi⟩, ?_⟩
      simp only [Nat.add_one_ne_zero, if_false]
      omega

variable {para} in
theorem pbCut_lo {i : Fin (conCount para.length + 1)} (hi : i.val ≠ 0) :
    (pbCut linkId t segN fcs para).lo i = 31 + 23 * (i.val - 1) :=
  if_neg hi

variable {para} in
theorem pbCut_hi {i : Fin (conCount para.length + 1)} (hi : i.val ≠ 0) :
    (pbCut linkId t segN fcs para).hi i = min (31 + 23 * i.val) (11 + para.length) :=
  if_neg hi

theorem segment_zero (hlen : 20 < para.length) :
    (pbCut linkId t segN fcs para).segment 0 = startOctets linkId t segN fcs
      [BitVec.ofNat 8 para.length, 0] (para.take 20) := by
  have hstart : (startOctets linkId t segN fcs [BitVec.ofNat 8 para.length, 0]
      (para.take 20)).length = 31 := by
    rw [length_startOctets, List.length_take]
    omega
  have hread := read_copy (fun _ => 0) 0 (pbImage linkId t segN fcs para) 0 31
    (by rw [length_pbImage]; omega)
  refine hread.trans ?_
  rw [List.drop_zero, pbImage, ← hstart, List.take_left]

theorem segment_succ (hlen : 20 < para.length) {i : Fin (conCount para.length + 1)}
    (hi : i.val ≠ 0) :
    (pbCut linkId t segN fcs para).segment i = (para.drop (20 + 23 * (i - 1))).take 23 := by
  obtain ⟨k, hk⟩ := Nat.exists_eq_succ_of_ne_zero hi
  have hlt : k < conCount para.length := by omega
  unfold conCount at hlt
  have hlo : (pbCut linkId t segN fcs para).lo i = 0 + (31 + 23 * k) := by
    rw [pbCut_lo _ _ _ _ hi]
    omega
  have hhi : (pbCut linkId t segN fcs para).hi i = min (54 + 23 * k) (11 + para.length) := by
    rw [pbCut_hi _ _ _ _ hi]
    omega
  rw [Cut.segment, hlo, hhi]
  refine (read_copy (fun _ => 0) 0 (pbImage linkId t segN fcs para) _ _ ?_).trans ?_
  · rw [length_pbImage]
    omega
  · have hstart : (startOctets linkId t segN fcs [BitVec.ofNat 8 para.length, 0]
        (para.take 20)).length = 31 := by
      rw [length_startOctets, List.length_take]
      omega
    rw [pbImage, List.drop_append, List.drop_of_length_le (by omega), List.nil_append, hstart,
      List.drop_drop, show 20 + (31 + 23 * k - 31) = 20 + 23 * (i.val - 1) by omega,
      List.take_eq_take_iff, List.length_drop]
    omega

/-- The PDU is read out of the image. -/
theorem pbData_image {m : Nat → Byte} (hlen : 20 < para.length) (h80 : para.length ≤ 0x50)
    (h : (pbCut linkId t segN fcs para).Holds m Finset.univ) : pbData m = para := by
  have htotal : pbTotalLen m = para.length := by
    rw [pbTotalLen, Cut.read_eq h (show 8 + 2 ≤ 11 + para.length by omega)]
    have hread := read_copy (fun _ => 0) 0 (pbImage linkId t segN fcs para) 8 2
      (by rw [length_pbImage]; omega)
    refine (congrArg ofLE hread).trans ?_
    rw [pbImage, startOctets]
    simp [pbAdv, toLE, ofLE]
    omega
  rw [pbData, htotal, Cut.read_eq h (show 11 + para.length ≤ 11 + para.length from le_rfl)]
  refine (read_copy (fun _ => 0) 0 (pbImage linkId t segN fcs para) 11 para.length ?_).trans ?_
  · rw [length_pbImage]
  · rw [pbImage, startOctets]
    simp [pbAdv, toLE]

/-! ### Storing a packet -/

/-- The packet as `mesh_provision_seg_check` gets it: a start packet has its length swapped. -/
def pbMem (junk : Nat → Byte) (i : Fin (conCount para.length + 1)) : Nat → Byte :=
  if i.val = 0 then swapTotalLen (copy junk 0 (pbPacket linkId t segN fcs para i))
  else copy junk 0 (pbPacket linkId t segN fcs para i)

def segAfter (i : Nat) (seg : MeshProvSeg) : MeshProvSeg :=
  { seg with
    segN := if i = 0 then segN else seg.segN
    fcsTmp := if i = 0 then fcs else seg.fcsTmp
    segMap := seg.segMap ||| bit i
    segCnt := seg.segCnt + 1 }

variable {para} {i : Fin (conCount para.length + 1)}

theorem pbMem_zero (junk : Nat → Byte) : pbMem linkId t segN fcs para junk 0 =
    copy junk 0 (startOctets linkId t segN fcs [BitVec.ofNat 8 para.length, 0] (para.take 20)) :=
  swapTotalLen_start ..

theorem pbMem_succ (hi : i.val ≠ 0) (junk : Nat → Byte) : pbMem linkId t segN fcs para junk i =
    copy junk 0 (conOctets linkId t (BitVec.ofNat 8 i)
      ((para.drop (20 + 23 * (i - 1))).take 23)) := by
  rw [pbMem, if_neg hi, pbPacket, if_neg hi]

theorem pbTransNum_pbMem (junk : Nat → Byte) :
    pbTransNum (pbMem linkId t segN fcs para junk i) = t := by
  by_cases hi : i.val = 0
  · obtain rfl : i = 0 := Fin.ext hi
    rw [pbMem_zero, pbTransNum_start]
  · rw [pbMem_succ _ _ _ _ hi, pbTransNum_con]

theorem toNat_idx (h80 : para.length ≤ 0x50) (i : Fin (conCount para.length + 1)) :
    (BitVec.ofNat 8 i).toNat = i := by
  have hlt : i.val < (para.length + 2) / 23 + 1 := i.isLt
  rw [BitVec.toNat_ofNat]
  omega

/-- The 16-bit length of a continuation's data. -/
theorem conPktLen {n : Nat} (h : n ≤ 23) :
    ((BitVec.ofNat 8 (7 + n)).setWidth 16 - 7 : BitVec 16).toNat = n := by
  have h7 : BitVec.toNat (7 : BitVec 16) = 7 := rfl
  simp only [BitVec.toNat_sub, BitVec.toNat_setWidth, BitVec.toNat_ofNat, h7]
  omega

theorem length_segment_succ (hlen : 20 < para.length) (hi : i.val ≠ 0) :
    ((para.drop (20 + 23 * (i - 1))).take 23).length = 
      (pbCut linkId t segN fcs para).hi i - (pbCut linkId t segN fcs para).lo i := by
  rw [← segment_succ linkId t segN fcs para hlen hi, Cut.segment, length_read]

/-- A continuation is put to its place if it ends inside `rcv_pb`. -/
theorem segStore_con (hlen : 20 < para.length) (h80 : para.length ≤ 0x50) (hi : i.val ≠ 0)
    (junk : Nat → Byte) (seg : MeshProvSeg) (m : Nat → Byte) :
    segStore (BitVec.ofNat 8 i) (pbMem linkId t segN fcs para junk i) seg m =
      if 87 < (pbCut linkId t segN fcs para).hi i then none
      else some (segAfter segN fcs i seg, copy m ((pbCut linkId t segN fcs para).lo i)
        ((pbCut linkId t segN fcs para).segment i)) := by
  have hidx := toNat_idx h80 i
  have hne : BitVec.ofNat 8 i.val ≠ 0 := fun h => hi (by rw [← hidx, h]; rfl)
  have hcut := length_segment_succ linkId t segN fcs hlen hi
  have hlohi : (pbCut linkId t segN fcs para).lo i < (pbCut linkId t segN fcs para).hi i := by
    have hlt : i.val < (para.length + 2) / 23 + 1 := i.isLt
    rw [pbCut_lo _ _ _ _ hi, pbCut_hi _ _ _ _ hi]
    omega
  have hplace : (i.val - 1) * offsetCon + offsetStart = (pbCut linkId t segN fcs para).lo i := by
    rw [pbCut_lo _ _ _ _ hi, offsetCon, offsetStart]
    omega
  have hlen23 : ((para.drop (20 + 23 * (i - 1))).take 23).length ≤ 23 := by simp
  rw [segStore, if_neg hne, pbMem_succ _ _ _ _ hi, pbLength_con]
  simp only [conPktLen hlen23, read_con, hidx, hplace]
  rw [hcut, Nat.add_sub_cancel' hlohi.le, segment_succ linkId t segN fcs para hlen hi, segAfter,
    if_neg hi, if_neg hi]
  rfl

/-- A start packet of 31 octets is the first segment. -/
theorem segStore_start (hlen : 20 < para.length) (hsegN : segN < 64) (junk : Nat → Byte)
    (seg : MeshProvSeg) (m : Nat → Byte) :
    segStore 0 (pbMem linkId t segN fcs para junk 0) seg m =
      some (segAfter segN fcs 0 seg, copy m ((pbCut linkId t segN fcs para).lo 0)
        ((pbCut linkId t segN fcs para).segment 0)) := by
  have htake : (para.take 20).length = 20 := by
    rw [List.length_take]
    omega
  have hread := read_copy junk 0 (startOctets linkId t segN fcs [BitVec.ofNat 8 para.length, 0]
    (para.take 20)) 0 31 (by rw [length_startOctets, htake])
  have hall : (startOctets linkId t segN fcs [BitVec.ofNat 8 para.length, 0]
      (para.take 20)).length ≤ 31 := by rw [length_startOctets, htake]
  rw [List.drop_zero, List.take_of_length_le hall] at hread
  rw [segStore, if_pos rfl, pbMem_zero, pbLength_start, htake, pbSeg, octet_start,
    (gpcfOctet_start hsegN).2, pbFcs_start, segment_zero linkId t segN fcs para hlen]
  exact congrArg (fun l => some (segAfter segN fcs 0 seg, copy m 0 l)) hread

/-! ### The segments that have come -/

theorem getLsbD_bit {n j : Nat} (hn : n < 32) : (bit n).getLsbD j = decide (n = j) := by
  have htwo := BitVec.getLsbD_twoPow n j (w := 32)
  rw [decide_eq_true hn, Bool.true_and] at htwo
  exact htwo

theorem and_bit_eq_zero (x : BitVec 32) {n : Nat} (hn : n < 32) :
    x &&& bit n = 0 ↔ x.getLsbD n = false := by
  have hand : x &&& bit n = if x.getLsbD n then bit n else 0 := BitVec.and_twoPow x n
  rw [hand]
  cases x.getLsbD n with
  | false => simp
  | true =>
    have hbit : bit n ≠ 0 := fun h => by
      have hget := getLsbD_bit (j := n) hn
      rw [h] at hget
      simp at hget
    simpa using hbit

/-- The transaction's record of the segments in `D`. -/
structure GotSeg (D : Finset (Fin (conCount para.length + 1))) (seg : MeshProvSeg) : Prop where
  transNum : seg.transNum = t
  linkId : seg.linkId = linkId
  segMap : ∀ i : Fin (conCount para.length + 1), seg.segMap.getLsbD i = decide (i ∈ D)
  segCnt : seg.segCnt.toNat = D.card
  segN : seg.segN = if 0 ∈ D then segN else 0x80
  fcsTmp : 0 ∈ D → seg.fcsTmp = fcs

/-- The receiver has the segments in `D`; its record may still be another transaction's
when it has none. -/
structure Got (D : Finset (Fin (conCount para.length + 1))) (r : PbAdvReceiver) : Prop where
  link : r.linkId = linkId
  seg : GotSeg linkId t segN fcs D (segBegin linkId t r.meshProvSeg)
  holds : (pbCut linkId t segN fcs para).Holds r.rcvPb D

variable {linkId t segN fcs} {D : Finset (Fin (conCount para.length + 1))} {seg : MeshProvSeg}

theorem GotSeg.begin_self (h : GotSeg linkId t segN fcs D seg) : segBegin linkId t seg = seg :=
  if_neg (by simp [h.transNum, h.linkId])

theorem got_empty {r : PbAdvReceiver} (hlink : r.linkId = linkId)
    (hnew : r.meshProvSeg.transNum ≠ t) :
    Got linkId t segN fcs (∅ : Finset (Fin (conCount para.length + 1))) r := by
  refine ⟨hlink, ?_, Cut.holds_empty _⟩
  rw [segBegin, if_pos (Or.inl (Ne.symm hnew))]
  exact ⟨rfl, rfl, fun i => by simp [MeshProvSeg.zero], rfl, by simp, by simp⟩

/-- **A segment is recorded.** -/
theorem GotSeg.after (h : GotSeg linkId t segN fcs D seg) (hcount : conCount para.length < 31)
    {i : Fin (conCount para.length + 1)} (hi : i ∉ D) :
    GotSeg linkId t segN fcs (insert i D) (segAfter segN fcs i seg) where
  transNum := h.transNum
  linkId := h.linkId
  segMap j := by
    rw [segAfter, BitVec.getLsbD_or, h.segMap, getLsbD_bit (by omega)]
    by_cases hj : j ∈ D
    · simp [hj]
    · simp [hj, Fin.ext_iff, eq_comm]
  segCnt := by
    have hcard := Finset.card_le_univ (insert i D)
    rw [Finset.card_insert_of_notMem hi, Fintype.card_fin] at hcard
    rw [Finset.card_insert_of_notMem hi, ← h.segCnt, segAfter, BitVec.toNat_add, h.segCnt]
    exact Nat.mod_eq_of_lt (by simp; omega)
  segN := by
    by_cases hzero : i = 0
    · subst hzero
      simp [segAfter]
    · have hval : i.val ≠ 0 := fun hv => hzero (Fin.ext hv)
      simp [segAfter, hval, h.segN, Ne.symm hzero]
  fcsTmp h0 := by
    by_cases hzero : i = 0
    · subst hzero
      simp [segAfter]
    · have hval : i.val ≠ 0 := fun hv => hzero (Fin.ext hv)
      exact (if_neg hval).trans (h.fcsTmp ((Finset.mem_insert.mp h0).resolve_left (Ne.symm hzero)))

/-- **Complete.**  The count is that of the last index when every segment has come and
the start packet gave the right index. -/
theorem GotSeg.complete_iff (h : GotSeg linkId t segN fcs D seg) (hlen : 20 < para.length)
    (h80 : para.length ≤ 0x50) (hsegN : conCount para.length ≤ segN.toNat)
    (hfcs : fcs = crc8Rohc para) {m : Nat → Byte}
    (hm : (pbCut linkId t segN fcs para).Holds m D) :
    (seg.segCnt.toNat = seg.segN.toNat + 1 ∧ seg.fcsTmp = crc8Rohc (pbData m)) ↔
      D = Finset.univ ∧ segN.toNat = conCount para.length := by
  have hcard := Finset.card_le_univ D
  rw [Fintype.card_fin] at hcard
  have hcount : conCount para.length ≤ 3 := by
    unfold conCount
    omega
  constructor
  · rintro ⟨hcnt, -⟩
    rw [h.segCnt, h.segN] at hcnt
    by_cases h0 : 0 ∈ D
    · rw [if_pos h0] at hcnt
      refine ⟨Finset.eq_univ_of_card D ?_, by omega⟩
      rw [Fintype.card_fin]
      omega
    · rw [if_neg h0] at hcnt
      exact absurd hcnt (by simp; omega)
  · rintro ⟨rfl, hn⟩
    rw [h.segCnt, h.segN, if_pos (Finset.mem_univ 0), h.fcsTmp (Finset.mem_univ 0),
      pbData_image linkId t segN fcs para hlen h80 hm, Finset.card_univ, Fintype.card_fin, hn]
    exact ⟨rfl, hfcs⟩

/-! ### Receiving a packet -/

theorem segStore_packet (hlen : 20 < para.length) (h80 : para.length ≤ 0x50) (hsegN : segN < 64)
    {i : Fin (conCount para.length + 1)} (hfit : (pbCut linkId t segN fcs para).hi i ≤ 87)
    (junk : Nat → Byte) (seg : MeshProvSeg) (m : Nat → Byte) :
    segStore (BitVec.ofNat 8 i) (pbMem linkId t segN fcs para junk i) seg m =
      some (segAfter segN fcs i seg, copy m ((pbCut linkId t segN fcs para).lo i)
        ((pbCut linkId t segN fcs para).segment i)) := by
  by_cases hi : i.val = 0
  · obtain rfl : i = 0 := Fin.ext hi
    exact segStore_start linkId t segN fcs hlen hsegN junk seg m
  · rw [segStore_con linkId t segN fcs hlen h80 hi, if_neg (Nat.not_lt.mpr hfit)]

variable {r : PbAdvReceiver}

/-- **A packet that fits.** -/
theorem segCheck_packet (hlen : 20 < para.length) (h80 : para.length ≤ 0x50) (hsegN : segN < 64)
    (hcount : conCount para.length ≤ segN.toNat) (hfcs : fcs = crc8Rohc para)
    {i : Fin (conCount para.length + 1)} (hfit : (pbCut linkId t segN fcs para).hi i ≤ 87)
    (h : Got linkId t segN fcs D r) (junk : Nat → Byte) :
    ∃ r', meshProvisionSegCheck crc8Rohc (BitVec.ofNat 8 i)
      (pbMem linkId t segN fcs para junk i) r =
        (r', if insert i D = Finset.univ ∧ segN.toNat = conCount para.length then 0 else -1) ∧
      Got linkId t segN fcs (insert i D) r' ∧ r'.proStopFlag = r.proStopFlag := by
  have hidx := toNat_idx h80 i
  have hc3 : conCount para.length ≤ 3 := by
    unfold conCount
    omega
  have hbit : (segBegin linkId t r.meshProvSeg).segMap &&& bit i = 0 ↔ i ∉ D := by
    rw [and_bit_eq_zero _ (by omega), h.seg.segMap]
    simp
  -- the record and the buffer after the call, and what they hold
  have hstep : ∃ seg m, (if (segBegin linkId t r.meshProvSeg).segMap &&& bit i = 0 then
        segStore (BitVec.ofNat 8 i) (pbMem linkId t segN fcs para junk i)
          (segBegin linkId t r.meshProvSeg) r.rcvPb
        else some (segBegin linkId t r.meshProvSeg, r.rcvPb)) = some (seg, m) ∧
      GotSeg linkId t segN fcs (insert i D) seg ∧
      (pbCut linkId t segN fcs para).Holds m (insert i D) := by
    by_cases hi : i ∈ D
    · rw [if_neg fun hb => hbit.mp hb hi, Finset.insert_eq_of_mem hi]
      exact ⟨_, _, rfl, h.seg, h.holds⟩
    · rw [if_pos (hbit.mpr hi), segStore_packet hlen h80 hsegN hfit]
      exact ⟨_, _, rfl, h.seg.after (by omega) hi, Cut.holds_copy h.holds i⟩
  obtain ⟨seg, m, hst, hseg, hm⟩ := hstep
  have hcomplete := hseg.complete_iff crc8Rohc hlen h80 hcount hfcs hm
  refine ⟨{ r with meshProvSeg := seg, rcvPb := m }, ?_, ⟨h.link, ?_, hm⟩, rfl⟩
  · simp only [meshProvisionSegCheck, pbTransNum_pbMem, h.link, hidx, hst, hcomplete]
  · rw [hseg.begin_self]
    exact hseg

/-- A continuation that ends behind `rcv_pb` is refused. -/
theorem segCheck_far (hlen : 20 < para.length) (h80 : para.length ≤ 0x50)
    {i : Fin (conCount para.length + 1)} (hfar : 87 < (pbCut linkId t segN fcs para).hi i)
    (h : Got linkId t segN fcs D r) (hi : i ∉ D) (junk : Nat → Byte) :
    meshProvisionSegCheck crc8Rohc (BitVec.ofNat 8 i) (pbMem linkId t segN fcs para junk i) r =
      ({ r with meshProvSeg := .zero }, -2) := by
  have hidx := toNat_idx h80 i
  have hlt : i.val < (para.length + 2) / 23 + 1 := i.isLt
  have hbit : (segBegin linkId t r.meshProvSeg).segMap &&& bit i = 0 := by
    rw [and_bit_eq_zero _ (by omega), h.seg.segMap]
    simpa using hi
  have hval : i.val ≠ 0 := fun hv => by
    rw [show i = 0 from Fin.ext hv] at hfar
    exact absurd hfar (by simp [pbCut])
  simp only [meshProvisionSegCheck, pbTransNum_pbMem, h.link, hidx, hbit, if_true]
  rw [segStore_con linkId t segN fcs hlen h80 hval, if_pos hfar]

variable (linkId t fcs) in
/-- Every packet of a long PDU goes through the segment check. -/
theorem pbAdvReceive_packet (h80 : para.length ≤ 0x50) (hsegN : segN < 64) (hne : segN ≠ 0)
    (i : Fin (conCount para.length + 1)) (junk : Nat → Byte) (r : PbAdvReceiver) :
    pbAdvReceive crc8Rohc (copy junk 0 (pbPacket linkId t segN fcs para i)) r =
      let c := meshProvisionSegCheck crc8Rohc (BitVec.ofNat 8 i)
        (pbMem linkId t segN fcs para junk i) r
      (c.1, if c.2 ≠ 0 then .error 1 else .ok c.1.rcvPb) := by
  have hidx := toNat_idx h80 i
  by_cases hi : i.val = 0
  · have hseg := gpcfOctet_start hsegN
    obtain rfl : i = 0 := Fin.ext hi
    have hpacket : pbPacket linkId t segN fcs para 0 = startOctets linkId t segN fcs
      [0, BitVec.ofNat 8 para.length] (para.take 20) := rfl
    rw [pbAdvReceive, pbGpcf, hpacket, octet_start, if_pos hseg.1, pbMem_zero, swapTotalLen_start]
    simp only [pbSeg, octet_start, hseg.2, if_neg hne]
    rfl
  · have hlt : i.val < (para.length + 2) / 23 + 1 := i.isLt
    have hseg := gpcfOctet_con (v := BitVec.ofNat 8 i)
      (by rw [BitVec.lt_def, hidx]; exact Nat.lt_of_lt_of_le hlt (by simp; omega))
    have hstart : transCon ≠ transStart := by decide
    rw [pbMem_succ _ _ _ _ hi, pbPacket, if_neg hi, pbAdvReceive, pbGpcf, octet_con, hseg.1,
      if_neg hstart, if_pos rfl, pbSeg, octet_con, hseg.2]

/-- A provisioning packet of the link, with a receiver that dispatches. -/
theorem deliver_eq {pkt : List Byte} {junk : Nat → Byte} {r r' : PbAdvReceiver}
    {res : Except Int (Nat → Byte)} (htype : pbAdType (copy junk 0 pkt) = meshAdvTypePro)
    (hlink : pbLinkId (copy junk 0 pkt) = toLE 4 r.linkId.toNat)
    (hstop : iniRole = .provisioner → r'.proStopFlag = false)
    (hreceive : pbAdvReceive crc8Rohc (copy junk 0 pkt) r = (r', res)) :
    deliver crc8Rohc iniRole r (pkt, junk) = (r', res.toOption.map pbData) := by
  have hne : meshAdvTypePro ≠ meshAdvTypeBeacon := by decide
  simp only [deliver, meshProvisonProcess, htype, if_neg hne, filterProvLinkId, hlink, hreceive]
  cases res with
  | error ret => simp [Except.toOption]
  | ok buf =>
    cases iniRole with
    | node => simp [Except.toOption, PbAdvDispatch.data]
    | provisioner => simp [Except.toOption, PbAdvDispatch.data, hstop rfl]

variable (linkId t segN fcs) in
theorem pbPacket_head (i : Fin (conCount para.length + 1)) (junk : Nat → Byte) :
    pbAdType (copy junk 0 (pbPacket linkId t segN fcs para i)) = meshAdvTypePro ∧
      pbLinkId (copy junk 0 (pbPacket linkId t segN fcs para i)) = toLE 4 linkId.toNat := by
  unfold pbPacket
  split
  · exact ⟨pbAdType_start .., pbLinkId_start ..⟩
  · exact ⟨pbAdType_con .., pbLinkId_con ..⟩

/-- The packets of a PDU differ in the octet with the kind and the index. -/
theorem pbPacket_injective (h80 : para.length ≤ 0x50) (hsegN : segN < 64) :
    Function.Injective (pbPacket linkId t segN fcs para) := by
  have hoctet (i : Fin (conCount para.length + 1)) (hi : i.val ≠ 0) :
      copy (fun _ => 0) 0 (pbPacket linkId t segN fcs para i) 7 &&& 3 = transCon ∧
      copy (fun _ => 0) 0 (pbPacket linkId t segN fcs para i) 7 >>> 2 = BitVec.ofNat 8 i := by
    have hlt : i.val < (para.length + 2) / 23 + 1 := i.isLt
    rw [pbPacket, if_neg hi, octet_con]
    refine gpcfOctet_con ?_
    rw [BitVec.lt_def, toNat_idx h80 i]
    exact Nat.lt_of_lt_of_le hlt (by simp; omega)
  have hstart : copy (fun _ => 0) 0 (pbPacket linkId t segN fcs para 0) 7 &&& 3 = transStart := by
    rw [show pbPacket linkId t segN fcs para 0 = startOctets linkId t segN fcs
      [0, BitVec.ofNat 8 para.length] (para.take 20) from rfl, octet_start]
    exact (gpcfOctet_start hsegN).1
  have hne : transCon ≠ transStart := by decide
  intro i j hij
  by_cases hi : i.val = 0 <;> by_cases hj : j.val = 0
  · exact Fin.ext (hi.trans hj.symm)
  · obtain rfl : i = 0 := Fin.ext hi
    rw [hij, (hoctet j hj).1] at hstart
    exact absurd hstart hne
  · obtain rfl : j = 0 := Fin.ext hj
    rw [← hij, (hoctet i hi).1] at hstart
    exact absurd hstart hne
  · have hidx := (hoctet i hi).2
    rw [hij, (hoctet j hj).2] at hidx
    refine Fin.ext ?_
    rw [← toNat_idx h80 i, ← hidx, toNat_idx h80 j]

/-- **A delivery.** -/
theorem deliver_packet (hlen : 20 < para.length) (h80 : para.length ≤ 0x50) (hsegN : segN < 64)
    (hcount : conCount para.length ≤ segN.toNat) (hfcs : fcs = crc8Rohc para)
    (hstop : iniRole = .provisioner → r.proStopFlag = false)
    {i : Fin (conCount para.length + 1)} (hfit : (pbCut linkId t segN fcs para).hi i ≤ 87)
    (h : Got linkId t segN fcs D r) (junk : Nat → Byte) :
    ∃ r', deliver crc8Rohc iniRole r (pbPacket linkId t segN fcs para i, junk) =
        (r', if insert i D = Finset.univ ∧ segN.toNat = conCount para.length then some para
          else none) ∧
      Got linkId t segN fcs (insert i D) r' ∧ r'.proStopFlag = r.proStopFlag := by
  have hne : segN ≠ 0 := by
    rintro rfl
    have hc : (para.length + 2) / 23 ≤ 0 := hcount
    omega
  obtain ⟨r', hcheck, hgot, hflag⟩ :=
    segCheck_packet crc8Rohc hlen h80 hsegN hcount hfcs hfit h junk
  have hreceive := pbAdvReceive_packet crc8Rohc linkId t fcs h80 hsegN hne i junk r
  rw [hcheck] at hreceive
  have hhead := pbPacket_head linkId t segN fcs i junk
  have hid : toLE 4 linkId.toNat = toLE 4 r.linkId.toNat := by rw [h.link]
  have hstop' (hrole : iniRole = .provisioner) : r'.proStopFlag = false :=
    hflag.trans (hstop hrole)
  refine ⟨r', ?_, hgot, hflag⟩
  rw [deliver_eq crc8Rohc iniRole hhead.1 (hhead.2.trans hid) hstop' hreceive]
  by_cases hall : insert i D = Finset.univ ∧ segN.toNat = conCount para.length
  · have hdata := pbData_image linkId t segN fcs para hlen h80 (hall.1 ▸ hgot.holds)
    simp [hall, hdata, Except.toOption]
  · simp [hall, Except.toOption]

theorem deliver_far (hlen : 20 < para.length) (h80 : para.length ≤ 0x50) (hsegN : segN < 64)
    (hne : segN ≠ 0) (hstop : iniRole = .provisioner → r.proStopFlag = false)
    {i : Fin (conCount para.length + 1)} (hfar : 87 < (pbCut linkId t segN fcs para).hi i)
    (h : Got linkId t segN fcs D r) (hi : i ∉ D) (junk : Nat → Byte) :
    (deliver crc8Rohc iniRole r (pbPacket linkId t segN fcs para i, junk)).2 = none := by
  have hreceive := pbAdvReceive_packet crc8Rohc linkId t fcs h80 hsegN hne i junk r
  rw [segCheck_far crc8Rohc hlen h80 hfar h hi] at hreceive
  have hhead := pbPacket_head linkId t segN fcs i junk
  have hstop' : iniRole = .provisioner →
      ({ r with meshProvSeg := .zero } : PbAdvReceiver).proStopFlag = false := hstop
  rw [deliver_eq crc8Rohc iniRole hhead.1 (h.link ▸ hhead.2) hstop' hreceive]
  rfl

/-- **Any deliveries** of packets that fit: the receiver has the segments that have come. -/
theorem got_deliverAll (hlen : 20 < para.length) (h80 : para.length ≤ 0x50) (hsegN : segN < 64)
    (hcount : conCount para.length ≤ segN.toNat) (hfcs : fcs = crc8Rohc para)
    (ds : List Delivery)
    (hds : ∀ d ∈ ds, ∃ i, (pbCut linkId t segN fcs para).hi i ≤ 87 ∧
      d.1 = pbPacket linkId t segN fcs para i)
    (hstop : iniRole = .provisioner → r.proStopFlag = false) (h : Got linkId t segN fcs D r) :
    ∃ D', Got linkId t segN fcs D' (deliverAll crc8Rohc iniRole r ds) ∧
      (deliverAll crc8Rohc iniRole r ds).proStopFlag = r.proStopFlag ∧
      ∀ i, i ∈ D' ↔ i ∈ D ∨ pbPacket linkId t segN fcs para i ∈ ds.map Prod.fst := by
  induction ds generalizing r D with
  | nil => exact ⟨D, h, rfl, fun i => by simp⟩
  | cons d ds ih =>
    obtain ⟨i, hfit, hd⟩ := hds d List.mem_cons_self
    obtain ⟨pkt, junk⟩ := d
    obtain rfl : pkt = _ := hd
    obtain ⟨r', hdeliver, hgot, hflag⟩ :=
      deliver_packet crc8Rohc iniRole hlen h80 hsegN hcount hfcs hstop hfit h junk
    obtain ⟨D', hgot', hflag', hmem⟩ :=
      ih (fun e he => hds e (List.mem_cons_of_mem _ he)) (hflag ▸ hstop) hgot
    have hall : deliverAll crc8Rohc iniRole r ((pbPacket linkId t segN fcs para i, junk) :: ds) =
        deliverAll crc8Rohc iniRole r' ds := by
      rw [deliverAll, List.foldl_cons, hdeliver]
      rfl
    rw [hall]
    refine ⟨D', hgot', hflag'.trans hflag, fun j => ?_⟩
    rw [hmem, Finset.mem_insert, List.map_cons, List.mem_cons,
      (pbPacket_injective h80 hsegN).eq_iff]
    tauto

end Image

/-! ### The round trip -/

variable {r : PbAdvReceiver}

/-- A PDU in one packet is reported by it each time. -/
theorem roundTrip_short (s : ProvPara) {para : List Byte} (h : para.length ≤ 20)
    (hlink : r.linkId = s.linkId) (hstop : iniRole = .provisioner → r.proStopFlag = false) :
    RoundTrip crc8Rohc iniRole r (meshSendMultiData crc8Rohc s para).2 para := by
  obtain ⟨t, hsend⟩ := meshSendMultiData_short crc8Rohc s h
  have hone (junk : Nat → Byte) : deliver crc8Rohc iniRole r
      (startOctets s.linkId t.transNum 0 (crc8Rohc para) [0, BitVec.ofNat 8 para.length] para,
        junk) = (r, some para) := by
    have htotal : ofLE [BitVec.ofNat 8 para.length, 0] = para.length := by
      simp [ofLE]
      omega
    have hdata : pbData (copy junk 0 (startOctets s.linkId t.transNum 0 (crc8Rohc para)
        [BitVec.ofNat 8 para.length, 0] para)) = para := by
      rw [pbData, pbTotalLen_start, htotal]
      refine (read_copy junk 0 _ 11 para.length (by rw [length_startOctets])).trans ?_
      simp [startOctets, pbAdv, toLE]
    have hseg := gpcfOctet_start (v := 0) (by decide)
    have hreceive : pbAdvReceive crc8Rohc (copy junk 0 (startOctets s.linkId t.transNum 0
        (crc8Rohc para) [0, BitVec.ofNat 8 para.length] para)) r =
        (r, .ok (copy junk 0 (startOctets s.linkId t.transNum 0 (crc8Rohc para)
          [BitVec.ofNat 8 para.length, 0] para))) := by
      rw [pbAdvReceive, pbGpcf, octet_start, if_pos hseg.1, swapTotalLen_start]
      simp only [pbSeg, octet_start, hseg.2, if_true, pbFcs_start, hdata]
      simp
    have hhead := pbAdType_start junk s.linkId t.transNum 0 (crc8Rohc para) 0
      (BitVec.ofNat 8 para.length) para
    have hid := pbLinkId_start junk s.linkId t.transNum 0 (crc8Rohc para) 0
      (BitVec.ofNat 8 para.length) para
    rw [deliver_eq crc8Rohc iniRole hhead (hlink ▸ hid) hstop hreceive]
    exact congrArg (fun l => (r, some l)) hdata
  rw [hsend]
  intro ds d hds
  have hpkt (e : Delivery) (he : e ∈ ds ++ [d]) := List.mem_singleton.mp (hds e he)
  have hall (l : List Delivery) (hl : ∀ e ∈ l, e ∈ ds ++ [d]) :
      deliverAll crc8Rohc iniRole r l = r := by
    induction l with
    | nil => rfl
    | cons e l ih =>
      have he := hone e.2
      rw [← hpkt e (hl e List.mem_cons_self)] at he
      rw [deliverAll, List.foldl_cons, he]
      exact ih fun e' he' => hl e' (List.mem_cons_of_mem _ he')
  have hd : d ∈ ds ++ [d] := List.mem_append_right _ List.mem_cons_self
  have hlast := hone d.2
  rw [← hpkt d hd] at hlast
  rw [hall ds fun e he => List.mem_append_left _ he, hlast, if_pos]
  intro pkt hmem
  rw [List.mem_singleton.mp hmem, ← hpkt d hd]
  exact List.mem_map_of_mem hd

/-- The last index the start packet gives. -/
def lastSegN (len : Nat) : Byte := BitVec.ofNat 8 (1 + (len - 20) / 23)

theorem toNat_lastSegN {len : Nat} (h80 : len ≤ 0x50) :
    (lastSegN len).toNat = 1 + (len - 20) / 23 := by
  rw [lastSegN, BitVec.toNat_ofNat]
  omega

theorem lastSegN_lt {len : Nat} (h80 : len ≤ 0x50) : lastSegN len < 64 := by
  rw [BitVec.lt_def, toNat_lastSegN h80]
  simp
  omega

theorem conCount_le_lastSegN {len : Nat} (h : 20 < len) (h80 : len ≤ 0x50) :
    conCount len ≤ (lastSegN len).toNat := by
  rw [toNat_lastSegN h80, conCount]
  omega

/-- One continuation too many is announced when the last one is full. -/
theorem lastSegN_eq_iff {len : Nat} (h : 20 < len) (h80 : len ≤ 0x50) :
    (lastSegN len).toNat = conCount len ↔ ¬ 23 ∣ len - 20 := by
  rw [toNat_lastSegN h80, conCount]
  omega

section Long

variable (s : ProvPara) (para : List Byte)

/-- The packets of a long PDU. -/
def longPacket (i : Fin (conCount para.length + 1)) : List Byte :=
  pbPacket s.linkId (meshSendMultiData crc8Rohc s para).1.transNum (lastSegN para.length)
    (crc8Rohc para) para i

/-- The image they cut. -/
def longCut : Cut Byte (conCount para.length + 1) :=
  pbCut s.linkId (meshSendMultiData crc8Rohc s para).1.transNum (lastSegN para.length)
    (crc8Rohc para) para

variable {para}

theorem mem_sent_iff (hlen : 20 < para.length) (pkt : List Byte) :
    pkt ∈ (meshSendMultiData crc8Rohc s para).2 ↔ ∃ i, pkt = longPacket crc8Rohc s para i := by
  obtain ⟨t, hsend⟩ := meshSendMultiData_long crc8Rohc s hlen
  simp only [longPacket, hsend, List.mem_cons, List.mem_map, List.mem_range]
  constructor
  · rintro (rfl | ⟨k, hk, rfl⟩)
    · exact ⟨0, rfl⟩
    · exact ⟨⟨k + 1, Nat.succ_lt_succ hk⟩, rfl⟩
  · rintro ⟨⟨i, hi⟩, rfl⟩
    cases i with
    | zero => exact Or.inl rfl
    | succ k => exact Or.inr ⟨k, Nat.lt_of_succ_lt_succ hi, rfl⟩

theorem sent_subset_iff (hlen : 20 < para.length) (l : List (List Byte)) :
    (meshSendMultiData crc8Rohc s para).2 ⊆ l ↔ ∀ i, longPacket crc8Rohc s para i ∈ l := by
  constructor
  · intro h i
    exact h ((mem_sent_iff crc8Rohc s hlen _).mpr ⟨i, rfl⟩)
  · intro h pkt hpkt
    obtain ⟨i, rfl⟩ := (mem_sent_iff crc8Rohc s hlen pkt).mp hpkt
    exact h i

variable {s} (hlink : r.linkId = s.linkId) (hstop : iniRole = .provisioner → r.proStopFlag = false)
  (hnew : r.meshProvSeg.transNum ≠ (meshSendMultiData crc8Rohc s para).1.transNum)

include hlink hstop hnew

/-- Deliveries of packets that fit, from another transaction. -/
theorem got_long (hlen : 20 < para.length) (h80 : para.length ≤ 0x50) (ds : List Delivery)
    (hds : ∀ d ∈ ds, ∃ i, (longCut crc8Rohc s para).hi i ≤ 87 ∧
      d.1 = longPacket crc8Rohc s para i) :
    ∃ D, Got s.linkId (meshSendMultiData crc8Rohc s para).1.transNum (lastSegN para.length)
        (crc8Rohc para) D (deliverAll crc8Rohc iniRole r ds) ∧
      (iniRole = .provisioner → (deliverAll crc8Rohc iniRole r ds).proStopFlag = false) ∧
      ∀ i, i ∈ D ↔ longPacket crc8Rohc s para i ∈ ds.map Prod.fst := by
  obtain ⟨D, hgot, hflag, hmem⟩ := got_deliverAll crc8Rohc iniRole hlen h80 (lastSegN_lt h80)
    (conCount_le_lastSegN hlen h80) rfl ds hds hstop (got_empty hlink hnew)
  exact ⟨D, hgot, hflag ▸ hstop, fun i => by rw [hmem]; simp [longPacket]⟩

/-- A PDU whose packets fit. -/
theorem deliver_long (hlen : 20 < para.length) (h76 : para.length ≤ 76) (ds : List Delivery)
    (d : Delivery) (hds : ∀ e ∈ ds ++ [d], e.1 ∈ (meshSendMultiData crc8Rohc s para).2) :
    (deliver crc8Rohc iniRole (deliverAll crc8Rohc iniRole r ds) d).2 =
      if (meshSendMultiData crc8Rohc s para).2 ⊆ (ds ++ [d]).map Prod.fst ∧
        ¬ 23 ∣ para.length - 20 then some para else none := by
  have h80 : para.length ≤ 0x50 := by omega
  have hfit (i) : (longCut crc8Rohc s para).hi i ≤ 87 := by
    unfold longCut pbCut
    dsimp only
    split <;> omega
  have hpkt (e : Delivery) (he : e ∈ ds ++ [d]) := (mem_sent_iff crc8Rohc s hlen e.1).mp (hds e he)
  obtain ⟨D, hgot, hflag, hmem⟩ := got_long crc8Rohc iniRole hlink hstop hnew hlen h80 ds
    fun e he => by
      obtain ⟨i, hi⟩ := hpkt e (List.mem_append_left _ he)
      exact ⟨i, hfit i, hi⟩
  obtain ⟨i, hi⟩ := hpkt d (List.mem_append_right _ List.mem_cons_self)
  obtain ⟨pkt, junk⟩ := d
  obtain rfl : pkt = _ := hi
  obtain ⟨r', hdeliver, -⟩ := deliver_packet crc8Rohc iniRole hlen h80 (lastSegN_lt h80)
    (conCount_le_lastSegN hlen h80) rfl hflag (hfit i) hgot junk
  have huniv : insert i D = Finset.univ ↔
      (meshSendMultiData crc8Rohc s para).2 ⊆
        (ds ++ [(longPacket crc8Rohc s para i, junk)]).map Prod.fst := by
    rw [sent_subset_iff crc8Rohc s hlen, Finset.eq_univ_iff_forall]
    refine forall_congr' fun j => ?_
    rw [Finset.mem_insert, hmem, List.map_append, List.mem_append, or_comm, List.map_singleton,
      List.mem_singleton, longPacket, longPacket,
      (pbPacket_injective h80 (lastSegN_lt h80)).eq_iff]
  have heq := congrArg Prod.snd hdeliver
  simp only [huniv, lastSegN_eq_iff hlen h80] at heq
  exact heq

/-- Beyond 76 octets the last packet is refused. -/
theorem not_roundTrip_far (h76 : 76 < para.length) (h80 : para.length ≤ 0x50) :
    ¬ RoundTrip crc8Rohc iniRole r (meshSendMultiData crc8Rohc s para).2 para := by
  have hlen : 20 < para.length := by omega
  have hcount : conCount para.length = 3 := by
    unfold conCount
    omega
  have hlast : ∃ i : Fin (conCount para.length + 1), i.val = 3 := ⟨⟨3, by omega⟩, rfl⟩
  obtain ⟨i, hi⟩ := hlast
  have hfar : 87 < (longCut crc8Rohc s para).hi i := by
    rw [longCut, pbCut_hi _ _ _ _ (by omega)]
    omega
  have hfit (j : Fin (conCount para.length + 1)) (hj : j ≠ i) :
      (longCut crc8Rohc s para).hi j ≤ 87 := by
    have hval : j.val ≠ 3 := fun h => hj (Fin.ext (h.trans hi.symm))
    unfold longCut pbCut
    dsimp only
    split <;> omega
  -- every other packet first, in any order
  let ds : List Delivery := ((List.finRange _).filter (· ≠ i)).map fun j =>
    (longPacket crc8Rohc s para j, fun _ => 0)
  have hds (j) : longPacket crc8Rohc s para j ∈ ds.map Prod.fst ↔ j ≠ i := by
    simp only [ds, List.map_map, List.mem_map, List.mem_filter, List.mem_finRange, true_and,
      Function.comp, decide_eq_true_eq]
    constructor
    · rintro ⟨k, hk, heq⟩
      rwa [← pbPacket_injective h80 (lastSegN_lt h80) heq]
    · intro hj
      exact ⟨j, hj, rfl⟩
  obtain ⟨D, hgot, hflag, hmem⟩ := got_long crc8Rohc iniRole hlink hstop hnew hlen h80 ds
    fun e he => by
      obtain ⟨j, hj, rfl⟩ := List.mem_map.mp he
      exact ⟨j, hfit j (by simpa using hj), rfl⟩
  have hne : lastSegN para.length ≠ 0 := fun h => by
    have hval := toNat_lastSegN h80
    rw [h] at hval
    exact absurd hval (by simp; omega)
  have hnone := deliver_far crc8Rohc iniRole hlen h80 (lastSegN_lt h80) hne hflag hfar hgot
    (fun h => (hds i).mp ((hmem i).mp h) rfl) (fun _ => 0)
  intro hround
  have hout := hround ds (longPacket crc8Rohc s para i, fun _ => 0) fun e he => by
    rw [mem_sent_iff crc8Rohc s hlen]
    rcases List.mem_append.mp he with he | he
    · obtain ⟨j, -, rfl⟩ := List.mem_map.mp he
      exact ⟨j, rfl⟩
    · exact ⟨i, by rw [List.mem_singleton.mp he]⟩
  rw [if_pos] at hout
  · exact absurd (hnone.symm.trans hout) (by simp)
  · rw [sent_subset_iff crc8Rohc s hlen]
    intro j
    rw [List.map_append, List.mem_append, hds]
    by_cases hj : j = i
    · exact Or.inr (by simp [hj])
    · exact Or.inl hj

/-- A full last continuation is one less than the start packet announces. -/
theorem not_roundTrip_full (hlen : 20 < para.length) (h76 : para.length ≤ 76)
    (hdvd : 23 ∣ para.length - 20) :
    ¬ RoundTrip crc8Rohc iniRole r (meshSendMultiData crc8Rohc s para).2 para := by
  let ds : List Delivery := (List.finRange _).map fun j =>
    (longPacket crc8Rohc s para j, fun _ => 0)
  have hmem (i) : longPacket crc8Rohc s para i ∈ ds.map Prod.fst :=
    List.mem_map.mpr ⟨_, List.mem_map_of_mem (List.mem_finRange i), rfl⟩
  have hds : ∀ e ∈ ds ++ [(longPacket crc8Rohc s para 0, fun _ => 0)],
      e.1 ∈ (meshSendMultiData crc8Rohc s para).2 := by
    intro e he
    rw [mem_sent_iff crc8Rohc s hlen]
    rcases List.mem_append.mp he with he | he
    · obtain ⟨j, -, rfl⟩ := List.mem_map.mp he
      exact ⟨j, rfl⟩
    · exact ⟨0, by rw [List.mem_singleton.mp he]⟩
  intro hround
  have hout := hround ds _ hds
  rw [deliver_long crc8Rohc iniRole hlink hstop hnew hlen h76 ds _ hds, if_neg fun h => h.2 hdvd,
    if_pos] at hout
  · simp at hout
  · rw [sent_subset_iff crc8Rohc s hlen]
    intro i
    rw [List.map_append]
    exact List.mem_append_left _ (hmem i)

end Long

/-- **The round trip of a PDU** of at most 80 octets, whatever the order, the duplicates and
the transaction before: the receiver reports it with the packet that makes the set
complete and with no earlier one, if and only if the last continuation is not a full one
and the PDU has at most 76 octets.  A full one makes the start packet announce one more
than is sent; beyond 76 octets the last continuation does not fit behind the start
packet's octets in `rcv_pb`. -/
theorem pbAdv_roundTrip_iff (s : ProvPara) (para : List Byte)
    (h80 : para.length ≤ 0x50) (r : PbAdvReceiver) (hlink : r.linkId = s.linkId)
    (hstop : iniRole = .provisioner → r.proStopFlag = false)
    (hnew : r.meshProvSeg.transNum ≠ (meshSendMultiData crc8Rohc s para).1.transNum) :
    RoundTrip crc8Rohc iniRole r (meshSendMultiData crc8Rohc s para).2 para ↔
      para.length ≤ 76 ∧ ¬ (20 < para.length ∧ 23 ∣ para.length - 20) := by
  constructor
  · intro hround
    have h76 : para.length ≤ 76 := Nat.le_of_not_lt fun hlt =>
      not_roundTrip_far crc8Rohc iniRole hlink hstop hnew hlt h80 hround
    exact ⟨h76, fun h => not_roundTrip_full crc8Rohc iniRole hlink hstop hnew h.1 h76 h.2 hround⟩
  · rintro ⟨h76, hfull⟩
    by_cases hlen : 20 < para.length
    · intro ds d hds
      have hnot : ¬ 23 ∣ para.length - 20 := fun h => hfull ⟨hlen, h⟩
      rw [deliver_long crc8Rohc iniRole hlink hstop hnew hlen h76 ds d hds]
      simp only [hnot, not_false_eq_true, and_true]
    · exact roundTrip_short crc8Rohc iniRole s (Nat.not_lt.mp hlen) hlink hstop

/-! ### At an input -/

/-- The check sum bit by bit: all ones at first, then the reflected polynomial. -/
def crc8Bits (data : List Byte) : Byte :=
  data.foldl (fun crc b => (List.range 8).foldl
    (fun crc _ => if crc &&& 1 = 1 then crc >>> 1 ^^^ 0xE0 else crc >>> 1) (crc ^^^ b)) 0xFF

/-- A provisioner on a link. -/
def provisionerPara : ProvPara := ⟨0x23af5850, 4, 0, 0, .provisioner, 0, 0, false, 0, 0⟩

/-- A device on that link after the transaction before. -/
def deviceReceiver : PbAdvReceiver :=
  ⟨0x23af5850, true, false, ⟨0b111, 4, 2, 3, 0x7a, 0x23af5850⟩, fun _ => 0⟩

/-- The public key PDU goes round. -/
theorem pbAdv_roundTrip_pubKey :
    RoundTrip crc8Bits .node deviceReceiver
      (meshSendMultiData crc8Bits provisionerPara (3 :: List.replicate 64 0xA5)).2
      (3 :: List.replicate 64 0xA5) :=
  (pbAdv_roundTrip_iff crc8Bits .node provisionerPara _ (by decide) deviceReceiver rfl
    (fun h => nomatch h) (by decide +kernel)).mpr ⟨by decide, by decide⟩

/-- A PDU of 43 octets goes out in a start packet and one continuation, and both of them
do not report it. -/
theorem pbAdv_43_not_reported :
    deviceReceiver.linkId = provisionerPara.linkId ∧
      deviceReceiver.meshProvSeg.transNum ≠
        (meshSendMultiData crc8Bits provisionerPara (List.replicate 43 7)).1.transNum ∧
      ¬ RoundTrip crc8Bits .node deviceReceiver
        (meshSendMultiData crc8Bits provisionerPara (List.replicate 43 7)).2
        (List.replicate 43 7) := by
  refine ⟨rfl, by decide +kernel, fun h => ?_⟩
  let pkts := (meshSendMultiData crc8Bits provisionerPara (List.replicate 43 7)).2
  have hout := h [(pkts.getD 0 [], fun _ => 0)] (pkts.getD 1 [], fun _ => 0) (by
    intro e he
    simp only [List.cons_append, List.nil_append, List.mem_cons, List.not_mem_nil, or_false] at he
    rcases he with rfl | rfl <;> decide +kernel)
  exact absurd hout (by decide +kernel)

end PirMesh
