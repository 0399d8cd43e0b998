import PirMesh.Library.Run
import PirMesh.Prov.PbAdvSpec

/-! # Prov — What packets from anyone can do to the receiver

The packets of the advertising bearer come from anyone who is near.  Whatever they are, the
receiver writes to no place behind `rcv_pb`.  The rest is not so: the check sum goes over as many
octets as a start packet says, and `seg_cnt` counts segments without a look at which they are.

`PacketInTurn` leaves out the packets that reach these two, and `pbAdv_safe` says that every run of
the others is safe.  The invariant is that the record of the segments is that of a set of indices
that came in their transaction, none above the last one (`SegInv`). -/

namespace PirMesh

open Nor Reassembly Run

/-! ### One packet -/

section

variable (crc8Rohc : List Byte → Byte)

/-- The segment a packet hands to `mesh_provision_seg_check`: its index, and the packet then. -/
def segArrives (p : Nat → Byte) (r : PbAdvReceiver) : Option (Byte × (Nat → Byte)) :=
  if pbAdType p = meshAdvTypeBeacon ∨ filterProvLinkId p r then none
  else if pbGpcf p = transStart then
    if pbSeg p = 0 then none else some (0, swapTotalLen p)
  else if pbGpcf p = transCon then some (pbSeg p, p)
  else none

/-- The record and the buffer with this segment, `none` for one that does not fit. -/
def segStored (i : Byte) (q : Nat → Byte) (seg : MeshProvSeg) (rcvPb : Nat → Byte) :
    Option (MeshProvSeg × (Nat → Byte)) :=
  if seg.segMap &&& bit i.toNat = 0 then segStore i q seg rcvPb else some (seg, rcvPb)

/-- The octets a check sum goes over, and how many there are in their buffer. -/
structure FcsCall where
  room : ℕ
  data : List Byte

/-- The call of `crc8_rohc`: on a packet that is the whole PDU, or on `rcv_pb`. -/
def fcsCall (p : Nat → Byte) (r : PbAdvReceiver) : Option FcsCall :=
  match segArrives p r with
  | some (i, q) =>
    match segStored i q (segBegin r.linkId (pbTransNum q) r.meshProvSeg) r.rcvPb with
    | some (seg, rcvPb) =>
      if seg.segCnt.toNat = seg.segN.toNat + 1 then some ⟨sizeofPbAdv - 11, pbData rcvPb⟩ else none
    | none => none
  | none =>
    if pbAdType p = meshAdvTypeBeacon ∨ filterProvLinkId p r then none
    else if pbGpcf p = transStart then
      some ⟨(pbLength p).toNat + 1 - 11, pbData (swapTotalLen p)⟩
    else none

theorem segCheck_eq (i : Byte) (q : Nat → Byte) (r : PbAdvReceiver) :
    meshProvisionSegCheck crc8Rohc i q r =
      match segStored i q (segBegin r.linkId (pbTransNum q) r.meshProvSeg) r.rcvPb with
      | none => ({ r with meshProvSeg := .zero }, -2)
      | some (seg, rcvPb) =>
        ({ r with meshProvSeg := seg, rcvPb := rcvPb },
          if seg.segCnt.toNat = seg.segN.toNat + 1 ∧ seg.fcsTmp = crc8Rohc (pbData rcvPb) then 0
          else -1) := rfl

theorem receive_receiver (p : Nat → Byte) (r : PbAdvReceiver) :
    (pbAdvReceive crc8Rohc p r).1 =
      match if pbGpcf p = transStart then if pbSeg p = 0 then none else some (0, swapTotalLen p)
        else if pbGpcf p = transCon then some (pbSeg p, p) else none with
      | some (i, q) => (meshProvisionSegCheck crc8Rohc i q r).1
      | none => r := by
  have hseg : pbSeg (swapTotalLen p) = pbSeg p := rfl
  unfold pbAdvReceive
  dsimp only
  rw [hseg]
  split_ifs
  all_goals rfl

/-- The receiver changes with a segment only. -/
theorem process_receiver (iniRole : ProvisionRoles) (p : Nat → Byte) (r : PbAdvReceiver) :
    (meshProvisonProcess crc8Rohc iniRole p r).1 =
      match segArrives p r with
      | some (i, q) => (meshProvisionSegCheck crc8Rohc i q r).1
      | none => r := by
  unfold meshProvisonProcess segArrives
  by_cases hbeacon : pbAdType p = meshAdvTypeBeacon
  · rw [if_pos hbeacon, if_pos (Or.inl hbeacon)]
    dsimp only
    split_ifs
    all_goals rfl
  · by_cases hfilter : filterProvLinkId p r
    · rw [if_neg hbeacon, if_pos hfilter, if_pos (Or.inr hfilter)]
    · rw [if_neg hbeacon, if_neg hfilter, if_neg (not_or.mpr ⟨hbeacon, hfilter⟩),
        ← receive_receiver]
      obtain ⟨r', ret | buf⟩ := pbAdvReceive crc8Rohc p r
      · rfl
      · cases iniRole with
        | node => rfl
        | provisioner =>
          dsimp only
          split_ifs
          all_goals rfl

/-- A packet depends on the check sum by that call only. -/
theorem process_fcsCall {crc8Rohc crc8Rohc' : List Byte → Byte} (iniRole : ProvisionRoles)
    (p : Nat → Byte) (r : PbAdvReceiver)
    (h : ∀ call, fcsCall p r = some call → crc8Rohc call.data = crc8Rohc' call.data) :
    meshProvisonProcess crc8Rohc iniRole p r = meshProvisonProcess crc8Rohc' iniRole p r := by
  have hseg : pbSeg (swapTotalLen p) = pbSeg p := rfl
  -- a segment comes to the check sum in `mesh_provision_seg_check`, a whole PDU before it
  have hcheck : ∀ i q, segArrives p r = some (i, q) →
      meshProvisionSegCheck crc8Rohc i q r = meshProvisionSegCheck crc8Rohc' i q r := by
    intro i q harrives
    rw [segCheck_eq, segCheck_eq]
    unfold fcsCall at h
    rw [harrives] at h
    dsimp only at h
    cases hs : segStored i q (segBegin r.linkId (pbTransNum q) r.meshProvSeg) r.rcvPb with
    | none => rfl
    | some stored =>
      obtain ⟨seg, rcvPb⟩ := stored
      rw [hs] at h
      dsimp only at h ⊢
      by_cases hcnt : seg.segCnt.toNat = seg.segN.toNat + 1
      · rw [if_pos hcnt] at h
        rw [h _ rfl]
      · rw [if_neg fun hc => hcnt hc.1, if_neg fun hc => hcnt hc.1]
  unfold meshProvisonProcess
  by_cases hbeacon : pbAdType p = meshAdvTypeBeacon
  · rw [if_pos hbeacon, if_pos hbeacon]
  · by_cases hfilter : filterProvLinkId p r
    · rw [if_neg hbeacon, if_neg hbeacon, if_pos hfilter, if_pos hfilter]
    · have hother := not_or.mpr ⟨hbeacon, hfilter⟩
      have hreceive : pbAdvReceive crc8Rohc p r = pbAdvReceive crc8Rohc' p r := by
        unfold segArrives at hcheck
        unfold fcsCall segArrives at h
        rw [if_neg hother] at hcheck h
        unfold pbAdvReceive
        dsimp only
        rw [hseg]
        by_cases hs : pbGpcf p = transStart
        · rw [if_pos hs, if_pos hs]
          rw [if_pos hs] at hcheck h
          by_cases h0 : pbSeg p = 0
          · rw [if_pos h0] at h
            rw [if_pos h0, if_pos h0, h ⟨(pbLength p).toNat + 1 - 11, pbData (swapTotalLen p)⟩]
            dsimp only
            rw [if_neg hother, if_pos hs]
          · rw [if_neg h0] at hcheck
            rw [if_neg h0, if_neg h0, hcheck _ _ rfl]
        · rw [if_neg hs, if_neg hs]
          rw [if_neg hs] at hcheck
          by_cases hc : pbGpcf p = transCon
          · rw [if_pos hc] at hcheck
            rw [if_pos hc, if_pos hc, hcheck _ _ rfl]
          · rw [if_neg hc, if_neg hc]
      rw [if_neg hbeacon, if_neg hbeacon, if_neg hfilter, if_neg hfilter, hreceive]

end

/-! ### The segments of a transaction -/

/-- A segment that fits `rcv_pb`. -/
def SegFits (i : Byte) (q : Nat → Byte) : Prop :=
  if i = 0 then (pbLength q).toNat + 1 ≤ sizeofPbAdv
  else (i.toNat - 1) * offsetCon + offsetStart + ((pbLength q).setWidth 16 - 7 : BitVec 16).toNat ≤
    sizeofPbAdv

/-- A segment that is taken is in turn: a start packet comes with its octets, a length that fits
`rcv_pb`, and a last index that no segment before it is above; a continuation has an index, and it
is not above the last one, when that is known. -/
def SegInTurn (start : Bool) (i : Byte) (q : Nat → Byte) (seg : MeshProvSeg) : Prop :=
  seg.segMap &&& bit i.toNat = 0 → SegFits i q →
    if start then
      9 ≤ (pbLength q).toNat ∧ pbTotalLen q ≤ sizeofPbAdv - 11 ∧
        ∀ j < 32, 0 < j → seg.segMap.getLsbD j → j ≤ (pbSeg q).toNat
    else
      i ≠ 0 ∧ if seg.segMap.getLsbD 0 then i.toNat ≤ seg.segN.toNat else seg.segN = 0x80

/-- A segment that came: a start packet with the last index, or a continuation with its own. -/
structure SegSeen where
  start : Bool
  seg : ℕ
  deriving DecidableEq, Repr

/-- The record and the buffer are those of the segments `S`, which were seen. -/
structure SegInv (seen : List SegSeen) (seg : MeshProvSeg) (rcvPb : Nat → Byte) (S : Finset ℕ) :
    Prop where
  few : ∀ j ∈ S, j ≤ 3
  segMap : ∀ j < 32, (seg.segMap.getLsbD j = true ↔ j ∈ S)
  segCnt : seg.segCnt.toNat = S.card
  start : 0 ∈ S → ⟨true, seg.segN.toNat⟩ ∈ seen ∧ (∀ j ∈ S, j ≤ seg.segN.toNat) ∧
    pbTotalLen rcvPb ≤ sizeofPbAdv - 11
  noStart : 0 ∉ S → S = ∅ ∨ seg.segN = 0x80
  con : ∀ j ∈ S, j ≠ 0 → ⟨false, j⟩ ∈ seen

namespace SegInv

variable {seen seen' : List SegSeen} {seg : MeshProvSeg} {rcvPb : Nat → Byte} {S : Finset ℕ}

/-- A record that is cleared. -/
theorem empty (seen : List SegSeen) (rcvPb : Nat → Byte) {seg : MeshProvSeg}
    (hmap : seg.segMap = 0) (hcnt : seg.segCnt = 0) : SegInv seen seg rcvPb ∅ where
  few j hj := absurd hj (Finset.notMem_empty j)
  segMap j _ := by
    rw [hmap]
    simp
  segCnt := by
    rw [hcnt]
    rfl
  start h := absurd h (Finset.notMem_empty 0)
  noStart _ := .inl rfl
  con j hj := absurd hj (Finset.notMem_empty j)

theorem card_le (h : SegInv seen seg rcvPb S) : S.card ≤ 4 := by
  have hsub : S ⊆ Finset.range 4 := fun j hj =>
    Finset.mem_range.mpr (Nat.lt_succ_of_le (h.few j hj))
  exact (Finset.card_le_card hsub).trans_eq (Finset.card_range 4)

/-- **Complete.**  As many segments as there are to be are all of them. -/
theorem complete (h : SegInv seen seg rcvPb S) (hcnt : seg.segCnt.toNat = seg.segN.toNat + 1) :
    pbTotalLen rcvPb ≤ sizeofPbAdv - 11 ∧ ⟨true, seg.segN.toNat⟩ ∈ seen ∧
      ∀ j, 1 ≤ j → j ≤ seg.segN.toNat → ⟨false, j⟩ ∈ seen := by
  have hcard := h.segCnt
  rw [hcnt] at hcard
  by_cases h0 : 0 ∈ S
  · obtain ⟨hseen, hle, htotal⟩ := h.start h0
    refine ⟨htotal, hseen, fun j hj hjn => ?_⟩
    have hsub : S ⊆ Finset.range (seg.segN.toNat + 1) := fun k hk =>
      Finset.mem_range.mpr (Nat.lt_succ_of_le (hle k hk))
    -- none is above the last one, and there are as many
    have hall : S = Finset.range (seg.segN.toNat + 1) :=
      Finset.eq_of_subset_of_card_le hsub (by rw [Finset.card_range, hcard])
    refine h.con j ?_ (Nat.one_le_iff_ne_zero.mp hj)
    rw [hall]
    exact Finset.mem_range.mpr (Nat.lt_succ_of_le hjn)
  · -- without a start packet there are too few
    have hle := h.card_le
    rcases h.noStart h0 with rfl | hn
    · exact absurd hcard (Nat.succ_ne_zero _)
    · rw [hn] at hcard
      exact absurd (hcard.trans_le hle) (by decide)

theorem mono (h : SegInv seen seg rcvPb S) (hsub : seen ⊆ seen') : SegInv seen' seg rcvPb S where
  few := h.few
  segMap := h.segMap
  segCnt := h.segCnt
  start h0 := ⟨hsub (h.start h0).1, (h.start h0).2⟩
  noStart := h.noStart
  con j hj hne := hsub (h.con j hj hne)

end SegInv

theorem segFits_of_some {i : Byte} {q rcvPb rcvPb' : Nat → Byte} {seg seg' : MeshProvSeg}
    (h : segStore i q seg rcvPb = some (seg', rcvPb')) : SegFits i q := by
  unfold segStore at h
  unfold SegFits
  dsimp only at h
  split_ifs at h ⊢
  · omega
  · omega

theorem segFits_lt {i : Byte} {q : Nat → Byte} (h : SegFits i q) : i.toNat ≤ 3 := by
  unfold SegFits at h
  by_cases h0 : i = 0
  · rw [h0]
    exact Nat.zero_le 3
  · -- the place of segment 4 is behind `rcv_pb`
    rw [if_neg h0] at h
    unfold offsetCon offsetStart sizeofPbAdv at h
    omega

/-- A start packet brings its length along. -/
theorem pbTotalLen_stored {q : Nat → Byte} (rcvPb : Nat → Byte) (h : 9 ≤ (pbLength q).toNat) :
    pbTotalLen (copy rcvPb 0 (read q 0 ((pbLength q).toNat + 1))) = pbTotalLen q := by
  have hread := read_copy rcvPb 0 (read q 0 ((pbLength q).toNat + 1)) 8 2 (by
    rw [length_read]
    omega)
  have hpart := read_part q 0 8 2 ((pbLength q).toNat + 1) (by omega)
  rw [Nat.zero_add] at hread hpart
  unfold pbTotalLen
  rw [hread, ← hpart]

/-- A continuation leaves the length alone. -/
theorem pbTotalLen_behind (rcvPb : Nat → Byte) {adr : Nat} (h : 31 ≤ adr) (l : List Byte) :
    pbTotalLen (copy rcvPb adr l) = pbTotalLen rcvPb := by
  unfold pbTotalLen
  refine congrArg ofLE (read_congr fun j hj => ?_)
  exact copy_outside _ (.inl (by omega))

section

variable {seen : List SegSeen} {seg seg' : MeshProvSeg} {rcvPb rcvPb' q : Nat → Byte}
  {S : Finset ℕ} {i : Byte} {start : Bool}

/-- A segment of which the bit is not set is none of those that came. -/
theorem SegInv.notMem (h : SegInv seen seg rcvPb S) (hle : i.toNat ≤ 3)
    (hnew : seg.segMap &&& bit i.toNat = 0) : i.toNat ∉ S := by
  rw [and_bit_eq_zero _ (by omega)] at hnew
  rw [← h.segMap _ (by omega), hnew]
  exact Bool.false_ne_true

/-- The bits with one more. -/
theorem SegInv.segMap_insert (h : SegInv seen seg rcvPb S) (hle : i.toNat ≤ 3) :
    ∀ j < 32, ((seg.segMap ||| bit i.toNat).getLsbD j = true ↔ j ∈ insert i.toNat S) := by
  intro j hj
  rw [BitVec.getLsbD_or, Bool.or_eq_true, h.segMap j hj, getLsbD_bit (by omega),
    decide_eq_true_iff, Finset.mem_insert, or_comm, eq_comm]

theorem SegInv.segCnt_insert (h : SegInv seen seg rcvPb S) (hnot : i.toNat ∉ S) :
    (seg.segCnt + 1).toNat = (insert i.toNat S).card := by
  have hcard := h.card_le
  rw [Finset.card_insert_of_notMem hnot, ← h.segCnt, BitVec.toNat_add]
  rw [← h.segCnt] at hcard
  exact Nat.mod_eq_of_lt (by
    show _ + 1 < 256
    omega)

theorem SegInv.few_insert (h : SegInv seen seg rcvPb S) (hle : i.toNat ≤ 3) :
    ∀ j ∈ insert i.toNat S, j ≤ 3 := by
  intro j hj
  rcases Finset.mem_insert.mp hj with rfl | hj
  · exact hle
  · exact h.few j hj

/-- A start packet in turn. -/
theorem SegInv.stored_start (h : SegInv seen seg rcvPb S)
    (hnew : seg.segMap &&& bit (0 : Byte).toNat = 0) (hlen : 9 ≤ (pbLength q).toNat)
    (htotal : pbTotalLen q ≤ sizeofPbAdv - 11)
    (hlow : ∀ j < 32, 0 < j → seg.segMap.getLsbD j → j ≤ (pbSeg q).toNat)
    (hs : segStore 0 q seg rcvPb = some (seg', rcvPb')) :
    SegInv (seen ++ [⟨true, (pbSeg q).toNat⟩]) seg' rcvPb' (insert 0 S) := by
  have hnot : 0 ∉ S := h.notMem (i := 0) (Nat.zero_le 3) hnew
  unfold segStore at hs
  rw [if_pos rfl] at hs
  dsimp only at hs
  split_ifs at hs
  obtain ⟨rfl, rfl⟩ := Prod.mk.inj (Option.some.inj hs)
  refine ⟨h.few_insert (i := 0) (Nat.zero_le 3), h.segMap_insert (i := 0) (Nat.zero_le 3),
    h.segCnt_insert (i := 0) hnot, fun _ => ⟨?_, fun j hj => ?_, ?_⟩, fun h0 => ?_,
    fun j hj hne => ?_⟩
  · exact List.mem_append_right _ (List.mem_singleton_self _)
  · rcases Finset.mem_insert.mp hj with rfl | hjS
    · exact Nat.zero_le _
    · have hj0 : 0 < j := by
        refine Nat.pos_of_ne_zero ?_
        rintro rfl
        exact hnot hjS
      have hj32 : j < 32 := (h.few j hjS).trans_lt (by decide)
      exact hlow j hj32 hj0 ((h.segMap j hj32).mpr hjS)
  · rw [pbTotalLen_stored rcvPb hlen]
    exact htotal
  · exact absurd (Finset.mem_insert_self 0 S) h0
  · exact List.mem_append_left _ (h.con j ((Finset.mem_insert.mp hj).resolve_left hne) hne)

/-- A continuation in turn. -/
theorem SegInv.stored_con (h : SegInv seen seg rcvPb S) (hle : (pbSeg q).toNat ≤ 3)
    (hnew : seg.segMap &&& bit (pbSeg q).toNat = 0) (hne : pbSeg q ≠ 0)
    (hlow : if seg.segMap.getLsbD 0 then (pbSeg q).toNat ≤ seg.segN.toNat else seg.segN = 0x80)
    (hs : segStore (pbSeg q) q seg rcvPb = some (seg', rcvPb')) :
    SegInv (seen ++ [⟨false, (pbSeg q).toNat⟩]) seg' rcvPb' (insert (pbSeg q).toNat S) := by
  have hnat : (pbSeg q).toNat ≠ 0 := fun h0 => hne (BitVec.eq_of_toNat_eq h0)
  have hzero : 0 ∈ insert (pbSeg q).toNat S ↔ 0 ∈ S := by
    rw [Finset.mem_insert]
    exact or_iff_right hnat.symm
  unfold segStore at hs
  rw [if_neg hne] at hs
  dsimp only at hs
  split_ifs at hs
  obtain ⟨rfl, rfl⟩ := Prod.mk.inj (Option.some.inj hs)
  refine ⟨h.few_insert hle, h.segMap_insert hle, h.segCnt_insert (h.notMem hle hnew),
    fun h0 => ?_, fun h0 => ?_, fun j hj hjne => ?_⟩
  · obtain ⟨hseen, hall, htotal⟩ := h.start (hzero.mp h0)
    rw [if_pos ((h.segMap 0 (by decide)).mpr (hzero.mp h0))] at hlow
    refine ⟨List.mem_append_left _ hseen, fun j hj => ?_, ?_⟩
    · rcases Finset.mem_insert.mp hj with rfl | hj
      · exact hlow
      · exact hall j hj
    · rw [pbTotalLen_behind rcvPb (by unfold offsetStart; omega)]
      exact htotal
  · rw [if_neg fun hb => h0 (hzero.mpr ((h.segMap 0 (by decide)).mp hb))] at hlow
    exact .inr hlow
  · rcases Finset.mem_insert.mp hj with rfl | hj
    · exact List.mem_append_right _ (List.mem_singleton_self _)
    · exact List.mem_append_left _ (h.con j hj hjne)

/-- **A segment in turn keeps the invariant.** -/
theorem SegInv.stored (h : SegInv seen seg rcvPb S) (hstart : start → i = 0)
    (hi : ¬ start → i = pbSeg q) (hturn : SegInTurn start i q seg)
    (hs : segStored i q seg rcvPb = some (seg', rcvPb')) :
    ∃ S', SegInv (seen ++ [⟨start, (pbSeg q).toNat⟩]) seg' rcvPb' S' := by
  unfold segStored at hs
  split_ifs at hs with hnew
  · have hfits := segFits_of_some hs
    have hturn := hturn hnew hfits
    cases start with
    | true =>
      obtain rfl := hstart rfl
      obtain ⟨hlen, htotal, hlow⟩ := hturn
      exact ⟨_, h.stored_start hnew hlen htotal hlow hs⟩
    | false =>
      obtain rfl := hi Bool.false_ne_true
      obtain ⟨hne, hlow⟩ := hturn
      exact ⟨_, h.stored_con (segFits_lt hfits) hnew hne hlow hs⟩
  · obtain ⟨rfl, rfl⟩ := Prod.mk.inj (Option.some.inj hs)
    exact ⟨S, h.mono (List.subset_append_left ..)⟩

end

/-! ### Runs -/

/-- The receiver, and what is not in the code: the link and the number of the last transaction, and
the segments of it that were taken. -/
structure PbAdvRun where
  receiver : PbAdvReceiver
  key : BitVec 32 × Byte
  seen : List SegSeen

/-- A packet arrives, or something else changes the link and the settings of the receiver. -/
inductive PbAdvEvent
  | packet (iniRole : ProvisionRoles) (p : Nat → Byte)
  | setting (linkId : BitVec 32) (linkIdFilter proStopFlag : Bool)

/-- At boot `mesh_prov_seg` is zero. -/
def PbAdvRun.initial (linkId : BitVec 32) (linkIdFilter proStopFlag : Bool) (rcvPb : Nat → Byte) :
    PbAdvRun :=
  ⟨⟨linkId, linkIdFilter, proStopFlag, .zero, rcvPb⟩, (linkId, 0), []⟩

/-- The segments of the transaction of `q`, before it is looked at. -/
def PbAdvRun.seenOf (t : PbAdvRun) (q : Nat → Byte) : List SegSeen :=
  if t.key = (t.receiver.linkId, pbTransNum q) then t.seen else []

/-- And after it. -/
def PbAdvRun.seenAfter (t : PbAdvRun) (start : Bool) (q : Nat → Byte) : List SegSeen :=
  t.seenOf q ++ [⟨start, (pbSeg q).toNat⟩]

/-- `TRANS_START` -/
def isTransStart (p : Nat → Byte) : Bool := pbGpcf p == transStart

variable (crc8Rohc : List Byte → Byte)

def PbAdvRun.next (t : PbAdvRun) : PbAdvEvent → PbAdvRun
  | .packet iniRole p =>
    let receiver := (meshProvisonProcess crc8Rohc iniRole p t.receiver).1
    match segArrives p t.receiver with
    | none => { t with receiver }
    | some (_, q) => ⟨receiver, (t.receiver.linkId, pbTransNum q), t.seenAfter (isTransStart p) q⟩
  | .setting linkId linkIdFilter proStopFlag =>
    { t with receiver := { t.receiver with linkId, linkIdFilter, proStopFlag } }

/-- What a packet is allowed to do: it writes to no place behind `rcv_pb`, the check sum stays in
the buffer it goes over, and a PDU is reported complete only when its start packet and all of its
continuations came in the transaction. -/
structure PbAdvSafe (t : PbAdvRun) (iniRole : ProvisionRoles) (p : Nat → Byte) : Prop where
  writes : ∀ a, sizeofPbAdv ≤ a →
    (meshProvisonProcess crc8Rohc iniRole p t.receiver).1.rcvPb a = t.receiver.rcvPb a
  fcs : ∀ call, fcsCall p t.receiver = some call → call.data.length ≤ call.room
  complete : ∀ i q, segArrives p t.receiver = some (i, q) →
    (meshProvisionSegCheck crc8Rohc i q t.receiver).2 = 0 →
      ∃ segN, ⟨true, segN⟩ ∈ t.seenAfter (isTransStart p) q ∧
        ∀ j, 1 ≤ j → j ≤ segN → ⟨false, j⟩ ∈ t.seenAfter (isTransStart p) q

/-- A packet that is the whole PDU has as many octets as it says, and a segment is in turn. -/
def PacketInTurn (t : PbAdvRun) : PbAdvEvent → Prop
  | .packet _ p =>
    (pbGpcf p = transStart → pbSeg p = 0 →
      pbTotalLen (swapTotalLen p) ≤ (pbLength p).toNat + 1 - 11) ∧
    ∀ i q, segArrives p t.receiver = some (i, q) →
      SegInTurn (isTransStart p) i q
        (segBegin t.receiver.linkId (pbTransNum q) t.receiver.meshProvSeg)
  | .setting .. => True

/-- The invariant of a run: the record is one of the last transaction's segments, if of any. -/
def PbAdvInv (t : PbAdvRun) : Prop :=
  ∃ S, SegInv t.seen t.receiver.meshProvSeg t.receiver.rcvPb S ∧
    (S.Nonempty → t.key = (t.receiver.meshProvSeg.linkId, t.receiver.meshProvSeg.transNum))

variable {crc8Rohc} {t : PbAdvRun} {iniRole : ProvisionRoles} {p q : Nat → Byte} {i : Byte}

/-- The record that the segment finds. -/
theorem PbAdvInv.begin (h : PbAdvInv t) (q : Nat → Byte) :
    ∃ S, SegInv (t.seenOf q)
      (segBegin t.receiver.linkId (pbTransNum q) t.receiver.meshProvSeg) t.receiver.rcvPb S := by
  obtain ⟨S, hinv, hkey⟩ := h
  unfold segBegin
  split_ifs with hnew
  · exact ⟨∅, SegInv.empty _ _ rfl rfl⟩
  · obtain ⟨htrans, hlink⟩ := not_or.mp hnew
    rcases S.eq_empty_or_nonempty with rfl | hne
    · -- an empty record is kept for a transaction that it was not begun for
      refine ⟨∅, hinv.few, hinv.segMap, hinv.segCnt, ?_, hinv.noStart, ?_⟩
      · exact fun h0 => absurd h0 (Finset.notMem_empty 0)
      · exact fun j hj => absurd hj (Finset.notMem_empty j)
    · have hsame : t.key = (t.receiver.linkId, pbTransNum q) := by
        rw [hkey hne, not_not.mp htrans, not_not.mp hlink]
      refine ⟨S, ?_⟩
      rw [PbAdvRun.seenOf, if_pos hsame]
      exact hinv

/-- The record keeps the transaction it was begun for. -/
theorem segStored_key {seg seg' : MeshProvSeg} {rcvPb rcvPb' : Nat → Byte}
    (h : segStored i q seg rcvPb = some (seg', rcvPb')) :
    seg'.linkId = seg.linkId ∧ seg'.transNum = seg.transNum := by
  unfold segStored segStore at h
  dsimp only at h
  split_ifs at h
  all_goals
    obtain ⟨rfl, -⟩ := Prod.mk.inj (Option.some.inj h)
    exact ⟨rfl, rfl⟩

theorem segBegin_key (linkId : BitVec 32) (transNum : Byte) (seg : MeshProvSeg) :
    (segBegin linkId transNum seg).linkId = linkId ∧
      (segBegin linkId transNum seg).transNum = transNum := by
  unfold segBegin
  split_ifs with hnew
  · exact ⟨rfl, rfl⟩
  · obtain ⟨htrans, hlink⟩ := not_or.mp hnew
    exact ⟨not_not.mp hlink, (not_not.mp htrans).symm⟩

/-- The index is that of the packet, or 0 for a start packet. -/
theorem segArrives_some {r : PbAdvReceiver} (h : segArrives p r = some (i, q)) :
    (isTransStart p → i = 0) ∧ (¬ isTransStart p → i = pbSeg q) := by
  unfold segArrives at h
  unfold isTransStart
  rw [beq_iff_eq]
  split_ifs at h with _ hs _ hc
  · obtain ⟨rfl, rfl⟩ := Prod.mk.inj (Option.some.inj h)
    exact ⟨fun _ => rfl, fun hne => absurd hs hne⟩
  · obtain ⟨rfl, rfl⟩ := Prod.mk.inj (Option.some.inj h)
    exact ⟨fun hs' => absurd hs' hs, fun _ => rfl⟩

/-- What the segment leaves, when it fits. -/
theorem PbAdvInv.stored (h : PbAdvInv t) (hturn : PacketInTurn t (.packet iniRole p))
    (harrives : segArrives p t.receiver = some (i, q)) {seg : MeshProvSeg} {rcvPb : Nat → Byte}
    (hs : segStored i q (segBegin t.receiver.linkId (pbTransNum q) t.receiver.meshProvSeg)
      t.receiver.rcvPb = some (seg, rcvPb)) :
    ∃ S, SegInv (t.seenAfter (isTransStart p) q) seg rcvPb S := by
  obtain ⟨S, hinv⟩ := h.begin q
  obtain ⟨hstart, hcon⟩ := segArrives_some harrives
  exact hinv.stored hstart hcon (hturn.2 i q harrives) hs

theorem PbAdvInv.next (h : PbAdvInv t) {e : PbAdvEvent} (hturn : PacketInTurn t e) :
    PbAdvInv (t.next crc8Rohc e) := by
  cases e with
  | setting linkId linkIdFilter proStopFlag =>
    obtain ⟨S, hinv, hkey⟩ := h
    exact ⟨S, hinv, hkey⟩
  | packet iniRole p =>
    have hreceiver := process_receiver crc8Rohc iniRole p t.receiver
    unfold PbAdvRun.next
    dsimp only
    cases harrives : segArrives p t.receiver with
    | none =>
      rw [harrives] at hreceiver
      dsimp only at hreceiver ⊢
      rw [hreceiver]
      exact h
    | some arrival =>
      obtain ⟨i, q⟩ := arrival
      rw [harrives] at hreceiver
      dsimp only at hreceiver ⊢
      rw [hreceiver, segCheck_eq]
      cases hs : segStored i q (segBegin t.receiver.linkId (pbTransNum q) t.receiver.meshProvSeg)
          t.receiver.rcvPb with
      | none =>
        -- a segment that does not fit clears the record
        refine ⟨∅, SegInv.empty _ _ rfl rfl, fun hne => ?_⟩
        exact absurd rfl hne.ne_empty
      | some stored =>
        obtain ⟨seg, rcvPb⟩ := stored
        obtain ⟨S, hinv⟩ := h.stored hturn harrives hs
        obtain ⟨hlink, htrans⟩ := segStored_key hs
        obtain ⟨hlink', htrans'⟩ := segBegin_key t.receiver.linkId (pbTransNum q)
          t.receiver.meshProvSeg
        refine ⟨S, hinv, fun _ => ?_⟩
        dsimp only
        rw [hlink, htrans, hlink', htrans']

/-- A segment that fits is written to `rcv_pb`. -/
theorem segStored_outside {seg seg' : MeshProvSeg} {rcvPb rcvPb' : Nat → Byte}
    (h : segStored i q seg rcvPb = some (seg', rcvPb')) {a : ℕ} (ha : sizeofPbAdv ≤ a) :
    rcvPb' a = rcvPb a := by
  unfold segStored segStore at h
  dsimp only at h
  split_ifs at h
  · obtain ⟨-, rfl⟩ := Prod.mk.inj (Option.some.inj h)
    refine copy_outside _ (.inr ?_)
    rw [length_read]
    omega
  · obtain ⟨-, rfl⟩ := Prod.mk.inj (Option.some.inj h)
    refine copy_outside _ (.inr ?_)
    rw [length_read]
    omega
  · obtain ⟨-, rfl⟩ := Prod.mk.inj (Option.some.inj h)
    rfl

/-- **No packet** writes behind `rcv_pb`. -/
theorem process_writes (crc8Rohc : List Byte → Byte) (iniRole : ProvisionRoles) (p : Nat → Byte)
    (r : PbAdvReceiver) {a : ℕ} (ha : sizeofPbAdv ≤ a) :
    (meshProvisonProcess crc8Rohc iniRole p r).1.rcvPb a = r.rcvPb a := by
  rw [process_receiver]
  cases segArrives p r with
  | none => rfl
  | some arrival =>
    obtain ⟨i, q⟩ := arrival
    dsimp only
    rw [segCheck_eq]
    cases hs : segStored i q (segBegin r.linkId (pbTransNum q) r.meshProvSeg) r.rcvPb with
    | none => rfl
    | some stored => exact segStored_outside hs ha

theorem PbAdvInv.safe (h : PbAdvInv t) (hturn : PacketInTurn t (.packet iniRole p)) :
    PbAdvSafe crc8Rohc t iniRole p where
  writes a ha := process_writes crc8Rohc iniRole p t.receiver ha
  fcs call hcall := by
    unfold fcsCall at hcall
    cases harrives : segArrives p t.receiver with
    | none =>
      rw [harrives] at hcall
      dsimp only at hcall
      split_ifs at hcall with hother hstart
      obtain rfl := Option.some.inj hcall
      have hseg : pbSeg p = 0 := by
        by_contra hne
        rw [segArrives, if_neg hother, if_pos hstart, if_neg hne] at harrives
        cases harrives
      exact (length_read _ _ _).trans_le (hturn.1 hstart hseg)
    | some arrival =>
      obtain ⟨i, q⟩ := arrival
      rw [harrives] at hcall
      dsimp only at hcall
      cases hs : segStored i q (segBegin t.receiver.linkId (pbTransNum q) t.receiver.meshProvSeg)
          t.receiver.rcvPb with
      | none =>
        rw [hs] at hcall
        cases hcall
      | some stored =>
        obtain ⟨seg, rcvPb⟩ := stored
        obtain ⟨S, hinv⟩ := h.stored hturn harrives hs
        rw [hs] at hcall
        dsimp only at hcall
        split_ifs at hcall with hcnt
        obtain rfl := Option.some.inj hcall
        exact (length_read _ _ _).trans_le (hinv.complete hcnt).1
  complete i q harrives hret := by
    rw [segCheck_eq] at hret
    cases hs : segStored i q (segBegin t.receiver.linkId (pbTransNum q) t.receiver.meshProvSeg)
        t.receiver.rcvPb with
    | none =>
      rw [hs] at hret
      have htwo : (-2 : ℤ) = 0 := hret
      exact absurd htwo (by decide)
    | some stored =>
      obtain ⟨seg, rcvPb⟩ := stored
      obtain ⟨S, hinv⟩ := h.stored hturn harrives hs
      rw [hs] at hret
      dsimp only at hret
      split_ifs at hret with hdone
      exact ⟨_, (hinv.complete hdone.1).2⟩

theorem pbAdvInv_initial (linkId : BitVec 32) (linkIdFilter proStopFlag : Bool)
    (rcvPb : Nat → Byte) : PbAdvInv (.initial linkId linkIdFilter proStopFlag rcvPb) := by
  refine ⟨∅, SegInv.empty _ _ rfl rfl, fun hne => ?_⟩
  exact absurd rfl hne.ne_empty

end PirMesh
