import Mathlib.Data.List.TakeWhile
import PirMesh.Time.AliRecords

/-! # Time — What the timing messages access

`ali_mesh_timing_set` and `ali_mesh_cycle_timing_set` take the length of a record from its own
time, and never compare it with what is left of the message, nor their number with the eight
indexes there is room for.  The number of groups they store is the one that was asked for, and the
status reads that many of the one group there is.  `setWith_within` says exactly which messages
stay in bounds, whatever the table. -/

namespace PirMesh.Ali

open Accesses Accesses.Traced Writes
open Nor (Byte)

section

variable {K : ParaKind} {now : BitVec 32} {par : ℕ → Byte} {past : Past} {t : TimingInfos}
  {parLen : ℕ} {ps : List ℕ}

/-- The status of these records: each timing has the group there is room for, and all of it fits
into the buffer. -/
structure StatusFits (K : ParaKind) (par : ℕ → Byte) (ps : List ℕ) : Prop where
  groups : ∀ p, Last (indexAt par) ps p → groupsAt K par p ≤ aliTimingOpGroupMax
  length : aliMsgHeaderLen + ps.length * (K.headLen + timingOpGroupLen) ≤ dataBufLen

/-- The records of a message from its header on. -/
abbrev records (K : ParaKind) (par : ℕ → Byte) (parLen : ℕ) : List ℕ :=
  starts K par parLen aliMsgHeaderLen

/-- A set message whose handler stays in bounds. -/
structure SetFits (K : ParaKind) (now : BitVec 32) (par : ℕ → Byte) (parLen : ℕ)
    (setNack : Bool) : Prop where
  loop : LoopFits K now par parLen (records K par parLen) indexsLen
  status : setNack = false → refusedAt K now par (records K par parLen) = none → 0 < now →
    StatusFits K par (records K par parLen)

theorem accepted_of_refusedAt_eq_none (h : refusedAt K now par ps = none) :
    accepted K now par ps = ps ∧ ∀ p ∈ ps, accepts K now par p = true := by
  have hall : ∀ p ∈ ps, accepts K now par p = true := by
    intro p hp
    have hnot := List.find?_eq_none.mp h p hp
    exact (Bool.not_eq_false _).mp fun hfalse => hnot (by rw [hfalse]; rfl)
  exact ⟨List.takeWhile_eq_self_iff.mpr hall, hall⟩

/-! ### The status of what was stored -/

/-- The table with the records stored. -/
def stored (K : ParaKind) (now : BitVec 32) (par : ℕ → Byte) (t : TimingInfos) (ps : List ℕ) :
    TimingInfos := writeAll (indexAt par) (valueAt K now par) t ps

theorem exists_stored (K : ParaKind) (now : BitVec 32) (par : ℕ → Byte) (t : TimingInfos)
    {p : ℕ} (hp : p ∈ ps) : ∃ q, Last (indexAt par) ps q ∧
      stored K now par t ps (indexAt par p) = valueAt K now par q := by
  obtain ⟨q, hq, hkey⟩ := exists_last (indexAt par) hp
  refine ⟨q, hq, ?_⟩
  rw [← hkey]
  exact writeAll_of_last hq

theorem length_recordBytes_stored {p : ℕ} (hnow : 0 < now) (hp : p ∈ ps)
    (hgroups : ∀ p, Last (indexAt par) ps p → groupsAt K par p ≤ aliTimingOpGroupMax) :
    (recordBytes K past (stored K now par t ps) (par p)).length =
      K.headLen + timingOpGroupLen := by
  obtain ⟨q, hq, hvalue⟩ := exists_stored K now par t hp
  have hone : groupsAt K par q = 1 := Nat.le_antisymm (hgroups q hq) (groupsAt_pos K par q)
  have hactive : 0 < (valueAt K now par q).activeTime := hnow
  unfold recordBytes
  rw [show (par p).toNat = indexAt par p from rfl, hvalue, if_pos hactive, List.length_append,
    length_headOf, length_groupsBytes]
  show K.headLen + timingOpGroupLen * groupsAt K par q = _
  rw [hone, Nat.mul_one]

theorem length_statusBytes (indexs : List Byte) : (statusBytes K past t indexs).length =
    aliMsgHeaderLen + (indexs.flatMap (recordBytes K past t)).length := by
  unfold statusBytes
  rw [List.length_append, List.length_cons, Nor.length_toLE]
  rfl

theorem status_stored_within (hps : ∀ p ∈ ps, indexAt par p < aliTimingInfoNum) :
    (stsWith K past (stored K now par t ps) (ps.map par)).Within (Access.Ok parLen) ↔
      (0 < now → StatusFits K par ps) := by
  rw [stsWith_within, length_statusBytes]
  by_cases hnow : 0 < now
  · have hlen : (∀ p, Last (indexAt par) ps p → groupsAt K par p ≤ aliTimingOpGroupMax) →
        ((ps.map par).flatMap (recordBytes K past (stored K now par t ps))).length =
          ps.length * (K.headLen + timingOpGroupLen) := by
      intro hgroups
      have hconst : ps.map ((fun index =>
          (recordBytes K past (stored K now par t ps) index).length) ∘ par) =
            ps.map fun _ => K.headLen + timingOpGroupLen :=
        List.map_congr_left fun p hp => length_recordBytes_stored hnow hp hgroups
      rw [List.length_flatMap, List.map_map, hconst, List.map_const', List.sum_replicate_nat]
    constructor
    · rintro ⟨hlist, hend⟩ -
      have hgroups : ∀ p, Last (indexAt par) ps p → groupsAt K par p ≤ aliTimingOpGroupMax := by
        intro p hp
        have hone := (hlist (par p) (List.mem_map_of_mem hp.mem)).2
        rw [show (par p).toNat = indexAt par p from rfl,
          show stored K now par t ps (indexAt par p) = _ from writeAll_of_last hp] at hone
        exact hone hnow
      rw [hlen hgroups] at hend
      exact ⟨hgroups, hend⟩
    · intro hfits
      obtain ⟨hgroups, hend⟩ := hfits hnow
      rw [hlen hgroups]
      refine ⟨?_, hend⟩
      intro index hindex
      obtain ⟨p, hp, rfl⟩ := List.mem_map.mp hindex
      obtain ⟨q, hq, hvalue⟩ := exists_stored K now par t hp
      refine ⟨hps p hp, fun _ => ?_⟩
      rw [show (par p).toNat = indexAt par p from rfl, hvalue]
      exact hgroups q hq
  · -- without a time nothing is active, and the status is its header
    refine iff_of_true ⟨?_, ?_⟩ fun h => absurd h hnow
    · intro index hindex
      obtain ⟨p, hp, rfl⟩ := List.mem_map.mp hindex
      obtain ⟨q, -, hvalue⟩ := exists_stored K now par t hp
      refine ⟨hps p hp, fun hactive => ?_⟩
      rw [show (par p).toNat = indexAt par p from rfl, hvalue] at hactive
      exact absurd hactive hnow
    · have hnil : (ps.map par).flatMap (recordBytes K past (stored K now par t ps)) = [] := by
        rw [List.flatMap_eq_nil_iff]
        intro index hindex
        obtain ⟨p, hp, rfl⟩ := List.mem_map.mp hindex
        obtain ⟨q, -, hvalue⟩ := exists_stored K now par t hp
        unfold recordBytes
        rw [show (par p).toNat = indexAt par p from rfl, hvalue]
        exact if_neg hnow
      rw [hnil]
      decide

/-! ### The whole message -/

theorem le_of_refusedAt {p : ℕ} (h : refusedAt K now par (records K par parLen) = some p) :
    aliMsgHeaderLen ≤ parLen := by
  have hp := le_of_mem_starts (List.mem_of_find?_eq_some h)
  exact hp.1.trans hp.2.le

theorem setWith_within (hK : K.Sound) (past : Past) (s : AliNode) (par : ℕ → Byte) (parLen : ℕ)
    (cbPar : CbPar) :
    (setWith K past s par parLen cbPar).Within (Access.Ok parLen) ↔
      SetFits K s.aliUnixTime par parLen cbPar.setNack := by
  have hloop : (setRecords K s.aliUnixTime par ⟨s.timingInfos, []⟩
      (records K par parLen)).Within (Access.Ok parLen) ↔
        LoopFits K s.aliUnixTime par parLen (records K par parLen) indexsLen :=
    setRecords_within hK _ _ rfl
  have hval := @setRecords_val K s.aliUnixTime par (records K par parLen) ⟨s.timingInfos, []⟩
  unfold setWith
  rw [setLoop_eq, within_bind, hloop]
  dsimp only
  rw [hval]
  cases hnack : cbPar.setNack with
  | true =>
    rw [if_pos rfl]
    exact ⟨fun h => ⟨h.1, fun hfalse => absurd hfalse (by decide)⟩,
      fun h => ⟨h.loop, within_pure _⟩⟩
  | false =>
    rw [if_neg Bool.false_ne_true]
    cases href : refusedAt K s.aliUnixTime par (records K par parLen) with
    | some p =>
      have hheader : 1 + 2 ≤ parLen := le_of_refusedAt href
      constructor
      · intro h
        exact ⟨h.1, fun _ hnone => absurd (href.symm.trans hnone) (Option.some_ne_none p)⟩
      · intro h
        exact ⟨h.loop, (within_bind _ _).mpr ⟨within_readPar.mpr hheader, within_pure _⟩⟩
    | none =>
      obtain ⟨hacc, hall⟩ := accepted_of_refusedAt_eq_none href
      have hstatus : (stsWith K past (stored K s.aliUnixTime par s.timingInfos
          (records K par parLen)) ((records K par parLen).map par)).Within (Access.Ok parLen) ↔
            (0 < s.aliUnixTime → StatusFits K par (records K par parLen)) :=
        status_stored_within fun p hp => indexAt_lt hK (hall p hp)
      constructor
      · rintro ⟨hfits, hrest⟩
        refine ⟨hfits, fun _ _ => hstatus.mp ?_⟩
        have hsts := ((within_bind _ _).mp hrest).1
        rw [hacc] at hsts
        exact hsts
      · intro h
        refine ⟨h.loop, (within_bind _ _).mpr ⟨?_, within_pure _⟩⟩
        rw [hacc]
        exact hstatus.mpr (h.status rfl href)

end

/-- **Bounds of the set messages**: exactly which of them are handled within bounds, for every
table. -/
theorem timingMessages_within (past : Past) (s : AliNode) (par : ℕ → Byte) (parLen : ℕ)
    (cbPar : CbPar) :
    ((aliMeshTimingSet past s par parLen cbPar).Within (Access.Ok parLen) ↔
      SetFits timingSetPara s.aliUnixTime par parLen cbPar.setNack) ∧
    ((aliMeshCycleTimingSet past s par parLen cbPar).Within (Access.Ok parLen) ↔
      SetFits cycleTimingSetPara s.aliUnixTime par parLen cbPar.setNack) :=
  ⟨setWith_within timingSetPara_sound past s par parLen cbPar,
    setWith_within cycleTimingSetPara_sound past s par parLen cbPar⟩

/-- No timing, no time yet, nothing to save or to report. -/
def emptyNode : AliNode where
  sntpPara := ⟨180, 10, 10, 8⟩
  timingInfos _ := ⟨0, 0, .single, 0, 0, ⟨0, 0⟩⟩
  sntpTmp := ⟨false, 0, 0, 0⟩
  aliUnixTime := 0
  aliMeshTimeTick := 0
  saveTimeInfoFlag := false
  saveTimeInfoTiming := 0
  allTimingInfoReportFlag := false
  allTimingInfoReportTiming := 0
  timingInfoReportMask _ := 0
  timingInfoReportSrcAddr := 0
  timingInfoReportDesAddr := 0

/-- A message that ends behind its first index. -/
theorem timingMessages_within_refuted :
    ¬ ∀ (past : Past) (s : AliNode) (par : ℕ → Byte) (parLen : ℕ) (cbPar : CbPar),
      (aliMeshTimingSet past s par parLen cbPar).Within (Access.Ok parLen) ∧
        (aliMeshCycleTimingSet past s par parLen cbPar).Within (Access.Ok parLen) := by
  intro h
  have hset := (h (fun _ _ _ => ⟨0, 0⟩) emptyNode (fun _ => 0) 4 ⟨true, 1, 2, 0⟩).1
  have hfits := (setWith_within timingSetPara_sound _ _ _ _ _).mp hset
  have haccepts : accepts timingSetPara emptyNode.aliUnixTime (fun _ => 0) 3 = true := by decide
  have hmem : 3 ∈ accepted timingSetPara emptyNode.aliUnixTime (fun _ => 0)
      (records timingSetPara (fun _ => 0) 4) := by
    unfold records aliMsgHeaderLen
    rw [starts, if_pos (by decide), accepted_cons, if_pos haccepts]
    exact List.mem_cons_self
  exact absurd (hfits.loop.whole 3 hmem) (by unfold RecordFits; decide)

end PirMesh.Ali
