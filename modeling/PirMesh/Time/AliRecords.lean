import PirMesh.Library.Writes
import PirMesh.Time.AliMessages

/-! # Time — The records of a timing message

Where the records of a message begin (`starts`), what each stands for (`valueAt`), and the loop
over them as a program over that list (`setLoop_eq`): it stores the records before the first that
is refused, and stays in bounds if each of them is whole and there are no more than the local array
has room for (`setRecords_within`). -/

namespace PirMesh.Ali

open Accesses Accesses.Traced Reassembly Writes
open Nor (Byte)

/-- A check looks at the head of a record, and accepts only indexes of the table. -/
structure ParaKind.Sound (K : ParaKind) : Prop where
  checkLen_pos : 0 < K.checkLen
  checkLen_le : K.checkLen ≤ K.headLen
  index_lt : ∀ now checked, K.check now checked = 0 → (checked.headD 0).toNat < aliTimingInfoNum

theorem timingSetPara_sound : timingSetPara.Sound where
  checkLen_pos := by decide
  checkLen_le := by decide
  index_lt now checked h := by
    by_contra hge
    have herr : timingSetPara.check now checked ≠ 0 := by
      show (if _ then errCodeTimeRunningOut else if _ then errCodeTimingIndexNotFound else 0) ≠ _
      rw [if_pos (Nat.le_of_not_lt hge)]
      split_ifs
      · decide
      · decide
    exact herr h

theorem cycleTimingSetPara_sound : cycleTimingSetPara.Sound where
  checkLen_pos := by decide
  checkLen_le := by decide
  index_lt now checked h := by
    by_contra hge
    have herr : cycleTimingSetPara.check now checked = errCodeTimingIndexNotFound :=
      if_pos (Nat.le_of_not_lt hge)
    rw [herr] at h
    exact absurd h (by decide)

section

variable (K : ParaKind) (now : BitVec 32) (par : ℕ → Byte)

/-! ### Records -/

/-- Where the records of the message begin, from `p` on. -/
def starts (parLen p : ℕ) : List ℕ :=
  if p < parLen then p :: starts parLen (nextRecord K par p) else []
termination_by parLen - p
decreasing_by
  have hlt := lt_nextRecord K par p
  omega

def indexAt (p : ℕ) : ℕ := (par p).toNat

/-- The record is accepted. -/
def accepts (p : ℕ) : Bool := K.check now (read par p K.checkLen) = 0

/-- `op_group_num` of the record. -/
def groupsAt (p : ℕ) : ℕ := (K.groupsOf (read par p K.headLen)).toNat

/-- What the record stands for. -/
def valueAt (p : ℕ) : TimingInfo :=
  let head := read par p K.headLen
  { activeTime := now
    time := K.timeOf head
    type := K.type
    schedule := K.scheduleOf head
    opGroupNum := K.groupsOf head
    opGroup := .ofBytes (read par (p + K.headLen) timingOpGroupLen) }

/-- The head and the first group lie in the message. -/
def RecordFits (parLen p : ℕ) : Prop := p + K.headLen + timingOpGroupLen ≤ parLen

variable {K now par} {parLen p : ℕ} {ps : List ℕ} {st : Stored}

theorem headLen_pos (K : ParaKind) : 0 < K.headLen := by
  unfold ParaKind.headLen
  omega

theorem headD_read {n : ℕ} (hn : 0 < n) (par : ℕ → Byte) (p : ℕ) :
    (read par p n).headD 0 = par p := by
  obtain ⟨n, rfl⟩ := Nat.exists_eq_succ_of_ne_zero hn.ne'
  show ((List.range (n + 1)).map fun i => par (p + i)).headD 0 = par p
  rw [List.range_succ_eq_map]
  rfl

theorem groupsAt_pos (K : ParaKind) (par : ℕ → Byte) (p : ℕ) : 0 < groupsAt K par p := by
  unfold groupsAt ParaKind.groupsOf
  split_ifs with hzero
  · decide
  · exact Nat.pos_of_ne_zero fun h => hzero (BitVec.eq_of_toNat_eq h)

theorem indexAt_lt (hK : K.Sound) (h : accepts K now par p = true) :
    indexAt par p < aliTimingInfoNum := by
  have hlt := hK.index_lt now _ (of_decide_eq_true h)
  rwa [headD_read hK.checkLen_pos] at hlt

theorem le_of_mem_starts {q : ℕ} (h : q ∈ starts K par parLen p) : p ≤ q ∧ q < parLen := by
  induction hn : parLen - p using Nat.strongRecOn generalizing p with
  | ind n ih =>
    rw [starts] at h
    split_ifs at h with hlt
    · rcases List.mem_cons.mp h with rfl | hrest
      · exact ⟨le_rfl, hlt⟩
      · have hnext := lt_nextRecord K par p
        obtain ⟨hle, hq⟩ := ih (parLen - nextRecord K par p) (by omega) hrest rfl
        exact ⟨hnext.le.trans hle, hq⟩
    · cases h

/-! ### Storing one -/

theorem foldlM_storeGroup_succ (p m : ℕ) (info : TimingInfo) :
    ((List.range m).map Nat.succ).foldlM (storeGroup K par p) info = pure info := by
  have hpure : ∀ (l : List ℕ) (info : TimingInfo),
      (l.map Nat.succ).foldlM (storeGroup K par p) info = pure info := by
    intro l
    induction l with
    | nil => exact fun _ => rfl
    | cons i l ih =>
      intro info
      have hskip : storeGroup K par p info i.succ = pure info :=
        if_neg (Nat.not_lt_of_le (Nat.succ_le_succ (Nat.zero_le i)))
      rw [List.map_cons, List.foldlM_cons, hskip]
      exact ih info
  exact hpure _ info

/-- There is room for the first group only. -/
theorem foldlM_storeGroup {n : ℕ} (hn : 0 < n) (p : ℕ) (info : TimingInfo) :
    ((List.range n).foldlM (storeGroup K par p) info).val =
        { info with opGroup := .ofBytes (read par (p + K.headLen) timingOpGroupLen) } ∧
      (((List.range n).foldlM (storeGroup K par p) info).Within (Access.Ok parLen) ↔
        RecordFits K parLen p) := by
  obtain ⟨m, rfl⟩ := Nat.exists_eq_succ_of_ne_zero hn.ne'
  rw [List.range_succ_eq_map, List.foldlM_cons]
  refine ⟨?_, ?_⟩
  · rw [val_bind, foldlM_storeGroup_succ]
    rfl
  · rw [within_bind, foldlM_storeGroup_succ]
    refine (and_iff_left (within_pure _)).trans ?_
    show (readPar par (p + K.headLen + timingOpGroupLen * 0) timingOpGroupLen >>= fun bs =>
      touch (.group 0) >>= fun _ => _).Within (Access.Ok parLen) ↔ _
    rw [within_bind, within_bind, within_touch]
    refine (and_iff_left ⟨Nat.one_pos, within_pure _⟩).trans (within_look _ _)

theorem storeRecord_val (p : ℕ) (st : Stored) :
    (storeRecord K now par p st).val =
      ⟨Function.update st.timingInfos (indexAt par p) (valueAt K now par p),
        st.indexs ++ [par p]⟩ := by
  have hindex : ParaKind.indexOf (read par p K.headLen) = par p :=
    headD_read (headLen_pos K) par p
  have hgroup := fun info => (@foldlM_storeGroup K par 0 _ (groupsAt_pos K par p) p info).1
  show Stored.mk (Function.update st.timingInfos
    (ParaKind.indexOf (read par p K.headLen)).toNat
      ((List.range (groupsAt K par p)).foldlM (storeGroup K par p) _).val)
    (st.indexs ++ [ParaKind.indexOf (read par p K.headLen)]) = _
  rw [hgroup, hindex]
  rfl

theorem storeRecord_within (p : ℕ) (st : Stored) :
    (storeRecord K now par p st).Within (Access.Ok parLen) ↔
      RecordFits K parLen p ∧ indexAt par p < aliTimingInfoNum ∧ st.indexs.length < indexsLen := by
  have hindex : ParaKind.indexOf (read par p K.headLen) = par p :=
    headD_read (headLen_pos K) par p
  have hgroup := fun info => (@foldlM_storeGroup K par parLen _ (groupsAt_pos K par p) p info).2
  have hfit : RecordFits K parLen p → p + K.headLen ≤ parLen := fun h =>
    (Nat.le_add_right _ _).trans h
  unfold storeRecord
  simp only [within_bind, within_touch, within_pure, within_readPar, val_readPar,
    ok_info, ok_index, and_true, hindex]
  rw [show (K.groupsOf (read par p K.headLen)).toNat = groupsAt K par p from rfl, hgroup]
  constructor
  · rintro ⟨-, hi, hr, hk⟩
    exact ⟨hr, hi, hk⟩
  · rintro ⟨hr, hi, hk⟩
    exact ⟨hfit hr, hi, hr, hk⟩

/-! ### The loop -/

/-- The loop as a program over the records. -/
def setRecords (K : ParaKind) (now : BitVec 32) (par : ℕ → Byte) (st : Stored) :
    List ℕ → Handler (Stored × Option Refused)
  | [] => pure (st, none)
  | p :: ps => do
    let checked ← readPar par p K.checkLen
    let err := K.check now checked
    if err ≠ 0 then pure (st, some ⟨err, checked.headD 0⟩)
    else
      let st ← storeRecord K now par p st
      setRecords K now par st ps

theorem setLoop_eq (parLen p : ℕ) (st : Stored) :
    setLoop K now par parLen p st = setRecords K now par st (starts K par parLen p) := by
  induction hn : parLen - p using Nat.strongRecOn generalizing p st with
  | ind n ih =>
    have hnext := lt_nextRecord K par p
    rw [setLoop, starts]
    by_cases hlt : p < parLen
    · rw [if_pos hlt, if_pos hlt, setRecords]
      have hrest := fun st => ih _ (by omega) (nextRecord K par p) st rfl
      simp only [hrest]
    · rw [if_neg hlt, if_neg hlt]
      rfl

/-- The records before the first that is refused. -/
def accepted (K : ParaKind) (now : BitVec 32) (par : ℕ → Byte) (ps : List ℕ) : List ℕ :=
  ps.takeWhile (accepts K now par)

/-- The first record that is refused. -/
def refusedAt (K : ParaKind) (now : BitVec 32) (par : ℕ → Byte) (ps : List ℕ) : Option ℕ :=
  ps.find? fun p => !accepts K now par p

/-- All of the records are stored. -/
def storeAll (K : ParaKind) (now : BitVec 32) (par : ℕ → Byte) (st : Stored) (ps : List ℕ) :
    Stored :=
  ⟨writeAll (indexAt par) (valueAt K now par) st.timingInfos ps, st.indexs ++ ps.map par⟩

theorem storeAll_cons (p : ℕ) (ps : List ℕ) (st : Stored) :
    storeAll K now par st (p :: ps) =
      storeAll K now par (storeRecord K now par p st).val ps := by
  rw [storeRecord_val]
  unfold storeAll
  rw [List.map_cons, List.append_cons]
  rfl

/-- The error of the record at `p`. -/
def refusal (K : ParaKind) (now : BitVec 32) (par : ℕ → Byte) (p : ℕ) : Refused :=
  ⟨K.check now (read par p K.checkLen), (read par p K.checkLen).headD 0⟩

theorem setRecords_cons_accepts {p : ℕ} (h : accepts K now par p = true) (ps : List ℕ)
    (st : Stored) :
    (setRecords K now par st (p :: ps)).val =
        (setRecords K now par (storeRecord K now par p st).val ps).val ∧
      ((setRecords K now par st (p :: ps)).Within (Access.Ok parLen) ↔
        p + K.checkLen ≤ parLen ∧ (storeRecord K now par p st).Within (Access.Ok parLen) ∧
          (setRecords K now par (storeRecord K now par p st).val ps).Within
            (Access.Ok parLen)) := by
  have hzero : ¬ K.check now (read par p K.checkLen) ≠ 0 := not_not_intro (of_decide_eq_true h)
  rw [setRecords, val_bind, within_bind, within_readPar, val_readPar, if_neg hzero, val_bind,
    within_bind]
  exact ⟨rfl, Iff.rfl⟩

theorem setRecords_cons_refuses {p : ℕ} (h : accepts K now par p = false) (ps : List ℕ)
    (st : Stored) :
    (setRecords K now par st (p :: ps)).val = (st, some (refusal K now par p)) ∧
      ((setRecords K now par st (p :: ps)).Within (Access.Ok parLen) ↔
        p + K.checkLen ≤ parLen) := by
  have hne : K.check now (read par p K.checkLen) ≠ 0 := of_decide_eq_false h
  rw [setRecords, val_bind, within_bind, within_readPar, val_readPar, if_pos hne]
  exact ⟨rfl, and_iff_left (within_pure _)⟩

theorem accepted_cons (p : ℕ) (ps : List ℕ) : accepted K now par (p :: ps) =
    if accepts K now par p then p :: accepted K now par ps else [] := List.takeWhile_cons

theorem refusedAt_cons (p : ℕ) (ps : List ℕ) : refusedAt K now par (p :: ps) =
    if accepts K now par p then refusedAt K now par ps else some p := by
  unfold refusedAt
  rw [List.find?_cons]
  cases accepts K now par p <;> rfl

theorem setRecords_val (ps : List ℕ) (st : Stored) :
    (setRecords K now par st ps).val =
      (storeAll K now par st (accepted K now par ps),
        (refusedAt K now par ps).map (refusal K now par)) := by
  induction ps generalizing st with
  | nil =>
    show (st, none) = (Stored.mk st.timingInfos (st.indexs ++ []), none)
    rw [List.append_nil]
  | cons p ps ih =>
    cases h : accepts K now par p with
    | true =>
      rw [(@setRecords_cons_accepts K now par 0 p h ps st).1, ih, accepted_cons, refusedAt_cons, h,
        if_pos rfl, if_pos rfl, storeAll_cons]
    | false =>
      rw [(@setRecords_cons_refuses K now par 0 p h ps st).1, accepted_cons, refusedAt_cons, h]
      show _ = (Stored.mk st.timingInfos (st.indexs ++ []), some _)
      rw [List.append_nil]

/-- Each record that is looked at lies in the message, and there is room for the indexes. -/
structure LoopFits (K : ParaKind) (now : BitVec 32) (par : ℕ → Byte) (parLen : ℕ)
    (ps : List ℕ) (room : ℕ) : Prop where
  whole : ∀ p ∈ accepted K now par ps, RecordFits K parLen p
  checked : ∀ p ∈ refusedAt K now par ps, p + K.checkLen ≤ parLen
  few : (accepted K now par ps).length ≤ room

theorem loopFits_accepts {p : ℕ} (h : accepts K now par p = true) (ps : List ℕ) (room : ℕ) :
    LoopFits K now par parLen (p :: ps) room ↔
      RecordFits K parLen p ∧ 0 < room ∧ LoopFits K now par parLen ps (room - 1) := by
  have haccepted : accepted K now par (p :: ps) = p :: accepted K now par ps := by
    rw [accepted_cons, if_pos h]
  have hrefused : refusedAt K now par (p :: ps) = refusedAt K now par ps := by
    rw [refusedAt_cons, if_pos h]
  constructor
  · rintro ⟨hall, hchecked, hfew⟩
    rw [haccepted] at hall hfew
    rw [hrefused] at hchecked
    obtain ⟨hwhole, hall⟩ := List.forall_mem_cons.mp hall
    rw [List.length_cons] at hfew
    exact ⟨hwhole, by omega, hall, hchecked, by omega⟩
  · rintro ⟨hwhole, hpos, hall, hchecked, hfew⟩
    refine ⟨?_, hrefused ▸ hchecked, ?_⟩
    · rw [haccepted]
      exact List.forall_mem_cons.mpr ⟨hwhole, hall⟩
    · rw [haccepted, List.length_cons]
      omega

theorem loopFits_refuses {p : ℕ} (h : accepts K now par p = false) (ps : List ℕ) (room : ℕ) :
    LoopFits K now par parLen (p :: ps) room ↔ p + K.checkLen ≤ parLen := by
  have haccepted : accepted K now par (p :: ps) = [] := by
    rw [accepted_cons, h]
    rfl
  have hrefused : refusedAt K now par (p :: ps) = some p := by
    rw [refusedAt_cons, h]
    rfl
  constructor
  · intro hfits
    exact hfits.checked p hrefused
  · intro hfit
    refine ⟨?_, ?_, ?_⟩
    · rw [haccepted]
      exact fun q hq => absurd hq List.not_mem_nil
    · rw [hrefused]
      exact fun q hq => Option.some.inj hq ▸ hfit
    · rw [haccepted]
      exact Nat.zero_le room

theorem setRecords_within (hK : K.Sound) {room : ℕ} (ps : List ℕ) (st : Stored)
    (hroom : st.indexs.length + room = indexsLen) :
    (setRecords K now par st ps).Within (Access.Ok parLen) ↔
      LoopFits K now par parLen ps room := by
  induction ps generalizing st room with
  | nil =>
    refine iff_of_true (within_pure _) ⟨?_, ?_, Nat.zero_le room⟩
    · intro p hp
      cases hp
    · intro p hp
      cases hp
  | cons p ps ih =>
    cases h : accepts K now par p with
    | true =>
      have hlen : (storeRecord K now par p st).val.indexs.length = st.indexs.length + 1 := by
        rw [storeRecord_val, List.length_append]
        rfl
      have hhead : p + K.checkLen ≤ p + K.headLen := Nat.add_le_add_left hK.checkLen_le p
      rw [(setRecords_cons_accepts h ps st).2, storeRecord_within, loopFits_accepts h]
      constructor
      · rintro ⟨-, ⟨hwhole, -, hlt⟩, hrest⟩
        exact ⟨hwhole, by omega, (@ih (room - 1) _ (by omega)).mp hrest⟩
      · rintro ⟨hwhole, hpos, hrest⟩
        have hfit : p + K.checkLen ≤ parLen := hhead.trans ((Nat.le_add_right _ _).trans hwhole)
        refine ⟨hfit, ⟨hwhole, indexAt_lt hK h, by omega⟩, ?_⟩
        exact (@ih (room - 1) _ (by omega)).mpr hrest
    | false =>
      rw [(setRecords_cons_refuses h ps st).2, loopFits_refuses h]

end

/-! ### Statuses -/

section

variable (K : ParaKind) (past : Past) (t : TimingInfos)

/-- Operation groups of a timing, as octets. -/
def groupsBytes (i n : ℕ) : List Byte :=
  (List.range n).flatMap fun j => (opGroupAt past t i j).bytes

/-- What a status says of a timing. -/
def recordBytes (index : Byte) : List Byte :=
  if 0 < (t index.toNat).activeTime then
    K.headOf index (t index.toNat) ++
      groupsBytes past t index.toNat (t index.toNat).opGroupNum.toNat
  else []

/-- The octets of a status. -/
def statusBytes (indexs : List Byte) : List Byte :=
  0 :: Nor.toLE 2 K.attrType.toNat ++ indexs.flatMap (recordBytes K past t)

variable {K past t} {i n parLen : ℕ} {buf : List Byte} {index : Byte}

theorem length_bytes (g : OpGroup) : g.bytes.length = timingOpGroupLen := by
  unfold OpGroup.bytes
  rw [List.length_append, Nor.length_toLE]
  rfl

theorem length_groupsBytes (i n : ℕ) :
    (groupsBytes past t i n).length = timingOpGroupLen * n := by
  unfold groupsBytes
  induction n with
  | zero => rfl
  | succ n ih =>
    rw [List.range_succ, List.flatMap_append, List.length_append, ih, List.flatMap_singleton,
      length_bytes, Nat.mul_succ]

theorem length_headOf (index : Byte) (info : TimingInfo) :
    (K.headOf index info).length = K.headLen := by
  unfold ParaKind.headOf ParaKind.headLen ParaKind.scheduleLen
  rw [List.length_append, List.length_cons, Nor.length_toLE]
  split_ifs
  · rw [List.length_singleton]
    omega
  · rw [List.length_nil]
    omega

theorem foldlM_stsGroup_val (i n : ℕ) (buf : List Byte) :
    ((List.range n).foldlM (stsGroup past t i) buf).val = buf ++ groupsBytes past t i n := by
  rw [val_foldlM]
  exact List.foldl_append_eq_append

/-- A timing has one group. -/
theorem foldlM_stsGroup_within (hbuf : buf.length ≤ dataBufLen) :
    ((List.range n).foldlM (stsGroup past t i) buf).Within (Access.Ok parLen) ↔
      n ≤ aliTimingOpGroupMax ∧ buf.length + timingOpGroupLen * n ≤ dataBufLen := by
  have hone : ∀ buf j, (stsGroup past t i buf j).Within (Access.Ok parLen) ↔
      j < aliTimingOpGroupMax ∧ buf.length + timingOpGroupLen ≤ dataBufLen := by
    intro buf j
    unfold stsGroup
    rw [within_bind, within_touch, within_writeBuf, length_bytes]
    rfl
  match n with
  | 0 => exact iff_of_true (within_pure _) ⟨Nat.zero_le _, hbuf⟩
  | 1 =>
    rw [show List.range 1 = [0] from rfl, List.foldlM_cons, within_bind, hone]
    refine (and_iff_left (within_pure _)).trans ?_
    exact and_congr_left fun _ => iff_of_true Nat.one_pos le_rfl
  | n + 2 =>
    -- the second group is not there
    refine iff_of_false (fun h => ?_) fun h => absurd h.1 (by unfold aliTimingOpGroupMax; omega)
    rw [List.range_succ_eq_map, List.range_succ_eq_map, List.map_cons, List.foldlM_cons,
      within_bind, List.foldlM_cons, within_bind, hone, hone] at h
    exact absurd h.2.1.1 (lt_irrefl 1)

theorem stsOne_val (buf : List Byte) (index : Byte) :
    (stsOne K past t buf index).val = buf ++ recordBytes K past t index := by
  unfold stsOne recordBytes
  rw [val_bind, val_ite]
  split_ifs
  · rw [val_bind, val_writeBuf, foldlM_stsGroup_val, List.append_assoc]
  · rw [List.append_nil]
    rfl

/-- What a status needs of a timing. -/
def Listable (t : TimingInfos) (i : ℕ) : Prop :=
  i < aliTimingInfoNum ∧
    (0 < (t i).activeTime → (t i).opGroupNum.toNat ≤ aliTimingOpGroupMax)

theorem stsOne_within (hbuf : buf.length ≤ dataBufLen) :
    (stsOne K past t buf index).Within (Access.Ok parLen) ↔
      Listable t index.toNat ∧ (buf ++ recordBytes K past t index).length ≤ dataBufLen := by
  unfold stsOne recordBytes Listable
  rw [within_bind, within_touch, within_ite]
  by_cases hactive : 0 < (t index.toNat).activeTime
  · have hlen : (buf ++ (K.headOf index (t index.toNat) ++
        groupsBytes past t index.toNat (t index.toNat).opGroupNum.toNat)).length =
          (buf ++ K.headOf index (t index.toNat)).length +
            timingOpGroupLen * (t index.toNat).opGroupNum.toNat := by
      rw [← List.append_assoc, List.length_append, length_groupsBytes]
    rw [if_pos hactive, if_pos hactive, within_bind, within_writeBuf, val_writeBuf, hlen,
      ← List.length_append]
    constructor
    · rintro ⟨hi, hhead, hgroups⟩
      obtain ⟨hnum, hend⟩ := (foldlM_stsGroup_within hhead).mp hgroups
      exact ⟨⟨hi, fun _ => hnum⟩, hend⟩
    · rintro ⟨⟨hi, hnum⟩, hend⟩
      have hhead := (Nat.le_add_right _ _).trans hend
      exact ⟨hi, hhead, (foldlM_stsGroup_within hhead).mpr ⟨hnum hactive, hend⟩⟩
  · rw [if_neg hactive, if_neg hactive, List.append_nil]
    refine ⟨fun h => ⟨⟨h.1, fun h' => absurd h' hactive⟩, hbuf⟩, fun h => ⟨h.1.1, within_pure _⟩⟩

theorem stsWith_val (indexs : List Byte) :
    (stsWith K past t indexs).val = statusBytes K past t indexs := by
  unfold stsWith statusBytes
  rw [val_bind, val_foldlM, val_writeBuf]
  simp only [stsOne_val]
  exact List.foldl_append_eq_append

theorem foldlM_stsOne_within (indexs : List Byte) (hbuf : buf.length ≤ dataBufLen) :
    (indexs.foldlM (stsOne K past t) buf).Within (Access.Ok parLen) ↔
      (∀ index ∈ indexs, Listable t index.toNat) ∧
        (buf ++ indexs.flatMap (recordBytes K past t)).length ≤ dataBufLen := by
  induction indexs generalizing buf with
  | nil =>
    rw [List.flatMap_nil, List.append_nil]
    exact iff_of_true (within_pure _) ⟨List.forall_mem_nil _, hbuf⟩
  | cons index indexs ih =>
    rw [List.foldlM_cons, within_bind, stsOne_within hbuf, stsOne_val, List.forall_mem_cons,
      List.flatMap_cons, ← List.append_assoc]
    constructor
    · rintro ⟨⟨hone, hlen⟩, hrest⟩
      obtain ⟨hall, hend⟩ := (ih hlen).mp hrest
      exact ⟨⟨hone, hall⟩, hend⟩
    · rintro ⟨⟨hone, hall⟩, hend⟩
      have hlen : (buf ++ recordBytes K past t index).length ≤ dataBufLen := by
        rw [List.length_append] at hend
        exact (Nat.le_add_right _ _).trans hend
      exact ⟨⟨hone, hlen⟩, (ih hlen).mpr ⟨hall, hend⟩⟩

/-- **A status** stays in bounds when each of its timings has at most the group it has room for,
and all of it fits into the buffer. -/
theorem stsWith_within (indexs : List Byte) :
    (stsWith K past t indexs).Within (Access.Ok parLen) ↔
      (∀ index ∈ indexs, Listable t index.toNat) ∧
        (statusBytes K past t indexs).length ≤ dataBufLen := by
  have hhead : (0 :: Nor.toLE 2 K.attrType.toNat : List Byte).length = 3 := by
    rw [List.length_cons, Nor.length_toLE]
  have hbuf : ([] ++ 0 :: Nor.toLE 2 K.attrType.toNat : List Byte).length ≤ dataBufLen := by
    rw [List.nil_append, hhead]
    decide
  unfold stsWith
  rw [within_bind, within_writeBuf, val_writeBuf, foldlM_stsOne_within indexs hbuf]
  refine and_iff_right ?_
  rw [hhead]
  decide

end

end PirMesh.Ali
