import PirMesh.Time.AliBounds

/-! # Time — The report of the timings

A get marks what it asks for in a mask, and the passes of `user_ali_time_proc` serve it: five
timings at a time, the single ones first, each taken out of the mask as it is listed.  What was
listed and what is still to be listed (`toList`) are together what the mask began with
(`Reporting.step`), so the report lists exactly the active timings of the mask and stops.

The mask is where it goes wrong: unless all timings are asked for, the get marks bits of the
*places* of the message (`marked_iff`), not of its indexes, and adds them to what is left of an
earlier report. -/

namespace PirMesh.Ali

open Accesses Accesses.Traced Run
open Nor (Byte)

section

variable {t : TimingInfos} {ty : TimingType} {mask : ℕ → Byte} {parLen : ℕ}

/-! ### One loop over the mask -/

/-- Timing `i` is in the mask, active, and of type `ty`. -/
def picks (t : TimingInfos) (ty : TimingType) (mask : ℕ → Byte) (i : ℕ) : Bool :=
  BitArray.test mask i && ((t i).active && decide ((t i).type = ty))

theorem picks_iff (i : ℕ) : picks t ty mask i = true ↔
    BitArray.test mask i = true ∧ (t i).active = true ∧ (t i).type = ty := by
  unfold picks
  rw [Bool.and_eq_true, Bool.and_eq_true, decide_eq_true_iff]

/-- The loop takes the first ones it finds, as many as there is room for, out of the mask. -/
structure Picked (t : TimingInfos) (ty : TimingType) (mask : ℕ → Byte) (indexs l : List ℕ)
    (done : Handler ((ℕ → Byte) × List ℕ)) : Prop where
  listed : done.val.2 =
    indexs ++ (l.filter (picks t ty mask)).take (reportIndexsLen - indexs.length)
  left : ∀ j, BitArray.test done.val.1 j = true ↔ BitArray.test mask j = true ∧
    j ∉ (l.filter (picks t ty mask)).take (reportIndexsLen - indexs.length)
  within : ∀ parLen, done.Within (Access.Ok parLen)

theorem filter_picks_clear {i : ℕ} {l : List ℕ} (h : i ∉ l) :
    l.filter (picks t ty (BitArray.clear mask i)) = l.filter (picks t ty mask) := by
  refine List.filter_congr fun j hj => ?_
  have hne : j ≠ i := fun hji => h (hji ▸ hj)
  unfold picks
  rw [BitArray.test_clear (by decide), decide_eq_false hne, Bool.not_false, Bool.true_and]

theorem ok_mask_of_lt {i : ℕ} (h : i < aliTimingInfoNum) : i / 8 < reportMaskLen := by
  unfold aliTimingInfoNum at h
  unfold reportMaskLen
  omega

theorem pickLoop_of_picks {i : ℕ} (h : picks t ty mask i = true) (indexs l : List ℕ) :
    pickLoop t ty mask indexs (i :: l) = (do
      touch (.mask (i / 8))
      touch (.info i)
      touch (.index indexs.length reportIndexsLen)
      touch (.mask (i / 8))
      if reportIndexsLen ≤ (indexs ++ [i]).length then
        pure (BitArray.clear mask i, indexs ++ [i])
      else pickLoop t ty (BitArray.clear mask i) (indexs ++ [i]) l) := by
  obtain ⟨hbit, hactive, htype⟩ := (picks_iff i).mp h
  rw [pickLoop, hbit, if_neg (by decide), if_pos ⟨hactive, htype⟩]

/-- What is not picked is passed over. -/
theorem pickLoop_of_not_picks {i : ℕ} (h : picks t ty mask i = false) {indexs : List ℕ}
    (hroom : indexs.length < reportIndexsLen) (l : List ℕ) (parLen : ℕ) :
    (pickLoop t ty mask indexs (i :: l)).val = (pickLoop t ty mask indexs l).val ∧
      (i < aliTimingInfoNum → (pickLoop t ty mask indexs l).Within (Access.Ok parLen) →
        (pickLoop t ty mask indexs (i :: l)).Within (Access.Ok parLen)) := by
  rw [pickLoop]
  cases hbit : BitArray.test mask i with
  | false =>
    rw [if_pos rfl]
    refine ⟨rfl, fun hi hrest => (within_bind _ _).mpr ⟨?_, hrest⟩⟩
    exact (within_touch _).mpr (ok_mask_of_lt hi)
  | true =>
    have hnot : ¬ ((t i).active = true ∧ (t i).type = ty) := fun hboth =>
      absurd (h.symm.trans ((picks_iff i).mpr ⟨hbit, hboth⟩)) Bool.false_ne_true
    rw [if_neg (by decide), if_neg hnot, if_neg (Nat.not_le_of_lt hroom)]
    refine ⟨rfl, fun hi hrest => (within_bind _ _).mpr ⟨?_, (within_bind _ _).mpr ⟨?_, hrest⟩⟩⟩
    · exact (within_touch _).mpr (ok_mask_of_lt hi)
    · exact (within_touch _).mpr hi

theorem test_clear_iff (mask : ℕ → Byte) (i j : ℕ) :
    BitArray.test (BitArray.clear mask i) j = true ↔ BitArray.test mask j = true ∧ j ≠ i := by
  rw [BitArray.test_clear (by decide), Bool.and_eq_true, Bool.not_eq_true',
    decide_eq_false_iff_not, and_comm]

section

variable {indexs l : List ℕ} {i : ℕ}

theorem Picked.pass (hp : picks t ty mask i = false) (hi : i < aliTimingInfoNum)
    (hroom : indexs.length < reportIndexsLen)
    (h : Picked t ty mask indexs l (pickLoop t ty mask indexs l)) :
    Picked t ty mask indexs (i :: l) (pickLoop t ty mask indexs (i :: l)) := by
  obtain ⟨hlisted, hleft, hwithin⟩ := h
  have hnot := pickLoop_of_not_picks hp hroom l
  have hfilter : (i :: l).filter (picks t ty mask) = l.filter (picks t ty mask) :=
    List.filter_cons_of_neg (ne_true_of_eq_false hp)
  refine ⟨?_, ?_, fun parLen => (hnot parLen).2 hi (hwithin parLen)⟩
  · rw [(hnot 0).1, hfilter, hlisted]
  · rw [(hnot 0).1, hfilter]
    exact hleft

/-- With the last place taken the loop ends. -/
theorem Picked.last (hp : picks t ty mask i = true) (hi : i < aliTimingInfoNum)
    (hroom : indexs.length + 1 = reportIndexsLen) :
    Picked t ty mask indexs (i :: l) (pickLoop t ty mask indexs (i :: l)) := by
  have hmask := ok_mask_of_lt hi
  have hfilter : (i :: l).filter (picks t ty mask) = i :: l.filter (picks t ty mask) :=
    List.filter_cons_of_pos hp
  have hlen : (indexs ++ [i]).length = indexs.length + 1 := List.length_append
  have hleft : reportIndexsLen - indexs.length = 1 := by omega
  rw [pickLoop_of_picks hp, if_pos (by omega)]
  refine ⟨?_, fun j => ?_, fun parLen => ?_⟩
  · rw [hfilter, hleft]
    rfl
  · rw [hfilter, hleft]
    exact (test_clear_iff mask i j).trans (and_congr_right fun _ => by simp)
  · simp only [within_bind, within_touch, within_pure, ok_mask, ok_info, ok_index]
    exact ⟨hmask, hi, by omega, hmask, trivial⟩

theorem Picked.take (hp : picks t ty mask i = true) (hi : i < aliTimingInfoNum)
    (hnotin : i ∉ l) (hroom : indexs.length + 1 < reportIndexsLen)
    (h : Picked t ty (BitArray.clear mask i) (indexs ++ [i]) l
      (pickLoop t ty (BitArray.clear mask i) (indexs ++ [i]) l)) :
    Picked t ty mask indexs (i :: l) (pickLoop t ty mask indexs (i :: l)) := by
  obtain ⟨hlisted, hleft, hwithin⟩ := h
  have hmask := ok_mask_of_lt hi
  have hfilter : (i :: l).filter (picks t ty mask) = i :: l.filter (picks t ty mask) :=
    List.filter_cons_of_pos hp
  have hlen : (indexs ++ [i]).length = indexs.length + 1 := List.length_append
  have hplaces : reportIndexsLen - indexs.length =
      reportIndexsLen - (indexs ++ [i]).length + 1 := by omega
  rw [filter_picks_clear hnotin] at hlisted hleft
  rw [pickLoop_of_picks hp, if_neg (by omega)]
  refine ⟨?_, fun j => ?_, fun parLen => ?_⟩
  · rw [hfilter, hplaces, List.take_succ_cons]
    refine hlisted.trans ?_
    rw [List.append_assoc, List.singleton_append]
  · rw [hfilter, hplaces, List.take_succ_cons, List.mem_cons, not_or]
    refine (hleft j).trans ?_
    rw [test_clear_iff, and_assoc]
  · simp only [within_bind, within_touch, ok_mask, ok_info, ok_index]
    exact ⟨hmask, hi, by omega, hmask, hwithin parLen⟩

end

theorem pickLoop_picked (l : List ℕ) (mask : ℕ → Byte) (indexs : List ℕ) (hl : l.Nodup)
    (hlt : ∀ i ∈ l, i < aliTimingInfoNum) (hroom : indexs.length < reportIndexsLen) :
    Picked t ty mask indexs l (pickLoop t ty mask indexs l) := by
  induction l generalizing mask indexs with
  | nil =>
    refine ⟨?_, fun j => ?_, fun _ => within_pure _⟩
    · rw [List.filter_nil, List.take_nil, List.append_nil]
      rfl
    · rw [List.filter_nil, List.take_nil]
      exact (and_iff_left List.not_mem_nil).symm
  | cons i l ih =>
    obtain ⟨hnotin, hnodup⟩ := List.nodup_cons.mp hl
    have hi := hlt i List.mem_cons_self
    have hrest : ∀ j ∈ l, j < aliTimingInfoNum := fun j hj => hlt j (List.mem_cons_of_mem i hj)
    cases hp : picks t ty mask i with
    | false => exact .pass hp hi hroom (ih mask indexs hnodup hrest hroom)
    | true =>
      rcases Nat.lt_or_ge (indexs.length + 1) reportIndexsLen with hmore | hfull
      · refine .take hp hi hnotin hmore (ih _ _ hnodup hrest ?_)
        rwa [List.length_append]
      · exact .last hp hi (Nat.le_antisymm hroom hfull)

/-! ### What is still to be listed -/

/-- The timings of a type that the mask still asks for. -/
def pending (t : TimingInfos) (ty : TimingType) (mask : ℕ → Byte) : List ℕ :=
  (List.range aliTimingInfoNum).filter (picks t ty mask)

theorem mem_pending (i : ℕ) : i ∈ pending t ty mask ↔
    i < aliTimingInfoNum ∧ BitArray.test mask i = true ∧ (t i).active = true ∧
      (t i).type = ty := by
  unfold pending
  rw [List.mem_filter, List.mem_range, picks_iff]

theorem nodup_pending : (pending t ty mask).Nodup := List.nodup_range.filter _

theorem filter_notMem_take {l : List ℕ} (h : l.Nodup) (n : ℕ) :
    l.filter (fun a => decide (a ∉ l.take n)) = l.drop n := by
  have hsplit := List.take_append_drop n l
  have hdisjoint : ∀ a ∈ l.take n, ∀ b ∈ l.drop n, a ≠ b := by
    rw [← hsplit] at h
    exact (List.nodup_append.mp h).2.2
  have hfirst : (l.take n).filter (fun a => decide (a ∉ l.take n)) = [] :=
    List.filter_eq_nil_iff.mpr fun a ha htrue => of_decide_eq_true htrue ha
  have hrest : (l.drop n).filter (fun a => decide (a ∉ l.take n)) = l.drop n :=
    List.filter_eq_self.mpr fun b hb => decide_eq_true fun ha => hdisjoint b ha b hb rfl
  calc l.filter (fun a => decide (a ∉ l.take n))
      = (l.take n ++ l.drop n).filter (fun a => decide (a ∉ l.take n)) := by rw [hsplit]
    _ = l.drop n := by rw [List.filter_append, hfirst, hrest, List.nil_append]

/-- The mask behind a loop over all timings. -/
theorem pending_left {done : Handler ((ℕ → Byte) × List ℕ)}
    (h : Picked t ty mask [] (List.range aliTimingInfoNum) done) :
    done.val.2 = (pending t ty mask).take reportIndexsLen ∧
      pending t ty done.val.1 = (pending t ty mask).drop reportIndexsLen ∧
        ∀ ty', ty' ≠ ty → pending t ty' done.val.1 = pending t ty' mask := by
  obtain ⟨hlisted, hleft, -⟩ := h
  rw [List.nil_append, List.length_nil, Nat.sub_zero] at hlisted
  refine ⟨hlisted, ?_, fun ty' hne => ?_⟩
  · rw [← filter_notMem_take nodup_pending]
    unfold pending
    rw [List.filter_filter]
    refine List.filter_congr fun i _ => Bool.eq_iff_iff.mpr ?_
    rw [picks_iff, hleft, Bool.and_eq_true, decide_eq_true_iff, picks_iff]
    exact ⟨fun h => ⟨h.1.2, h.1.1, h.2⟩, fun h => ⟨⟨h.2.1, h.1⟩, h.2.2⟩⟩
  · refine List.filter_congr fun i _ => Bool.eq_iff_iff.mpr ?_
    rw [picks_iff, picks_iff, hleft]
    constructor
    · rintro ⟨⟨hbit, -⟩, hrest⟩
      exact ⟨hbit, hrest⟩
    · rintro ⟨hbit, hactive, htype⟩
      refine ⟨⟨hbit, fun hmem => hne ?_⟩, hactive, htype⟩
      have hpicked := List.mem_filter.mp (List.mem_of_mem_take hmem)
      exact htype.symm.trans ((picks_iff i).mp hpicked.2).2.2

/-- What the report has still to list, in its order. -/
def AliNode.toList (s : AliNode) : List ℕ :=
  pending s.timingInfos .single s.timingInfoReportMask ++
    pending s.timingInfos .cycle s.timingInfoReportMask

theorem toList_servedAt (s : AliNode) (clockTime : BitVec 32) (mask : ℕ → Byte) :
    (s.servedAt clockTime mask).toList =
      pending s.timingInfos .single mask ++ pending s.timingInfos .cycle mask := rfl

/-! ### One pass -/

/-- The status that lists timings of a type. -/
def paraOf : TimingType → ParaKind
  | .single => timingSetPara
  | .cycle => cycleTimingSetPara

/-- A status lists timings of one type, five at most. -/
structure Listed.Lists (m : Listed) (past : Past) (t : TimingInfos) (ty : TimingType) : Prop where
  data : m.data = statusBytes (paraOf ty) past t (m.indexs.map (BitVec.ofNat 8))
  few : m.indexs.length ≤ reportIndexsLen
  timings : ∀ i ∈ m.indexs, i < aliTimingInfoNum ∧ (t i).active = true ∧ (t i).type = ty

/-- A pass sends the next timings, or there are none and it stops. -/
inductive Served (past : Past) (s : AliNode) : AliNode × Option Listed → Prop
  | sends {s' : AliNode} {m : Listed} (ty : TimingType) (table : s'.timingInfos = s.timingInfos)
      (goesOn : s'.allTimingInfoReportFlag = s.allTimingInfoReportFlag) (some : m.indexs ≠ [])
      (rest : m.indexs ++ s'.toList = s.toList) (lists : m.Lists past s.timingInfos ty) :
      Served past s (s', Option.some m)
  | stops {s' : AliNode} (table : s'.timingInfos = s.timingInfos)
      (stopped : s'.allTimingInfoReportFlag = false) (none : s.toList = [])
      (rest : s'.toList = []) : Served past s (s', Option.none)

/-- The loop over all timings. -/
theorem pickLoop_all (t : TimingInfos) (ty : TimingType) (mask : ℕ → Byte) :
    Picked t ty mask [] (List.range aliTimingInfoNum)
      (pickLoop t ty mask [] (List.range aliTimingInfoNum)) :=
  pickLoop_picked _ mask [] List.nodup_range (fun _ hi => List.mem_range.mp hi) (by decide)

theorem eq_nil_of_take_eq_nil {l : List ℕ} (h : l.take reportIndexsLen = []) : l = [] := by
  cases l with
  | nil => rfl
  | cons a l => cases h

/-- The status of the first ones that are pending. -/
theorem lists_take {data : List Byte} (t : TimingInfos) (ty : TimingType) (mask : ℕ → Byte)
    (past : Past) (hdata : data = statusBytes (paraOf ty) past t
      (((pending t ty mask).take reportIndexsLen).map (BitVec.ofNat 8))) :
    Listed.Lists ⟨(pending t ty mask).take reportIndexsLen, data⟩ past t ty := by
  refine ⟨hdata, List.length_take_le _ _, fun i hi => ?_⟩
  obtain ⟨hlt, -, hrest⟩ := (mem_pending i).mp (List.mem_of_mem_take hi)
  exact ⟨hlt, hrest⟩

theorem reportServe_served (past : Past) (s : AliNode) (clockTime : BitVec 32) :
    Served past s (reportServe past s clockTime).val := by
  -- the two loops, as what they are known for
  obtain ⟨single, hsingle⟩ : ∃ x, x = pickLoop s.timingInfos .single s.timingInfoReportMask []
      (List.range aliTimingInfoNum) := ⟨_, rfl⟩
  obtain ⟨cycle, hcycle⟩ : ∃ x, x = pickLoop s.timingInfos .cycle single.val.1 []
      (List.range aliTimingInfoNum) := ⟨_, rfl⟩
  obtain ⟨hlisted, hleft, hother⟩ := pending_left
    (hsingle ▸ pickLoop_all s.timingInfos .single s.timingInfoReportMask)
  obtain ⟨hlisted', hleft', hother'⟩ := pending_left
    (hcycle ▸ pickLoop_all s.timingInfos .cycle single.val.1)
  have hsame := hother .cycle (by decide)
  rw [hsame] at hlisted' hleft'
  unfold reportServe
  rw [val_bind, ← hsingle, val_ite, val_bind, val_bind, ← hcycle, val_ite, val_bind]
  split_ifs with hA hB
  · refine .sends .single rfl rfl hA ?_ ?_
    · rw [toList_servedAt, hlisted, hleft, hsame, ← List.append_assoc, List.take_append_drop]
      rfl
    · rw [hlisted]
      exact lists_take _ _ _ past (stsWith_val _)
  · have hnone := eq_nil_of_take_eq_nil (hlisted.symm.trans (not_not.mp hA))
    have hstill := hother' .single (by decide)
    rw [hleft, hnone, List.drop_nil] at hstill
    refine .sends .cycle rfl rfl hB ?_ ?_
    · rw [toList_servedAt, hlisted', hstill, hleft', List.nil_append, List.take_append_drop]
      unfold AliNode.toList
      rw [hnone, List.nil_append]
    · rw [hlisted']
      exact lists_take _ _ _ past (stsWith_val _)
  · have hnone := eq_nil_of_take_eq_nil (hlisted.symm.trans (not_not.mp hA))
    have hnone' := eq_nil_of_take_eq_nil (hlisted'.symm.trans (not_not.mp hB))
    have hstill := hother' .single (by decide)
    rw [hleft, hnone, List.drop_nil] at hstill
    rw [hnone', List.drop_nil] at hleft'
    refine .stops rfl rfl ?_ ?_
    · unfold AliNode.toList
      rw [hnone, hnone', List.append_nil]
    · show pending s.timingInfos .single cycle.val.1 ++
        pending s.timingInfos .cycle cycle.val.1 = []
      rw [hstill, hleft', List.append_nil]

/-- Every timing has at most the group there is room for. -/
def OneGroup (t : TimingInfos) (l : List ℕ) : Prop :=
  ∀ i ∈ l, (t i).opGroupNum.toNat ≤ aliTimingOpGroupMax

theorem headLen_paraOf_le (ty : TimingType) : (paraOf ty).headLen ≤ 5 := by
  cases ty with
  | single => decide
  | cycle => decide

theorem length_recordBytes_le (ty : TimingType) (past : Past) {i : ℕ} (h : i < aliTimingInfoNum)
    (hone : (t i).opGroupNum.toNat ≤ aliTimingOpGroupMax) :
    (recordBytes (paraOf ty) past t (BitVec.ofNat 8 i)).length ≤ 8 := by
  have hi : (BitVec.ofNat 8 i).toNat = i := Nat.mod_eq_of_lt (h.trans (by decide))
  have hhead := headLen_paraOf_le ty
  unfold recordBytes
  rw [hi]
  unfold aliTimingOpGroupMax at hone
  split_ifs
  · rw [List.length_append, length_headOf, length_groupsBytes]
    unfold timingOpGroupLen
    omega
  · exact Nat.zero_le 8

theorem Listed.Lists.within_iff {m : Listed} {past : Past} (h : m.Lists past t ty) :
    (stsWith (paraOf ty) past t (m.indexs.map (BitVec.ofNat 8))).Within (Access.Ok parLen) ↔
      OneGroup t m.indexs := by
  have hi : ∀ i ∈ m.indexs, (BitVec.ofNat 8 i).toNat = i := fun i hi =>
    Nat.mod_eq_of_lt ((h.timings i hi).1.trans (by decide))
  rw [stsWith_within]
  constructor
  · rintro ⟨hlist, -⟩ i hmem
    have hone := (hlist _ (List.mem_map_of_mem hmem)).2
    rw [hi i hmem] at hone
    exact hone (of_decide_eq_true (h.timings i hmem).2.1).1
  · intro hone
    constructor
    · intro index hindex
      obtain ⟨i, hmem, rfl⟩ := List.mem_map.mp hindex
      unfold Listable
      rw [hi i hmem]
      exact ⟨(h.timings i hmem).1, fun _ => hone i hmem⟩
    · -- five records of eight octets, behind the header
      have hle : ∀ l : List ℕ, (∀ i ∈ l, i ∈ m.indexs) →
          ((l.map (BitVec.ofNat 8)).flatMap (recordBytes (paraOf ty) past t)).length ≤
            8 * l.length := by
        intro l
        induction l with
        | nil => exact fun _ => le_rfl
        | cons i l ih =>
          intro hsub
          have hmem := hsub i List.mem_cons_self
          have hfirst := length_recordBytes_le ty past (h.timings i hmem).1 (hone i hmem)
          have hrest := ih fun j hj => hsub j (List.mem_cons_of_mem i hj)
          rw [List.map_cons, List.flatMap_cons, List.length_append, List.length_cons]
          omega
      have hbound := hle m.indexs fun _ => id
      have hfew := h.few
      rw [length_statusBytes]
      unfold reportIndexsLen at hfew
      unfold aliMsgHeaderLen dataBufLen
      omega

/-- A pass stays in bounds when what it lists has one group each. -/
theorem reportServe_within (past : Past) (s : AliNode) (clockTime : BitVec 32) :
    (reportServe past s clockTime).Within (Access.Ok parLen) ↔
      ∀ m, (reportServe past s clockTime).val.2 = some m → OneGroup s.timingInfos m.indexs := by
  obtain ⟨single, hsingle⟩ : ∃ x, x = pickLoop s.timingInfos .single s.timingInfoReportMask []
      (List.range aliTimingInfoNum) := ⟨_, rfl⟩
  obtain ⟨cycle, hcycle⟩ : ∃ x, x = pickLoop s.timingInfos .cycle single.val.1 []
      (List.range aliTimingInfoNum) := ⟨_, rfl⟩
  have hsingle' := hsingle ▸ pickLoop_all s.timingInfos .single s.timingInfoReportMask
  have hcycle' := hcycle ▸ pickLoop_all s.timingInfos .cycle single.val.1
  obtain ⟨hlisted, -, -⟩ := pending_left hsingle'
  obtain ⟨hlisted', -, -⟩ := pending_left hcycle'
  unfold reportServe
  rw [val_bind, within_bind, ← hsingle, val_ite, within_ite, val_bind, within_bind, val_bind,
    within_bind, ← hcycle, val_ite, within_ite, val_bind, within_bind]
  split_ifs with hA hB
  · have hlists := lists_take s.timingInfos .single s.timingInfoReportMask past (stsWith_val _)
    rw [← hlisted] at hlists
    refine (and_iff_right (hsingle'.within parLen)).trans ((and_iff_left (within_pure _)).trans ?_)
    refine hlists.within_iff.trans ⟨fun hone m hm => ?_, fun hall => hall _ rfl⟩
    rw [← Option.some.inj hm]
    exact hone
  · have hlists := lists_take s.timingInfos .cycle single.val.1 past (stsWith_val _)
    rw [← hlisted'] at hlists
    refine (and_iff_right (hsingle'.within parLen)).trans
      ((and_iff_right (hcycle'.within parLen)).trans ((and_iff_left (within_pure _)).trans ?_))
    refine hlists.within_iff.trans ⟨fun hone m hm => ?_, fun hall => hall _ rfl⟩
    rw [← Option.some.inj hm]
    exact hone
  · refine iff_of_true ⟨hsingle'.within parLen, hcycle'.within parLen, within_pure _⟩ ?_
    intro m hm
    cases hm

end

end PirMesh.Ali
