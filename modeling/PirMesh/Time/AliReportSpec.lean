import PirMesh.Library.BitFields
import PirMesh.Time.AliReport

/-! # Time — A get and the report that follows (`user_ali_time.c`)

`reported_iff` says exactly which gets are answered with the active timings they ask for, each
once and no other, and stop: those for all timings, and those whose indexes happen to be the bits
that the get marks or that an earlier report has left. -/

namespace PirMesh.Ali

open Accesses Accesses.Traced Run
open Nor (Byte)

/-! ### What a get marks -/

section

variable {par : ℕ → Byte} {parLen : ℕ} {s : AliNode} {cbPar : CbPar} {mask : ℕ → Byte}

/-- The indexes of a get. -/
def askedFor (par : ℕ → Byte) (parLen : ℕ) : List ℕ :=
  (List.range (parLen - aliMsgHeaderLen)).map fun k => (par (aliMsgHeaderLen + k)).toNat

/-- The get is for timing `i`; `0xFF` is all of them. -/
def AsksFor (par : ℕ → Byte) (parLen i : ℕ) : Prop :=
  0xFF ∈ askedFor par parLen ∨ i ∈ askedFor par parLen

/-- Bit `i` is marked by a get of `n` places. -/
def PlaceMarks (n i : ℕ) : Prop :=
  i % 8 = 0 ∧ i + 2 ≤ n ∨ i % 8 = 1 ∧ i + 2 ≤ n ∨ i % 8 = 2 ∧ i + 3 ≤ n

instance (n i : ℕ) : Decidable (PlaceMarks n i) := inferInstanceAs (Decidable (_ ∨ _))

theorem checkAll_val (ks : List ℕ) :
    (checkAll par ks).val = true ↔ ∃ k ∈ ks, (par (aliMsgHeaderLen + k)).toNat = 0xFF := by
  induction ks with
  | nil => exact iff_of_false Bool.false_ne_true (by simp)
  | cons k ks ih =>
    have hbyte : (Reassembly.read par (aliMsgHeaderLen + k) 1).headD 0 =
        par (aliMsgHeaderLen + k) := headD_read Nat.one_pos par _
    rw [checkAll, val_bind, val_readPar, hbyte, val_ite, List.exists_mem_cons_iff]
    by_cases h : par (aliMsgHeaderLen + k) = 0xFF
    · rw [if_pos h]
      exact iff_of_true rfl (.inl (congrArg BitVec.toNat h))
    · rw [if_neg h, ih]
      exact (or_iff_right fun heq => h (BitVec.eq_of_toNat_eq heq)).symm

theorem checkAll_within {ok : Access → Prop} (ks : List ℕ)
    (hks : ∀ k ∈ ks, ok (.par (aliMsgHeaderLen + k) 1)) : (checkAll par ks).Within ok := by
  induction ks with
  | nil => exact within_pure _
  | cons k ks ih =>
    have hrest := ih fun j hj => hks j (List.mem_cons_of_mem k hj)
    rw [checkAll, within_bind, within_ite]
    refine ⟨(within_look _ _).mpr (hks k List.mem_cons_self), ?_⟩
    split_ifs
    · exact within_pure _
    · exact hrest

theorem test_markPlace (mask : ℕ → Byte) (k i : ℕ) :
    BitArray.test (markPlace mask k).val i = true ↔
      BitArray.test mask i = true ∨ (k / 8 = i / 8 ∧ (k % 8).testBit (i % 8) = true) := by
  have hbit : ∀ j, (BitVec.ofNat 8 (k % 8)).getLsbD (j % 8) = (k % 8).testBit (j % 8) := by
    intro j
    rw [BitVec.getLsbD_ofNat, decide_eq_true (Nat.mod_lt j (by decide)), Bool.true_and]
  show (Function.update mask (k / 8) (mask (k / 8) ||| BitVec.ofNat 8 (k % 8)) (i / 8)).getLsbD
    (i % 8) = true ↔ _
  by_cases h : k / 8 = i / 8
  · rw [h, Function.update_self, BitVec.getLsbD_or, hbit, Bool.or_eq_true]
    exact or_congr_right (and_iff_right rfl).symm
  · rw [Function.update_of_ne (Ne.symm h)]
    exact (or_iff_left fun hboth => h hboth.1).symm

theorem test_foldl_markPlace (ks : List ℕ) (mask : ℕ → Byte) (i : ℕ) :
    BitArray.test (ks.foldl (fun mask k => (markPlace mask k).val) mask) i = true ↔
      BitArray.test mask i = true ∨
        ∃ k ∈ ks, k / 8 = i / 8 ∧ (k % 8).testBit (i % 8) = true := by
  induction ks generalizing mask with
  | nil => simp
  | cons k ks ih =>
    rw [List.foldl_cons, ih, test_markPlace, List.exists_mem_cons_iff, or_assoc]

theorem testBit_digit : ∀ r j : Fin 8, r.val.testBit j.val = true →
    j.val = 0 ∧ 1 ≤ r.val ∨ j.val = 1 ∧ 2 ≤ r.val ∨ j.val = 2 ∧ 4 ≤ r.val := by decide

/-- A place number has three bits, so it marks the first three of eight timings. -/
theorem placeMarks_iff (n i : ℕ) :
    (∃ k ∈ List.range n, k / 8 = i / 8 ∧ (k % 8).testBit (i % 8) = true) ↔ PlaceMarks n i := by
  unfold PlaceMarks
  constructor
  · rintro ⟨k, hk, hdiv, hbit⟩
    have hlt := List.mem_range.mp hk
    have hdigit := testBit_digit ⟨k % 8, Nat.mod_lt k (by decide)⟩
      ⟨i % 8, Nat.mod_lt i (by decide)⟩ hbit
    dsimp only at hdigit
    omega
  · rintro (⟨h, hn⟩ | ⟨h, hn⟩ | ⟨h, hn⟩)
    · refine ⟨i + 1, List.mem_range.mpr hn, by omega, ?_⟩
      rw [show (i + 1) % 8 = 1 by omega, h]
      decide
    · refine ⟨i + 1, List.mem_range.mpr hn, by omega, ?_⟩
      rw [show (i + 1) % 8 = 2 by omega, h]
      decide
    · refine ⟨i + 2, List.mem_range.mpr hn, by omega, ?_⟩
      rw [show (i + 2) % 8 = 4 by omega, h]
      decide

theorem test_markAll {i : ℕ} (h : i < aliTimingInfoNum) (mask : ℕ → Byte) :
    BitArray.test (markAll mask) i = true := by
  unfold BitArray.test markAll
  rw [if_pos (ok_mask_of_lt h)]
  exact (by decide : ∀ j < 8, (0xFF : Byte).getLsbD j = true) _ (Nat.mod_lt i (by decide))

/-- What a get leaves. -/
structure GetEnds (s : AliNode) (par : ℕ → Byte) (parLen : ℕ) (s' : AliNode) : Prop where
  table : s'.timingInfos = s.timingInfos
  flag : s'.allTimingInfoReportFlag = true ↔
    askedFor par parLen ≠ [] ∨ s.allTimingInfoReportFlag = true
  mask : ∀ i < aliTimingInfoNum, BitArray.test s'.timingInfoReportMask i = true ↔
    0xFF ∈ askedFor par parLen ∨ BitArray.test s.timingInfoReportMask i = true ∨
      PlaceMarks (askedFor par parLen).length i

theorem length_askedFor (par : ℕ → Byte) (parLen : ℕ) :
    (askedFor par parLen).length = parLen - aliMsgHeaderLen := by
  unfold askedFor
  rw [List.length_map, List.length_range]

theorem checkAll_askedFor : (checkAll par (List.range (parLen - aliMsgHeaderLen))).val = true ↔
    0xFF ∈ askedFor par parLen := by
  rw [checkAll_val]
  unfold askedFor
  rw [List.mem_map]

/-- The mask behind a get that is long enough. -/
theorem test_markFor {i : ℕ} (hi : i < aliTimingInfoNum) (mask : ℕ → Byte) :
    BitArray.test (markFor par (List.range (parLen - aliMsgHeaderLen)) mask).val i = true ↔
      0xFF ∈ askedFor par parLen ∨ BitArray.test mask i = true ∨
        PlaceMarks (askedFor par parLen).length i := by
  unfold markFor
  rw [val_bind, val_ite]
  by_cases hall : 0xFF ∈ askedFor par parLen
  · rw [if_pos (checkAll_askedFor.mpr hall)]
    exact iff_of_true (test_markAll hi mask) (.inl hall)
  · rw [if_neg fun h => hall (checkAll_askedFor.mp h), val_foldlM, test_foldl_markPlace,
      placeMarks_iff, length_askedFor]
    exact (or_iff_right hall).symm

theorem aliMeshTimingGet_ends (s : AliNode) (par : ℕ → Byte) (parLen : ℕ) (cbPar : CbPar) :
    GetEnds s par parLen (aliMeshTimingGet s par parLen cbPar).val.1 := by
  have hlen := length_askedFor par parLen
  unfold aliMeshTimingGet
  by_cases hshort : parLen ≤ aliMsgHeaderLen
  · have hnil : askedFor par parLen = [] :=
      List.length_eq_zero_iff.mp (hlen.trans (Nat.sub_eq_zero_of_le hshort))
    have hmarks : ∀ i, ¬ PlaceMarks 0 i := by
      intro i
      unfold PlaceMarks
      omega
    rw [if_pos hshort]
    refine ⟨rfl, (or_iff_right fun h => h hnil).symm, fun i _ => ?_⟩
    rw [hnil]
    exact ((or_iff_right List.not_mem_nil).trans (or_iff_left (hmarks i))).symm
  · have hne : askedFor par parLen ≠ [] := by
      intro hnil
      rw [hnil, List.length_nil] at hlen
      exact hshort (Nat.le_of_sub_eq_zero hlen.symm)
    rw [if_neg hshort]
    exact ⟨rfl, iff_of_true rfl (.inl hne), fun i hi => test_markFor hi s.timingInfoReportMask⟩

/-- What the handlers of a report may access: the message, and the mask. -/
structure Allows (ok : Access → Prop) (parLen : ℕ) : Prop where
  par : ∀ p n, p + n ≤ parLen → ok (.par p n)
  mask : ∀ b, ok (.mask b) ↔ b < reportMaskLen

variable {ok : Access → Prop}

theorem markPlace_within (h : Allows ok parLen) (mask : ℕ → Byte) (k : ℕ) :
    (markPlace mask k).Within ok ↔ k / 8 < reportMaskLen := by
  unfold markPlace
  rw [within_bind, within_touch, h.mask]
  exact and_iff_left (within_pure _)

theorem aliMeshTimingGet_within (h : Allows ok parLen) (s : AliNode) (par : ℕ → Byte)
    (cbPar : CbPar) : (aliMeshTimingGet s par parLen cbPar).Within ok ↔
      0xFF ∈ askedFor par parLen ∨ (askedFor par parLen).length ≤ aliTimingInfoNum := by
  have hlen := length_askedFor par parLen
  unfold aliMeshTimingGet
  by_cases hshort : parLen ≤ aliMsgHeaderLen
  · rw [if_pos hshort, hlen, Nat.sub_eq_zero_of_le hshort]
    exact iff_of_true (within_pure _) (.inr (Nat.zero_le _))
  · have hcheck : (checkAll par (List.range (parLen - aliMsgHeaderLen))).Within ok := by
      refine checkAll_within _ fun k hk => h.par _ _ ?_
      have hlt := List.mem_range.mp hk
      omega
    rw [if_neg hshort, within_bind]
    refine (and_iff_left (within_pure _)).trans ?_
    unfold markFor
    rw [within_bind, within_ite]
    refine (and_iff_right hcheck).trans ?_
    by_cases hall : 0xFF ∈ askedFor par parLen
    · rw [if_pos (checkAll_askedFor.mpr hall)]
      exact iff_of_true (within_pure _) (.inl hall)
    · rw [if_neg fun h => hall (checkAll_askedFor.mp h), within_foldlM_iff (markPlace_within h),
        hlen]
      refine Iff.trans ?_ (or_iff_right hall).symm
      unfold reportMaskLen aliTimingInfoNum
      constructor
      · intro h
        by_contra hlong
        have hlast := h 40 (List.mem_range.mpr (by omega))
        omega
      · intro h k hk
        have hlt := List.mem_range.mp hk
        omega

end

/-! ### A pass of a run -/

section

variable {past : Past} {interval : BitVec 32} {s : AliNode} {e : ReportCall} {es : List ReportCall}

def passOf (past : Past) (interval : BitVec 32) (s : AliNode) (e : ReportCall) : AliNode :=
  (userAliTimeProcAll past interval s e).val.1

/-- The status that a pass sends. -/
def sentBy (past : Past) (interval : BitVec 32) (s : AliNode) (e : ReportCall) : List Listed :=
  (userAliTimeProcAll past interval s e).val.2.toList

/-- The report is served in this pass. -/
def serves (s : AliNode) (e : ReportCall) : Bool := e.provisionSuccess && s.reportDue e

/-- The node when a pass comes to the report. -/
def AliNode.timed (past : Past) (interval : BitVec 32) (s : AliNode) (e : ReportCall) : AliNode :=
  (AliNode.timeSaveToFlashProcess
    { s with toAliTime := userAliTimeProc past interval s.toAliTime e.toProcCall } e.clockTime).1

/-- Two nodes alike for the report. -/
structure SameReport (s s' : AliNode) : Prop where
  flag : s'.allTimingInfoReportFlag = s.allTimingInfoReportFlag
  timing : s'.allTimingInfoReportTiming = s.allTimingInfoReportTiming
  mask : s'.timingInfoReportMask = s.timingInfoReportMask

theorem sameReport_timed (past : Past) (interval : BitVec 32) (s : AliNode) (e : ReportCall) :
    SameReport s (s.timed past interval e) := by
  unfold AliNode.timed AliNode.timeSaveToFlashProcess
  split_ifs
  · exact ⟨rfl, rfl, rfl⟩
  · exact ⟨rfl, rfl, rfl⟩
  · exact ⟨rfl, rfl, rfl⟩

theorem SameReport.reportDue {s' : AliNode} (h : SameReport s s') (e : ReportCall) :
    s'.reportDue e = s.reportDue e := by
  unfold AliNode.reportDue
  rw [h.flag, h.timing]

theorem SameReport.toList {s' : AliNode} (h : SameReport s s')
    (htable : s'.timingInfos = s.timingInfos) : s'.toList = s.toList := by
  unfold AliNode.toList
  rw [h.mask, htable]

theorem procAll_eq (h : e.provisionSuccess = true) : userAliTimeProcAll past interval s e =
    if (s.timed past interval e).reportDue e then
      reportServe past (s.timed past interval e) e.clockTime
    else pure (s.timed past interval e, none) := by
  unfold userAliTimeProcAll
  rw [h, if_neg (by decide)]
  rfl

theorem procAll_of_serves (h : serves s e = true) : userAliTimeProcAll past interval s e =
    reportServe past (s.timed past interval e) e.clockTime := by
  obtain ⟨hsuccess, hdue⟩ := Bool.and_eq_true_iff.mp h
  rw [procAll_eq hsuccess, (sameReport_timed past interval s e).reportDue]
  exact if_pos hdue

variable (past interval) in
/-- A pass without a report leaves it as it is. -/
theorem procAll_of_not_serves (h : serves s e = false) :
    ∃ s', userAliTimeProcAll past interval s e = pure (s', none) ∧ SameReport s s' := by
  cases hsuccess : e.provisionSuccess with
  | false =>
    unfold userAliTimeProcAll
    exact ⟨s, if_pos hsuccess, rfl, rfl, rfl⟩
  | true =>
    have hdue : s.reportDue e = false := by
      rw [← h, serves, hsuccess, Bool.true_and]
    refine ⟨s.timed past interval e, ?_, sameReport_timed past interval s e⟩
    rw [procAll_eq hsuccess, (sameReport_timed past interval s e).reportDue, hdue]
    exact if_neg Bool.false_ne_true

/-- What a pass does that leaves the table. -/
inductive Passed (past : Past) (interval : BitVec 32) (s : AliNode) (e : ReportCall) : Prop
  | idle (notNow : serves s e = false) (same : SameReport s (passOf past interval s e))
      (none : sentBy past interval s e = [])
  | serves (now : serves s e = true)
      (served : Served past s (userAliTimeProcAll past interval s e).val)

/-- The node a pass begins with may be the one that comes to the report. -/
theorem Served.of_same {s' : AliNode} {r : AliNode × Option Listed} (h : Served past s' r)
    (hsame : SameReport s s') (htable : s'.timingInfos = s.timingInfos) : Served past s r := by
  have hlist := hsame.toList htable
  cases h with
  | sends ty table goesOn some rest lists =>
    exact .sends ty (table.trans htable) (goesOn.trans hsame.flag) some (rest.trans hlist)
      (htable ▸ lists)
  | stops table stopped none rest =>
    exact .stops (table.trans htable) stopped (hlist.symm.trans none) rest

theorem Served.table {r : AliNode × Option Listed} (h : Served past s r) :
    r.1.timingInfos = s.timingInfos := by
  cases h with
  | sends ty table => exact table
  | stops table => exact table

/-- The table of a pass that leaves it is the one its report is about. -/
theorem timed_table (hserves : serves s e = true)
    (h : (passOf past interval s e).timingInfos = s.timingInfos) :
    (s.timed past interval e).timingInfos = s.timingInfos := by
  have hserved := reportServe_served past (s.timed past interval e) e.clockTime
  unfold passOf at h
  rw [procAll_of_serves hserves] at h
  exact hserved.table.symm.trans h

theorem passOf_passed (h : (passOf past interval s e).timingInfos = s.timingInfos) :
    Passed past interval s e := by
  cases hserves : serves s e with
  | false =>
    obtain ⟨s', heq, hsame⟩ := procAll_of_not_serves past interval hserves
    refine .idle hserves ?_ ?_
    · unfold passOf
      rw [heq]
      exact hsame
    · unfold sentBy
      rw [heq]
      rfl
  | true =>
    refine .serves hserves ?_
    rw [procAll_of_serves hserves]
    exact (reportServe_served past _ e.clockTime).of_same (sameReport_timed past interval s e)
      (timed_table hserves h)

/-! ### A run of passes -/

/-- The passes leave the table. -/
def Quiet (past : Past) (interval : BitVec 32) : AliNode → List ReportCall → Prop :=
  GoodRun (passOf past interval) fun s e => (passOf past interval s e).timingInfos = s.timingInfos

/-- The statuses of a run. -/
def statuses (past : Past) (interval : BitVec 32) : AliNode → List ReportCall → List Listed
  | _, [] => []
  | s, e :: es =>
    sentBy past interval s e ++ statuses past interval (passOf past interval s e) es

def listed (past : Past) (interval : BitVec 32) (s : AliNode) (es : List ReportCall) : List ℕ :=
  (statuses past interval s es).flatMap Listed.indexs

/-- How often the report is served in a run. -/
def timesServed (past : Past) (interval : BitVec 32) : AliNode → List ReportCall → ℕ
  | _, [] => 0
  | s, e :: es => (serves s e).toNat + timesServed past interval (passOf past interval s e) es

/-- The report as a run has brought it on. -/
structure Reported (past : Past) (interval : BitVec 32) (s : AliNode) (es : List ReportCall) :
    Prop where
  rest : listed past interval s es ++ (es.foldl (passOf past interval) s).toList = s.toList
  lists : ∀ m ∈ statuses past interval s es, ∃ ty, m.Lists past s.timingInfos ty
  goesOn : (es.foldl (passOf past interval) s).allTimingInfoReportFlag = true →
    s.allTimingInfoReportFlag = true ∧
      timesServed past interval s es ≤ (listed past interval s es).length
  stopped : (es.foldl (passOf past interval) s).allTimingInfoReportFlag = false →
    s.allTimingInfoReportFlag = true → (es.foldl (passOf past interval) s).toList = []
  silent : s.allTimingInfoReportFlag = false → listed past interval s es = []

theorem listed_cons : listed past interval s (e :: es) =
    (sentBy past interval s e).flatMap Listed.indexs ++
      listed past interval (passOf past interval s e) es := List.flatMap_append

theorem statuses_cons : statuses past interval s (e :: es) =
    sentBy past interval s e ++ statuses past interval (passOf past interval s e) es := rfl

theorem Reported.of_idle (h : Reported past interval (passOf past interval s e) es)
    (notNow : serves s e = false) (same : SameReport s (passOf past interval s e))
    (table : (passOf past interval s e).timingInfos = s.timingInfos)
    (none : sentBy past interval s e = []) : Reported past interval s (e :: es) := by
  have hlisted : listed past interval s (e :: es) =
      listed past interval (passOf past interval s e) es := by
    rw [listed_cons, none]
    rfl
  refine ⟨?_, ?_, fun hflag => ?_, fun hflag hs => h.stopped hflag (same.flag.trans hs),
    fun hs => hlisted.trans (h.silent (same.flag.trans hs))⟩
  · rw [hlisted, ← same.toList table]
    exact h.rest
  · rw [statuses_cons, none, ← table]
    exact h.lists
  · obtain ⟨hs, hcount⟩ := h.goesOn hflag
    refine ⟨same.flag.symm.trans hs, ?_⟩
    rw [hlisted, timesServed, notNow]
    exact (Nat.zero_add _).trans_le hcount

theorem Reported.of_served (h : Reported past interval (passOf past interval s e) es)
    (now : serves s e = true)
    (served : Served past s (userAliTimeProcAll past interval s e).val) :
    Reported past interval s (e :: es) := by
  have hflag : s.allTimingInfoReportFlag = true :=
    (Bool.and_eq_true_iff.mp (Bool.and_eq_true_iff.mp now).2).1
  obtain ⟨⟨s', sent⟩, hval⟩ : ∃ r, (userAliTimeProcAll past interval s e).val = r := ⟨_, rfl⟩
  have hpass : passOf past interval s e = s' := congrArg Prod.fst hval
  have hsent : sentBy past interval s e = sent.toList :=
    congrArg (fun r : AliNode × Option Listed => r.2.toList) hval
  rw [hval] at served
  rw [hpass] at h
  have hend : (e :: es).foldl (passOf past interval) s = es.foldl (passOf past interval) s' := by
    rw [List.foldl_cons, hpass]
  have hlisted : listed past interval s (e :: es) =
      sent.toList.flatMap Listed.indexs ++ listed past interval s' es := by
    rw [listed_cons, hsent, hpass]
  have hcount : timesServed past interval s (e :: es) = 1 + timesServed past interval s' es := by
    rw [timesServed, now, hpass]
    rfl
  have hstatuses : statuses past interval s (e :: es) =
      sent.toList ++ statuses past interval s' es := by
    rw [statuses_cons, hsent, hpass]
  refine ⟨?_, ?_, ?_, ?_, fun hs => absurd (hs.symm.trans hflag) Bool.false_ne_true⟩
  · rw [hlisted, hend, List.append_assoc, h.rest]
    cases served with
    | sends ty table goesOn some rest lists => rw [← rest]; simp
    | stops table stopped none rest => exact rest.trans none.symm
  · rw [hstatuses, ← served.table]
    intro m hm
    rcases List.mem_append.mp hm with hfirst | hlater
    · cases served with
      | sends ty table goesOn some rest lists =>
        obtain rfl := List.mem_singleton.mp hfirst
        exact ⟨ty, table ▸ lists⟩
      | stops => exact absurd hfirst List.not_mem_nil
    · exact h.lists m hlater
  · rw [hend, hlisted, hcount]
    intro hgoes
    obtain ⟨hs', hlen⟩ := h.goesOn hgoes
    refine ⟨hflag, ?_⟩
    cases served with
    | @sends _ m ty table goesOn some rest lists =>
      have hpos := List.length_pos_of_ne_nil some
      have hone : (Option.some m).toList.flatMap Listed.indexs = m.indexs := by simp
      rw [hone, List.length_append]
      omega
    | stops table stopped => exact absurd (stopped.symm.trans hs') Bool.false_ne_true
  · rw [hend]
    intro hstop _
    cases served with
    | sends ty table goesOn => exact h.stopped hstop (goesOn.trans hflag)
    | stops table stopped none rest => exact (List.append_eq_nil_iff.mp (h.rest.trans rest)).2

theorem Quiet.reported (h : Quiet past interval s es) : Reported past interval s es := by
  induction es generalizing s with
  | nil =>
    exact ⟨rfl, fun _ hm => absurd hm List.not_mem_nil, fun hflag => ⟨hflag, le_rfl⟩,
      fun hstop hflag => absurd (hstop.symm.trans hflag) Bool.false_ne_true, fun _ => rfl⟩
  | cons e es ih =>
    have hrest := ih h.2
    cases passOf_passed h.1 with
    | idle notNow same none => exact hrest.of_idle notNow same h.1 none
    | serves now served => exact hrest.of_served now served

theorem mem_toList (i : ℕ) : i ∈ s.toList ↔ i < aliTimingInfoNum ∧
    BitArray.test s.timingInfoReportMask i = true ∧ (s.timingInfos i).active = true := by
  unfold AliNode.toList
  rw [List.mem_append, mem_pending, mem_pending]
  constructor
  · rintro (⟨hlt, hbit, hactive, -⟩ | ⟨hlt, hbit, hactive, -⟩)
    · exact ⟨hlt, hbit, hactive⟩
    · exact ⟨hlt, hbit, hactive⟩
  · rintro ⟨hlt, hbit, hactive⟩
    cases htype : (s.timingInfos i).type with
    | single => exact .inl ⟨hlt, hbit, hactive, rfl⟩
    | cycle => exact .inr ⟨hlt, hbit, hactive, rfl⟩

theorem nodup_toList (s : AliNode) : s.toList.Nodup := by
  refine List.nodup_append.mpr ⟨nodup_pending, nodup_pending, fun i hi j hj hij => ?_⟩
  subst hij
  have hsingle := ((mem_pending i).mp hi).2.2.2
  have hcycle := ((mem_pending i).mp hj).2.2.2
  cases hsingle.symm.trans hcycle

theorem length_toList_le (s : AliNode) : s.toList.length ≤ aliTimingInfoNum := by
  have hsub : s.toList ⊆ List.range aliTimingInfoNum := fun i hi =>
    List.mem_range.mpr ((mem_toList i).mp hi).1
  have hle := (List.subperm_of_subset (nodup_toList s) hsub).length_le
  rwa [List.length_range] at hle

/-- After more passes than there are timings the report has stopped. -/
theorem Reported.stops (h : Reported past interval s es)
    (hmany : aliTimingInfoNum < timesServed past interval s es) :
    (es.foldl (passOf past interval) s).allTimingInfoReportFlag = false := by
  by_contra hflag
  have hcount := (h.goesOn (Bool.not_eq_false _ ▸ hflag)).2
  have hlen := congrArg List.length h.rest
  have hle := length_toList_le s
  rw [List.length_append] at hlen
  omega

/-! ### A run that serves the report -/

/-- A pass in which no second has gone by, with a report due. -/
def AliNode.duePass (s : AliNode) : ReportCall :=
  { provisionSuccess := true
    clockTime := s.aliMeshTimeTick
    clockTimeMs := s.allTimingInfoReportTiming + 301 }

theorem serves_duePass (s : AliNode) : serves s s.duePass = s.allTimingInfoReportFlag := by
  have hdiff : s.allTimingInfoReportTiming + 301 - s.allTimingInfoReportTiming = 301 := by
    rw [BitVec.add_comm, BitVec.add_sub_cancel]
  unfold serves AliNode.reportDue AliNode.duePass
  rw [hdiff]
  exact Bool.and_true _

theorem passOf_table (h : e.provisionSuccess = true) :
    (passOf past interval s e).timingInfos = (s.timed past interval e).timingInfos := by
  unfold passOf
  rw [procAll_eq h]
  split_ifs
  · exact (reportServe_served past (s.timed past interval e) e.clockTime).table
  · rfl

theorem timed_table_duePass (s : AliNode) :
    (s.timed past interval s.duePass).timingInfos = s.timingInfos := by
  have hnone : secondsOf interval s.toAliTime s.duePass.toProcCall = 0 := by
    unfold secondsOf AliNode.duePass
    rw [if_pos rfl, BitVec.sub_self, BitVec.zero_udiv]
    rfl
  have htable : (userAliTimeProc past interval s.toAliTime s.duePass.toProcCall).timingInfos =
      s.timingInfos := by
    unfold userAliTimeProc
    rw [hnone]
    rfl
  rw [← htable]
  unfold AliNode.timed AliNode.timeSaveToFlashProcess
  split_ifs
  · rfl
  · rfl
  · rfl

/-- Passes that are all due. -/
def duePasses (past : Past) (interval : BitVec 32) : ℕ → AliNode → List ReportCall
  | 0, _ => []
  | n + 1, s => s.duePass :: duePasses past interval n (passOf past interval s s.duePass)

variable (past interval) in
theorem quiet_duePasses (n : ℕ) (s : AliNode) :
    Quiet past interval s (duePasses past interval n s) := by
  induction n generalizing s with
  | zero => exact trivial
  | succ n ih => exact ⟨(passOf_table rfl).trans (timed_table_duePass s), ih _⟩

theorem timesServed_duePasses (n : ℕ) (s : AliNode)
    (h : ((duePasses past interval n s).foldl (passOf past interval) s).allTimingInfoReportFlag =
      true) : timesServed past interval s (duePasses past interval n s) = n := by
  induction n generalizing s with
  | zero => rfl
  | succ n ih =>
    have hflag := ((quiet_duePasses past interval (n + 1) s).reported.goesOn h).1
    have hrest := ih (passOf past interval s s.duePass) h
    rw [duePasses, timesServed, serves_duePass, hflag, hrest]
    exact Nat.add_comm 1 n

variable (past interval) in
/-- Enough of them stop the report. -/
theorem duePasses_stop (s : AliNode) :
    ((duePasses past interval (aliTimingInfoNum + 1) s).foldl
      (passOf past interval) s).allTimingInfoReportFlag = false := by
  by_contra hflag
  have hserved := timesServed_duePasses (aliTimingInfoNum + 1) s (Bool.not_eq_false _ ▸ hflag)
  have hstop := (quiet_duePasses past interval (aliTimingInfoNum + 1)
    s).reported.stops
  rw [hserved] at hstop
  exact hflag (hstop (Nat.lt_succ_self _))

/-! ### Accesses of a run -/

/-- The access is inside the mask if it is one of the mask. -/
def Access.MaskOk : Access → Prop
  | mask b => b < reportMaskLen
  | _ => True

theorem allows_maskOk (parLen : ℕ) : Allows Access.MaskOk parLen :=
  ⟨fun _ _ _ => trivial, fun _ => Iff.rfl⟩

theorem allows_ok (parLen : ℕ) : Allows (Access.Ok parLen) parLen :=
  ⟨fun _ _ h => h, fun _ => Iff.rfl⟩

theorem maskOk_of_ok {parLen : ℕ} (i : Access) (h : i.Ok parLen) : i.MaskOk := by
  cases i with
  | mask b => exact h
  | par | index | info | group | buf => exact trivial

/-- A status does not access the mask. -/
theorem stsWith_maskOk (K : ParaKind) (past : Past) (t : TimingInfos) (indexs : List Byte) :
    (stsWith K past t indexs).Within Access.MaskOk := by
  have hgroup : ∀ i buf j, (stsGroup past t i buf j).Within Access.MaskOk ↔ True := by
    intro i buf j
    unfold stsGroup
    exact iff_of_true ((within_bind _ _).mpr
      ⟨(within_touch _).mpr trivial, (within_look _ _).mpr trivial⟩) trivial
  have hone : ∀ buf index, (stsOne K past t buf index).Within Access.MaskOk ↔ True := by
    intro buf index
    unfold stsOne
    rw [within_bind, within_touch, within_ite, within_bind]
    refine iff_of_true ⟨trivial, ?_⟩ trivial
    split_ifs
    · exact ⟨(within_look _ _).mpr trivial,
        (within_foldlM_iff (hgroup _) _ _).mpr fun _ _ => trivial⟩
    · exact within_pure _
  unfold stsWith
  rw [within_bind, within_foldlM_iff hone]
  exact ⟨(within_look _ _).mpr trivial, fun _ _ => trivial⟩

theorem reportServe_maskOk (past : Past) (s : AliNode) (clockTime : BitVec 32) :
    (reportServe past s clockTime).Within Access.MaskOk := by
  have hloop : ∀ ty mask, (pickLoop s.timingInfos ty mask []
      (List.range aliTimingInfoNum)).Within Access.MaskOk := fun ty mask =>
    ((pickLoop_all s.timingInfos ty mask).within 0).mono maskOk_of_ok
  unfold reportServe
  rw [within_bind, within_ite, within_bind, within_bind, within_ite, within_bind]
  refine ⟨hloop _ _, ?_⟩
  split_ifs
  · exact ⟨stsWith_maskOk _ _ _ _, within_pure _⟩
  · exact ⟨hloop _ _, stsWith_maskOk _ _ _ _, within_pure _⟩
  · exact ⟨hloop _ _, within_pure _⟩

theorem procAll_maskOk (past : Past) (interval : BitVec 32) (s : AliNode) (e : ReportCall) :
    (userAliTimeProcAll past interval s e).Within Access.MaskOk := by
  cases hserves : serves s e with
  | false =>
    obtain ⟨s', heq, -⟩ := procAll_of_not_serves past interval hserves
    rw [heq]
    exact within_pure _
  | true =>
    rw [procAll_of_serves hserves]
    exact reportServe_maskOk past _ _

theorem procAll_within {parLen : ℕ}
    (htable : (passOf past interval s e).timingInfos = s.timingInfos) :
    (userAliTimeProcAll past interval s e).Within (Access.Ok parLen) ↔
      OneGroup s.timingInfos ((sentBy past interval s e).flatMap Listed.indexs) := by
  unfold sentBy
  cases hserves : serves s e with
  | false =>
    obtain ⟨s', heq, -⟩ := procAll_of_not_serves past interval hserves
    rw [heq]
    exact iff_of_true (within_pure _) fun _ hi => absurd hi List.not_mem_nil
  | true =>
    rw [procAll_of_serves hserves, reportServe_within, timed_table hserves htable]
    cases (reportServe past (s.timed past interval e) e.clockTime).val.2 with
    | none =>
      exact iff_of_true (fun m hm => absurd hm.symm (Option.some_ne_none m)) fun _ hi =>
        absurd hi List.not_mem_nil
    | some m =>
      rw [Option.toList_some, List.flatMap_singleton]
      exact ⟨fun h => h m rfl, fun h m' hm => Option.some.inj hm ▸ h⟩

/-- A run stays in bounds when what it lists has one group each. -/
theorem Quiet.within_iff {parLen : ℕ} (h : Quiet past interval s es) :
    GoodRun (passOf past interval)
        (fun s e => (userAliTimeProcAll past interval s e).Within (Access.Ok parLen)) s es ↔
      OneGroup s.timingInfos (listed past interval s es) := by
  induction es generalizing s with
  | nil => exact iff_of_true trivial fun _ hi => absurd hi List.not_mem_nil
  | cons e es ih =>
    rw [listed_cons]
    refine (and_congr (procAll_within h.1) (ih h.2)).trans ?_
    rw [h.1]
    exact List.forall_mem_append.symm

/-! ### What a get is answered with -/

/-- The active timings that a get asks for. -/
def Wanted (t : TimingInfos) (par : ℕ → Byte) (parLen i : ℕ) : Prop :=
  i < aliTimingInfoNum ∧ (t i).active = true ∧ AsksFor par parLen i

/-- The passes of a run list what is wanted, each once and nothing else, and stop; what they
access is `ok`. -/
structure RunReports (ok : Access → Prop) (past : Past) (interval : BitVec 32) (wanted : ℕ → Prop)
    (s : AliNode) (es : List ReportCall) : Prop where
  within : GoodRun (passOf past interval)
    (fun s e => (userAliTimeProcAll past interval s e).Within ok) s es
  lists : ∀ m ∈ statuses past interval s es, ∃ ty, m.Lists past s.timingInfos ty
  once : (listed past interval s es).Nodup
  only : ∀ i ∈ listed past interval s es, wanted i
  all : (es.foldl (passOf past interval) s).allTimingInfoReportFlag = false →
    ∀ i, wanted i → i ∈ listed past interval s es
  stops : aliTimingInfoNum < timesServed past interval s es →
    (es.foldl (passOf past interval) s).allTimingInfoReportFlag = false

/-- A get is answered with what it asks for, in every run that leaves the table. -/
structure GetReports (ok : Access → Prop) (past : Past) (interval : BitVec 32) (s : AliNode)
    (par : ℕ → Byte) (parLen : ℕ) (cbPar : CbPar) : Prop where
  get : (aliMeshTimingGet s par parLen cbPar).Within ok
  run : ∀ es, Quiet past interval (aliMeshTimingGet s par parLen cbPar).val.1 es →
    RunReports ok past interval (Wanted s.timingInfos par parLen)
      (aliMeshTimingGet s par parLen cbPar).val.1 es

/-- The bits that are marked, or were left, are those of the timings asked for. -/
def MarksAsked (s : AliNode) (par : ℕ → Byte) (parLen : ℕ) : Prop :=
  askedFor par parLen ≠ [] ∨ s.allTimingInfoReportFlag = true →
    0xFF ∈ askedFor par parLen ∨ (askedFor par parLen).length ≤ aliTimingInfoNum ∧
      ∀ i < aliTimingInfoNum, (s.timingInfos i).active = true →
        (i ∈ askedFor par parLen ↔ BitArray.test s.timingInfoReportMask i = true ∨
          PlaceMarks (askedFor par parLen).length i)

variable {ok : Access → Prop} {wanted : ℕ → Prop} {par : ℕ → Byte} {parLen : ℕ} {cbPar : CbPar}

/-- A run that ends with the report has listed what there was to list. -/
theorem Reported.listed_eq (h : Reported past interval s es)
    (hflag : s.allTimingInfoReportFlag = true)
    (hstop : (es.foldl (passOf past interval) s).allTimingInfoReportFlag = false) :
    listed past interval s es = s.toList := by
  have hrest := h.rest
  rwa [h.stopped hstop hflag, List.append_nil] at hrest

theorem Reported.wanted_of_listed (h : Reported past interval s es)
    (hlist : s.allTimingInfoReportFlag = true → ∀ i, i ∈ s.toList ↔ wanted i) {i : ℕ}
    (hi : i ∈ listed past interval s es) : wanted i := by
  cases hflag : s.allTimingInfoReportFlag with
  | true => exact (hlist hflag i).mp (h.rest ▸ List.mem_append_left _ hi)
  | false => exact absurd (h.silent hflag ▸ hi) List.not_mem_nil

theorem Quiet.runReports (h : Quiet past interval s es)
    (hwithin : GoodRun (passOf past interval)
      (fun s e => (userAliTimeProcAll past interval s e).Within ok) s es)
    (hlist : s.allTimingInfoReportFlag = true → ∀ i, i ∈ s.toList ↔ wanted i)
    (hnone : s.allTimingInfoReportFlag = false → ∀ i, ¬ wanted i) :
    RunReports ok past interval wanted s es := by
  have hreported := h.reported
  refine ⟨hwithin, hreported.lists, ?_, fun i => hreported.wanted_of_listed hlist,
    fun hstop i hi => ?_, hreported.stops⟩
  · exact List.Nodup.of_append_left (hreported.rest ▸ nodup_toList s)
  · cases hflag : s.allTimingInfoReportFlag with
    | true => exact hreported.listed_eq hflag hstop ▸ (hlist hflag i).mpr hi
    | false => exact absurd hi (hnone hflag i)

/-- The run that serves a report to its end tells what there was to list. -/
theorem mem_toList_iff_wanted (hflag : s.allTimingInfoReportFlag = true)
    (h : RunReports ok past interval wanted s (duePasses past interval (aliTimingInfoNum + 1) s))
    (i : ℕ) : i ∈ s.toList ↔ wanted i := by
  have hstop := duePasses_stop past interval s
  have hquiet := quiet_duePasses past interval (aliTimingInfoNum + 1) s
  have heq := hquiet.reported.listed_eq hflag hstop
  rw [← heq]
  exact ⟨h.only i, h.all hstop i⟩

/-- The condition, on the node behind the get. -/
theorem marksAsked_iff (s : AliNode) (par : ℕ → Byte) (parLen : ℕ) (cbPar : CbPar) :
    MarksAsked s par parLen ↔
      (0xFF ∈ askedFor par parLen ∨ (askedFor par parLen).length ≤ aliTimingInfoNum) ∧
        ((aliMeshTimingGet s par parLen cbPar).val.1.allTimingInfoReportFlag = true →
          ∀ i, i ∈ (aliMeshTimingGet s par parLen cbPar).val.1.toList ↔
            Wanted s.timingInfos par parLen i) := by
  obtain ⟨htable, hflag, hmask⟩ := aliMeshTimingGet_ends s par parLen cbPar
  have hlist : ∀ i, i ∈ (aliMeshTimingGet s par parLen cbPar).val.1.toList ↔
      i < aliTimingInfoNum ∧ (s.timingInfos i).active = true ∧
        (0xFF ∈ askedFor par parLen ∨ BitArray.test s.timingInfoReportMask i = true ∨
          PlaceMarks (askedFor par parLen).length i) := by
    intro i
    rw [mem_toList, htable]
    constructor
    · rintro ⟨hlt, hbit, hactive⟩
      exact ⟨hlt, hactive, (hmask i hlt).mp hbit⟩
    · rintro ⟨hlt, hactive, hbit⟩
      exact ⟨hlt, (hmask i hlt).mpr hbit, hactive⟩
  unfold MarksAsked Wanted AsksFor
  rw [hflag]
  by_cases hall : 0xFF ∈ askedFor par parLen
  · refine iff_of_true (fun _ => .inl hall) ⟨.inl hall, fun _ i => (hlist i).trans ?_⟩
    exact and_congr_right fun _ => and_congr_right fun _ => iff_of_true (.inl hall) (.inl hall)
  · constructor
    · intro h
      constructor
      · by_cases hnil : askedFor par parLen = []
        · rw [hnil]
          exact .inr (Nat.zero_le _)
        · exact .inr ((h (.inl hnil)).resolve_left hall).1
      · intro hon i
        refine (hlist i).trans (and_congr_right fun hlt => and_congr_right fun hactive => ?_)
        refine (or_iff_right hall).trans (Iff.trans ?_ (or_iff_right hall).symm)
        exact (((h hon).resolve_left hall).2 i hlt hactive).symm
    · rintro ⟨hlen, hwanted⟩ hon
      refine .inr ⟨hlen.resolve_left hall, fun i hlt hactive => ?_⟩
      have hi := (hlist i).symm.trans (hwanted hon i)
      constructor
      · intro hmem
        exact (hi.mpr ⟨hlt, hactive, .inr hmem⟩).2.2.resolve_left hall
      · intro hbit
        exact (hi.mp ⟨hlt, hactive, .inr hbit⟩).2.2.resolve_left hall

theorem not_wanted_of_flag
    (h : (aliMeshTimingGet s par parLen cbPar).val.1.allTimingInfoReportFlag = false) (i : ℕ) :
    ¬ Wanted s.timingInfos par parLen i := by
  have hflag := (aliMeshTimingGet_ends s par parLen cbPar).flag
  have hnil : askedFor par parLen = [] := by
    by_contra hne
    exact absurd (h.symm.trans (hflag.mpr (.inl hne))) Bool.false_ne_true
  rintro ⟨-, -, hasks⟩
  unfold AsksFor at hasks
  rw [hnil] at hasks
  exact hasks.elim List.not_mem_nil List.not_mem_nil

theorem getReports_iff (allowed : TimingInfos → ℕ → Prop) (hok : Allows ok parLen)
    (hruns : ∀ s es, Quiet past interval s es →
      (GoodRun (passOf past interval)
        (fun s e => (userAliTimeProcAll past interval s e).Within ok) s es ↔
          ∀ i ∈ listed past interval s es, allowed s.timingInfos i)) :
    GetReports ok past interval s par parLen cbPar ↔
      MarksAsked s par parLen ∧
        ∀ i, Wanted s.timingInfos par parLen i → allowed s.timingInfos i := by
  have htable := (aliMeshTimingGet_ends s par parLen cbPar).table
  constructor
  · rintro ⟨hget, hrun⟩
    -- the run of due passes tells all
    have hdrained := hrun _ (quiet_duePasses _ _ (aliTimingInfoNum + 1) _)
    refine ⟨(marksAsked_iff s par parLen cbPar).mpr
      ⟨(aliMeshTimingGet_within hok s par cbPar).mp hget,
        fun hflag => mem_toList_iff_wanted hflag hdrained⟩, fun i hi => ?_⟩
    have hlisted := hdrained.all (duePasses_stop _ _ _) i hi
    have hallowed := (hruns _ _ (quiet_duePasses _ _ _ _)).mp hdrained.within i hlisted
    rwa [htable] at hallowed
  · rintro ⟨hmarks, hallowed⟩
    obtain ⟨hget, hlist⟩ := (marksAsked_iff s par parLen cbPar).mp hmarks
    refine ⟨(aliMeshTimingGet_within hok s par cbPar).mpr hget, fun es hquiet => ?_⟩
    refine hquiet.runReports ((hruns _ es hquiet).mpr fun i hi => ?_) hlist not_wanted_of_flag
    rw [htable]
    exact hallowed i (hquiet.reported.wanted_of_listed hlist hi)

theorem getReports_maskOk : GetReports Access.MaskOk past interval s par parLen cbPar ↔
    MarksAsked s par parLen := by
  refine (getReports_iff (fun _ _ => True) (allows_maskOk parLen) fun s es _ => ?_).trans
    (and_iff_left fun _ _ => trivial)
  exact iff_of_true (GoodRun.of_forall (procAll_maskOk past interval) es s) fun _ _ => trivial

theorem getReports_ok : GetReports (Access.Ok parLen) past interval s par parLen cbPar ↔
    MarksAsked s par parLen ∧ ∀ i, Wanted s.timingInfos par parLen i →
      (s.timingInfos i).opGroupNum.toNat ≤ aliTimingOpGroupMax :=
  getReports_iff (fun t i => (t i).opGroupNum.toNat ≤ aliTimingOpGroupMax) (allows_ok parLen)
    fun _ _ hquiet => hquiet.within_iff

end

/-- **Gets and their reports**: exactly which gets are answered with the active timings they ask
for; and which of them with all accesses in bounds. -/
theorem timingGet_reports (past : Past) (interval : BitVec 32) (s : AliNode) (par : ℕ → Byte)
    (parLen : ℕ) (cbPar : CbPar) :
    (GetReports Access.MaskOk past interval s par parLen cbPar ↔ MarksAsked s par parLen) ∧
    (GetReports (Access.Ok parLen) past interval s par parLen cbPar ↔
      MarksAsked s par parLen ∧ ∀ i, Wanted s.timingInfos par parLen i →
        (s.timingInfos i).opGroupNum.toNat ≤ aliTimingOpGroupMax) :=
  ⟨getReports_maskOk, getReports_ok⟩

/-- Timing 5 is asked for, and the get marks nothing. -/
theorem timingGet_reports_refuted :
    ¬ ∀ (past : Past) (interval : BitVec 32) (s : AliNode) (par : ℕ → Byte) (parLen : ℕ)
      (cbPar : CbPar), GetReports Access.MaskOk past interval s par parLen cbPar := by
  intro h
  let node : AliNode := { emptyNode with timingInfos := fun _ => ⟨1, 60, .single, 0, 1, ⟨0, 0⟩⟩ }
  have hmarks := getReports_maskOk.mp
    (h (fun _ _ _ => ⟨0, 0⟩) 1 node (fun _ => 5) 4 ⟨true, 1, 2, 0⟩)
  have hasked : askedFor (fun _ => 5) 4 = [5] := by decide
  unfold MarksAsked at hmarks
  rw [hasked] at hmarks
  have hlist := (hmarks (.inl (List.cons_ne_nil 5 []))).resolve_left (by decide)
  exact absurd ((hlist.2 5 (by decide) (by decide)).mp (List.mem_singleton_self 5)) (by decide)

end PirMesh.Ali
