import PirMesh.Time.AliBounds

/-! # Time — Timings that are set and deleted together

A set or delete message is to take effect as a whole, and to be saved.  The handlers store and
delete entry after entry and leave at the first that is refused, so what was accepted before it
stays (`atomic_iff`); and a set that is not acknowledged leaves before it asks for the save. -/

namespace PirMesh.Ali

open Accesses Accesses.Traced Writes
open Nor (Byte)

/-- The operation was refused. -/
def Reply.Rejected : Reply → Prop
  | .ret r => r ≠ 0
  | .errRsp _ _ _ => True
  | .sts _ _ _ => False

/-- All or nothing: a message that is refused leaves the table as it is, any other has its effect
on the table, and a save is asked for.  `New` is that effect. -/
structure Atomic (s : AliNode) (parLen : ℕ) (New : TimingInfos → Prop)
    (done : Handler (AliNode × Reply)) : Prop where
  safe : done.Within (Access.Ok parLen)
  unchanged : done.val.2.Rejected → done.val.1.timingInfos = s.timingInfos
  new : ¬ done.val.2.Rejected → New done.val.1.timingInfos
  saved : ¬ done.val.2.Rejected → done.val.1.saveTimeInfoFlag = true

section

variable {K : ParaKind} {now : BitVec 32} {par : ℕ → Byte} {past : Past} {t : TimingInfos}
  {parLen : ℕ} {ps : List ℕ} {s : AliNode} {cbPar : CbPar}

/-! ### Setting -/

/-- The message is its header and whole records. -/
structure WholeRecords (K : ParaKind) (par : ℕ → Byte) (parLen : ℕ) : Prop where
  header : aliMsgHeaderLen ≤ parLen
  whole : ∀ p ∈ records K par parLen, nextRecord K par p ≤ parLen

/-- Every timing that is named has the value that it is given last. -/
def SetNew (K : ParaKind) (now : BitVec 32) (par : ℕ → Byte) (parLen : ℕ) (t : TimingInfos) :
    Prop :=
  ∀ p, Last (indexAt par) (records K par parLen) p → t (indexAt par p) = valueAt K now par p

/-- A set message that is all or nothing, and saved. -/
structure SetAtomic (K : ParaKind) (s : AliNode) (par : ℕ → Byte) (parLen : ℕ) (setNack : Bool) :
    Prop where
  few : (accepted K s.aliUnixTime par (records K par parLen)).length ≤ indexsLen
  status : setNack = false →
    refusedAt K s.aliUnixTime par (records K par parLen) = none → 0 < s.aliUnixTime →
      StatusFits K par (records K par parLen)
  before : refusedAt K s.aliUnixTime par (records K par parLen) ≠ none →
    ∀ p, Last (indexAt par) (accepted K s.aliUnixTime par (records K par parLen)) p →
      s.timingInfos (indexAt par p) = valueAt K s.aliUnixTime par p
  pending : setNack = true →
    refusedAt K s.aliUnixTime par (records K par parLen) = none → s.saveTimeInfoFlag = true

theorem RecordFits.of_next {p : ℕ} (h : nextRecord K par p ≤ parLen) : RecordFits K parLen p := by
  have hpos := groupsAt_pos K par p
  unfold nextRecord at h
  unfold RecordFits timingOpGroupLen
  unfold timingOpGroupLen at h
  unfold groupsAt at hpos
  omega

theorem loopFits_iff (hK : K.Sound) (hwhole : WholeRecords K par parLen) :
    LoopFits K now par parLen (records K par parLen) indexsLen ↔
      (accepted K now par (records K par parLen)).length ≤ indexsLen := by
  refine ⟨fun h => h.few, fun h => ⟨?_, ?_, h⟩⟩
  · intro p hp
    have hmem : p ∈ records K par parLen := (List.takeWhile_prefix _).subset hp
    exact .of_next (hwhole.whole p hmem)
  · intro p hp
    have hmem : p ∈ records K par parLen := List.mem_of_find?_eq_some hp
    have hfits := RecordFits.of_next (hwhole.whole p hmem)
    have hle := hK.checkLen_le
    unfold RecordFits at hfits
    omega

/-- How a set message ends. -/
structure SetEnds (K : ParaKind) (s : AliNode) (par : ℕ → Byte) (parLen : ℕ) (cbPar : CbPar)
    (done : AliNode × Reply) : Prop where
  table : done.1.timingInfos = stored K s.aliUnixTime par s.timingInfos
    (accepted K s.aliUnixTime par (records K par parLen))
  rejected : done.2.Rejected ↔ refusedAt K s.aliUnixTime par (records K par parLen) ≠ none
  saved : refusedAt K s.aliUnixTime par (records K par parLen) = none →
    (done.1.saveTimeInfoFlag = true ↔ (cbPar.setNack = true → s.saveTimeInfoFlag = true))

theorem setWith_ends (K : ParaKind) (past : Past) (s : AliNode) (par : ℕ → Byte) (parLen : ℕ)
    (cbPar : CbPar) : SetEnds K s par parLen cbPar (setWith K past s par parLen cbPar).val := by
  have hval := @setRecords_val K s.aliUnixTime par (records K par parLen) ⟨s.timingInfos, []⟩
  unfold setWith
  rw [setLoop_eq, val_bind]
  dsimp only
  rw [hval]
  cases hnack : cbPar.setNack with
  | true =>
    rw [if_pos rfl]
    refine ⟨rfl, ?_, fun _ => ?_⟩
    · cases refusedAt K s.aliUnixTime par (records K par parLen) with
      | some p => exact iff_of_true (show (-1 : ℤ) ≠ 0 by decide) (Option.some_ne_none p)
      | none => exact iff_of_false (fun h => h rfl) fun h => h rfl
    · exact ⟨fun h _ => h, fun h => h hnack⟩
  | false =>
    rw [if_neg Bool.false_ne_true]
    cases href : refusedAt K s.aliUnixTime par (records K par parLen) with
    | some p =>
      refine ⟨rfl, iff_of_true trivial (by rw [href]; exact Option.some_ne_none p), fun h => ?_⟩
      exact absurd (href.symm.trans h) (Option.some_ne_none p)
    | none =>
      refine ⟨rfl, iff_of_false not_false fun h => h href, fun _ => ?_⟩
      exact iff_of_true rfl fun h => absurd (hnack.symm.trans h) Bool.false_ne_true

theorem setWith_atomic_iff (hK : K.Sound) (hwhole : WholeRecords K par parLen) :
    Atomic s parLen (SetNew K s.aliUnixTime par parLen) (setWith K past s par parLen cbPar) ↔
      SetAtomic K s par parLen cbPar.setNack := by
  obtain ⟨htable, hrejected, hsaved⟩ := setWith_ends K past s par parLen cbPar
  constructor
  · intro h
    obtain ⟨hloop, hstatus⟩ := (setWith_within hK past s par parLen cbPar).mp h.safe
    refine ⟨hloop.few, hstatus, fun href => ?_, fun hnack href => ?_⟩
    · have hsame := h.unchanged (hrejected.mpr href)
      rw [htable] at hsame
      exact writeAll_eq_self_iff.mp hsame
    · have hflag := h.saved fun hrej => hrejected.mp hrej href
      exact (hsaved href).mp hflag hnack
  · intro h
    refine ⟨?_, fun hrej => ?_, fun hrej => ?_, fun hrej => ?_⟩
    · refine (setWith_within hK past s par parLen cbPar).mpr ⟨?_, h.status⟩
      exact (loopFits_iff hK hwhole).mpr h.few
    · rw [htable]
      exact writeAll_eq_self_iff.mpr (h.before (hrejected.mp hrej))
    · have href := not_not.mp fun hne => hrej (hrejected.mpr hne)
      intro p hp
      rw [htable, (accepted_of_refusedAt_eq_none href).1]
      exact writeAll_of_last hp
    · have href := not_not.mp fun hne => hrej (hrejected.mpr hne)
      exact (hsaved href).mpr fun hnack => h.pending hnack href

/-! ### Deleting -/

/-- The index at place `k` of a delete message. -/
def delIndex (par : ℕ → Byte) (k : ℕ) : ℕ := (par (aliMsgHeaderLen + k)).toNat

def delKnown (par : ℕ → Byte) (k : ℕ) : Bool := delIndex par k < aliTimingInfoNum

/-- The places of the indexes. -/
abbrev delPlaces (parLen : ℕ) : List ℕ := List.range (parLen - aliMsgHeaderLen)

/-- Every timing that is named is deleted. -/
def DelNew (par : ℕ → Byte) (parLen : ℕ) (before t : TimingInfos) : Prop :=
  ∀ k ∈ delPlaces parLen,
    t (delIndex par k) = { before (delIndex par k) with activeTime := 0 }

def delAll (par : ℕ → Byte) (t : TimingInfos) (ks : List ℕ) : TimingInfos :=
  ks.foldl (fun t k => delete t (delIndex par k)) t

theorem delAll_of_ne {ks : List ℕ} {i : ℕ} (h : ∀ k ∈ ks, delIndex par k ≠ i) :
    delAll par t ks i = t i := by
  induction ks generalizing t with
  | nil => rfl
  | cons k ks ih =>
    have hrest := ih (t := delete t (delIndex par k)) fun j hj => h j (List.mem_cons_of_mem k hj)
    exact hrest.trans (delete_ne t (h k List.mem_cons_self).symm)

theorem delAll_of_exists {ks : List ℕ} {i : ℕ} (h : ∃ k ∈ ks, delIndex par k = i) :
    delAll par t ks i = { t i with activeTime := 0 } := by
  induction ks generalizing t with
  | nil =>
    obtain ⟨k, hk, -⟩ := h
    cases hk
  | cons j ks ih =>
    by_cases hrest : ∃ k ∈ ks, delIndex par k = i
    · have htwice : ({ delete t (delIndex par j) i with activeTime := 0 } : TimingInfo) =
          { t i with activeTime := 0 } := by
        by_cases hi : i = delIndex par j
        · rw [hi, delete_self]
        · rw [delete_ne t hi]
      exact (ih hrest).trans htwice
    · obtain ⟨k, hk, rfl⟩ := h
      obtain rfl := (List.mem_cons.mp hk).resolve_right fun hmem => hrest ⟨k, hmem, rfl⟩
      have hlater : ∀ j ∈ ks, delIndex par j ≠ delIndex par k := fun j hj hkey =>
        hrest ⟨j, hj, hkey⟩
      exact (delAll_of_ne hlater).trans (delete_self t _)

theorem delAll_eq_self_iff {ks : List ℕ} :
    delAll par t ks = t ↔ ∀ k ∈ ks, (t (delIndex par k)).activeTime = 0 := by
  constructor
  · intro h k hk
    have hdel : delAll par t ks (delIndex par k) = _ := delAll_of_exists ⟨k, hk, rfl⟩
    rw [h] at hdel
    exact congrArg TimingInfo.activeTime hdel
  · intro h
    funext i
    by_cases hi : ∃ k ∈ ks, delIndex par k = i
    · rw [delAll_of_exists hi]
      obtain ⟨k, hk, rfl⟩ := hi
      rw [← h k hk]
    · exact delAll_of_ne fun k hk hkey => hi ⟨k, hk, hkey⟩

/-- How a delete message ends, after its indexes `ks`. -/
structure DelEnds (s : AliNode) (par : ℕ → Byte) (ks : List ℕ) (done : AliNode × Reply) : Prop where
  table : done.1.timingInfos = delAll par s.timingInfos (ks.takeWhile (delKnown par))
  rejected : done.2.Rejected ↔ ∃ k ∈ ks, delKnown par k = false
  saved : (∀ k ∈ ks, delKnown par k = true) → s.saveTimeInfoFlag = true ∨ ks ≠ [] →
    done.1.saveTimeInfoFlag = true

theorem delLoop_cons (s : AliNode) (k : ℕ) (ks : List ℕ) :
    (delLoop par cbPar s (k :: ks)).val =
      if delKnown par k = false then
        (s, if cbPar.setNack then .ret (-1)
          else .errRsp (Reassembly.read par 1 2) errCodeTimingIndexNotFound
            (par (aliMsgHeaderLen + k)))
      else
        (delLoop par cbPar ({ s with
          timingInfos := delete s.timingInfos (delIndex par k) }.timeSave cbPar.clockTime)
          ks).val := by
  have hbyte : (Reassembly.read par (aliMsgHeaderLen + k) 1).headD 0 =
      par (aliMsgHeaderLen + k) := headD_read Nat.one_pos par _
  rw [delLoop, val_bind, val_readPar]
  dsimp only
  rw [hbyte]
  cases hk : delKnown par k with
  | false =>
    have h : aliTimingInfoNum ≤ (par (aliMsgHeaderLen + k)).toNat :=
      Nat.le_of_not_lt (of_decide_eq_false hk)
    rw [if_pos h, if_pos rfl]
    cases cbPar.setNack <;> rfl
  | true =>
    have h : ¬ aliTimingInfoNum ≤ (par (aliMsgHeaderLen + k)).toNat :=
      Nat.not_le_of_lt (of_decide_eq_true hk)
    rw [if_neg h, if_neg (by decide)]
    rfl

theorem delLoop_ends (ks : List ℕ) (s : AliNode) :
    DelEnds s par ks (delLoop par cbPar s ks).val := by
  induction ks generalizing s with
  | nil =>
    refine ⟨rfl, iff_of_false (fun h => h rfl) ?_, ?_⟩
    · rintro ⟨k, hk, -⟩
      cases hk
    · rintro - (h | h)
      · exact h
      · exact absurd rfl h
  | cons k ks ih =>
    rw [delLoop_cons]
    cases hk : delKnown par k with
    | false =>
      rw [if_pos rfl]
      refine ⟨?_, ?_, fun hall => ?_⟩
      · rw [List.takeWhile_cons, hk]
        rfl
      · refine iff_of_true ?_ ⟨k, List.mem_cons_self, hk⟩
        cases cbPar.setNack with
        | false => exact trivial
        | true => exact show (-1 : ℤ) ≠ 0 by decide
      · exact absurd (hk.symm.trans (hall k List.mem_cons_self)) Bool.false_ne_true
    | true =>
      rw [if_neg (by decide)]
      obtain ⟨htable, hrejected, hsaved⟩ := ih ({ s with
        timingInfos := delete s.timingInfos (delIndex par k) }.timeSave cbPar.clockTime)
      refine ⟨?_, hrejected.trans ?_, fun hall _ => ?_⟩
      · rw [htable, List.takeWhile_cons, hk]
        rfl
      · constructor
        · rintro ⟨j, hj, hfalse⟩
          exact ⟨j, List.mem_cons_of_mem k hj, hfalse⟩
        · rintro ⟨j, hj, hfalse⟩
          rcases List.mem_cons.mp hj with rfl | hj
          · exact absurd (hk.symm.trans hfalse) (by decide)
          · exact ⟨j, hj, hfalse⟩
      · exact hsaved (fun j hj => hall j (List.mem_cons_of_mem k hj)) (.inl rfl)

theorem delLoop_within (hheader : aliMsgHeaderLen ≤ parLen) (ks : List ℕ)
    (hks : ∀ k ∈ ks, aliMsgHeaderLen + k < parLen) (s : AliNode) :
    (delLoop par cbPar s ks).Within (Access.Ok parLen) := by
  induction ks generalizing s with
  | nil => exact within_pure _
  | cons k ks ih =>
    have hread : aliMsgHeaderLen + k + 1 ≤ parLen := hks k List.mem_cons_self
    have hrest := fun s => ih (fun j hj => hks j (List.mem_cons_of_mem k hj)) s
    rw [delLoop, within_bind, within_readPar]
    refine ⟨hread, ?_⟩
    dsimp only
    split_ifs with hidx hnack
    · exact within_pure _
    · exact (within_bind _ _).mpr ⟨within_readPar.mpr hheader, within_pure _⟩
    · exact (within_bind _ _).mpr ⟨(within_touch _).mpr (Nat.lt_of_not_le hidx), hrest _⟩

/-- Nothing was active that is named before the first unknown index. -/
def DelAtomic (s : AliNode) (par : ℕ → Byte) (parLen : ℕ) : Prop :=
  (∃ k ∈ delPlaces parLen, delKnown par k = false) →
    ∀ k ∈ (delPlaces parLen).takeWhile (delKnown par),
      (s.timingInfos (delIndex par k)).activeTime = 0

theorem aliMeshTimingDel_atomic_iff (s : AliNode) (par : ℕ → Byte) (parLen : ℕ) (cbPar : CbPar) :
    Atomic s parLen (DelNew par parLen s.timingInfos) (aliMeshTimingDel s par parLen cbPar) ↔
      DelAtomic s par parLen := by
  unfold aliMeshTimingDel
  by_cases hshort : parLen ≤ aliMsgHeaderLen
  · have hnone : delPlaces parLen = [] := by
      unfold delPlaces
      rw [Nat.sub_eq_zero_of_le hshort]
      rfl
    have hrej : (pure (s, Reply.ret (-1)) : Handler (AliNode × Reply)).val.2.Rejected :=
      show (-1 : ℤ) ≠ 0 by decide
    rw [if_pos hshort]
    refine iff_of_true ⟨within_pure _, fun _ => rfl, absurd hrej, absurd hrej⟩ ?_
    rintro ⟨k, hk, -⟩
    rw [hnone] at hk
    cases hk
  · rw [if_neg hshort]
    obtain ⟨htable, hrejected, hsaved⟩ := @delLoop_ends par cbPar (delPlaces parLen) s
    have hwithin : (delLoop par cbPar s (delPlaces parLen)).Within (Access.Ok parLen) := by
      refine delLoop_within (Nat.le_of_not_le hshort) _ (fun k hk => ?_) s
      have hlt := List.mem_range.mp hk
      omega
    constructor
    · intro h hbad
      have hsame := h.unchanged (hrejected.mpr hbad)
      rw [htable] at hsame
      exact delAll_eq_self_iff.mp hsame
    · intro h
      have hall : ¬ (delLoop par cbPar s (delPlaces parLen)).val.2.Rejected →
          ∀ k ∈ delPlaces parLen, delKnown par k = true := by
        intro hrej k hk
        exact (Bool.not_eq_false _).mp fun hfalse => hrej (hrejected.mpr ⟨k, hk, hfalse⟩)
      refine ⟨hwithin, fun hrej => ?_, fun hrej => ?_, fun hrej => ?_⟩
      · rw [htable]
        exact delAll_eq_self_iff.mpr (h (hrejected.mp hrej))
      · intro k hk
        rw [htable, List.takeWhile_eq_self_iff.mpr (hall hrej)]
        exact delAll_of_exists ⟨k, hk, rfl⟩
      · refine hsaved (hall hrej) (.inr ?_)
        have hlt : 0 < parLen - aliMsgHeaderLen := Nat.sub_pos_of_lt (Nat.lt_of_not_le hshort)
        exact List.ne_nil_of_mem (List.mem_range.mpr hlt)

end

/-! ### The three messages -/

inductive TimingOp
  | timing
  | cycle
  | del

namespace TimingOp

def handle (past : Past) : TimingOp → AliNode → (ℕ → Byte) → ℕ → CbPar →
    Handler (AliNode × Reply)
  | timing => aliMeshTimingSet past
  | cycle => aliMeshCycleTimingSet past
  | del => aliMeshTimingDel

/-- A set is a header and whole records, a delete a header and indexes. -/
def WellFormed (par : ℕ → Byte) (parLen : ℕ) : TimingOp → Prop
  | timing => WholeRecords timingSetPara par parLen
  | cycle => WholeRecords cycleTimingSetPara par parLen
  | del => aliMsgHeaderLen < parLen

/-- What is to be of the timings that are named. -/
def New (s : AliNode) (par : ℕ → Byte) (parLen : ℕ) : TimingOp → TimingInfos → Prop
  | timing => SetNew timingSetPara s.aliUnixTime par parLen
  | cycle => SetNew cycleTimingSetPara s.aliUnixTime par parLen
  | del => DelNew par parLen s.timingInfos

/-- The messages whose handling is all or nothing, and saved. -/
def AllOrNothing (s : AliNode) (par : ℕ → Byte) (parLen : ℕ) (setNack : Bool) : TimingOp → Prop
  | timing => SetAtomic timingSetPara s par parLen setNack
  | cycle => SetAtomic cycleTimingSetPara s par parLen setNack
  | del => DelAtomic s par parLen

end TimingOp

end PirMesh.Ali
