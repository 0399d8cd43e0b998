import PirMesh.Library.Run
import PirMesh.Time.AliTiming

/-! # Time — What a minute of the vendor time model executes

In a local minute the due timings that no later due timing overrules are to be
executed, each once.  `minuteOk_of_sound` proves this of a pass in which only the
first due timing clashes, with one that is at least as young; `timed_actions`
carries it over the runs of `user_ali_time_proc`.

Everywhere else the removal goes wrong: an entry that loses to an earlier one is
an index of the table once more, and of two entries past the first the loop
removes the first entry of the array. -/

namespace PirMesh.Ali

open Run

/-! ### What a minute should do -/

/-- The timing is due in the local minute `minute`. -/
def due (zone : BitVec 32) (minute : Nat) (info : TimingInfo) : Bool :=
  info.active && match info.type with
    | .single => (info.time + zone).toNat / 60 = minute
    | .cycle => (info.time &&& 0x0FFF).toNat = minute % 1440 ∧
        info.schedule.getLsbD ((minute / 1440 + 3) % 7)

section

variable (past : Past) (t : TimingInfos)

/-- Two timings have an operation on the same attribute type. -/
def Conflicts (a b : Nat) : Prop :=
  ∃ x < (t a).opGroupNum.toNat, ∃ y < (t b).opGroupNum.toNat,
    (opGroupAt past t a x).attrType = (opGroupAt past t b y).attrType

/-- `win` decides each tie toward one of the two. -/
def TieBreak (win : Nat → Nat → Prop) : Prop := ∀ a b, a ≠ b → (win a b ↔ ¬ win b a)

/-- The timing is due, and no later one it conflicts with is. -/
def Unbeaten (isDue : Nat → Prop) (win : Nat → Nat → Prop) (a : Nat) : Prop :=
  isDue a ∧ ∀ b, isDue b → b ≠ a → Conflicts past t a b →
    ¬ (t a).activeTime < (t b).activeTime ∧
      ¬ ((t a).activeTime = (t b).activeTime ∧ win b a)

/-- A timing of the table that is due. -/
def DueAt (zone : BitVec 32) (minute a : Nat) : Prop :=
  a < aliTimingInfoNum ∧ due zone minute (t a) = true

/-- A pass over the table `t` that did what it should. -/
structure MinuteOk (zone : BitVec 32) (minute : Nat) (done : Executed) : Prop where
  executed : ∃ (l : List Nat) (win : Nat → Nat → Prop), l.Nodup ∧ TieBreak win ∧
    (∀ a, a ∈ l ↔ Unbeaten past t (DueAt t zone minute) win a) ∧
    done.sent = l.flatMap (actions past t) ∧
    ∀ a ∈ l, (t a).type = .single → (done.timingInfos a).activeTime = 0
  used : ∀ i ∈ done.used, i < aliTimingInfoNum

/-- If the two conflict then the first is the first of the due timings, and not the younger. -/
def ClashSound (zone : BitVec 32) (minute a b : Nat) : Prop :=
  Conflicts past t a b →
    (∀ c < aliTimingInfoNum, due zone minute (t c) = true → a ≤ c) ∧
      (t a).activeTime ≤ (t b).activeTime

/-- The loops get a minute right: a due timing has the one group it has room for, and a clash
is between the first due timing and one that is at least as young. -/
structure MinuteSound (zone : BitVec 32) (minute : Nat) : Prop where
  groups : ∀ a < aliTimingInfoNum, due zone minute (t a) = true →
    (t a).opGroupNum.toNat ≤ aliTimingOpGroupMax
  clashes : ∀ a < aliTimingInfoNum, due zone minute (t a) = true →
    ∀ b < aliTimingInfoNum, due zone minute (t b) = true → a < b →
      ClashSound past t zone minute a b

end

/-! ### Collecting -/

variable {zone now : BitVec 32} {past : Past} {t : TimingInfos}

theorem minutesOfDay_eq (n : Nat) : unixTime2minutesOfDay n = n / 60 % 1440 := by
  rw [unixTime2minutesOfDay]
  omega

theorem week_eq (n : Nat) : getWeekFromUnixTime n = (n / 60 / 1440 + 3) % 7 := by
  rw [getWeekFromUnixTime, Nat.div_div_eq_div_mul]

/-- A turn of the loop takes a due timing, and at most deletes one that is not. -/
theorem collectOne_cases (zone now : BitVec 32) (up : List Nat) (t : TimingInfos) (i : Nat) :
    (due zone (now.toNat / 60) (t i) = true ∧ collectOne zone now (up, t) i = (up ++ [i], t)) ∨
      due zone (now.toNat / 60) (t i) = false ∧
        ∃ t', collectOne zone now (up, t) i = (up, t') ∧ ∀ k, k ≠ i → t' k = t k := by
  simp only [collectOne, due, minutesOfDay_eq, week_eq]
  by_cases hactive : (t i).active = true
  · rw [if_pos hactive, hactive, Bool.true_and]
    cases (t i).type with
    | single =>
      by_cases htime : ((t i).time + zone).toNat / 60 = now.toNat / 60
      · exact .inl ⟨decide_eq_true htime, if_pos htime.symm⟩
      · refine .inr ⟨decide_eq_false htime, ?_⟩
        dsimp only
        rw [if_neg (Ne.symm htime)]
        split
        · exact ⟨_, rfl, fun k hk => delete_ne t hk⟩
        · exact ⟨_, rfl, fun k _ => rfl⟩
    | cycle =>
      by_cases htime : ((t i).time &&& 0x0FFF).toNat = now.toNat / 60 % 1440 ∧
          (t i).schedule.getLsbD ((now.toNat / 60 / 1440 + 3) % 7)
      · exact .inl ⟨decide_eq_true htime, if_pos htime⟩
      · exact .inr ⟨decide_eq_false htime, t, if_neg htime, fun k _ => rfl⟩
  · rw [if_neg hactive, Bool.eq_false_of_not_eq_true hactive, Bool.false_and]
    exact .inr ⟨rfl, t, rfl, fun k _ => rfl⟩

theorem foldl_collectOne (zone now : BitVec 32) {l : List Nat} (hl : l.Nodup) (up : List Nat)
    (t : TimingInfos) :
    (l.foldl (collectOne zone now) (up, t)).1 =
        up ++ l.filter (fun i => due zone (now.toNat / 60) (t i)) ∧
      ∀ k, due zone (now.toNat / 60) (t k) = true →
        (l.foldl (collectOne zone now) (up, t)).2 k = t k := by
  induction l generalizing up t with
  | nil => exact ⟨(List.append_nil up).symm, fun k _ => rfl⟩
  | cons i l ih =>
    obtain ⟨hi, hl⟩ := List.nodup_cons.mp hl
    rw [List.foldl_cons]
    obtain ⟨hdue, hone⟩ | ⟨hdue, t', hone, hframe⟩ := collectOne_cases zone now up t i
    · obtain ⟨hup, ht⟩ := ih hl (up ++ [i]) t
      rw [hone, List.filter_cons_of_pos (by simpa using hdue), hup, List.append_assoc]
      exact ⟨rfl, ht⟩
    · obtain ⟨hup, ht⟩ := ih hl up t'
      have hsame : ∀ k ∈ l, t' k = t k := fun k hk => hframe k fun heq => hi (heq ▸ hk)
      rw [hone, List.filter_cons_of_neg (by simpa using hdue), hup]
      refine ⟨congrArg (up ++ ·) (List.filter_congr fun k hk => ?_), fun k hk => ?_⟩
      · rw [hsame k hk]
      · have hne : k ≠ i := by
          rintro rfl
          rw [hdue] at hk
          cases hk
        rw [ht k (by rwa [hframe k hne]), hframe k hne]

/-- The due timings of the table, in its order. -/
def dueList (zone : BitVec 32) (minute : Nat) (t : TimingInfos) : List Nat :=
  (List.range aliTimingInfoNum).filter fun i => due zone minute (t i)

theorem collect_fst (zone now : BitVec 32) (t : TimingInfos) :
    (collect zone now t).1 = dueList zone (now.toNat / 60) t := by
  rw [collect, (foldl_collectOne zone now List.nodup_range [] t).1, List.nil_append, dueList]

theorem collect_snd {a : Nat} (h : due zone (now.toNat / 60) (t a) = true) :
    (collect zone now t).2 a = t a := by
  rw [collect]
  exact (foldl_collectOne zone now List.nodup_range [] t).2 a h

theorem mem_dueList {minute a : Nat} : a ∈ dueList zone minute t ↔ DueAt t zone minute a := by
  rw [dueList, List.mem_filter, List.mem_range, DueAt]

theorem dueList_nodup (zone : BitVec 32) (minute : Nat) (t : TimingInfos) :
    (dueList zone minute t).Nodup :=
  List.nodup_range.filter _

theorem dueList_sorted (zone : BitVec 32) (minute : Nat) (t : TimingInfos) :
    (dueList zone minute t).Pairwise (· < ·) :=
  List.pairwise_lt_range.filter _

/-! ### Clashes -/

open Classical in
/-- The array with the first entry marked if there was a clash, and the indexes used. -/
def Left (d : List Nat) (st : TimeUp) (clashed : Prop) : Prop :=
  st.timing = (if clashed then d.set 0 noTiming else d) ∧ ∀ i ∈ st.used, i < aliTimingInfoNum

theorem Left.at_succ {d : List Nat} {st : TimeUp} {C : Prop} (h : Left d st C) {k : Nat}
    (hk : k ≠ 0) : st.at k = d.getD k noTiming := by
  rw [TimeUp.at, h.1]
  split
  · rw [List.getD_eq_getElem?_getD, List.getElem?_set_ne (Ne.symm hk),
      ← List.getD_eq_getElem?_getD]
  · rfl

theorem Left.use {d : List Nat} {st : TimeUp} {C : Prop} (h : Left d st C) {i : Nat}
    (hi : i < aliTimingInfoNum) : Left d (st.use i) C :=
  ⟨h.1, by simpa [TimeUp.use, or_imp, forall_and] using ⟨h.2, hi⟩⟩

/-- Marking the first entry. -/
theorem Left.mark {d : List Nat} {st : TimeUp} {C : Prop} (h : Left d st C) :
    Left d (st.mark 0) True := by
  refine ⟨?_, h.2⟩
  rw [TimeUp.mark, h.1, if_pos trivial]
  split
  · exact List.set_set _
  · rfl

theorem Left.congr {d : List Nat} {st : TimeUp} {C C' : Prop} (h : Left d st C) (hC : C ↔ C') :
    Left d st C' :=
  propext hC ▸ h

/-- Place `p` of the array as it was collected. -/
def place (d : List Nat) (p : Nat) : Nat := d.getD p noTiming

/-- What the loops need of the collected entries. -/
structure Fine (past : Past) (t : TimingInfos) (d : List Nat) : Prop where
  lt : ∀ p < d.length, place d p < aliTimingInfoNum
  groups : ∀ p < d.length, (t (place d p)).opGroupNum.toNat ≤ aliTimingOpGroupMax
  clashes : ∀ p q, p < q → q < d.length → Conflicts past t (place d p) (place d q) →
    p = 0 ∧ (t (place d p)).activeTime ≤ (t (place d q)).activeTime

/-- The entry at place `p` conflicts with a later one. -/
def ClashesFrom (past : Past) (t : TimingInfos) (d : List Nat) (p : Nat) : Prop :=
  ∃ q ∈ List.range' (p + 1) (d.length - (p + 1)), Conflicts past t (place d p) (place d q)

/-- Two of the entries conflict. -/
def Clashing (past : Past) (t : TimingInfos) (d : List Nat) : Prop :=
  ∃ p q, p < q ∧ q < d.length ∧ Conflicts past t (place d p) (place d q)

theorem clashing_iff : Clashing past t d ↔
    ∃ p < d.length, ClashesFrom past t d p := by
  constructor
  · rintro ⟨p, q, hpq, hq, hconf⟩
    exact ⟨p, hpq.trans hq, q, List.mem_range'_1.mpr (by omega), hconf⟩
  · rintro ⟨p, hp, q, hq, hconf⟩
    have hbounds := List.mem_range'_1.mp hq
    exact ⟨p, q, by omega, by omega, hconf⟩

section

variable {d : List Nat} (h : Fine past t d)

include h

theorem clashGroup_left {p q x y : Nat} (hpq : p < q) (hq : q < d.length)
    (hx : x < (t (place d p)).opGroupNum.toNat) (hy : y < (t (place d q)).opGroupNum.toNat)
    {st : TimeUp} {C : Prop} (hst : Left d st C) :
    Left d (clashGroup past t (place d p) (place d q) q x st y)
      (C ∨ (opGroupAt past t (place d p) x).attrType =
        (opGroupAt past t (place d q) y).attrType) := by
  rw [clashGroup]
  by_cases heq : (opGroupAt past t (place d p) x).attrType =
      (opGroupAt past t (place d q) y).attrType
  · obtain ⟨hfirst, hle⟩ := h.clashes p q hpq hq ⟨x, hx, y, hy, heq⟩
    have hgroups := h.groups p (hpq.trans hq)
    have hzero : x = 0 := by
      rw [aliTimingOpGroupMax] at hgroups
      omega
    rw [if_pos heq, if_neg (BitVec.not_lt.mpr hle), hzero]
    exact hst.mark.congr ⟨fun _ => .inr (hzero ▸ heq), fun _ => trivial⟩
  · rw [if_neg heq]
    exact hst.congr ⟨.inl, fun hor => hor.resolve_right heq⟩

theorem clashWith_left {p q : Nat} (hpq : p < q) (hq : q < d.length) {st : TimeUp} {C : Prop}
    (hst : Left d st C) :
    Left d (clashWith past t (place d p) st q)
      (C ∨ Conflicts past t (place d p) (place d q)) := by
  have hat : st.at q = place d q := hst.at_succ (Nat.ne_zero_of_lt hpq)
  rw [clashWith, hat]
  have hloop := foldl_found (P := Left d) (f := clashGroups past t (place d p) (place d q) q)
    (q := fun x => ∃ y ∈ List.range (t (place d q)).opGroupNum.toNat,
      (opGroupAt past t (place d p) x).attrType = (opGroupAt past t (place d q) y).attrType)
    (fun x hx st C hst => foldl_found (fun y hy st C hst => clashGroup_left h hpq hq
      (List.mem_range.mp hx) (List.mem_range.mp hy) hst) hst) (hst.use (h.lt q hq))
  refine hloop.congr (or_congr_right ?_)
  simp only [List.mem_range, Conflicts]

theorem clashFrom_left {p : Nat} (hp : p < d.length) {st : TimeUp} {C : Prop}
    (hst : Left d st C) (hat : st.at p = place d p) :
    Left d (clashFrom past t d.length st p) (C ∨ ClashesFrom past t d p) := by
  rw [clashFrom, hat]
  refine foldl_found (fun q hq st C hst => ?_) (hst.use (h.lt p hp))
  have hbounds := List.mem_range'_1.mp hq
  exact clashWith_left h (by omega) (by omega) hst

/-- The removal marks the first entry when there is a clash, and nothing else. -/
theorem clash_left {used : List Nat} (hused : ∀ i ∈ used, i < aliTimingInfoNum) :
    Left d (clash past t ⟨d, used⟩) (Clashing past t d) := by
  have hstart : Left d ⟨d, used⟩ False := ⟨(if_neg not_false).symm, hused⟩
  rw [clash]
  dsimp only
  by_cases hlen : 1 < d.length
  · have hsplit : List.range d.length = 0 :: List.range' 1 (d.length - 1) := by
      rw [List.range_eq_range', ← Nat.sub_add_cancel (Nat.le_of_lt hlen), List.range'_succ]
      rfl
    have hfirst := clashFrom_left h (Nat.lt_trans Nat.zero_lt_one hlen) hstart rfl
    have hloop := foldl_found (P := Left d) (q := ClashesFrom past t d)
      (fun p hp st C hst => clashFrom_left h (by grind) hst (hst.at_succ (by grind))) hfirst
      (l := List.range' 1 (d.length - 1))
    rw [if_pos hlen, hsplit, List.foldl_cons]
    refine hloop.congr ?_
    rw [false_or, clashing_iff, ← List.exists_mem_cons_iff, ← hsplit]
    simp only [List.mem_range]
  · rw [if_neg hlen]
    refine hstart.congr ⟨False.elim, ?_⟩
    rintro ⟨p, q, hpq, hq, -⟩
    omega

end

/-! ### Executing -/

/-- The actions of a timing are its own where it has one group. -/
theorem actions_congr {t t' : TimingInfos} {i : Nat} (h : t' i = t i)
    (hgroups : (t i).opGroupNum.toNat ≤ aliTimingOpGroupMax) :
    actions past t' i = actions past t i := by
  have hgroup : ∀ j ∈ List.range (t i).opGroupNum.toNat,
      opGroupAt past t' i j = opGroupAt past t i j := by
    intro j hj
    have hlt := (List.mem_range.mp hj).trans_le hgroups
    rw [opGroupAt, opGroupAt, if_pos hlt, if_pos hlt, h]
  rw [actions, actions, h]
  congr 1
  refine List.flatMap_congr fun j hj => ?_
  rw [hgroup j hj]

/-- One entry of the array that stands for a timing. -/
theorem executeOne_of_ne (past : Past) {i : Nat} (h : i ≠ noTiming) (st : Executed) :
    (executeOne past st i).sent = st.sent ++ actions past st.timingInfos i ∧
      (executeOne past st i).used = st.used ++ [i] ∧
      (∀ k, k ≠ i → (executeOne past st i).timingInfos k = st.timingInfos k) ∧
      ((st.timingInfos i).type = .single →
        ((executeOne past st i).timingInfos i).activeTime = 0) := by
  rw [executeOne, if_neg h]
  dsimp only
  by_cases hsingle : (st.timingInfos i).type = .single
  · rw [if_pos hsingle]
    refine ⟨rfl, rfl, fun k hk => delete_ne _ hk, fun _ => ?_⟩
    simp [delete]
  · rw [if_neg hsingle]
    exact ⟨rfl, rfl, fun k _ => rfl, fun hs => absurd hs hsingle⟩

theorem foldl_executeOne (past : Past) {l : List Nat} (hl : l.Nodup) (hne : ∀ i ∈ l, i ≠ noTiming)
    (st : Executed)
    (hgroups : ∀ i ∈ l, (st.timingInfos i).opGroupNum.toNat ≤ aliTimingOpGroupMax) :
    (l.foldl (executeOne past) st).sent = st.sent ++ l.flatMap (actions past st.timingInfos) ∧
      (l.foldl (executeOne past) st).used = st.used ++ l ∧
      (∀ k, k ∉ l → (l.foldl (executeOne past) st).timingInfos k = st.timingInfos k) ∧
      ∀ i ∈ l, (st.timingInfos i).type = .single →
        ((l.foldl (executeOne past) st).timingInfos i).activeTime = 0 := by
  induction l generalizing st with
  | nil =>
    exact ⟨(List.append_nil _).symm, (List.append_nil _).symm, fun _ _ => rfl,
      fun i hi => absurd hi List.not_mem_nil⟩
  | cons i l ih =>
    obtain ⟨hi, hl⟩ := List.nodup_cons.mp hl
    obtain ⟨hsent, hused, hframe, hsingle⟩ :=
      executeOne_of_ne past (hne i List.mem_cons_self) st
    have hkeep : ∀ k ∈ l, (executeOne past st i).timingInfos k = st.timingInfos k :=
      fun k hk => hframe k fun heq => hi (heq ▸ hk)
    have hgroups' : ∀ k ∈ l, (st.timingInfos k).opGroupNum.toNat ≤ aliTimingOpGroupMax :=
      fun k hk => hgroups k (List.mem_cons_of_mem i hk)
    obtain ⟨hsents, huseds, hframes, hsingles⟩ := ih hl
      (fun k hk => hne k (List.mem_cons_of_mem i hk)) (executeOne past st i)
      (fun k hk => by rw [hkeep k hk]; exact hgroups' k hk)
    rw [List.foldl_cons]
    refine ⟨?_, ?_, fun k hk => ?_, fun k hk hk' => ?_⟩
    · have hactions : l.flatMap (actions past (executeOne past st i).timingInfos) =
          l.flatMap (actions past st.timingInfos) :=
        List.flatMap_congr fun k hk => actions_congr (hkeep k hk) (hgroups' k hk)
      rw [hsents, hsent, hactions, List.flatMap_cons, List.append_assoc]
    · rw [huseds, hused, List.append_assoc, List.singleton_append]
    · rw [hframes k fun hmem => hk (List.mem_cons_of_mem i hmem),
        hframe k fun heq => hk (heq ▸ List.mem_cons_self)]
    · cases List.mem_cons.mp hk with
      | inl heq =>
        cases heq
        rw [hframes i hi]
        exact hsingle hk'
      | inr hmem => exact hsingles k hmem (by rwa [hkeep k hmem])

/-! ### A pass -/

theorem opGroupAt_congr {t t' : TimingInfos} {a x : Nat} (h : t' a = t a)
    (hx : x < aliTimingOpGroupMax) : opGroupAt past t' a x = opGroupAt past t a x := by
  rw [opGroupAt, opGroupAt, if_pos hx, if_pos hx, h]

theorem Conflicts.congr {t t' : TimingInfos} {a b : Nat} (h : Conflicts past t a b)
    (ha : t' a = t a) (hb : t' b = t b) (hna : (t a).opGroupNum.toNat ≤ aliTimingOpGroupMax)
    (hnb : (t b).opGroupNum.toNat ≤ aliTimingOpGroupMax) : Conflicts past t' a b := by
  obtain ⟨x, hx, y, hy, heq⟩ := h
  refine ⟨x, by rwa [ha], y, by rwa [hb], ?_⟩
  rwa [opGroupAt_congr ha (hx.trans_le hna), opGroupAt_congr hb (hy.trans_le hnb)]

theorem Conflicts.symm {a b : Nat} (h : Conflicts past t a b) : Conflicts past t b a := by
  obtain ⟨x, hx, y, hy, heq⟩ := h
  exact ⟨y, hy, x, hx, heq.symm⟩

theorem place_eq {d : List Nat} {p : Nat} (hp : p < d.length) : place d p = d[p] := by
  rw [place, List.getD_eq_getElem?_getD, List.getElem?_eq_getElem hp, Option.getD_some]

theorem place_mem {d : List Nat} {p : Nat} (hp : p < d.length) : place d p ∈ d := by
  rw [place_eq hp]
  exact List.getElem_mem hp

theorem exists_place {d : List Nat} {a : Nat} (h : a ∈ d) : ∃ p < d.length, place d p = a := by
  obtain ⟨p, hp, heq⟩ := List.getElem_of_mem h
  exact ⟨p, hp, by rw [place_eq hp, heq]⟩

theorem place_lt {d : List Nat} (h : d.Pairwise (· < ·)) {p q : Nat} (hpq : p < q)
    (hq : q < d.length) : place d p < place d q := by
  rw [place_eq hq, place_eq (hpq.trans hq)]
  exact List.pairwise_iff_getElem.mp h p q _ hq hpq

section

variable {minute : Nat} (h : MinuteSound past t zone minute)

include h

/-- The due timings of a sound minute, in the table the collecting loop leaves. -/
theorem fine_of_sound {t' : TimingInfos}
    (ht : ∀ a, due zone minute (t a) = true → t' a = t a) :
    Fine past t' (dueList zone minute t) := by
  have hdue : ∀ p < (dueList zone minute t).length,
      DueAt t zone minute (place (dueList zone minute t) p) :=
    fun p hp => mem_dueList.mp (place_mem hp)
  have hgroups := fun p hp => h.groups _ (hdue p hp).1 (hdue p hp).2
  refine ⟨fun p hp => (hdue p hp).1, fun p hp => ?_, fun p q hpq hq hconf => ?_⟩
  · rw [ht _ (hdue p hp).2]
    exact hgroups p hp
  · have hp := hdue p (hpq.trans hq)
    have hq' := hdue q hq
    rw [ht _ hp.2, ht _ hq'.2]
    have hconf' : Conflicts past t (place (dueList zone minute t) p)
        (place (dueList zone minute t) q) :=
      hconf.congr (ht _ hp.2).symm (ht _ hq'.2).symm
        (by rw [ht _ hp.2]; exact hgroups p (hpq.trans hq))
        (by rw [ht _ hq'.2]; exact hgroups q hq)
    obtain ⟨hmin, hle⟩ := h.clashes _ hp.1 hp.2 _ hq'.1 hq'.2
      (place_lt (dueList_sorted zone minute t) hpq hq) hconf'
    refine ⟨?_, hle⟩
    by_contra hne
    have hfirst := hdue 0 (Nat.zero_lt_of_lt hq)
    have hlt := place_lt (dueList_sorted zone minute t) (Nat.pos_of_ne_zero hne) (hpq.trans hq)
    exact Nat.not_lt.mpr (hmin _ hfirst.1 hfirst.2) hlt

/-- A timing is unbeaten when it conflicts with no due timing behind it; of two equally young
ones the latter in the table wins. -/
theorem unbeaten_iff (a : Nat) :
    Unbeaten past t (DueAt t zone minute) (fun b a => a < b) a ↔ DueAt t zone minute a ∧
      ∀ b, DueAt t zone minute b → a < b → ¬ Conflicts past t a b := by
  constructor
  · rintro ⟨hdue, hun⟩
    refine ⟨hdue, fun b hb hab hconf => ?_⟩
    obtain ⟨hlt, htie⟩ := hun b hb (Nat.ne_of_gt hab) hconf
    obtain ⟨-, hle⟩ := h.clashes a hdue.1 hdue.2 b hb.1 hb.2 hab hconf
    exact htie ⟨BitVec.le_antisymm hle (BitVec.not_lt.mp hlt), hab⟩
  · rintro ⟨hdue, hlater⟩
    refine ⟨hdue, fun b hb hne hconf => ?_⟩
    have hba : b < a := by
      by_contra hnot
      exact hlater b hb (Nat.lt_of_le_of_ne (Nat.not_lt.mp hnot) (Ne.symm hne)) hconf
    obtain ⟨-, hle⟩ := h.clashes b hb.1 hb.2 a hdue.1 hdue.2 hba hconf.symm
    exact ⟨BitVec.not_lt.mpr hle, fun htie => Nat.lt_asymm hba htie.2⟩

/-- Two due timings that conflict are two entries that clash. -/
theorem clashing_of_conflict {t' : TimingInfos}
    (ht : ∀ a, due zone minute (t a) = true → t' a = t a) {a b : Nat}
    (ha : DueAt t zone minute a) (hb : DueAt t zone minute b) (hab : a < b)
    (hconf : Conflicts past t a b) : Clashing past t' (dueList zone minute t) := by
  obtain ⟨p, hp, rfl⟩ := exists_place (mem_dueList.mpr ha)
  obtain ⟨q, hq, rfl⟩ := exists_place (mem_dueList.mpr hb)
  refine ⟨p, q, ?_, hq, hconf.congr (ht _ ha.2) (ht _ hb.2) (h.groups _ ha.1 ha.2)
    (h.groups _ hb.1 hb.2)⟩
  rcases Nat.lt_trichotomy p q with hpq | rfl | hqp
  · exact hpq
  · exact absurd hab (Nat.lt_irrefl _)
  · exact absurd (place_lt (dueList_sorted zone minute t) hqp hp) (Nat.lt_asymm hab)

/-- Where entries clash, the first due timing conflicts with a later one. -/
theorem conflict_of_clashing {t' : TimingInfos}
    (ht : ∀ a, due zone minute (t a) = true → t' a = t a)
    (hclash : Clashing past t' (dueList zone minute t)) :
    ∃ a b, DueAt t zone minute a ∧ DueAt t zone minute b ∧ a < b ∧ Conflicts past t a b ∧
      (dueList zone minute t).head? = some a := by
  obtain ⟨p, q, hpq, hq, hconf⟩ := hclash
  have hp := hpq.trans hq
  obtain ⟨rfl, -⟩ := (fine_of_sound h ht).clashes p q hpq hq hconf
  have ha := mem_dueList.mp (place_mem hp)
  have hb := mem_dueList.mp (place_mem hq)
  refine ⟨_, _, ha, hb, place_lt (dueList_sorted zone minute t) hpq hq,
    hconf.congr (ht _ ha.2).symm (ht _ hb.2).symm ?_ ?_, ?_⟩
  · rw [ht _ ha.2]
    exact h.groups _ ha.1 ha.2
  · rw [ht _ hb.2]
    exact h.groups _ hb.1 hb.2
  · rw [place_eq hp, List.head?_eq_getElem?, List.getElem?_eq_getElem hp]

open Classical in
/-- The entries that are left are the unbeaten timings. -/
theorem mem_left {t' : TimingInfos} (ht : ∀ a, due zone minute (t a) = true → t' a = t a)
    (a : Nat) :
    a ∈ (if Clashing past t' (dueList zone minute t) then (dueList zone minute t).tail
        else dueList zone minute t) ↔
      Unbeaten past t (DueAt t zone minute) (fun b a => a < b) a := by
  rw [unbeaten_iff h]
  by_cases hclash : Clashing past t' (dueList zone minute t)
  · obtain ⟨first, b, hfirst, hb, hlt, hconf, hhead⟩ := conflict_of_clashing h ht hclash
    rw [if_pos hclash, ← mem_dueList]
    obtain ⟨hmin, -⟩ := h.clashes first hfirst.1 hfirst.2 b hb.1 hb.2 hlt hconf
    have hnodup := dueList_nodup zone minute t
    cases hd : dueList zone minute t with
    | nil =>
      rw [hd] at hhead
      cases hhead
    | cons x rest =>
      rw [hd] at hhead hnodup
      cases hhead
      rw [List.tail_cons, List.mem_cons]
      constructor
      · intro hmem
        refine ⟨.inr hmem, fun c hc hac hother => ?_⟩
        have ha : DueAt t zone minute a := mem_dueList.mp (hd ▸ List.mem_cons_of_mem first hmem)
        obtain ⟨hamin, -⟩ := h.clashes a ha.1 ha.2 c hc.1 hc.2 hac hother
        have heq := Nat.le_antisymm (hamin first hfirst.1 hfirst.2) (hmin a ha.1 ha.2)
        exact (List.nodup_cons.mp hnodup).1 (heq ▸ hmem)
      · rintro ⟨rfl | hmem, hlater⟩
        · exact absurd hconf (hlater b hb hlt)
        · exact hmem
  · rw [if_neg hclash, mem_dueList]
    exact ⟨fun ha => ⟨ha, fun b hb hab hconf => hclash (clashing_of_conflict h ht ha hb hab hconf)⟩,
      fun ha => ha.1⟩

end

theorem infoNum_lt_noTiming : aliTimingInfoNum < noTiming := by decide

open Classical in
/-- The marked entry is passed over. -/
theorem foldl_executeOne_left (past : Past) {d : List Nat} {st : TimeUp} {C : Prop}
    (h : Left d st C) (e : Executed) :
    st.timing.foldl (executeOne past) e =
      (if C then d.tail else d).foldl (executeOne past) e := by
  rw [h.1]
  by_cases hC : C
  · rw [if_pos hC, if_pos hC]
    cases d with
    | nil => rfl
    | cons x rest =>
      rw [List.set_cons_zero, List.foldl_cons, executeOne, if_pos rfl, List.tail_cons]
  · rw [if_neg hC, if_neg hC]

open Classical in
/-- Removing and executing, on the table the collecting loop leaves. -/
theorem execute_ok {minute : Nat} (h : MinuteSound past t zone minute) {t' : TimingInfos}
    (ht : ∀ a, due zone minute (t a) = true → t' a = t a) :
    MinuteOk past t zone minute
      (execute past t' (clash past t' ⟨dueList zone minute t, List.range aliTimingInfoNum⟩)) := by
  have hleft := clash_left (fine_of_sound h ht)
    (fun i (hi : i ∈ List.range aliTimingInfoNum) => List.mem_range.mp hi)
  have hmem := mem_left h ht
  have hstages := foldl_executeOne_left past hleft ⟨t', [],
    (clash past t' ⟨dueList zone minute t, List.range aliTimingInfoNum⟩).used, false⟩
  generalize hl : (if Clashing past t' (dueList zone minute t) then
    (dueList zone minute t).tail else dueList zone minute t) = l at hmem hstages
  have hnodup : l.Nodup := by
    rw [← hl]
    split
    · exact (dueList_nodup zone _ t).tail
    · exact dueList_nodup zone _ t
  have hdue : ∀ a ∈ l, DueAt t zone minute a := fun a ha => ((hmem a).mp ha).1
  have hmark : ∀ a ∈ l, a ≠ noTiming :=
    fun a ha => Nat.ne_of_lt (Nat.lt_trans (hdue a ha).1 infoNum_lt_noTiming)
  have hgroups : ∀ a ∈ l, (t a).opGroupNum.toNat ≤ aliTimingOpGroupMax :=
    fun a ha => h.groups a (hdue a ha).1 (hdue a ha).2
  have hsame : ∀ a ∈ l, t' a = t a := fun a ha => ht a (hdue a ha).2
  obtain ⟨hsent, hused, -, hsingle⟩ := foldl_executeOne past hnodup hmark ⟨t', [],
    (clash past t' ⟨dueList zone minute t, List.range aliTimingInfoNum⟩).used, false⟩
    (fun a ha => by
      dsimp only
      rw [hsame a ha]
      exact hgroups a ha)
  rw [execute, hstages]
  refine ⟨⟨l, fun b a => a < b, hnodup, fun a b hne => ?_, hmem, ?_, fun a ha htype => ?_⟩, ?_⟩
  · omega
  · rw [hsent, List.nil_append]
    exact List.flatMap_congr fun a ha => actions_congr (hsame a ha) (hgroups a ha)
  · refine hsingle a ha ?_
    dsimp only
    rwa [hsame a ha]
  · intro i hi
    rw [hused] at hi
    cases List.mem_append.mp hi with
    | inl hclash => exact hleft.2 i hclash
    | inr hexec => exact (hdue i hexec).1

/-- The loops get a sound minute right. -/
theorem minuteOk_of_sound (h : MinuteSound past t zone (now.toNat / 60)) :
    MinuteOk past t zone (now.toNat / 60) (timingStages past t zone now) := by
  rw [timingStages, collect_fst]
  exact execute_ok h fun a ha => collect_snd ha

/-! ### Runs -/

/-- The minute a second begins, where it begins one, is handled as it should be. -/
def SecondOk (past : Past) (s : AliTime) : Prop :=
  s.nextLocal.toNat % 60 = 0 →
    (second past s).timingInfos =
        (timingStages past s.timingInfos s.sntpPara.zone s.nextLocal).timingInfos ∧
      MinuteOk past s.timingInfos s.sntpPara.zone (s.nextLocal.toNat / 60)
        (timingStages past s.timingInfos s.sntpPara.zone s.nextLocal)

def SecondSound (past : Past) (s : AliTime) : Prop :=
  s.nextLocal.toNat % 60 = 0 →
    MinuteSound past s.timingInfos s.sntpPara.zone (s.nextLocal.toNat / 60)

theorem secondOk_of_sound {s : AliTime} (h : SecondSound past s) : SecondOk past s := by
  intro hminute
  refine ⟨?_, minuteOk_of_sound (h hminute)⟩
  rw [second, aliMeshTimingProc, if_pos hminute]

/-- A property of every second a call handles. -/
def EverySecond (P : AliTime → Prop) (past : Past) (interval : BitVec 32) (s : AliTime)
    (e : ProcCall) : Prop :=
  ∀ k < secondsOf interval s e, P ((second past)^[k] s)

/-- In a run of `user_ali_time_proc` whose minutes are sound, every minute executes the due
timings that no later one overrules. -/
theorem timed_actions (past : Past) (interval : BitVec 32) (s : AliTime) (calls : List ProcCall)
    (h : GoodRun (userAliTimeProc past interval)
      (EverySecond (SecondSound past) past interval) s calls) :
    GoodRun (userAliTimeProc past interval)
      (EverySecond (SecondOk past) past interval) s calls :=
  h.mono fun _ _ hsound k hk => secondOk_of_sound (hsound k hk)

/-! ### A minute with two timings -/

instance Conflicts.decidable (past : Past) (t : TimingInfos) (a b : Nat) :
    Decidable (Conflicts past t a b) :=
  inferInstanceAs (Decidable (∃ x < (t a).opGroupNum.toNat, ∃ y < (t b).opGroupNum.toNat,
    (opGroupAt past t a x).attrType = (opGroupAt past t b y).attrType))

instance ClashSound.decidable (past : Past) (t : TimingInfos) (zone : BitVec 32)
    (minute a b : Nat) : Decidable (ClashSound past t zone minute a b) :=
  inferInstanceAs (Decidable (Conflicts past t a b →
    (∀ c < aliTimingInfoNum, due zone minute (t c) = true → a ≤ c) ∧
      (t a).activeTime ≤ (t b).activeTime))

theorem minuteSound_iff (past : Past) (t : TimingInfos) (zone : BitVec 32) (minute : Nat) :
    ((∀ a < aliTimingInfoNum, due zone minute (t a) = true →
        (t a).opGroupNum.toNat ≤ aliTimingOpGroupMax) ∧
      ∀ a < aliTimingInfoNum, due zone minute (t a) = true →
        ∀ b < aliTimingInfoNum, due zone minute (t b) = true → a < b →
          ClashSound past t zone minute a b) ↔ MinuteSound past t zone minute :=
  ⟨fun h => ⟨h.1, h.2⟩, fun h => ⟨h.groups, h.clashes⟩⟩

instance MinuteSound.decidable (past : Past) (t : TimingInfos) (zone : BitVec 32) (minute : Nat) :
    Decidable (MinuteSound past t zone minute) :=
  decidable_of_iff _ (minuteSound_iff past t zone minute)

instance SecondSound.decidable (past : Past) (s : AliTime) : Decidable (SecondSound past s) :=
  inferInstanceAs (Decidable (s.nextLocal.toNat % 60 = 0 →
    MinuteSound past s.timingInfos s.sntpPara.zone (s.nextLocal.toNat / 60)))

instance EverySecond.decidable (P : AliTime → Prop) [∀ s, Decidable (P s)] (past : Past)
    (interval : BitVec 32) (s : AliTime) (e : ProcCall) :
    Decidable (EverySecond P past interval s e) :=
  inferInstanceAs (Decidable (∀ k < secondsOf interval s e, P ((second past)^[k] s)))

/-- A switch of the light at second 60, set up at `activeTime`. -/
def sampleTiming (activeTime : BitVec 32) : TimingInfo :=
  ⟨activeTime, 60, .single, 0, 1, ⟨attrOnoff, 1⟩⟩

/-- A second before the minute, with two timings of the given ages. -/
def sampleTime (first other : BitVec 32) : AliTime where
  sntpPara := ⟨180, 10, 10, 0⟩
  timingInfos i := if i = 0 then sampleTiming first
    else if i = 1 then sampleTiming other else sampleTiming 0
  sntpTmp := ⟨false, 0, 0, 0⟩
  aliUnixTime := 59
  aliMeshTimeTick := 0
  saveTimeInfoFlag := false

def noGroup : Past := fun _ _ _ => ⟨0, 0⟩

/-- Two seconds in one call, at a thousand ticks a second. -/
def sampleCalls : List ProcCall := [⟨true, 2000⟩]

theorem timed_actions_sample : GoodRun (userAliTimeProc noGroup 1000)
    (EverySecond (SecondOk noGroup) noGroup 1000) (sampleTime 1 2) sampleCalls :=
  timed_actions noGroup 1000 (sampleTime 1 2) sampleCalls (by decide +kernel)

/-- With the older timing in the second place its entry is overwritten, and the next turn of
the loop uses `0xFF` as an index of the table. -/
theorem timed_actions_refuted : ¬ GoodRun (userAliTimeProc noGroup 1000)
    (EverySecond (SecondOk noGroup) noGroup 1000) (sampleTime 2 1) sampleCalls := by
  intro h
  have hused := (h.1 0 (by decide +kernel) (by decide +kernel)).2.used
  have hmark : noTiming ∈ (timingStages noGroup (sampleTime 2 1).timingInfos
      (sampleTime 2 1).sntpPara.zone (sampleTime 2 1).nextLocal).used := by decide +kernel
  exact absurd (hused noTiming hmark) (by decide)

end PirMesh.Ali
