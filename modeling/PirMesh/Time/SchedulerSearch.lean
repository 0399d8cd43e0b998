import PirMesh.Library.NextMatch
import PirMesh.Time.CalendarSpec
import PirMesh.Time.Scheduler

/-! # Time — The search finds the next match

A time of day is a number of three digits, and an entry asks something of each of
them; the search of the code is the digit-wise search for the next match.  From the
fields (`getNearestHour_spec`, `getNearestMinOrSec_spec`) over one entry
(`nearestOfEntry_spec`) to all of them (`updateSchd_spec`). -/

namespace PirMesh

open NextMatch

variable {p : Scheduler} {now : MeshUTC} {code : BitVec 6} {rand : Fin 60} {h m s v : Nat}

/-! ### Fields -/

def HourMatch (p : Scheduler) (v : Nat) : Prop :=
  v < 24 ∧ isSchdMatchHour v p.hour.toNat p.randHour = true

def MinSecMatch (code : BitVec 6) (rand : Fin 60) (v : Nat) : Prop :=
  v < 60 ∧ isSchdMatchSecondOrMin v code.toNat rand = true

/-- What the search of a field gives: the next match, or none. -/
def Nearest (P : Nat → Prop) (n bound v : Nat) : Prop :=
  (v < bound ∧ IsLeast (From P n) v) ∨ (v = noNearest ∧ NoNext P n)

/-- A field with one value. -/
theorem nearest_single {P : Nat → Prop} {n bound w : Nat} (hw : w < bound) (hP : ∀ u, P u ↔ u = w) :
    Nearest P n bound (if n ≤ w then w else noNearest) := by
  by_cases h : n ≤ w
  · rw [if_pos h]
    exact .inl ⟨hw, isLeast_from h ((hP w).mpr rfl) fun u _ hu => ((hP u).mp hu).ge⟩
  · rw [if_neg h]
    exact .inr ⟨rfl, fun u hnu hu => h (hnu.trans ((hP u).mp hu).le)⟩

theorem hourMatch_iff : HourMatch p v ↔ v < 24 ∧
    (v = p.hour.toNat ∨ p.hour.toNat = 24 ∨ p.hour.toNat = 25 ∧ p.randHour = v) := by
  rw [HourMatch, isSchdMatchHour, decide_eq_true_iff]
  rfl

theorem minSecMatch_iff : MinSecMatch code rand v ↔ v < 60 ∧ (v = code.toNat ∨ code.toNat = 60 ∨
    code.toNat = 61 ∧ (v = 0 ∨ v = 15 ∨ v = 30 ∨ v = 45) ∨
    code.toNat = 62 ∧ (v = 0 ∨ v = 20 ∨ v = 40) ∨ code.toNat = 63 ∧ rand = v) := by
  rw [MinSecMatch, isSchdMatchSecondOrMin, decide_eq_true_iff, isEvery15Match, isEvery20Match,
    decide_eq_true_iff, decide_eq_true_iff]
  rfl

theorem getNearestHour_spec (hh : h < 24) :
    Nearest (HourMatch p) h 24 (getNearestHour p.hour.toNat h p.randHour false) := by
  have hrand := p.randHour.isLt
  simp only [getNearestHour, schdHourAny, schdHourRandom, Bool.false_eq_true, false_or]
  by_cases h24 : p.hour.toNat < 24
  · rw [if_pos h24]
    exact nearest_single h24 fun u => by rw [hourMatch_iff]; omega
  rw [if_neg h24]
  by_cases hany : p.hour.toNat = 24
  · rw [if_pos hany]
    exact .inl ⟨hh, isLeast_from (Nat.le_refl h) (hourMatch_iff.mpr ⟨hh, .inr (.inl hany)⟩)
      fun u hu _ => hu⟩
  rw [if_neg hany]
  by_cases hrnd : p.hour.toNat = 25
  · rw [if_pos hrnd]
    exact nearest_single hrand fun u => by rw [hourMatch_iff]; omega
  · rw [if_neg hrnd]
    refine .inr ⟨rfl, fun u _ hu => ?_⟩
    rw [hourMatch_iff] at hu
    omega

/-- A field with the multiples of `step`. -/
theorem nearestMultiple_spec {P : Nat → Prop} {n bound step : Nat} {l : List Nat}
    (hl : l.Pairwise (· < ·)) (hbound : ∀ i ∈ l, i * step < bound)
    (hP : ∀ u, n ≤ u → (P u ↔ ∃ i ∈ l, u = i * step)) :
    Nearest P n bound (nearestMultiple step n l) := by
  induction l with
  | nil => exact .inr ⟨rfl, fun u hnu hu => by simpa using (hP u hnu).mp hu⟩
  | cons i l ih =>
    unfold nearestMultiple
    obtain ⟨hi, hl⟩ := List.pairwise_cons.mp hl
    by_cases hle : n ≤ i * step
    · rw [if_pos hle]
      refine .inl ⟨hbound i List.mem_cons_self, isLeast_from hle
        ((hP _ hle).mpr ⟨i, List.mem_cons_self, rfl⟩) fun u hnu hu => ?_⟩
      obtain ⟨j, hj, rfl⟩ := (hP u hnu).mp hu
      rcases List.mem_cons.mp hj with rfl | hj
      · exact Nat.le_refl _
      · exact Nat.mul_le_mul_right step (hi j hj).le
    · rw [if_neg hle]
      refine ih hl (fun j hj => hbound j (List.mem_cons_of_mem i hj)) fun u hnu => ?_
      refine (hP u hnu).trans ⟨?_, fun ⟨j, hj, hu⟩ => ⟨j, List.mem_cons_of_mem i hj, hu⟩⟩
      rintro ⟨j, hj, hu⟩
      refine ⟨j, (List.mem_cons.mp hj).resolve_left ?_, hu⟩
      rintro rfl
      exact hle (hu ▸ hnu)

/-- A field of minutes or seconds, from `v` on. -/
theorem getNearestMinOrSec_next (code : BitVec 6) (rand : Fin 60) (hv : v < 60) :
    Nearest (MinSecMatch code rand) v 60 (getNearestMinOrSec code.toNat v rand false) := by
  have hrand := rand.isLt
  have hcode := code.isLt
  simp only [getNearestMinOrSec, schdMinAny, schdMinRandom, schdMinEvery15, schdMinEvery20,
    Bool.false_eq_true, false_or, if_false]
  by_cases h60 : code.toNat < 60
  · rw [if_pos h60]
    exact nearest_single h60 fun u => by rw [minSecMatch_iff]; omega
  rw [if_neg h60]
  by_cases hany : code.toNat = 60
  · rw [if_pos hany]
    exact .inl ⟨hv, isLeast_from (Nat.le_refl v) (minSecMatch_iff.mpr ⟨hv, .inr (.inl hany)⟩)
      fun u hu _ => hu⟩
  rw [if_neg hany]
  by_cases hrnd : code.toNat = 63
  · rw [if_pos hrnd]
    exact nearest_single hrand fun u => by rw [minSecMatch_iff]; omega
  rw [if_neg hrnd]
  by_cases h15 : code.toNat = 61
  · rw [if_pos h15]
    refine nearestMultiple_spec (by decide) (by decide) fun u _ => ?_
    simp only [minSecMatch_iff, List.mem_cons, List.not_mem_nil, or_false, exists_eq_or_imp,
      exists_eq_left]
    omega
  · have h20 : code.toNat = 62 := by omega
    rw [if_neg h15, if_pos h20]
    refine nearestMultiple_spec (by decide) (by decide) fun u _ => ?_
    simp only [minSecMatch_iff, List.mem_cons, List.not_mem_nil, or_false, exists_eq_or_imp,
      exists_eq_left]
    omega

/-- A field of minutes or seconds, from the start: there is a first match. -/
theorem getNearestMinOrSec_first (code : BitVec 6) (rand : Fin 60) (v : Nat) :
    getNearestMinOrSec code.toNat v rand true < 60 ∧
      IsLeast (From (MinSecMatch code rand) 0) (getNearestMinOrSec code.toNat v rand true) := by
  have hfirst : getNearestMinOrSec code.toNat v rand true =
      getNearestMinOrSec code.toNat 0 rand false := by
    simp only [getNearestMinOrSec, true_or, if_true, Nat.zero_le, or_true]
    rfl
  rw [hfirst]
  refine (getNearestMinOrSec_next code rand (by decide)).resolve_right fun hno => ?_
  have hcode := code.isLt
  have hrand := rand.isLt
  by_cases hrnd : code.toNat = 63
  · exact hno.2 rand (Nat.zero_le _) (minSecMatch_iff.mpr ⟨hrand, by omega⟩)
  · by_cases h60 : code.toNat < 60
    · exact hno.2 code.toNat (Nat.zero_le _) (minSecMatch_iff.mpr ⟨h60, by omega⟩)
    · exact hno.2 0 (Nat.zero_le _) (minSecMatch_iff.mpr ⟨by decide, by omega⟩)

/-- What `getMinSecStep` adds to a match is the next one, if it stays in the hour. -/
theorem getMinSecStep_spec (hv : MinSecMatch code rand v) :
    (getMinSecStep code.toNat ≠ 0 ∧ v + getMinSecStep code.toNat < 60 ∧
      IsLeast (From (MinSecMatch code rand) (v + 1)) (v + getMinSecStep code.toNat)) ∨
    ((getMinSecStep code.toNat = 0 ∨ ¬ v + getMinSecStep code.toNat < 60) ∧
      NoNext (MinSecMatch code rand) (v + 1)) := by
  have hcode := code.isLt
  have hmatch : ∀ u, MinSecMatch code rand u ↔ _ := fun u => minSecMatch_iff
  rw [hmatch] at hv
  -- one value: no step, and no match behind it
  have hone (hsingle : code.toNat < 60 ∨ code.toNat = 63) :
    NoNext (MinSecMatch code rand) (v + 1) :=
    fun u hu hm => by
      rw [hmatch] at hm
      omega
  -- several values: the next is a step behind
  have hstep (hs : 0 < getMinSecStep code.toNat)
      (hnext : ∀ u, v < u → MinSecMatch code rand u → v + getMinSecStep code.toNat ≤ u)
      (hin : v + getMinSecStep code.toNat < 60 →
        MinSecMatch code rand (v + getMinSecStep code.toNat)) :
      (getMinSecStep code.toNat ≠ 0 ∧ v + getMinSecStep code.toNat < 60 ∧
        IsLeast (From (MinSecMatch code rand) (v + 1)) (v + getMinSecStep code.toNat)) ∨
      ((getMinSecStep code.toNat = 0 ∨ ¬ v + getMinSecStep code.toNat < 60) ∧
        NoNext (MinSecMatch code rand) (v + 1)) := by
    by_cases h : v + getMinSecStep code.toNat < 60
    · exact .inl ⟨hs.ne', h, isLeast_from (by omega) (hin h) hnext⟩
    · exact .inr ⟨.inr h, fun u hu hm => h (Nat.lt_of_le_of_lt (hnext u hu hm) hm.1)⟩
  by_cases h60 : code.toNat < 60
  · exact .inr ⟨.inl (if_pos h60), hone (.inl h60)⟩
  by_cases hany : code.toNat = 60
  · have hs : getMinSecStep code.toNat = 1 := by rw [hany]; rfl
    rw [hs] at hstep ⊢
    exact hstep (by decide) (fun u hu _ => hu) fun h => (hmatch _).mpr ⟨h, by omega⟩
  by_cases h15 : code.toNat = 61
  · have hs : getMinSecStep code.toNat = 15 := by rw [h15]; rfl
    rw [hs] at hstep ⊢
    refine hstep (by decide) (fun u hu hm => ?_) fun h => (hmatch _).mpr ⟨h, by omega⟩
    rw [hmatch] at hm
    omega
  by_cases h20 : code.toNat = 62
  · have hs : getMinSecStep code.toNat = 20 := by rw [h20]; rfl
    rw [hs] at hstep ⊢
    refine hstep (by decide) (fun u hu hm => ?_) fun h => (hmatch _).mpr ⟨h, by omega⟩
    rw [hmatch] at hm
    omega
  · have h63 : code.toNat = 63 := by omega
    exact .inr ⟨.inl (by rw [h63]; rfl), hone (.inr h63)⟩

/-! ### One entry -/

/-- The times of day an entry asks for. -/
def TimeMatch (p : Scheduler) : Nat → Prop :=
  Digits 60 (Digits 60 (HourMatch p) (MinSecMatch p.minute p.randMin))
    (MinSecMatch p.second p.randSec)

/-- Hour, minute and second are the next match, or they are no time of day and there is none. -/
def TimeFound (P : Nat → Prop) (n : Nat) (t : Nat × Nat × Nat) : Prop :=
  ((t.1 < 24 ∧ t.2.1 < 60 ∧ t.2.2 < 60) ∧ IsLeast (From P n) ((t.1 * 60 + t.2.1) * 60 + t.2.2)) ∨
    (¬ (t.1 < 24 ∧ t.2.1 < 60 ∧ t.2.2 < 60) ∧ NoNext P n)

/-- No hour and minute from `h * 60 + m` on has a second that is left. -/
def MinutesOver (p : Scheduler) (h m s : Nat) : Prop :=
  NoNext (MinSecMatch p.minute p.randMin) (m + 1) ∧
    (HourMatch p h ∧ MinSecMatch p.minute p.randMin m → NoNext (MinSecMatch p.second p.randSec) s)

theorem timeFound_later {hh mm : Nat} (hmm : mm < 60) (hhh : hh < 24) (hm : m < 60) (hs : s < 60)
    (hlater : IsLeast (From (Digits 60 (HourMatch p) (MinSecMatch p.minute p.randMin))
      (h * 60 + (m + 1))) (hh * 60 + mm))
    (hno : HourMatch p h ∧ MinSecMatch p.minute p.randMin m →
      NoNext (MinSecMatch p.second p.randSec) s) (v : Nat) :
    TimeFound (TimeMatch p) ((h * 60 + m) * 60 + s)
      (hh, mm, getNearestMinOrSec p.second.toNat v p.randSec true) := by
  obtain ⟨hlt, hfirst⟩ := getNearestMinOrSec_first p.second p.randSec v
  exact .inl ⟨⟨hhh, hmm, hlt⟩, isLeast_carry hs.le hlater hfirst hlt fun hhm =>
    hno ((digits_mul_add hm).mp hhm)⟩

/-- The next hour, when the minutes of this one are over. -/
theorem nextHour_spec (hh : h < 24) (hm : m < 60) (hs : s < 60) (hover : MinutesOver p h m s)
    (hmatch : HourMatch p h) {mm ss : Nat} (hbad : ¬ (mm < 60 ∧ ss < 60)) :
    TimeFound (TimeMatch p) ((h * 60 + m) * 60 + s)
      (if p.hour.toNat = schdHourAny then
        if h + 1 < 24 then (h + 1, getNearestMinOrSec p.minute.toNat 0 p.randMin true,
          getNearestMinOrSec p.second.toNat 0 p.randSec true)
        else (h + 1, mm, ss)
      else (h, mm, ss)) := by
  have hnone (hno : NoNext (HourMatch p) (h + 1)) :
      NoNext (TimeMatch p) ((h * 60 + m) * 60 + s) :=
    noNext_digits (by decide) (noNext_digits (h := h) (k := m + 1) (by decide) hno fun _ => hover.1)
      fun hhm => hover.2 ((digits_mul_add hm).mp hhm)
  by_cases hany : p.hour.toNat = schdHourAny
  · rw [if_pos hany]
    by_cases h24 : h + 1 < 24
    · rw [if_pos h24]
      obtain ⟨hlt, hfirst⟩ := getNearestMinOrSec_first p.minute p.randMin 0
      have hnext : IsLeast (From (HourMatch p) (h + 1)) (h + 1) :=
        isLeast_from (Nat.le_refl _) (hourMatch_iff.mpr ⟨h24, .inr (.inl hany)⟩) fun u hu _ => hu
      exact timeFound_later hlt h24 hm hs
        (isLeast_carry (h := h) (k := m + 1) hm hnext hfirst hlt fun _ => hover.1) hover.2 0
    · rw [if_neg h24]
      exact .inr ⟨fun h => h24 h.1, hnone fun u hu hmu => h24 (Nat.lt_of_le_of_lt hu hmu.1)⟩
  · rw [if_neg hany]
    refine .inr ⟨fun h => hbad h.2, hnone fun u hu hmu => ?_⟩
    rw [hourMatch_iff] at hmatch hmu
    simp only [schdHourAny] at hany
    omega

theorem ne_noNearest (h : v < 60) : v ≠ noNearest := (Nat.lt_trans h (by decide)).ne

theorem nearestTime_spec {hh : Nat} (hminute : now.minute < 60) (hsecond : now.second < 60)
    (hhh : hh < 24) (hnext : IsLeast (From (HourMatch p) now.hour) hh) :
    TimeFound (TimeMatch p) ((now.hour * 60 + now.minute) * 60 + now.second)
      (nearestTime p now hh) := by
  rcases Nat.lt_or_eq_of_le hnext.1.1 with hbig | rfl
  · -- a later hour
    obtain ⟨hlater, hnot⟩ := later_of_isLeast hnext hbig
    obtain ⟨hmm, hfirst⟩ := getNearestMinOrSec_first p.minute p.randMin now.minute
    obtain ⟨hss, -⟩ := getNearestMinOrSec_first p.second p.randSec now.second
    simp only [nearestTime, nearestMinSec, gt_iff_lt, hbig, decide_true, true_or,
      if_neg (ne_noNearest hmm), if_neg (ne_noNearest hss), Bool.false_eq_true, false_and, if_false]
    exact timeFound_later hmm hhh hminute hsecond
      (isLeast_carry (h := now.hour) (k := now.minute + 1) hminute hlater hfirst hmm
        fun h => absurd h hnot) (fun h => absurd h.1 hnot) now.second
  have hhour : HourMatch p now.hour := hnext.1.2
  simp only [nearestTime, nearestMinSec, gt_iff_lt, Nat.lt_irrefl, decide_false, Bool.false_eq_true,
    false_or]
  rcases getNearestMinOrSec_next p.minute p.randMin hminute with
    ⟨hmm, hleast⟩ | ⟨hno, hnone⟩
  · rw [if_neg (ne_noNearest hmm)]
    rcases Nat.lt_or_eq_of_le hleast.1.1 with hbig | heq
    · -- a later minute of this hour
      obtain ⟨hss, -⟩ := getNearestMinOrSec_first p.second p.randSec now.second
      obtain ⟨hlater, hnot⟩ := later_of_isLeast hleast hbig
      simp only [hbig, decide_true, if_neg (ne_noNearest hss), Bool.false_eq_true,
        false_and, if_false]
      exact timeFound_later hmm hhh hminute hsecond (isLeast_stay hhour hlater hmm)
        (fun h => absurd h.2 hnot) now.second
    · -- this minute
      have hmin : MinSecMatch p.minute p.randMin now.minute := heq ▸ hleast.1.2
      rw [← heq]
      simp only [Nat.lt_irrefl, decide_false]
      rcases getNearestMinOrSec_next p.second p.randSec hsecond with
        ⟨hss, hsleast⟩ | ⟨hsno, hsnone⟩
      · simp only [if_neg (ne_noNearest hss), Bool.false_eq_true, false_and, if_false]
        exact .inl ⟨⟨hhh, hminute, hss⟩, isLeast_stay ((digits_mul_add hminute).mpr ⟨hhour, hmin⟩)
          hsleast hss⟩
      · -- no second of this minute is left
        rw [if_pos hsno]
        rcases getMinSecStep_spec hmin with ⟨hstep, hlt, hsnext⟩ | ⟨hstep, hmnone⟩
        · simp only [if_pos hstep, if_pos hlt, Bool.false_eq_true, false_and, if_false]
          exact timeFound_later hlt hhh hminute hsecond (isLeast_stay hhour hsnext hlt)
            (fun _ => hsnone) 0
        · have hover : MinutesOver p now.hour now.minute now.second := ⟨hmnone, fun _ => hsnone⟩
          have hbad : ¬ getNearestMinOrSec p.second.toNat now.second p.randSec false < 60 := by
            rw [hsno]
            decide
          by_cases h0 : getMinSecStep p.minute.toNat = 0
          · rw [if_neg (not_not.mpr h0)]
            simp only [true_and]
            exact nextHour_spec hhh hminute hsecond hover hhour fun h => hbad h.2
          · rw [if_pos h0, if_neg (hstep.resolve_left h0)]
            simp only [true_and]
            exact nextHour_spec hhh hminute hsecond hover hhour fun h => hbad h.2
  · -- no minute of this hour
    rw [if_pos hno]
    simp only [true_and]
    exact nextHour_spec hhh hminute hsecond
      ⟨fun u hu => hnone u (Nat.le_of_succ_le hu), fun h => absurd h.2 (hnone _ (Nat.le_refl _))⟩
      hhour (fun h => absurd h.2 (by decide))

/-! ### Matching, directly -/

/-- **The direct definition**: an active entry matches the second `t` when each of its fields
matches the date and the time of day of `t`. -/
def schdMatch (p : Scheduler) (t : Nat) : Prop :=
  isSchdAlive p = true ∧ isSchdMatchToday p (getUTC t) = true ∧
    isSchdMatchHour (getUTC t).hour p.hour.toNat p.randHour = true ∧
    isSchdMatchSecondOrMin (getUTC t).minute p.minute.toNat p.randMin = true ∧
    isSchdMatchSecondOrMin (getUTC t).second p.second.toNat p.randSec = true

instance (p : Scheduler) (t : Nat) : Decidable (schdMatch p t) := by
  unfold schdMatch
  infer_instance

/-- The date of a second is the date of its day. -/
theorem isSchdMatchToday_congr {t u : Nat} (h : u / secondOneDay = t / secondOneDay) :
    isSchdMatchToday p (getUTC u) = isSchdMatchToday p (getUTC t) := by
  have hday : u / (3600 * 24) = t / (3600 * 24) := h
  rw [isSchdMatchToday, isSchdMatchToday, decide_eq_decide]
  simp only [getUTC, hday]

theorem schdMatch_iff (t : Nat) : schdMatch p t ↔ isSchdAlive p = true ∧
    isSchdMatchToday p (getUTC t) = true ∧ TimeMatch p (t % secondOneDay) := by
  have hhour : t % secondOneDay / 60 / 60 = (getUTC t).hour := by
    show t % 86400 / 60 / 60 = t / 3600 % 24
    omega
  have hminute : t % secondOneDay / 60 % 60 = (getUTC t).minute := by
    show t % 86400 / 60 % 60 = t / 60 % 60
    omega
  have hsecond : t % secondOneDay % 60 = (getUTC t).second := by
    show t % 86400 % 60 = t % 60
    omega
  have hhlt : (getUTC t).hour < 24 := Nat.mod_lt _ (by decide)
  have hmlt : (getUTC t).minute < 60 := Nat.mod_lt _ (by decide)
  have hslt : (getUTC t).second < 60 := Nat.mod_lt _ (by decide)
  simp only [schdMatch, TimeMatch, Digits, HourMatch, MinSecMatch, hhour, hminute, hsecond, hhlt,
    hmlt, hslt, true_and, and_assoc]

/-- The seconds of the day of `t`, from `t` on, at which the entry matches. -/
def RestOfDay (p : Scheduler) (t u : Nat) : Prop :=
  t ≤ u ∧ u / secondOneDay = t / secondOneDay ∧ schdMatch p u

theorem timeMatch_lt {x : Nat} (hx : TimeMatch p x) : x < secondOneDay := by
  have hlt : x / 60 / 60 < 24 := hx.1.1.1
  show x < 86400
  omega

/-- On a day of the entry, the rest of the day is what its times of day say. -/
theorem restOfDay_iff {t u : Nat} (halive : isSchdAlive p = true)
    (htoday : isSchdMatchToday p (getUTC t) = true) : RestOfDay p t u ↔
      u / secondOneDay = t / secondOneDay ∧
        u % secondOneDay ∈ From (TimeMatch p) (t % secondOneDay) := by
  have hmod : u / secondOneDay = t / secondOneDay →
      (t ≤ u ↔ t % secondOneDay ≤ u % secondOneDay) := by
    simp only [secondOneDay]
    omega
  constructor
  · rintro ⟨hle, hday, hmatch⟩
    exact ⟨hday, (hmod hday).mp hle, ((schdMatch_iff u).mp hmatch).2.2⟩
  · rintro ⟨hday, hle, htime⟩
    exact ⟨(hmod hday).mpr hle, hday,
      (schdMatch_iff u).mpr ⟨halive, (isSchdMatchToday_congr hday).trans htoday, htime⟩⟩

theorem noNext_timeMatch (hm : m < 60) (hno : NoNext (HourMatch p) h) :
    NoNext (TimeMatch p) ((h * 60 + m) * 60 + s) := by
  have hnot : ¬ HourMatch p h := hno h (Nat.le_refl h)
  have hhm : NoNext (Digits 60 (HourMatch p) (MinSecMatch p.minute p.randMin)) (h * 60 + (m + 1)) :=
    noNext_digits (by decide) (fun u hu => hno u (Nat.le_of_succ_le hu)) fun hh => absurd hh hnot
  exact noNext_digits (by decide) hhm fun hh => absurd ((digits_mul_add hm).mp hh).1 hnot

theorem isLeast_restOfDay {t : Nat} (halive : isSchdAlive p = true)
    (htoday : isSchdMatchToday p (getUTC t) = true)
    (h : IsLeast (From (TimeMatch p) (t % secondOneDay)) v) :
    IsLeast {u | RestOfDay p t u} (t / secondOneDay * secondOneDay + v) := by
  have hv : v < secondOneDay := timeMatch_lt h.1.2
  have hdiv : (t / secondOneDay * secondOneDay + v) / secondOneDay = t / secondOneDay := by
    simp only [secondOneDay] at hv ⊢
    omega
  have hmod : (t / secondOneDay * secondOneDay + v) % secondOneDay = v := by
    simp only [secondOneDay] at hv ⊢
    omega
  refine ⟨(restOfDay_iff halive htoday).mpr ⟨hdiv, hmod.symm ▸ h.1⟩, fun u hu => ?_⟩
  obtain ⟨hday, hfrom⟩ := (restOfDay_iff halive htoday).mp hu
  have hle := h.2 hfrom
  simp only [secondOneDay] at hday hle ⊢
  omega

/-- **The search of one entry.** -/
theorem nearestOfEntry_spec (p : Scheduler) (t : Nat) :
    (∃ v, nearestOfEntry p (getUTC t) = some v ∧ v < secondOneDay ∧
      IsLeast {u | RestOfDay p t u} (t / secondOneDay * secondOneDay + v)) ∨
    (nearestOfEntry p (getUTC t) = none ∧ ∀ u, ¬ RestOfDay p t u) := by
  by_cases halive : isSchdAlive p = true
  · by_cases htoday : isSchdMatchToday p (getUTC t) = true
    · have hhour : (getUTC t).hour < 24 := Nat.mod_lt _ (by decide)
      have hminute : (getUTC t).minute < 60 := Nat.mod_lt _ (by decide)
      have hsecond : (getUTC t).second < 60 := Nat.mod_lt _ (by decide)
      have hsplit : t % secondOneDay =
          ((getUTC t).hour * 60 + (getUTC t).minute) * 60 + (getUTC t).second := by
        show t % 86400 = (t / 3600 % 24 * 60 + t / 60 % 60) * 60 + t % 60
        omega
      have hnone (h : NoNext (TimeMatch p) (t % secondOneDay)) : ∀ u, ¬ RestOfDay p t u :=
        fun u hu => h _ ((restOfDay_iff halive htoday).mp hu).2.1
          ((restOfDay_iff halive htoday).mp hu).2.2
      rw [nearestOfEntry, if_neg (not_not.mpr halive), if_neg (not_not.mpr htoday)]
      generalize getUTC t = now at hhour hminute hsecond hsplit
      rcases getNearestHour_spec (p := p) hhour with ⟨hlt, hleast⟩ | ⟨hno, hnohour⟩
      · have hfound := nearestTime_spec hminute hsecond hlt hleast
        rw [← hsplit] at hfound
        simp only [if_neg (Nat.lt_trans hlt (by decide : 24 < noNearest)).ne]
        generalize nearestTime p now _ = r at hfound
        obtain ⟨hh, mm, ss⟩ := r
        rcases hfound with ⟨hin, hmin⟩ | ⟨hout, hnomatch⟩
        · have hv : (hh * 60 + mm) * 60 + ss = hh * 3600 + mm * 60 + ss := by omega
          rw [hv] at hmin
          exact .inl ⟨_, if_pos hin, timeMatch_lt hmin.1.2, isLeast_restOfDay halive htoday hmin⟩
        · exact .inr ⟨if_neg hout, hnone hnomatch⟩
      · exact .inr ⟨if_pos hno, hnone (hsplit ▸ noNext_timeMatch hminute hnohour)⟩
    · rw [nearestOfEntry, if_neg (not_not.mpr halive), if_pos htoday]
      exact .inr ⟨rfl, fun u hu => htoday ((isSchdMatchToday_congr hu.2.1).symm.trans hu.2.2.2.1)⟩
  · rw [nearestOfEntry, if_pos halive]
    exact .inr ⟨rfl, fun u hu => halive hu.2.2.1⟩

/-! ### All entries -/

variable {lightCnt : Nat} {list : SchdList lightCnt}

theorem mem_schdIdxs (e : SchdIdx lightCnt) : e ∈ schdIdxs lightCnt :=
  List.mem_flatMap.mpr ⟨e.1, List.mem_finRange _, List.mem_map.mpr ⟨e.2, List.mem_finRange _, rfl⟩⟩

/-- The rest of the day of `t`, as far as the counter goes, with some entry that matches. -/
def Due (list : SchdList lightCnt) (t : Nat) : Set Nat :=
  {u | u < 2 ^ 32 ∧ ∃ e, RestOfDay (list e) t u}

/-- What a search from `t` leaves: the next second with a match and who matches it, or nothing. -/
def SearchFound (list : SchdList lightCnt) (t : Nat) (r : Int × SchdNearest lightCnt) : Prop :=
  (r.1 = 0 ∧ IsLeast (Due list t) r.2.taiLocal ∧
    ∀ e, r.2.entryBit e = true ↔ schdMatch (list e) r.2.taiLocal) ∨
  (r.1 = -1 ∧ r.2.taiLocal = 0 ∧ Due list t = ∅)

/-- **The search of the day.** -/
theorem updateSchd_spec (list : SchdList lightCnt) {t : Nat} (h0 : t ≠ 0)
    (nearest : SchdNearest lightCnt) :
    SearchFound list t (updateSchdNearestTAIToday list t nearest) := by
  have hleast : LeastOf (fun e => nearestOfEntry (list e) (getUTC t)) 0xffffffff (schdIdxs lightCnt)
      ((schdIdxs lightCnt).foldl (nearestLoop list (getUTC t)) (0xffffffff, fun _ => false)) :=
    LeastOf.nil.foldl
  unfold updateSchdNearestTAIToday
  rw [if_neg h0]
  generalize (schdIdxs lightCnt).foldl _ _ = acc at hleast
  obtain ⟨nearestTAI, entryBit⟩ := acc
  obtain ⟨hlower, hattained, hkeys⟩ := hleast
  -- what lies in the rest of the day lies behind the least second
  have hbehind : ∀ u, (∃ e, RestOfDay (list e) t u) →
      nearestTAI < secondOneDay ∧ t / secondOneDay * secondOneDay + nearestTAI ≤ u := by
    rintro u ⟨e, hu⟩
    rcases nearestOfEntry_spec (list e) t with ⟨v, hv, hvlt, hvleast⟩ | ⟨-, hno⟩
    · have hle := hlower e (mem_schdIdxs e) v hv
      have huv := hvleast.2 hu
      simp only at hle
      omega
    · exact absurd hu (hno u)
  have hempty (h : ∀ u < 2 ^ 32, ¬ ∃ e, RestOfDay (list e) t u) : Due list t = ∅ :=
    Set.eq_empty_iff_forall_notMem.mpr fun u hu => h u hu.1 hu.2
  rcases hattained with rfl | ⟨e, -, he⟩
  · exact .inr ⟨rfl, rfl, hempty fun u _ hu => absurd (hbehind u hu).1 (by decide)⟩
  rcases nearestOfEntry_spec (list e) t with ⟨v, hv, hvlt, hvleast⟩ | ⟨hv, -⟩
  swap
  · exact absurd (hv.symm.trans he) (Option.some_ne_none _).symm
  obtain rfl : v = nearestTAI := Option.some_inj.mp (hv.symm.trans he)
  obtain ⟨⟨htv, hday, -⟩, -⟩ := id hvleast
  have hvne : v ≠ 0xffffffff := (Nat.lt_trans hvlt (by decide)).ne
  simp only [if_pos hvne, Nat.add_comm v]
  by_cases hover : t / secondOneDay * secondOneDay + v < 2 ^ 32
  · rw [Nat.mod_eq_of_lt hover, if_pos htv]
    refine .inl ⟨rfl, ⟨⟨hover, e, hvleast.1⟩, fun u hu => (hbehind u hu.2).2⟩, fun e' => ?_⟩
    refine (hkeys e').trans ⟨fun ⟨_, he'⟩ => ?_, fun hmatch => ⟨mem_schdIdxs e', ?_⟩⟩
    · rcases nearestOfEntry_spec (list e') t with ⟨w, hw, -, hwleast⟩ | ⟨hw, -⟩
      · rw [Option.some_inj.mp (hw.symm.trans he')] at hwleast
        exact hwleast.1.2.2
      · exact absurd (hw.symm.trans he') (Option.some_ne_none _).symm
    · have hrest : RestOfDay (list e') t (t / secondOneDay * secondOneDay + v) :=
        ⟨htv, hday, hmatch⟩
      rcases nearestOfEntry_spec (list e') t with ⟨w, hw, -, hwleast⟩ | ⟨-, hno⟩
      · have hle := hwleast.2 hrest
        have hge := hlower e' (mem_schdIdxs e') w hw
        rw [hw]
        simp only at hge
        congr 1
        omega
      · exact absurd hrest (hno _)
  · -- the least second of the day lies behind the end of the counter
    have hlt : ¬ t ≤ (t / secondOneDay * secondOneDay + v) % 2 ^ 32 := by
      simp only [secondOneDay] at hvlt hover ⊢
      omega
    rw [if_neg hlt]
    exact .inr ⟨rfl, rfl, hempty fun u hu32 hu => hover (Nat.lt_of_le_of_lt (hbehind u hu).2 hu32)⟩

/-- The least second of the day from `now` on with a match and all that match it are reported, or
none is reported and there is none. -/
def NearestToday (list : SchdList lightCnt) (now : Nat) (r : Int × SchdNearest lightCnt) : Prop :=
  (r.1 = 0 ∧ IsLeast {u | ∃ e, RestOfDay (list e) now u} r.2.taiLocal ∧
    ∀ e, r.2.entryBit e = true ↔ schdMatch (list e) r.2.taiLocal) ∨
  (r.1 = -1 ∧ r.2.taiLocal = 0 ∧ ∀ u e, ¬ RestOfDay (list e) now u)

/-- **The search equals the direct definition**, from every second of a valid date but the zero. -/
theorem updateSchd_nearest (list : SchdList lightCnt) (nearest : SchdNearest lightCnt) {now : Nat}
    (h0 : now ≠ 0) (h : now < taiSecondMax) :
    NearestToday list now (updateSchdNearestTAIToday list now nearest) := by
  -- the counter goes on to the end of the day
  have hcounter : ∀ {u e}, RestOfDay (list e) now u → u < 2 ^ 32 := fun hu => by
    have hday := hu.2.1
    simp only [secondOneDay, taiSecondMax] at hday h
    omega
  rcases updateSchd_spec list h0 nearest with ⟨h1, ⟨hmem, hleast⟩, hbits⟩ | ⟨h1, h2, hempty⟩
  · refine .inl ⟨h1, ⟨hmem.2, ?_⟩, hbits⟩
    rintro u ⟨e, hu⟩
    exact hleast ⟨hcounter hu, e, hu⟩
  · refine .inr ⟨h1, h2, fun u e hu => ?_⟩
    have hdue : u ∈ Due list now := ⟨hcounter hu, e, hu⟩
    rw [hempty] at hdue
    exact hdue

/-- An entry for every second. -/
def everySecond : Scheduler := ⟨1, 0x64, 0, 0, 0x18, 0x3c, 0x3c, 0, 1, 0, 0, 0⟩

theorem updateSchd_nearest_first :
    NearestToday (fun _ => everySecond : SchdList 1) 1
      (updateSchdNearestTAIToday (fun _ => everySecond) 1 .zero) :=
  updateSchd_nearest _ .zero (by decide) (by decide)

/-- The zero second is taken for no time at all. -/
theorem updateSchd_zero : ¬ NearestToday (fun _ => everySecond : SchdList 1) 0
    (updateSchdNearestTAIToday (fun _ => everySecond) 0 .zero) := by
  rintro (⟨h, -⟩ | ⟨-, -, h⟩)
  · exact absurd h (by decide)
  · exact h 0 (0, 0) ⟨Nat.le_refl 0, rfl, by decide +kernel⟩

end PirMesh
