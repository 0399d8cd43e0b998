import Mathlib.Tactic.IntervalCases
import PirMesh.Library.Tiling
import PirMesh.Time.Calendar

/-! # Time — The calendar as a tiling of the days

Years cut the days since 2000-01-01 into tiles, months cut a year.  `getTAISec`
computes where a date lies (`getTAISec_eq`), `getUTC` finds the tiles a day lies in
(`getUTC_spec`); that a day has one place in a tiling is the round trip
(`calendar_roundTrip`). -/

namespace PirMesh

open Tiling

variable {c d m n s y : Nat} {leap : Bool} {u : MeshUTC}

/-! ### Years -/

def yearLen (c : Nat) : Nat := if isLeapYear (yearBase + c) then 366 else 365

/-- The rule of the century the clock covers. -/
theorem isLeapYear_iff (h : c < 100) : isLeapYear (yearBase + c) = true ↔ c % 4 = 0 := by
  rw [isLeapYear, decide_eq_true_iff, yearBase]
  omega

theorem yearLen_eq (h : c < 100) : yearLen c = if c % 4 = 0 then 366 else 365 :=
  if_congr (isLeapYear_iff h) rfl rfl

theorem start_yearLen (h : c ≤ 100) : start yearLen c = 365 * c + (c + 3) / 4 := by
  induction c with
  | zero => rfl
  | succ c ih =>
    rw [start_succ, ih (Nat.le_of_succ_le h), yearLen_eq h]
    split <;> omega

theorem taiYear_eq (h : c < 100) : taiYear c = start yearLen c := by
  rw [start_yearLen h.le]
  have h400 : ¬ c ≥ 400 := by omega
  have h100 : ¬ c ≥ 100 := by omega
  simp only [taiYear, if_neg h400, if_neg h100, days4Year, days1Year]
  by_cases h4 : c ≥ 4
  · simp only [if_pos h4, if_true, Bool.not_true, Bool.false_and, if_false, Bool.false_eq_true]
    split <;> omega
  · simp only [if_neg h4, if_true, Bool.not_true, Bool.false_and, if_false, Bool.false_eq_true]
    split <;> omega

/-- In this century the cycle of four years decides. -/
theorem utcYear_eq (h : n < 36525) : utcYear n =
    if n % 1461 ≥ 366 then
      (yearBase + n / 1461 * 4 + 1 + (n % 1461 - 366) / 365, (n % 1461 - 366) % 365)
    else (yearBase + n / 1461 * 4, n % 1461) := by
  have h400 : ¬ n ≥ days400Year := Nat.not_le.mpr (Nat.lt_trans h (by decide))
  have h100 : ¬ n ≥ days100Year true := Nat.not_le.mpr h
  simp only [utcYear, if_neg h400, if_neg h100, days4Year, days1Year, if_true, Bool.true_or,
    Nat.add_zero, Nat.mul_one]
  -- below 365 the last division changes nothing
  have hlast : ∀ y d : Nat, (if d ≥ 365 then (y + d / 365, d % 365) else (y, d)) =
      (y + d / 365, d % 365) := fun y d => by
    split
    · rfl
    · rw [Nat.div_eq_of_lt (by omega), Nat.mod_eq_of_lt (by omega), Nat.add_zero]
  by_cases h4 : n ≥ 1461
  · simp [if_pos h4, hlast]
  · rw [Nat.div_eq_of_lt (by omega : n < 1461), Nat.mod_eq_of_lt (by omega : n < 1461)]
    simp [if_neg h4, hlast]

theorem utcYear_spec (h : n < 36525) : ∃ c, (utcYear n).1 = yearBase + c ∧ c < 100 ∧
    start yearLen c + (utcYear n).2 = n ∧ (utcYear n).2 < yearLen c := by
  rw [utcYear_eq h]
  split
  · refine ⟨n / 1461 * 4 + 1 + (n % 1461 - 366) / 365, by simp only [Nat.add_assoc],
      by omega, ?_, ?_⟩
    · rw [start_yearLen (by omega)]
      simp only
      omega
    · rw [yearLen_eq (by omega)]
      simp only
      split <;> omega
  · refine ⟨n / 1461 * 4, rfl, by omega, ?_, ?_⟩
    · rw [start_yearLen (by omega)]
      simp only
      omega
    · rw [yearLen_eq (by omega), if_pos (by omega)]
      simp only
      omega

/-! ### Months -/

def monthLen (leap : Bool) (i : Nat) : Nat := getDaysByMonth leap (i + 1)

theorem monthLen_pos (h : m < 12) : 0 < monthLen leap m := by
  revert m
  cases leap <;> decide

theorem start_monthLen_year : start (monthLen leap) 12 = if leap then 366 else 365 := by
  cases leap <;> rfl

/-- The loop over the months walks over their tiles. -/
theorem utcMonth_eq (h : m + n = 12) : utcMonth y n d (m + 1) =
    ((walk (monthLen (isLeapYear y)) n d m).1 + 1, (walk (monthLen (isLeapYear y)) n d m).2) := by
  induction n generalizing m d with
  | zero => rfl
  | succ n ih =>
    have hpos : 0 < monthLen (isLeapYear y) m := monthLen_pos (by omega)
    unfold utcMonth walk
    by_cases hd : d = 0
    · rw [if_neg (not_not.mpr hd), if_neg (by omega)]
    · rw [if_pos hd, ih (by omega)]
      by_cases hle : monthLen (isLeapYear y) m ≤ d
      · rw [if_pos hle]
        exact if_pos hle
      · rw [if_neg hle]
        exact if_neg hle

theorem curmonthday_eq (h1 : 1 ≤ m) (h12 : m ≤ 12) :
    curmonthday m + (if leap ∧ m ≥ 3 then 1 else 0) = start (monthLen leap) (m - 1) := by
  interval_cases m <;> cases leap <;> rfl

/-! ### Dates -/

/-- A date between 2000-01-01 and 2099-12-31 with a time of day. -/
structure MeshUTC.Valid (u : MeshUTC) : Prop where
  year : yearBase ≤ u.year ∧ u.year < yearMax
  month : 1 ≤ u.month ∧ u.month ≤ 12
  day : 1 ≤ u.day ∧ u.day ≤ getDaysOneMonth u.year u.month
  hour : u.hour < 24
  minute : u.minute < 60
  second : u.second < 60

theorem isValidUTC_iff : isValidUTC u = true ↔ u.Valid := by
  rw [isValidUTC, decide_eq_true_iff]
  constructor
  · intro h
    have hday : u.day ≤ getDaysOneMonth u.year u.month := by
      rw [getDaysOneMonth]
      omega
    exact ⟨by omega, by omega, ⟨by omega, hday⟩, by omega, by omega, by omega⟩
  · rintro ⟨_, _, hday, _, _, _⟩
    simp only [getDaysOneMonth] at hday
    omega

/-- The days from 2000-01-01 to the date. -/
def MeshUTC.dayNumber (u : MeshUTC) : Nat :=
  start yearLen (u.year - yearBase) +
    (start (monthLen (isLeapYear u.year)) (u.month - 1) + (u.day - 1))

theorem getTAISec_eq (h : u.Valid) :
    getTAISec u = ((u.dayNumber * 24 + u.hour) * 60 + u.minute) * 60 + u.second := by
  have hyear : u.year - yearBase < 100 := by
    have := h.year
    simp only [yearMax] at this
    omega
  simp only [getTAISec, if_pos (isValidUTC_iff.mpr h), taiYear_eq hyear,
    curmonthday_eq h.month.1 h.month.2, MeshUTC.dayNumber, Nat.add_assoc]

/-- **From seconds to the date.**  The date is valid, and it is the one of that day. -/
theorem getUTC_spec (h : s < taiSecondMax) :
    (getUTC s).Valid ∧ (getUTC s).dayNumber = s / (3600 * 24) := by
  have hdays : s / (3600 * 24) < 36525 := Nat.div_lt_of_lt_mul h
  obtain ⟨c, hy, hc, hn, hd⟩ := utcYear_spec hdays
  have hlen : yearLen c = start (monthLen (isLeapYear (yearBase + c))) 12 :=
    start_monthLen_year.symm
  have hwalk := walk_spec (monthLen (isLeapYear (yearBase + c))) 12 0 (utcYear (s / (3600 * 24))).2
    (by rw [start_zero, Nat.zero_add, Nat.zero_add, ← hlen]; exact hd)
  have hmonth := utcMonth_eq (y := yearBase + c) (d := (utcYear (s / (3600 * 24))).2)
    (m := 0) (n := 12) rfl
  simp only [getUTC, utcDate, hy, hmonth]
  generalize walk _ 12 _ 0 = p at hwalk
  obtain ⟨m, d⟩ := p
  obtain ⟨hpos, hin, hm⟩ := hwalk
  refine ⟨⟨⟨Nat.le_add_right _ _, Nat.add_lt_add_left hc _⟩, ⟨Nat.le_add_left _ _, hm⟩,
    ⟨Nat.le_add_left _ _, hin⟩, Nat.mod_lt _ (by decide), Nat.mod_lt _ (by decide),
    Nat.mod_lt _ (by decide)⟩, ?_⟩
  simp only [MeshUTC.dayNumber, Nat.add_sub_cancel_left, Nat.add_sub_cancel]
  rw [hpos, start_zero, Nat.zero_add]
  exact hn

/-! ### Round trip -/

/-- A date lies inside its month, and its month inside its year. -/
theorem MeshUTC.Valid.inside (h : u.Valid) :
    u.day - 1 < monthLen (isLeapYear u.year) (u.month - 1) ∧
      start (monthLen (isLeapYear u.year)) (u.month - 1) + (u.day - 1) <
        yearLen (u.year - yearBase) ∧ u.year - yearBase < 100 := by
  have hday : u.day - 1 < monthLen (isLeapYear u.year) (u.month - 1) := by
    have := h.day
    rw [monthLen, Nat.sub_add_cancel h.month.1]
    simp only [getDaysOneMonth] at this
    omega
  have hmonth := start_add_lt hday (show u.month - 1 < 12 by have := h.month; omega)
  rw [start_monthLen_year] at hmonth
  refine ⟨hday, ?_, ?_⟩
  · rw [yearLen, Nat.add_sub_cancel' h.year.1]
    exact hmonth
  · have := h.year
    simp only [yearMax] at this
    omega

theorem dayNumber_lt (h : u.Valid) : u.dayNumber < 36525 := by
  obtain ⟨-, hyear, hcentury⟩ := h.inside
  have hlt := start_add_lt hyear hcentury
  rwa [start_yearLen (c := 100) (by decide)] at hlt

/-- A day has one date. -/
theorem dayNumber_inj {v : MeshUTC} (hu : u.Valid) (hv : v.Valid) (h : u.dayNumber = v.dayNumber) :
    u.year = v.year ∧ u.month = v.month ∧ u.day = v.day := by
  obtain ⟨hdu, hmu, -⟩ := hu.inside
  obtain ⟨hdv, hmv, -⟩ := hv.inside
  obtain ⟨hy, hoff⟩ := start_add_inj hmu hmv h
  have hyear : u.year = v.year := by
    have := hu.year
    have := hv.year
    omega
  rw [hyear] at hdu hoff
  obtain ⟨hm, hd⟩ := start_add_inj hdu hdv hoff
  have := hu.month
  have := hv.month
  have := hu.day
  have := hv.day
  exact ⟨hyear, by omega, by omega⟩

theorem getTAISec_lt (h : u.Valid) : getTAISec u < taiSecondMax := by
  have hday := dayNumber_lt h
  obtain ⟨-, -, -, hh, hm, hs⟩ := id h
  rw [getTAISec_eq h, taiSecondMax]
  omega

/-- **From seconds to the date and back.** -/
theorem getTAISec_getUTC (h : s < taiSecondMax) : getTAISec (getUTC s) = s := by
  obtain ⟨hv, hday⟩ := getUTC_spec h
  rw [getTAISec_eq hv, hday]
  show ((s / (3600 * 24) * 24 + s / 3600 % 24) * 60 + s / 60 % 60) * 60 + s % 60 = s
  omega

/-- **From the date to seconds and back.**  The weekday is computed, not read. -/
theorem getUTC_getTAISec (h : u.Valid) :
    getUTC (getTAISec u) = { u with week := (u.dayNumber + weekBase) % 7 } := by
  obtain ⟨hv, hday⟩ := getUTC_spec (getTAISec_lt h)
  obtain ⟨-, -, -, hh, hm, hs⟩ := id h
  have hsec := getTAISec_eq h
  have hdays : getTAISec u / (3600 * 24) = u.dayNumber := by omega
  obtain ⟨hyear, hmonth, hd⟩ := dayNumber_inj hv h (hday.trans hdays)
  have hhour : getTAISec u / 3600 % 24 = u.hour := by omega
  have hminute : getTAISec u / 60 % 60 = u.minute := by omega
  have hsecond : getTAISec u % 60 = u.second := by omega
  exact MeshUTC.mk.injEq .. |>.mpr ⟨hyear, hmonth, hd, hhour, hminute, hsecond,
    congrArg (fun n => (n + weekBase) % 7) hdays⟩

/-- **Calendar round trip.** -/
theorem calendar_roundTrip :
    (∀ s < taiSecondMax, (getUTC s).Valid ∧ (getUTC s).week = (s / 86400 + weekBase) % 7 ∧
      getTAISec (getUTC s) = s) ∧
    ∀ u : MeshUTC, u.Valid →
      getUTC (getTAISec u) = { u with week := (u.dayNumber + weekBase) % 7 } ∧
      (u.week = (u.dayNumber + weekBase) % 7 → getUTC (getTAISec u) = u) := by
  refine ⟨fun s hs => ⟨(getUTC_spec hs).1, rfl, getTAISec_getUTC hs⟩, fun u hu => ?_⟩
  have hback := getUTC_getTAISec hu
  refine ⟨hback, fun hweek => hback.trans ?_⟩
  rw [← hweek]

/-- The last second of the century, on a Thursday. -/
def lastSecond : MeshUTC := ⟨2099, 12, 31, 23, 59, 59, 3⟩

theorem lastSecond_valid : lastSecond.Valid := isValidUTC_iff.mp rfl

theorem calendar_roundTrip_last :
    (getUTC 3155759999 = lastSecond ∧ getTAISec (getUTC 3155759999) = 3155759999) ∧
      getUTC (getTAISec lastSecond) = lastSecond :=
  ⟨⟨by decide +kernel, (calendar_roundTrip.1 3155759999 (by decide)).2.2⟩,
    (calendar_roundTrip.2 lastSecond lastSecond_valid).2 (by decide +kernel)⟩

end PirMesh
