import Mathlib.Algebra.GroupWithZero.Nat

/-! # Time — Calendar

`time_model.c`: the UTC date of a TAI second (`getUTC`) and the TAI second of a
UTC date (`getTAISec`).  The two are written independently: one divides its way
down to the year and walks over the months, the other adds up the years and has
a table of the months. -/

namespace PirMesh

def yearBase : Nat := 2000

/-- 2000-01-01 is a Saturday; 0 is Monday. -/
def weekBase : Nat := 6 - 1

def yearMax : Nat := yearBase + 100

def taiSecondMax : Nat := 0xbc191380

def secondOneDay : Nat := 60 * 60 * 24

/-- `mesh_UTC_t` -/
structure MeshUTC where
  year : Nat
  month : Nat
  day : Nat
  hour : Nat
  minute : Nat
  second : Nat
  week : Nat
  deriving DecidableEq, Repr

def isLeapYear (year : Nat) : Bool := (year % 4 = 0 ∧ year % 100 ≠ 0) ∨ year % 400 = 0

def days400Year : Nat := 400 * 365 + 400 / 4 - 4 + 1

def days100Year (leap : Bool) : Nat := 100 * 365 + 100 / 4 - (if leap then 0 else 1)

def days4Year (leap : Bool) : Nat := 4 * 365 + (if leap then 1 else 0)

def days1Year (leap : Bool) : Nat := 1 * 365 + (if leap then 1 else 0)

def daysByMonth : List Nat := [31, 28, 31, 30, 31, 30, 31, 31, 30, 31, 30, 31]

def getDaysByMonth (leapYear : Bool) (month : Nat) : Nat :=
  if leapYear ∧ month = 2 then 29 else daysByMonth.getD (month - 1) 0

def getDaysOneMonth (year month : Nat) : Nat := getDaysByMonth (isLeapYear year) month

def isValidUTC (u : MeshUTC) : Bool :=
  let days := getDaysByMonth (isLeapYear u.year) u.month
  ¬ ((u.year < yearBase ∨ u.year ≥ yearMax) ∨ (u.month = 0 ∨ u.month > 12) ∨
    (u.day = 0 ∨ u.day > days) ∨ u.hour ≥ 24 ∨ u.minute ≥ 60 ∨ u.second ≥ 60)

/-! ### From seconds to the date -/

/-- The part of `get_UTC` that finds the year: returns it with the days that are left. -/
def utcYear (countDays : Nat) : Nat × Nat :=
  let (y, countDays) :=
    if countDays ≥ days400Year then
      (yearBase + countDays / days400Year * 400, countDays % days400Year)
    else (yearBase, countDays)
  let (y, countDays, leap100Flag) :=
    if countDays ≥ days100Year true then
      (y + (countDays - 1) / days100Year false * 100, (countDays - 1) % days100Year false, false)
    else (y, countDays, true)
  let (y, countDays, flag03Year) :=
    if countDays ≥ days4Year leap100Flag then
      let temp := countDays + (if leap100Flag then 0 else 1)
      (y + temp / days4Year true * 4, temp % days4Year true, false)
    else (y, countDays, true)
  let leap4 := leap100Flag || !flag03Year
  if countDays ≥ days1Year leap4 then
    let (y, countDays) := if leap4 then (y + 1, countDays - days1Year true) else (y, countDays)
    if countDays ≥ days1Year false then
      (y + countDays / days1Year false * 1, countDays % days1Year false)
    else (y, countDays)
  else (y, countDays)

/-- The loop over the months, with the turns left: returns the month with the days that are left. -/
def utcMonth (y : Nat) : Nat → Nat → Nat → Nat × Nat
  | 0, countDays, m => (m, countDays)
  | n + 1, countDays, m =>
    if countDays ≠ 0 then
      if countDays ≥ getDaysByMonth (isLeapYear y) m then
        utcMonth y n (countDays - getDaysByMonth (isLeapYear y) m) (m + 1)
      else (m, countDays)
    else (m, countDays)

/-- Year, month, and days before the day, of a day since 2000-01-01. -/
def utcDate (countDays : Nat) : Nat × Nat × Nat :=
  let (y, countDays) := utcYear countDays
  let (m, countDays) := utcMonth y 12 countDays 1
  (y, m, countDays)

def getUTC (second : Nat) : MeshUTC :=
  let countDays := second / (3600 * 24)
  let (y, m, d) := utcDate countDays
  { year := y
    month := m
    day := d + 1
    hour := second / 3600 % 24
    minute := second / 60 % 60
    second := second % 60
    week := (countDays + weekBase) % 7 }

/-! ### From the date to seconds -/

/-- The part of `get_TAI_sec` that adds up the years. -/
def taiYear (cyear : Nat) : Nat :=
  let (cyear, cday) :=
    if cyear ≥ 400 then (cyear - cyear / 400 * 400, cyear / 400 * days400Year) else (cyear, 0)
  let (cyear, cday, leap100Flag) :=
    if cyear ≥ 100 then
      (cyear - cyear / 100 * 100, cday + (cyear / 100 * days100Year false + 1), false)
    else (cyear, cday, true)
  let (cyear, cday, flag03Year) :=
    if cyear ≥ 4 then
      (cyear - cyear / 4 * 4,
        cday + (cyear / 4 * days4Year true - (if leap100Flag then 0 else 1)), false)
    else (cyear, cday, true)
  if cyear > 0 then
    cday + (cyear * days1Year false + 1 - (if !leap100Flag && flag03Year then 1 else 0))
  else cday

/-- The days of the months before, in a year that is not a leap year. -/
def curmonthday : Nat → Nat
  | 2 => 31
  | 3 => 59
  | 4 => 90
  | 5 => 120
  | 6 => 151
  | 7 => 181
  | 8 => 212
  | 9 => 243
  | 10 => 273
  | 11 => 304
  | 12 => 334
  | _ => 0

def getTAISec (u : MeshUTC) : Nat :=
  if isValidUTC u then
    let cday := taiYear (u.year - yearBase)
    let monthday := curmonthday u.month + (if isLeapYear u.year ∧ u.month ≥ 3 then 1 else 0)
    let cday := cday + monthday + (u.day - 1)
    ((cday * 24 + u.hour) * 60 + u.minute) * 60 + u.second
  else 0

end PirMesh
