import Mathlib.Data.Int.Init
import ProjectSensor.Library.Gregorian

/-!
# `gmtime_r` and `mktime`

`gmtime_r` counts the years up and takes the leap day out before it looks for the month; `mktime`
has a closed formula.  A `time_t` is an unsigned word of 64 bits.  The fields of `struct tm` are of
type `int`: a number out of its range is cut down where it is converted, and has no meaning where
it is the result of an operation on `int`.
-/

open ProjectSensor.Library.Gregorian

namespace ProjectSensor.Api

/-- `struct tm`. -/
structure Tm where
  tmSec : ℤ
  tmMin : ℤ
  tmHour : ℤ
  tmMday : ℤ
  tmMon : ℤ
  tmYear : ℤ
  tmWday : ℤ
  tmYday : ℤ
  deriving DecidableEq

/-- `__spm`. -/
def spm : List ℕ :=
  [0, 31, 31 + 28, 31 + 28 + 31, 31 + 28 + 31 + 30, 31 + 28 + 31 + 30 + 31,
    31 + 28 + 31 + 30 + 31 + 30, 31 + 28 + 31 + 30 + 31 + 30 + 31,
    31 + 28 + 31 + 30 + 31 + 30 + 31 + 31, 31 + 28 + 31 + 30 + 31 + 30 + 31 + 31 + 30,
    31 + 28 + 31 + 30 + 31 + 30 + 31 + 31 + 30 + 31,
    31 + 28 + 31 + 30 + 31 + 30 + 31 + 31 + 30 + 31 + 30,
    31 + 28 + 31 + 30 + 31 + 30 + 31 + 31 + 30 + 31 + 30 + 31]

/-- `TM_YEAR_BASE`. -/
def tmYearBase : ℤ := 1900

/-- A number converted to `int`. -/
def toInt (n : ℤ) : ℤ := n.bmod (2 ^ 32)

/-- The result of an operation on `int`, if it is in range. -/
def checkedInt (n : ℤ) : Option ℤ := if -2 ^ 31 ≤ n ∧ n < 2 ^ 31 then some n else none

/-- `__isleap`. -/
def isleap (year : ℤ) : Bool :=
  year.tmod 4 = 0 && (year.tmod 100 ≠ 0 || year.tmod 400 = 0)

/-! ### `gmtime_r` -/

/-- `k` of the loop over the years. -/
@[irreducible]
def daysOf (i : ℕ) : ℕ := if isleap (toInt i) then 366 else 365

theorem daysOf_pos (i : ℕ) : 0 < daysOf i := by
  unfold daysOf
  split <;> decide

/-- The loop over the years. -/
def yearLoop (i work : ℕ) : ℕ × ℕ :=
  if daysOf i ≤ work then yearLoop (i + 1) (work - daysOf i) else (i, work)
termination_by work
decreasing_by
  have hpos := daysOf_pos i
  omega

/-- The loop over the months, from the last one down. -/
def monthLoop (work : ℕ) : ℕ → ℕ
  | 0 => 0
  | i + 1 => if work < spm.getD (i + 1) 0 then monthLoop work i else i + 1

/-- Month and day of the month of a day of the year. -/
def monthDay (leap : Bool) (work : ℕ) : ℕ × ℕ :=
  let tmMday := if leap && 58 < work then if work = 59 then 2 else 1 else 1
  let work := if leap && 58 < work then work - 1 else work
  let i := monthLoop work 11
  (i, tmMday + (work - spm.getD i 0))

def gmtimeR (timep : BitVec 64) : Tm :=
  let work := timep.toNat % (24 * 60 * 60)
  let tmSec := work % 60
  let work := work / 60
  let tmMin := work % 60
  let tmHour := work / 60
  let work := timep.toNat / (24 * 60 * 60)
  let tmWday := (4 + work) % 7
  let (i, work) := yearLoop 1970 work
  let (tmMon, tmMday) := monthDay (isleap (toInt i)) work
  { tmSec := tmSec, tmMin := tmMin, tmHour := tmHour, tmMday := tmMday, tmMon := tmMon
    tmYear := toInt (i - tmYearBase), tmWday := tmWday, tmYday := work }

/-! ### `mktime` -/

/-- Seconds, minutes, hours and months in excess, carried as the source carries them. -/
def carry (t : Tm) : Option Tm := do
  let t ←
    if 60 < t.tmSec then do
      let tmMin ← checkedInt (t.tmMin + t.tmSec.tdiv 60)
      pure { t with tmMin := tmMin, tmSec := t.tmSec.tmod 60 }
    else pure t
  let t ←
    if 60 < t.tmMin then do
      let tmHour ← checkedInt (t.tmHour + t.tmMin.tdiv 60)
      pure { t with tmHour := tmHour, tmMin := t.tmMin.tmod 60 }
    else pure t
  let t ←
    if 24 < t.tmHour then do
      let tmMday ← checkedInt (t.tmMday + t.tmHour.tdiv 24)
      pure { t with tmMday := tmMday, tmHour := t.tmHour.tmod 24 }
    else pure t
  if 12 < t.tmMon then do
    let tmYear ← checkedInt (t.tmYear + t.tmMon.tdiv 12)
    pure { t with tmYear := tmYear, tmMon := t.tmMon.tmod 12 }
  else pure t

/-- One pass of the loop over the months. -/
def monthPass (t : Tm) : Option Tm := do
  let leap ← if t.tmMon = 1 then isleap <$> checkedInt (t.tmYear + tmYearBase) else pure false
  let tmMday := (if leap then t.tmMday - 1 else t.tmMday) - spm.getD t.tmMon.toNat 0
  if 11 < t.tmMon + 1 then do
    let tmYear ← checkedInt (t.tmYear + 1)
    pure { t with tmMday := tmMday, tmMon := 0, tmYear := tmYear }
  else pure { t with tmMday := tmMday, tmMon := t.tmMon + 1 }

/-- The loop over the months; it reads outside `__spm` when the month is none.  Of two passes one
takes 31 days or more off. -/
def monthPasses : ℕ → Tm → Option Tm
  | 0, _ => none
  | passes + 1, t =>
      if 0 ≤ t.tmMon ∧ t.tmMon ≤ 11 then
        if spm.getD (1 + t.tmMon).toNat 0 < t.tmMday then monthPass t >>= monthPasses passes
        else some t
      else none

/-- The days before the year, by the formula. -/
def dayOfYears (years : BitVec 64) : BitVec 64 :=
  let day := years * 365 + (years + 1) / 4
  if 131 ≤ years then
    let years := (years - 131) / 100
    let day := day - ((years >>> 2) * 3 + 1)
    let years := years &&& 3
    let years := if years = 3 then years - 1 else years
    day - years
  else day

/-- `mktime`: the time and the fields as it leaves them. -/
def mktime (t : Tm) : Option (BitVec 64 × Tm) := do
  let years := BitVec.ofInt 64 (← checkedInt (t.tmYear - 70))
  let t ← carry t
  let t ← monthPasses (2 * t.tmMday.toNat + 1) t
  if t.tmYear < 70 then pure (-1, t)
  else do
    let leap := isleap (← checkedInt (t.tmYear + tmYearBase))
    let tmYday := spm.getD t.tmMon.toNat 0 + t.tmMday - 1 + (if leap && 1 < t.tmMon then 1 else 0)
    let day := dayOfYears years + BitVec.ofInt 64 tmYday
    let t := { t with tmYday := tmYday, tmWday := ((day + 4) % 7).toNat }
    pure (((day * 24 + BitVec.ofInt 64 t.tmHour) * 60 + BitVec.ofInt 64 t.tmMin) * 60 +
      BitVec.ofInt 64 t.tmSec, t)

end ProjectSensor.Api
