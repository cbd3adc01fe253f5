/-
Triggers.lean

When a schedule fires next.  An interval schedule fires some seconds after it last
fired; a cron schedule at the first minute after now, by its own wall clock, that all
five fields of its expression match, if there is one within 366 days.

Both computations read configuration that no one has parsed before, and raise on it.  They
raise as well where they compare a stored time without a zone with the present.
An instant here counts microseconds from the first day of the year 1, which was a
Monday, up to the last day of the year 9999.  The time zone database is a parameter.
-/
import OpenAgency.Domain.Schedule

namespace OpenAgency

/-- `s.split()`. -/
def splitWords (s : String) : List String :=
  ((s.toList.splitOnP isStripSpace).filter (!·.isEmpty)).map String.ofList

/-! ### Calendar -/

def minute : Time := seconds 60

def hour : Time := 60 * minute

def day : Time := 24 * hour

/-- The first instant after the year 9999. -/
def maxTime : Time := 3652059 * day

/-- `t + d`. -/
def addToTime (t : Time) (d : ℤ) : Except RuntimeException Time :=
  if 0 ≤ (t : ℤ) + d ∧ (t : ℤ) + d < maxTime then .ok ((t : ℤ) + d).toNat
  else .error ⟨.overflowError, "date value out of range"⟩

/-- The month and the day of the month of a day, counted from the first of March of the
year 0 in periods of 400 years. -/
def monthDay (n : ℕ) : ℕ × ℕ :=
  let dayOfEra := (n + 306) % 146097
  let yearOfEra := (dayOfEra - dayOfEra / 1460 + dayOfEra / 36524 - dayOfEra / 146096) / 365
  let dayOfYear := dayOfEra - (365 * yearOfEra + yearOfEra / 4 - yearOfEra / 100)
  let m := (5 * dayOfYear + 2) / 153
  (if m < 10 then m + 3 else m - 9, dayOfYear - (153 * m + 2) / 5 + 1)

/-- `datetime.weekday()`, where Monday is 0. -/
def weekday (t : Time) : ℕ := t / day % 7

/-- A time zone: its offset at an instant, and its offset at a wall-clock time.  A time that the
clock shows, be it twice, is read as the first instant at which it does. -/
structure ZoneInfo where
  offsetAt : Time → ℤ
  utcoffset : Time → ℤ
  reads_first : ∀ {u w : Time}, (u : ℤ) + offsetAt u = w →
    ∃ r ≤ u, (r : ℤ) = w - utcoffset w ∧ (r : ℤ) + offsetAt r = w

def ZoneInfo.utc : ZoneInfo where
  offsetAt _ := 0
  utcoffset _ := 0
  reads_first {u w} h := ⟨u, le_rfl, by omega, h⟩

/-- What `ZoneInfo(key)` does. -/
inductive ZoneLookup where
  | found (zone : ZoneInfo)
  | notFound
  | error (e : RuntimeException)

/-! ### Cron -/

/-- `_match_field` on an expression without a comma. -/
def matchPart (value : ℕ) (expr : List Char) (minimum : ℕ) : Except RuntimeException Bool :=
  match expr with
  | ['*'] => .ok true
  | '*' :: '/' :: rest => do
    let step ← pyInt (String.ofList rest)
    if step = 0 then .error ⟨.zeroDivisionError, "integer modulo by zero"⟩
    else .ok (((value : ℤ) - minimum) % step = 0)
  | cs => do
    let n ← pyInt (String.ofList cs)
    .ok (value = n)

/-- `any` over the parts of a list; a part after one that matches is not looked at. -/
def matchAny (value : ℕ) (minimum : ℕ) : List (List Char) → Except RuntimeException Bool
  | [] => .ok false
  | part :: parts => do
    if ← matchPart value (strip (String.ofList part)).toList minimum then .ok true
    else matchAny value minimum parts

/-- `_match_field`. -/
def matchField (value : ℕ) (expr : String) (minimum : ℕ) : Except RuntimeException Bool :=
  match expr.toList with
  | '*' :: '/' :: rest => matchPart value ('*' :: '/' :: rest) minimum
  | cs => if ',' ∈ cs then matchAny value minimum (cs.splitOn ',') else matchPart value cs minimum

/-- The fields of a cron expression. -/
structure CronFields where
  minute : String
  hour : String
  day : String
  month : String
  weekday : String

/-- The unpacking of `cron_expression.split()`. -/
def CronFields.ofExpression (expression : String) : Except RuntimeException CronFields :=
  match splitWords expression with
  | [minute, hour, day, month, weekday] => .ok ⟨minute, hour, day, month, weekday⟩
  | words =>
    if words.length < 5 then .error ⟨.valueError,
      s!"not enough values to unpack (expected 5, got {words.length})"⟩
    else .error ⟨.valueError, "too many values to unpack (expected 5)"⟩

/-- All five fields match the wall-clock time; after one that does not, the rest is not
looked at. -/
def CronFields.matchAt (f : CronFields) (t : Time) : Except RuntimeException Bool := do
  if !(← matchField (t / OpenAgency.minute % 60) f.minute 0) then return false
  if !(← matchField (t / OpenAgency.hour % 24) f.hour 0) then return false
  if !(← matchField (monthDay (t / OpenAgency.day)).2 f.day 1) then return false
  if !(← matchField (monthDay (t / OpenAgency.day)).1 f.month 1) then return false
  matchField ((OpenAgency.weekday t + 1) % 7) f.weekday 0

/-- The loop of `next_cron_fire` at one candidate, with the minutes that are left after it. -/
def searchCron (f : CronFields) (zone : ZoneInfo) (expression : String) :
    ℕ → Time → Except RuntimeException Time
  | left, candidate => do
    if ← f.matchAt candidate then addToTime candidate (-zone.utcoffset candidate)
    else
      let candidate ← addToTime candidate minute
      match left with
      | 0 => .error ⟨.valueError, s!"Unable to compute next fire time for cron '{expression}'"⟩
      | left + 1 => searchCron f zone expression left candidate

/-- `next_cron_fire`. -/
def nextCronFire (zoneInfo : String → ZoneLookup) (expression : String) (now : Time)
    (timezoneName : String) : Except RuntimeException Time := do
  let fields ← CronFields.ofExpression expression
  let zone ← match zoneInfo timezoneName with
    | .found zone => .ok zone
    | .notFound => .ok ZoneInfo.utc
    | .error e => .error e
  let localNow ← addToTime now (zone.offsetAt now)
  let candidate ← addToTime (localNow - localNow % minute) minute
  let _ ← addToTime candidate (366 * day)
  searchCron fields zone expression (366 * 24 * 60) candidate

/-! ### The next fire -/

/-- `t <= now`, where `now` has a zone. -/
def Datetime.leNow (t : Datetime) (now : Time) : Except RuntimeException Bool :=
  if t.naive then .error ⟨.typeError, "can't compare offset-naive and offset-aware datetimes"⟩
  else .ok (t.ensureUtc ≤ now)

/-- `t + d`, which has a zone if `t` has one. -/
def Datetime.add (t : Datetime) (d : ℤ) : Except RuntimeException Datetime := do
  let sum ← addToTime t.ensureUtc d
  return { t with ensureUtc := sum }

structure TriggerComputation where
  nextFireAt : Option Datetime
  ready : Bool
  deriving DecidableEq

/-- `compute_next_fire`. -/
def computeNextFire (zoneInfo : String → ZoneLookup) (schedule : ScheduleFields) (now : Time) :
    Except RuntimeException TriggerComputation :=
  if !schedule.enabled then .ok ⟨none, false⟩
  else
    match schedule.triggerType with
    | .manual => .ok ⟨none, false⟩
    | .cron =>
      match schedule.triggerConfig.get? "cron" with
      | none => .error ⟨.keyError, "'cron'"⟩
      | some (.str expression) => do
        let nextFire ← nextCronFire zoneInfo expression now schedule.timezone
        let ready ← match schedule.nextFireAt with
          | none => .ok false
          | some next => next.leNow now
        return ⟨some nextFire, ready⟩
      | some _ => .error ⟨.attributeError, "object has no attribute 'split'"⟩
    | .interval =>
      match schedule.triggerConfig.get? "interval_seconds" with
      | none => .error ⟨.keyError, "'interval_seconds'"⟩
      | some value => do
        let intervalSeconds ← value.toInt
        let nextFire ← match schedule.lastFireAt with
          | none => .ok (schedule.nextFireAt.getD now)
          | some last => last.add (intervalSeconds * seconds 1)
        let ready ← nextFire.leNow now
        return ⟨some nextFire, ready⟩
    | _ => .ok ⟨schedule.nextFireAt, false⟩

end OpenAgency
