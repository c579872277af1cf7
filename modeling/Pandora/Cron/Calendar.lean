import Pandora.Lib.Checked
import Pandora.Lib.MachineInts

/-! # Dates and the search for the next run

The calendar functions of `cron_engine.rs` and the search of a five-field schedule. `/` and `%` of
the source truncate (`Int.tdiv`, `Int.tmod`), `div_euclid` and `rem_euclid` are `/` and `%` of Lean.
Each operation on machine integers that can leave its type is one application of `IntType.arith`;
those on the day number of a 64-bit timestamp cannot.

The loop of `next_run_after` reads and writes one 64-bit number. After `2 ^ 64` rounds it has had
one value twice and never ends, so with that much fuel a search that runs out of it hangs. -/

namespace Pandora.Cron

open Lib.MachineInts

inductive CronError
  | invalidSchedule (message : String)
  | jobNotFound (name : String)
  | duplicateJobName (name : String)
deriving DecidableEq

/-- What a call of the cron engine gives. -/
abbrev Outcome := Except (Fault CronError)

section

variable (checks : Bool)

def u32 (x : ℤ) : Outcome ℤ := IntType.u32.arith checks x
def i32 (x : ℤ) : Outcome ℤ := IntType.i32.arith checks x
def i64 (x : ℤ) : Outcome ℤ := IntType.i64.arith checks x

/-- Year, month and day of a day number. -/
def civilFromDays (days : ℤ) : Outcome (ℤ × ℤ × ℤ) := do
  let z := days + 719468
  let era := (if 0 ≤ z then z else z - 146096).tdiv 146097
  let doe := IntType.u32.wrap (z - era * 146097)
  -- yoe = (doe - doe / 1024 + doe / 1461 - doe / 142401) / 365
  let yoe ← u32 checks (doe - doe / 1024)
  let yoe ← u32 checks (yoe + doe / 1461)
  let yoe ← u32 checks (yoe - doe / 142401)
  let yoe := yoe / 365
  let y ← i32 checks (IntType.i32.wrap era * 400)
  let y ← i32 checks (IntType.i32.wrap yoe + y)
  -- doy = doe - (365 * yoe + yoe / 4 - yoe / 100)
  let doy ← u32 checks (365 * yoe)
  let doy ← u32 checks (doy + yoe / 4)
  let doy ← u32 checks (doy - yoe / 100)
  let doy ← u32 checks (doe - doy)
  -- mp = (5 * doy + 2) / 153
  let mp ← u32 checks (5 * doy)
  let mp ← u32 checks (mp + 2)
  let mp := mp / 153
  -- d = doy - (153 * mp + 2) / 5 + 1
  let d ← u32 checks (153 * mp)
  let d ← u32 checks (d + 2)
  let d ← u32 checks (doy - d / 5)
  let d ← u32 checks (d + 1)
  let m ← if mp < 10 then u32 checks (mp + 3) else u32 checks (mp - 9)
  let y ← if m ≤ 2 then i32 checks (y + 1) else pure y
  pure (y, m, d)

/-- The day number of a date. -/
def daysFromCivil (y m d : ℤ) : Outcome ℤ := do
  let y ← if m ≤ 2 then i32 checks (y - 1) else pure y
  let era ← if 0 ≤ y then pure y else i32 checks (y - 399)
  let era := era.tdiv 400
  let yoe := IntType.u32.wrap (y - era * 400)
  -- doy = (153 * (if m > 2 { m - 3 } else { m + 9 }) + 2) / 5 + d - 1
  let doy ← if 2 < m then u32 checks (m - 3) else u32 checks (m + 9)
  let doy ← u32 checks (153 * doy)
  let doy ← u32 checks (doy + 2)
  let doy ← u32 checks (doy / 5 + d)
  let doy ← u32 checks (doy - 1)
  -- doe = yoe * 365 + yoe / 4 - yoe / 100 + doy
  let doe ← u32 checks (yoe * 365)
  let doe ← u32 checks (doe + yoe / 4)
  let doe ← u32 checks (doe - yoe / 100)
  let doe ← u32 checks (doe + doy)
  pure (era * 146097 + doe - 719468)

/-- A date and time in UTC; `dow` counts from Sunday. -/
structure DateTime where
  (year month day hour minute dow : ℤ)
deriving DecidableEq

def utcDatetimeFromTimestamp (timestamp : ℤ) : Outcome DateTime := do
  let days := timestamp / 86400
  let remSecs := timestamp % 86400
  let (year, month, day) ← civilFromDays checks days
  pure ⟨year, month, day, remSecs / 3600, remSecs % 3600 / 60, (days + 4) % 7⟩

def nextDailyOccurrence (now hour minute : ℤ) : Outcome ℤ := do
  let current ← utcDatetimeFromTimestamp checks now
  let todayTargetSecs := hour * 3600 + minute * 60
  let currSecsOfDay := current.hour * 3600 + current.minute * 60 + now.tmod 60
  let daysOffset : ℤ := if currSecsOfDay < todayTargetSecs then 0 else 1
  let startOfToday := now - now.tmod 86400
  let day ← i64 checks (startOfToday + daysOffset * 86400)
  i64 checks (day + todayTargetSecs)

def advanceToNextMonth (candidate : ℤ) : Outcome ℤ := do
  let date ← utcDatetimeFromTimestamp checks candidate
  let (nextY, nextM) ← if date.month = 12 then do
      let y ← i32 checks (date.year + 1)
      pure (y, 1)
    else do
      let m ← u32 checks (date.month + 1)
      pure (date.year, m)
  let days ← daysFromCivil checks nextY nextM 1
  i64 checks (days * 86400)

/-- The values that each of the five fields allows. -/
structure CronFieldMatcher where
  (minutes hours daysOfMonth months daysOfWeek : List ℤ)
deriving DecidableEq

namespace CronFieldMatcher

variable (matcher : CronFieldMatcher)

def dowMatch (dow : ℤ) : Bool :=
  dow ∈ matcher.daysOfWeek ∨ (dow = 0 ∧ 7 ∈ matcher.daysOfWeek) ∨ (dow = 7 ∧ 0 ∈ matcher.daysOfWeek)

/-- One round of the search: the candidate matches, or the next candidate. -/
def advance (candidate : ℤ) : Outcome (Option ℤ) := do
  let date ← utcDatetimeFromTimestamp checks candidate
  if date.month ∉ matcher.months then
    some <$> advanceToNextMonth checks candidate
  else if date.day ∉ matcher.daysOfMonth ∨ ¬ matcher.dowMatch date.dow then do
    let day ← i64 checks ((candidate.tdiv 86400 + 1) * 86400)
    pure (some day)
  else if date.hour ∉ matcher.hours then do
    let hour ← i64 checks ((candidate.tdiv 3600 + 1) * 3600)
    pure (some hour)
  else if date.minute ∈ matcher.minutes then pure none
  else do
    let minute ← i64 checks (candidate + 60)
    pure (some minute)

/-- The loop of the search. -/
def search : ℕ → (candidate maxSearch : ℤ) → Outcome ℤ
  | 0, _, _ => .error .hang
  | fuel + 1, candidate, maxSearch =>
    if candidate < maxSearch then do
      match ← matcher.advance checks candidate with
      | none => pure candidate
      | some next => search fuel next maxSearch
    else .error (.error (.invalidSchedule "no matching cron time found within 366 days"))

/-- The next matching minute after `now`, within 366 days. -/
def nextRunAfter (now : ℤ) : Outcome ℤ := do
  let candidate ← i64 checks ((now.tdiv 60 + 1) * 60)
  let maxSearch ← i64 checks (candidate + 366 * 86400)
  matcher.search checks (2 ^ 64) candidate maxSearch

end CronFieldMatcher

end

end Pandora.Cron
