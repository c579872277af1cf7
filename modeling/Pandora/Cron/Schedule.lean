import Pandora.Text
import Pandora.Cron.Calendar
import Pandora.Lib.OrderedSets

/-! # Schedule expressions

`CronSchedule::parse` reads a schedule from its text and computes the first time after `now`. The
schedule depends on the text alone (`readSchedule`); the time of a delay or an interval always
exists, that of a daily or a five-field schedule may not (`firstRun`).

The lower case of a text follows the Unicode tables of the standard library, which are a parameter
(`CronEnv`), as are the hash that names a job and whether the build checks for overflows. -/

namespace Pandora.Cron

open Text Lib.Checked Lib.MachineInts Lib.OrderedSets

/-- What the engine takes from outside. -/
structure CronEnv where
  overflowChecks : Bool
  toLowercase : String → String
  sha256 : Sha256

inductive CronSchedule
  | delay (secs : ℕ)
  | interval (secs : ℕ)
  | daily (hour minute : ℕ)
  | cronExpr (matcher : CronFieldMatcher)
deriving DecidableEq

/-! ### Texts -/

/-- `str::to_ascii_lowercase`. -/
def toAsciiLowercase (text : String) : String := .ofList (text.toList.map Char.toLower)

/-- `str::split`, at every occurrence of a character. -/
def splitAt (separator : Char) (text : String) : List String :=
  (text.toList.splitOn separator).map String.ofList

/-- `str::split_once`. -/
def splitOnce (separator : Char) (text : String) : Option (String × String) :=
  match text.toList.dropWhile (· ≠ separator) with
  | _ :: rest => some (.ofList (text.toList.takeWhile (· ≠ separator)), .ofList rest)
  | [] => none

/-- `str::split_whitespace`. -/
def splitWhitespace (text : String) : List String :=
  ((text.toList.splitOnP isWhitespace).filter (· ≠ [])).map String.ofList

def parseU32 (text : String) : Option ℕ := parseUnsigned 32 text

/-! ### Durations and times -/

def unitSeconds (unit : String) : Option ℕ :=
  if unit ∈ ["s", "sec", "second", "seconds"] then some 1
  else if unit ∈ ["m", "min", "minute", "minutes"] then some 60
  else if unit ∈ ["h", "hr", "hour", "hours"] then some 3600
  else if unit ∈ ["d", "day", "days"] then some 86400
  else if unit ∈ ["w", "week", "weeks"] then some (7 * 86400)
  else none

def parseDurationSeconds (text : String) : Except CronError ℕ := do
  let s := trim text
  let digits := s.toList.takeWhile Char.isDigit
  ensure (digits ≠ []) (.invalidSchedule ("invalid duration '" ++ s ++ "'"))
  let num ← orError (parseUnsigned 64 (.ofList digits))
    (.invalidSchedule ("invalid number in duration '" ++ s ++ "'"))
  let unit := toAsciiLowercase (trim (.ofList (s.toList.drop digits.length)))
  let multiplier ← orError (unitSeconds unit)
    (.invalidSchedule ("unknown duration unit '" ++ unit ++ "' in '" ++ s ++ "'"))
  pure (min (num * multiplier) (2 ^ 64 - 1))

def parseHhMm (s : String) : Except CronError (ℕ × ℕ) := do
  match splitAt ':' s with
  | [hour, minute] =>
    let h ← orError (parseU32 (trim hour)) (.invalidSchedule ("invalid hour in '" ++ s ++ "'"))
    let m ← orError (parseU32 (trim minute)) (.invalidSchedule ("invalid minute in '" ++ s ++ "'"))
    ensure (h ≤ 23 ∧ m ≤ 59)
      (.invalidSchedule ("hour (0-23) or minute (0-59) out of range in '" ++ s ++ "'"))
    pure (h, m)
  | _ => throw (.invalidSchedule ("expected HH:MM, got '" ++ s ++ "'"))

/-! ### Five-field schedules -/

/-- The values from `min` to `max`, `step` apart. -/
def valuesBetween (min max step : ℕ) : List ℕ :=
  ((List.range (max + 1 - min)).filter fun i => i % step = 0).map (min + ·)

/-- One item of a list: a value or a range. -/
def parseCronItem (min max : ℕ) (item : String) : Except CronError (List ℕ) := do
  let part := trim item
  match splitOnce '-' part with
  | some (startText, endText) =>
    let start ← orError (parseU32 startText)
      (.invalidSchedule ("invalid range start in '" ++ part ++ "'"))
    let stop ← orError (parseU32 endText)
      (.invalidSchedule ("invalid range end in '" ++ part ++ "'"))
    ensure (min ≤ start ∧ stop ≤ max ∧ start ≤ stop)
      (.invalidSchedule ("range " ++ toString start ++ "-" ++ toString stop ++ " out of bounds [" ++
        toString min ++ "-" ++ toString max ++ "] in '" ++ part ++ "'"))
    pure (valuesBetween start stop 1)
  | none =>
    let val ← orError (parseU32 part) (.invalidSchedule ("invalid cron value '" ++ part ++ "'"))
    ensure (min ≤ val ∧ val ≤ max)
      (.invalidSchedule ("value " ++ toString val ++ " out of bounds [" ++ toString min ++ "-" ++
        toString max ++ "] in '" ++ part ++ "'"))
    pure [val]

def parseCronField (text : String) (min max : ℕ) : Except CronError (List ℤ) := do
  let field := trim text
  if field = "*" then pure ((valuesBetween min max 1).map Nat.cast)
  else match strip "*/" field with
    | some stepText =>
      let step ← orError (parseU32 stepText)
        (.invalidSchedule ("invalid step in '" ++ field ++ "'"))
      ensure (step ≠ 0) (.invalidSchedule "cron step cannot be 0")
      pure ((valuesBetween min max step).map Nat.cast)
    | none =>
      let values ← (splitAt ',' field).mapM (parseCronItem min max)
      pure ((OrderedSet.ofList values.flatten).elems.map Nat.cast)

def parse5FieldCron (parts : List String) : Except CronError CronFieldMatcher := do
  match parts with
  | [minute, hour, dayOfMonth, month, dayOfWeek] =>
    let minutes ← parseCronField minute 0 59
    let hours ← parseCronField hour 0 23
    let daysOfMonth ← parseCronField dayOfMonth 1 31
    let months ← parseCronField month 1 12
    let daysOfWeek ← parseCronField dayOfWeek 0 7
    pure ⟨minutes, hours, daysOfMonth, months, daysOfWeek⟩
  | _ => throw (.invalidSchedule "5 fields required for cron")

/-! ### Parsing -/

/-- The schedules that begin with `every`; a text that is none of them is tried further. -/
def readEvery (lower : String) : Option (Except CronError CronSchedule) :=
  match strip "every " lower with
  | none => none
  | some text =>
    let rest := trim text
    if rest = "day" then some (.ok (.interval 86400))
    else if rest = "hour" then some (.ok (.interval 3600))
    else if rest = "minute" then some (.ok (.interval 60))
    else match strip "day at " rest with
      | some time => some ((fun t => .daily t.1 t.2) <$> parseHhMm (trim time))
      | none =>
        match parseDurationSeconds rest with
        | .ok secs => some (.ok (.interval secs))
        | .error _ => none

/-- The schedule of a text. -/
def readSchedule (env : CronEnv) (expr : String) : Except CronError CronSchedule := do
  let trimmed := trim expr
  ensure (¬ trimmed.isEmpty) (.invalidSchedule "empty schedule expression")
  let lower := env.toLowercase trimmed
  match strip "in " lower with
  | some rest => CronSchedule.delay <$> parseDurationSeconds (trim rest)
  | none =>
    match readEvery lower with
    | some schedule => schedule
    | none =>
      match strip "daily at " lower with
      | some time => (fun t => CronSchedule.daily t.1 t.2) <$> parseHhMm (trim time)
      | none =>
        if lower = "hourly" then pure (.interval 3600)
        else if (splitWhitespace trimmed).length = 5 then
          CronSchedule.cronExpr <$> parse5FieldCron (splitWhitespace trimmed)
        else throw (.invalidSchedule ("unsupported schedule format '" ++ expr ++
          "' (supported: 'in 30m', 'every 2h', 'daily at 09:00', or '0 9 * * *')"))

namespace CronSchedule

/-- The first time after `now`. -/
def firstRun (env : CronEnv) (now : ℤ) : CronSchedule → Outcome ℤ
  | delay secs => .ok (saturateI64 (now + IntType.i64.wrap secs))
  | interval secs => .ok (saturateI64 (now + IntType.i64.wrap secs))
  | daily hour minute => nextDailyOccurrence env.overflowChecks now hour minute
  | cronExpr matcher => matcher.nextRunAfter env.overflowChecks now

def isOneShot : CronSchedule → Bool
  | delay _ => true
  | _ => false

def parse (env : CronEnv) (expr : String) (now : ℤ) : Outcome (CronSchedule × ℤ × Bool) := do
  let schedule ← lift (readSchedule env expr)
  let nextRun ← schedule.firstRun env now
  pure (schedule, nextRun, schedule.isOneShot)

def computeNextRun (env : CronEnv) (now : ℤ) : CronSchedule → Outcome (Option ℤ)
  | delay _ => .ok none
  | schedule => some <$> schedule.firstRun env now

end CronSchedule

end Pandora.Cron
