import Pandora.Cron.Schedule
import Pandora.Lib.Gregorian

/-! # The search for the next run

The search of `next_run_after` with the conversion of a timestamp as a parameter: with the one of
the source it is that of the source (`nextRunAfterWith_source`), with the true calendar it finds the
next matching minute (`nextRunAfter_exact`).

Every round of the search goes on to a later minute and leaves out minutes that do not match; the
month is left at its end, the day at midnight, the hour at the full hour (`Round`). -/

namespace Pandora.Cron

open Lib.Checked Lib.MachineInts Lib Gregorian Gregorian.Date IntType

/-- The conversion of a timestamp. -/
abbrev Conversion := ℤ → Outcome DateTime

section

variable (utc : Conversion) (checks : Bool)

def advanceToNextMonthWith (candidate : ℤ) : Outcome ℤ := do
  let date ← utc candidate
  let (nextY, nextM) ← if date.month = 12 then do
      let y ← i32 checks (date.year + 1)
      pure (y, 1)
    else do
      let m ← u32 checks (date.month + 1)
      pure (date.year, m)
  let days ← daysFromCivil checks nextY nextM 1
  i64 checks (days * 86400)

namespace CronFieldMatcher

variable (matcher : CronFieldMatcher)

/-- One round of the search: the candidate matches, or the next candidate. -/
def advanceWith (candidate : ℤ) : Outcome (Option ℤ) := do
  let date ← utc candidate
  if date.month ∉ matcher.months then
    some <$> advanceToNextMonthWith utc checks candidate
  else if date.day ∉ matcher.daysOfMonth ∨ ¬ matcher.dowMatch date.dow then do
    let day ← i64 checks ((candidate.tdiv 86400 + 1) * 86400)
    pure (some day)
  else if date.hour ∉ matcher.hours then do
    let hour ← i64 checks ((candidate.tdiv 3600 + 1) * 3600)
    pure (some hour)
  else if date.minute ∈ matcher.minutes then pure none
  else do
    let minute ← i64 checks (candidate + 60)
    pure (some minute)

/-- The loop of the search. -/
def searchWith : ℕ → (candidate maxSearch : ℤ) → Outcome ℤ
  | 0, _, _ => .error .hang
  | fuel + 1, candidate, maxSearch =>
    if candidate < maxSearch then do
      match ← matcher.advanceWith utc checks candidate with
      | none => pure candidate
      | some next => searchWith fuel next maxSearch
    else .error (.error (.invalidSchedule "no matching cron time found within 366 days"))

def nextRunAfterWith (now : ℤ) : Outcome ℤ := do
  let candidate ← i64 checks ((now.tdiv 60 + 1) * 60)
  let maxSearch ← i64 checks (candidate + 366 * 86400)
  matcher.searchWith utc checks (2 ^ 64) candidate maxSearch

theorem searchWith_source : ∀ (fuel : ℕ) (candidate maxSearch : ℤ),
    matcher.searchWith (utcDatetimeFromTimestamp checks) checks fuel candidate maxSearch =
      matcher.search checks fuel candidate maxSearch
  | 0, _, _ => rfl
  | fuel + 1, candidate, maxSearch => by
    rw [searchWith, search]
    split_ifs with hmore
    · have hround : matcher.advanceWith (utcDatetimeFromTimestamp checks) checks candidate =
          matcher.advance checks candidate := rfl
      rw [hround]
      refine congrArg (matcher.advance checks candidate >>= ·) (funext fun next => ?_)
      cases next with
      | none => rfl
      | some next => exact searchWith_source fuel next maxSearch
    · rfl

/-- With the conversion of the source, the search is that of the source. -/
theorem nextRunAfterWith_source (now : ℤ) :
    matcher.nextRunAfterWith (utcDatetimeFromTimestamp checks) checks now =
      matcher.nextRunAfter checks now := by
  unfold nextRunAfterWith nextRunAfter
  simp only [searchWith_source]

end CronFieldMatcher

end

/-! ### The parts of `days_from_civil` -/

section

variable (checks : Bool)

/-- From the month on: `doy` starts as the number of the month, from March. -/
def daysFromMonth (era yoe doy d : ℤ) : Outcome ℤ := do
  let doy ← u32 checks (153 * doy)
  let doy ← u32 checks (doy + 2)
  let doy ← u32 checks (doy / 5 + d)
  let doy ← u32 checks (doy - 1)
  let doe ← u32 checks (yoe * 365)
  let doe ← u32 checks (doe + yoe / 4)
  let doe ← u32 checks (doe - yoe / 100)
  let doe ← u32 checks (doe + doy)
  pure (era * 146097 + doe - 719468)

/-- From the year on, `era` being the year rounded. -/
def daysFromYear (y era m d : ℤ) : Outcome ℤ :=
  if 2 < m then do
    let doy ← u32 checks (m - 3)
    daysFromMonth checks (era.tdiv 400) (IntType.u32.wrap (y - era.tdiv 400 * 400)) doy d
  else do
    let doy ← u32 checks (m + 9)
    daysFromMonth checks (era.tdiv 400) (IntType.u32.wrap (y - era.tdiv 400 * 400)) doy d

def daysFromEra (y m d : ℤ) : Outcome ℤ :=
  if 0 ≤ y then do
    let era ← pure y
    daysFromYear checks y era m d
  else do
    let era ← i32 checks (y - 399)
    daysFromYear checks y era m d

theorem daysFromCivil_eq (y m d : ℤ) : daysFromCivil checks y m d =
    if m ≤ 2 then do
      let y ← i32 checks (y - 1)
      daysFromEra checks y m d
    else daysFromEra checks y m d := rfl

end

/-! ### Builds without overflow checks -/

section

variable {utc : Conversion} (checks : Bool)

theorem i32_agrees (x : ℤ) : AgreesUnlessPanic (i32 true x) (i32 checks x) := .arith checks _ x

theorem u32_agrees (x : ℤ) : AgreesUnlessPanic (u32 true x) (u32 checks x) := .arith checks _ x

theorem i64_agrees (x : ℤ) : AgreesUnlessPanic (i64 true x) (i64 checks x) := .arith checks _ x

theorem daysFromCivil_agrees (y m d : ℤ) :
    AgreesUnlessPanic (daysFromCivil true y m d) (daysFromCivil checks y m d) := by
  have hmonth : ∀ era yoe doy : ℤ, AgreesUnlessPanic (daysFromMonth true era yoe doy d)
      (daysFromMonth checks era yoe doy d) := by
    intro era yoe doy
    unfold daysFromMonth
    iterate 4 refine .bind (u32_agrees checks _) fun doy => ?_
    iterate 3 refine .bind (u32_agrees checks _) fun doe => ?_
    exact .bind (u32_agrees checks _) fun doe => .refl _
  have hyear : ∀ y era : ℤ, AgreesUnlessPanic (daysFromYear true y era m d)
      (daysFromYear checks y era m d) := by
    intro y era
    exact .ite (.bind (u32_agrees checks _) fun doy => hmonth _ _ _)
      (.bind (u32_agrees checks _) fun doy => hmonth _ _ _)
  have hera : ∀ y : ℤ, AgreesUnlessPanic (daysFromEra true y m d) (daysFromEra checks y m d) := by
    intro y
    exact .ite (.bind (.refl _) fun era => hyear _ _)
      (.bind (i32_agrees checks _) fun era => hyear _ _)
  rw [daysFromCivil_eq, daysFromCivil_eq]
  exact .ite (.bind (i32_agrees checks _) fun y => hera y) (hera y)

theorem advanceToNextMonthWith_agrees (candidate : ℤ) :
    AgreesUnlessPanic (advanceToNextMonthWith utc true candidate)
      (advanceToNextMonthWith utc checks candidate) := by
  unfold advanceToNextMonthWith
  refine .bind (.refl _) fun date => ?_
  have hmonth : ∀ next : ℤ × ℤ, AgreesUnlessPanic
      (do let days ← daysFromCivil true next.1 next.2 1; i64 true (days * 86400))
      (do let days ← daysFromCivil checks next.1 next.2 1; i64 checks (days * 86400)) :=
    fun next => .bind (daysFromCivil_agrees checks _ _ _) fun days => i64_agrees checks _
  refine .ite ?_ ?_
  · exact .bind (i32_agrees checks _) fun y => hmonth (y, 1)
  · exact .bind (u32_agrees checks _) fun m => hmonth (date.year, m)

namespace CronFieldMatcher

variable (matcher : CronFieldMatcher)

theorem advanceWith_agrees (candidate : ℤ) :
    AgreesUnlessPanic (matcher.advanceWith utc true candidate)
      (matcher.advanceWith utc checks candidate) := by
  unfold advanceWith
  refine .bind (.refl _) fun date => ?_
  refine .ite (.map _ (advanceToNextMonthWith_agrees checks candidate)) ?_
  refine .ite (.bind (i64_agrees checks _) fun day => .refl _) ?_
  refine .ite (.bind (i64_agrees checks _) fun hour => .refl _) ?_
  exact .ite (.refl _) (.bind (i64_agrees checks _) fun minute => .refl _)

theorem searchWith_agrees : ∀ (fuel : ℕ) (candidate maxSearch : ℤ),
    AgreesUnlessPanic (matcher.searchWith utc true fuel candidate maxSearch)
      (matcher.searchWith utc checks fuel candidate maxSearch)
  | 0, _, _ => .refl _
  | fuel + 1, candidate, maxSearch => by
    rw [searchWith, searchWith]
    refine .ite (.bind (advanceWith_agrees checks matcher candidate) fun next => ?_) (.refl _)
    cases next with
    | none => exact .refl _
    | some next => exact searchWith_agrees fuel next maxSearch

/-- A build without overflow checks gives what the one with checks gives, if that does not panic. -/
theorem nextRunAfterWith_agrees (now : ℤ) :
    AgreesUnlessPanic (matcher.nextRunAfterWith utc true now)
      (matcher.nextRunAfterWith utc checks now) := by
  unfold nextRunAfterWith
  refine .bind (i64_agrees checks _) fun candidate => ?_
  exact .bind (i64_agrees checks _) fun maxSearch => searchWith_agrees checks matcher _ _ _

end CronFieldMatcher

end

/-! ### The true calendar -/

/-- Date and time of a timestamp from 1970 on. -/
def gregorianDatetime (timestamp : ℤ) : DateTime :=
  let date := date (timestamp / 86400).toNat
  ⟨date.year, date.month, date.day, timestamp % 86400 / 3600, timestamp % 86400 % 3600 / 60,
    (timestamp / 86400 + 4) % 7⟩

/-- The conversion `utc_datetime_from_timestamp` is taken to be. -/
def gregorian : Conversion := fun timestamp => .ok (gregorianDatetime timestamp)

theorem u32_of_range {checks : Bool} {x : ℤ} (h : 0 ≤ x ∧ x < 2 ^ 32) : u32 checks x = .ok x :=
  arith_of_fits h

theorem year_date : ∀ n : ℕ, 1970 ≤ (date n).year
  | 0 => le_refl _
  | n + 1 => by
    have ih := year_date n
    rw [date]
    unfold next nextMonth
    split_ifs
    · exact ih
    · dsimp only
      omega
    · exact ih

theorem daysFromMonth_eq {checks : Bool} {era yoe doy d : ℤ} (hyoe : 0 ≤ yoe ∧ yoe < 400)
    (hdoy : 0 ≤ doy ∧ doy ≤ 28071681) (hd : 1 ≤ d ∧ d ≤ 31) : daysFromMonth checks era yoe doy d =
      .ok (era * 146097 + yoe * 365 + yoe / 4 - yoe / 100 + (153 * doy + 2) / 5 + d - 719469) := by
  unfold daysFromMonth
  rw [u32_of_range ⟨by omega, by omega⟩, ok_bind, u32_of_range ⟨by omega, by omega⟩, ok_bind,
    u32_of_range ⟨by omega, by omega⟩, ok_bind, u32_of_range ⟨by omega, by omega⟩, ok_bind,
    u32_of_range ⟨by omega, by omega⟩, ok_bind, u32_of_range ⟨by omega, by omega⟩, ok_bind,
    u32_of_range ⟨by omega, by omega⟩, ok_bind, u32_of_range ⟨by omega, by omega⟩, ok_bind]
  refine congrArg Except.ok ?_
  omega

theorem daysFromYear_eq {checks : Bool} {y era m d : ℤ} (hm : 1 ≤ m ∧ m ≤ 28071684)
    (hd : 1 ≤ d ∧ d ≤ 31) (hera : era.tdiv 400 = y / 400) : daysFromYear checks y era m d =
      .ok (365 * y + y / 4 - y / 100 + y / 400 + (153 * (if 2 < m then m - 3 else m + 9) + 2) / 5 +
        d - 719469) := by
  have hyoe : IntType.u32.wrap (y - y / 400 * 400) = y - y / 400 * 400 :=
    IntType.wrap_eq_self_iff.mpr ⟨by omega, by omega⟩
  have hrange : 0 ≤ y - y / 400 * 400 ∧ y - y / 400 * 400 < 400 := ⟨by omega, by omega⟩
  unfold daysFromYear
  rw [hera, hyoe]
  split_ifs with hlate
  all_goals
    rw [u32_of_range ⟨by omega, by omega⟩, ok_bind, daysFromMonth_eq hrange ⟨by omega, by omega⟩ hd]
    refine congrArg Except.ok ?_
    omega

/-- A day, from the year that begins in March. The formula goes on after the twelfth month, up to
the end of the 32-bit numbers. -/
theorem daysFromEra_eq {checks : Bool} {y m d : ℤ} (hm : 1 ≤ m ∧ m ≤ 28071684)
    (hd : 1 ≤ d ∧ d ≤ 31) (hy : -2 ^ 31 + 399 ≤ y) : daysFromEra checks y m d =
      .ok (365 * y + y / 4 - y / 100 + y / 400 + (153 * (if 2 < m then m - 3 else m + 9) + 2) / 5 +
        d - 719469) := by
  unfold daysFromEra
  by_cases hsign : 0 ≤ y
  · rw [if_pos hsign, pure_bind, daysFromYear_eq hm hd (Int.tdiv_eq_ediv_of_nonneg hsign)]
  · have hera : (y - 399).tdiv 400 = y / 400 := by
      rw [Int.tdiv_eq_ediv]
      split_ifs
      · omega
      · rw [show Int.sign 400 = 1 from rfl]
        omega
    have hfirst : i32 checks (y - 399) = .ok (y - 399) :=
      arith_of_fits ⟨by omega, by omega⟩
    rw [if_neg hsign, hfirst, ok_bind, daysFromYear_eq hm hd hera]

/-- The number of a day, if the year is neither too large nor too small. -/
theorem daysFromCivil_fits {checks : Bool} {y m d : ℤ} (hm : 1 ≤ m ∧ m ≤ 28071684)
    (hd : 1 ≤ d ∧ d ≤ 31) (hy : -2 ^ 31 + 399 ≤ if m ≤ 2 then y - 1 else y)
    (hfits : m ≤ 2 → IntType.i32.Fits (y - 1)) :
    daysFromCivil checks y m d = .ok (number ⟨y, m, d⟩) := by
  rw [daysFromCivil_eq]
  unfold number marchYear marchMonth
  dsimp only
  split_ifs at hy ⊢ with hearly hlate hlate
  · omega
  · have hyear : i32 checks (y - 1) = .ok (y - 1) := arith_of_fits (hfits hearly)
    rw [hyear, ok_bind, daysFromEra_eq hm hd hy, if_neg hlate]
    refine congrArg Except.ok ?_
    omega
  · rw [daysFromEra_eq hm hd hy, if_pos hlate]
    refine congrArg Except.ok ?_
    omega
  · omega

theorem daysFromCivil_first {y m : ℤ} (hm : 1 ≤ m ∧ m ≤ 12) (hy : 1970 ≤ y) :
    daysFromCivil true y m 1 = .ok (number ⟨y, m, 1⟩) ∨
      daysFromCivil true y m 1 = .error .panic := by
  by_cases hfits : m ≤ 2 → IntType.i32.Fits (y - 1)
  · exact Or.inl
      (daysFromCivil_fits ⟨hm.1, by omega⟩ ⟨le_rfl, by omega⟩ (by split_ifs <;> omega) hfits)
  · obtain ⟨hearly, hlarge⟩ := Classical.not_imp.mp hfits
    refine Or.inr ?_
    have hpanic : i32 true (y - 1) = .error .panic :=
      (arith_checked _ _).resolve_left fun h => hlarge h.1
    rw [daysFromCivil_eq, if_pos hearly, hpanic]
    rfl

/-! ### Times of a schedule -/

/-- A date and time that the schedule names, Sunday being 0 or 7. -/
structure CronFieldMatcher.Matches (matcher : CronFieldMatcher) (date : DateTime) : Prop where
  month : date.month ∈ matcher.months
  day : date.day ∈ matcher.daysOfMonth
  dow : date.dow ∈ matcher.daysOfWeek ∨ date.dow = 0 ∧ 7 ∈ matcher.daysOfWeek
  hour : date.hour ∈ matcher.hours
  minute : date.minute ∈ matcher.minutes

/-- The first full minute after a time. -/
def firstMinute (now : ℤ) : ℤ := (now / 60 + 1) * 60

theorem gregorian_month {c u : ℤ} (hc : 0 ≤ c) (hle : c ≤ u)
    (hlt : u < (date (c / 86400).toNat).nextMonth.number * 86400) :
    (gregorianDatetime u).month = (gregorianDatetime c).month := by
  have hday : (c / 86400).toNat ≤ (u / 86400).toNat := by omega
  have hnext : ((u / 86400).toNat : ℤ) < (date (c / 86400).toNat).nextMonth.number := by
    omega
  exact (month_of_lt hday hnext).2

theorem gregorian_day {c u : ℤ} (h : u / 86400 = c / 86400) :
    (gregorianDatetime u).day = (gregorianDatetime c).day ∧
      (gregorianDatetime u).dow = (gregorianDatetime c).dow := by
  unfold gregorianDatetime
  rw [h]
  exact ⟨rfl, rfl⟩

theorem gregorian_hour {c u : ℤ} (h : u / 3600 = c / 3600) :
    (gregorianDatetime u).hour = (gregorianDatetime c).hour := by
  show u % 86400 / 3600 = c % 86400 / 3600
  omega

theorem gregorian_minute {c u : ℤ} (h : u / 60 = c / 60) :
    (gregorianDatetime u).minute = (gregorianDatetime c).minute := by
  show u % 86400 % 3600 / 60 = c % 86400 % 3600 / 60
  omega

/-- The first day of the next month, unless it is too late for the type. -/
theorem advanceToNextMonthWith_first {c : ℤ} :
    advanceToNextMonthWith gregorian true c =
        .ok ((date (c / 86400).toNat).nextMonth.number * 86400) ∨
      advanceToNextMonthWith gregorian true c = .error .panic := by
  have hvalid := valid_date (c / 86400).toNat
  have hyear := year_date (c / 86400).toNat
  have hutc : gregorian c = .ok (gregorianDatetime c) := rfl
  have hmonth : (gregorianDatetime c).month = (date (c / 86400).toNat).month := rfl
  have hyears : (gregorianDatetime c).year = (date (c / 86400).toNat).year := rfl
  obtain ⟨hlow, hhigh⟩ := hvalid.month
  unfold advanceToNextMonthWith
  rw [hutc, ok_bind, hmonth, hyears]
  -- the day number of a first day, as seconds
  have hseconds : ∀ y m : ℤ, 1 ≤ m ∧ m ≤ 12 → 1970 ≤ y →
      (daysFromCivil true y m 1 >>= fun days => i64 true (days * 86400)) =
          .ok (number ⟨y, m, 1⟩ * 86400) ∨
        (daysFromCivil true y m 1 >>= fun days => i64 true (days * 86400)) = .error .panic := by
    intro y m hm hy
    rcases daysFromCivil_first hm hy with hexact | hpanic
    · rw [hexact, ok_bind]
      rcases @arith_checked CronError .i64 (number ⟨y, m, 1⟩ * 86400) with
        ⟨-, hfits⟩ | hpanic
      · exact Or.inl hfits
      · exact Or.inr hpanic
    · rw [hpanic]
      exact Or.inr rfl
  unfold nextMonth
  by_cases hlast : (date (c / 86400).toNat).month = 12
  · rw [if_pos hlast, if_pos hlast]
    rcases @arith_checked CronError .i32 ((date (c / 86400).toNat).year + 1) with
      ⟨-, hfits⟩ | hpanic
    · have hnext : i32 true ((date (c / 86400).toNat).year + 1) = .ok _ := hfits
      rw [hnext, ok_bind]
      exact hseconds _ 1 ⟨by omega, by omega⟩ (by omega)
    · have hnext : i32 true ((date (c / 86400).toNat).year + 1) = .error .panic := hpanic
      rw [hnext]
      exact Or.inr rfl
  · rw [if_neg hlast, if_neg hlast, u32_of_range ⟨by omega, by omega⟩, ok_bind]
    exact hseconds _ _ ⟨by omega, by omega⟩ hyear

namespace CronFieldMatcher

variable (matcher : CronFieldMatcher)

/-- No time from `c` on and before `n` is named. -/
def NoneBetween (c n : ℤ) : Prop :=
  ∀ u, c ≤ u → u < n → ¬ matcher.Matches (gregorianDatetime u)

theorem NoneBetween.trans {matcher : CronFieldMatcher} {c n m : ℤ} (h : matcher.NoneBetween c n)
    (h' : matcher.NoneBetween n m) : matcher.NoneBetween c m := by
  intro u hle hlt
  by_cases hbefore : u < n
  · exact h u hle hbefore
  · exact h' u (by omega) hlt

/-- A round that goes on from `c` to `n`. -/
structure Skips (c n : ℤ) : Prop where
  later : c < n
  minute : n % 60 = 0
  none : matcher.NoneBetween c n

theorem dowMatch_iff {c : ℤ} : matcher.dowMatch (gregorianDatetime c).dow = true ↔
    (gregorianDatetime c).dow ∈ matcher.daysOfWeek ∨
      (gregorianDatetime c).dow = 0 ∧ 7 ∈ matcher.daysOfWeek := by
  have hdow : (gregorianDatetime c).dow ≠ 7 := by
    show (c / 86400 + 4) % 7 ≠ 7
    omega
  unfold dowMatch
  rw [decide_eq_true_iff]
  constructor
  · rintro (h | h | ⟨h, -⟩)
    · exact Or.inl h
    · exact Or.inr h
    · exact absurd h hdow
  · rintro (h | h)
    · exact Or.inl h
    · exact Or.inr (Or.inl h)

/-- **One round.** -/
theorem advanceWith_round {c : ℤ} (hc : 0 ≤ c) (hmin : c % 60 = 0) :
    (matcher.advanceWith gregorian true c = .ok none ∧ matcher.Matches (gregorianDatetime c)) ∨
      (∃ n, matcher.advanceWith gregorian true c = .ok (some n) ∧ matcher.Skips c n) ∨
      matcher.advanceWith gregorian true c = .error .panic := by
  have hutc : gregorian c = .ok (gregorianDatetime c) := rfl
  -- a jump to `n`, if `n` fits
  have hjump : ∀ n, matcher.Skips c n →
      (∃ n', (i64 true n >>= fun n => pure (some n)) = .ok (some n') ∧ matcher.Skips c n') ∨
        (i64 true n >>= fun n => pure (some n)) = .error .panic := by
    intro n hskips
    rcases @arith_checked CronError .i64 n with ⟨-, hfits⟩ | hpanic
    · have hnext : i64 true n = .ok n := hfits
      rw [hnext]
      exact Or.inl ⟨n, rfl, hskips⟩
    · have hnext : i64 true n = .error .panic := hpanic
      rw [hnext]
      exact Or.inr rfl
  unfold advanceWith
  rw [hutc, ok_bind]
  by_cases hmonth : (gregorianDatetime c).month ∈ matcher.months
  · rw [if_neg (not_not.mpr hmonth)]
    by_cases hday : (gregorianDatetime c).day ∉ matcher.daysOfMonth ∨
        ¬ matcher.dowMatch (gregorianDatetime c).dow
    · rw [if_pos hday]
      refine Or.inr (hjump _ ?_)
      have hdays : c.tdiv 86400 = c / 86400 := Int.tdiv_eq_ediv_of_nonneg hc
      rw [hdays]
      refine ⟨by omega, by omega, ?_⟩
      intro u hle hlt hmatches
      obtain ⟨hsame, hdow⟩ := @gregorian_day c u (by omega)
      rcases hday with hday | hday
      · exact hday (hsame ▸ hmatches.day)
      · exact hday (matcher.dowMatch_iff.mpr (hdow ▸ hmatches.dow))
    · rw [if_neg hday]
      obtain ⟨hday, hdow⟩ := not_or.mp hday
      by_cases hhour : (gregorianDatetime c).hour ∈ matcher.hours
      · rw [if_neg (not_not.mpr hhour)]
        by_cases hminute : (gregorianDatetime c).minute ∈ matcher.minutes
        · rw [if_pos hminute]
          exact Or.inl ⟨rfl, hmonth, not_not.mp hday, matcher.dowMatch_iff.mp (not_not.mp hdow),
            hhour, hminute⟩
        · rw [if_neg hminute]
          refine Or.inr (hjump _ ⟨by omega, by omega, ?_⟩)
          intro u hle hlt hmatches
          have hsame := @gregorian_minute c u (by omega)
          exact hminute (hsame ▸ hmatches.minute)
      · rw [if_pos hhour]
        refine Or.inr (hjump _ ?_)
        have hhours : c.tdiv 3600 = c / 3600 := Int.tdiv_eq_ediv_of_nonneg hc
        rw [hhours]
        refine ⟨by omega, by omega, ?_⟩
        intro u hle hlt hmatches
        have hsame := @gregorian_hour c u (by omega)
        exact hhour (hsame ▸ hmatches.hour)
  · rw [if_pos hmonth]
    refine Or.inr ?_
    rcases @advanceToNextMonthWith_first c with hfirst | hpanic
    · rw [hfirst]
      refine Or.inl ⟨_, rfl, ?_, by omega, ?_⟩
      · have hnext := lt_number_nextMonth (c / 86400).toNat
        omega
      · intro u hle hlt hmatches
        have hsame := gregorian_month hc hle hlt
        exact hmonth (hsame ▸ hmatches.month)
    · rw [hpanic]
      exact Or.inr rfl

/-- The error of a search without a result. -/
def noneFound : Fault CronError :=
  .error (.invalidSchedule "no matching cron time found within 366 days")

/-- The first time named, from `c` on and before `n`. -/
structure IsFirst (c n t : ℤ) : Prop where
  range : c ≤ t ∧ t < n
  minute : t % 60 = 0
  isMatch : matcher.Matches (gregorianDatetime t)
  none : matcher.NoneBetween c t

/-- **The search.** The distance to the end of the window shrinks by a minute at least. -/
theorem searchWith_spec (n : ℤ) : ∀ (fuel : ℕ) (c : ℤ), 0 ≤ c → c % 60 = 0 → n - c ≤ 60 * fuel →
    (∃ t, matcher.searchWith gregorian true (fuel + 1) c n = .ok t ∧ matcher.IsFirst c n t) ∨
      (matcher.searchWith gregorian true (fuel + 1) c n = .error noneFound ∧
        matcher.NoneBetween c n) ∨
      matcher.searchWith gregorian true (fuel + 1) c n = .error .panic := by
  intro fuel
  induction fuel with
  | zero =>
    intro c hc hmin hfuel
    have hover : ¬ c < n := by omega
    rw [searchWith, if_neg hover]
    refine Or.inr (Or.inl ⟨rfl, ?_⟩)
    intro u hle hlt
    omega
  | succ fuel ih =>
    intro c hc hmin hfuel
    rw [searchWith]
    by_cases hmore : c < n
    · rw [if_pos hmore]
      rcases matcher.advanceWith_round hc hmin with ⟨hround, hmatches⟩ | ⟨next, hround, hskips⟩ |
          hpanic
      · rw [hround]
        refine Or.inl ⟨c, rfl, ⟨le_refl c, hmore⟩, hmin, hmatches, ?_⟩
        intro u hle hlt
        omega
      · rw [hround]
        have hlater := hskips.later
        have hminute := hskips.minute
        rcases ih next (by omega) hminute (by push_cast at hfuel; omega) with
          ⟨t, hfound, hfirst⟩ | ⟨hfailed, hnone⟩ | hpanic
        · refine Or.inl ⟨t, hfound, ⟨hlater.le.trans hfirst.range.1, hfirst.range.2⟩,
            hfirst.minute, hfirst.isMatch, hskips.none.trans hfirst.none⟩
        · exact Or.inr (Or.inl ⟨hfailed, hskips.none.trans hnone⟩)
        · exact Or.inr (Or.inr hpanic)
      · rw [hpanic]
        exact Or.inr (Or.inr rfl)
    · rw [if_neg hmore]
      refine Or.inr (Or.inl ⟨rfl, ?_⟩)
      intro u hle hlt
      omega

/-- The end of the window that is searched. -/
def windowEnd (now : ℤ) : ℤ := firstMinute now + 366 * 86400

theorem nextRunAfterWith_spec {now : ℤ} (hnow : 0 ≤ now) :
    (∃ t, matcher.nextRunAfterWith gregorian true now = .ok t ∧
        matcher.IsFirst (firstMinute now) (windowEnd now) t) ∨
      (matcher.nextRunAfterWith gregorian true now = .error noneFound ∧
        matcher.NoneBetween (firstMinute now) (windowEnd now)) ∨
      matcher.nextRunAfterWith gregorian true now = .error .panic := by
  have hfirst : (now.tdiv 60 + 1) * 60 = firstMinute now := by
    rw [Int.tdiv_eq_ediv_of_nonneg hnow]
    rfl
  have hrange : 0 ≤ firstMinute now ∧ firstMinute now % 60 = 0 := by
    unfold firstMinute
    omega
  unfold nextRunAfterWith
  rw [hfirst]
  rcases @arith_checked CronError .i64 (firstMinute now) with ⟨-, hfits⟩ | hpanic
  · have hcandidate : i64 true (firstMinute now) = .ok (firstMinute now) := hfits
    rw [hcandidate, ok_bind]
    rcases @arith_checked CronError .i64 (windowEnd now) with ⟨-, hfits⟩ | hpanic
    · have hend : i64 true (firstMinute now + 366 * 86400) = .ok (windowEnd now) := hfits
      rw [hend, ok_bind]
      refine matcher.searchWith_spec (windowEnd now) (2 ^ 64 - 1) _ hrange.1 hrange.2 ?_
      have hwindow : windowEnd now - firstMinute now = 366 * 86400 := by
        unfold windowEnd
        omega
      rw [hwindow]
      omega
    · have hend : i64 true (firstMinute now + 366 * 86400) = .error .panic := hpanic
      rw [hend]
      exact Or.inr (Or.inr rfl)
  · have hcandidate : i64 true (firstMinute now) = .error .panic := hpanic
    rw [hcandidate]
    exact Or.inr (Or.inr rfl)

/-- The next time after `now` that the schedule names. -/
structure IsNext (now t : ℤ) : Prop where
  later : now < t
  minute : t % 60 = 0
  isMatch : matcher.Matches (gregorianDatetime t)
  least : ∀ u, now < u → u % 60 = 0 → matcher.Matches (gregorianDatetime u) → t ≤ u

theorem IsFirst.isNext {matcher : CronFieldMatcher} {now n t : ℤ}
    (h : matcher.IsFirst (firstMinute now) n t) : matcher.IsNext now t := by
  have hrange := h.range.1
  refine ⟨?_, h.minute, h.isMatch, ?_⟩
  · unfold firstMinute at hrange
    omega
  · intro u hlater hminute hmatches
    by_contra hlt
    refine h.none u ?_ (by omega) hmatches
    unfold firstMinute
    omega

/-- **The search is exact and ends**: it gives the next time of the schedule if that is one of the
527,040 minutes of the window, and an error otherwise. -/
theorem nextRunAfter_exact (checks : Bool) {now : ℤ} (hnow : 0 ≤ now)
    (hfits : matcher.nextRunAfterWith gregorian true now ≠ .error .panic) :
    (∃ t, matcher.IsNext now t ∧ t < windowEnd now ∧
        matcher.nextRunAfterWith gregorian checks now = .ok t) ∨
      ((∀ t, matcher.IsNext now t → windowEnd now ≤ t) ∧
        matcher.nextRunAfterWith gregorian checks now = .error noneFound) := by
  have hsame : matcher.nextRunAfterWith gregorian true now =
      matcher.nextRunAfterWith gregorian checks now :=
    (matcher.nextRunAfterWith_agrees checks now).resolve_left hfits
  rw [← hsame]
  rcases matcher.nextRunAfterWith_spec hnow with ⟨t, hfound, hfirst⟩ | ⟨hfailed, hnone⟩ | hpanic
  · exact Or.inl ⟨t, hfirst.isNext, hfirst.range.2, hfound⟩
  · refine Or.inr ⟨?_, hfailed⟩
    intro t hnext
    by_contra hlt
    have hlater := hnext.later
    have hminute := hnext.minute
    refine hnone t ?_ (by omega) hnext.isMatch
    unfold firstMinute
    omega
  · exact absurd hpanic hfits

/-- Three minutes past four on Mondays in January, from the beginning of 1970. -/
theorem nextRunAfter_exact_monday :
    (∃ t, (CronFieldMatcher.mk [3] [4] [1, 2, 3, 4, 5, 6, 7] [1] [1]).IsNext 0 t ∧ t < windowEnd 0 ∧
        (CronFieldMatcher.mk [3] [4] [1, 2, 3, 4, 5, 6, 7] [1] [1]).nextRunAfterWith gregorian false
          0 = .ok t) ∨
      ((∀ t, (CronFieldMatcher.mk [3] [4] [1, 2, 3, 4, 5, 6, 7] [1] [1]).IsNext 0 t →
          windowEnd 0 ≤ t) ∧
        (CronFieldMatcher.mk [3] [4] [1, 2, 3, 4, 5, 6, 7] [1] [1]).nextRunAfterWith gregorian false
          0 = .error noneFound) :=
  nextRunAfter_exact (CronFieldMatcher.mk [3] [4] [1, 2, 3, 4, 5, 6, 7] [1] [1]) false
    (by decide) (by decide +kernel)

/-- The first minute that is left out, 366 days after the first one tried: a Saturday. -/
theorem saturday_not_found : ∃ matcher now t,
    parse5FieldCron ["1", "0", "2", "1", "6"] = .ok matcher ∧ 0 ≤ now ∧
      matcher.IsNext now t ∧ t - firstMinute now = 366 * 86400 ∧
      matcher.nextRunAfterWith gregorian true now = .error noneFound := by
  have hfailed : (CronFieldMatcher.mk [1] [0] [2] [1] [6]).nextRunAfterWith gregorian true 0 =
      .error noneFound := by decide +kernel
  refine ⟨⟨[1], [0], [2], [1], [6]⟩, 0, 366 * 86400 + 60, by decide +kernel, le_refl 0, ?_,
    by decide, hfailed⟩
  have hdatetime : gregorianDatetime (366 * 86400 + 60) = ⟨1971, 1, 2, 0, 1, 6⟩ := by
    decide +kernel
  refine ⟨by decide, by decide, ?_, ?_⟩
  · rw [hdatetime]
    exact ⟨by decide, by decide, by decide, by decide, by decide⟩
  · intro u hlater hminute hmatches
    rcases nextRunAfterWith_spec ⟨[1], [0], [2], [1], [6]⟩ (le_refl 0) with
      ⟨t, hfound, -⟩ | ⟨-, hnone⟩ | hpanic
    · rw [hfailed] at hfound
      cases hfound
    · by_contra hlt
      refine hnone u ?_ ?_ hmatches
      · unfold firstMinute
        omega
      · unfold windowEnd firstMinute
        omega
    · rw [hfailed] at hpanic
      cases hpanic

end CronFieldMatcher

end Pandora.Cron
