import Pandora.Cron.Engine
import Pandora.Cron.Search

/-! # When a schedule goes on

A time that `parse` or `compute_next_run` gives is after `now` unless the length of a delay or an
interval is zero or does not fit 64 bits with a sign, or a build without overflow checks runs out of
the type (`CronSchedule.Advances`, `next_ahead_iff`). A pass over the jobs leaves one due again for
the same reasons (`runDue_settles_iff`).

The five-field search relies on dates that are not always right. Where they are wrong, the month
that is left may begin again on the same day, and then the search does not end (`advance_later`). -/

namespace Pandora.Cron

open Lib.Checked Lib.MachineInts Lib Gregorian.Date CronSchedule List

section

variable {checks : Bool}

/-- An operation is exact if the build checks it or the value fits. -/
theorem eq_of_arith {t : IntType} {x r : ℤ} (h : (t.arith checks x : Outcome ℤ) = .ok r)
    (hexact : checks = true ∨ t.Fits x) : r = x ∧ t.Fits x := by
  by_cases hfits : t.Fits x
  · rw [IntType.arith_of_fits hfits] at h
    exact ⟨(Except.ok.inj h).symm, hfits⟩
  · obtain rfl := hexact.resolve_right hfits
    rcases @IntType.arith_checked CronError t x with ⟨hx, -⟩ | hpanic
    · exact absurd hx hfits
    · rw [hpanic] at h
      cases h

theorem u32_unchecked (x : ℤ) : u32 false x = .ok (x % 2 ^ 32) := by
  unfold u32 IntType.arith
  by_cases h : IntType.u32.wrap x = x
  · rw [if_pos h]
    exact congrArg Except.ok h.symm
  · rw [if_neg h]
    rfl

/-! ### The parts of `civil_from_days` -/

def civilFromMonth (checks : Bool) (y d m : ℤ) : Outcome (ℤ × ℤ × ℤ) :=
  if m ≤ 2 then do
    let y ← i32 checks (y + 1)
    pure (y, m, d)
  else do
    let y ← pure y
    pure (y, m, d)

/-- From the day of the year on. -/
def civilFromDoy (checks : Bool) (y doy : ℤ) : Outcome (ℤ × ℤ × ℤ) := do
  let mp ← u32 checks (5 * doy)
  let mp ← u32 checks (mp + 2)
  let mp := mp / 153
  let d ← u32 checks (153 * mp)
  let d ← u32 checks (d + 2)
  let d ← u32 checks (doy - d / 5)
  let d ← u32 checks (d + 1)
  if mp < 10 then do
    let m ← u32 checks (mp + 3)
    civilFromMonth checks y d m
  else do
    let m ← u32 checks (mp - 9)
    civilFromMonth checks y d m

/-- From the year of the era on. -/
def civilFromYoe (checks : Bool) (era doe yoe : ℤ) : Outcome (ℤ × ℤ × ℤ) := do
  let y ← i32 checks (IntType.i32.wrap era * 400)
  let y ← i32 checks (IntType.i32.wrap yoe + y)
  let doy ← u32 checks (365 * yoe)
  let doy ← u32 checks (doy + yoe / 4)
  let doy ← u32 checks (doy - yoe / 100)
  let doy ← u32 checks (doe - doy)
  civilFromDoy checks y doy

/-- From the day of the era on. -/
def civilFromDoe (checks : Bool) (era doe : ℤ) : Outcome (ℤ × ℤ × ℤ) := do
  let yoe ← u32 checks (doe - doe / 1024)
  let yoe ← u32 checks (yoe + doe / 1461)
  let yoe ← u32 checks (yoe - doe / 142401)
  civilFromYoe checks era doe (yoe / 365)

theorem civilFromDays_eq (days : ℤ) : civilFromDays checks days = civilFromDoe checks
      ((if 0 ≤ days + 719468 then days + 719468 else days + 719468 - 146096).tdiv 146097)
      (IntType.u32.wrap (days + 719468 -
        (if 0 ≤ days + 719468 then days + 719468 else days + 719468 - 146096).tdiv 146097 *
          146097)) := rfl

/-! ### The month that follows -/

/-- The next month does not begin before the day, and the next year fits 32 bits unless the build
checks it. -/
structure EndsBy (checks : Bool) (day : ℤ) (date : Gregorian.Date) : Prop where
  year : 1 ≤ date.year ∧ date.year < 2 ^ 31
  nextYear : checks = true ∨ date.year + 1 < 2 ^ 31
  month : 1 ≤ date.month ∧ date.month ≤ 28071683
  le : day ≤ date.nextMonth.number

variable {date : ℤ × ℤ × ℤ}

theorem civilFromMonth_ends {y m d day : ℤ}
    (h : civilFromMonth checks y d m = .ok date) (hy : 1 ≤ y ∧ y < 2 ^ 31)
    (hexact : checks = true ∨ y + 2 < 2 ^ 31) (hm : 1 ≤ m ∧ m ≤ 28071683)
    (hle : day ≤ number (nextMonth ⟨if m ≤ 2 then y + 1 else y, m, d⟩)) :
    EndsBy checks day ⟨date.1, date.2.1, date.2.2⟩ := by
  unfold civilFromMonth at h
  split_ifs at h with hearly
  · rw [if_pos hearly] at hle
    simp only [bind_eq_ok, pure_eq_ok] at h
    obtain ⟨next, hnext, rfl⟩ := h
    obtain ⟨rfl, hfits⟩ := eq_of_arith hnext (hexact.imp_right fun h => ⟨by omega, by omega⟩)
    exact ⟨⟨by dsimp only; omega, hfits.2⟩, hexact.imp_right fun h => by dsimp only; omega, hm, hle⟩
  · rw [if_neg hearly] at hle
    simp only [bind_eq_ok, pure_eq_ok] at h
    obtain ⟨_, rfl, rfl⟩ := h
    exact ⟨hy, hexact.imp_right fun h => by dsimp only; omega, hm, hle⟩

/-- The day number of the first of March. -/
def march (y : ℤ) : ℤ := 365 * y + y / 4 - y / 100 + y / 400 - 719468

theorem march_era (yoe era : ℤ) : march (yoe + era * 400) =
    era * 146097 + (365 * yoe + yoe / 4 - yoe / 100) + yoe / 400 - 719468 := by
  have hfour : (yoe + era * 400) / 4 = yoe / 4 + era * 100 := by omega
  have hhundred : (yoe + era * 400) / 100 = yoe / 100 + era * 4 := by omega
  have hall : (yoe + era * 400) / 400 = yoe / 400 + era := by omega
  unfold march
  rw [hfour, hhundred, hall]
  omega

/-- The end of the month that is `mp` months after March. -/
theorem number_nextMonth_march {y mp d : ℤ} (hmp : 0 ≤ mp ∧ mp ≤ 11) :
    (nextMonth ⟨if (if mp < 10 then mp + 3 else mp - 9) ≤ 2 then y + 1 else y,
      if mp < 10 then mp + 3 else mp - 9, d⟩).number =
        if mp < 11 then march y + (153 * (mp + 1) + 2) / 5 else march (y + 1) := by
  unfold nextMonth number marchYear marchMonth march
  dsimp only
  have hcases : mp < 9 ∨ mp = 9 ∨ mp = 10 ∨ mp = 11 := by omega
  rcases hcases with hmp' | rfl | rfl | rfl
  · rw [if_pos (show mp < 10 by omega), if_pos (show mp < 11 by omega),
      if_neg (show ¬ mp + 3 ≤ 2 by omega), if_neg (show ¬ mp + 3 = 12 by omega)]
    dsimp only
    rw [if_neg (show ¬ mp + 3 + 1 ≤ 2 by omega), if_pos (show 2 < mp + 3 + 1 by omega)]
    omega
  all_goals
    simp only [Int.reduceLT, Int.reduceLE, Int.reduceEq, Int.reduceAdd, Int.reduceSub, if_true,
      if_false]
    omega

theorem civilFromDoy_eq {y doy : ℤ} (hdoy : 0 ≤ doy ∧ doy ≤ 366) : civilFromDoy checks y doy =
    civilFromMonth checks y (doy - (153 * ((5 * doy + 2) / 153) + 2) / 5 + 1)
      (if (5 * doy + 2) / 153 < 10 then (5 * doy + 2) / 153 + 3 else (5 * doy + 2) / 153 - 9) := by
  unfold civilFromDoy
  rw [u32_of_range ⟨by omega, by omega⟩, ok_bind, u32_of_range ⟨by omega, by omega⟩, ok_bind]
  dsimp only
  rw [u32_of_range ⟨by omega, by omega⟩, ok_bind, u32_of_range ⟨by omega, by omega⟩, ok_bind,
    u32_of_range ⟨by omega, by omega⟩, ok_bind, u32_of_range ⟨by omega, by omega⟩, ok_bind]
  split_ifs with hearly
  all_goals rw [u32_of_range ⟨by omega, by omega⟩, ok_bind]

theorem civilFromDoy_ends {y doy day : ℤ} {date : ℤ × ℤ × ℤ}
    (h : civilFromDoy checks y doy = .ok date) (hy : 1 ≤ y ∧ y < 2 ^ 31)
    (hexact : checks = true ∨ y + 2 < 2 ^ 31) (hdoy : 0 ≤ doy ∧ doy ≤ 366)
    (hle : day ≤ march y + doy) (hle' : day ≤ march (y + 1)) :
    EndsBy checks day ⟨date.1, date.2.1, date.2.2⟩ := by
  rw [civilFromDoy_eq hdoy] at h
  have hmp : 0 ≤ (5 * doy + 2) / 153 ∧ (5 * doy + 2) / 153 ≤ 11 := by omega
  refine civilFromMonth_ends h hy hexact ⟨by split_ifs <;> omega, by split_ifs <;> omega⟩ ?_
  rw [number_nextMonth_march hmp]
  split_ifs
  · omega
  · exact hle'

/-- A day of the year before the year began: without checks, the month is far away. -/
theorem civilFromDoy_wrapped {y k day : ℤ}
    (h : civilFromDoy false y (2 ^ 32 + k) = .ok date) (hy : 1 ≤ y ∧ y + 2 < 2 ^ 31)
    (hk : -60 ≤ k ∧ k < 0) (hle : day ≤ march y) :
    EndsBy false day ⟨date.1, date.2.1, date.2.2⟩ := by
  unfold civilFromDoy at h
  have hdoy : 5 * (2 ^ 32 + k) % 2 ^ 32 = 2 ^ 32 + 5 * k := by omega
  rw [u32_unchecked, ok_bind, hdoy, u32_of_range ⟨by omega, by omega⟩, ok_bind] at h
  dsimp only at h
  have hmp : 28071670 ≤ (2 ^ 32 + 5 * k + 2) / 153 ∧ (2 ^ 32 + 5 * k + 2) / 153 ≤ 28071681 := by
    omega
  rw [u32_of_range ⟨by omega, by omega⟩, ok_bind, u32_of_range ⟨by omega, by omega⟩, ok_bind,
    u32_of_range ⟨by omega, by omega⟩, ok_bind, u32_of_range ⟨by omega, by omega⟩, ok_bind,
    if_neg (by omega), u32_of_range ⟨by omega, by omega⟩, ok_bind] at h
  refine civilFromMonth_ends h ⟨hy.1, by omega⟩ (Or.inr hy.2) ⟨by omega, by omega⟩ ?_
  unfold nextMonth number marchYear marchMonth
  generalize (2 ^ 32 + 5 * k + 2) / 153 = mp at hmp
  dsimp only
  rw [if_neg (show ¬ mp - 9 = 12 by omega), if_neg (show ¬ mp - 9 ≤ 2 by omega)]
  dsimp only
  rw [if_neg (show ¬ mp - 9 + 1 ≤ 2 by omega), if_pos (show 2 < mp - 9 + 1 by omega)]
  unfold march at hle
  omega

theorem civilFromYoe_ends {era doe yoe : ℤ}
    (h : civilFromYoe checks era doe yoe = .ok date) (hera : 4 ≤ era ∧ era < 2 ^ 31)
    (hdoe : 0 ≤ doe ∧ doe < 146097)
    (hyoe : yoe = (doe - doe / 1024 + doe / 1461 - doe / 142401) / 365)
    (hexact : checks = true ∨ era ≤ 5368708) :
    EndsBy checks (era * 146097 + doe - 719468) ⟨date.1, date.2.1, date.2.2⟩ := by
  have hrange : 0 ≤ yoe ∧ yoe ≤ 400 := by omega
  have hstart : -60 ≤ doe - (365 * yoe + yoe / 4 - yoe / 100) := by omega
  have hend : doe ≤ 365 * (yoe + 1) + (yoe + 1) / 4 - (yoe + 1) / 100 := by omega
  have hlast : yoe ≤ 399 ∨ doe - (365 * yoe + yoe / 4 - yoe / 100) ≤ 0 := by omega
  clear hyoe
  have hcast : IntType.i32.wrap era = era :=
    IntType.wrap_eq_self_iff.mpr ⟨by omega, by omega⟩
  have hcast' : IntType.i32.wrap yoe = yoe :=
    IntType.wrap_eq_self_iff.mpr ⟨by omega, by omega⟩
  unfold civilFromYoe at h
  rw [hcast, hcast'] at h
  simp only [bind_eq_ok] at h
  obtain ⟨first, hfirst, y, hy, h⟩ := h
  obtain ⟨rfl, -⟩ := eq_of_arith hfirst (hexact.imp_right fun h => ⟨by omega, by omega⟩)
  obtain ⟨rfl, hfits⟩ := eq_of_arith hy (hexact.imp_right fun h => ⟨by omega, by omega⟩)
  have hnext : checks = true ∨ yoe + era * 400 + 2 < 2 ^ 31 :=
    hexact.imp_right fun h => by omega
  have hmarch := march_era yoe era
  have hmarch' := march_era (yoe + 1) era
  have hsucc : yoe + 1 + era * 400 = yoe + era * 400 + 1 := by omega
  rw [hsucc] at hmarch'
  obtain ⟨d₁, hd₁, d₂, hd₂, d₃, hd₃, doy, hdoy, h⟩ := h
  obtain ⟨rfl, -⟩ := eq_of_arith hd₁ (Or.inr ⟨by omega, by omega⟩)
  obtain ⟨rfl, -⟩ := eq_of_arith hd₂ (Or.inr ⟨by omega, by omega⟩)
  obtain ⟨rfl, -⟩ := eq_of_arith hd₃ (Or.inr ⟨by omega, by omega⟩)
  have hy' : 1 ≤ yoe + era * 400 ∧ yoe + era * 400 < 2 ^ 31 := ⟨by omega, hfits.2⟩
  by_cases hdate : 0 ≤ doe - (365 * yoe + yoe / 4 - yoe / 100)
  · obtain ⟨rfl, -⟩ := eq_of_arith hdoy (Or.inr ⟨hdate, by omega⟩)
    exact civilFromDoy_ends h hy' hnext ⟨hdate, by omega⟩ (by omega) (by omega)
  · -- the year of the era is one too many
    cases checks with
    | true =>
      obtain ⟨-, hfits⟩ := eq_of_arith hdoy (Or.inl rfl)
      exact absurd hfits.1 hdate
    | false =>
      rw [u32_unchecked] at hdoy
      obtain rfl := Except.ok.inj hdoy
      have hwrapped : (doe - (365 * yoe + yoe / 4 - yoe / 100)) % 2 ^ 32 =
          2 ^ 32 + (doe - (365 * yoe + yoe / 4 - yoe / 100)) := by omega
      rw [hwrapped] at h
      have hsmall := hnext.resolve_left Bool.false_ne_true
      exact civilFromDoy_wrapped h ⟨hy'.1, hsmall⟩ ⟨hstart, by omega⟩ (by omega)

/-- The eras whose years fit 32 bits end with this day. -/
def lastDay : ℤ := 146097 * 5368709 - 719468

/-- From this time on, the years of the window may not fit 32 bits. -/
def calendarEnd : ℤ := (lastDay - 367) * 86400

/-- The day number is split into an era and its day. -/
theorem civilFromDays_split {days : ℤ} (hdays : -2 ^ 47 ≤ days ∧ days < 2 ^ 47) :
    civilFromDays checks days =
      civilFromDoe checks ((days + 719468) / 146097) ((days + 719468) % 146097) := by
  have hera : (if 0 ≤ days + 719468 then days + 719468 else days + 719468 - 146096).tdiv 146097 =
      (days + 719468) / 146097 := by
    rw [Int.tdiv_eq_ediv, show Int.sign 146097 = 1 from rfl]
    split_ifs
    all_goals omega
  have hdoe : days + 719468 - (days + 719468) / 146097 * 146097 = (days + 719468) % 146097 := by
    omega
  rw [civilFromDays_eq, hera, hdoe, IntType.wrap_eq_self_iff.mpr]
  exact ⟨by omega, by omega⟩

theorem civilFromDoe_eq {era doe : ℤ} (hdoe : 0 ≤ doe ∧ doe < 146097) :
    civilFromDoe checks era doe =
      civilFromYoe checks era doe ((doe - doe / 1024 + doe / 1461 - doe / 142401) / 365) := by
  unfold civilFromDoe
  rw [u32_of_range ⟨by omega, by omega⟩, ok_bind, u32_of_range ⟨by omega, by omega⟩, ok_bind,
    u32_of_range ⟨by omega, by omega⟩, ok_bind]

/-- **The source's date of a day** has a next month that does not begin before the day. -/
theorem civilFromDays_ends {days : ℤ} {date : ℤ × ℤ × ℤ}
    (h : civilFromDays checks days = .ok date) (hdays : 0 ≤ days ∧ days < 2 ^ 47)
    (hexact : checks = true ∨ days < lastDay) :
    EndsBy checks days ⟨date.1, date.2.1, date.2.2⟩ := by
  have hrange : 0 ≤ (days + 719468) % 146097 ∧ (days + 719468) % 146097 < 146097 := by omega
  rw [civilFromDays_split ⟨by omega, hdays.2⟩, civilFromDoe_eq hrange] at h
  have hsplit : days = (days + 719468) / 146097 * 146097 + (days + 719468) % 146097 - 719468 := by
    omega
  rw [hsplit]
  refine civilFromYoe_ends h (by omega) hrange rfl (hexact.imp_right fun h => ?_)
  unfold lastDay at h
  omega

/-! ### The search goes on -/

theorem number_bounds {y m : ℤ} (hy : 1 ≤ y ∧ y < 2 ^ 31) (hm : 1 ≤ m ∧ m ≤ 28071684) :
    -2 ^ 20 ≤ number ⟨y, m, 1⟩ ∧ number ⟨y, m, 1⟩ < 2 ^ 40 := by
  unfold number marchYear marchMonth
  dsimp only
  split_ifs
  all_goals omega

variable {n : ℤ}

theorem timestamp_first {y m : ℤ}
    (h : (daysFromCivil checks y m 1 >>= fun days => i64 checks (days * 86400)) = .ok n)
    (hy : 1 ≤ y ∧ y < 2 ^ 31) (hm : 1 ≤ m ∧ m ≤ 28071684) :
    n = number ⟨y, m, 1⟩ * 86400 := by
  obtain ⟨hlow, hhigh⟩ := number_bounds hy hm
  rw [daysFromCivil_fits hm ⟨le_rfl, by omega⟩ (by split_ifs <;> omega)
    fun _ => ⟨by omega, by omega⟩, ok_bind] at h
  exact (eq_of_arith h (Or.inr ⟨by omega, by omega⟩)).1

theorem advanceToNextMonth_later {c : ℤ} (h : advanceToNextMonth checks c = .ok n)
    (hc : 0 ≤ c ∧ c < 2 ^ 63) (hexact : checks = true ∨ c < lastDay * 86400) :
    n % 86400 = 0 ∧ c / 86400 ≤ n / 86400 := by
  simp only [advanceToNextMonth, utcDatetimeFromTimestamp, bind_eq_ok, pure_eq_ok] at h
  obtain ⟨_, ⟨⟨y, m, d⟩, hcivil, rfl⟩, h⟩ := h
  have hends := civilFromDays_ends hcivil ⟨by omega, by omega⟩
    (hexact.imp_right fun h => by omega)
  have hyear := hends.year
  have hmonth := hends.month
  have hle := hends.le
  have hnext := hends.nextYear
  unfold nextMonth at hle
  dsimp only at h hyear hmonth hle hnext
  split_ifs at h hle with hlast
  · simp only [bind_eq_ok] at h
    obtain ⟨y', hy', _, hpair, h⟩ := h
    obtain rfl := pure_eq_ok.mp hpair
    obtain ⟨rfl, hfits⟩ := eq_of_arith hy' (hnext.imp_right fun h => ⟨by omega, h⟩)
    have htime : n = number ⟨y + 1, 1, 1⟩ * 86400 :=
      timestamp_first (bind_eq_ok.mpr h) ⟨by omega, hfits.2⟩ ⟨le_refl 1, by omega⟩
    omega
  · rw [u32_of_range ⟨by omega, by omega⟩, ok_bind, pure_bind] at h
    have htime : n = number ⟨y, m + 1, 1⟩ * 86400 :=
      timestamp_first h hyear ⟨by omega, by omega⟩
    omega

theorem advanceToNextMonth_congr {c : ℤ} (h : n / 86400 = c / 86400) :
    advanceToNextMonth checks n = advanceToNextMonth checks c := by
  unfold advanceToNextMonth utcDatetimeFromTimestamp
  dsimp only
  rw [h]
  cases civilFromDays checks (c / 86400) with
  | ok | error => rfl

namespace CronFieldMatcher

variable {matcher : CronFieldMatcher}

/-- **One round** goes on to a later time, or comes to one that it never leaves. -/
theorem advance_later {c : ℤ} (h : matcher.advance checks c = .ok (some n))
    (hc : 0 ≤ c ∧ c < 2 ^ 63) (hexact : checks = true ∨ c < lastDay * 86400) :
    c < n ∨ matcher.advance checks n = .ok (some n) := by
  have hdays : c.tdiv 86400 = c / 86400 := Int.tdiv_eq_ediv_of_nonneg hc.1
  have hhours : c.tdiv 3600 = c / 3600 := Int.tdiv_eq_ediv_of_nonneg hc.1
  have hlast : lastDay < 2 ^ 40 := by decide
  unfold advance at h
  rw [hdays, hhours] at h
  simp only [bind_eq_ok] at h
  obtain ⟨date, hdate, h⟩ := h
  split_ifs at h with hmonth hday hhour hminute
  any_goals
    simp only [bind_eq_ok, pure_eq_ok, Option.some.injEq] at h
    obtain ⟨_, hnext, rfl⟩ := h
    obtain ⟨rfl, -⟩ := eq_of_arith hnext (hexact.imp_right fun h => ⟨by omega, by omega⟩)
    exact Or.inl (by omega)
  · cases pure_eq_ok.mp h
  · obtain ⟨next, hnext, hsome⟩ := map_eq_ok.mp h
    obtain rfl := Option.some.inj hsome
    obtain ⟨-, hle⟩ := advanceToNextMonth_later hnext hc hexact
    by_cases hlater : c < next
    · exact Or.inl hlater
    · -- the next month begins on the same day
      refine Or.inr ?_
      have hsame : next / 86400 = c / 86400 := by omega
      simp only [utcDatetimeFromTimestamp, bind_eq_ok, pure_eq_ok] at hdate
      obtain ⟨⟨y, m, d⟩, hcivil, rfl⟩ := hdate
      unfold advance utcDatetimeFromTimestamp
      dsimp only
      rw [hsame, hcivil, ok_bind, pure_bind, if_pos hmonth, advanceToNextMonth_congr hsame, hnext]
      rfl

theorem search_ne_ok (h : matcher.advance checks n = .ok (some n)) (maxSearch t : ℤ) :
    ∀ fuel, matcher.search checks fuel n maxSearch ≠ .ok t := by
  intro fuel
  induction fuel with
  | zero =>
    intro hsearch
    cases hsearch
  | succ fuel ih =>
    rw [search]
    split_ifs
    · rw [h]
      exact ih
    · intro hsearch
      cases hsearch

theorem le_of_search {maxSearch t : ℤ} (hmax : maxSearch < 2 ^ 63)
    (hexact : checks = true ∨ maxSearch ≤ lastDay * 86400) : ∀ (fuel : ℕ) {c : ℤ}, 0 ≤ c →
      matcher.search checks fuel c maxSearch = .ok t → c ≤ t := by
  intro fuel
  induction fuel with
  | zero =>
    intro c hc h
    cases h
  | succ fuel ih =>
    intro c hc h
    rw [search] at h
    split_ifs at h with hmore
    simp only [bind_eq_ok] at h
    obtain ⟨next, hround, h⟩ := h
    cases next with
    | none =>
      rw [pure_eq_ok.mp h]
    | some next =>
      have hsmall : checks = true ∨ c < lastDay * 86400 := hexact.imp_right fun h => by omega
      rcases advance_later hround ⟨hc, by omega⟩ hsmall with hlater | hstuck
      · exact hlater.le.trans (ih (by omega) h)
      · exact absurd h (search_ne_ok hstuck maxSearch t fuel)

/-- **The next time of a five-field schedule** is later. -/
theorem lt_of_nextRunAfter {now t : ℤ} (h : matcher.nextRunAfter checks now = .ok t)
    (hnow : 0 ≤ now ∧ now < 2 ^ 63) (hexact : checks = true ∨ now < calendarEnd) : now < t := by
  have hminutes : now.tdiv 60 = now / 60 := Int.tdiv_eq_ediv_of_nonneg hnow.1
  have hend : calendarEnd = (lastDay - 367) * 86400 := rfl
  have hlast : lastDay < 2 ^ 40 := by decide
  unfold nextRunAfter at h
  rw [hminutes] at h
  simp only [bind_eq_ok] at h
  obtain ⟨candidate, hcandidate, maxSearch, hmax, h⟩ := h
  obtain ⟨rfl, -⟩ := eq_of_arith hcandidate (hexact.imp_right fun h => ⟨by omega, by omega⟩)
  obtain ⟨rfl, hfits⟩ := eq_of_arith hmax (hexact.imp_right fun h => ⟨by omega, by omega⟩)
  have hle := le_of_search hfits.2 (hexact.imp_right fun h => by omega) _ (by omega) h
  omega

end CronFieldMatcher

/-! ### The other schedules -/

theorem wrap_unsigned {x : ℤ} (h : 0 ≤ x ∧ x < 2 ^ 64) :
    IntType.i64.wrap x = if x < 2 ^ 63 then x else x - 2 ^ 64 := by
  split_ifs with hsmall
  · exact IntType.wrap_eq_self_iff.mpr ⟨by omega, by omega⟩
  · show Int.bmod x (2 ^ 64) = x - 2 ^ 64
    rw [Int.bmod_def]
    split_ifs
    · omega
    · omega

theorem i64_cases {x r : ℤ} (h : i64 checks x = .ok r) (hx : -2 ^ 63 ≤ x ∧ x < 2 ^ 63 + 2 ^ 20) :
    (r = x ∧ x < 2 ^ 63) ∨ (checks = false ∧ 2 ^ 63 ≤ x ∧ r = x - 2 ^ 64) := by
  by_cases hfits : x < 2 ^ 63
  · exact Or.inl ⟨(eq_of_arith h (Or.inr ⟨hx.1, hfits⟩)).1, hfits⟩
  · cases checks with
    | true => exact absurd (eq_of_arith h (Or.inl rfl)).2.2 hfits
    | false =>
      refine Or.inr ⟨rfl, by omega, ?_⟩
      have hwrap : IntType.i64.wrap x = x - 2 ^ 64 := by
        rw [wrap_unsigned ⟨by omega, by omega⟩, if_neg hfits]
      have hne : IntType.i64.wrap x ≠ x := by omega
      unfold i64 IntType.arith at h
      rw [if_neg hne, hwrap] at h
      exact (Except.ok.inj h).symm

/-- The next time of day after `now`, or a time before 1970 if that is not a 64-bit number. -/
theorem nextDailyOccurrence_cases {now hour minute next : ℤ}
    (h : nextDailyOccurrence checks now hour minute = .ok next) (hnow : 0 ≤ now ∧ now < 2 ^ 63)
    (hhour : 0 ≤ hour ∧ hour ≤ 23) (hminute : 0 ≤ minute ∧ minute ≤ 59) :
    (now < next ∧ next < 2 ^ 63 ∧ next % 86400 = hour * 3600 + minute * 60) ∨
      (checks = false ∧ next < 0 ∧
        ∀ t, now < t → t % 86400 = hour * 3600 + minute * 60 → 2 ^ 63 ≤ t) := by
  have hday : now.tmod 86400 = now % 86400 := Int.tmod_eq_emod_of_nonneg hnow.1
  have hsecond : now.tmod 60 = now % 60 := Int.tmod_eq_emod_of_nonneg hnow.1
  simp only [nextDailyOccurrence, utcDatetimeFromTimestamp, bind_eq_ok, pure_eq_ok] at h
  obtain ⟨_, ⟨date, -, rfl⟩, day, hdays, h⟩ := h
  rw [hday, hsecond] at hdays
  dsimp only at hdays
  have hseconds : now % 86400 / 3600 * 3600 + now % 86400 % 3600 / 60 * 60 + now % 60 =
      now % 86400 := by omega
  rw [hseconds] at hdays
  -- the day that is added, and then the time of day
  have hoffset : ∃ offset : ℤ, (offset = 0 ∧ now % 86400 < hour * 3600 + minute * 60 ∨
      offset = 1 ∧ ¬ now % 86400 < hour * 3600 + minute * 60) ∧
        i64 checks (now - now % 86400 + offset * 86400) = .ok day := by
    split_ifs at hdays with hbefore
    · exact ⟨0, Or.inl ⟨rfl, hbefore⟩, hdays⟩
    · exact ⟨1, Or.inr ⟨rfl, hbefore⟩, hdays⟩
  obtain ⟨offset, hcases, hdays⟩ := hoffset
  rcases i64_cases hdays ⟨by omega, by omega⟩ with ⟨rfl, hfits⟩ | ⟨hchecks, hlarge, hnegative⟩
  · rcases i64_cases h ⟨by omega, by omega⟩ with ⟨rfl, hfits⟩ | ⟨hchecks, hlarge, hnegative⟩
    · exact Or.inl ⟨by omega, hfits, by omega⟩
    · refine Or.inr ⟨hchecks, by omega, ?_⟩
      intro t hlater htime
      omega
  · refine Or.inr ⟨hchecks, ?_, ?_⟩
    · rcases i64_cases h ⟨by omega, by omega⟩ with ⟨rfl, -⟩ | ⟨-, hlarge', -⟩
      all_goals omega
    · intro t hlater htime
      omega

end

/-! ### The schedules that are read -/

/-- The numbers of a schedule fit the types they are read into. -/
def CronSchedule.InRange : CronSchedule → Prop
  | delay secs => secs < 2 ^ 64
  | interval secs => secs < 2 ^ 64
  | daily hour minute => hour ≤ 23 ∧ minute ≤ 59
  | cronExpr _ => True

variable {text : String}

theorem parseDurationSeconds_lt {secs : ℕ}
    (h : parseDurationSeconds text = .ok secs) : secs < 2 ^ 64 := by
  simp only [parseDurationSeconds, bind_eq_ok, pure_eq_ok] at h
  obtain ⟨_, -, num, -, multiplier, -, rfl⟩ := h
  omega

theorem parseHhMm_le {time : ℕ × ℕ} (h : parseHhMm text = .ok time) :
    time.1 ≤ 23 ∧ time.2 ≤ 59 := by
  unfold parseHhMm at h
  split at h
  · simp only [bind_eq_ok, ensure_eq_ok, pure_eq_ok] at h
    obtain ⟨hour, -, minute, -, _, hrange, rfl⟩ := h
    exact hrange
  · exact absurd h throw_ne_ok

variable {schedule : CronSchedule}

theorem inRange_daily (h : (fun t : ℕ × ℕ => daily t.1 t.2) <$> parseHhMm text = .ok schedule) :
    schedule.InRange := by
  obtain ⟨time, htime, rfl⟩ := map_eq_ok.mp h
  exact parseHhMm_le htime

theorem inRange_readEvery {lower : String} {read : Except CronError CronSchedule}
    (h : readEvery lower = some read) (hread : read = .ok schedule) :
    schedule.InRange := by
  unfold readEvery at h
  split at h
  · cases h
  · dsimp only at h
    split_ifs at h
    · obtain rfl := Option.some.inj h
      obtain rfl := Except.ok.inj hread
      show (86400 : ℕ) < 2 ^ 64
      omega
    · obtain rfl := Option.some.inj h
      obtain rfl := Except.ok.inj hread
      show (3600 : ℕ) < 2 ^ 64
      omega
    · obtain rfl := Option.some.inj h
      obtain rfl := Except.ok.inj hread
      show (60 : ℕ) < 2 ^ 64
      omega
    · split at h
      · obtain rfl := Option.some.inj h
        exact inRange_daily hread
      · split at h
        · rename_i secs hsecs
          obtain rfl := Option.some.inj h
          obtain rfl := Except.ok.inj hread
          exact parseDurationSeconds_lt hsecs
        · cases h

variable {env : CronEnv} {expr : String}

theorem inRange_readSchedule (h : readSchedule env expr = .ok schedule) : schedule.InRange := by
  simp only [readSchedule, bind_eq_ok] at h
  obtain ⟨_, -, h⟩ := h
  split at h
  · obtain ⟨secs, hsecs, rfl⟩ := map_eq_ok.mp h
    exact parseDurationSeconds_lt hsecs
  · split at h
    · rename_i read hevery
      exact inRange_readEvery hevery h
    · split at h
      · exact inRange_daily h
      · split_ifs at h
        · obtain rfl := pure_eq_ok.mp h
          show (3600 : ℕ) < 2 ^ 64
          omega
        · obtain ⟨matcher, -, rfl⟩ := map_eq_ok.mp h
          exact trivial

/-! ### The next time -/

namespace CronSchedule

/-- The build does not check for overflows, and the years of the search may exceed 32 bits. -/
def PastCalendar (env : CronEnv) (now : ℤ) : CronSchedule → Prop
  | cronExpr _ => env.overflowChecks = false ∧ calendarEnd ≤ now
  | _ => False

/-- The schedule goes on after `now`: a duration is positive and fits 64 bits with a sign, a time of
day comes again within the type, if that is not checked. -/
def Advances (env : CronEnv) (now : ℤ) : CronSchedule → Prop
  | delay secs => (0 < secs ∧ secs < 2 ^ 63) ∨ (secs = 0 ∧ now = 2 ^ 63 - 1)
  | interval secs => (0 < secs ∧ secs < 2 ^ 63) ∨ (secs = 0 ∧ now = 2 ^ 63 - 1)
  | daily hour minute => env.overflowChecks = true ∨
      ∃ t, now < t ∧ t < 2 ^ 63 ∧ t % 86400 = (hour : ℤ) * 3600 + minute * 60
  | cronExpr _ => env.overflowChecks = true ∨ now < calendarEnd

end CronSchedule

variable {now : ℤ}

theorem calendar_of_not_past {matcher : CronFieldMatcher}
    (h : ¬ (cronExpr matcher).PastCalendar env now) :
    env.overflowChecks = true ∨ now < calendarEnd := by
  by_contra hnot
  rw [not_or, Bool.not_eq_true, not_lt] at hnot
  exact h hnot

theorem not_past_of_calendar {matcher : CronFieldMatcher}
    (h : env.overflowChecks = true ∨ now < calendarEnd) :
    ¬ (cronExpr matcher).PastCalendar env now := by
  rintro ⟨hchecks, hlate⟩
  rcases h with h | h
  · rw [hchecks] at h
    cases h
  · omega

/-- A next time that is after `now`, or the last one. -/
def Ahead (now next : ℤ) : Prop := now < next ∨ next = 2 ^ 63 - 1

theorem ahead_saturate {secs : ℕ} (hnow : 0 ≤ now ∧ now < 2 ^ 63) (h : secs < 2 ^ 64) :
    Ahead now (saturateI64 (now + IntType.i64.wrap secs)) ↔
      (0 < secs ∧ secs < 2 ^ 63) ∨ (secs = 0 ∧ now = 2 ^ 63 - 1) := by
  have hwrap := @wrap_unsigned secs ⟨by omega, by omega⟩
  rw [hwrap]
  unfold Ahead saturateI64
  split_ifs
  · omega
  · omega

theorem ahead_firstRun {next : ℤ}
    (h : schedule.firstRun env now = .ok next) (hrange : schedule.InRange)
    (hnow : 0 ≤ now ∧ now < 2 ^ 63) (hyears : ¬ schedule.PastCalendar env now) :
    Ahead now next ↔ schedule.Advances env now := by
  cases schedule with
  | delay | interval =>
    obtain rfl := Except.ok.inj h
    exact ahead_saturate hnow hrange
  | daily hour minute =>
    obtain ⟨hhour, hminute⟩ := hrange
    rcases nextDailyOccurrence_cases h hnow ⟨by omega, by omega⟩ ⟨by omega, by omega⟩ with
      ⟨hlater, hfits, htime⟩ | ⟨hchecks, hnegative, hlast⟩
    · exact iff_of_true (Or.inl hlater) (Or.inr ⟨next, hlater, hfits, htime⟩)
    · refine iff_of_false ?_ ?_
      · unfold Ahead
        omega
      · rintro (hchecked | ⟨t, hlater, hfits, htime⟩)
        · rw [hchecks] at hchecked
          cases hchecked
        · have hbeyond := hlast t hlater htime
          omega
  | cronExpr matcher =>
    have hcalendar := calendar_of_not_past hyears
    exact iff_of_true (Or.inl (CronFieldMatcher.lt_of_nextRunAfter h hnow hcalendar)) hcalendar

/-- The times that `parse` and `compute_next_run` give are ahead. -/
structure GoesOn (env : CronEnv) (now : ℤ) (expr : String) (schedule : CronSchedule) : Prop where
  parse : ∀ next oneShot, parse env expr now = .ok (schedule, next, oneShot) →
    Ahead now next
  computeNextRun : ∀ next, schedule.computeNextRun env now = .ok (some next) → Ahead now next

theorem goesOn_iff_firstRun
    (hread : readSchedule env expr = .ok schedule) : GoesOn env now expr schedule ↔
      ∀ next, schedule.firstRun env now = .ok next → Ahead now next := by
  constructor
  · intro h next hnext
    exact h.parse next _ (parse_eq_ok.mpr ⟨hread, hnext, rfl⟩)
  · intro h
    refine ⟨?_, ?_⟩
    · intro next oneShot hparse
      exact h next (parse_eq_ok.mp hparse).2.1
    · intro next hnext
      cases schedule with
      | delay secs => cases hnext
      | interval | daily | cronExpr => exact h next (by simpa [computeNextRun] using hnext)

/-! ### Builds without overflow checks never stop in a date -/

/-- The call gives a value. -/
def Gives {α : Type} (x : Outcome α) : Prop := ∃ a, x = .ok a

theorem Gives.bind {α β : Type} {x : Outcome α} {f : α → Outcome β} (h : Gives x)
    (hf : ∀ a, Gives (f a)) : Gives (x >>= f) := by
  obtain ⟨a, rfl⟩ := h
  exact hf a

theorem gives_pure {α : Type} (a : α) : Gives (pure a : Outcome α) := ⟨a, rfl⟩

theorem gives_arith (t : IntType) (x : ℤ) : Gives (t.arith false x : Outcome ℤ) := by
  unfold IntType.arith
  by_cases h : t.wrap x = x
  · exact ⟨x, if_pos h⟩
  · rw [if_neg h]
    exact ⟨t.wrap x, rfl⟩

theorem gives_civilFromMonth (y d m : ℤ) : Gives (civilFromMonth false y d m) := by
  unfold civilFromMonth
  split_ifs
  · exact .bind (gives_arith _ _) fun y => gives_pure _
  · exact .bind (gives_pure _) fun y => gives_pure _

theorem gives_civilFromDoy (y doy : ℤ) : Gives (civilFromDoy false y doy) := by
  unfold civilFromDoy
  refine .bind (gives_arith _ _) fun mp => ?_
  refine .bind (gives_arith _ _) fun mp => ?_
  iterate 4 refine .bind (gives_arith _ _) fun d => ?_
  split_ifs
  all_goals exact .bind (gives_arith _ _) fun m => gives_civilFromMonth _ _ _

theorem gives_civilFromDays (days : ℤ) : Gives (civilFromDays false days) := by
  rw [civilFromDays_eq]
  unfold civilFromDoe civilFromYoe
  iterate 3 refine .bind (gives_arith _ _) fun yoe => ?_
  refine .bind (gives_arith _ _) fun y => ?_
  refine .bind (gives_arith _ _) fun y => ?_
  iterate 3 refine .bind (gives_arith _ _) fun doy => ?_
  exact .bind (gives_arith _ _) fun doy => gives_civilFromDoy _ _

theorem gives_nextDailyOccurrence (now hour minute : ℤ) :
    Gives (nextDailyOccurrence false now hour minute) := by
  unfold nextDailyOccurrence utcDatetimeFromTimestamp
  refine .bind (.bind (gives_civilFromDays _) fun date => gives_pure _) fun current => ?_
  dsimp only
  exact .bind (gives_arith _ _) fun day => gives_arith _ _

theorem goesOn_iff (hread : readSchedule env expr = .ok schedule) (hnow : 0 ≤ now ∧ now < 2 ^ 63)
    (hyears : ¬ schedule.PastCalendar env now) :
    GoesOn env now expr schedule ↔ schedule.Advances env now := by
  have hahead : ∀ next, schedule.firstRun env now = .ok next →
      (Ahead now next ↔ schedule.Advances env now) :=
    fun next hnext => ahead_firstRun hnext (inRange_readSchedule hread) hnow hyears
  rw [goesOn_iff_firstRun hread]
  constructor
  · intro h
    have hgiven : Gives (schedule.firstRun env now) ∨ schedule.Advances env now := by
      cases schedule with
      | delay | interval => exact Or.inl ⟨_, rfl⟩
      | daily hour minute =>
        by_cases hchecks : env.overflowChecks = true
        · exact Or.inr (Or.inl hchecks)
        · refine Or.inl ?_
          show Gives (nextDailyOccurrence env.overflowChecks now hour minute)
          rw [Bool.eq_false_iff.mpr hchecks]
          exact gives_nextDailyOccurrence now hour minute
      | cronExpr matcher => exact Or.inr (calendar_of_not_past hyears)
    rcases hgiven with ⟨next, hnext⟩ | hadvances
    · exact (hahead next hnext).mp (h next hnext)
    · exact hadvances
  · intro h next hnext
    exact (hahead next hnext).mpr h

/-! ### A second pass -/

/-- An execution leaves the job with a time after `now`, or without one. -/
def CronSchedule.Settles (env : CronEnv) (now : ℤ) : CronSchedule → Prop
  | delay _ => True
  | interval secs => 0 < secs ∧ secs < 2 ^ 63 ∧ now < 2 ^ 63 - 1
  | schedule => schedule.Advances env now

theorem execute_recurring {next : ℤ} {job ran : CronJob} (h : execute env now job = .ok ran)
    (hread : readSchedule env job.scheduleExpr = .ok schedule)
    (hnext : schedule.firstRun env now = .ok next) (hrecurring : schedule.isOneShot = false) :
    ran.status = job.status ∧ ran.enabled = job.enabled ∧ ran.nextRunAt = next := by
  have hcompute : schedule.computeNextRun env now = .ok (some next) := by
    cases schedule with
    | delay secs => cases hrecurring
    | interval secs =>
      show some <$> firstRun env now (.interval secs) = _
      rw [hnext]
      rfl
    | daily hour minute =>
      show some <$> firstRun env now (.daily hour minute) = _
      rw [hnext]
      rfl
    | cronExpr matcher =>
      show some <$> firstRun env now (.cronExpr matcher) = _
      rw [hnext]
      rfl
  unfold execute at h
  rw [parse_eq_ok.mpr ⟨hread, hnext, rfl⟩, ok_bind] at h
  dsimp only at h
  rw [hrecurring, if_neg Bool.false_ne_true, hcompute] at h
  obtain rfl := pure_eq_ok.mp h
  exact ⟨rfl, rfl, rfl⟩

theorem not_due_execute_iff {job ran : CronJob}
    (h : execute env now job = .ok ran) (hread : readSchedule env job.scheduleExpr = .ok schedule)
    (hdue : job.due now) (hnow : 0 ≤ now ∧ now < 2 ^ 63)
    (hyears : ¬ schedule.PastCalendar env now) :
    ¬ ran.due now ↔ schedule.Settles env now := by
  obtain ⟨s, next, hs, hnext⟩ := execute_eq_ok.mp ⟨ran, h⟩
  obtain rfl : schedule = s := Except.ok.inj (hread.symm.trans hs)
  have hahead := ahead_firstRun hnext (inRange_readSchedule hread) hnow hyears
  unfold CronJob.due at hdue
  rw [decide_eq_true_iff] at hdue
  obtain ⟨hactive, henabled, -⟩ := hdue
  -- a job that is executed again keeps its status and gets the next time
  have hrecurring : schedule.isOneShot = false → (¬ ran.due now ↔ now < next) := by
    intro hrecurring
    obtain ⟨hstatus, henabled', hnextRun⟩ := execute_recurring h hread hnext hrecurring
    unfold CronJob.due
    rw [decide_eq_true_iff, hstatus, henabled', hnextRun, hactive, henabled]
    constructor
    · intro hnot
      by_contra hle
      exact hnot ⟨rfl, rfl, by omega⟩
    · rintro hlater ⟨-, -, hle⟩
      omega
  cases schedule with
  | delay secs =>
    unfold execute at h
    rw [parse_eq_ok.mpr ⟨hread, hnext, rfl⟩, ok_bind] at h
    obtain rfl := pure_eq_ok.mp h
    refine iff_of_true ?_ trivial
    unfold CronJob.due
    rw [decide_eq_true_iff]
    rintro ⟨hstatus, -, -⟩
    cases hstatus
  | interval secs =>
    rw [hrecurring rfl]
    obtain rfl := Except.ok.inj hnext
    unfold Ahead at hahead
    show _ ↔ 0 < secs ∧ secs < 2 ^ 63 ∧ now < 2 ^ 63 - 1
    have hle : saturateI64 (now + IntType.i64.wrap secs) ≤ 2 ^ 63 - 1 := by
      unfold saturateI64
      omega
    have hadvances : CronSchedule.Advances env now (.interval secs) ↔
      (0 < secs ∧ secs < 2 ^ 63) ∨ (secs = 0 ∧ now = 2 ^ 63 - 1) := Iff.rfl
    rw [hadvances] at hahead
    omega
  | daily hour minute =>
    show _ ↔ CronSchedule.Advances env now (.daily hour minute)
    obtain ⟨hhour, hminute⟩ := inRange_readSchedule hread
    rw [hrecurring rfl, ← hahead]
    unfold Ahead
    rcases nextDailyOccurrence_cases hnext hnow ⟨by omega, by omega⟩ ⟨by omega, by omega⟩ with
      ⟨hlater, -, -⟩ | ⟨-, hnegative, -⟩
    · omega
    · omega
  | cronExpr matcher =>
    have hcalendar := calendar_of_not_past hyears
    rw [hrecurring rfl]
    exact iff_of_true (CronFieldMatcher.lt_of_nextRunAfter hnext hnow hcalendar) hcalendar

theorem runDue_nothing_iff : ∀ {jobs : List CronJob},
    (∃ jobs', runDue env now jobs = .ok (jobs', [])) ↔ ∀ job ∈ jobs, ¬ job.due now
  | [] => iff_of_true ⟨[], rfl⟩ fun _ hjob => absurd hjob not_mem_nil
  | job :: jobs => by
    have ih := @runDue_nothing_iff jobs
    rw [forall_mem_cons, ← ih, runDue]
    by_cases hdue : job.due now
    · rw [if_pos hdue]
      simp only [bind_eq_ok, pure_eq_ok, Prod.mk.injEq, reduceCtorEq, and_false, exists_false,
        hdue, not_true_eq_false, false_and]
    · rw [if_neg hdue]
      simp only [bind_eq_ok, pure_eq_ok, Prod.mk.injEq]
      constructor
      · rintro ⟨_, ⟨rest, executed⟩, hrest, -, rfl⟩
        exact ⟨hdue, rest, hrest⟩
      · rintro ⟨-, rest, hrest⟩
        exact ⟨job :: rest, ⟨rest, []⟩, hrest, rfl, rfl⟩

/-- The jobs after a pass: the due ones executed, and the others. -/
theorem mem_runDue {job' : CronJob} : ∀ {jobs : List CronJob}
    {result : List CronJob × List (CronJob × CronExecutionResult)},
    runDue env now jobs = .ok result → (job' ∈ result.1 ↔
      ∃ job ∈ jobs, if job.due now then execute env now job = .ok job' else job' = job)
  | [], result, h => by
    obtain rfl := Except.ok.inj h
    simp
  | job :: jobs, result, h => by
    rw [runDue] at h
    split_ifs at h with hdue
    · simp only [bind_eq_ok, pure_eq_ok] at h
      obtain ⟨ran, hran, rest, hrest, rfl⟩ := h
      have hsame : job' = ran ↔ execute env now job = .ok job' := by
        rw [hran, Except.ok.injEq]
        exact eq_comm
      rw [mem_cons, mem_runDue hrest, exists_mem_cons_iff, if_pos hdue, hsame]
    · simp only [bind_eq_ok, pure_eq_ok] at h
      obtain ⟨rest, hrest, rfl⟩ := h
      rw [mem_cons, mem_runDue hrest, exists_mem_cons_iff, if_neg hdue]

theorem CronSchedule.Advances.not_past
    (h : schedule.Advances env now) : ¬ schedule.PastCalendar env now := by
  cases schedule with
  | delay | interval | daily => exact id
  | cronExpr matcher => exact not_past_of_calendar h

theorem CronSchedule.Settles.not_past
    (h : schedule.Settles env now) : ¬ schedule.PastCalendar env now := by
  cases schedule with
  | delay | interval | daily => exact id
  | cronExpr matcher => exact not_past_of_calendar h


/-- **When a schedule is due again.** The times that a schedule gives are ahead of `now` exactly if
it goes on, as far as the calendar reaches; and after a pass a second one executes nothing under the
same condition. -/
theorem due_again_iff (env : CronEnv) {now : ℤ} (hnow : 0 ≤ now ∧ now < 2 ^ 63) :
    (∀ expr schedule, readSchedule env expr = .ok schedule →
      (schedule.Advances env now → GoesOn env now expr schedule) ∧
      (GoesOn env now expr schedule → schedule.Advances env now ∨ schedule.PastCalendar env now)) ∧
    ∀ jobs jobs' executed, runDue env now jobs = .ok (jobs', executed) →
      ((∀ job ∈ jobs, job.due now → ∀ schedule,
          readSchedule env job.scheduleExpr = .ok schedule → schedule.Settles env now) →
        ∃ jobs'', runDue env now jobs' = .ok (jobs'', [])) ∧
      ((∃ jobs'', runDue env now jobs' = .ok (jobs'', [])) → ∀ job ∈ jobs, job.due now → ∀ schedule,
          readSchedule env job.scheduleExpr = .ok schedule →
            schedule.Settles env now ∨ schedule.PastCalendar env now) := by
  refine ⟨?_, ?_⟩
  · intro expr schedule hread
    by_cases hyears : schedule.PastCalendar env now
    · refine ⟨?_, fun _ => Or.inr hyears⟩
      intro hadvances
      exact absurd hyears hadvances.not_past
    · have hiff := goesOn_iff hread hnow hyears
      exact ⟨hiff.mpr, fun h => Or.inl (hiff.mp h)⟩
  · intro jobs jobs' executed hruns
    have hmem : ∀ job', job' ∈ jobs' ↔ _ := fun job' => @mem_runDue env now job' _ _ hruns
    rw [runDue_nothing_iff]
    constructor
    · intro hsettle job' hjob'
      obtain ⟨job, hjob, hcase⟩ := (hmem job').mp hjob'
      split_ifs at hcase with hdue
      · obtain ⟨schedule, next, hread, -⟩ := execute_eq_ok.mp ⟨job', hcase⟩
        have hsettles := hsettle job hjob hdue schedule hread
        exact (not_due_execute_iff hcase hread hdue hnow hsettles.not_past).mpr hsettles
      · rw [hcase]
        exact hdue
    · intro hquiet job hjob hdue schedule hread
      by_cases hyears : schedule.PastCalendar env now
      · exact Or.inr hyears
      · obtain ⟨ran, hran⟩ := executes_of_runDue hruns job hjob hdue
        have hran' : ran ∈ jobs' := (hmem ran).mpr ⟨job, hjob, by rwa [if_pos hdue]⟩
        exact Or.inl ((not_due_execute_iff hran hread hdue hnow hyears).mp (hquiet ran hran'))

theorem due_again_iff_minute : GoesOn sampleEnv 1000 "every 1m" (.interval 60) :=
  ((due_again_iff sampleEnv (by decide : (0 : ℤ) ≤ 1000 ∧ (1000 : ℤ) < 2 ^ 63)).1 "every 1m"
    (.interval 60) (by decide +kernel)).1 (Or.inl ⟨by decide, by decide⟩)

/-- A job without a pause is due again at once, and executed by every pass; a length that fills 64
bits leads back in time. -/
theorem every_zero_seconds_due_again :
    CronSchedule.parse sampleEnv "every 0s" 1000 = .ok (.interval 0, 1000, false) ∧
      CronSchedule.parse sampleEnv "in 18446744073709551615s" 1000 =
        .ok (.delay 18446744073709551615, 999, true) ∧
      ¬ Ahead 1000 1000 ∧ ¬ Ahead 1000 999 ∧
      (do
        let (jobs, _) ← addJob sampleEnv "tick" "every 0s" "run" none none 1000 []
        let (jobs, first) ← runDue sampleEnv 1000 jobs
        let (_, second) ← runDue sampleEnv 1000 jobs
        pure (first.length, second.length)) = Except.ok (1, 1) := by
  refine ⟨by decide +kernel, by decide +kernel, ?_, ?_, by decide +kernel⟩
  all_goals
    unfold Ahead
    omega

end Pandora.Cron
