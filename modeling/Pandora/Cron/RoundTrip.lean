import Pandora.Cron.Advance

/-! # Dates and day numbers

`days_from_civil` is exact. `civil_from_days` counts the leap days of an era by `doe / 1024`,
`doe / 1461` and `doe / 142401`, which is too few: the last days of most years are taken for days of
the next one (`Late`), and then the day of the year underflows. -/

namespace Pandora.Cron

open Lib.Checked Lib.MachineInts Lib.Gregorian Date

variable {d : Date}

/-- The day of the year and the leap days before it exceed the 365 days and those counted. -/
def Late (d : Date) : Prop :=
  365 + d.dayOfEra / 1024 - d.dayOfEra / 1461 + d.dayOfEra / 142401 ≤
    d.dayOfYear + d.yearOfEra / 4 - d.yearOfEra / 100

instance (d : Date) : Decidable (Late d) := inferInstanceAs (Decidable (_ ≤ _))

/-- The year, counted from March as the source counts it, fits 32 bits. -/
structure InRange (d : Date) : Prop where
  low : -2 ^ 31 + 399 ≤ d.marchYear
  high : d.year < 2 ^ 31

/-- The year of the era as the source estimates it. -/
theorem estimate_cases {Y doy doe : ℤ} (hY : 0 ≤ Y ∧ Y < 400) (hdoy : 0 ≤ doy ∧ doy ≤ 365)
    (hleap : doy ≤ 364 ∨ (Y + 1) % 4 = 0) (hdoe : doe = 365 * Y + Y / 4 - Y / 100 + doy) :
    (doe - doe / 1024 + doe / 1461 - doe / 142401) / 365 =
      if 365 + doe / 1024 - doe / 1461 + doe / 142401 ≤ doy + Y / 4 - Y / 100 then Y + 1
      else if doe = 1095 then Y - 1 else Y := by
  have hcases : Y = 0 ∨ Y = 1 ∨ Y = 2 ∨ Y = 3 ∨ 4 ≤ Y := by omega
  split_ifs with hlate hmarch
  · omega
  · rcases hcases with rfl | rfl | rfl | rfl | hcases
    all_goals omega
  · rcases hcases with rfl | rfl | rfl | rfl | hcases
    all_goals omega

theorem daysFromCivil_number (h : d.Valid) (hrange : InRange d) :
    daysFromCivil true d.year d.month d.day = .ok d.number := by
  obtain ⟨hlow, hhigh⟩ := hrange
  unfold marchYear at hlow
  refine daysFromCivil_fits ⟨h.month.1, by have := h.month; omega⟩ ⟨h.day.1, ?_⟩ hlow fun hm => ?_
  · refine h.day.2.trans ?_
    unfold daysInMonth
    split_ifs
    all_goals omega
  · rw [if_pos hm] at hlow
    exact ⟨by omega, by omega⟩

theorem civilFromMonth_eq {y d m : ℤ} (h : m ≤ 2 → IntType.i32.Fits (y + 1)) :
    civilFromMonth true y d m = .ok (if m ≤ 2 then y + 1 else y, m, d) := by
  unfold civilFromMonth
  split_ifs with hm
  · have hyear : i32 true (y + 1) = .ok (y + 1) := IntType.arith_of_fits (h hm)
    rw [hyear, ok_bind]
    rfl
  · rfl

/-- From the year of the era on, if the day does not come before the year. -/
theorem civilFromYoe_eq {era doe yoe doy : ℤ} (hyoe : 0 ≤ yoe ∧ yoe ≤ 400)
    (hera : IntType.i32.Fits (era * 400)) (hy : IntType.i32.Fits (yoe + era * 400))
    (hdoy : 0 ≤ doy ∧ doy ≤ 366) (hdoe : doe = 365 * yoe + yoe / 4 - yoe / 100 + doy) :
    civilFromYoe true era doe yoe = civilFromDoy true (yoe + era * 400) doy := by
  have hcast : IntType.i32.wrap era = era := by
    refine IntType.wrap_eq_self_iff.mpr ⟨?_, ?_⟩
    · have := hera.1
      omega
    · have := hera.2
      omega
  have hcast' : IntType.i32.wrap yoe = yoe := IntType.wrap_eq_self_iff.mpr ⟨by omega, by omega⟩
  have hfirst : i32 true (era * 400) = .ok (era * 400) := IntType.arith_of_fits hera
  have hyear : i32 true (yoe + era * 400) = .ok (yoe + era * 400) := IntType.arith_of_fits hy
  unfold civilFromYoe
  rw [hcast, hcast', hfirst, ok_bind, hyear, ok_bind, u32_of_range ⟨by omega, by omega⟩, ok_bind,
    u32_of_range ⟨by omega, by omega⟩, ok_bind, u32_of_range ⟨by omega, by omega⟩, ok_bind,
    u32_of_range ⟨by omega, by omega⟩, ok_bind]
  exact congrArg _ (by omega)

/-- What the source has found when it knows the year of the era. -/
theorem civilFromDays_number (h : d.Valid) (hrange : InRange d) :
    0 ≤ d.dayOfYear ∧ d.dayOfYear ≤ 365 ∧ 0 ≤ d.yearOfEra ∧ d.yearOfEra < 400 ∧
      d.marchYear = d.yearOfEra + d.marchYear / 400 * 400 ∧ d.marchYear ≤ d.year ∧
      d.dayOfEra = 365 * d.yearOfEra + d.yearOfEra / 4 - d.yearOfEra / 100 + d.dayOfYear ∧
      civilFromDays true d.number = civilFromYoe true (d.marchYear / 400) d.dayOfEra
        (if Late d then d.yearOfEra + 1 else if d.dayOfEra = 1095 then d.yearOfEra - 1
          else d.yearOfEra) := by
  obtain ⟨hlow, hdoy, -⟩ := h.dayOfYear_cases
  obtain ⟨hfrom, hto⟩ := hrange
  have hyear : d.marchYear ≤ d.year := by
    unfold marchYear
    split_ifs
    all_goals omega
  have hY : d.yearOfEra = d.marchYear % 400 := rfl
  have hdoe : d.dayOfEra =
      365 * d.yearOfEra + d.yearOfEra / 4 - d.yearOfEra / 100 + d.dayOfYear := rfl
  have hleap : d.dayOfYear ≤ 364 ∨ (d.yearOfEra + 1) % 4 = 0 := by
    unfold IsLeap at hdoy
    omega
  have hnumber := d.number_era
  refine ⟨hlow, by omega, by omega, by omega, by omega, hyear, hdoe, ?_⟩
  rw [civilFromDays_split ⟨by omega, by omega⟩, hnumber,
    show (d.marchYear / 400 * 146097 + d.dayOfEra) / 146097 = d.marchYear / 400 by omega,
    show (d.marchYear / 400 * 146097 + d.dayOfEra) % 146097 = d.dayOfEra by omega,
    civilFromDoe_eq ⟨by omega, by omega⟩,
    estimate_cases ⟨by omega, by omega⟩ ⟨hlow, by omega⟩ hleap hdoe]
  rfl

/-- The day that is taken for the one before. -/
theorem march_of_dayOfEra (h : d.Valid) (hmarch : d.dayOfEra = 1095) :
    d.dayOfYear = 0 ∧ d.yearOfEra = 3 ∧ d.marchYear = d.year ∧ d.month = 3 ∧ d.day = 1 := by
  obtain ⟨hlow, hleap, hmonth⟩ := h.dayOfYear_cases
  have hY : d.yearOfEra = d.marchYear % 400 := rfl
  have hdoe : d.dayOfEra =
      365 * d.yearOfEra + d.yearOfEra / 4 - d.yearOfEra / 100 + d.dayOfYear := rfl
  have hdate : d.dayOfYear = 0 ∧ d.yearOfEra = 3 := by
    unfold IsLeap at hleap
    have hcases : d.yearOfEra = 0 ∨ d.yearOfEra = 1 ∨ d.yearOfEra = 2 ∨ d.yearOfEra = 3 ∨
        4 ≤ d.yearOfEra := by omega
    rcases hcases with hc | hc | hc | hc | hc
    all_goals omega
  have hvalid := h.month
  have hday := h.day.1
  have hdoy := hdate.1
  rw [hdate.1] at hmonth
  unfold dayOfYear at hdoy
  unfold marchMonth at hmonth hdoy
  unfold marchYear
  exact ⟨hdate.1, hdate.2, by omega, by omega, by omega⟩

/-- **The dates that are found**: the date itself, or 29 February for 1 March. -/
theorem civilFromDays_of_not_late (h : d.Valid) (hrange : InRange d) (hlate : ¬ Late d) :
    civilFromDays true d.number =
      .ok (if d.dayOfEra = 1095 then (d.year, 2, 29) else (d.year, d.month, d.day)) := by
  obtain ⟨hlow, hhigh, hY, hY', hera, hyear, hdoe, heq⟩ := civilFromDays_number h hrange
  obtain ⟨hfrom, hto⟩ := hrange
  rw [heq, if_neg hlate]
  split_ifs with hmarch
  · -- the first day of the fourth year is taken for the last of the third
    obtain ⟨hdoy, hthird, hyear', -, -⟩ := march_of_dayOfEra h hmarch
    rw [civilFromYoe_eq ⟨by omega, by omega⟩ ⟨by omega, by omega⟩ ⟨by omega, by omega⟩
      (show 0 ≤ (365 : ℤ) ∧ 365 ≤ 366 by decide) (by omega), civilFromDoy_eq (by decide),
      civilFromMonth_eq fun _ => ⟨by omega, by omega⟩]
    refine congrArg Except.ok (Prod.ext ?_ rfl)
    show d.yearOfEra - 1 + d.marchYear / 400 * 400 + 1 = d.year
    omega
  · rw [civilFromYoe_eq ⟨by omega, by omega⟩ ⟨by omega, by omega⟩ ⟨by omega, by omega⟩
      ⟨hlow, by omega⟩ hdoe, civilFromDoy_eq ⟨hlow, by omega⟩, h.dayOfYear_cases.2.2, ← hera]
    have hmonth := h.month
    have hm : (if d.marchMonth < 10 then d.marchMonth + 3 else d.marchMonth - 9) = d.month := by
      unfold marchMonth
      omega
    rw [hm, civilFromMonth_eq]
    · refine congrArg Except.ok (Prod.ext ?_ (Prod.ext rfl ?_))
      · unfold marchYear
        dsimp only
        omega
      · unfold dayOfYear
        dsimp only
        omega
    · intro hearly
      unfold marchYear
      exact ⟨by omega, by omega⟩

/-- **A late day** has no date, or that of the day after it. -/
theorem late_not_found (h : d.Valid) (hrange : InRange d) (hlate : Late d) {date : ℤ × ℤ × ℤ}
    (hdate : civilFromDays true d.number = .ok date) :
    daysFromCivil true date.1 date.2.1 date.2.2 ≠ .ok d.number := by
  obtain ⟨hlow, hhigh, hY, hY', hera, hyear, hdoe, heq⟩ := civilFromDays_number h hrange
  obtain ⟨hfrom, hto⟩ := hrange
  obtain ⟨-, hleap, -⟩ := h.dayOfYear_cases
  rw [heq, if_pos hlate] at hdate
  unfold IsLeap at hleap
  -- the day comes before the year, but at the end of an era
  have hbefore : d.dayOfEra < 365 * (d.yearOfEra + 1) + (d.yearOfEra + 1) / 4 -
      (d.yearOfEra + 1) / 100 ∨ d.yearOfEra = 399 ∧ d.dayOfYear = 365 := by
    omega
  have hcast : IntType.i32.wrap (d.marchYear / 400) = d.marchYear / 400 :=
    IntType.wrap_eq_self_iff.mpr ⟨by omega, by omega⟩
  have hcast' : IntType.i32.wrap (d.yearOfEra + 1) = d.yearOfEra + 1 :=
    IntType.wrap_eq_self_iff.mpr ⟨by omega, by omega⟩
  unfold civilFromYoe at hdate
  rw [hcast, hcast'] at hdate
  simp only [bind_eq_ok] at hdate
  obtain ⟨first, hfirst, y, hy, d₁, hd₁, d₂, hd₂, d₃, hd₃, doy, hdoy, hdate⟩ := hdate
  obtain ⟨rfl, -⟩ := eq_of_arith hfirst (Or.inl rfl)
  obtain ⟨rfl, -⟩ := eq_of_arith hy (Or.inl rfl)
  obtain ⟨rfl, -⟩ := eq_of_arith hd₁ (Or.inl rfl)
  obtain ⟨rfl, -⟩ := eq_of_arith hd₂ (Or.inl rfl)
  obtain ⟨rfl, -⟩ := eq_of_arith hd₃ (Or.inl rfl)
  obtain ⟨rfl, hfits, -⟩ := eq_of_arith hdoy (Or.inl rfl)
  obtain ⟨hlast, hfeb⟩ := hbefore.resolve_left (by omega)
  rw [show d.dayOfEra - (365 * (d.yearOfEra + 1) + (d.yearOfEra + 1) / 4 -
      (d.yearOfEra + 1) / 100) = 0 by omega, civilFromDoy_eq (by decide),
    civilFromMonth_eq (fun hm => absurd hm (by decide))] at hdate
  obtain rfl : (d.yearOfEra + 1 + d.marchYear / 400 * 400, 3, 1) = date := Except.ok.inj hdate
  intro hdays
  replace hdays : daysFromCivil true (d.yearOfEra + 1 + d.marchYear / 400 * 400) 3 1 =
    .ok d.number := hdays
  rw [daysFromCivil_fits (by decide) (by decide) (by rw [if_neg (by decide)]; omega)
    (fun hm => absurd hm (by decide))] at hdays
  have hnext := Except.ok.inj hdays
  have hfirst : number ⟨d.yearOfEra + 1 + d.marchYear / 400 * 400, 3, 1⟩ =
      march (d.yearOfEra + 1 + d.marchYear / 400 * 400) := by
    unfold number marchYear marchMonth march
    simp only [Int.reduceLE, Int.reduceLT, if_true, if_false]
    omega
  have hnumber := d.number_era
  rw [hfirst, march_era, hlast] at hnext
  omega

/-- **Dates and day numbers.** A day has a date that leads back to it just if it is not late, and
that date is the right one unless it is 1 March of the fourth year of an era. -/
theorem roundTrip_iff (h : d.Valid) (hrange : InRange d) :
    ((∃ date, civilFromDays true d.number = .ok date ∧
        daysFromCivil true date.1 date.2.1 date.2.2 = .ok d.number) ↔ ¬ Late d) ∧
      ((∃ days, daysFromCivil true d.year d.month d.day = .ok days ∧
        civilFromDays true days = .ok (d.year, d.month, d.day)) ↔ ¬ Late d ∧ d.dayOfEra ≠ 1095) ∧
      ∀ days, ∃ d : Date, d.Valid ∧ d.number = days := by
  have hdays := daysFromCivil_number h hrange
  refine ⟨⟨?_, fun hlate => ?_⟩, ⟨?_, ?_⟩, exists_valid⟩
  · rintro ⟨date, hdate, hback⟩ hlate
    exact late_not_found h hrange hlate hdate hback
  · refine ⟨_, civilFromDays_of_not_late h hrange hlate, ?_⟩
    split_ifs with hmarch
    · obtain ⟨-, hthird, hyear, hmonth, hday⟩ := march_of_dayOfEra h hmarch
      obtain ⟨hlow, hhigh⟩ := hrange
      unfold yearOfEra at hthird
      rw [hyear] at hthird hlow
      have hbefore : -2 ^ 31 + 399 ≤ d.year - 1 := by omega
      show daysFromCivil true d.year 2 29 = _
      rw [daysFromCivil_fits (by decide) (by decide) (by rwa [if_pos (by decide)])
        (fun _ => ⟨by omega, by omega⟩)]
      refine congrArg Except.ok ?_
      unfold number marchYear marchMonth
      simp only [hmonth, hday, Int.reduceLE, Int.reduceLT, if_true, if_false]
      omega
    · exact hdays
  · rintro ⟨days, hnumber, hdate⟩
    obtain rfl := Except.ok.inj (hdays.symm.trans hnumber)
    have hlate : ¬ Late d := fun hlate => late_not_found h hrange hlate hdate hdays
    refine ⟨hlate, fun hmarch => ?_⟩
    rw [civilFromDays_of_not_late h hrange hlate, if_pos hmarch] at hdate
    obtain ⟨-, -, -, hmonth, -⟩ := march_of_dayOfEra h hmarch
    have hsecond : 2 = d.month := congrArg (·.2.1) (Except.ok.inj hdate)
    omega
  · rintro ⟨hlate, hmarch⟩
    refine ⟨_, hdays, ?_⟩
    rw [civilFromDays_of_not_late h hrange hlate, if_neg hmarch]

theorem roundTrip_epoch : ∃ date, civilFromDays true (Date.number ⟨1970, 1, 1⟩) = .ok date ∧
    daysFromCivil true date.1 date.2.1 date.2.2 = .ok (Date.number ⟨1970, 1, 1⟩) :=
  (roundTrip_iff (d := ⟨1970, 1, 1⟩) ⟨by decide, by decide⟩ ⟨by decide, by decide⟩).1.mpr
    (by decide)

/-- 28 February 2025 has no date, and 1 March 2003 is taken for 29 February. -/
theorem february_not_found : civilFromDays true (Date.number ⟨2025, 2, 28⟩) = .error .panic ∧
    civilFromDays true (Date.number ⟨2003, 3, 1⟩) = .ok (2003, 2, 29) := by
  decide

end Pandora.Cron
