import Mathlib

/-! # The Gregorian calendar

The date of a day is counted from 1 January 1970, one day after the other (`date`). `number` is the
day of a date in closed form, with the months counted from March; the two agree (`number_date`).
A month ends where the first day of the next one begins (`month_of_lt`). -/

namespace Pandora.Lib.Gregorian

structure Date where
  (year month day : ℤ)

def IsLeap (year : ℤ) : Prop := year % 4 = 0 ∧ (year % 100 ≠ 0 ∨ year % 400 = 0)

instance (year : ℤ) : Decidable (IsLeap year) := inferInstanceAs (Decidable (_ ∧ _))

def daysInMonth (year month : ℤ) : ℤ :=
  if month = 2 then if IsLeap year then 29 else 28
  else if month = 4 ∨ month = 6 ∨ month = 9 ∨ month = 11 then 30
  else 31

namespace Date

variable (d : Date)

/-- The first day of the next month. -/
def nextMonth : Date :=
  if d.month = 12 then ⟨d.year + 1, 1, 1⟩ else ⟨d.year, d.month + 1, 1⟩

def next : Date :=
  if d.day < daysInMonth d.year d.month then { d with day := d.day + 1 } else d.nextMonth

structure Valid : Prop where
  month : 1 ≤ d.month ∧ d.month ≤ 12
  day : 1 ≤ d.day ∧ d.day ≤ daysInMonth d.year d.month

/-- The year that a date belongs to if years begin in March. -/
def marchYear : ℤ := if d.month ≤ 2 then d.year - 1 else d.year

/-- The month of that year, from 0. -/
def marchMonth : ℤ := if 2 < d.month then d.month - 3 else d.month + 9

/-- The number of the day, from 1 January 1970. -/
def number : ℤ :=
  365 * d.marchYear + d.marchYear / 4 - d.marchYear / 100 + d.marchYear / 400 +
    (153 * d.marchMonth + 2) / 5 + d.day - 1 - 719468

end Date

def date : ℕ → Date
  | 0 => ⟨1970, 1, 1⟩
  | n + 1 => (date n).next

theorem daysInMonth_pos (year month : ℤ) : 28 ≤ daysInMonth year month := by
  unfold daysInMonth
  split_ifs
  all_goals omega

theorem Date.Valid.cases_month {d : Date} (h : d.Valid) : d.month = 1 ∨ d.month = 2 ∨ d.month = 3 ∨
    d.month = 4 ∨ d.month = 5 ∨ d.month = 6 ∨ d.month = 7 ∨ d.month = 8 ∨ d.month = 9 ∨
    d.month = 10 ∨ d.month = 11 ∨ d.month = 12 := by
  have hmonth := h.month
  omega

/-- The days from a date to the next month. -/
theorem number_nextMonth {d : Date} (h : d.Valid) :
    d.nextMonth.number = d.number + (daysInMonth d.year d.month - d.day) + 1 := by
  unfold Date.nextMonth Date.number Date.marchYear Date.marchMonth daysInMonth IsLeap
  rcases h.cases_month with hm | hm | hm | hm | hm | hm | hm | hm | hm | hm | hm | hm
  all_goals
    simp only [hm, Int.reduceLE, Int.reduceLT, Int.reduceEq, Int.reduceAdd, if_true, if_false,
      or_self, or_true, true_or]
    omega

theorem Date.Valid.nextMonth {d : Date} (h : d.Valid) : d.nextMonth.Valid := by
  have hmonth := h.month
  unfold Date.nextMonth
  split_ifs with hlast
  · have hpos := daysInMonth_pos (d.year + 1) 1
    exact ⟨⟨le_refl 1, by dsimp only; omega⟩, le_refl 1, by dsimp only; omega⟩
  · have hpos := daysInMonth_pos d.year (d.month + 1)
    exact ⟨⟨by dsimp only; omega, by dsimp only; omega⟩, le_refl 1, by dsimp only; omega⟩

theorem Date.Valid.next {d : Date} (h : d.Valid) : d.next.Valid := by
  unfold Date.next
  split_ifs with hmore
  · exact ⟨h.month, by have := h.day.1; dsimp only; omega, by dsimp only; omega⟩
  · exact h.nextMonth

theorem number_next {d : Date} (h : d.Valid) : d.next.number = d.number + 1 := by
  unfold Date.next
  split_ifs with hmore
  · unfold Date.number Date.marchYear Date.marchMonth
    dsimp only
    omega
  · have hday := h.day.2
    rw [number_nextMonth h]
    omega

theorem valid_date : ∀ n, (date n).Valid
  | 0 => ⟨by decide, by decide⟩
  | n + 1 => (valid_date n).next

/-- **The closed form.** -/
theorem number_date : ∀ n : ℕ, (date n).number = n
  | 0 => by decide
  | n + 1 => by
    rw [date, number_next (valid_date n), number_date n]
    rfl

/-- The next month begins later. -/
theorem lt_number_nextMonth (n : ℕ) : (n : ℤ) < (date n).nextMonth.number := by
  have hvalid := valid_date n
  have hday := hvalid.day.2
  rw [number_nextMonth hvalid, number_date]
  omega

/-- **The days until the next month** belong to the same month. -/
theorem month_of_lt {n k : ℕ} (hle : n ≤ k) (hlt : (k : ℤ) < (date n).nextMonth.number) :
    (date k).year = (date n).year ∧ (date k).month = (date n).month := by
  induction k, hle using Nat.le_induction with
  | base => exact ⟨rfl, rfl⟩
  | succ k hle ih =>
    obtain ⟨hyear, hmonth⟩ := ih (by push_cast at hlt; omega)
    have hsame : (date k).nextMonth = (date n).nextMonth := by
      unfold Date.nextMonth
      rw [hyear, hmonth]
    rw [date]
    unfold Date.next
    split_ifs with hmore
    · exact ⟨hyear, hmonth⟩
    · -- the day after is the first of the next month
      exfalso
      have hnumber : (date (k + 1)).number = (k + 1 : ℕ) := number_date (k + 1)
      rw [date, Date.next, if_neg hmore, hsame] at hnumber
      omega

/-! ### Eras of 400 years -/

namespace Date

variable {d : Date}

def yearOfEra (d : Date) : ℤ := d.marchYear % 400

/-- The day of the year that begins in March, from 0. -/
def dayOfYear (d : Date) : ℤ := (153 * d.marchMonth + 2) / 5 + d.day - 1

def dayOfEra (d : Date) : ℤ :=
  365 * d.yearOfEra + d.yearOfEra / 4 - d.yearOfEra / 100 + d.dayOfYear

theorem number_era (d : Date) :
    d.number + 719468 = d.marchYear / 400 * 146097 + d.dayOfEra := by
  unfold number dayOfEra dayOfYear yearOfEra
  omega

theorem Valid.dayOfYear_cases (h : d.Valid) : 0 ≤ d.dayOfYear ∧
    (d.dayOfYear ≤ 364 ∨ d.dayOfYear = 365 ∧ IsLeap (d.marchYear + 1)) ∧
    (5 * d.dayOfYear + 2) / 153 = d.marchMonth := by
  obtain ⟨hlow, hhigh⟩ := h.day
  unfold daysInMonth IsLeap at hhigh
  unfold dayOfYear marchMonth marchYear IsLeap
  rcases h.cases_month with hm | hm | hm | hm | hm | hm | hm | hm | hm | hm | hm | hm
  all_goals
    simp only [hm, Int.reduceLE, Int.reduceLT, Int.reduceEq, if_true, if_false, or_self, or_true,
      true_or] at hhigh ⊢
    omega

/-- **Every day has a date.** -/
theorem exists_valid (days : ℤ) : ∃ d : Date, d.Valid ∧ d.number = days := by
  obtain ⟨hmonth, hday⟩ := valid_date (days % 146097).toNat
  have hnumber := number_date (days % 146097).toNat
  generalize date (days % 146097).toNat = d at hmonth hday hnumber
  refine ⟨{ d with year := d.year + 400 * (days / 146097) }, ⟨hmonth, ?_⟩, ?_⟩
  · unfold daysInMonth IsLeap at hday ⊢
    dsimp only
    omega
  · unfold number marchYear marchMonth at hnumber ⊢
    dsimp only
    omega

end Date

end Pandora.Lib.Gregorian
