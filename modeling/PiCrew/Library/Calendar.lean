/-
**Days and dates of the Gregorian calendar.**

Days are counted from the first of January 1970, years run on before the first one with zero and below, and
months are counted from zero. A date may have a day or a month beyond the last one; it then stands for a day
of a later month or year.

* `makeDay_date` — a day is made again of its date, and so is the day a number of days later.
-/

import Mathlib.Tactic.Ring
import Mathlib.Order.Basic

namespace Calendar

def isLeap (year : Int) : Bool := year % 4 = 0 ∧ (year % 100 ≠ 0 ∨ year % 400 = 0)

def dayFromYear (year : Int) : Int :=
  365 * (year - 1970) + (year - 1969) / 4 - (year - 1901) / 100 + (year - 1601) / 400

/-- **The year of a day**: of an average year's guess and its neighbours. -/
def yearFromDay (day : Int) : Int :=
  let guess := 1970 + 400 * day / 146097
  if day < dayFromYear guess then guess - 1
  else if dayFromYear (guess + 1) ≤ day then guess + 1
  else guess

theorem dayFromYear_mono {first second : Int} (ordered : first ≤ second) :
    dayFromYear first ≤ dayFromYear second := by
  simp only [dayFromYear]
  omega

theorem yearFromDay_spec (day : Int) :
    dayFromYear (yearFromDay day) ≤ day ∧ day < dayFromYear (yearFromDay day + 1) := by
  -- the guess is the year or a neighbour of it
  have near : dayFromYear (1970 + 400 * day / 146097 - 1) ≤ day ∧
      day < dayFromYear (1970 + 400 * day / 146097 + 1 + 1) := by
    simp only [dayFromYear]
    omega
  simp only [yearFromDay]
  split
  · next before => exact ⟨near.1, by rwa [Int.sub_add_cancel]⟩
  · next reached =>
      split
      · next later => exact ⟨later, near.2⟩
      · next sooner => exact ⟨not_lt.mp reached, not_le.mp sooner⟩

/-- The days of a year before a month, which is counted from zero. -/
def daysBefore (leap : Bool) (month : Int) : Int :=
  let leapDay := if leap then 1 else 0
  match month with
  | 0 => 0
  | 1 => 31
  | 2 => 59 + leapDay
  | 3 => 90 + leapDay
  | 4 => 120 + leapDay
  | 5 => 151 + leapDay
  | 6 => 181 + leapDay
  | 7 => 212 + leapDay
  | 8 => 243 + leapDay
  | 9 => 273 + leapDay
  | 10 => 304 + leapDay
  | _ => 334 + leapDay

def dayInYear (day : Int) : Int := day - dayFromYear (yearFromDay day)

def monthFromDay (day : Int) : Int :=
  (([11, 10, 9, 8, 7, 6, 5, 4, 3, 2, 1] : List Int).find? fun month =>
    daysBefore (isLeap (yearFromDay day)) month ≤ dayInYear day).getD 0

def dateFromDay (day : Int) : Int :=
  dayInYear day - daysBefore (isLeap (yearFromDay day)) (monthFromDay day) + 1

def weekDay (day : Int) : Int := (day + 4) % 7

/-- **The day of a date**, whose month and day may be beyond the last one. -/
def makeDay (year month date : Int) : Int :=
  dayFromYear (year + month / 12) + daysBefore (isLeap (year + month / 12)) (month % 12) + date - 1

theorem dayInYear_nonneg (day : Int) : 0 ≤ dayInYear day := by
  have := (yearFromDay_spec day).1
  rw [dayInYear]
  omega

theorem monthFromDay_spec (day : Int) : (0 ≤ monthFromDay day ∧ monthFromDay day ≤ 11) ∧
      daysBefore (isLeap (yearFromDay day)) (monthFromDay day) ≤ dayInYear day := by
  rw [monthFromDay]
  cases found : ([11, 10, 9, 8, 7, 6, 5, 4, 3, 2, 1] : List Int).find? fun month =>
      daysBefore (isLeap (yearFromDay day)) month ≤ dayInYear day with
  | none => exact ⟨by decide, dayInYear_nonneg day⟩
  | some month =>
    have member := List.mem_of_find?_eq_some found
    have bounds : ∀ month ∈ ([11, 10, 9, 8, 7, 6, 5, 4, 3, 2, 1] : List Int), 0 ≤ month ∧ month ≤ 11 := by
      decide
    have begun := List.find?_some found
    exact ⟨bounds month member, by simpa using begun⟩

theorem dateFromDay_pos (day : Int) : 1 ≤ dateFromDay day := by
  have := (monthFromDay_spec day).2
  rw [dateFromDay]
  omega

/-- **A day so many days later is made of its date.** -/
theorem makeDay_date (day later : Int) :
    makeDay (yearFromDay day) (monthFromDay day) (dateFromDay day + later) = day + later := by
  obtain ⟨⟨least, most⟩, -⟩ := monthFromDay_spec day
  have quotient : monthFromDay day / 12 = 0 := by omega
  have remainder : monthFromDay day % 12 = monthFromDay day := by omega
  rw [makeDay, quotient, remainder, Int.add_zero, dateFromDay, dayInYear]
  ring

theorem dayFromYear_le_makeDay {year month date : Int} (least : 0 ≤ month) (positive : 1 ≤ date) :
    dayFromYear year ≤ makeDay year month date := by
  have begun (leap : Bool) (month : Int) : 0 ≤ daysBefore leap month := by
    unfold daysBefore
    dsimp only
    split <;> (try split) <;> decide
  have := dayFromYear_mono (show year ≤ year + month / 12 by omega)
  have := begun (isLeap (year + month / 12)) (month % 12)
  rw [makeDay]
  omega

/-- The last day of February 2024. -/
example : (yearFromDay 19782, monthFromDay 19782, dateFromDay 19782, weekDay 19782) = (2024, 1, 29, 4) := by
  decide

end Calendar
