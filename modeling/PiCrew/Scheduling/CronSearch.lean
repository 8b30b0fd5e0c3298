/-
**The next occurrence of a cron expression.**

`runtime/scheduling/scheduler.ts` (`nextCronDate`). From the minute after an instant the search hops over days
and hours that do not match, and looks through the minutes of an hour that does, as long as it stands within
366 days. Against it stands the plain scan: the first minute that matches, after the instant and within the
366 days.

* `nextCronDate_iff` — the search agrees with the scan just if every matching minute that only one of them
  comes to lies behind a matching minute that both do.

Instants are milliseconds, and an invalid date is `none`. The local time zone is a parameter: what
`setSeconds(0, 0)` makes of an instant. The loop has as many rounds as there are hours in 366 days, and two.
-/

import PiCrew.Library.Calendar
import PiCrew.Scheduling.CronFields

namespace PiCrew.CronSearch

open Calendar CronFields

section

/-- `split(/\s+/)` -/
def splitSpaces : List Char → List (List Char)
  | [] => [[]]
  | char :: rest =>
    match splitSpaces rest with
    | [] => [[char]]
    | first :: others =>
      if Broker.SpawnPolicy.isSpace char then
        -- one white space after another is one separator
        if (rest.head?.any Broker.SpawnPolicy.isSpace) then first :: others else [] :: first :: others
      else (char :: first) :: others

structure Candidates where
  minute : List Nat
  hour : List Nat
  dom : List Nat
  month : List Nat
  dow : List Nat
  deriving DecidableEq, Repr

def msPerMinute : Int := 60000

def msPerHour : Int := 3600000

def msPerDay : Int := 86400000

def maxTime : Int := 8640000000000000

def timeClip (time : Int) : Option Int := if -maxTime ≤ time ∧ time ≤ maxTime then some time else none

def dayOf (time : Int) : Int := time / msPerDay

def getUTCHours (time : Int) : Int := time % msPerDay / msPerHour

def getUTCMinutes (time : Int) : Int := time % msPerHour / msPerMinute

def getUTCFullYear (time : Int) : Int := yearFromDay (dayOf time)

def getUTCMonth (time : Int) : Int := monthFromDay (dayOf time)

def getUTCDate (time : Int) : Int := dateFromDay (dayOf time)

def getUTCDay (time : Int) : Int := weekDay (dayOf time)

/-- `Date.UTC`, which takes a year below 100 for one of the last century. -/
def dateUTC (year month date hours minutes : Int) : Option Int :=
  let fullYear := if 0 ≤ year ∧ year ≤ 99 then 1900 + year else year
  timeClip (makeDay fullYear month date * msPerDay + hours * msPerHour + minutes * msPerMinute)

inductive Next where
  | date (time : Option Int)
  | error (text : String)
  deriving DecidableEq, Repr

def invalidExpression : Next := .error "Invalid cron expression"

def noOccurrence : Next := .error "No next cron occurrence found within search window"

/-- The five fields of an expression; more of them are not looked at. -/
def expand (spec : List Char) : Option Candidates :=
  match splitSpaces spec with
  | minStr :: hourStr :: domStr :: monthStr :: dowStr :: _ =>
    (cronFieldCandidates minStr 0 59 []).bind fun minute =>
      (cronFieldCandidates hourStr 0 23 []).bind fun hour =>
        (cronFieldCandidates domStr 1 31 []).bind fun dom =>
          (cronFieldCandidates monthStr 1 12 cronMonthNames).bind fun month =>
            (cronFieldCandidates dowStr 0 6 cronDowNames).map fun dow => ⟨minute, hour, dom, month, dow⟩
  | _ => none

variable (sets : Candidates)

def dayMatches (time : Int) : Bool :=
  sets.month.contains (getUTCMonth time + 1).toNat && sets.dom.contains (getUTCDate time).toNat &&
    sets.dow.contains (getUTCDay time).toNat

def hourMatches (time : Int) : Bool := sets.hour.contains (getUTCHours time).toNat

def minutesFrom (minute : Nat) : List Nat := List.range' minute (60 - minute)

def nextDay (time : Int) : Option Int :=
  dateUTC (getUTCFullYear time) (getUTCMonth time) (getUTCDate time + 1) 0 0

def nextHour (time : Int) : Option Int :=
  dateUTC (getUTCFullYear time) (getUTCMonth time) (getUTCDate time) (getUTCHours time + 1) 0

/-- **The search**, hop after hop; an invalid cursor is not within the deadline. -/
def searchLoop (deadlineMs : Int) : Nat → Option Int → Option Next
  | 0, _ => none
  | _ + 1, none => some noOccurrence
  | rounds + 1, some time =>
    if time ≤ deadlineMs then
      if !(dayMatches sets time) then searchLoop deadlineMs rounds (nextDay time)
      else if !(hourMatches sets time) then searchLoop deadlineMs rounds (nextHour time)
      else
        match (minutesFrom (getUTCMinutes time).toNat).find? fun minute => sets.minute.contains minute with
        | some minute =>
          some (.date (dateUTC (getUTCFullYear time) (getUTCMonth time) (getUTCDate time)
            (getUTCHours time) minute))
        | none => searchLoop deadlineMs rounds (nextHour time)
    else some noOccurrence

def searchWindow : Int := 366 * msPerDay

/-- **The next occurrence** after an instant. -/
def nextCronDate (setSeconds : Int → Option Int) (spec : List Char) (fromTime : Int) : Option Next :=
  match expand spec with
  | none => some invalidExpression
  | some sets =>
    match (setSeconds fromTime).bind fun time => timeClip (time + msPerMinute) with
    | none => some noOccurrence
    | some cursor => searchLoop sets (cursor + searchWindow) (366 * 24 + 2) (some cursor)

end

section

variable {time other : Int}

/-- The years that `Date.UTC` takes for those of the last century. -/
def EarlyYear (time : Int) : Prop := 0 ≤ getUTCFullYear time ∧ getUTCFullYear time ≤ 99

def hourStart (time : Int) : Int := time / msPerHour * msPerHour

def returned (time : Int) : Option Int :=
  dateUTC (getUTCFullYear time) (getUTCMonth time) (getUTCDate time) (getUTCHours time) (getUTCMinutes time)

theorem dateUTC_fields (ordinary : ¬ EarlyYear time) (days hours minutes : Int) :
    dateUTC (getUTCFullYear time) (getUTCMonth time) (getUTCDate time + days) hours minutes =
      timeClip ((dayOf time + days) * msPerDay + hours * msPerHour + minutes * msPerMinute) := by
  have year : ¬ (0 ≤ getUTCFullYear time ∧ getUTCFullYear time ≤ 99) := ordinary
  rw [dateUTC, if_neg year, getUTCFullYear, getUTCMonth, getUTCDate, makeDay_date]

theorem dateUTC_early (early : EarlyYear time) {days hours minutes : Int} (later : 0 ≤ days)
    (hour : 0 ≤ hours) (minute : 0 ≤ minutes) :
    ∃ made, dateUTC (getUTCFullYear time) (getUTCMonth time) (getUTCDate time + days) hours minutes =
      timeClip made ∧ time + 2 * searchWindow < made := by
  have year : 0 ≤ getUTCFullYear time ∧ getUTCFullYear time ≤ 99 := early
  refine ⟨_, by rw [dateUTC, if_pos year], ?_⟩
  have below := (yearFromDay_spec (dayOf time)).2
  have before := dayFromYear_mono (show yearFromDay (dayOf time) + 1 ≤ 100 by
    change getUTCFullYear time + 1 ≤ 100; omega)
  have month : 0 ≤ getUTCMonth time := (monthFromDay_spec (dayOf time)).1.1
  have date : 1 ≤ getUTCDate time := dateFromDay_pos (dayOf time)
  have within := @dayFromYear_le_makeDay (1900 + getUTCFullYear time) _ (getUTCDate time + days) month (by omega)
  have century := dayFromYear_mono (show 1900 ≤ 1900 + getUTCFullYear time by omega)
  have hundred : dayFromYear 100 = -683003 := by decide
  have nineteen : dayFromYear 1900 = -25567 := by decide
  have day : dayOf time < dayFromYear 100 := below.trans_le before
  have made : dayFromYear 1900 ≤ makeDay (1900 + getUTCFullYear time) (getUTCMonth time)
      (getUTCDate time + days) := century.trans within
  rw [hundred, dayOf] at day
  rw [nineteen] at made
  simp only [searchWindow, msPerDay, msPerHour, msPerMinute] at day made ⊢
  omega

theorem dayOf_eq_of_hour (same : time / msPerHour = other / msPerHour) : dayOf time = dayOf other := by
  simp only [dayOf, msPerDay, msPerHour] at *
  omega

theorem getUTCHours_eq_of_hour (same : time / msPerHour = other / msPerHour) :
    getUTCHours time = getUTCHours other := by
  simp only [getUTCHours, msPerDay, msPerHour] at *
  omega

theorem earlyYear_congr (same : dayOf time = dayOf other) : EarlyYear time ↔ EarlyYear other := by
  rw [EarlyYear, EarlyYear, getUTCFullYear, getUTCFullYear, same]

theorem nextDay_eq (ordinary : ¬ EarlyYear time) : nextDay time = timeClip ((dayOf time + 1) * msPerDay) := by
  rw [nextDay, dateUTC_fields ordinary]
  simp

theorem nextHour_eq (ordinary : ¬ EarlyYear time) :
    nextHour time = timeClip (hourStart time + msPerHour) := by
  have fields := dateUTC_fields ordinary 0 (getUTCHours time + 1) 0
  rw [Int.add_zero] at fields
  rw [nextHour, fields]
  congr 1
  simp only [dayOf, getUTCHours, hourStart, msPerDay, msPerHour, msPerMinute]
  omega

theorem returned_eq (ordinary : ¬ EarlyYear time) (minute : msPerMinute ∣ time) :
    returned time = timeClip time := by
  have fields := dateUTC_fields ordinary 0 (getUTCHours time) (getUTCMinutes time)
  rw [Int.add_zero] at fields
  rw [returned, fields]
  congr 1
  simp only [dayOf, getUTCHours, getUTCMinutes, msPerDay, msPerHour, msPerMinute] at *
  omega

end

section

variable {sets : Candidates} {deadlineMs time minute : Int}

def Matches (sets : Candidates) (minute : Int) : Prop :=
  dayMatches sets minute = true ∧ hourMatches sets minute = true ∧
    sets.minute.contains (getUTCMinutes minute).toNat = true

/-- **The minutes that the search comes to** from a cursor: those of hours that begin within the deadline, up
to the first hundred years. -/
structure Reached (cursor deadlineMs minute : Int) : Prop where
  whole : msPerMinute ∣ minute
  since : cursor / msPerMinute ≤ minute / msPerMinute
  within : hourStart minute ≤ deadlineMs
  valid : hourStart minute ≤ maxTime
  ordinary : ∀ between, cursor ≤ between → between < hourStart minute → ¬ EarlyYear between

/-- The first of the minutes with a property. -/
structure IsFirst (wanted : Int → Prop) (minute : Int) : Prop where
  has : wanted minute
  least : ∀ other, wanted other → minute ≤ other

def Finds (sets : Candidates) (deadlineMs cursor : Int) (found : Next) : Prop :=
  (∃ minute, IsFirst (fun minute => Reached cursor deadlineMs minute ∧ Matches sets minute) minute ∧
      found = .date (returned minute)) ∨
    (∀ minute, Reached cursor deadlineMs minute → ¬ Matches sets minute) ∧ found = noOccurrence

theorem matches_day (same : dayOf time = dayOf minute) : dayMatches sets time = dayMatches sets minute := by
  simp only [dayMatches, getUTCMonth, getUTCDate, getUTCDay, same]

theorem matches_hour (same : time / msPerHour = minute / msPerHour) :
    hourMatches sets time = hourMatches sets minute := by
  rw [hourMatches, hourMatches, getUTCHours_eq_of_hour same]

theorem Reached.hop {later : Int} (aligned : msPerHour ∣ later) (ahead : time ≤ later)
    (ordinary : ∀ between, time ≤ between → between < later → ¬ EarlyYear between) :
    Reached later deadlineMs minute ↔ Reached time deadlineMs minute ∧ later ≤ minute := by
  constructor
  · intro reached
    have since := reached.since
    have whole := reached.whole
    refine ⟨⟨whole, ?_, reached.within, reached.valid, fun between from_ before => ?_⟩, ?_⟩
    · simp only [msPerMinute, msPerHour] at *
      omega
    · by_cases early : between < later
      · exact ordinary between from_ early
      · exact reached.ordinary between (not_lt.mp early) before
    · simp only [msPerMinute, msPerHour] at *
      omega
  · rintro ⟨reached, behind⟩
    refine ⟨reached.whole, ?_, reached.within, reached.valid, fun between from_ before =>
      reached.ordinary between (ahead.trans from_) before⟩
    simp only [msPerMinute] at *
    omega

theorem Finds.hop {later : Int} (aligned : msPerHour ∣ later) (ahead : time ≤ later)
    (ordinary : ∀ between, time ≤ between → between < later → ¬ EarlyYear between)
    (skipped : ∀ minute, Reached time deadlineMs minute → minute < later → ¬ Matches sets minute)
    {found : Next} (finds : Finds sets deadlineMs later found) : Finds sets deadlineMs time found := by
  have same : ∀ minute, Reached later deadlineMs minute ∧ Matches sets minute ↔
      Reached time deadlineMs minute ∧ Matches sets minute := by
    intro minute
    rw [Reached.hop aligned ahead ordinary]
    constructor
    · exact fun both => ⟨both.1.1, both.2⟩
    · exact fun both => ⟨⟨both.1, not_lt.mp fun before => skipped minute both.1 before both.2⟩, both.2⟩
  rcases finds with ⟨minute, first, rfl⟩ | ⟨none, rfl⟩
  · exact .inl ⟨minute, ⟨(same minute).mp first.has, fun other has =>
      first.least other ((same other).mpr has)⟩, rfl⟩
  · exact .inr ⟨fun minute reached matched => none minute ((same minute).mpr ⟨reached, matched⟩).1 matched, rfl⟩

theorem searchLoop_none {rounds : Nat} (some_round : 1 ≤ rounds) :
    searchLoop sets deadlineMs rounds none = some noOccurrence := by
  obtain ⟨rounds, rfl⟩ := Nat.exists_eq_add_of_le' some_round
  rfl

theorem searchLoop_late {rounds : Nat} (some_round : 1 ≤ rounds) (late : deadlineMs < time) :
    searchLoop sets deadlineMs rounds (some time) = some noOccurrence := by
  obtain ⟨rounds, rfl⟩ := Nat.exists_eq_add_of_le' some_round
  rw [searchLoop, if_neg (not_le.mpr late)]

/-- **What so many rounds of the search find**, from a cursor that they suffice for. -/
def SearchFinds (sets : Candidates) (deadlineMs : Int) (rounds : Nat) : Prop :=
  ∀ time, msPerHour ∣ time ∨ time ≤ deadlineMs → -maxTime ≤ time → time ≤ maxTime →
    deadlineMs ≤ time + searchWindow → deadlineMs / msPerHour + 2 ≤ time / msPerHour + rounds → 1 ≤ rounds →
    ∃ found, searchLoop sets deadlineMs rounds (some time) = some found ∧ Finds sets deadlineMs time found

theorem search_early {rounds : Nat} (early : EarlyYear time) {made : Int} (far : time + 2 * searchWindow < made)
    (skipped : ∀ minute, Reached time deadlineMs minute → minute / msPerHour = time / msPerHour →
      ¬ Matches sets minute) (window : deadlineMs ≤ time + searchWindow) (some_round : 1 ≤ rounds) :
    ∃ found, searchLoop sets deadlineMs rounds (timeClip made) = some found ∧
      Finds sets deadlineMs time found := by
  refine ⟨noOccurrence, ?_, .inr ⟨fun minute reached => skipped minute reached ?_, rfl⟩⟩
  · rw [timeClip]
    split
    · refine searchLoop_late some_round ?_
      have : 0 ≤ searchWindow := by decide
      omega
    · exact searchLoop_none some_round
  · have since := reached.since
    have here : ¬ time < hourStart minute := fun later =>
      reached.ordinary time le_rfl later early
    simp only [hourStart, msPerMinute, msPerHour] at *
    omega

theorem minute_of_reached {cursor : Int} (reached : Reached cursor deadlineMs minute) :
    cursor / msPerHour ≤ minute / msPerHour ∧
      (minute / msPerHour = cursor / msPerHour → getUTCMinutes cursor ≤ getUTCMinutes minute) := by
  have since := reached.since
  simp only [getUTCMinutes, msPerMinute, msPerHour] at *
  omega

theorem getUTCMinutes_bounds (time : Int) : 0 ≤ getUTCMinutes time ∧ getUTCMinutes time ≤ 59 := by
  simp only [getUTCMinutes, msPerMinute, msPerHour]
  omega

section

variable {rounds : Nat} (ih : SearchFinds sets deadlineMs rounds) (least : -maxTime ≤ time)
  (within : time ≤ deadlineMs) (window : deadlineMs ≤ time + searchWindow)
  (enough : deadlineMs / msPerHour + 2 ≤ time / msPerHour + (rounds + 1))

include ih least within window enough

theorem search_hop {later : Int}
    (aligned : msPerHour ∣ later) (ahead : time / msPerHour + 1 ≤ later / msPerHour)
    (ordinary : ∀ between, time ≤ between → between < later → ¬ EarlyYear between)
    (skipped : ∀ minute, Reached time deadlineMs minute → minute < later → ¬ Matches sets minute) :
    ∃ found, searchLoop sets deadlineMs rounds (timeClip later) = some found ∧
      Finds sets deadlineMs time found := by
  have before : time ≤ later := by
    simp only [msPerHour] at *
    omega
  have some_round : 1 ≤ rounds := by
    simp only [msPerHour] at *
    omega
  by_cases most : later ≤ maxTime
  · obtain ⟨found, result, finds⟩ := ih later (.inl aligned) (least.trans before) most (by omega)
      (by omega) some_round
    refine ⟨found, ?_, finds.hop aligned before ordinary skipped⟩
    rw [timeClip, if_pos ⟨least.trans before, most⟩, result]
  · refine ⟨noOccurrence, ?_, .inr ⟨fun minute reached => skipped minute reached ?_, rfl⟩⟩
    · rw [timeClip, if_neg fun valid => most valid.2]
      exact searchLoop_none some_round
    · have valid := reached.valid
      simp only [hourStart, msPerHour] at *
      omega

theorem search_nextHour
    (skipped : ∀ minute, Reached time deadlineMs minute → minute / msPerHour = time / msPerHour →
      ¬ Matches sets minute) :
    ∃ found, searchLoop sets deadlineMs rounds (nextHour time) = some found ∧
      Finds sets deadlineMs time found := by
  have some_round : 1 ≤ rounds := by
    simp only [msPerHour] at *
    omega
  by_cases early : EarlyYear time
  · have hours : 0 ≤ getUTCHours time + 1 := by
      simp only [getUTCHours, msPerDay, msPerHour]
      omega
    obtain ⟨made, date, far⟩ := dateUTC_early early le_rfl hours le_rfl
    rw [Int.add_zero] at date
    rw [nextHour, date]
    exact search_early early far skipped window some_round
  · rw [nextHour_eq early]
    refine search_hop ih least within window enough ?_ ?_ (fun between from_ before => ?_)
      fun minute reached before => ?_
    · simp only [hourStart, msPerHour]
      omega
    · simp only [hourStart, msPerHour]
      omega
    · have same : between / msPerHour = time / msPerHour := by
        simp only [hourStart, msPerHour] at *
        omega
      rwa [earlyYear_congr (dayOf_eq_of_hour same)]
    · refine skipped minute reached ?_
      have later := (minute_of_reached reached).1
      simp only [hourStart, msPerHour] at *
      omega

theorem search_nextDay (other : dayMatches sets time = false) :
    ∃ found, searchLoop sets deadlineMs rounds (nextDay time) = some found ∧
      Finds sets deadlineMs time found := by
  have some_round : 1 ≤ rounds := by
    simp only [msPerHour] at *
    omega
  have skipped : ∀ minute, dayOf minute = dayOf time → ¬ Matches sets minute := by
    intro minute same matched
    rw [Matches, matches_day same, other] at matched
    cases matched.1
  by_cases early : EarlyYear time
  · obtain ⟨made, date, far⟩ := dateUTC_early early (show (0 : Int) ≤ 1 by decide) le_rfl le_rfl
    rw [nextDay, date]
    exact search_early early far (fun minute _ same => skipped minute (dayOf_eq_of_hour same)) window some_round
  · rw [nextDay_eq early]
    refine search_hop ih least within window enough ?_ ?_ (fun between from_ before => ?_)
      fun minute reached before => ?_
    · simp only [msPerHour, msPerDay]
      omega
    · simp only [dayOf, msPerHour, msPerDay]
      omega
    · have same : dayOf between = dayOf time := by
        simp only [dayOf, msPerDay] at *
        omega
      rwa [earlyYear_congr same]
    · refine skipped minute ?_
      have later := (minute_of_reached reached).1
      simp only [dayOf, msPerDay, msPerHour] at *
      omega

end

theorem finds_minute {first : Nat} (day : dayMatches sets time = true) (hour : hourMatches sets time = true)
    (within : time ≤ deadlineMs) (most : time ≤ maxTime)
    (chosen : (minutesFrom (getUTCMinutes time).toNat).find? (fun minute => sets.minute.contains minute) =
      some first) :
    Finds sets deadlineMs time (.date (dateUTC (getUTCFullYear time) (getUTCMonth time) (getUTCDate time)
      (getUTCHours time) first)) := by
  obtain ⟨matched, member, others⟩ := List.find?_range'_eq_some.mp chosen
  rw [List.mem_range'_1] at member
  have bounds := getUTCMinutes_bounds time
  -- the minute itself, in the hour of the cursor
  have hourOf : (hourStart time + first * msPerMinute) / msPerHour = time / msPerHour := by
    simp only [hourStart, msPerHour, msPerMinute]
    omega
  have minuteOf : getUTCMinutes (hourStart time + first * msPerMinute) = first := by
    simp only [getUTCMinutes, hourStart, msPerHour, msPerMinute]
    omega
  refine .inl ⟨hourStart time + first * msPerMinute, ⟨⟨⟨?_, ?_, ?_, ?_, fun between from_ before => ?_⟩, ?_⟩,
    fun other has => ?_⟩, ?_⟩
  · simp only [hourStart, msPerHour, msPerMinute]
    omega
  · simp only [hourStart, getUTCMinutes, msPerHour, msPerMinute] at *
    omega
  · simp only [hourStart, msPerHour] at *
    omega
  · simp only [hourStart, msPerHour] at *
    omega
  · simp only [hourStart, msPerHour] at *
    omega
  · refine ⟨?_, ?_, ?_⟩
    · rw [matches_day (dayOf_eq_of_hour hourOf), day]
    · rw [matches_hour hourOf, hour]
    · rw [minuteOf, Int.toNat_natCast, matched]
  · obtain ⟨reached, -, -, minuteMatches⟩ := has
    obtain ⟨later, sameHour⟩ := minute_of_reached reached
    have whole := reached.whole
    have otherBounds := getUTCMinutes_bounds other
    by_contra before
    have same : other / msPerHour = time / msPerHour := by
      simp only [hourStart, msPerHour, msPerMinute] at *
      omega
    have sooner : (getUTCMinutes other).toNat < first := by
      simp only [getUTCMinutes, hourStart, msPerHour, msPerMinute] at *
      omega
    have unmatched := others _ (Int.toNat_le_toNat (sameHour same)) sooner
    rw [minuteMatches] at unmatched
    cases unmatched
  · simp only [returned, minuteOf, getUTCHours_eq_of_hour hourOf, getUTCFullYear, getUTCMonth, getUTCDate,
      dayOf_eq_of_hour hourOf]

theorem searchLoop_spec (sets : Candidates) (deadlineMs : Int) (rounds : Nat) :
    SearchFinds sets deadlineMs rounds := by
  induction rounds with
  | zero => exact fun _ _ _ _ _ _ some_round => absurd some_round (by decide)
  | succ rounds ih =>
    intro time aligned least most window enough _
    rw [Nat.cast_add, Nat.cast_one] at enough
    by_cases within : time ≤ deadlineMs
    · rw [searchLoop, if_pos within]
      cases day : dayMatches sets time with
      | false => exact search_nextDay ih least within window enough day
      | true =>
        cases hour : hourMatches sets time with
        | false =>
          refine search_nextHour ih least within window enough fun minute _ same matched => ?_
          rw [Matches, matches_hour same, hour] at matched
          cases matched.2.1
        | true =>
          simp only [Bool.not_true, Bool.false_eq_true, if_false]
          split
          · next first chosen => exact ⟨_, rfl, finds_minute day hour within most chosen⟩
          · next unmatched =>
              refine search_nextHour ih least within window enough fun minute reached same matched => ?_
              have bounds := getUTCMinutes_bounds minute
              have later := (minute_of_reached reached).2 same
              have other := List.find?_range'_eq_none.mp unmatched (getUTCMinutes minute).toNat
                (Int.toNat_le_toNat later) (by omega)
              rw [matched.2.2] at other
              cases other
    · refine ⟨noOccurrence, searchLoop_late (by omega) (not_le.mp within), .inr ⟨fun minute reached => ?_, rfl⟩⟩
      have late := aligned.resolve_right within
      have since := reached.since
      have hour := reached.within
      simp only [hourStart, msPerMinute, msPerHour] at *
      omega

end

section

variable {sets : Candidates} {cursor : Option Int} {fromTime : Int}

def firstCursor (setSeconds : Int → Option Int) (fromTime : Int) : Option Int :=
  (setSeconds fromTime).bind fun time => timeClip (time + msPerMinute)

/-- **The minutes of the plain scan**: those after an instant and within the window of the search. -/
def Scanned (cursor : Option Int) (fromTime minute : Int) : Prop :=
  ∃ start, cursor = some start ∧ msPerMinute ∣ minute ∧ fromTime < minute ∧
    minute ≤ start + searchWindow ∧ -maxTime ≤ minute ∧ minute ≤ maxTime

def Comes (cursor : Option Int) (minute : Int) : Prop :=
  ∃ start, cursor = some start ∧ Reached start (start + searchWindow) minute

def Shared (cursor : Option Int) (fromTime minute : Int) : Prop :=
  Comes cursor minute ∧ Scanned cursor fromTime minute ∧ ¬ EarlyYear minute

/-- **The answer of the plain scan**: its first minute that matches, or that there is none. -/
def ScanAnswers (sets : Candidates) (cursor : Option Int) (fromTime : Int) (answer : Option Next) : Prop :=
  (∃ minute, IsFirst (fun minute => Scanned cursor fromTime minute ∧ Matches sets minute) minute ∧
      answer = some (.date (some minute))) ∨
    (∀ minute, Scanned cursor fromTime minute → ¬ Matches sets minute) ∧ answer = some noOccurrence

/-- **When search and scan agree**: a matching minute that not both come to lies behind one that both do. -/
def Agreeable (sets : Candidates) (cursor : Option Int) (fromTime : Int) : Prop :=
  ∀ minute, Matches sets minute → Comes cursor minute ∨ Scanned cursor fromTime minute →
    Shared cursor fromTime minute ∨
      ∃ earlier, Shared cursor fromTime earlier ∧ Matches sets earlier ∧ earlier < minute

@[simp]
theorem scanned_some {start minute : Int} : Scanned (some start) fromTime minute ↔
    msPerMinute ∣ minute ∧ fromTime < minute ∧ minute ≤ start + searchWindow ∧ -maxTime ≤ minute ∧
      minute ≤ maxTime := by
  simp [Scanned]

@[simp]
theorem comes_some {start minute : Int} :
    Comes (some start) minute ↔ Reached start (start + searchWindow) minute := by
  simp [Comes]

theorem timeClip_eq_some {time clipped : Int} :
    timeClip time = some clipped ↔ (-maxTime ≤ time ∧ time ≤ maxTime) ∧ time = clipped := by
  rw [timeClip, Option.ite_none_right_eq_some, Option.some.injEq]

theorem firstSearch_finds {start : Int} (valid : -maxTime ≤ start ∧ start ≤ maxTime) :
    ∃ found, searchLoop sets (start + searchWindow) (366 * 24 + 2) (some start) = some found ∧
      Finds sets (start + searchWindow) start found := by
  refine searchLoop_spec sets _ _ start (.inr ?_) valid.1 valid.2 le_rfl ?_ (by decide)
  · simp only [searchWindow, msPerDay]
    omega
  · simp only [searchWindow, msPerDay, msPerHour]
    omega

theorem shared_of_returned {start minute scanned : Int} (reached : Reached start (start + searchWindow) minute)
    (wanted : Scanned (some start) fromTime scanned) (same : returned minute = some scanned) :
    minute = scanned ∧ Shared (some start) fromTime minute := by
  by_cases early : EarlyYear minute
  · exfalso
    have hours : 0 ≤ getUTCHours minute := by
      simp only [getUTCHours, msPerDay, msPerHour]
      omega
    obtain ⟨made, date, far⟩ := dateUTC_early early le_rfl hours (getUTCMinutes_bounds minute).1
    rw [Int.add_zero] at date
    rw [returned, date, timeClip_eq_some] at same
    obtain ⟨-, rfl⟩ := same
    obtain ⟨-, -, most, -⟩ := scanned_some.mp wanted
    have since := reached.since
    simp only [searchWindow, msPerDay, msPerMinute] at *
    omega
  · rw [returned_eq early reached.whole, timeClip_eq_some] at same
    obtain ⟨-, rfl⟩ := same
    exact ⟨rfl, comes_some.mpr reached, wanted, early⟩

/-- **The search answers as the scan does**, just if it is agreeable. -/
theorem search_answers_iff {start : Int} (valid : -maxTime ≤ start ∧ start ≤ maxTime) :
    ScanAnswers sets (some start) fromTime
        (searchLoop sets (start + searchWindow) (366 * 24 + 2) (some start)) ↔
      Agreeable sets (some start) fromTime := by
  obtain ⟨found, result, finds⟩ := @firstSearch_finds sets start valid
  rw [result]
  rcases finds with ⟨minute, first, rfl⟩ | ⟨none, rfl⟩
  · obtain ⟨reached, matched⟩ := first.has
    have least : ∀ other, Comes (some start) other → Matches sets other → minute ≤ other :=
      fun other comes matches_ => first.least other ⟨comes_some.mp comes, matches_⟩
    constructor
    · rintro (⟨scanned, wanted, same⟩ | ⟨-, other⟩)
      · obtain ⟨rfl, shared⟩ := shared_of_returned reached wanted.has.1 (by simpa using same)
        intro other matches_ either
        have ordered : minute ≤ other := either.elim (least other · matches_) fun scanned =>
          wanted.least other ⟨scanned, matches_⟩
        rcases ordered.eq_or_lt with rfl | later
        · exact .inl shared
        · exact .inr ⟨minute, shared, matched, later⟩
      · cases other
    · intro agreeable
      have shared : Shared (some start) fromTime minute := by
        rcases agreeable minute matched (.inl (comes_some.mpr reached)) with shared | ⟨earlier, shared, matches_, sooner⟩
        · exact shared
        · exact absurd (least earlier shared.1 matches_) (not_le.mpr sooner)
      obtain ⟨-, scanned, ordinary⟩ := shared
      refine .inl ⟨minute, ⟨⟨scanned, matched⟩, fun other both => ?_⟩, ?_⟩
      · rcases agreeable other both.2 (.inr both.1) with shared | ⟨earlier, shared, matches_, sooner⟩
        · exact least other shared.1 both.2
        · exact (least earlier shared.1 matches_).trans sooner.le
      · obtain ⟨-, -, -, low, high⟩ := scanned_some.mp scanned
        rw [returned_eq ordinary reached.whole, timeClip, if_pos ⟨low, high⟩]
  · constructor
    · rintro (⟨scanned, -, other⟩ | ⟨unscanned, -⟩)
      · cases other
      · rintro other matches_ (comes | scanned)
        · exact absurd matches_ (none other (comes_some.mp comes))
        · exact absurd matches_ (unscanned other scanned)
    · refine fun agreeable => .inr ⟨fun other scanned matches_ => ?_, rfl⟩
      rcases agreeable other matches_ (.inr scanned) with ⟨comes, -⟩ | ⟨earlier, ⟨comes, -⟩, found, -⟩
      · exact none other (comes_some.mp comes) matches_
      · exact none earlier (comes_some.mp comes) found

/-- **The search ends with the answer of the plain scan** just if every matching minute that only one of them
comes to lies behind a matching minute that both come to. -/
theorem nextCronDate_iff (setSeconds : Int → Option Int) (spec : List Char) (fromTime : Int)
    (sets : Candidates) (expanded : expand spec = some sets) :
    ScanAnswers sets (firstCursor setSeconds fromTime) fromTime (nextCronDate setSeconds spec fromTime) ↔
      Agreeable sets (firstCursor setSeconds fromTime) fromTime := by
  rw [nextCronDate, expanded]
  change ScanAnswers sets _ _ (match firstCursor setSeconds fromTime with
    | none => some noOccurrence
    | some cursor => searchLoop sets (cursor + searchWindow) (366 * 24 + 2) (some cursor)) ↔ _
  cases cursor : firstCursor setSeconds fromTime with
  | none =>
    refine iff_of_true (.inr ⟨?_, rfl⟩) ?_
    · rintro minute ⟨start, none, -⟩
      cases none
    · rintro minute - (⟨start, none, -⟩ | ⟨start, none, -⟩) <;> cases none
  | some start =>
    obtain ⟨time, -, clipped⟩ := Option.bind_eq_some_iff.mp cursor
    obtain ⟨valid, rfl⟩ := timeClip_eq_some.mp clipped
    exact search_answers_iff valid

def utcSeconds (time : Int) : Option Int := some (time - time % msPerMinute)

/-- The candidates of `45 12 29 2 *`: a quarter to one on the leap day. -/
def leapDay : Candidates := ⟨[45], [12], [29], [2], [0, 1, 2, 3, 4, 5, 6]⟩

theorem leapDay_found :
    expand "45 12 29 2 *".toList = some leapDay ∧
      nextCronDate utcSeconds "45 12 29 2 *".toList 1677587340000 = some (.date (some 1709210700000)) ∧
      ¬ Scanned (firstCursor utcSeconds 1677587340000) 1677587340000 1709210700000 ∧
      ¬ ScanAnswers leapDay (firstCursor utcSeconds 1677587340000) 1677587340000
        (nextCronDate utcSeconds "45 12 29 2 *".toList 1677587340000) := by
  have expanded : expand "45 12 29 2 *".toList = some leapDay := by decide +kernel
  have found : nextCronDate utcSeconds "45 12 29 2 *".toList 1677587340000 =
      some (.date (some 1709210700000)) := by decide +kernel
  have cursor : firstCursor utcSeconds 1677587340000 = some 1677587400000 := by decide +kernel
  have late : ¬ Scanned (firstCursor utcSeconds 1677587340000) 1677587340000 1709210700000 := by
    rw [cursor, scanned_some]
    decide
  refine ⟨expanded, found, late, ?_⟩
  rw [found]
  rintro (⟨minute, first, same⟩ | ⟨-, other⟩)
  · obtain rfl : 1709210700000 = minute := by simpa using same
    exact late first.has.1
  · cases other

theorem leapDay_iff :
    ScanAnswers leapDay (firstCursor utcSeconds 1677587340000) 1677587340000
        (nextCronDate utcSeconds "45 12 29 2 *".toList 1677587340000) ↔
      Agreeable leapDay (firstCursor utcSeconds 1677587340000) 1677587340000 :=
  nextCronDate_iff utcSeconds "45 12 29 2 *".toList 1677587340000 leapDay (by decide +kernel)

end

end PiCrew.CronSearch
