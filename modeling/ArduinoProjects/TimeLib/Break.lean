import ArduinoProjects.TimeLib.Calendar
import Mathlib.Data.UInt
import Mathlib.Logic.Function.Iterate
import Mathlib.Tactic.IntervalCases

/-!
# Seconds and dates

`breakTime` and `makeTime` of `src/libraries/Time/Time.cpp`.  A time is the number of
seconds since 1970 in 32 bits, which reach to the year 2106.

`breakTime` adds up the years in an `unsigned long`, but compares the sum as an
`unsigned`, which has 16 bits on the boards of the sketches.  The sum stays below
`2 ^ 16` for all times, so this changes nothing (`yearLoop_located`).

`breakTime_eq_iterate` says that `breakTime` is a clock with a calendar.  The other
results say that `makeTime` is its inverse.
-/

namespace ArduinoProjects.TimeLib

/-! ## The functions -/

/-- `tmElements_t`.  The year counts from 1970. -/
@[ext]
structure TmElements where
  second : UInt8
  minute : UInt8
  hour : UInt8
  wday : UInt8
  day : UInt8
  month : UInt8
  year : UInt8
  deriving DecidableEq, Repr

def SECS_PER_MIN : UInt32 := 60

def SECS_PER_HOUR : UInt32 := 3600

def SECS_PER_DAY : UInt32 := SECS_PER_HOUR * 24

def LEAP_YEAR (Y : Nat) : Bool :=
  1970 + Y > 0 && (1970 + Y) % 4 == 0 && ((1970 + Y) % 100 != 0 || (1970 + Y) % 400 == 0)

def monthDays : List Nat := [31, 28, 31, 30, 31, 30, 31, 31, 30, 31, 30, 31]

/-- `(unsigned)days` -/
def unsigned (days : Nat) : Nat := days % 2 ^ 16

/-- `LEAP_YEAR(year) ? 366 : 365` -/
def daysOfYear (year : UInt8) : Nat := if LEAP_YEAR year.toNat then 366 else 365

/-- `while((unsigned)(days += ...) <= time) year++`, for a number of rounds. -/
def yearLoop (time : Nat) : Nat → UInt8 → Nat → UInt8 × Nat
  | 0, year, days => (year, days)
  | rounds + 1, year, days =>
    if unsigned (days + daysOfYear year) ≤ time then
      yearLoop time rounds (year + 1) (days + daysOfYear year)
    else (year, days + daysOfYear year)

/-- `monthLength` in the loop over the months, which count from 0. -/
def daysOfMonth (year : UInt8) (month : Nat) : Nat :=
  if month = 1 then if LEAP_YEAR year.toNat then 29 else 28 else monthDays.getD month 0

/-- The year is a byte, so that more than 256 rounds would come back to 1970. -/
def breakTime (timeInput : UInt32) : TmElements :=
  let seconds := timeInput.toNat
  let minutes := seconds / 60
  let hours := minutes / 60
  let time := hours / 24
  let (year, past) := yearLoop time 256 0 0
  let days := past - daysOfYear year
  let (month, rest) := Segments.scanDown (daysOfMonth year) 12 0 (time - days)
  { second := .ofNat (seconds % 60)
    minute := .ofNat (minutes % 60)
    hour := .ofNat (hours % 24)
    wday := .ofNat ((time + 4) % 7 + 1)
    year := year
    month := .ofNat (month + 1)
    day := .ofNat (rest + 1) }

/-- The loop over the years before `Year`. -/
def addLeapDays (seconds : UInt32) (years : Nat) : UInt32 :=
  (List.range years).foldl
    (fun seconds i => if LEAP_YEAR i then seconds + SECS_PER_DAY else seconds) seconds

/-- The loop over the months before `Month`, which count from 1. -/
def addMonths (year : UInt8) (seconds : UInt32) (months : Nat) : UInt32 :=
  (List.range months).foldl
    (fun seconds i => seconds + SECS_PER_DAY * UInt32.ofNat (daysOfMonth year i)) seconds

def makeTime (tm : TmElements) : UInt32 :=
  let seconds := tm.year.toUInt32 * (SECS_PER_DAY * 365)
  let seconds := addLeapDays seconds tm.year.toNat
  let seconds := addMonths tm.year seconds (tm.month.toNat - 1)
  let seconds := seconds + (tm.day.toUInt32 - 1) * SECS_PER_DAY
  let seconds := seconds + tm.hour.toUInt32 * SECS_PER_HOUR
  let seconds := seconds + tm.minute.toUInt32 * SECS_PER_MIN
  seconds + tm.second.toUInt32

/-- What the elements say. -/
def TmElements.moment (tm : TmElements) : Moment where
  year := 1970 + tm.year.toNat
  month := tm.month.toNat
  day := tm.day.toNat
  weekday := tm.wday.toNat
  hour := tm.hour.toNat
  minute := tm.minute.toNat
  second := tm.second.toNat

/-! ## The loops -/

theorem leap_year_iff (Y : Nat) : LEAP_YEAR Y = true ↔ Leap (1970 + Y) := by
  have hpos : 0 < 1970 + Y := by omega
  simp [LEAP_YEAR, Leap, Nat.dvd_iff_mod_eq_zero, hpos]

theorem daysOfYear_eq (year : UInt8) : daysOfYear year = yearLength year.toNat := by
  simp only [daysOfYear, yearLength, leap_year_iff]

theorem daysOfMonth_eq (year : UInt8) {month : Nat} (h : month < 12) :
    daysOfMonth year month = monthLength year.toNat month := by
  simp only [daysOfMonth, monthLength, leap_year_iff]
  interval_cases month <;> rfl

theorem start_daysOfMonth (year : UInt8) {months : Nat} (h : months ≤ 12) :
    Segments.start (daysOfMonth year) months =
      Segments.start (monthLength year.toNat) months := by
  induction months with
  | zero => rfl
  | succ months ih =>
    rw [Segments.start, Segments.start, ih (by omega), daysOfMonth_eq year (by omega)]

/-- The years from 1970 to 2106 reach past all times, and their days fit in 16 bits. -/
theorem start_137 : 2 ^ 32 / 86400 < Segments.start yearLength 137 ∧
    Segments.start yearLength 137 < 2 ^ 16 := by
  decide +kernel

/-- The loop ends in the year of the day, with the days up to the end of that year.
The cast to 16 bits changes nothing. -/
theorem yearLoop_located {time : Nat} (rounds : Nat) : ∀ {year : UInt8},
    year.toNat + rounds = 256 → Segments.start yearLength year.toNat ≤ time →
    time < Segments.start yearLength 137 →
    ∃ year' r, yearLoop time rounds year (Segments.start yearLength year.toNat) =
        (year', Segments.start yearLength (year'.toNat + 1)) ∧
      Segments.Located yearLength time year'.toNat r := by
  induction rounds with
  | zero =>
    intro year hrounds hle htime
    have hlt := year.toNat_lt
    omega
  | succ rounds ih =>
    intro year hrounds hle htime
    have hyear : year.toNat < 137 := by
      by_contra hge
      have hstart := Segments.start_le yearLength (Nat.le_of_not_lt hge)
      omega
    have hnext : (year + 1).toNat = year.toNat + 1 := by
      rw [UInt8.toNat_add, show (1 : UInt8).toNat = 1 from rfl]
      omega
    have hend : Segments.start yearLength (year.toNat + 1) =
        Segments.start yearLength year.toNat + yearLength year.toNat := rfl
    have hsmall : Segments.start yearLength (year.toNat + 1) < 2 ^ 16 :=
      Nat.lt_of_le_of_lt (Segments.start_le yearLength hyear) start_137.2
    rw [yearLoop, daysOfYear_eq, ← hend, unsigned, Nat.mod_eq_of_lt hsmall]
    split_ifs with hpast
    · rw [← hnext] at hpast ⊢
      exact ih (by omega) hpast htime
    · exact ⟨year, time - Segments.start yearLength year.toNat, rfl, by omega, by omega⟩

theorem months_located (year : UInt8) {rest : Nat} (h : rest < yearLength year.toNat) :
    ∃ month day, Segments.scanDown (daysOfMonth year) 12 0 rest = (month, day) ∧ month < 12 ∧
      rest = Segments.start (monthLength year.toNat) month + day ∧
      day < monthLength year.toNat month := by
  have htwelve : Segments.start (daysOfMonth year) (0 + 12) = yearLength year.toNat := by
    rw [Nat.zero_add, start_daysOfMonth year (Nat.le_refl 12), start_twelve]
  have hzero : Segments.start (daysOfMonth year) 0 + rest = rest := Nat.zero_add rest
  have hlocated := Segments.scanDown_located 12 (by rw [hzero, htwelve]; exact h)
  rcases hscan : Segments.scanDown (daysOfMonth year) 12 0 rest with ⟨month, day⟩
  rw [hzero, hscan] at hlocated
  have hlt : month < 0 + 12 := hlocated.lt_of_lt_start (htwelve ▸ h)
  have heq := hlocated.eq
  have hday := hlocated.lt
  rw [start_daysOfMonth year (by omega)] at heq
  rw [daysOfMonth_eq year (by omega)] at hday
  exact ⟨_, _, rfl, by omega, heq, hday⟩

/-! ## What `breakTime` finds -/

structure Broken (time : Nat) (tm : TmElements) : Prop where
  dated : Dated (time / 86400) tm.year.toNat (tm.month.toNat - 1) (tm.day.toNat - 1)
  month : 1 ≤ tm.month.toNat
  day : 1 ≤ tm.day.toNat
  hour : tm.hour.toNat = time / 3600 % 24
  minute : tm.minute.toNat = time / 60 % 60
  second : tm.second.toNat = time % 60
  wday : tm.wday.toNat = (time / 86400 + 4) % 7 + 1

theorem toNat_ofNat_of_lt {n : Nat} (h : n < 2 ^ 8) : (UInt8.ofNat n).toNat = n := by
  rw [UInt8.toNat_ofNat', Nat.mod_eq_of_lt h]

theorem breakTime_broken (t : UInt32) : Broken t.toNat (breakTime t) := by
  have ht := t.toNat_lt
  have hlast := start_137.1
  have hdays : t.toNat / 60 / 60 / 24 = t.toNat / 86400 := by omega
  have hfirst : (0 : UInt8).toNat + 256 = 256 := rfl
  obtain ⟨year, rest, hloop, hyear⟩ := yearLoop_located 256 hfirst (Nat.zero_le _)
    (show t.toNat / 86400 < Segments.start yearLength 137 by omega)
  obtain ⟨month, day, hscan, hmonth, hrest, hday⟩ := months_located year hyear.lt
  have hend : Segments.start yearLength (year.toNat + 1) =
      Segments.start yearLength year.toNat + yearLength year.toNat := rfl
  have heq := hyear.eq
  have hbefore : t.toNat / 86400 -
      (Segments.start yearLength (year.toNat + 1) - daysOfYear year) = rest := by
    rw [daysOfYear_eq]
    omega
  have hbroken : breakTime t =
      { second := .ofNat (t.toNat % 60)
        minute := .ofNat (t.toNat / 60 % 60)
        hour := .ofNat (t.toNat / 60 / 60 % 24)
        wday := .ofNat ((t.toNat / 86400 + 4) % 7 + 1)
        year := year
        month := .ofNat (month + 1)
        day := .ofNat (day + 1) } := by
    change yearLoop (t.toNat / 86400) 256 0 0 = _ at hloop
    simp only [breakTime, hdays, hloop, hbefore, hscan]
  have hlength := monthLength_le year.toNat month
  have hmonth' := toNat_ofNat_of_lt (show month + 1 < 2 ^ 8 by omega)
  have hday' := toNat_ofNat_of_lt (show day + 1 < 2 ^ 8 by omega)
  rw [hbroken]
  refine ⟨?_, ?_, ?_, ?_, ?_, ?_, ?_⟩
  · show Dated _ year.toNat ((UInt8.ofNat (month + 1)).toNat - 1)
      ((UInt8.ofNat (day + 1)).toNat - 1)
    rw [hmonth', hday']
    exact ⟨hrest ▸ hyear, hday⟩
  · show 1 ≤ (UInt8.ofNat (month + 1)).toNat
    omega
  · show 1 ≤ (UInt8.ofNat (day + 1)).toNat
    omega
  · show (UInt8.ofNat (t.toNat / 60 / 60 % 24)).toNat = _
    rw [toNat_ofNat_of_lt (by omega)]
    omega
  · exact toNat_ofNat_of_lt (by omega)
  · exact toNat_ofNat_of_lt (by omega)
  · exact toNat_ofNat_of_lt (by omega)

theorem breakTime_minute_lt (t : UInt32) : (breakTime t).minute.toNat < 60 := by
  rw [(breakTime_broken t).minute]
  exact Nat.mod_lt _ (by decide)

theorem breakTime_second_lt (t : UInt32) : (breakTime t).second.toNat < 60 := by
  rw [(breakTime_broken t).second]
  exact Nat.mod_lt _ (by decide)

/-- On one day there is one date. -/
theorem Broken.date {time time' : Nat} {tm tm' : TmElements} (h : Broken time tm)
    (h' : Broken time' tm') (hday : time' / 86400 = time / 86400) :
    tm'.moment.year = tm.moment.year ∧ tm'.moment.month = tm.moment.month ∧
      tm'.moment.day = tm.moment.day ∧ tm'.moment.weekday = tm.moment.weekday := by
  obtain ⟨hyear, hmonth, hday'⟩ := (hday ▸ h'.dated).unique h.dated
  have hm := h.month
  have hm' := h'.month
  have hd := h.day
  have hd' := h'.day
  have hw := h.wday
  have hw' := h'.wday
  rw [hday] at hw'
  show 1970 + tm'.year.toNat = 1970 + tm.year.toNat ∧ tm'.month.toNat = tm.month.toNat ∧
    tm'.day.toNat = tm.day.toNat ∧ tm'.wday.toNat = tm.wday.toNat
  exact ⟨by omega, by omega, by omega, by omega⟩

/-- At midnight the date is the next one. -/
theorem Broken.nextDay {time time' : Nat} {tm tm' : TmElements} (h : Broken time tm)
    (h' : Broken time' tm') (hday : time' / 86400 = time / 86400 + 1) :
    tm'.moment.year = tm.moment.nextDay.year ∧ tm'.moment.month = tm.moment.nextDay.month ∧
      tm'.moment.day = tm.moment.nextDay.day ∧ tm'.moment.weekday = tm.moment.nextDay.weekday := by
  have hdated := h'.dated
  rw [hday] at hdated
  have hm := h.month
  have hm' := h'.month
  have hd := h.day
  have hd' := h'.day
  have htwelve := h.dated.lt_twelve
  have hweek : tm'.wday.toNat = tm.wday.toNat % 7 + 1 := by
    rw [h'.wday, h.wday, hday]
    omega
  have hlength : daysInMonth tm.moment.year tm.moment.month =
      monthLength tm.year.toNat (tm.month.toNat - 1) := by
    rw [monthLength, Nat.sub_add_cancel hm]
    rfl
  have hyear₀ : tm.moment.year = 1970 + tm.year.toNat := rfl
  have hyear' : tm'.moment.year = 1970 + tm'.year.toNat := rfl
  have hmonth₀ : tm.moment.month = tm.month.toNat := rfl
  have hmonth' : tm'.moment.month = tm'.month.toNat := rfl
  have hday₀ : tm.moment.day = tm.day.toNat := rfl
  have hday' : tm'.moment.day = tm'.day.toNat := rfl
  rw [Moment.nextDay, hlength]
  rcases h.dated.next with ⟨hlt, hnext⟩ | ⟨hend, hlt, hnext⟩ | ⟨hend, hlast, hnext⟩
  · obtain ⟨hy, hmo, hda⟩ := hdated.unique hnext
    rw [if_pos (by omega)]
    refine ⟨?_, ?_, ?_, hweek⟩ <;> dsimp only <;> omega
  · obtain ⟨hy, hmo, hda⟩ := hdated.unique hnext
    rw [if_neg (by omega), if_pos (by omega)]
    refine ⟨?_, ?_, ?_, hweek⟩ <;> dsimp only <;> omega
  · obtain ⟨hy, hmo, hda⟩ := hdated.unique hnext
    rw [if_neg (by omega), if_neg (by omega)]
    refine ⟨?_, ?_, ?_, hweek⟩ <;> dsimp only <;> omega

/-- What is found for the next second is the next moment. -/
theorem Broken.tick {time : Nat} {tm tm' : TmElements} (h : Broken time tm)
    (h' : Broken (time + 1) tm') : tm'.moment = tm.moment.tick := by
  have hs := h.second
  have hs' := h'.second
  have hm := h.minute
  have hm' := h'.minute
  have hh := h.hour
  have hh' := h'.hour
  have hsecond₀ : tm.moment.second = tm.second.toNat := rfl
  have hsecond' : tm'.moment.second = tm'.second.toNat := rfl
  have hminute₀ : tm.moment.minute = tm.minute.toNat := rfl
  have hminute' : tm'.moment.minute = tm'.minute.toNat := rfl
  have hhour₀ : tm.moment.hour = tm.hour.toNat := rfl
  have hhour' : tm'.moment.hour = tm'.hour.toNat := rfl
  rw [Moment.tick]
  by_cases hmidnight : (time + 1) / 86400 = time / 86400
  · obtain ⟨hyear, hmonth, hday, hweek⟩ := h.date h' hmidnight
    split_ifs with hsec hmin hhr
    · refine Moment.ext hyear hmonth hday hweek ?_ ?_ ?_ <;> dsimp only <;> omega
    · refine Moment.ext hyear hmonth hday hweek ?_ ?_ ?_ <;> dsimp only <;> omega
    · refine Moment.ext hyear hmonth hday hweek ?_ ?_ ?_ <;> dsimp only <;> omega
    · omega
  · obtain ⟨hyear, hmonth, hday, hweek⟩ := h.nextDay h' (by omega)
    rw [if_neg (by omega), if_neg (by omega), if_neg (by omega)]
    refine Moment.ext hyear hmonth hday hweek ?_ ?_ ?_ <;> dsimp only <;> omega

/-- **The clock.**  `breakTime` shows what a clock with a calendar shows that has ticked
once for every second since 1970. -/
theorem breakTime_eq_iterate (t : UInt32) :
    (breakTime t).moment = Moment.tick^[t.toNat] Moment.epoch := by
  have hall : ∀ n < 2 ^ 32, (breakTime (.ofNat n)).moment = Moment.tick^[n] Moment.epoch := by
    intro n
    induction n with
    | zero => exact fun _ => by decide
    | succ n ih =>
      intro hn
      have hbroken := breakTime_broken (.ofNat n)
      have hbroken' := breakTime_broken (.ofNat (n + 1))
      rw [UInt32.toNat_ofNat', Nat.mod_eq_of_lt (by omega)] at hbroken hbroken'
      rw [hbroken.tick hbroken', ih (by omega), Function.iterate_succ_apply']
  have h := hall t.toNat t.toNat_lt
  rw [UInt32.ofNat_toNat] at h
  exact h

/-! ## What `makeTime` puts together -/

theorem toUInt32_eq (x : UInt8) : x.toUInt32 = UInt32.ofNat x.toNat := by
  rw [← UInt32.toNat_inj, UInt8.toNat_toUInt32, UInt32.toNat_ofNat', Nat.mod_eq_of_lt]
  have hlt := x.toNat_lt
  omega

theorem secs_per_day_eq : SECS_PER_DAY = UInt32.ofNat 86400 := by decide

theorem secs_per_day_mul (days : Nat) :
    SECS_PER_DAY * UInt32.ofNat days = UInt32.ofNat (86400 * days) := by
  rw [secs_per_day_eq, UInt32.ofNat_mul]

/-- 365 days a year and the leap days make the years. -/
theorem addLeapDays_eq (years : Nat) : ∃ leapDays,
    Segments.start yearLength years = 365 * years + leapDays ∧
      ∀ n, addLeapDays (.ofNat n) years = .ofNat (n + 86400 * leapDays) := by
  induction years with
  | zero => exact ⟨0, rfl, fun n => rfl⟩
  | succ years ih =>
    obtain ⟨leapDays, hstart, hadd⟩ := ih
    have hend : Segments.start yearLength (years + 1) =
        Segments.start yearLength years + yearLength years := rfl
    have hfold : ∀ n, addLeapDays (.ofNat n) (years + 1) =
        if LEAP_YEAR years then addLeapDays (.ofNat n) years + SECS_PER_DAY
        else addLeapDays (.ofNat n) years := by
      intro n
      rw [addLeapDays, List.range_succ, List.foldl_append]
      rfl
    by_cases hleap : LEAP_YEAR years = true
    · have hlength : yearLength years = 366 := if_pos ((leap_year_iff years).mp hleap)
      refine ⟨leapDays + 1, by omega, fun n => ?_⟩
      rw [hfold, if_pos hleap, hadd, secs_per_day_eq, ← UInt32.ofNat_add]
      refine congrArg UInt32.ofNat ?_
      omega
    · have hlength : yearLength years = 365 :=
        if_neg fun h => hleap ((leap_year_iff years).mpr h)
      refine ⟨leapDays, by omega, fun n => ?_⟩
      rw [hfold, if_neg hleap, hadd]

theorem addMonths_eq (year : UInt8) (n : Nat) {months : Nat} (h : months ≤ 12) :
    addMonths year (.ofNat n) months =
      .ofNat (n + 86400 * Segments.start (monthLength year.toNat) months) := by
  rw [← start_daysOfMonth year h]
  clear h
  induction months with
  | zero => rfl
  | succ months ih =>
    rw [addMonths] at ih
    rw [addMonths, List.range_succ, List.foldl_append, ih]
    show UInt32.ofNat _ + SECS_PER_DAY * UInt32.ofNat (daysOfMonth year months) = _
    rw [secs_per_day_mul, ← UInt32.ofNat_add, Segments.start, Nat.mul_add, Nat.add_assoc]

/-- The seconds since 1970 that the elements stand for. -/
def TmElements.seconds (tm : TmElements) : Nat :=
  86400 * (Segments.start yearLength tm.year.toNat +
    Segments.start (monthLength tm.year.toNat) (tm.month.toNat - 1) + (tm.day.toNat - 1)) +
    3600 * tm.hour.toNat + 60 * tm.minute.toNat + tm.second.toNat

theorem makeTime_eq {tm : TmElements} (hmonth : tm.month.toNat ≤ 13) (hday : 1 ≤ tm.day.toNat) :
    makeTime tm = .ofNat tm.seconds := by
  obtain ⟨leapDays, hstart, hleap⟩ := addLeapDays_eq tm.year.toNat
  have hyears : tm.year.toUInt32 * (SECS_PER_DAY * 365) =
      .ofNat (86400 * (365 * tm.year.toNat)) := by
    have hyear : SECS_PER_DAY * 365 = UInt32.ofNat (86400 * 365) := secs_per_day_mul 365
    rw [toUInt32_eq, hyear, ← UInt32.ofNat_mul]
    refine congrArg UInt32.ofNat ?_
    omega
  have hdays : (tm.day.toUInt32 - 1) * SECS_PER_DAY = .ofNat (86400 * (tm.day.toNat - 1)) := by
    have hpred : tm.day.toUInt32 - 1 = .ofNat (tm.day.toNat - 1) := by
      rw [toUInt32_eq, UInt32.ofNat_sub hday]
      rfl
    rw [hpred, UInt32.mul_comm, secs_per_day_mul]
  have hhours : tm.hour.toUInt32 * SECS_PER_HOUR = .ofNat (3600 * tm.hour.toNat) := by
    have hhour : SECS_PER_HOUR = UInt32.ofNat 3600 := by decide
    rw [toUInt32_eq, Nat.mul_comm, UInt32.ofNat_mul, hhour]
  have hminutes : tm.minute.toUInt32 * SECS_PER_MIN = .ofNat (60 * tm.minute.toNat) := by
    have hminute : SECS_PER_MIN = UInt32.ofNat 60 := by decide
    rw [toUInt32_eq, Nat.mul_comm, UInt32.ofNat_mul, hminute]
  have hmonths := fun n => addMonths_eq tm.year n (show tm.month.toNat - 1 ≤ 12 by omega)
  simp only [makeTime, hyears, hleap, hmonths, hdays, hhours, hminutes, toUInt32_eq tm.second,
    ← UInt32.ofNat_add]
  refine congrArg UInt32.ofNat ?_
  rw [TmElements.seconds, hstart]
  omega

/-- The elements of a time stand for it. -/
theorem Broken.seconds {time : Nat} {tm : TmElements} (h : Broken time tm) : tm.seconds = time := by
  have heq := h.dated.located.eq
  have hh := h.hour
  have hm := h.minute
  have hs := h.second
  rw [TmElements.seconds]
  omega

/-- **From seconds to a date and back.** -/
theorem makeTime_breakTime (t : UInt32) : makeTime (breakTime t) = t := by
  have hbroken := breakTime_broken t
  have hmonth := hbroken.dated.lt_twelve
  rw [makeTime_eq (by omega) hbroken.day, hbroken.seconds, UInt32.ofNat_toNat]

/-- The date of elements that a clock can show. -/
theorem TmElements.broken {tm : TmElements} (hvalid : tm.moment.Valid)
    (hwday : tm.wday.toNat = (tm.seconds / 86400 + 4) % 7 + 1) : Broken tm.seconds tm := by
  have hmonth := hvalid.month
  have hday := hvalid.day
  have hhour := hvalid.hour
  have hminute := hvalid.minute
  have hsecond := hvalid.second
  change 1 ≤ tm.month.toNat ∧ tm.month.toNat ≤ 12 at hmonth
  change 1 ≤ tm.day.toNat ∧ tm.day.toNat ≤ daysInMonth (1970 + tm.year.toNat) tm.month.toNat
    at hday
  change tm.hour.toNat < 24 at hhour
  change tm.minute.toNat < 60 at hminute
  change tm.second.toNat < 60 at hsecond
  have hlength : daysInMonth (1970 + tm.year.toNat) tm.month.toNat =
      monthLength tm.year.toNat (tm.month.toNat - 1) := by
    rw [monthLength, Nat.sub_add_cancel hmonth.1]
  have hplace : Segments.Located (monthLength tm.year.toNat) _ (tm.month.toNat - 1)
      (tm.day.toNat - 1) := ⟨rfl, by omega⟩
  have hinside := hplace.lt_start (show tm.month.toNat - 1 < 12 by omega)
  rw [start_twelve] at hinside
  have hdays : tm.seconds / 86400 = Segments.start yearLength tm.year.toNat +
      (Segments.start (monthLength tm.year.toNat) (tm.month.toNat - 1) + (tm.day.toNat - 1)) := by
    rw [TmElements.seconds]
    omega
  refine ⟨⟨⟨hdays, hinside⟩, hplace.lt⟩, hmonth.1, hday.1, ?_, ?_, ?_, hwday⟩
  · rw [TmElements.seconds]
    omega
  · rw [TmElements.seconds]
    omega
  · rw [TmElements.seconds]
    omega

/-- Elements are known by the time that they stand for. -/
theorem Broken.unique {time : Nat} {tm tm' : TmElements} (h : Broken time tm)
    (h' : Broken time tm') : tm = tm' := by
  obtain ⟨hyear, hmonth, hday, hwday⟩ := h'.date h rfl
  have hhour := h.hour.trans h'.hour.symm
  have hminute := h.minute.trans h'.minute.symm
  have hsecond := h.second.trans h'.second.symm
  exact TmElements.ext (UInt8.toNat_inj.mp hsecond) (UInt8.toNat_inj.mp hminute)
    (UInt8.toNat_inj.mp hhour) (UInt8.toNat_inj.mp hwday) (UInt8.toNat_inj.mp hday)
    (UInt8.toNat_inj.mp hmonth) (UInt8.toNat_inj.mp (Nat.add_left_cancel hyear))

/-- The years up to 2105 end before the seconds do. -/
theorem start_136 : 86400 * Segments.start yearLength 136 ≤ 2 ^ 32 := by
  decide +kernel

/-- **From a date to seconds and back.**  The day of the week comes out right whatever
it was. -/
theorem breakTime_makeTime {tm : TmElements} (hvalid : tm.moment.Valid)
    (hyear : tm.moment.year < 2106) :
    breakTime (makeTime tm) =
      { tm with wday := .ofNat ((tm.seconds / 86400 + 4) % 7 + 1) } := by
  let tm' : TmElements := { tm with wday := .ofNat ((tm.seconds / 86400 + 4) % 7 + 1) }
  have hvalid' : tm'.moment.Valid :=
    ⟨hvalid.month, hvalid.day, hvalid.hour, hvalid.minute, hvalid.second⟩
  have hbroken : Broken tm.seconds tm' :=
    TmElements.broken hvalid' (toNat_ofNat_of_lt (show (_ + 4) % 7 + 1 < 2 ^ 8 by omega))
  have hsmall : tm.seconds < 2 ^ 32 := by
    have hyear' : tm.year.toNat < 136 := by
      change 1970 + tm.year.toNat < 2106 at hyear
      omega
    have hdays := hbroken.dated.located.lt_start hyear'
    have hstart := start_136
    omega
  have hmonth : tm.month.toNat ≤ 12 := hvalid.month.2
  have hfound := breakTime_broken (.ofNat tm.seconds)
  rw [UInt32.toNat_ofNat', Nat.mod_eq_of_lt hsmall] at hfound
  rw [makeTime_eq (by omega) hvalid.day.1]
  exact hfound.unique hbroken

theorem breakTime_makeTime_leapDay :
    breakTime (makeTime ⟨0, 0, 12, 0, 29, 2, 30⟩) =
      { (⟨0, 0, 12, 0, 29, 2, 30⟩ : TmElements) with
        wday := .ofNat (((⟨0, 0, 12, 0, 29, 2, 30⟩ : TmElements).seconds / 86400 + 4) % 7 + 1) } :=
  breakTime_makeTime ⟨by decide, by decide, by decide, by decide, by decide⟩ (by decide)

end ArduinoProjects.TimeLib
