import ArduinoProjects.Lib.Segments

/-!
# The calendar

What `src/libraries/Time/Time.cpp` computes, said without it.  A `Moment` is what a
clock with a calendar shows, and `tick` is the second after it.  The moment `n` seconds
after the first one of 1970 is the clock after `n` ticks.

Below it the years and the months are segments of a row of days.  `Dated` says which
date a day has, counted from the first of 1970, and `Dated.next` which date the next
day has.
-/

namespace ArduinoProjects.TimeLib

/-- The Gregorian rule. -/
def Leap (year : Nat) : Prop := 4 ∣ year ∧ (¬ 100 ∣ year ∨ 400 ∣ year)

instance (year : Nat) : Decidable (Leap year) := inferInstanceAs (Decidable (_ ∧ _))

def daysInMonth (year month : Nat) : Nat :=
  match month with
  | 2 => if Leap year then 29 else 28
  | 4 | 6 | 9 | 11 => 30
  | _ => 31

/-- What a clock with a calendar shows.  Sunday is day 1 of the week. -/
@[ext]
structure Moment where
  year : Nat
  month : Nat
  day : Nat
  weekday : Nat
  hour : Nat
  minute : Nat
  second : Nat
  deriving DecidableEq, Repr

namespace Moment

/-- The first second of 1970, a Thursday. -/
def epoch : Moment := ⟨1970, 1, 1, 5, 0, 0, 0⟩

/-- The same time on the next day. -/
def nextDay (m : Moment) : Moment :=
  if m.day < daysInMonth m.year m.month then
    { m with day := m.day + 1, weekday := m.weekday % 7 + 1 }
  else if m.month < 12 then
    { m with month := m.month + 1, day := 1, weekday := m.weekday % 7 + 1 }
  else { m with year := m.year + 1, month := 1, day := 1, weekday := m.weekday % 7 + 1 }

def tick (m : Moment) : Moment :=
  if m.second < 59 then { m with second := m.second + 1 }
  else if m.minute < 59 then { m with minute := m.minute + 1, second := 0 }
  else if m.hour < 23 then { m with hour := m.hour + 1, minute := 0, second := 0 }
  else { m.nextDay with hour := 0, minute := 0, second := 0 }

/-- A clock can show this. -/
structure Valid (m : Moment) : Prop where
  month : 1 ≤ m.month ∧ m.month ≤ 12
  day : 1 ≤ m.day ∧ m.day ≤ daysInMonth m.year m.month
  hour : m.hour < 24
  minute : m.minute < 60
  second : m.second < 60

end Moment

/-! ## Days in a row -/

/-- The length of a year, which counts from 1970. -/
def yearLength (year : Nat) : Nat := if Leap (1970 + year) then 366 else 365

/-- The length of a month, which counts from 0. -/
def monthLength (year month : Nat) : Nat := daysInMonth (1970 + year) (month + 1)

theorem monthLength_pos (year month : Nat) : 0 < monthLength year month := by
  unfold monthLength daysInMonth
  split
  · split_ifs <;> decide
  all_goals decide

theorem monthLength_le (year month : Nat) : monthLength year month ≤ 31 := by
  unfold monthLength daysInMonth
  split
  · split_ifs <;> decide
  all_goals decide

theorem yearLength_pos (year : Nat) : 0 < yearLength year := by
  rw [yearLength]
  split_ifs <;> decide

/-- Twelve months make a year. -/
theorem start_twelve (year : Nat) : Segments.start (monthLength year) 12 = yearLength year := by
  simp only [Segments.start, monthLength, daysInMonth, yearLength]
  split_ifs <;> rfl

/-- Day `n` after the first of 1970 is day `day` of month `month` of year `year`, all
three counted from 0. -/
structure Dated (n year month day : Nat) : Prop where
  located : Segments.Located yearLength n year (Segments.start (monthLength year) month + day)
  day : day < monthLength year month

namespace Dated

variable {n year month day : Nat}

theorem lt_twelve (h : Dated n year month day) : month < 12 := by
  by_contra hge
  have hstart := Segments.start_le (monthLength year) (Nat.le_of_not_lt hge)
  have hlt := h.located.lt
  rw [start_twelve] at hstart
  omega

/-- A day has one date. -/
theorem unique {year' month' day' : Nat} (h : Dated n year month day)
    (h' : Dated n year' month' day') : year = year' ∧ month = month' ∧ day = day' := by
  obtain ⟨rfl, heq⟩ := h.located.unique h'.located
  have hplace : Segments.Located (monthLength year) _ month day := ⟨rfl, h.day⟩
  obtain ⟨hmonth, hday⟩ := hplace.unique ⟨heq, h'.day⟩
  exact ⟨rfl, hmonth, hday⟩

/-- The date of the next day. -/
theorem next (h : Dated n year month day) :
    (day + 1 < monthLength year month ∧ Dated (n + 1) year month (day + 1)) ∨
      (day + 1 = monthLength year month ∧ month + 1 < 12 ∧ Dated (n + 1) year (month + 1) 0) ∨
        (day + 1 = monthLength year month ∧ month + 1 = 12 ∧ Dated (n + 1) (year + 1) 0 0) := by
  have hmonth : Segments.Located (monthLength year) (Segments.start (monthLength year) month + day)
      month day := ⟨rfl, h.day⟩
  have htwelve := h.lt_twelve
  have hstart := start_twelve year
  rcases h.located.succ (yearLength_pos _) with ⟨hin, hyear⟩ | ⟨hend, hyear⟩
  · rcases hmonth.succ (monthLength_pos _ _) with ⟨hday, _⟩ | ⟨hday, hnext⟩
    · exact Or.inl ⟨hday, ⟨hyear, hday⟩⟩
    · have hlt : month + 1 < 12 := by
        by_contra hge
        have hmonth12 : month + 1 = 12 := by omega
        have heq := hnext.eq
        rw [hmonth12, hstart] at heq
        omega
      have heq := hnext.eq
      rw [Nat.add_assoc] at hyear
      refine Or.inr (Or.inl ⟨hday, hlt, ?_, monthLength_pos _ _⟩)
      rw [← heq]
      exact hyear
  · rcases hmonth.succ (monthLength_pos _ _) with ⟨hday, _⟩ | ⟨hday, hnext⟩
    · have hlt := (Segments.Located.mk rfl hday).lt_start htwelve
      rw [hstart] at hlt
      omega
    · have heq := hnext.eq
      have hlast : month + 1 = 12 := by
        by_contra hne
        have hlt : month + 1 < 12 := by omega
        have hbefore := hnext.lt_start hlt
        rw [hstart] at hbefore
        omega
      exact Or.inr (Or.inr ⟨hday, hlast, hyear, monthLength_pos _ _⟩)

end Dated

end ArduinoProjects.TimeLib
