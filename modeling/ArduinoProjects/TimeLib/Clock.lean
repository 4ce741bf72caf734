import ArduinoProjects.Lib.Clock
import ArduinoProjects.Lib.Returns
import ArduinoProjects.TimeLib.Break

/-!
# The clock of the sketch

The other half of `src/libraries/Time/Time.cpp`: `now` and `setTime` keep the time, and
`hourFormat12`, `minute` and `second` take it apart, through a cache of the last
elements.

The true time is a number of milliseconds that never wraps, and `millis()` reads its low
32 bits.  A `Wait` says how time passes before and while `now` runs, which takes less
than about 49 days together.

`OnTime` says that the clock shows the time that it was set to and the whole seconds
since.  `now_onTime` says that it stays that way from call to call: no fraction of a
second is lost, however often the clock is asked, and it does not matter that `millis()`
wraps.
-/

namespace ArduinoProjects.TimeLib

inductive TimeStatus where
  | timeNotSet
  | timeNeedsSync
  | timeSet
  deriving DecidableEq, Repr

/-- The static variables. -/
structure TimeVars where
  tm : TmElements
  cacheTime : UInt32
  sysTime : UInt32
  prevMillis : UInt32
  nextSyncTime : UInt32
  syncInterval : UInt32
  status : TimeStatus

namespace TimeVars

def init : TimeVars where
  tm := ⟨0, 0, 0, 0, 0, 0, 0⟩
  cacheTime := 0
  sysTime := 0
  prevMillis := 0
  nextSyncTime := 0
  syncInterval := 300
  status := .timeNotSet

def setTime (s : TimeVars) (t : UInt32) (instant : Nat) : TimeVars :=
  { s with
    sysTime := t
    nextSyncTime := t + s.syncInterval
    status := .timeSet
    prevMillis := Clock.read instant }

/-- What `now` does when the function that it asks does not know the time. -/
def needSync (s : TimeVars) : TimeVars :=
  { s with
    nextSyncTime := s.sysTime + s.syncInterval
    status := if s.status = .timeNotSet then .timeNotSet else .timeNeedsSync }

def refreshCache (s : TimeVars) (t : UInt32) : TimeVars :=
  if t ≠ s.cacheTime then { s with tm := breakTime t, cacheTime := t } else s

end TimeVars

/-- How time passes around a call of `now`: until its first reading of `millis()`, from
there to the other readings, and from the last reading to the one of `setTime`. -/
structure Wait where
  gap : Nat
  later : Nat → Nat
  after : Nat
  later_zero : later 0 = 0
  later_le : ∀ j, later j ≤ later (j + 1)
  quick : ∀ j, gap + later j + 1000 ≤ 2 ^ 32

/-- `now` comes `gap` milliseconds after the last reading, and its own readings are one
millisecond apart, up to a second. -/
def Wait.pause (gap : Nat) (h : gap + 2000 ≤ 2 ^ 32) : Wait where
  gap := gap
  later j := min j 1000
  after := 0
  later_zero := rfl
  later_le j := by omega
  quick j := by omega

/-- The variables, and the true time of the last reading of `millis()`. -/
structure Board where
  vars : TimeVars
  time : Nat

/-- The true time of a reading. -/
def Board.instant (b : Board) (w : Wait) (j : Nat) : Nat := b.time + w.gap + w.later j

/-- The loop of `now`, for a number of rounds.  It gives the number of the last reading. -/
def catchUp (ms : Nat → Nat) : Nat → Nat → TimeVars → Option (TimeVars × Nat)
  | 0, _, _ => none
  | rounds + 1, j, s =>
    if 1000 ≤ Clock.read (ms j) - s.prevMillis then
      catchUp ms rounds (j + 1)
        { s with sysTime := s.sysTime + 1, prevMillis := s.prevMillis + 1000 }
    else some (s, j)

def setTime (t : UInt32) (gap : Nat) : StateT Board Option Unit :=
  modify fun b => { b with vars := b.vars.setTime t (b.time + gap), time := b.time + gap }

/-- The second half of `now`.  `getTimePtr` is what the function that it points to
answers, if there is one. -/
def syncTime (getTimePtr : Option UInt32) (gap : Nat) : StateT Board Option Unit := do
  let s := (← get).vars
  if s.nextSyncTime ≤ s.sysTime then
    match getTimePtr with
    | none => return ()
    | some t =>
      if t ≠ 0 then setTime t gap else modify fun b => { b with vars := b.vars.needSync }
  else return ()

/-- The difference of two readings is below `2 ^ 32`, so there are fewer rounds. -/
def catchUpNow (w : Wait) : StateT Board Option Unit := fun b =>
  (catchUp (b.instant w) (2 ^ 32) 0 b.vars).map fun r =>
    ((), { vars := r.1, time := b.instant w r.2 })

def now (w : Wait) (getTimePtr : Option UInt32) : StateT Board Option UInt32 := do
  catchUpNow w
  syncTime getTimePtr w.after
  return (← get).vars.sysTime

def setSyncProvider (w : Wait) (getTimePtr : Option UInt32) : StateT Board Option Unit := do
  modify fun b => { b with vars := { b.vars with nextSyncTime := b.vars.sysTime } }
  let _ ← now w getTimePtr

def timeStatus (w : Wait) (getTimePtr : Option UInt32) : StateT Board Option TimeStatus := do
  let _ ← now w getTimePtr
  return (← get).vars.status

/-- `refreshCache(t)`, and the elements in the cache. -/
def elements (t : UInt32) : StateT Board Option TmElements := do
  modify fun b => { b with vars := b.vars.refreshCache t }
  return (← get).vars.tm

def hourFormat12 (t : UInt32) : StateT Board Option Int := do
  let tm ← elements t
  if tm.hour = 0 then return 12 -- 12 midnight
  else if tm.hour > 12 then return tm.hour.toNat - 12
  else return tm.hour.toNat

def minute (t : UInt32) : StateT Board Option Int := do
  let tm ← elements t
  return tm.minute.toNat

def second (t : UInt32) : StateT Board Option Int := do
  let tm ← elements t
  return tm.second.toNat

/-! ## Keeping the time -/

/-- At the true time `last` the clock shows `base` and the whole seconds since `start`,
and keeps the rest. -/
structure OnTime (s : TimeVars) (base start last : Nat) : Prop where
  le : start ≤ last
  sysTime : s.sysTime = .ofNat (base + (last - start) / 1000)
  prevMillis : s.prevMillis = Clock.read (start + 1000 * ((last - start) / 1000))

/-- What `now` leaves alone before it asks for the time. -/
structure SameButTime (s s' : TimeVars) : Prop where
  tm : s'.tm = s.tm
  cacheTime : s'.cacheTime = s.cacheTime
  nextSyncTime : s'.nextSyncTime = s.nextSyncTime
  syncInterval : s'.syncInterval = s.syncInterval
  status : s'.status = s.status

theorem setTime_onTime (s : TimeVars) (t : UInt32) (instant : Nat) :
    OnTime (s.setTime t instant) t.toNat instant instant where
  le := Nat.le_refl _
  sysTime := by
    rw [Nat.sub_self, Nat.zero_div, Nat.add_zero, UInt32.ofNat_toNat]
    rfl
  prevMillis := by
    rw [Nat.sub_self, Nat.zero_div, Nat.mul_zero, Nat.add_zero]
    rfl

variable {ms : Nat → Nat} {base start last : Nat}

/-- The loop ends when less than a second is left. -/
theorem catchUp_spec {bound : Nat} (hms : ∀ j, ms j ≤ ms (j + 1)) (hbound : ∀ j, ms j < bound)
    (rounds : Nat) : ∀ (j k : Nat) (s : TimeVars),
    s.sysTime = .ofNat (base + k) → s.prevMillis = Clock.read (start + 1000 * k) →
    start + 1000 * k ≤ ms j → bound ≤ start + 1000 * k + 2 ^ 32 →
    bound ≤ start + 1000 * k + rounds →
    ∃ s' j', catchUp ms rounds j s = some (s', j') ∧ j ≤ j' ∧ SameButTime s s' ∧
      OnTime s' base start (ms j') := by
  induction rounds with
  | zero =>
    intro j k s _ _ hle _ hrounds
    have hlt := hbound j
    omega
  | succ rounds ih =>
    intro j k s hsys hprev hle hround hrounds
    have hlt := hbound j
    have hdiff : (Clock.read (ms j) - s.prevMillis).toNat = ms j - (start + 1000 * k) := by
      rw [hprev, Clock.toNat_read_sub hle, Nat.mod_eq_of_lt (by omega)]
    have htest : 1000 ≤ Clock.read (ms j) - s.prevMillis ↔ 1000 ≤ ms j - (start + 1000 * k) := by
      rw [UInt32.le_iff_toNat_le, hdiff]
      rfl
    rw [catchUp]
    split_ifs with hpast
    · have hpast' := htest.mp hpast
      have hmono := hms j
      have hnext : start + 1000 * (k + 1) = start + 1000 * k + 1000 := by
        rw [Nat.mul_succ, Nat.add_assoc]
      have hle' : start + 1000 * k + 1000 ≤ ms (j + 1) := by omega
      have hround' : bound ≤ start + 1000 * k + 1000 + 2 ^ 32 := by omega
      have hrounds' : bound ≤ start + 1000 * k + 1000 + rounds := by omega
      have hsys' : s.sysTime + 1 = .ofNat (base + (k + 1)) := by
        rw [hsys, ← Nat.add_assoc, UInt32.ofNat_add (base + k) 1]
        rfl
      have hprev' : s.prevMillis + 1000 = Clock.read (start + 1000 * (k + 1)) := by
        rw [hprev, hnext, Clock.read, Clock.read, UInt32.ofNat_add (start + 1000 * k) 1000]
        rfl
      obtain ⟨s', j', hrun, hj, hsame, htime⟩ :=
        ih (j + 1) (k + 1) { s with sysTime := s.sysTime + 1, prevMillis := s.prevMillis + 1000 }
          hsys' hprev' (by rw [hnext]; exact hle') (by rw [hnext]; exact hround')
          (by rw [hnext]; exact hrounds')
      exact ⟨s', j', hrun, Nat.le_of_succ_le hj,
        ⟨hsame.tm, hsame.cacheTime, hsame.nextSyncTime, hsame.syncInterval, hsame.status⟩, htime⟩
    · have hleft : ¬ 1000 ≤ ms j - (start + 1000 * k) := fun h => hpast (htest.mpr h)
      have hk : (ms j - start) / 1000 = k := by omega
      exact ⟨s, j, rfl, Nat.le_refl j, ⟨rfl, rfl, rfl, rfl, rfl⟩, by omega, by rw [hk, hsys],
        by rw [hk, hprev]⟩

/-- The time of a reading is not before the last one, and not long after it. -/
theorem Board.instant_bounds (b : Board) (w : Wait) (j : Nat) :
    b.time ≤ b.instant w j ∧ b.instant w j + 1000 ≤ b.time + 2 ^ 32 := by
  have hquick := w.quick j
  rw [instant]
  omega

/-- The clock behind the loop of `now`. -/
theorem catchUpNow_onTime {b : Board} (h : OnTime b.vars base start b.time) (w : Wait) :
    Returns (catchUpNow w) b fun _ b' =>
      b.time ≤ b'.time ∧ b'.time + 1000 ≤ b.time + 2 ^ 32 ∧ SameButTime b.vars b'.vars ∧
        OnTime b'.vars base start b'.time := by
  have hstart := h.le
  have hmono : ∀ j, b.instant w j ≤ b.instant w (j + 1) := fun j =>
    Nat.add_le_add_left (w.later_le j) _
  have hbound : ∀ j, b.instant w j < b.time + 2 ^ 32 - 999 := by
    intro j
    have hbounds := b.instant_bounds w j
    omega
  have hfirst := b.instant_bounds w 0
  obtain ⟨s', j, hrun, _, hsame, htime⟩ :=
    catchUp_spec hmono hbound (2 ^ 32) 0 ((b.time - start) / 1000) b.vars h.sysTime h.prevMillis
      (by omega) (by omega) (by omega)
  obtain ⟨hle, hquick⟩ := b.instant_bounds w j
  refine ⟨(), { vars := s', time := b.instant w j }, ?_, hle, hquick, hsame, htime⟩
  show (catchUp (b.instant w) (2 ^ 32) 0 b.vars).map _ = _
  rw [hrun]
  rfl

/-- A clock whose provider does not know the time. -/
structure Asked (b : Board) (base start : Nat) (t : UInt32) (b' : Board) : Prop where
  le : b.time ≤ b'.time
  quick : b'.time + 1000 ≤ b.time + 2 ^ 32
  onTime : OnTime b'.vars base start b'.time
  eq : t = .ofNat (base + (b'.time - start) / 1000)
  tm : b'.vars.tm = b.vars.tm
  cacheTime : b'.vars.cacheTime = b.vars.cacheTime
  syncInterval : b'.vars.syncInterval = b.vars.syncInterval
  /-- The status is kept until the next synchronisation is due. -/
  status : b'.vars.status = .timeSet ↔ b.vars.status = .timeSet ∧ t < b.vars.nextSyncTime
  next : b'.vars.status = .timeSet → b'.vars.nextSyncTime = b.vars.nextSyncTime

theorem syncTime_zero (b : Board) (gap : Nat) :
    syncTime (some 0) gap b = some ((), if b.vars.nextSyncTime ≤ b.vars.sysTime then
      { b with vars := b.vars.needSync } else b) := by
  by_cases hdue : b.vars.nextSyncTime ≤ b.vars.sysTime
  · rw [if_pos hdue]
    show (if b.vars.nextSyncTime ≤ b.vars.sysTime then _ else _ : StateT Board Option Unit) b = _
    rw [if_pos hdue]
    rfl
  · rw [if_neg hdue]
    show (if b.vars.nextSyncTime ≤ b.vars.sysTime then _ else _ : StateT Board Option Unit) b = _
    rw [if_neg hdue]
    rfl

theorem now_onTime {b : Board} (h : OnTime b.vars base start b.time) (w : Wait) :
    Returns (now w (some 0)) b fun t b' => Asked b base start t b' := by
  refine Returns.bind (catchUpNow_onTime h w) fun _ b₁ h₁ => ?_
  obtain ⟨hle, hquick, hsame, htime⟩ := h₁
  refine Returns.bind_of_eq (syncTime_zero b₁ w.after) (Returns.get_bind ?_)
  split_ifs with hdue
  · have hnot : b₁.vars.needSync.status ≠ .timeSet := by
      show (if b₁.vars.status = .timeNotSet then TimeStatus.timeNotSet else .timeNeedsSync) ≠ _
      split_ifs <;> simp
    refine Returns.pure ⟨hle, hquick, ⟨htime.le, htime.sysTime, htime.prevMillis⟩, htime.sysTime,
      hsame.tm, hsame.cacheTime, hsame.syncInterval, ⟨fun hset => absurd hset hnot, ?_⟩,
      fun hset => absurd hset hnot⟩
    rintro ⟨_, hlt⟩
    rw [← hsame.nextSyncTime] at hlt
    exact absurd hdue (UInt32.not_le.mpr hlt)
  · have hlt : b₁.vars.sysTime < b.vars.nextSyncTime := by
      rw [← hsame.nextSyncTime]
      exact UInt32.not_le.mp hdue
    exact Returns.pure ⟨hle, hquick, htime, htime.sysTime, hsame.tm, hsame.cacheTime,
      hsame.syncInterval, ⟨fun hset => ⟨hsame.status ▸ hset, hlt⟩, fun h => hsame.status.trans h.1⟩,
      fun _ => hsame.nextSyncTime⟩

/-! ## The cache -/

structure SameTimeOfDay (tm tm' : TmElements) : Prop where
  hour : tm.hour = tm'.hour
  minute : tm.minute = tm'.minute
  second : tm.second = tm'.second

/-- The cache shows its time.  That includes the one of `init`, which has no date. -/
def Coherent (s : TimeVars) : Prop := SameTimeOfDay s.tm (breakTime s.cacheTime)

theorem init_coherent : Coherent .init := ⟨by decide, by decide, by decide⟩

theorem refreshCache_coherent {s : TimeVars} (h : Coherent s) (t : UInt32) :
    SameTimeOfDay (s.refreshCache t).tm (breakTime t) ∧ Coherent (s.refreshCache t) := by
  rw [TimeVars.refreshCache]
  split_ifs with hmiss
  · exact ⟨⟨rfl, rfl, rfl⟩, rfl, rfl, rfl⟩
  · have heq : t = s.cacheTime := not_not.mp hmiss
    exact ⟨heq ▸ h, h⟩

end ArduinoProjects.TimeLib
