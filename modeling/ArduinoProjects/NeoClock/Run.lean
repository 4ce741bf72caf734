import ArduinoProjects.NeoClock.Basic

/-!
# Runs of the ring clock

A `Setting` is a message and the true time at which it sets the clock.  `Told` says what
a run shows: each frame has the hands where the last message and the time since then put
them, to the second and each at the time of its own reading, and there is a frame exactly
while that message is younger than 300 seconds.

`Held` is the invariant.  It relates the variables of the library to the last setting.
-/

namespace ArduinoProjects.NeoClock

open TimeLib
open BleRgb (LED_COUNT Ring setAll)

/-! ## What a run tells -/

/-- The number of a message, and the true time at which it sets the clock. -/
structure Setting where
  pctime : UInt32
  instant : Nat

/-- The time that a clock with this setting tells. -/
def Setting.told (c : Setting) (time : Nat) : UInt32 :=
  .ofNat (c.pctime.toNat + (time - c.instant) / 1000)

/-- Jan 1 2105.  A later message is so close to the end of the calendar that the clock can
pass it. -/
def LIMIT : Nat := 4260211200

/-- The setting after the message of a call that starts at this true time. -/
def LoopInput.setting (i : LoopInput) (last : Option Setting) (time : Nat) : Option Setting :=
  match i.accepted with
  | some pctime => some ⟨pctime, time + i.setGap⟩
  | none => last

/-- The frame shows the time of the setting.  The hour, the minute and the second are
read one after the other, so that a frame around a full hour may mix two times. -/
structure Frame.Tells (f : Frame) (c : Setting) (askedAt : Nat) : Prop where
  hourAt : askedAt ≤ f.hourAt
  minuteAt : f.hourAt ≤ f.minuteAt
  secondAt : f.minuteAt ≤ f.secondAt
  blueAt : f.secondAt ≤ f.blueAt
  face : Face f.strip (breakTime (c.told f.hourAt)).hour.toNat
    (breakTime (c.told f.minuteAt)).minute.toNat (breakTime (c.told f.secondAt)).second.toNat

/-- What one call of `loop` shows after this setting. -/
structure Shown.Right (o : Shown) (last : Option Setting) : Prop where
  led : o.led = o.frame.isNone
  notSet : last = none → o.frame = none
  fresh : ∀ c, last = some c → c.instant ≤ o.askedAt ∧
    (c.pctime.toNat < LIMIT → (o.frame.isSome ↔ o.askedAt < c.instant + 300000))
  face : ∀ f c, o.frame = some f → last = some c → f.Tells c o.askedAt

/-- The true time after a call. -/
def Shown.endsAt (o : Shown) : Nat := (o.frame.map (·.blueAt)).getD o.askedAt

/-- What a run shows, with the last setting and the true time at its end. -/
inductive Told (time₀ : Nat) : List LoopInput → List Shown → Option Setting → Nat → Prop
  | nil : Told time₀ [] [] none time₀
  | snoc {inputs : List LoopInput} {shown : List Shown} {last : Option Setting} {time : Nat}
    (i : LoopInput) (o : Shown) (h : Told time₀ inputs shown last time) (hle : time ≤ o.askedAt)
    (hright : o.Right (i.setting last time)) :
    Told time₀ (inputs ++ [i]) (shown ++ [o]) (i.setting last time) o.endsAt

/-! ## The invariant -/

/-- The variables after the last setting.  Without one the clock counts from 0. -/
structure Held (last : Option Setting) (b : Board) : Prop where
  onTime : OnTime b.vars (last.getD ⟨0, 0⟩).pctime.toNat (last.getD ⟨0, 0⟩).instant b.time
  syncInterval : b.vars.syncInterval = 300
  coherent : Coherent b.vars
  notSet : last = none → b.vars.status ≠ .timeSet
  next : ∀ c, last = some c → b.vars.status = .timeSet → b.vars.nextSyncTime = c.pctime + 300
  fresh : ∀ c, last = some c → c.pctime.toNat < LIMIT →
    (b.vars.status = .timeSet ↔ (b.time - c.instant) / 1000 < 300)

/-- The clock shows this time of the day, which the setting tells. -/
structure Read (last : Option Setting) (b : Board) (t : UInt32) (b' : Board) : Prop where
  le : b.time ≤ b'.time
  held : Held last b'
  told : ∀ c, last = some c → t = c.told b'.time

variable {last : Option Setting}

theorem Held.asked {b b' : Board} {t : UInt32} (h : Held last b)
    (ha : Asked b (last.getD ⟨0, 0⟩).pctime.toNat (last.getD ⟨0, 0⟩).instant t b') :
    Read last b t b' := by
  refine ⟨ha.le, ⟨ha.onTime, ha.syncInterval.trans h.syncInterval, ?_, ?_, ?_, ?_⟩, ?_⟩
  · have hcoherent := h.coherent
    rw [Coherent, ← ha.tm, ← ha.cacheTime] at hcoherent
    exact hcoherent
  · intro hlast hset
    exact h.notSet hlast (ha.status.mp hset).1
  · intro c hc hset
    rw [ha.next hset]
    exact h.next c hc (ha.status.mp hset).1
  · intro c hc hlimit
    subst hc
    have hstart : c.instant ≤ b.time := h.onTime.le
    have hle := ha.le
    have hquick := ha.quick
    have hfresh := h.fresh c rfl hlimit
    have ht : t = .ofNat (c.pctime.toNat + (b'.time - c.instant) / 1000) := ha.eq
    -- while the status is kept, the next synchronisation is 300 seconds after the setting
    have hdue : b.vars.status = .timeSet →
        (t < b.vars.nextSyncTime ↔ (b'.time - c.instant) / 1000 < 300) := by
      intro hset
      have helapsed := hfresh.mp hset
      have hnext : b.vars.nextSyncTime.toNat = c.pctime.toNat + 300 := by
        rw [h.next c rfl hset, UInt32.toNat_add]
        exact Nat.mod_eq_of_lt (by rw [LIMIT] at hlimit; simp; omega)
      have htold : t.toNat = c.pctime.toNat + (b'.time - c.instant) / 1000 := by
        rw [ht]
        exact Nat.mod_eq_of_lt (by rw [LIMIT] at hlimit; omega)
      rw [UInt32.lt_iff_toNat_lt, hnext, htold]
      omega
    rw [ha.status]
    constructor
    · rintro ⟨hset, hlt⟩
      exact (hdue hset).mp hlt
    · intro helapsed
      have hset : b.vars.status = .timeSet := hfresh.mpr (by omega)
      exact ⟨hset, (hdue hset).mpr helapsed⟩
  · intro c hc
    subst hc
    exact ha.eq

theorem Held.now {b : Board} (h : Held last b) (w : Wait) :
    Returns (TimeLib.now w requestSync) b fun t b' => Read last b t b' :=
  (now_onTime h.onTime w).mono fun _ _ ha => h.asked ha

theorem Held.refreshCache {b : Board} (h : Held last b) (t : UInt32) :
    Held last { b with vars := b.vars.refreshCache t } := by
  have hcoherent := (refreshCache_coherent h.coherent t).2
  rw [TimeVars.refreshCache] at hcoherent ⊢
  split_ifs at hcoherent ⊢ with hmiss
  · exact ⟨⟨h.onTime.le, h.onTime.sysTime, h.onTime.prevMillis⟩, h.syncInterval, hcoherent,
      h.notSet, h.next, h.fresh⟩
  · exact h

/-- `f` is an accessor of the library, which looks at the time of the day. -/
structure Accessor (f : UInt32 → StateT Board Option Int) (g : TmElements → Int) : Prop where
  reads : ∀ t b, f t b =
    some (g (b.vars.refreshCache t).tm, { b with vars := b.vars.refreshCache t })
  same : ∀ {tm tm' : TmElements}, SameTimeOfDay tm tm' → g tm = g tm'

theorem minute_accessor : Accessor minute fun tm => tm.minute.toNat where
  reads _ _ := rfl
  same h := congrArg (fun x : UInt8 => (x.toNat : Int)) h.minute

theorem second_accessor : Accessor second fun tm => tm.second.toNat where
  reads _ _ := rfl
  same h := congrArg (fun x : UInt8 => (x.toNat : Int)) h.second

/-- What `hourFormat12` does with the hour. -/
def to12 (hour : UInt8) : Int :=
  if hour = 0 then 12 else if hour > 12 then hour.toNat - 12 else hour.toNat

theorem hourFormat12_accessor : Accessor hourFormat12 fun tm => to12 tm.hour where
  reads t b := by
    show (if (b.vars.refreshCache t).tm.hour = 0 then _ else _ : StateT Board Option Int) _ = _
    simp only [to12]
    split_ifs with hzero hpast
    · rfl
    · rfl
    · rfl
  same h := congrArg to12 h.hour

/-- The place of the hand does not depend on the half of the day. -/
theorem positive_modulo_to12 (hour : UInt8) :
    positive_modulo (to12 hour + UTC_OFFSET) HOURS = (hour.toNat % 12 : Nat) := by
  have hmod : ∀ n : Int, positive_modulo (n + UTC_OFFSET) HOURS = n % 12 := by
    intro n
    rw [positive_modulo, UTC_OFFSET, HOURS, Int.add_zero]
    exact CInt.floorMod_eq_emod (by decide) n
  rw [to12]
  split_ifs with hzero hpast
  · rw [hzero]
    rfl
  · have hpast' : 12 < hour.toNat := hpast
    rw [hmod]
    omega
  · rw [hmod]
    omega

theorem Held.reading {b : Board} (h : Held last b) {f : UInt32 → StateT Board Option Int}
    {g : TmElements → Int} (hf : Accessor f g) (w : Wait) :
    Returns (NeoClock.reading f w) b fun r b' => b.time ≤ r.2 ∧ r.2 = b'.time ∧ Held last b' ∧
      ∀ c, last = some c → r.1 = g (breakTime (c.told r.2)) := by
  refine Returns.bind (h.now w) fun t b₁ hread => ?_
  refine Returns.bind_of_eq (hf.reads t b₁) (Returns.get_bind (Returns.pure ?_))
  refine ⟨hread.le, rfl, hread.held.refreshCache t, fun c hc => ?_⟩
  show g (b₁.vars.refreshCache t).tm = g (breakTime (c.told b₁.time))
  rw [← hread.told c hc]
  exact hf.same (refreshCache_coherent hread.held.coherent t).1

theorem returns_onBoard {α : Type} {x : StateT Board Option α} {s : Sketch}
    {post : α → Board → Prop} (h : Returns x s.board post) :
    Returns (onBoard x) s fun a s' => post a s'.board ∧ s'.strip = s.strip := by
  obtain ⟨a, b, hx, hpost⟩ := h
  refine ⟨a, { s with board := b }, ?_, hpost, rfl⟩
  rw [onBoard, hx]
  rfl

/-! ## One call -/

/-- The message sets the clock, if it is valid. -/
theorem processSyncMessage_held {s : Sketch} (h : Held last s.board) (i : LoopInput) :
    Returns (processSyncMessage i) s fun _ s' =>
      s.board.time ≤ s'.board.time ∧ Held (i.setting last s.board.time) s'.board := by
  have hkeep : i.accepted = none → Returns (pure () : StateT Sketch Option Unit) s fun _ s' =>
      s.board.time ≤ s'.board.time ∧ Held (i.setting last s.board.time) s'.board := by
    intro hnone
    rw [LoopInput.setting, hnone]
    exact Returns.pure ⟨Nat.le_refl _, h⟩
  rw [processSyncMessage]
  cases hm : i.message with
  | none => exact hkeep (by rw [LoopInput.accepted, hm]; rfl)
  | some pctime =>
    by_cases hvalid : pctime > DEFAULT_TIME
    · have haccepted : i.accepted = some pctime := by
        rw [LoopInput.accepted, hm]
        exact if_pos (decide_eq_true hvalid)
      simp only [if_pos hvalid]
      rw [LoopInput.setting, haccepted]
      refine ⟨(), _, rfl, Nat.le_add_right _ _, ?_⟩
      refine ⟨setTime_onTime _ _ _, h.syncInterval, h.coherent, fun hnone => ?_, ?_, ?_⟩
      · cases hnone
      · rintro c ⟨⟩ _
        show pctime + s.board.vars.syncInterval = pctime + 300
        rw [h.syncInterval]
      · rintro c ⟨⟩ _
        refine ⟨fun _ => ?_, fun _ => rfl⟩
        show (s.board.time + i.setGap - (s.board.time + i.setGap)) / 1000 < 300
        omega
    · simp only [if_neg hvalid]
      refine hkeep ?_
      rw [LoopInput.accepted, hm]
      exact if_neg fun h => hvalid (of_decide_eq_true h)

theorem timeStatus_held {b : Board} (h : Held last b) (w : Wait) :
    Returns (timeStatus w requestSync) b fun status b' =>
      b.time ≤ b'.time ∧ Held last b' ∧ status = b'.vars.status := by
  refine Returns.bind (h.now w) fun _ b₁ hread => ?_
  exact Returns.get_bind (Returns.pure ⟨hread.le, hread.held, rfl⟩)

theorem loop_held {s : Sketch} (h : Held last s.board) (i : LoopInput) :
    Returns (loop i) s fun o s' => s.board.time ≤ o.askedAt ∧
      o.Right (i.setting last s.board.time) ∧ o.endsAt = s'.board.time ∧
      Held (i.setting last s.board.time) s'.board := by
  refine Returns.bind (processSyncMessage_held h i) fun _ s₁ h₁ => ?_
  generalize i.setting last s.board.time = set at h₁ ⊢
  obtain ⟨hle₁, hheld₁⟩ := h₁
  refine Returns.bind_of_eq rfl ?_
  refine Returns.bind (returns_onBoard (timeStatus_held hheld₁ (i.waits 0)))
    fun status s₂ h₂ => Returns.get_bind ?_
  obtain ⟨⟨hle₂, hheld₂, hstatus⟩, hstrip₂⟩ := h₂
  have hstart : ∀ c, set = some c → c.instant ≤ s₂.board.time := by
    intro c hc
    have hle := hheld₂.onTime.le
    rw [hc] at hle
    exact hle
  have hage : ∀ c, set = some c → c.pctime.toNat < LIMIT →
      (s₂.board.vars.status = .timeSet ↔ s₂.board.time < c.instant + 300000) := by
    intro c hc hlimit
    have hfresh := hheld₂.fresh c hc hlimit
    have hc' := hstart c hc
    rw [hfresh, Nat.div_lt_iff_lt_mul (by decide)]
    omega
  split_ifs with hset
  · rw [hstatus] at hset
    refine Returns.bind (returns_onBoard (hheld₂.reading hourFormat12_accessor (i.waits 1)))
      fun r₃ s₃ h₃ => ?_
    obtain ⟨⟨hle₃, hat₃, hheld₃, htold₃⟩, hstrip₃⟩ := h₃
    refine Returns.bind (returns_onBoard (hheld₃.reading minute_accessor (i.waits 2)))
      fun r₄ s₄ h₄ => ?_
    obtain ⟨⟨hle₄, hat₄, hheld₄, htold₄⟩, hstrip₄⟩ := h₄
    refine Returns.bind (returns_onBoard (hheld₄.reading second_accessor (i.waits 3)))
      fun r₅ s₅ h₅ => ?_
    obtain ⟨⟨hle₅, hat₅, hheld₅, htold₅⟩, hstrip₅⟩ := h₅
    refine Returns.bind (returns_onBoard (hheld₅.reading second_accessor (i.waits 4)))
      fun r₆ s₆ h₆ => ?_
    obtain ⟨⟨hle₆, hat₆, hheld₆, htold₆⟩, hstrip₆⟩ := h₆
    refine Returns.bind_of_eq rfl (Returns.get_bind (Returns.pure ?_))
    refine ⟨Nat.le_trans hle₁ hle₂, ⟨rfl, fun hnone => absurd hset (hheld₂.notSet hnone), ?_, ?_⟩,
      hat₆, hheld₆⟩
    · intro c hc
      exact ⟨hstart c hc, fun hlimit => ⟨fun _ => (hage c hc hlimit).mp hset, fun _ => rfl⟩⟩
    · rintro f c ⟨⟩ hc
      refine ⟨hle₃, hat₃ ▸ hle₄, hat₄ ▸ hle₅, hat₅ ▸ hle₆, ?_⟩
      have hstrip : s₆.strip = setAll s₁.strip off := by
        rw [hstrip₆, hstrip₅, hstrip₄, hstrip₃, hstrip₂]
      show Face (drawHands s₆.strip r₃.1 r₄.1 r₅.1 r₆.1) _ _ _
      rw [hstrip, htold₃ c hc, htold₄ c hc, htold₅ c hc, htold₆ c hc]
      exact face_drawHands s₁.strip (positive_modulo_to12 _) (breakTime_minute_lt _)
        (breakTime_second_lt _)
  · rw [hstatus] at hset
    refine Returns.pure ⟨Nat.le_trans hle₁ hle₂, ⟨rfl, fun _ => rfl, ?_, ?_⟩, rfl, hheld₂⟩
    · intro c hc
      refine ⟨hstart c hc, fun hlimit => ⟨fun hsome => Bool.noConfusion hsome, fun hlt => ?_⟩⟩
      exact absurd ((hage c hc hlimit).mpr hlt) hset
    · intro f c hf
      cases hf

/-! ## Every run -/

theorem init_held : Held none Sketch.init.board where
  onTime := ⟨Nat.le_refl _, rfl, rfl⟩
  syncInterval := rfl
  coherent := init_coherent
  notSet := fun _ hset => by cases hset
  next := by
    intro c hc
    cases hc
  fresh := by
    intro c hc
    cases hc

/-- `setSyncProvider` asks for the time at once, and gets none. -/
theorem setup_held (w : Wait) : Returns (setup w) Sketch.init fun _ s => Held none s.board := by
  have hinit := init_held
  have hprovider : Returns (setSyncProvider w requestSync) Sketch.init.board fun _ b =>
      Held none b := by
    have hasked : Held none { Sketch.init.board with
        vars := { Sketch.init.board.vars with nextSyncTime := Sketch.init.board.vars.sysTime } } :=
      ⟨hinit.onTime, rfl, init_coherent, hinit.notSet, hinit.next, hinit.fresh⟩
    refine Returns.bind_of_eq rfl ?_
    exact Returns.bind (hasked.now w) fun _ _ hread => Returns.pure hread.held
  exact (returns_onBoard hprovider).mono fun _ _ h => h.1

/-- Every run shows the right time, as long as the calls of `now` are less than about
49 days apart (`Wait.quick`). -/
theorem run_told (w : Wait) (inputs : List LoopInput) :
    Returns (run w inputs) Sketch.init fun shown s =>
      ∃ time₀ last, Told time₀ inputs shown last s.board.time := by
  refine Returns.bind (setup_held w) fun _ (s₀ : Sketch) h₀ => ?_
  have hmap : Returns (inputs.mapM loop) s₀ fun shown s =>
      ∃ last, Told s₀.board.time inputs shown last s.board.time ∧ Held last s.board := by
    refine Returns.mapM (fun inputs shown (s : Sketch) =>
      ∃ last, Told s₀.board.time inputs shown last s.board.time ∧ Held last s.board) ?_ inputs
      ⟨none, .nil, h₀⟩
    intro inputs shown s i h
    obtain ⟨last, htold, hheld⟩ := h
    refine (loop_held hheld i).mono fun o s' ho => ?_
    obtain ⟨hle, hright, hends, hheld'⟩ := ho
    exact ⟨_, hends ▸ htold.snoc i o hle hright, hheld'⟩
  exact hmap.mono fun shown s h => ⟨_, h.imp fun _ h => h.1⟩

/-- A call of `loop` this long after the last one. -/
def LoopInput.pause (message : Option UInt32) (gap : Nat) (h : gap + 2000 ≤ 2 ^ 32) :
    LoopInput where
  message := message
  setGap := 1
  waits
    | 0 => .pause gap h
    | _ => .pause 1 (by decide)

/-- A message, and a call 100 seconds and one 300 seconds after it. -/
def oneMessage : List LoopInput :=
  [.pause none 500 (by decide), .pause (some 1400000000) 10 (by decide),
    .pause none 100000 (by decide), .pause (some 7) 200000 (by decide)]

theorem run_told_oneMessage :
    Returns (run (.pause 3 (by decide)) oneMessage) Sketch.init fun shown s =>
      shown.map (·.frame.isSome) = [false, true, true, false] ∧
        ∃ time₀ last, Told time₀ oneMessage shown last s.board.time :=
  (run_told (.pause 3 (by decide)) oneMessage).with_value (fun shown => shown.map (·.frame.isSome))
    (by decide +kernel)

end ArduinoProjects.NeoClock
