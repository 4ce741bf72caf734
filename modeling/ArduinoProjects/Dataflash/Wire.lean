import ArduinoProjects.Dataflash.Basic
import ArduinoProjects.Lib.Returns

/-!
# The wire

`Wire` records what the library does to the SPI pins, with no chip behind them.  A
frame is opened when the library takes SS to `LOW` and closed when it takes SS back
to `HIGH`, and it holds the bytes that are sent in between.

What comes in is a parameter: `replies` are the bytes that are shifted in, so the
status bytes among them, and `clock` holds the values of `millis()`.

The lemmas follow a call through the wire.  `Between` and `InFrame` say where a call
stands, and each operation of the library moves it on.
-/

namespace ArduinoProjects.Dataflash

/-- The record of the SPI pins. -/
structure Wire where
  /-- The frames that are closed, oldest first. -/
  frames : List (List UInt8)
  /-- The bytes of the frame that is open. -/
  frame : Option (List UInt8)
  /-- The bytes that were sent outside of a frame. -/
  stray : List UInt8
  ss : Level
  /-- The transactions that have begun and not ended. -/
  transactions : Int
  replies : Nat → UInt8
  received : Nat
  clock : Nat → UInt32
  ticks : Nat

namespace Wire

def transfer (b : UInt8) (w : Wire) : UInt8 × Wire :=
  (w.replies w.received,
    match w.frame with
    | none => { w with stray := w.stray ++ [b], received := w.received + 1 }
    | some bytes => { w with frame := some (bytes ++ [b]), received := w.received + 1 })

def writeSS (level : Level) (w : Wire) : Wire :=
  match level, w.frame with
  | .HIGH, some bytes => { w with frames := w.frames ++ [bytes], frame := none, ss := .HIGH }
  | .LOW, none => { w with frame := some [], ss := .LOW }
  | _, _ => { w with ss := level }

instance : SpiBus Wire where
  spiBegin := id
  beginTransaction w := { w with transactions := w.transactions + 1 }
  endTransaction w := { w with transactions := w.transactions - 1 }
  transfer := transfer
  digitalReadSS := ss
  digitalWriteSS := writeSS
  digitalWriteBLE _ := id
  millis w := (w.clock w.ticks, { w with ticks := w.ticks + 1 })
  serialPrint _ := id

/-- The wire at power-up, with SS at any level. -/
def powerUp (ss : Level) (replies : Nat → UInt8) (clock : Nat → UInt32) : Wire :=
  { frames := [], frame := none, stray := [], ss, transactions := 0, replies, received := 0,
    clock, ticks := 0 }

/-- Between two calls, after some frames. -/
structure Between (frames : List (List UInt8)) (w : Wire) : Prop where
  frames_eq : w.frames = frames
  frame : w.frame = none
  stray : w.stray = []
  transactions : w.transactions = 0

/-- In a frame, after some of its bytes. -/
structure InFrame (frames : List (List UInt8)) (bytes : List UInt8) (w : Wire) : Prop where
  frames_eq : w.frames = frames
  frame : w.frame = some bytes
  stray : w.stray = []
  transactions : w.transactions = 1

/-- After a call the wire is between two calls with SS back at `HIGH`. -/
structure Deselected (frames : List (List UInt8)) (w : Wire) : Prop extends Between frames w where
  ss : w.ss = .HIGH

variable {frames : List (List UInt8)} {bytes : List UInt8} {w : Wire}

/-! ## The operations -/

theorem spiBegin_returns (h : w.Between frames) :
    Returns (modify SpiBus.spiBegin : SpiM Wire PUnit) w fun _ w' => w'.Between frames :=
  ⟨_, w, rfl, h⟩

theorem transfer_returns (h : w.InFrame frames bytes) (b : UInt8) :
    Returns (Dataflash.transfer b) w fun _ w' => w'.InFrame frames (bytes ++ [b]) := by
  obtain ⟨hframes, hframe, hstray, htransactions⟩ := h
  refine ⟨_, _, rfl, ?_⟩
  simp only [hframe]
  exact ⟨hframes, rfl, hstray, htransactions⟩

theorem transferAll_returns (h : w.InFrame frames bytes) (data : List UInt8) :
    Returns (data.mapM Dataflash.transfer) w fun _ w' => w'.InFrame frames (bytes ++ data) := by
  refine Returns.mapM (fun done _ (w' : Wire) => w'.InFrame frames (bytes ++ done)) ?_ data
    (by simpa using h)
  intro done _ w' b hw
  refine (transfer_returns hw b).mono fun _ w'' hw' => ?_
  rwa [List.append_assoc] at hw'

theorem chipSelect_returns (h : w.Between frames) :
    Returns chipSelect w fun _ w' => w'.InFrame frames [] := by
  obtain ⟨hframes, hframe, hstray, htransactions⟩ := h
  obtain ⟨frames', frame, stray, ss, transactions, replies, received, clock, ticks⟩ := w
  cases hframe
  have hended : transactions + 1 = 1 := by
    rw [show transactions = 0 from htransactions, zero_add]
  -- An SS that is LOW at power-up is taken to HIGH first, which closes no frame.
  cases ss with
  | LOW => exact ⟨(), _, rfl, hframes, rfl, hstray, hended⟩
  | HIGH => exact ⟨(), _, rfl, hframes, rfl, hstray, hended⟩

theorem chipDeselect_returns (h : w.InFrame frames bytes) :
    Returns chipDeselect w fun _ w' => w'.Deselected (frames ++ [bytes]) := by
  obtain ⟨hframes, hframe, hstray, htransactions⟩ := h
  obtain ⟨frames', frame, stray, ss, transactions, replies, received, clock, ticks⟩ := w
  cases hframe
  have hended : transactions - 1 = 0 := by
    rw [show transactions = 1 from htransactions, sub_self]
  exact ⟨(), _, rfl, ⟨congrArg (· ++ [bytes]) hframes, rfl, hstray, hended⟩, rfl⟩

theorem strobe_returns (h : w.InFrame frames bytes) :
    Returns strobe w fun _ w' => w'.InFrame (frames ++ [bytes]) [] := by
  obtain ⟨hframes, hframe, hstray, htransactions⟩ := h
  obtain ⟨frames', frame, stray, ss, transactions, replies, received, clock, ticks⟩ := w
  cases hframe
  exact ⟨(), _, rfl, congrArg (· ++ [bytes]) hframes, rfl, hstray, htransactions⟩

theorem millis_returns (h : w.InFrame frames bytes) :
    Returns millis w fun _ w' => w'.InFrame frames bytes :=
  ⟨_, _, rfl, h.1, h.2, h.3, h.4⟩

theorem readStatus_returns (h : w.InFrame frames bytes) :
    Returns readStatus w fun _ w' => w'.InFrame frames (bytes ++ [StatusReg, 0x00]) := by
  refine Returns.bind (transfer_returns h StatusReg) fun _ w' h' => ?_
  refine (transfer_returns h' 0x00).mono fun _ w'' h'' => ?_
  rwa [List.append_assoc] at h''

/-! ## Waiting for the chip -/

/-- The bytes of some polls of the status register. -/
def pollBytes (polls : Nat) : List UInt8 := (List.replicate polls [StatusReg, 0x00]).flatten

theorem pollBytes_succ (polls : Nat) :
    pollBytes (polls + 1) = [StatusReg, 0x00] ++ pollBytes polls := by
  rw [pollBytes, List.replicate_succ, List.flatten_cons]
  rfl

/-- A poll loop that ends has sent some polls and nothing else, whether the chip was
ready or the time was over. -/
theorem pollReady_ifReturns (h : w.InFrame frames bytes) (timeout startTime : UInt32)
    (polls : Nat) :
    IfReturns (pollReady timeout startTime polls) w fun _ w' =>
      ∃ n, w'.InFrame frames (bytes ++ pollBytes (n + 1)) := by
  induction polls generalizing bytes w with
  | zero => exact IfReturns.failure
  | succ polls ih =>
    refine IfReturns.bind_returns (readStatus_returns h) fun status w₁ h₁ => ?_
    refine IfReturns.bind_returns (millis_returns h₁) fun now w₂ h₂ => ?_
    split_ifs with htime hbusy
    · refine IfReturns.of_returns ⟨_, _, rfl, 0, ?_⟩
      exact ⟨h₂.1, h₂.2, h₂.3, h₂.4⟩
    · refine (ih h₂).mono fun _ w₃ hw => ?_
      obtain ⟨n, hn⟩ := hw
      refine ⟨n + 1, ?_⟩
      rwa [List.append_assoc, ← pollBytes_succ] at hn
    · exact IfReturns.of_returns (Returns.pure ⟨0, h₂⟩)

theorem waitForReady_ifReturns (h : w.InFrame frames []) (polls : Nat) (timeout : UInt32) :
    IfReturns (waitForReady polls timeout) w fun _ w' =>
      ∃ n, w'.InFrame frames (pollBytes (n + 1)) := by
  refine IfReturns.bind_returns (millis_returns h) fun startTime w₁ h₁ => ?_
  exact pollReady_ifReturns h₁ timeout startTime polls

/-- The poll after `n` others ends the loop: the chip is ready, or the time is over. -/
def PollEnds (timeout startTime : UInt32) (w : Wire) (n : Nat) : Prop :=
  w.clock (w.ticks + n) - startTime > timeout ∨
    w.replies (w.received + 2 * n + 1) &&& READY_BIT ≠ 0

/-- The wire after one poll. -/
def polled (w : Wire) : Wire :=
  let w := (transfer 0x00 (transfer StatusReg w).2).2
  { w with ticks := w.ticks + 1 }

theorem transfer_streams (b : UInt8) (w : Wire) :
    ((transfer b w).2.replies = w.replies ∧ (transfer b w).2.received = w.received + 1) ∧
      (transfer b w).2.clock = w.clock ∧ (transfer b w).2.ticks = w.ticks := by
  unfold transfer
  cases w.frame with
  | none => exact ⟨⟨rfl, rfl⟩, rfl, rfl⟩
  | some bytes => exact ⟨⟨rfl, rfl⟩, rfl, rfl⟩

/-- One poll takes two bytes and asks the clock once. -/
theorem pollEnds_polled (timeout startTime : UInt32) (w : Wire) (n : Nat) :
    PollEnds timeout startTime w.polled n ↔ PollEnds timeout startTime w (n + 1) := by
  obtain ⟨⟨hreplies₁, hreceived₁⟩, hclock₁, hticks₁⟩ := transfer_streams StatusReg w
  obtain ⟨⟨hreplies₂, hreceived₂⟩, hclock₂, hticks₂⟩ :=
    transfer_streams 0x00 (transfer StatusReg w).2
  simp only [PollEnds, polled, hclock₂, hclock₁, hticks₂, hticks₁, hreplies₂, hreplies₁,
    hreceived₂, hreceived₁]
  rw [show w.ticks + 1 + n = w.ticks + (n + 1) by omega,
    show w.received + 1 + 1 + 2 * n + 1 = w.received + 2 * (n + 1) + 1 by omega]

theorem pollReady_succ_isSome (w : Wire) (timeout startTime : UInt32) (polls : Nat) :
    (pollReady timeout startTime (polls + 1) w).isSome ↔
      PollEnds timeout startTime w 0 ∨ (pollReady timeout startTime polls w.polled).isSome := by
  obtain ⟨⟨hreplies₁, hreceived₁⟩, hclock₁, hticks₁⟩ := transfer_streams StatusReg w
  obtain ⟨_, hclock₂, hticks₂⟩ := transfer_streams 0x00 (transfer StatusReg w).2
  have hstep : pollReady timeout startTime (polls + 1) w =
      (if w.clock w.ticks - startTime > timeout then
        (do
          modify (SpiBus.serialPrint "waitForReady timeout; ")
          modify (SpiBus.serialPrint (toString timeout))
          return 0 : SpiM Wire UInt8)
      else if w.replies (w.received + 1) &&& READY_BIT = 0 then
        pollReady timeout startTime polls
      else return w.replies (w.received + 1)) w.polled := by
    rw [← hreplies₁, ← hreceived₁, ← hclock₁, ← hticks₁, ← hclock₂, ← hticks₂]
    rfl
  rw [hstep]
  split_ifs with htime hbusy
  · exact iff_of_true rfl (Or.inl (Or.inl htime))
  · have hends : ¬ PollEnds timeout startTime w 0 := by
      rintro (h | h)
      · exact htime h
      · exact h hbusy
    exact ⟨Or.inr, fun h => h.resolve_left hends⟩
  · exact iff_of_true rfl (Or.inl (Or.inr hbusy))

/-- The loop ends exactly when one of its polls ends it. -/
theorem pollReady_isSome_iff (w : Wire) (timeout startTime : UInt32) (polls : Nat) :
    (pollReady timeout startTime polls w).isSome ↔
      ∃ n < polls, PollEnds timeout startTime w n := by
  induction polls generalizing w with
  | zero => exact iff_of_false (fun h => by cases h) (by simp)
  | succ polls ih =>
    rw [pollReady_succ_isSome, ih w.polled]
    constructor
    · rintro (h | ⟨n, hn, h⟩)
      · exact ⟨0, by omega, h⟩
      · exact ⟨n + 1, by omega, (pollEnds_polled timeout startTime w n).mp h⟩
    · rintro ⟨n, hn, h⟩
      cases n with
      | zero => exact Or.inl h
      | succ n => exact Or.inr ⟨n, by omega, (pollEnds_polled timeout startTime w n).mpr h⟩

/-! ## Functions that return -/

/-- What comes in from the chip and the clock. -/
def On (replies : Nat → UInt8) (clock : Nat → UInt32) (w : Wire) : Prop :=
  w.replies = replies ∧ w.clock = clock

/-- From any point on a wait ends within the polls: the chip gets ready, or the clock
goes past the timeout. -/
def WaitsEnd (replies : Nat → UInt8) (clock : Nat → UInt32) (polls : Nat) : Prop :=
  ∀ received ticks, ∃ n < polls,
    clock (ticks + 1 + n) - clock ticks > ONE_SECOND ∨
      replies (received + 2 * n + 1) &&& READY_BIT ≠ 0

/-- The function returns and leaves alone what comes in. -/
def Keeps {α : Type} (replies : Nat → UInt8) (clock : Nat → UInt32) (x : SpiM Wire α) : Prop :=
  ∀ w : Wire, w.On replies clock → Returns x w fun _ w' => w'.On replies clock

section Keeps

variable {replies : Nat → UInt8} {clock : Nat → UInt32} {α β : Type}

theorem Keeps.bind {x : SpiM Wire α} {f : α → SpiM Wire β} (hx : Keeps replies clock x)
    (hf : ∀ a, Keeps replies clock (f a)) : Keeps replies clock (x >>= f) :=
  fun w h => Returns.bind (hx w h) fun a w' h' => hf a w' h'

theorem Keeps.pure (a : α) : Keeps replies clock (Pure.pure a : SpiM Wire α) :=
  fun _ h => Returns.pure h

theorem keeps_modify {f : Wire → Wire}
    (hf : ∀ w, (f w).replies = w.replies ∧ (f w).clock = w.clock) :
    Keeps replies clock (modify f : SpiM Wire PUnit) :=
  fun w h => ⟨_, f w, rfl, (hf w).1.trans h.1, (hf w).2.trans h.2⟩

theorem keeps_transfer (b : UInt8) :
    Keeps replies clock (Dataflash.transfer b : SpiM Wire UInt8) := by
  intro w h
  obtain ⟨⟨hreplies, _⟩, hclock, _⟩ := transfer_streams b w
  exact ⟨_, _, rfl, hreplies.trans h.1, hclock.trans h.2⟩

theorem keeps_transferAll (data : List UInt8) :
    Keeps replies clock (data.mapM Dataflash.transfer : SpiM Wire (List UInt8)) :=
  fun _ h => Returns.mapM (fun _ _ (w' : Wire) => w'.On replies clock)
    (fun _ _ w' b hw => keeps_transfer b w' hw) data h

theorem keeps_digitalWriteSS (level : Level) :
    Keeps replies clock (digitalWriteSS level : SpiM Wire Unit) := by
  refine keeps_modify fun w => ?_
  show (writeSS level w).replies = w.replies ∧ (writeSS level w).clock = w.clock
  unfold writeSS
  split <;> exact ⟨rfl, rfl⟩

theorem keeps_chipSelect : Keeps replies clock (chipSelect : SpiM Wire Unit) := by
  refine Keeps.bind (keeps_modify fun w => ⟨rfl, rfl⟩) fun _ => ?_
  refine Keeps.bind (fun w h => ⟨w.ss, w, rfl, h⟩) fun level => ?_
  split_ifs
  · refine Keeps.bind (keeps_digitalWriteSS .HIGH) fun _ => ?_
    exact Keeps.bind (keeps_modify fun w => ⟨rfl, rfl⟩) fun _ => keeps_digitalWriteSS .LOW
  · exact Keeps.bind (keeps_modify fun w => ⟨rfl, rfl⟩) fun _ => keeps_digitalWriteSS .LOW

theorem keeps_chipDeselect : Keeps replies clock (chipDeselect : SpiM Wire Unit) :=
  Keeps.bind (keeps_digitalWriteSS .HIGH) fun _ => keeps_modify fun _ => ⟨rfl, rfl⟩

theorem keeps_strobe : Keeps replies clock (strobe : SpiM Wire Unit) :=
  Keeps.bind (keeps_digitalWriteSS .HIGH) fun _ => keeps_digitalWriteSS .LOW

theorem millis_reads (w : Wire) :
    Returns millis w fun now w' => now = w.clock w.ticks ∧ w' = { w with ticks := w.ticks + 1 } :=
  ⟨_, _, rfl, rfl, rfl⟩

theorem keeps_millis : Keeps replies clock (millis : SpiM Wire UInt32) := by
  intro w h
  refine (millis_reads w).mono fun _ w' hw => ?_
  rw [hw.2]
  exact h

/-- A wait that ends leaves alone what comes in. -/
theorem pollReady_on {w : Wire} (h : w.On replies clock) (timeout startTime : UInt32)
    (polls : Nat) :
    IfReturns (pollReady timeout startTime polls) w fun _ w' => w'.On replies clock := by
  induction polls generalizing w with
  | zero => exact IfReturns.failure
  | succ polls ih =>
    refine IfReturns.bind_returns
      (Keeps.bind (keeps_transfer StatusReg) (fun _ => keeps_transfer 0x00) w h) fun _ w₁ h₁ => ?_
    refine IfReturns.bind_returns (keeps_millis w₁ h₁) fun _ w₂ h₂ => ?_
    split_ifs
    · exact IfReturns.of_returns ⟨_, _, rfl, h₂⟩
    · exact ih h₂
    · exact IfReturns.of_returns (Returns.pure h₂)

theorem keeps_waitForReady {polls : Nat} (hends : WaitsEnd replies clock polls) :
    Keeps replies clock (waitForReady polls ONE_SECOND : SpiM Wire UInt8) := by
  intro w h
  refine Returns.bind (millis_reads w) ?_
  rintro _ _ ⟨rfl, rfl⟩
  have hon : On replies clock { w with ticks := w.ticks + 1 } := h
  refine (pollReady_on hon ONE_SECOND (w.clock w.ticks) polls).returns ?_
  rw [pollReady_isSome_iff]
  obtain ⟨n, hn, hpoll⟩ := hends w.received w.ticks
  rw [← h.1, ← h.2] at hpoll
  exact ⟨n, hn, hpoll⟩

end Keeps

end Wire

end ArduinoProjects.Dataflash
