import ArduinoProjects.BleRgb.Animations
import ArduinoProjects.Lib.Framing

/-!
# Commands that arrive in packets

`loop` checks for the first byte of a command and then reads up to four more
without a check.  `bleFormat` is the format of the commands, and an iteration
reads a frame of it, with `-1` for what is missing.

`executed_eq_iff_whole` says when the packets do not matter: exactly when no
iteration finds the first byte of a command without the rest of it.
-/

namespace ArduinoProjects.BleRgb

open Framing

/-- The number of argument bytes of each command. -/
def arity (command : UInt8) : Option Nat :=
  if command = 'O'.toUInt8 then some 4
  else if command = 'A'.toUInt8 then some 3
  else if command = 'R'.toUInt8 then some 2
  else if command = 'B'.toUInt8 then some 2
  else if command = 'F'.toUInt8 then some 2
  else if command = 'J'.toUInt8 then some 2
  else if command = 'G'.toUInt8 then some 1
  else none

def bleFormat : Format UInt8 := ⟨arity⟩

/-- What `ble_read` makes of a byte that is there or missing. -/
def value : Option UInt8 → Int
  | none => -1
  | some data => (data.toNat : Int)

theorem value_injective : Function.Injective value := by
  intro a b h
  cases a with
  | none =>
    cases b with
    | none => rfl
    | some y => simp only [value] at h; omega
  | some x =>
    cases b with
    | none => simp only [value] at h; omega
    | some y =>
      simp only [value, Nat.cast_inj] at h
      rw [UInt8.toNat_inj.mp h]

theorem bleRead_eq (rx : List UInt8) : bleRead rx = (value (pop rx).1, (pop rx).2) := by
  cases rx <;> rfl

/-- The first byte of a command and the values of its arguments, in the order
in which they are read. -/
def Command.raw (cc : Compiler) : Command → UInt8 × List Int
  | .setOne i R G B =>
    match cc.argOrder with
    | .indexFirst => ('O'.toUInt8, [i, R, G, B])
    | .colorFirst => ('O'.toUInt8, [R, G, B, i])
  | .setAll R G B => ('A'.toUInt8, [R, G, B])
  | .rotate speed steps => ('R'.toUInt8, [speed, steps])
  | .blink speed count => ('B'.toUInt8, [speed, count])
  | .flash speed count => ('F'.toUInt8, [speed, count])
  | .jump speed count => ('J'.toUInt8, [speed, count])
  | .roulette speed => ('G'.toUInt8, [speed])

theorem Command.raw_injective (cc : Compiler) : Function.Injective (Command.raw cc) := by
  intro c c' h
  cases horder : cc.argOrder <;> cases c <;> cases c' <;>
    simp_all [Command.raw, Char.toUInt8]

/-- A frame with the values that its arguments are read as. -/
def rawFrame (f : Frame bleFormat (Option UInt8)) : UInt8 × List Int :=
  (f.header, f.args.map value)

theorem rawFrame_injective : Function.Injective rawFrame := by
  intro f g h
  rw [rawFrame, rawFrame, Prod.mk.injEq] at h
  exact Frame.ext h.1 (List.map_injective_iff.mpr value_injective h.2)

theorem pure_reads {α : Type} (a : α) (rx : List UInt8) :
    (pure a : StateM (List UInt8) α) rx = (a, rx) := rfl

theorem bind_reads {α β : Type} (x : StateM (List UInt8) α) (f : α → StateM (List UInt8) β)
    (rx : List UInt8) : (x >>= f) rx = f (x rx).1 (x rx).2 := rfl

theorem map_reads {α β : Type} (f : α → β) (x : StateM (List UInt8) α) (rx : List UInt8) :
    (f <$> x) rx = (f (x rx).1, (x rx).2) := rfl

/-- The reads of a command take the elements of a frame. -/
theorem readCommand_of_arity (cc : Compiler) {command : UInt8} {n : Nat}
    (h : arity command = some n) (rx : List UInt8) :
    (readCommand cc command rx).2 = (take n rx).2 ∧
      (readCommand cc command rx).1.map (Command.raw cc) =
        some (command, (take n rx).1.map value) := by
  unfold arity at h
  unfold readCommand
  split_ifs at h with hO hA hR hB hF hJ hG
  all_goals
    cases h
    subst command
  · cases horder : cc.argOrder <;>
      simp [bind_reads, map_reads, readColor, bleRead_eq, take, Command.raw, horder]
  all_goals
    simp [*, bind_reads, map_reads, pure_reads, readColor, bleRead_eq, take, Command.raw]

theorem readCommand_of_arity_none (cc : Compiler) {command : UInt8} (h : arity command = none)
    (rx : List UInt8) : readCommand cc command rx = (none, rx) := by
  unfold arity at h
  unfold readCommand
  split_ifs at h with hO hA hR hB hF hJ hG
  simp [*, pure_reads]

/-- An iteration reads a frame, and the command that it executes is that
frame. -/
theorem receive_eq_read (cc : Compiler) (rx : List UInt8) :
    (receive cc rx).2 = (read bleFormat rx).2 ∧
      (receive cc rx).1.map (Command.raw cc) = (read bleFormat rx).1.map rawFrame := by
  cases rx with
  | nil => exact ⟨rfl, rfl⟩
  | cons command rx =>
    cases harity : arity command with
    | none =>
      have hread : read bleFormat (command :: rx) = (none, rx) := read_of_arity_none harity rx
      rw [hread]
      exact ⟨congrArg Prod.snd (readCommand_of_arity_none cc harity rx),
        congrArg (fun p => p.1.map (Command.raw cc)) (readCommand_of_arity_none cc harity rx)⟩
    | some n =>
      have harity' : bleFormat.arity command = some n := harity
      obtain ⟨f, hread, hheader, hargs⟩ := read_of_arity harity' rx
      obtain ⟨hrest, hcommand⟩ := readCommand_of_arity cc harity rx
      rw [hread]
      refine ⟨hrest, hcommand.trans ?_⟩
      rw [Option.map_some, rawFrame, hheader, hargs]

/-! ## Runs -/

variable {px : PixelStore}

/-- What the receive queue sees of an iteration. -/
def Input.turn (i : Input) : Turn UInt8 := ⟨i.connected, i.received⟩

/-- The queue and the command of an iteration are those of the reader. -/
theorem loop_eq_reader (cc : Compiler) (s : Sketch px) (i : Input) :
    (loop cc s i).1.rx = (reader bleFormat).next s.rx i.turn ∧
      (loop cc s i).2.executed.map (Command.raw cc) =
        ((reader bleFormat).out s.rx i.turn).map rawFrame := by
  obtain ⟨hrest, hcommand⟩ := receive_eq_read cc s.rx
  have hrx : (loop cc s i).1.rx = (nextCommand cc s i).2 ++ i.received := animate_rx cc _ i
  have hexecuted : (loop cc s i).2.executed = (nextCommand cc s i).1 := rfl
  rw [hrx, hexecuted]
  cases hconnected : i.connected with
  | false => simp [nextCommand, hconnected, Machine.next, Machine.out, reader, Input.turn]
  | true =>
    simp [nextCommand, hconnected, Machine.next, Machine.out, reader, Input.turn, hrest,
      hcommand]

theorem next_rx (cc : Compiler) (s : Sketch px) (i : Input) :
    ((sketch px cc).next s i).rx = (reader bleFormat).next s.rx i.turn :=
  (loop_eq_reader cc s i).1

/-- The commands that a run executes, with their arguments. -/
def executed (cc : Compiler) (s : Sketch px) (inputs : List Input) : List Command :=
  ((sketch px cc).trace s inputs).filterMap Output.executed

theorem executed_cons (cc : Compiler) (s : Sketch px) (i : Input) (inputs : List Input) :
    executed cc s (i :: inputs) =
      (nextCommand cc s i).1.toList ++ executed cc ((sketch px cc).next s i) inputs := by
  have hout : ((sketch px cc).out s i).executed = (nextCommand cc s i).1 := rfl
  cases h : (nextCommand cc s i).1 <;> simp [executed, hout, h]

theorem executed_raw (cc : Compiler) (s : Sketch px) (inputs : List Input) :
    (executed cc s inputs).map (Command.raw cc) =
      (received bleFormat s.rx (inputs.map Input.turn)).map rawFrame := by
  induction inputs generalizing s with
  | nil => rfl
  | cons i inputs ih =>
    have hout : (nextCommand cc s i).1.map (Command.raw cc) =
        ((reader bleFormat).out s.rx i.turn).map rawFrame := (loop_eq_reader cc s i).2
    have hrest := ih ((sketch px cc).next s i)
    rw [executed_cons, List.map_cons, received_cons, List.map_append, List.map_append, hrest,
      next_rx, ← Option.toList_map, ← Option.toList_map, hout]

/-! ## Packets -/

/-- A run that gets some complete commands over the air, in packets of any
size, and has read them all at its end. -/
structure Delivery (px : PixelStore) (cc : Compiler) (commands : List (Frame bleFormat UInt8))
    where
  start : Sketch px
  inputs : List Input
  empty : start.rx = []
  arrives : inputs.flatMap Input.received = commands.flatMap Frame.encode
  consumed : ((sketch px cc).run start inputs).rx = []

namespace Delivery

variable {cc : Compiler} {commands : List (Frame bleFormat UInt8)}

/-- The commands that the run executes. -/
def executed (r : Delivery px cc commands) : List Command :=
  BleRgb.executed cc r.start r.inputs

/-- Each iteration that is connected and finds a byte finds the rest of its
command as well. -/
def Whole (r : Delivery px cc commands) : Prop :=
  (sketch px cc).Always (fun s i => i.connected = true → ∀ command rest,
    s.rx = command :: rest → ∀ n, arity command = some n → n ≤ rest.length) r.start r.inputs

theorem whole_iff_reader (r : Delivery px cc commands) :
    r.Whole ↔ (reader bleFormat).Always (Framing.Whole bleFormat) [] (r.inputs.map Input.turn) := by
  rw [← r.empty]
  exact Machine.always_part (P := Framing.Whole bleFormat) Sketch.rx Input.turn (next_rx cc)

/-- The run executes what was sent exactly when it is whole. -/
theorem received_eq_iff (r : Delivery px cc commands) :
    received bleFormat [] (r.inputs.map Input.turn) = commands.map Frame.full ↔ r.Whole := by
  rw [whole_iff_reader]
  refine frames_eq_iff ?_ ?_
  · rw [List.nil_append, ← r.arrives]
    simp [stream, List.flatMap_map, Input.turn]
  · have hrx := Machine.run_part Sketch.rx Input.turn (next_rx cc) r.start r.inputs
    rw [r.consumed, r.empty] at hrx
    exact hrx.symm

/-- Against a run in which every iteration finds whole commands, another run of
the same commands executes the same exactly when its iterations find whole
commands too. -/
theorem executed_eq_iff_whole (r r' : Delivery px cc commands) (h : r'.Whole) :
    r.executed = r'.executed ↔ r.Whole := by
  have hr := executed_raw cc r.start r.inputs
  have hr' := executed_raw cc r'.start r'.inputs
  rw [r.empty] at hr
  rw [r'.empty, (received_eq_iff r').mpr h] at hr'
  rw [← received_eq_iff, ← (List.map_injective_iff.mpr (Command.raw_injective cc)).eq_iff,
    ← (List.map_injective_iff.mpr rawFrame_injective).eq_iff, ← hr, ← hr']
  rfl

end Delivery

/-! ## A command that is cut -/

/-- The queue is empty or begins with a whole command. -/
def beginsWhole : List UInt8 → Bool
  | [] => true
  | command :: rest => (arity command).all fun n => n ≤ rest.length

theorem beginsWhole_iff (rx : List UInt8) :
    beginsWhole rx = true ↔ ∀ command rest, rx = command :: rest →
      ∀ n, arity command = some n → n ≤ rest.length := by
  cases rx with
  | nil => simp [beginsWhole]
  | cons command rest => cases h : arity command <;> simp [beginsWhole, h]

theorem Delivery.whole_iff_beginsWhole {cc : Compiler} {commands : List (Frame bleFormat UInt8)}
    (r : Delivery px cc commands) :
    r.Whole ↔ (sketch px cc).Always (fun s i => i.connected = true → beginsWhole s.rx = true)
      r.start r.inputs :=
  Machine.always_congr fun s _ => imp_congr_right fun _ => (beginsWhole_iff s.rx).symm

/-- `R` with speed 5 and 3 steps. -/
def rotateFrame : Frame bleFormat UInt8 := ⟨'R'.toUInt8, [5, 3], by decide⟩

/-- `B` with speed 2 and count 4. -/
def blinkFrame : Frame bleFormat UInt8 := ⟨'B'.toUInt8, [2, 4], by decide⟩

/-- An iteration while connected, early enough for no animation to be due. -/
def receiving (received : List UInt8) : Input := ⟨true, received, 0, 0, 0, 0⟩

/-- The command in one packet. -/
def onePacket : Delivery ledStore ⟨.indexFirst, id⟩ [rotateFrame] where
  start := (setup ledStore).1
  inputs := [receiving ['R'.toUInt8, 5, 3], receiving []]
  empty := rfl
  arrives := rfl
  consumed := by decide

/-- The command cut after its first byte. -/
def twoPackets : Delivery ledStore ⟨.indexFirst, id⟩ [rotateFrame] where
  start := (setup ledStore).1
  inputs := [receiving ['R'.toUInt8], receiving [5, 3], receiving [], receiving []]
  empty := rfl
  arrives := rfl
  consumed := by decide

/-- Two commands in one packet. -/
def bothCommands : Delivery ledStore ⟨.indexFirst, id⟩ [rotateFrame, blinkFrame] where
  start := (setup ledStore).1
  inputs := [receiving ['R'.toUInt8, 5, 3, 'B'.toUInt8, 2, 4], receiving [], receiving []]
  empty := rfl
  arrives := rfl
  consumed := by decide

/-- The two commands cut between them. -/
def cutBetween : Delivery ledStore ⟨.indexFirst, id⟩ [rotateFrame, blinkFrame] where
  start := (setup ledStore).1
  inputs := [receiving ['R'.toUInt8, 5, 3], receiving ['B'.toUInt8, 2, 4], receiving []]
  empty := rfl
  arrives := rfl
  consumed := by decide

/-- A cut within a command breaks it, and a cut between two commands does not. -/
theorem executed_twoPackets_of_whole :
    (twoPackets.executed = onePacket.executed ↔ twoPackets.Whole) ∧
      cutBetween.executed = bothCommands.executed := by
  have hone : onePacket.Whole := onePacket.whole_iff_beginsWhole.mpr (by decide)
  have hboth : bothCommands.Whole := bothCommands.whole_iff_beginsWhole.mpr (by decide)
  have hcut : cutBetween.Whole := cutBetween.whole_iff_beginsWhole.mpr (by decide)
  exact ⟨Delivery.executed_eq_iff_whole twoPackets onePacket hone,
    (Delivery.executed_eq_iff_whole cutBetween bothCommands hboth).mpr hcut⟩

/-- The cut command executes as another one. -/
theorem executed_twoPackets_ne : twoPackets.executed ≠ onePacket.executed := by
  decide

end ArduinoProjects.BleRgb
