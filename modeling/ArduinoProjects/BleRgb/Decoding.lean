import ArduinoProjects.BleRgb.Commands

/-!
# Commands that are queued whole

A command is a letter and some argument bytes.  `encode` is a command on the
wire, and `command` is what its bytes mean: the index of a Set One comes before
its colour.

The sketch reads the arguments of a Set One inside the arguments of one call,
`setOne(ble_read(), readColor())`, and C++ leaves open which comes first.  With
either order the iterations stay aligned with the commands, as `executed_queued`
says.  With the colour first a Set One takes its four bytes in another order,
and `decodes_iff` says when that does not matter.
-/

namespace ArduinoProjects.BleRgb

open Framing

variable {px : PixelStore}

/-! ## Commands on the wire -/

/-- A command with its argument bytes. -/
inductive WireCommand where
  | setOne (i r g b : UInt8)
  | setAll (r g b : UInt8)
  | rotate (speed steps : UInt8)
  | blink (speed count : UInt8)
  | flash (speed count : UInt8)
  | jump (speed count : UInt8)
  | roulette (speed : UInt8)
  deriving DecidableEq, Repr

namespace WireCommand

def encode : WireCommand → List UInt8
  | setOne i r g b => ['O'.toUInt8, i, r, g, b]
  | setAll r g b => ['A'.toUInt8, r, g, b]
  | rotate speed steps => ['R'.toUInt8, speed, steps]
  | blink speed count => ['B'.toUInt8, speed, count]
  | flash speed count => ['F'.toUInt8, speed, count]
  | jump speed count => ['J'.toUInt8, speed, count]
  | roulette speed => ['G'.toUInt8, speed]

/-- What the bytes of a command mean. -/
def command : WireCommand → Command
  | setOne i r g b => .setOne i.toNat r.toNat g.toNat b.toNat
  | setAll r g b => .setAll r.toNat g.toNat b.toNat
  | rotate speed steps => .rotate speed.toNat steps.toNat
  | blink speed count => .blink speed.toNat count.toNat
  | flash speed count => .flash speed.toNat count.toNat
  | jump speed count => .jump speed.toNat count.toNat
  | roulette speed => .roulette speed.toNat

/-- What a command draws: a Set One sets the pixel of its index, if there is
one, and a Set All sets every pixel. -/
def draw (ring : Ring px) : WireCommand → Ring px
  | setOne i r g b => fun p => if p.val = i.toNat then px.write (Color r g b) else ring p
  | setAll r g b => fun _ => px.write (Color r g b)
  | _ => ring

/-- The four arguments of a Set One are the same byte. -/
def Uniform : WireCommand → Prop
  | setOne i r g b => i = r ∧ r = g ∧ g = b
  | _ => True

/-- What the sketch makes of the bytes of a command. -/
def decoded (cc : Compiler) : WireCommand → Command
  | setOne i r g b =>
    match cc.argOrder with
    | .indexFirst => .setOne i.toNat r.toNat g.toNat b.toNat
    | .colorFirst => .setOne b.toNat i.toNat r.toNat g.toNat
  | c => c.command

end WireCommand

/-! ## One command -/

theorem receive_encode (cc : Compiler) (c : WireCommand) (rest : List UInt8) :
    receive cc (c.encode ++ rest) = (some (c.decoded cc), rest) := by
  cases c with
  | setOne i r g b =>
    cases horder : cc.argOrder <;>
      simp [WireCommand.encode, receive, readCommand, horder, bind_reads, map_reads, readColor,
        bleRead_eq, pop, value, WireCommand.decoded]
  | _ =>
    simp [WireCommand.encode, receive, readCommand, bind_reads, map_reads, pure_reads, readColor,
      bleRead_eq, pop, value, WireCommand.decoded, WireCommand.command, Char.toUInt8]

/-- The bytes mean what the sketch makes of them, unless the colour is read
first and the bytes differ. -/
theorem decoded_eq_command_iff (cc : Compiler) (c : WireCommand) :
    c.decoded cc = c.command ↔ cc.argOrder = .indexFirst ∨ c.Uniform := by
  cases c with
  | setOne i r g b =>
    cases horder : cc.argOrder with
    | indexFirst => simp [WireCommand.decoded, WireCommand.command, horder]
    | colorFirst =>
      simp only [WireCommand.decoded, WireCommand.command, WireCommand.Uniform, horder,
        Command.setOne.injEq, Nat.cast_inj, UInt8.toNat_inj, reduceCtorEq, false_or]
      constructor
      · rintro ⟨rfl, rfl, rfl, -⟩
        exact ⟨rfl, rfl, rfl⟩
      · rintro ⟨rfl, rfl, rfl⟩
        exact ⟨rfl, rfl, rfl, rfl⟩
  | _ => simp [WireCommand.decoded, WireCommand.Uniform]

/-! ## Drawing -/

/-- An index that is a byte sets its pixel, or none. -/
theorem setOne_byte (ring : Ring px) (i : UInt8) (c : UInt32) :
    BleRgb.setOne ring i.toNat c = fun p => if p.val = i.toNat then px.write c else ring p := by
  funext p
  by_cases hi : i.toNat < LED_COUNT
  · rw [setOne_apply ring ⟨i.toNat, hi⟩ p c]
    simp only [Fin.ext_iff]
  · have hbyte : i.toNat < 256 := i.toNat_lt
    have hmod : ((i.toNat : Int) % 2 ^ 16).toNat = i.toNat := by omega
    have hindex : (UInt16.ofInt (i.toNat : Int)).toNat = i.toNat := by
      rw [UInt16.ofInt, hmod, UInt16.toNat_ofNat']
      omega
    have hp : p.val ≠ i.toNat := by
      have := p.isLt
      omega
    rw [BleRgb.setOne, setPixelColor, dif_neg (by rw [hindex]; exact hi), if_neg hp]

/-- A command draws what it means. -/
theorem execute_ring (s : Sketch px) (c : WireCommand) :
    (c.command.execute s).ring = c.draw s.ring := by
  cases c with
  | setOne i r g b =>
    show BleRgb.setOne s.ring i.toNat
      (Color (.ofInt r.toNat) (.ofInt g.toNat) (.ofInt b.toNat)) = _
    rw [ofInt_byte, ofInt_byte, ofInt_byte, setOne_byte]
    rfl
  | setAll r g b =>
    show BleRgb.setAll s.ring (Color (.ofInt r.toNat) (.ofInt g.toNat) (.ofInt b.toNat)) = _
    rw [ofInt_byte, ofInt_byte, ofInt_byte]
    exact funext fun p => setAll_apply s.ring _ p
  | _ => rfl

/-- An iteration that executes a command draws what it means. -/
theorem commanded_ring {cc : Compiler} {s : Sketch px} {i : Input} {c : WireCommand}
    (h : (nextCommand cc s i).1 = some c.command) :
    (commanded cc s i).ring = c.draw s.ring := by
  rw [← execute_ring]
  unfold commanded
  dsimp only
  rw [h]
  rfl

/-! ## Runs -/

/-- The number of iterations that look for a command. -/
def connections (inputs : List Input) : Nat := inputs.countP Input.connected

/-- With any order of evaluation, each iteration executes the next command as
the sketch reads it, and leaves the rest. -/
theorem executed_queued (cc : Compiler) {s : Sketch px} {cs : List WireCommand}
    {later : List UInt8} {inputs : List Input}
    (hqueued : s.rx = cs.flatMap WireCommand.encode ++ later)
    (hle : connections inputs ≤ cs.length) :
    executed cc s inputs = (cs.take (connections inputs)).map (WireCommand.decoded cc) ∧
      ((sketch px cc).run s inputs).rx =
        (cs.drop (connections inputs)).flatMap WireCommand.encode ++
          (later ++ inputs.flatMap Input.received) := by
  induction inputs generalizing s cs later with
  | nil => exact ⟨rfl, by simpa [connections] using hqueued⟩
  | cons i inputs ih =>
    have hnext : ((sketch px cc).next s i).rx = (nextCommand cc s i).2 ++ i.received :=
      animate_rx cc _ i
    rw [executed_cons, Machine.run_cons, List.flatMap_cons, ← List.append_assoc later]
    cases hconnected : i.connected with
    | false =>
      have hcommand : nextCommand cc s i = (none, s.rx) := by simp [nextCommand, hconnected]
      have hcount : connections (i :: inputs) = connections inputs := by
        simp [connections, hconnected]
      rw [hcommand, hqueued, List.append_assoc] at hnext
      rw [hcount] at hle ⊢
      rw [hcommand]
      exact ih hnext hle
    | true =>
      have hcount : connections (i :: inputs) = connections inputs + 1 := by
        simp [connections, hconnected]
      rw [hcount] at hle ⊢
      cases cs with
      | nil => cases hle
      | cons c cs =>
        rw [List.flatMap_cons, List.append_assoc] at hqueued
        have hcommand : nextCommand cc s i =
            (some (c.decoded cc), cs.flatMap WireCommand.encode ++ later) := by
          rw [nextCommand, if_pos hconnected, hqueued, receive_encode]
        rw [hcommand, List.append_assoc] at hnext
        obtain ⟨hexecuted, hrest⟩ := ih hnext (Nat.le_of_succ_le_succ hle)
        rw [hcommand, hexecuted]
        exact ⟨rfl, hrest⟩

/-- The iterations of a run execute the first commands as they are meant, draw
what they mean and leave the others queued. -/
structure Decodes (cc : Compiler) (s : Sketch px) (cs : List WireCommand) (later : List UInt8)
    (inputs : List Input) : Prop where
  executed : executed cc s inputs = (cs.take (connections inputs)).map WireCommand.command
  drawn : (sketch px cc).Always (fun s i => ∀ c : WireCommand,
    ((sketch px cc).out s i).executed = some c.command →
      (commanded cc s i).ring = c.draw s.ring) s inputs
  queued : ((sketch px cc).run s inputs).rx =
    (cs.drop (connections inputs)).flatMap WireCommand.encode ++
      (later ++ inputs.flatMap Input.received)

/-- Queued commands are decoded as they are meant exactly when the index of a
Set One is read first, or the bytes of each Set One are the same. -/
theorem decodes_iff (cc : Compiler) (s : Sketch px) (cs : List WireCommand)
    (later : List UInt8) (inputs : List Input)
    (hqueued : s.rx = cs.flatMap WireCommand.encode ++ later)
    (hle : connections inputs ≤ cs.length) :
    Decodes cc s cs later inputs ↔
      cc.argOrder = .indexFirst ∨ ∀ c ∈ cs.take (connections inputs), c.Uniform := by
  have hrun := executed_queued cc hqueued hle
  have hdecoded : (cs.take (connections inputs)).map (WireCommand.decoded cc) =
      (cs.take (connections inputs)).map WireCommand.command ↔
        cc.argOrder = .indexFirst ∨ ∀ c ∈ cs.take (connections inputs), c.Uniform := by
    rw [List.map_inj_left]
    simp only [decoded_eq_command_iff]
    exact ⟨fun h => or_iff_not_imp_left.mpr fun hfirst c hc => (h c hc).resolve_left hfirst,
      fun h c hc => h.imp_right fun huniform => huniform c hc⟩
  constructor
  · intro h
    rw [← hdecoded, ← hrun.1]
    exact h.executed
  · intro h
    exact ⟨hrun.1.trans (hdecoded.mpr h),
      Machine.always_of_forall fun _ _ _ hc => commanded_ring hc, hrun.2⟩

/-- Four commands.  The four bytes of the first Set One are the same. -/
def someCommands : List WireCommand :=
  [.setAll 1 2 3, .setOne 7 7 7 7, .rotate 5 3, .setOne 1 2 3 4]

/-- The commands and the beginning of a fifth one are queued. -/
def queuedSome : Sketch ledStore :=
  { (setup ledStore).1 with rx := someCommands.flatMap WireCommand.encode ++ ['A'.toUInt8] }

/-- With the colour first the three commands that are executed are right, as the last
Set One waits. -/
theorem queuedSome_decodes :
    Decodes ⟨.colorFirst, id⟩ queuedSome someCommands ['A'.toUInt8]
      [receiving [], receiving [4], ⟨false, [], 0, 0, 0, 0⟩, receiving []] := by
  apply (decodes_iff ⟨.colorFirst, id⟩ queuedSome someCommands ['A'.toUInt8] _ rfl (by decide)).mpr
  right
  simp [someCommands, connections, receiving, WireCommand.Uniform]

/-- A Set One of pixel 1 that is queued. -/
def queuedOne : Sketch ledStore :=
  { (setup ledStore).1 with rx := WireCommand.encode (.setOne 1 2 3 4) }

/-- With the colour first it sets pixel 4. -/
theorem queuedOne_not_decodes :
    ¬ Decodes ⟨.colorFirst, id⟩ queuedOne [.setOne 1 2 3 4] [] [receiving []] := by
  intro h
  exact absurd h.executed (by decide)

end ArduinoProjects.BleRgb
