import ArduinoProjects.Lib.SerialRegister
import ArduinoProjects.RingCoder.Position

/-!
# The ring shows the last pattern

`setShift` remembers the pattern that it sent last and skips a request for the
same one.  The register only has to be written once for the two to agree: from
then on each write keeps them equal, and so does each write that is skipped.

The constructor is where they come together, and it does not write.  It sets
`_currentShift` to `0x0000` and then requests `0x0000`, which is skipped, so the
outputs keep what they held at power-up.  `outputs_eq_iff` says that this is the
only thing that can go wrong.
-/

namespace ArduinoProjects

namespace ShiftRegister

open SerialRegister

/-! ## The register after a transfer -/

/-- A byte goes in bit by bit, highest bit first. -/
theorem shiftOut_stages (reg : ShiftRegister) (value : Nat) :
    (reg.shiftOut value).stages = (reg.stages * 256 + value % 256) % 65536 := by
  have hfold : (reg.shiftOut value).stages =
      (highFirst 8 value).foldl (pulse 16) reg.stages := by
    rw [highFirst, List.foldl_map]
    exact (List.foldl_hom ShiftRegister.stages fun _ _ => rfl).symm
  rw [hfold]
  exact foldl_pulse 16 value reg.stages (by decide)

/-- The two bytes of a pattern fill the register, whatever it held. -/
theorem shiftOut16_stages (reg : ShiftRegister) {data : Nat} (h : data < 65536) :
    (reg.shiftOut16 data).stages = data := by
  have hmsb : (data % 65536 &&& 0xFF00) >>> 8 = data / 256 % 256 := by
    rw [Nat.shiftRight_and_distrib, Nat.mod_eq_of_lt h, Nat.shiftRight_eq_div_pow]
    exact Nat.and_two_pow_sub_one_eq_mod _ 8
  have hlsb : data % 65536 &&& 0x00FF = data % 256 := by
    rw [Nat.mod_eq_of_lt h]
    exact Nat.and_two_pow_sub_one_eq_mod _ 8
  rw [shiftOut16, shiftOut_stages, shiftOut_stages, hmsb, hlsb]
  omega

end ShiftRegister

namespace RingCoder

/-! ## A pattern that is requested -/

/-- The outputs of the register are the pattern that is remembered. -/
structure Shows (rc : RingCoder) : Prop where
  outputs : rc.register.outputs = rc.currentShift
  lt : rc.currentShift < 65536

/-- A request for another pattern than the remembered one makes the two agree
in any case, and a request for the same one leaves them as they are. -/
theorem shows_setShift {rc : RingCoder} {ledOutput : Nat} (h : ledOutput < 65536)
    (hshows : ledOutput = rc.currentShift → Shows rc) : Shows (rc.setShift ledOutput).1 := by
  unfold setShift
  split_ifs with hne
  · exact ⟨ShiftRegister.shiftOut16_stages rc.register h, h⟩
  · exact hshows (not_ne_iff.mp hne)

theorem shows_setShifts {rc : RingCoder} {patterns : List Nat}
    (h : ∀ pattern ∈ patterns, pattern < 65536) (hshows : Shows rc) :
    Shows (rc.setShifts patterns).1 := by
  induction patterns generalizing rc with
  | nil => exact hshows
  | cons ledOutput rest ih =>
    refine ih (fun pattern hp => h pattern (List.mem_cons_of_mem _ hp)) ?_
    exact shows_setShift (h ledOutput List.mem_cons_self) fun _ => hshows

/-- The constructor skips its request, so the outputs stay as they are at
power-up. -/
theorem construct_outputs (register : ShiftRegister) (pushButton : Bool) :
    (construct register pushButton).1.register.outputs = register.outputs ∧
      (construct register pushButton).1.currentShift = 0 :=
  ⟨rfl, rfl⟩

/-! ## The calls that draw -/

/-- The public functions that draw on the ring, with the results of `random` in
them: `LED_COUNT * 4 + extra` in `spin_the_wheel` and one roll for each step in
`random_the_wheel`. -/
inductive DisplayCall where
  | blink
  | blinkLed (led : Fin 16)
  | spin
  | reverseSpin
  | spinTheWheel (extra : Fin 16)
  | randomTheWheel (rolls : Fin 16 → Fin 16)
  | randomTheWheelAtPosition (rolls : Fin 16 → Fin 16)
  | ledRingFiller
  | ledRingFollower

namespace DisplayCall

def apply (rc : RingCoder) : DisplayCall → RingCoder
  | blink => rc.blink.1
  | blinkLed led => (rc.blinkLed led.val).1
  | spin => rc.spin.1
  | reverseSpin => rc.reverseSpin.1
  | spinTheWheel extra => (rc.spinTheWheel (64 + extra.val)).1
  | randomTheWheel rolls => (rc.randomTheWheel ((List.ofFn rolls).map Fin.val)).1
  | randomTheWheelAtPosition rolls =>
    (rc.randomTheWheelAtPosition ((List.ofFn rolls).map Fin.val)).1
  | ledRingFiller => rc.ledRingFiller.1
  | ledRingFollower => rc.ledRingFollower.1

/-- The calls that put back what was on display. -/
def blinks : DisplayCall → Bool
  | blink | blinkLed _ => true
  | _ => false

/-- The last pattern that a call requests. -/
def lastPattern (rc : RingCoder) : DisplayCall → Nat
  | blink | blinkLed _ => rc.currentShift
  | spin | reverseSpin => 0
  | spinTheWheel extra => 1 <<< ((63 + extra.val) % 16)
  | randomTheWheel rolls | randomTheWheelAtPosition rolls => 1 <<< (rolls 15).val
  | ledRingFiller => 2 ^ rc.ledIndex.toNat - 1
  | ledRingFollower => 1 <<< rc.ledIndex.toNat

theorem one_shiftLeft_lt {led : Nat} (h : led < 16) : 1 <<< led < 65536 := by
  rw [Nat.one_shiftLeft]
  exact Nat.pow_lt_pow_right (by decide) h

/-- The patterns of `random_the_wheel`. -/
theorem rolls_eq_concat (rolls : Fin 16 → Fin 16) :
    ((List.ofFn rolls).map Fin.val).map (fun randNumber => 1 <<< randNumber) =
      ((List.ofFn fun i : Fin 15 => rolls i.castSucc).map Fin.val).map
        (fun randNumber => 1 <<< randNumber) ++ [1 <<< (rolls 15).val] := by
  rw [List.ofFn_succ_last, List.map_append, List.map_append]
  rfl

theorem rolls_lt (rolls : Fin 16 → Fin 16) {pattern : Nat}
    (h : pattern ∈ ((List.ofFn rolls).map Fin.val).map (fun randNumber => 1 <<< randNumber)) :
    pattern < 65536 := by
  simp only [List.map_map, List.mem_map] at h
  obtain ⟨randNumber, _, rfl⟩ := h
  exact one_shiftLeft_lt randNumber.isLt

/-- A call is a sequence of requests for patterns of the 16 LEDs. -/
theorem apply_eq_setShifts (rc : RingCoder) (hrange : InRange rc)
    (hlt : rc.currentShift < 65536) (call : DisplayCall) :
    ∃ (rc' : RingCoder) (patterns : List Nat),
      (rc'.register = rc.register ∧ rc'.currentShift = rc.currentShift) ∧
        (∀ pattern ∈ patterns ++ [call.lastPattern rc], pattern < 65536) ∧
        call.apply rc = (rc'.setShifts (patterns ++ [call.lastPattern rc])).1 := by
  have hled := ledIndex_of_inRange hrange
  cases call with
  | blink =>
    refine ⟨rc, [0xFFFF, 0x0000], ⟨rfl, rfl⟩, fun pattern hp => ?_, rfl⟩
    simp only [lastPattern, List.cons_append, List.nil_append, List.mem_cons,
      List.not_mem_nil, or_false] at hp
    omega
  | blinkLed led =>
    refine ⟨rc, [rc.currentShift ||| calculateShiftAt false led.val], ⟨rfl, rfl⟩,
      fun pattern hp => ?_, rfl⟩
    have hbit : calculateShiftAt false (led.val : Int) < 2 ^ 16 := by
      simpa [calculateShiftAt, bitSet] using one_shiftLeft_lt led.isLt
    have hor := Nat.or_lt_two_pow hlt hbit
    simp only [lastPattern, List.cons_append, List.nil_append, List.mem_cons,
      List.not_mem_nil, or_false] at hp
    omega
  | spin =>
    refine ⟨rc, (List.range 16).map (1 <<< ·), ⟨rfl, rfl⟩, ?_, rfl⟩
    show ∀ pattern ∈ (List.range 16).map (1 <<< ·) ++ [0], pattern < 65536
    decide
  | reverseSpin =>
    refine ⟨rc, (List.range 16).map (32768 >>> ·), ⟨rfl, rfl⟩, ?_, rfl⟩
    show ∀ pattern ∈ (List.range 16).map (32768 >>> ·) ++ [0], pattern < 65536
    decide
  | spinTheWheel extra =>
    have hlaps : (List.range (64 + extra.val)).map (fun i => 1 <<< (i % 16)) =
        (List.range (63 + extra.val)).map (fun i => 1 <<< (i % 16)) ++
          [1 <<< ((63 + extra.val) % 16)] := by
      rw [show 64 + extra.val = 63 + extra.val + 1 by omega, List.range_succ, List.map_append]
      rfl
    refine ⟨rc.readEncoder, _, ⟨rfl, rfl⟩, fun pattern hp => ?_,
      congrArg (fun patterns => (rc.readEncoder.setShifts patterns).1) hlaps⟩
    obtain ⟨i, _, rfl⟩ := List.mem_map.mp (hlaps ▸ hp)
    exact one_shiftLeft_lt (Nat.mod_lt i (by decide))
  | randomTheWheel rolls =>
    refine ⟨rc, _, ⟨rfl, rfl⟩, fun pattern hp => ?_,
      congrArg (fun patterns => (rc.setShifts patterns).1) (rolls_eq_concat rolls)⟩
    exact rolls_lt rolls (rolls_eq_concat rolls ▸ hp)
  | randomTheWheelAtPosition rolls =>
    refine ⟨rc.readEncoder, _, ⟨rfl, rfl⟩, fun pattern hp => ?_,
      congrArg (fun patterns => (rc.readEncoder.setShifts patterns).1) (rolls_eq_concat rolls)⟩
    exact rolls_lt rolls (rolls_eq_concat rolls ▸ hp)
  | ledRingFiller =>
    refine ⟨rc, [], ⟨rfl, rfl⟩, fun pattern hp => ?_, ?_⟩
    · obtain rfl := List.mem_singleton.mp hp
      have hpow : 2 ^ rc.ledIndex.toNat < 2 ^ 16 := Nat.pow_lt_pow_right (by decide) (by omega)
      show 2 ^ rc.ledIndex.toNat - 1 < 65536
      omega
    · show (rc.setShift (calculateShiftAt true rc.ledIndex)).1 = _
      rw [calculateShiftAt_true]
      rfl
  | ledRingFollower =>
    refine ⟨rc, [], ⟨rfl, rfl⟩, fun pattern hp => ?_, ?_⟩
    · obtain rfl := List.mem_singleton.mp hp
      exact one_shiftLeft_lt (by omega)
    · show (rc.setShift (0 ||| 1 <<< rc.ledIndex.toNat)).1 = _
      rw [Nat.zero_or]
      rfl

end DisplayCall

/-! ## Every sequence of calls -/

/-- A position of the dial in range, and the hardware count behind it. -/
structure Dial where
  encoderPosition : Int
  range : Int
  enc : Int
  inRange : 0 ≤ encoderPosition ∧ encoderPosition < range

/-- The object when the dial has come to some position. -/
def dialTo (rc : RingCoder) (dial : Dial) : RingCoder :=
  { rc with encoderPosition := dial.encoderPosition, range := dial.range, enc := dial.enc }

/-- A step finds the dial at some position in range and makes one call. -/
def display : Machine RingCoder (Dial × DisplayCall) Unit where
  step rc input := (input.2.apply (rc.dialTo input.1), ())

/-- After the call the outputs are the last pattern that was requested, and a
blink has put back what they showed before. -/
structure ShowsAfter (rc : RingCoder) (input : Dial × DisplayCall) : Prop where
  outputs : (display.next rc input).register.outputs = (display.next rc input).currentShift
  last : (display.next rc input).currentShift = input.2.lastPattern (rc.dialTo input.1)
  blink : input.2.blinks = true →
    (display.next rc input).register.outputs = rc.register.outputs

/-- One call keeps the outputs and the remembered pattern equal. -/
theorem display_step {rc : RingCoder} (h : Shows rc) (input : Dial × DisplayCall) :
    Shows (display.next rc input) ∧ ShowsAfter rc input := by
  obtain ⟨dial, call⟩ := input
  obtain ⟨rc', patterns, ⟨hregister, hshift⟩, hlt, happly⟩ :=
    call.apply_eq_setShifts (rc.dialTo dial) dial.inRange h.lt
  have hshows : Shows rc' := ⟨by rw [hregister, hshift]; exact h.outputs, hshift ▸ h.lt⟩
  have hnext : display.next rc (dial, call) = (rc'.setShifts (patterns ++ [_])).1 := happly
  have hafter : Shows (display.next rc (dial, call)) := hnext ▸ shows_setShifts hlt hshows
  have hlast : (display.next rc (dial, call)).currentShift = call.lastPattern (rc.dialTo dial) := by
    rw [hnext, setShifts_concat_currentShift]
  refine ⟨hafter, hafter.outputs, hlast, fun hblinks => ?_⟩
  rw [hafter.outputs, hlast, h.outputs]
  cases call <;> first | rfl | cases hblinks

/-- The outputs agree with the remembered pattern after the constructor and
after every call, exactly when they are all off at power-up. -/
theorem outputs_eq_iff (register : ShiftRegister) (pushButton : Bool)
    (calls : List (Dial × DisplayCall)) :
    ((construct register pushButton).1.register.outputs =
        (construct register pushButton).1.currentShift ∧
      display.Always ShowsAfter (construct register pushButton).1 calls) ↔
      register.outputs = 0 := by
  obtain ⟨houtputs, hshift⟩ := construct_outputs register pushButton
  rw [houtputs, hshift]
  refine ⟨And.left, fun h => ⟨h, ?_⟩⟩
  have hshows : Shows (construct register pushButton).1 :=
    ⟨by rw [houtputs, hshift, h], by rw [hshift]; decide⟩
  exact Machine.always_of_invariant Shows (fun rc input h => (display_step h input).1)
    (fun rc input h => (display_step h input).2) hshows calls

/-- A register that powers up with one output on keeps it on after the
constructor. -/
theorem construct_outputs_ne :
    (construct ⟨0, 1⟩ false).1.register.outputs ≠ (construct ⟨0, 1⟩ false).1.currentShift := by
  decide

end RingCoder

end ArduinoProjects
