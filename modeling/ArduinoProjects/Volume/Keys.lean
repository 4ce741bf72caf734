import ArduinoProjects.Volume.Basic

/-!
# The volume keys follow the knob

The sketch compares two positions to find the direction of a turn.  The
positions are reduced to the dial of 16, so the comparison is right as long as
the turn stays on the dial.  Past either end the position jumps to the other
end, and the sketch sends the key of the other direction.

`OnDial` ties the hardware count, the position and `lastPos` together.
`tracksKnob_iff` says that the keys follow the knob exactly in the runs that
never turn past an end.
-/

namespace ArduinoProjects.Volume

/-! ## Detents -/

/-- The knob is turned by one detent or rests. -/
def OneDetent (i : Input) : Prop := i.counts = -4 ∨ i.counts = 0 ∨ i.counts = 4

/-- The net number of detents of a run, clockwise. -/
def netDetents (inputs : List Input) : Int := (inputs.map Input.counts).sum / 4

/-- How often a run sends a key. -/
def sentKeys (v : Volume) (inputs : List Input) (key : MediaKey) : Nat :=
  (sketch.trace v inputs).flatten.count (.report (some key))

/-- The iteration sends one key for a detent and none when the knob rests. -/
structure KeyPerDetent (v : Volume) (i : Input) : Prop where
  inc : (sketch.out v i).count (.report (some .volumeInc)) = if i.counts = 4 then 1 else 0
  dec : (sketch.out v i).count (.report (some .volumeDec)) = if i.counts = -4 then 1 else 0

/-- Every detent of a run sends its key, and after every iteration the keys
that were sent are the net number of detents. -/
def TracksKnob (v : Volume) (inputs : List Input) : Prop :=
  sketch.Always KeyPerDetent v inputs ∧
    ∀ done, done <+: inputs →
      (sentKeys v done .volumeInc : Int) - sentKeys v done .volumeDec = netDetents done

/-- The turn ends on the dial, between count 0 and the count of position 15. -/
def StaysOnDial (v : Volume) (i : Input) : Prop :=
  0 ≤ v.ringcoder.enc + i.counts ∧ v.ringcoder.enc + i.counts ≤ 60

instance (v : Volume) (i : Input) : Decidable (StaysOnDial v i) :=
  inferInstanceAs (Decidable (_ ∧ _))

/-! ## One iteration -/

/-- The knob is at detent `d` of the dial, and the sketch knows it. -/
structure OnDial (v : Volume) (d : Int) : Prop where
  range : v.ringcoder.range = 16
  enc : v.ringcoder.enc = 4 * d
  position : v.ringcoder.encoderPosition = d % 16
  lastPos : v.lastPos = d % 16

theorem setup_onDial (register : ShiftRegister) (pushButton : Bool) :
    OnDial (setup register pushButton).1 0 := by
  have hconstruct := RingCoder.construct_sameDial register pushButton
  have hspin := hconstruct.trans (RingCoder.spinReverse_sameDial _ false)
  have hdial := hspin.trans (RingCoder.spinReverse_sameDial _ true)
  exact ⟨hdial.range, hdial.enc, hdial.encoderPosition, rfl⟩

/-- What the iteration reads when the knob comes to detent `e`. -/
theorem readInputs_position {v : Volume} {i : Input} {e : Int} (hrange : v.ringcoder.range = 16)
    (henc : v.ringcoder.enc + i.counts = 4 * e) :
    (v.readInputs i).ringcoder.encoderPosition = e % 16 := by
  show RingCoder.positiveModulo ((v.ringcoder.enc + i.counts).tdiv 4) v.ringcoder.range = _
  rw [henc, hrange, Int.mul_tdiv_cancel_left _ (by decide)]
  exact CInt.floorMod_eq_emod (by decide) e

/-- A turn from detent `d` to detent `e`. -/
theorem OnDial.step {v : Volume} {i : Input} {d e : Int} (h : OnDial v d)
    (hturn : i.counts = 4 * (e - d)) :
    OnDial (sketch.next v i) e ∧
      (sketch.out v i).count (.report (some .volumeInc)) = (if d % 16 < e % 16 then 1 else 0) ∧
      (sketch.out v i).count (.report (some .volumeDec)) =
        (if e % 16 < d % 16 then 1 else 0) := by
  have henc : v.ringcoder.enc + i.counts = 4 * e := by
    rw [h.enc, hturn]
    omega
  have hpos := readInputs_position h.range henc
  have hmoved : (v.readInputs i).ringcoder.moved = decide (e % 16 ≠ d % 16) := by
    rw [← hpos, ← h.position]
    rfl
  have hlast : (v.readInputs i).lastPos = d % 16 := h.lastPos
  have hdial := loop_sameDial v i
  obtain ⟨hinc, hdec⟩ := count_sendMove (v.readInputs i)
  refine ⟨⟨hdial.range.trans h.range, hdial.enc.trans henc, hdial.encoderPosition.trans hpos, ?_⟩,
    ?_, ?_⟩
  · show (v.loop i).1.lastPos = _
    rw [loop_lastPos, hmoved, hpos, h.lastPos]
    simp only [decide_eq_true_eq]
    split_ifs <;> omega
  · refine (count_loop v i (by decide)).trans (hinc.trans ?_)
    simp only [hmoved, hpos, hlast, decide_eq_true_eq]
    split_ifs <;> omega
  · refine (count_loop v i (by decide)).trans (hdec.trans ?_)
    simp only [hmoved, hpos, hlast, decide_eq_true_eq]
    split_ifs <;> omega

theorem OneDetent.exists_detent {i : Input} (h : OneDetent i) (d : Int) :
    ∃ e, i.counts = 4 * (e - d) := by
  rcases h with hcounts | hcounts | hcounts
  · exact ⟨d - 1, by omega⟩
  · exact ⟨d, by omega⟩
  · exact ⟨d + 1, by omega⟩

theorem OnDial.staysOnDial_iff {v : Volume} {i : Input} {d e : Int} (h : OnDial v d)
    (hturn : i.counts = 4 * (e - d)) : StaysOnDial v i ↔ 0 ≤ e ∧ e ≤ 15 := by
  unfold StaysOnDial
  rw [h.enc, hturn]
  omega

/-- On the dial the right keys are sent exactly when the turn stays on it. -/
theorem keyPerDetent_iff {v : Volume} {i : Input} {d : Int} (h : OnDial v d)
    (h0 : 0 ≤ d ∧ d ≤ 15) (hone : OneDetent i) : KeyPerDetent v i ↔ StaysOnDial v i := by
  obtain ⟨e, he⟩ := hone.exists_detent d
  obtain ⟨_, hinc, hdec⟩ := h.step he
  rw [h.staysOnDial_iff he]
  unfold OneDetent at hone
  constructor
  · rintro ⟨hup, hdown⟩
    rw [hinc] at hup
    rw [hdec] at hdown
    split_ifs at hup hdown <;> omega
  · intro hstay
    refine ⟨hinc.trans ?_, hdec.trans ?_⟩
    · split_ifs <;> omega
    · split_ifs <;> omega

/-! ## Runs -/

theorem netDetents_cons {i : Input} (hone : OneDetent i) (inputs : List Input) :
    netDetents (i :: inputs) =
      (if i.counts = 4 then 1 else 0) - (if i.counts = -4 then 1 else 0) + netDetents inputs := by
  unfold OneDetent at hone
  rw [netDetents, netDetents, List.map_cons, List.sum_cons]
  split_ifs <;> omega

/-- The keys of each iteration add up to the net number of detents. -/
theorem sentKeys_eq_netDetents {v : Volume} {inputs : List Input}
    (hone : ∀ i ∈ inputs, OneDetent i) (h : sketch.Always KeyPerDetent v inputs) :
    (sentKeys v inputs .volumeInc : Int) - sentKeys v inputs .volumeDec =
      netDetents inputs := by
  induction inputs generalizing v with
  | nil => rfl
  | cons i inputs ih =>
    have hrest := ih (fun j hj => hone j (List.mem_cons_of_mem _ hj)) h.2
    have hcons (key : MediaKey) : sentKeys v (i :: inputs) key =
        (sketch.out v i).count (.report (some key)) +
          sentKeys (sketch.next v i) inputs key := by
      rw [sentKeys, Machine.trace_cons, List.flatten_cons, List.count_append]
      rfl
    rw [hcons, hcons, h.1.inc, h.1.dec, netDetents_cons (hone i List.mem_cons_self), ← hrest]
    push_cast
    omega

/-- From `setup()`, the keys follow the knob exactly in the runs that never turn
past an end of the dial. -/
theorem tracksKnob_iff (register : ShiftRegister) (pushButton : Bool) (inputs : List Input)
    (hone : ∀ i ∈ inputs, OneDetent i) :
    TracksKnob (setup register pushButton).1 inputs ↔
      sketch.Always StaysOnDial (setup register pushButton).1 inputs := by
  have hkeys : sketch.Always KeyPerDetent (setup register pushButton).1 inputs ↔
      sketch.Always StaysOnDial (setup register pushButton).1 inputs := by
    refine Machine.always_iff_of_guarded (fun v => ∃ d, OnDial v d ∧ 0 ≤ d ∧ d ≤ 15)
      (fun v i hv hi => ?_) (fun v i hv hi hstay => ?_) ⟨0, setup_onDial _ _, by decide⟩
      (Machine.always_iff_forall_mem.mpr hone)
    · obtain ⟨d, hd, h0⟩ := hv
      exact keyPerDetent_iff hd h0 hi
    · obtain ⟨d, hd, h0⟩ := hv
      obtain ⟨e, he⟩ := OneDetent.exists_detent hi d
      exact ⟨e, (hd.step he).1, (hd.staysOnDial_iff he).mp hstay⟩
  refine ⟨fun h => hkeys.mp h.1, fun h => ⟨hkeys.mpr h, fun done hdone => ?_⟩⟩
  obtain ⟨rest, rfl⟩ := hdone
  exact sentKeys_eq_netDetents (fun i hi => hone i (List.mem_append_left _ hi))
    (Machine.always_append.mp (hkeys.mpr h)).1

/-- Three detents clockwise and two back, with the button down once and no turn once. -/
def upAndDown : List Input :=
  [⟨4, false⟩, ⟨4, false⟩, ⟨-4, false⟩, ⟨0, true⟩, ⟨4, false⟩, ⟨-4, false⟩]

theorem tracksKnob_upAndDown : TracksKnob (setup ⟨0, 0⟩ false).1 upAndDown := by
  have hone : ∀ i ∈ upAndDown, OneDetent i := by simp [upAndDown, OneDetent]
  exact (tracksKnob_iff ⟨0, 0⟩ false upAndDown hone).mpr (by decide)

/-- The first detent counter-clockwise sends the key of the other direction. -/
theorem counterclockwise_not_tracksKnob :
    ¬ TracksKnob (setup ⟨0, 0⟩ false).1 [⟨-4, false⟩] := by
  rintro ⟨⟨hfirst, _⟩, _⟩
  exact absurd hfirst.inc (by decide)

end ArduinoProjects.Volume
