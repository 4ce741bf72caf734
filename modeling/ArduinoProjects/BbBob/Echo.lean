import ArduinoProjects.BbBob.Basic

/-!
# What is said again

`readBytes` writes no terminator behind a message, and `inputBuffer` is never cleared.
A message is therefore read back up to the first zero that no earlier message has
overwritten.  The array starts out as zeros, and its front grows with the longest
message so far: `CString.Padded` is the invariant.

A message that is shorter than an earlier one is said with the end of that one behind
it, and a message that fills the array has no zero behind it at all.  `echoes_iff` says
that nothing else goes wrong.
-/

namespace ArduinoProjects.BbBob

/-- The messages of a run. -/
def messages (inputs : List Input) : List (List UInt8) :=
  inputs.filterMap fun i => i.received.map Subtype.val

/-- A message has at least one byte, and no byte is zero. -/
def IsMessage (data : List UInt8) : Prop := 0 < data.length ∧ 0 ∉ data

/-- The bytes that are said again in a line. -/
def Output.echoed : Output → Option (Option (List UInt8))
  | .printlnString _ bytes => some bytes
  | _ => none

/-- The iteration says again what it has received, and nothing else. -/
def EchoesExactly (c : BbBob) (i : Input) : Prop :=
  (sketch.out c i).filterMap Output.echoed = i.received.toList.map fun data => some data.val

/-- The string that the iteration makes of the array ends inside of it. -/
def EndsInside (c : BbBob) (i : Input) : Prop :=
  none ∉ (sketch.out c i).filterMap Output.echoed

/-- The first `used` bytes of the array have been written to, and the others are
zeros. -/
def Used (used : Nat) (c : BbBob) : Prop :=
  CString.Padded 0 MAX_SERIAL_BYTES used c.inputBuffer.val

/-! ## One iteration -/

theorem echoed_serialNumberExample (serialNumber : Answer) :
    (serialNumberExample serialNumber).filterMap Output.echoed = [] := by
  unfold serialNumberExample
  split_ifs <;> rfl

/-- The array after the serial port has been read. -/
theorem readSerial_inputBuffer (c : BbBob)
    (received : Option { data : List UInt8 // data.length ≤ MAX_SERIAL_BYTES }) :
    (c.readSerial received).1.inputBuffer.val =
      match received with
      | none => c.inputBuffer.val
      | some data => CString.overwrite c.inputBuffer.val data.val := by
  cases received with
  | none => rfl
  | some data =>
    unfold readSerial
    dsimp only
    split_ifs <;> rfl

/-- A message is said again as the string that the array holds with it. -/
theorem readSerial_echoed (c : BbBob)
    {received : Option { data : List UInt8 // data.length ≤ MAX_SERIAL_BYTES }}
    (hkind : ∀ data ∈ received, IsMessage data.val) :
    (c.readSerial received).2.filterMap Output.echoed =
      received.toList.map fun data =>
        CString.text 0 (CString.overwrite c.inputBuffer.val data.val) := by
  cases received with
  | none => rfl
  | some data =>
    have hread : (c.readBytes data).bytesRead > 0 := Int.natCast_pos.mpr (hkind data rfl).1
    unfold readSerial
    dsimp only
    rw [if_pos hread]
    rfl

/-- The rest of an iteration says nothing again. -/
theorem out_echoed (c : BbBob) {i : Input} (hkind : ∀ data ∈ i.received, IsMessage data.val) :
    (sketch.out c i).filterMap Output.echoed =
      i.received.toList.map fun data =>
        CString.text 0 (CString.overwrite c.inputBuffer.val data.val) := by
  rw [← readSerial_echoed { c with button := (c.button.update i.button).1 } hkind]
  show (c.loop i).2.filterMap Output.echoed = _
  unfold loop
  dsimp only
  split_ifs
  · rw [List.filterMap_append]
    exact List.append_nil _
  · simp only [List.filterMap_append, echoed_serialNumberExample]
    simp [Output.echoed]
  · rw [List.filterMap_append]
    exact List.append_nil _

theorem next_inputBuffer (c : BbBob) (i : Input) :
    (sketch.next c i).inputBuffer.val =
      match i.received with
      | none => c.inputBuffer.val
      | some data => CString.overwrite c.inputBuffer.val data.val := by
  rw [← readSerial_inputBuffer { c with button := (c.button.update i.button).1 }]
  show (c.loop i).1.inputBuffer.val = _
  unfold loop
  dsimp only
  split_ifs <;> rfl

/-- A message writes to the front of the array. -/
theorem used_next {used : Nat} {c : BbBob} (h : Used used c) {i : Input}
    (hkind : ∀ data ∈ i.received, IsMessage data.val) :
    Used (match i.received with
      | none => used
      | some data => max used data.val.length) (sketch.next c i) := by
  unfold Used
  rw [next_inputBuffer]
  cases hreceived : i.received with
  | none => exact h
  | some data => exact CString.Padded.overwrite h (hkind data hreceived).2 data.property

/-- A message is said again exactly when it covers what earlier messages have left and
does not fill the array. -/
theorem echoesExactly_iff {used : Nat} {c : BbBob} (h : Used used c) {i : Input}
    (hkind : ∀ data ∈ i.received, IsMessage data.val) :
    EchoesExactly c i ↔
      ∀ data ∈ i.received, used ≤ data.val.length ∧ data.val.length < MAX_SERIAL_BYTES := by
  rw [EchoesExactly, out_echoed c hkind]
  cases hreceived : i.received with
  | none => simp
  | some data =>
    have hfound := CString.text_overwrite_eq_iff c.inputBuffer.val (hkind data hreceived).2
    rw [h.getElem?_eq_nul_iff] at hfound
    simpa using hfound

/-- The string ends inside of the array exactly when a zero is left. -/
theorem endsInside_iff {used : Nat} {c : BbBob} (h : Used used c) {i : Input}
    (hkind : ∀ data ∈ i.received, IsMessage data.val) :
    EndsInside c i ↔
      ∀ data ∈ i.received, used < MAX_SERIAL_BYTES ∧ data.val.length < MAX_SERIAL_BYTES := by
  rw [EndsInside, out_echoed c hkind]
  cases hreceived : i.received with
  | none => simp
  | some data =>
    have hpadded := CString.Padded.overwrite h (hkind data hreceived).2 data.property
    have hends : CString.text 0 (CString.overwrite c.inputBuffer.val data.val) ≠ none ↔
        max used data.val.length < MAX_SERIAL_BYTES := by
      rw [ne_eq, CString.text_eq_none_iff, not_not, hpadded.nul_mem_iff]
    rw [max_lt_iff] at hends
    simpa [eq_comm] using hends

/-! ## Every run -/

/-- Every message of the run is one. -/
def AllMessages (inputs : List Input) : Prop :=
  ∀ i ∈ inputs, ∀ data ∈ i.received, IsMessage data.val

theorem messages_cons (i : Input) (inputs : List Input) :
    messages (i :: inputs) = (i.received.map Subtype.val).toList ++ messages inputs := by
  rw [messages, List.filterMap_cons]
  cases i.received with
  | none => rfl
  | some data => rfl

/-- From an array of which some bytes are used, every message is said again exactly when
none is shorter than those, none is shorter than one before it, and none fills the
array. -/
theorem always_echoesExactly_iff {used : Nat} {c : BbBob} (h : Used used c)
    {inputs : List Input} (hkind : AllMessages inputs) :
    sketch.Always EchoesExactly c inputs ↔
      (∀ m ∈ messages inputs, used ≤ m.length ∧ m.length < MAX_SERIAL_BYTES) ∧
        (messages inputs).Pairwise fun m m' => m.length ≤ m'.length := by
  induction inputs generalizing used c with
  | nil => simp [Machine.Always, messages]
  | cons i inputs ih =>
    have hi : ∀ data ∈ i.received, IsMessage data.val := hkind i List.mem_cons_self
    have hrest := ih (used_next h hi) fun j hj => hkind j (List.mem_cons_of_mem i hj)
    rw [Machine.Always, echoesExactly_iff h hi, hrest, messages_cons]
    cases hreceived : i.received with
    | none => simp
    | some data =>
      simp only [Option.mem_some_iff, forall_eq', Option.map_some, Option.toList_some,
        List.singleton_append, List.forall_mem_cons, List.pairwise_cons]
      constructor
      · rintro ⟨⟨hused, hlt⟩, hall, hpair⟩
        refine ⟨⟨⟨hused, hlt⟩, fun m hm => ?_⟩, fun m hm => ?_, hpair⟩
        · have hm := hall m hm
          omega
        · have hm := hall m hm
          omega
      · rintro ⟨⟨⟨hused, hlt⟩, hall⟩, hfirst, hpair⟩
        refine ⟨⟨hused, hlt⟩, fun m hm => ?_, hpair⟩
        have hlen := hall m hm
        have hle := hfirst m hm
        omega

/-- From an array that is not full, every string ends inside of the array exactly when
no message fills it. -/
theorem always_endsInside_iff {used : Nat} (hused : used < MAX_SERIAL_BYTES) {c : BbBob}
    (h : Used used c) {inputs : List Input} (hkind : AllMessages inputs) :
    sketch.Always EndsInside c inputs ↔
      ∀ m ∈ messages inputs, m.length < MAX_SERIAL_BYTES := by
  induction inputs generalizing used c with
  | nil => simp [Machine.Always, messages]
  | cons i inputs ih =>
    have hi : ∀ data ∈ i.received, IsMessage data.val := hkind i List.mem_cons_self
    have hj : AllMessages inputs := fun j hj => hkind j (List.mem_cons_of_mem i hj)
    have hnext := used_next h hi
    rw [Machine.Always, endsInside_iff h hi, messages_cons]
    cases hreceived : i.received with
    | none =>
      rw [hreceived] at hnext
      have hrest := ih hused hnext hj
      simpa using hrest
    | some data =>
      rw [hreceived] at hnext
      simp only [Option.mem_some_iff, forall_eq', Option.map_some, Option.toList_some,
        List.singleton_append, List.forall_mem_cons]
      constructor
      · rintro ⟨⟨_, hlt⟩, hall⟩
        exact ⟨hlt, (ih (max_lt hused hlt) hnext hj).mp hall⟩
      · rintro ⟨hlt, hall⟩
        exact ⟨⟨hused, hlt⟩, (ih (max_lt hused hlt) hnext hj).mpr hall⟩

theorem setup_used (button : Bounce.Reading) (wakeup : Answer) : Used 0 (setup button wakeup).1 :=
  CString.padded_replicate MAX_SERIAL_BYTES

/-- From power-up every message is said again exactly when the lengths never go down and
no message fills the array, and every string ends inside of the array exactly when no
message fills it. -/
theorem echoes_iff (button : Bounce.Reading) (wakeup : Answer) (inputs : List Input)
    (hkind : AllMessages inputs) :
    (sketch.Always EchoesExactly (setup button wakeup).1 inputs ↔
      ((messages inputs).Pairwise fun m m' => m.length ≤ m'.length) ∧
        ∀ m ∈ messages inputs, m.length < MAX_SERIAL_BYTES) ∧
    (sketch.Always EndsInside (setup button wakeup).1 inputs ↔
      ∀ m ∈ messages inputs, m.length < MAX_SERIAL_BYTES) := by
  have hused := setup_used button wakeup
  refine ⟨?_, always_endsInside_iff (by decide) hused hkind⟩
  rw [always_echoesExactly_iff hused hkind, and_comm]
  simp

/-- An iteration that hears a message while the button is up. -/
def hears (data : List UInt8) (h : data.length ≤ MAX_SERIAL_BYTES) : Input :=
  { button := ⟨true, 0, 0⟩, received := some ⟨data, h⟩, pushedAt := (0, 0), wakeup := 0,
    serialNumber := ⟨0, []⟩, brgw := (0, 0, 0, 0) }

theorem AllMessages.hears_cons {data : List UInt8} {h : data.length ≤ MAX_SERIAL_BYTES}
    {inputs : List Input} (hmessage : IsMessage data) (hrest : AllMessages inputs) :
    AllMessages (hears data h :: inputs) := by
  intro i hi received hreceived
  cases hi with
  | head =>
    cases hreceived
    exact hmessage
  | tail _ hi => exact hrest i hi received hreceived

/-- Two messages, the second one longer than the first. -/
theorem echoes_longer :
    sketch.Always EchoesExactly (setup ⟨true, 0, 0⟩ ⟨0, []⟩).1
      [hears [104, 105] (by decide), hears [121, 111, 117] (by decide)] := by
  refine ((echoes_iff ⟨true, 0, 0⟩ ⟨0, []⟩ _ ?_).1).mpr ⟨by decide, by decide⟩
  refine AllMessages.hears_cons ⟨by decide, by decide⟩ ?_
  exact AllMessages.hears_cons ⟨by decide, by decide⟩ (by simp [AllMessages])

/-- A message of one byte after one of three is said with the end of that one. -/
theorem shorter_not_echoed :
    AllMessages [hears [97, 98, 99] (by decide), hears [120] (by decide)] ∧
      ¬ sketch.Always EchoesExactly (setup ⟨true, 0, 0⟩ ⟨0, []⟩).1
        [hears [97, 98, 99] (by decide), hears [120] (by decide)] := by
  have hkind : AllMessages [hears [97, 98, 99] (by decide), hears [120] (by decide)] :=
    AllMessages.hears_cons ⟨by decide, by decide⟩
      (AllMessages.hears_cons ⟨by decide, by decide⟩ (by simp [AllMessages]))
  refine ⟨hkind, fun h => ?_⟩
  have hpair := ((always_echoesExactly_iff (setup_used _ _) hkind).mp h).2
  exact absurd hpair (by decide)

end ArduinoProjects.BbBob
