import ArduinoProjects.Nrf8001.Transport

/-!
# The setup of the radio

`do_aci_setup` of `src/libraries/BLE_SDK_for_Arduino/src/aci_setup.cpp` sends the
setup messages that the nRFgo studio has generated.  `aci_setup_fill` puts as many of
them into the send queue as it holds, and each answer `TRANSACTION_CONTINUE` of the
radio makes it fill the queue again, until the radio answers `TRANSACTION_COMPLETE`.

`SETUP_MESSAGES_CONTENT` is the table of `RBL_services.h`.

`doAciSetup_prefix` is about any radio whose length bytes are at most 31: at any time
the commands that were queued are the first setup messages, in order and without a
gap, and the radio has read the first ones of these.
-/

namespace ArduinoProjects.Nrf8001

def ACI_EVT_CMD_RSP : UInt8 := 0x84

def ACI_STATUS_TRANSACTION_CONTINUE : UInt8 := 0x01

def ACI_STATUS_TRANSACTION_COMPLETE : UInt8 := 0x02

/-- The byte of an event at offset `i` of `buffer`. -/
def Message.byte (d : Message) (i : Nat) : UInt8 :=
  d.buffer ⟨i % (HAL_ACI_MAX_LENGTH + 1), Nat.mod_lt _ (Nat.succ_pos _)⟩

theorem Message.getElem?_bytes (d : Message) {i : Nat} (hi : i ≤ d.length) :
    d.bytes[i]? = some (d.byte i) := by
  have hfits : d.length ≤ HAL_ACI_MAX_LENGTH := d.fits
  have hlt : i < HAL_ACI_MAX_LENGTH + 1 := by omega
  rw [bytes, HalAciData.bytes, List.getElem?_take_of_lt (Nat.lt_succ_of_le hi),
    List.getElem?_ofFn, dif_pos hlt]
  refine congrArg (fun i => some (d.buffer i)) (Fin.ext ?_)
  exact (Nat.mod_eq_of_lt hlt).symm

/-- `aci_evt->evt_opcode` -/
def Message.evtOpcode (d : Message) : UInt8 := d.byte 1

/-- `aci_evt->params.cmd_rsp.cmd_status` -/
def Message.cmdStatus (d : Message) : UInt8 := d.byte 3

/-- The setup messages of the sketches. -/
def SETUP_MESSAGES_CONTENT : List HalAciData :=
  [
    .ofBytes [0x07, 0x06, 0x00, 0x00, 0x03, 0x02, 0x42, 0x07],
    .ofBytes [0x1f, 0x06, 0x10, 0x00, 0x00, 0x00, 0x00, 0x00, 0x00, 0x00, 0x05, 0x00, 0x05, 0x01,
      0x01, 0x00, 0x00, 0x06, 0x00, 0x00, 0x90, 0x00, 0x00, 0x00, 0x00, 0x00, 0x00, 0x00, 0x00,
      0x00, 0x00, 0x00],
    .ofBytes [0x1f, 0x06, 0x10, 0x1c, 0x00, 0x02, 0x00, 0x00, 0x00, 0x00, 0x00, 0x00, 0x00, 0x00,
      0x00, 0x00, 0x00, 0x00, 0x00, 0x00, 0x00, 0x00, 0x00, 0x10, 0x00, 0x00, 0x00, 0x10, 0x03,
      0x90, 0x01, 0xff],
    .ofBytes [0x1f, 0x06, 0x10, 0x38, 0xff, 0xff, 0x02, 0x58, 0x00, 0x05, 0x00, 0x00, 0x00, 0x00,
      0x00, 0x00, 0x00, 0x14, 0x00, 0x00, 0x00, 0x10, 0x00, 0x00, 0x00, 0x04, 0x00, 0x00, 0x00,
      0x00, 0x00, 0x00],
    .ofBytes [0x05, 0x06, 0x10, 0x54, 0x00, 0x00],
    .ofBytes [0x1f, 0x06, 0x20, 0x00, 0x04, 0x04, 0x02, 0x02, 0x00, 0x01, 0x28, 0x00, 0x01, 0x00,
      0x18, 0x04, 0x04, 0x05, 0x05, 0x00, 0x02, 0x28, 0x03, 0x01, 0x0e, 0x03, 0x00, 0x00, 0x2a,
      0x04, 0x14, 0x0a],
    .ofBytes [0x1f, 0x06, 0x20, 0x1c, 0x0a, 0x00, 0x03, 0x2a, 0x00, 0x01, 0x42, 0x4c, 0x45, 0x20,
      0x53, 0x68, 0x69, 0x65, 0x6c, 0x64, 0x04, 0x04, 0x05, 0x05, 0x00, 0x04, 0x28, 0x03, 0x01,
      0x02, 0x05, 0x00],
    .ofBytes [0x1f, 0x06, 0x20, 0x38, 0x01, 0x2a, 0x06, 0x04, 0x03, 0x02, 0x00, 0x05, 0x2a, 0x01,
      0x01, 0x00, 0x00, 0x04, 0x04, 0x05, 0x05, 0x00, 0x06, 0x28, 0x03, 0x01, 0x02, 0x07, 0x00,
      0x04, 0x2a, 0x06],
    .ofBytes [0x1f, 0x06, 0x20, 0x54, 0x04, 0x09, 0x08, 0x00, 0x07, 0x2a, 0x04, 0x01, 0x06, 0x00,
      0x12, 0x00, 0x00, 0x00, 0x0a, 0x00, 0x04, 0x04, 0x02, 0x02, 0x00, 0x08, 0x28, 0x00, 0x01,
      0x01, 0x18, 0x04],
    .ofBytes [0x1f, 0x06, 0x20, 0x70, 0x04, 0x05, 0x05, 0x00, 0x09, 0x28, 0x03, 0x01, 0x22, 0x0a,
      0x00, 0x05, 0x2a, 0x26, 0x04, 0x05, 0x04, 0x00, 0x0a, 0x2a, 0x05, 0x01, 0x00, 0x00, 0x00,
      0x00, 0x46, 0x14],
    .ofBytes [0x1f, 0x06, 0x20, 0x8c, 0x03, 0x02, 0x00, 0x0b, 0x29, 0x02, 0x01, 0x00, 0x00, 0x04,
      0x04, 0x10, 0x10, 0x00, 0x0c, 0x28, 0x00, 0x01, 0x1e, 0x94, 0x8d, 0xf1, 0x48, 0x31, 0x94,
      0xba, 0x75, 0x4c],
    .ofBytes [0x1f, 0x06, 0x20, 0xa8, 0x3e, 0x50, 0x00, 0x00, 0x3d, 0x71, 0x04, 0x04, 0x13, 0x13,
      0x00, 0x0d, 0x28, 0x03, 0x01, 0x04, 0x0e, 0x00, 0x1e, 0x94, 0x8d, 0xf1, 0x48, 0x31, 0x94,
      0xba, 0x75, 0x4c],
    .ofBytes [0x1f, 0x06, 0x20, 0xc4, 0x3e, 0x50, 0x03, 0x00, 0x3d, 0x71, 0x44, 0x10, 0x14, 0x00,
      0x00, 0x0e, 0x00, 0x03, 0x02, 0x00, 0x00, 0x00, 0x00, 0x00, 0x00, 0x00, 0x00, 0x00, 0x00,
      0x00, 0x00, 0x00],
    .ofBytes [0x1f, 0x06, 0x20, 0xe0, 0x00, 0x00, 0x00, 0x00, 0x00, 0x00, 0x00, 0x04, 0x04, 0x13,
      0x13, 0x00, 0x0f, 0x28, 0x03, 0x01, 0x10, 0x10, 0x00, 0x1e, 0x94, 0x8d, 0xf1, 0x48, 0x31,
      0x94, 0xba, 0x75],
    .ofBytes [0x1f, 0x06, 0x20, 0xfc, 0x4c, 0x3e, 0x50, 0x02, 0x00, 0x3d, 0x71, 0x14, 0x00, 0x14,
      0x00, 0x00, 0x10, 0x00, 0x02, 0x02, 0x00, 0x00, 0x00, 0x00, 0x00, 0x00, 0x00, 0x00, 0x00,
      0x00, 0x00, 0x00],
    .ofBytes [0x1f, 0x06, 0x21, 0x18, 0x00, 0x00, 0x00, 0x00, 0x00, 0x00, 0x00, 0x00, 0x46, 0x14,
      0x03, 0x02, 0x00, 0x11, 0x29, 0x02, 0x01, 0x00, 0x00, 0x04, 0x04, 0x02, 0x02, 0x00, 0x12,
      0x28, 0x00, 0x01],
    .ofBytes [0x1f, 0x06, 0x21, 0x34, 0x0a, 0x18, 0x04, 0x04, 0x05, 0x05, 0x00, 0x13, 0x28, 0x03,
      0x01, 0x02, 0x14, 0x00, 0x27, 0x2a, 0x04, 0x04, 0x09, 0x01, 0x00, 0x14, 0x2a, 0x27, 0x01,
      0x0a, 0x00, 0x00],
    .ofBytes [0x0a, 0x06, 0x21, 0x50, 0x00, 0x00, 0x00, 0x00, 0x00, 0x00, 0x00],
    .ofBytes [0x1f, 0x06, 0x40, 0x00, 0x2a, 0x00, 0x01, 0x00, 0x80, 0x04, 0x00, 0x03, 0x00, 0x00,
      0x2a, 0x05, 0x01, 0x00, 0x04, 0x04, 0x00, 0x0a, 0x00, 0x0b, 0x00, 0x03, 0x02, 0x00, 0x08,
      0x04, 0x00, 0x0e],
    .ofBytes [0x19, 0x06, 0x40, 0x1c, 0x00, 0x00, 0x00, 0x02, 0x02, 0x00, 0x02, 0x04, 0x00, 0x10,
      0x00, 0x11, 0x2a, 0x27, 0x01, 0x00, 0x80, 0x04, 0x00, 0x14, 0x00, 0x00],
    .ofBytes [0x13, 0x06, 0x50, 0x00, 0x1e, 0x94, 0x8d, 0xf1, 0x48, 0x31, 0x94, 0xba, 0x75, 0x4c,
      0x3e, 0x50, 0x00, 0x00, 0x3d, 0x71],
    .ofBytes [0x12, 0x06, 0x60, 0x00, 0x00, 0x00, 0x00, 0x00, 0x00, 0x00, 0x00, 0x00, 0x00, 0x00,
      0x00, 0x00, 0x00, 0x00, 0x00],
    .ofBytes [0x06, 0x06, 0xf0, 0x00, 0x03, 0x3d, 0x6c]]

inductive SetupResult where
  | success
  | failCommandQueueNotEmpty
  | failEventQueueNotEmpty
  | failTimeout
  | failNotSetupEvent
  | failNotCommandResponse
  deriving DecidableEq, Repr

/-! ## The functions -/

/-- The loop of `aci_setup_fill` over the messages from an offset on.  A message that
is not taken ends it. -/
def fillFrom : List HalAciData → Nat → StateT Link Option Nat
  | [], num_cmd_offset => return num_cmd_offset
  | msg_to_send :: rest, num_cmd_offset => do
    if ← halAciTlSend msg_to_send then fillFrom rest (num_cmd_offset + 1)
    else return num_cmd_offset

def aciSetupFill (setup_msgs : List HalAciData) (num_cmd_offset : Nat) :
    StateT Link Option (Bool × Nat) := do
  let offset ← fillFrom (setup_msgs.drop num_cmd_offset) num_cmd_offset
  return (num_cmd_offset < offset, offset)

/-- The variables of the loop of `do_aci_setup`. -/
structure SetupState where
  setupOffset : Nat
  i : Nat

section Setup

variable (radio : Link → Poll) (setup_msgs : List HalAciData)

/-- What the loop does with the event in front of the queue. -/
def setupEvent (s : SetupState) (aci_evt : Message) :
    StateT Link Option (SetupState ⊕ SetupResult) :=
  if aci_evt.evtOpcode ≠ ACI_EVT_CMD_RSP then return .inr .failNotCommandResponse
  else if aci_evt.cmdStatus = ACI_STATUS_TRANSACTION_CONTINUE then do
    let (_, setup_offset) ← aciSetupFill setup_msgs s.setupOffset
    let _ ← halAciTlEventGet radio
    return .inl ⟨setup_offset, 0⟩
  else if aci_evt.cmdStatus = ACI_STATUS_TRANSACTION_COMPLETE then do
    let _ ← halAciTlEventGet radio
    return .inr .success
  else return .inr .failNotSetupEvent

/-- One iteration of the loop of `do_aci_setup`. -/
def setupIteration (s : SetupState) : StateT Link Option (SetupState ⊕ SetupResult) :=
  if s.i > 0xFFFFE then return .inr .failTimeout
  else do
    match ← halAciTlEventPeek radio with
    | some aci_evt => setupEvent radio setup_msgs { s with i := s.i + 1 } aci_evt
    | none => return .inl { s with i := s.i + 1 }

/-- The loop, for a number of iterations.  It is at an end with a result. -/
def setupLoop : Nat → SetupState → StateT Link Option (SetupState ⊕ SetupResult)
  | 0, s => return .inl s
  | iterations + 1, s => do
    match ← setupIteration radio setup_msgs s with
    | .inl s => setupLoop iterations s
    | .inr result => return .inr result

/-- `do_aci_setup`, up to a number of iterations of its loop. -/
def doAciSetup (iterations : Nat) : StateT Link Option (SetupState ⊕ SetupResult) := do
  if !(← get).txQ.isEmpty then return .inr .failCommandQueueNotEmpty
  match ← halAciTlEventPeek radio with
  | some _ => return .inr .failEventQueueNotEmpty
  | none =>
    let (_, setup_offset) ← aciSetupFill setup_msgs 0
    setupLoop radio setup_msgs iterations ⟨setup_offset, 0⟩

end Setup

/-! ## What is queued -/

variable {radio : Link → Poll} {setup_msgs : List HalAciData}

/-- The commands that have been queued since `l₀` are the first `offset` setup
messages. -/
structure Filled (setup_msgs : List HalAciData) (l₀ : Link) (offset : Nat) (l : Link) : Prop where
  inv : l.Inv
  le : offset ≤ setup_msgs.length
  queued : l.queued = l₀.queued ++ (setup_msgs.take offset).map HalAciData.bytes

theorem fillFrom_filled {l₀ : Link} (rest : List HalAciData) :
    ∀ (offset : Nat) (l : Link), rest = setup_msgs.drop offset → Filled setup_msgs l₀ offset l →
      Returns (fillFrom rest offset) l fun offset' l' =>
        offset ≤ offset' ∧ Filled setup_msgs l₀ offset' l' := by
  induction rest with
  | nil => exact fun offset l _ h => Returns.pure ⟨Nat.le_refl _, h⟩
  | cons msg rest ih =>
    intro offset l hrest h
    have hlt : offset < setup_msgs.length := by
      by_contra hle
      rw [List.drop_eq_nil_of_le (Nat.le_of_not_lt hle)] at hrest
      cases hrest
    have hcons := (List.drop_eq_getElem_cons hlt).symm.trans hrest.symm
    have hmsg : setup_msgs[offset] = msg := (List.cons.inj hcons).1
    have hdrop : rest = setup_msgs.drop (offset + 1) := (List.cons.inj hcons).2.symm
    refine Returns.bind (halAciTlSend_inv h.inv msg) fun accepted l' h' => ?_
    obtain ⟨hinv, hqueued, _⟩ := h'
    cases accepted with
    | false =>
      refine Returns.pure ⟨Nat.le_refl _, hinv, h.le, ?_⟩
      rw [hqueued, h.queued]
      exact List.append_nil _
    | true =>
      have hfilled : Filled setup_msgs l₀ (offset + 1) l' := by
        refine ⟨hinv, hlt, ?_⟩
        rw [hqueued, h.queued, List.take_succ_eq_append_getElem hlt, List.map_append, hmsg,
          List.append_assoc]
        rfl
      refine (ih (offset + 1) l' hdrop hfilled).mono fun offset' l'' h'' => ?_
      exact ⟨by omega, h''.2⟩

theorem aciSetupFill_filled {l₀ : Link} {offset : Nat} {l : Link}
    (h : Filled setup_msgs l₀ offset l) :
    Returns (aciSetupFill setup_msgs offset) l fun r l' =>
      Filled setup_msgs l₀ r.2 l' := by
  refine Returns.bind (fillFrom_filled _ offset l rfl h) fun offset' l' h' => ?_
  exact Returns.pure h'.2

theorem halAciTlEventGet_filled (hradio : ∀ l, (radio l).Fits) {l₀ : Link} {offset : Nat}
    {l : Link} (h : Filled setup_msgs l₀ offset l) :
    Returns (halAciTlEventGet radio) l fun _ l' => Filled setup_msgs l₀ offset l' := by
  refine (halAciTlEventGet_inv hradio h.inv).mono fun event l' h' => ?_
  obtain ⟨hinv, hqueued, _⟩ := h'
  exact ⟨hinv, h.le, hqueued.trans h.queued⟩

theorem halAciTlEventPeek_filled (hradio : ∀ l, (radio l).Fits) {l₀ : Link} {offset : Nat}
    {l : Link} (h : Filled setup_msgs l₀ offset l) :
    Returns (halAciTlEventPeek radio) l fun _ l' => Filled setup_msgs l₀ offset l' := by
  refine (halAciTlEventPeek_inv hradio h.inv).mono fun event l' h' => ?_
  exact ⟨h'.1, h.le, h'.2.1.queued.trans h.queued⟩

/-- The commands behind the variables of the loop, or behind its result. -/
def SetupDone (setup_msgs : List HalAciData) (l₀ : Link) (r : SetupState ⊕ SetupResult)
    (l : Link) : Prop :=
  ∃ offset, Filled setup_msgs l₀ offset l ∧ ∀ s, r = .inl s → s.setupOffset = offset

theorem setupEvent_done (hradio : ∀ l, (radio l).Fits) {l₀ : Link} {s : SetupState} {l : Link}
    (h : Filled setup_msgs l₀ s.setupOffset l) (aci_evt : Message) :
    Returns (setupEvent radio setup_msgs s aci_evt) l (SetupDone setup_msgs l₀) := by
  have hstop : ∀ result, Returns (pure (.inr result) : StateT Link Option _) l
      (SetupDone setup_msgs l₀) := fun result =>
    Returns.pure ⟨_, h, fun s' hs' => by cases hs'⟩
  rw [setupEvent]
  split_ifs
  · exact hstop _
  · refine Returns.bind (aciSetupFill_filled h) fun r l' h' => ?_
    refine Returns.bind (halAciTlEventGet_filled hradio h') fun _ l'' h'' => Returns.pure ?_
    exact ⟨_, h'', fun s' hs' => by cases hs'; rfl⟩
  · refine Returns.bind (halAciTlEventGet_filled hradio h) fun _ l' h' => Returns.pure ?_
    exact ⟨_, h', fun s' hs' => by cases hs'⟩
  · exact hstop _

theorem setupIteration_done (hradio : ∀ l, (radio l).Fits) {l₀ : Link} {s : SetupState} {l : Link}
    (h : Filled setup_msgs l₀ s.setupOffset l) :
    Returns (setupIteration radio setup_msgs s) l (SetupDone setup_msgs l₀) := by
  rw [setupIteration]
  split_ifs
  · exact Returns.pure ⟨_, h, fun s' hs' => by cases hs'⟩
  · refine Returns.bind (halAciTlEventPeek_filled hradio h) fun event l' h' => ?_
    cases event with
    | none => exact Returns.pure ⟨_, h', fun s' hs' => by cases hs'; rfl⟩
    | some aci_evt => exact setupEvent_done hradio h' aci_evt

theorem setupLoop_done (hradio : ∀ l, (radio l).Fits) {l₀ : Link} (iterations : Nat) :
    ∀ (s : SetupState) (l : Link), Filled setup_msgs l₀ s.setupOffset l →
      Returns (setupLoop radio setup_msgs iterations s) l (SetupDone setup_msgs l₀) := by
  induction iterations with
  | zero => exact fun s l h => Returns.pure ⟨_, h, fun s' hs' => by cases hs'; rfl⟩
  | succ iterations ih =>
    intro s l h
    refine Returns.bind (setupIteration_done hradio h) fun r l' h' => ?_
    obtain ⟨offset, hfilled, hoffset⟩ := h'
    cases r with
    | inl s' => exact ih s' l' (hoffset s' rfl ▸ hfilled)
    | inr result => exact Returns.pure ⟨_, hfilled, fun s' hs' => by cases hs'⟩

theorem doAciSetup_done (hradio : ∀ l, (radio l).Fits) {l : Link} (hl : l.Inv)
    (iterations : Nat) :
    Returns (doAciSetup radio setup_msgs iterations) l (SetupDone setup_msgs l) := by
  have hstart : Filled setup_msgs l 0 l := ⟨hl, Nat.zero_le _, (List.append_nil _).symm⟩
  refine Returns.get_bind ?_
  by_cases hempty : (!l.txQ.isEmpty) = true
  · rw [if_pos hempty]
    exact Returns.pure ⟨_, hstart, fun s' hs' => by cases hs'⟩
  · rw [if_neg hempty]
    refine Returns.bind (halAciTlEventPeek_filled hradio hstart) fun event l' h' => ?_
    cases event with
    | some _ => exact Returns.pure ⟨_, h', fun s' hs' => by cases hs'⟩
    | none =>
      refine Returns.bind (aciSetupFill_filled h') fun r l'' h'' => ?_
      exact setupLoop_done hradio iterations _ l'' h''

/-- **The setup, with a radio whose length bytes are at most 31.**  After any number of
iterations the commands that were queued are the first setup messages, and the radio
has read the first ones of these.  `num_setup_msgs` is a byte. -/
theorem doAciSetup_prefix (hradio : ∀ l, (radio l).Fits) (hmsgs : setup_msgs.length < 256)
    (txQ rxQ : AciQueue) (iterations : Nat) :
    Returns (doAciSetup radio setup_msgs iterations) (Link.init txQ rxQ) fun r l =>
      (∃ offset ≤ setup_msgs.length,
        l.queued = (setup_msgs.take offset).map HalAciData.bytes ∧
          ∀ s, r = .inl s → s.setupOffset = offset) ∧
      l.commands <+: setup_msgs.filterMap fun msg => frame msg.bytes := by
  refine (doAciSetup_done hradio (Link.init_inv txQ rxQ) iterations).mono fun r l h => ?_
  obtain ⟨offset, hfilled, hoffset⟩ := h
  have hqueued : l.queued = (setup_msgs.take offset).map HalAciData.bytes := hfilled.queued
  refine ⟨⟨offset, hfilled.le, hqueued, hoffset⟩, ?_⟩
  have hlength : l.queued.length ≤ setup_msgs.length := by
    rw [hqueued, List.length_map, List.length_take]
    omega
  have hclean : l.txOverrun = false :=
    Bool.eq_false_iff.mpr fun hlost => absurd (hfilled.inv.txLate hlost) (by omega)
  have hlaw := (hfilled.inv.tx hclean).filterMap_queued
  rw [hqueued, List.filterMap_map] at hlaw
  have hread : l.commands <+: (setup_msgs.take offset).filterMap fun msg => frame msg.bytes :=
    ⟨_, hlaw.symm⟩
  exact hread.trans ((List.take_prefix offset setup_msgs).filterMap _)

theorem doAciSetup_prefix_silent :
    Returns (doAciSetup (fun _ => .ofBytes true []) SETUP_MESSAGES_CONTENT 9)
      (Link.init .zero .zero) fun r l =>
        (∃ offset ≤ SETUP_MESSAGES_CONTENT.length,
          l.queued = (SETUP_MESSAGES_CONTENT.take offset).map HalAciData.bytes ∧
            ∀ s, r = .inl s → s.setupOffset = offset) ∧
        l.commands <+: SETUP_MESSAGES_CONTENT.filterMap fun msg => frame msg.bytes :=
  doAciSetup_prefix (fun _ => by decide) (by decide) .zero .zero 9

end ArduinoProjects.Nrf8001
