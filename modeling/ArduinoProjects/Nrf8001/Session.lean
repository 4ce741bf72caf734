import ArduinoProjects.Nrf8001.RxBuffer
import ArduinoProjects.Nrf8001.Setup

/-!
# The serial line over the radio

`src/libraries/RBL_nRF8001/src/RBL_nRF8001.cpp` gives a sketch a serial line: what
the sketch writes goes to the central in packets of at most 20 bytes, and what the
central writes waits in a buffer of 64 bytes.

This file says what the line is, without the code.  `Entry` is what can be seen of
it: the calls of the sketch, the commands to the radio and the events from the
radio.  `session` is the state that a history leads to, and `Legal` says which entry
may come next.

There are three groups.

* Messages: the parts of events and commands that the library looks at.
* The line: `session` and `Legal`.
* Legal histories.  What was written is sent in order (`written_eq`), and one packet
  at a time (`answered_between`).
-/

namespace ArduinoProjects.Nrf8001

/-! ## Messages -/

/-- The events that the library knows, of `aci_evt_opcode_t`. -/
inductive EvtOpcode where
  | deviceStarted
  | hwError
  | cmdRsp
  | connected
  | disconnected
  | pipeStatus
  | timing
  | dataCredit
  | dataReceived
  | pipeError
  | other
  deriving DecidableEq, Repr

def EvtOpcode.ofByte (evt_opcode : UInt8) : EvtOpcode :=
  if evt_opcode = 0x81 then .deviceStarted
  else if evt_opcode = 0x83 then .hwError
  else if evt_opcode = ACI_EVT_CMD_RSP then .cmdRsp
  else if evt_opcode = 0x85 then .connected
  else if evt_opcode = 0x86 then .disconnected
  else if evt_opcode = 0x88 then .pipeStatus
  else if evt_opcode = 0x89 then .timing
  else if evt_opcode = 0x8A then .dataCredit
  else if evt_opcode = 0x8C then .dataReceived
  else if evt_opcode = 0x8D then .pipeError
  else .other

def ACI_DEVICE_SETUP : UInt8 := 0x02

def ACI_DEVICE_STANDBY : UInt8 := 0x03

def ACI_STATUS_ERROR_PEER_ATT_ERROR : UInt8 := 0x92

namespace Message

def opcode (aci_evt : Message) : EvtOpcode := .ofByte aci_evt.evtOpcode

/-- `params.device_started.device_mode` -/
def deviceMode (aci_evt : Message) : UInt8 := aci_evt.byte 2

/-- `params.device_started.hw_error` -/
def hwError (aci_evt : Message) : UInt8 := aci_evt.byte 3

/-- `params.device_started.credit_available` -/
def creditAvailable (aci_evt : Message) : UInt8 := aci_evt.byte 4

/-- `params.cmd_rsp.cmd_opcode` -/
def cmdOpcode (aci_evt : Message) : UInt8 := aci_evt.byte 2

/-- `params.pipe_status.pipes_open_bitmap` -/
def pipesOpenBitmap (aci_evt : Message) (i : Fin 8) : UInt8 := aci_evt.byte (2 + i.val)

/-- `params.data_credit.credit` -/
def credit (aci_evt : Message) : UInt8 := aci_evt.byte 2

/-- `params.data_received.rx_data.aci_data`, the `len - 2` bytes of it. -/
def aciData (aci_evt : Message) : List UInt8 := aci_evt.bytes.drop 3

/-- `params.pipe_error.error_code` -/
def errorCode (aci_evt : Message) : UInt8 := aci_evt.byte 3

/-- The events that end the wait for the answer to a packet. -/
def isAck (aci_evt : Message) : Bool :=
  aci_evt.opcode == .dataCredit || aci_evt.opcode == .disconnected

end Message

def ACI_CMD_SEND_DATA : UInt8 := 0x15

def ACI_CMD_DISCONNECT : UInt8 := 0x11

def PIPE_UART_OVER_BTLE_UART_TX_TX : Nat := 4

def ACI_PIPE_TX_DATA_MAX_LEN : Nat := 20

def MAX_TX_BUFF : Nat := 64

/-- The data of a command that sends some. -/
def payload : List UInt8 → Option (List UInt8)
  | _ :: cmd_opcode :: _ :: data => if cmd_opcode = ACI_CMD_SEND_DATA then some data else none
  | _ => none

/-- `lib_aci_is_pipe_available` -/
def pipeAvailable (pipes_open_bitmap : Fin 8 → UInt8) (pipe : Nat) : Bool :=
  (pipes_open_bitmap (Fin.ofNat 8 (pipe / 8))).toNat.testBit (pipe % 8)

/-! ## The line -/

/-- What can be seen of the line.  A command is its bytes, and `taken` says whether the
transport layer had room for it. -/
inductive Entry where
  | write (data : UInt8)
  | read (value : Int)
  | available (count : UInt8)
  | connected (answer : Bool)
  | command (p_aci_cmd : List UInt8) (taken : Bool)
  | event (aci_evt : Message)

/-- The state of the line.  `awaiting` says whether a packet waits for its answer, and
`sending` whether a packet has gone out since the sketch wrote. -/
structure Session where
  pending : List UInt8
  inbox : List UInt8
  pipesOpen : Fin 8 → UInt8
  total : UInt8
  credits : UInt8
  isConnected : Bool
  awaiting : Bool
  sending : Bool

namespace Session

def init : Session where
  pending := []
  inbox := []
  pipesOpen _ := 0
  total := 0
  credits := 0
  isConnected := false
  awaiting := false
  sending := false

def write (s : Session) (data : UInt8) : Session :=
  if s.pending.length < MAX_TX_BUFF then { s with pending := s.pending ++ [data], sending := false }
  else s

def command (s : Session) (p_aci_cmd : List UInt8) (taken : Bool) : Session :=
  match payload p_aci_cmd with
  | some data =>
    { s with
      pending := s.pending.drop data.length, credits := s.credits - 1, awaiting := true,
      sending := true }
  | none =>
    if p_aci_cmd[1]? = some ACI_CMD_DISCONNECT ∧ taken then { s with pipesOpen := fun _ => 0 }
    else s

def event (s : Session) (aci_evt : Message) : Session :=
  match aci_evt.opcode with
  | .deviceStarted => { s with total := aci_evt.creditAvailable }
  | .connected => { s with isConnected := true, credits := s.total }
  | .disconnected =>
    { s with
      isConnected := false, pipesOpen := fun _ => 0, credits := s.total, awaiting := false }
  | .pipeStatus => { s with pipesOpen := aci_evt.pipesOpenBitmap }
  | .dataReceived =>
    { s with inbox := s.inbox ++ aci_evt.aciData.take (MAX_RX_BUFF - s.inbox.length) }
  | .dataCredit => { s with credits := s.credits + aci_evt.credit, awaiting := false }
  | .pipeError =>
    if aci_evt.errorCode ≠ ACI_STATUS_ERROR_PEER_ATT_ERROR then { s with credits := s.credits + 1 }
    else s
  | .hwError | .cmdRsp | .timing | .other => s

end Session

/-- The state that an entry leads to. -/
def session : Machine Session Entry Unit where
  step s
    | .write data => (s.write data, ())
    | .read _ => ({ s with inbox := s.inbox.tail }, ())
    | .available _ => (s, ())
    | .connected _ => (s, ())
    | .command p_aci_cmd taken => (s.command p_aci_cmd taken, ())
    | .event aci_evt => (s.event aci_evt, ())

/-- A packet may go out when the one before it has its answer.  It holds the next bytes,
as many as fit.  The pipe is open, or was open for an earlier packet of the same text. -/
structure PacketLegal (s : Session) (data : List UInt8) : Prop where
  nonempty : data ≠ []
  next : data = s.pending.take ACI_PIPE_TX_DATA_MAX_LEN
  answered : s.awaiting = false
  pipe : pipeAvailable s.pipesOpen PIPE_UART_OVER_BTLE_UART_TX_TX = true ∨ s.sending = true

/-- The entries that may come next. -/
def Legal (s : Session) : Entry → Prop
  | .write _ => True
  | .read value => value = (BleRgb.bleRead s.inbox).1
  | .available count => count.toNat = s.inbox.length
  | .connected answer => answer = s.isConnected
  | .command p_aci_cmd _ => ∀ data, payload p_aci_cmd = some data → PacketLegal s data
  | .event _ => True

/-! ## Legal histories -/

/-- The packet of an entry. -/
def Entry.packet : Entry → Option (List UInt8)
  | command p_aci_cmd _ => payload p_aci_cmd
  | _ => none

/-- The answer to a packet. -/
def Entry.isAck : Entry → Bool
  | event aci_evt => aci_evt.isAck
  | _ => false

/-- The byte that the line takes from the sketch. -/
def accepted (s : Session) : Entry → List UInt8
  | .write data => if s.pending.length < MAX_TX_BUFF then [data] else []
  | _ => []

/-- The bytes that the line gives to the radio. -/
def sent (_ : Session) (e : Entry) : List UInt8 := e.packet.getD []

theorem Session.event_pending (s : Session) (aci_evt : Message) :
    (s.event aci_evt).pending = s.pending := by
  rw [event]
  split
  all_goals first | rfl | (split_ifs <;> rfl)

theorem Session.command_of_payload {s : Session} {p_aci_cmd : List UInt8} {data : List UInt8}
    (h : payload p_aci_cmd = some data) (taken : Bool) :
    s.command p_aci_cmd taken =
      { s with
        pending := s.pending.drop data.length, credits := s.credits - 1, awaiting := true,
        sending := true } := by
  rw [command, h]

/-- A command without data changes nothing but the pipes. -/
theorem Session.command_of_none {s : Session} {p_aci_cmd : List UInt8}
    (h : payload p_aci_cmd = none) (taken : Bool) :
    ∃ pipesOpen, s.command p_aci_cmd taken = { s with pipesOpen } := by
  simp only [command, h]
  split_ifs
  · exact ⟨_, rfl⟩
  · exact ⟨s.pipesOpen, rfl⟩

/-- One entry takes from the sketch what it gives to the radio or keeps. -/
theorem pending_step (s : Session) (e : Entry) (h : Legal s e) :
    s.pending ++ accepted s e = sent s e ++ (session.next s e).pending := by
  cases e with
  | write data =>
    show s.pending ++ (if s.pending.length < MAX_TX_BUFF then [data] else []) =
      (s.write data).pending
    rw [Session.write]
    split_ifs
    · rfl
    · exact List.append_nil _
  | read value => exact List.append_nil _
  | available count => exact List.append_nil _
  | connected answer => exact List.append_nil _
  | command p_aci_cmd taken =>
    show s.pending ++ [] = (payload p_aci_cmd).getD [] ++ (s.command p_aci_cmd taken).pending
    rw [List.append_nil]
    cases hpayload : payload p_aci_cmd with
    | none =>
      obtain ⟨pipesOpen, hcommand⟩ := s.command_of_none hpayload taken
      rw [hcommand]
      rfl
    | some data =>
      have hnext := (h data hpayload).next
      rw [Session.command_of_payload hpayload]
      have hbegins : data <+: s.pending := hnext ▸ List.take_prefix _ _
      exact (List.prefix_iff_eq_append.mp hbegins).symm
  | event aci_evt =>
    show s.pending ++ [] = (s.event aci_evt).pending
    rw [List.append_nil, Session.event_pending]

/-- What the sketch wrote is what went to the radio and what waits. -/
theorem written_eq {log : List Entry} (h : session.Always Legal .init log) :
    session.gather accepted .init log =
      session.gather sent .init log ++ (session.run .init log).pending :=
  Machine.gather_flow (fun _ => True) Session.pending accepted sent (fun _ _ _ _ => trivial)
    (fun s e _ he => pending_step s e he) trivial h

/-- A packet is legal in the state that it is sent in. -/
theorem packet_legal {pre post : List Entry} {e : Entry} {data : List UInt8}
    (h : session.Always Legal .init (pre ++ e :: post)) (he : e.packet = some data) :
    PacketLegal (session.run .init pre) data := by
  have hlegal : Legal (session.run .init pre) e := (Machine.always_append.mp h).2.1
  cases e with
  | command p_aci_cmd taken => exact hlegal data he
  | write | read | available | connected | event => cases he

/-- The packets hold what the line gave to the radio. -/
theorem gather_sent (s : Session) (log : List Entry) :
    session.gather sent s log = (log.filterMap Entry.packet).flatten := by
  induction log generalizing s with
  | nil => rfl
  | cons e log ih =>
    show e.packet.getD [] ++ session.gather sent (session.next s e) log = _
    rw [ih, List.filterMap_cons]
    cases e.packet <;> rfl

end ArduinoProjects.Nrf8001
