import ArduinoProjects.Nrf8001.Session

/-!
# The library that the sketches call

`src/libraries/RBL_nRF8001/src/RBL_nRF8001.cpp`, with what it calls of `lib_aci.cpp`
and `acilib.cpp` of `src/libraries/BLE_SDK_for_Arduino/src`.

`ble_do_events` waits for the answer to every packet, in a loop without a bound, and
`do_aci_setup` waits as well.  A function that may not end gets a number `polls` of
rounds for each of its loops and says whether it is at its end.  What holds for every
number of rounds holds while a loop goes on for ever.

A computation has the value `none` where the code writes outside of an array.  What is
printed and the delay after a hardware error are left out.
-/

namespace ArduinoProjects.Nrf8001

/-! ## The state -/

/-- The part of `aci_state_t` that the library reads. -/
structure AciState where
  dataCreditTotal : UInt8
  dataCreditAvailable : UInt8
  pipesOpenBitmap : Fin 8 → UInt8

/-- The static variables.  `txBuff` is the `tx_buffer_len` bytes from `tx_buff[Index]`
on.  `log` is what has been seen so far, oldest first. -/
structure Ble where
  link : Link
  aciState : AciState
  txBuff : List UInt8
  rx : RxBuffer
  isConnected : Bool
  ack : Bool
  timingChangeDone : Bool
  setupRequired : Bool
  deviceName : List UInt8
  log : List Entry

/-- The state after `ble_begin`. -/
def Ble.init (txQ rxQ : AciQueue) : Ble where
  link := .init txQ rxQ
  aciState := { dataCreditTotal := 0, dataCreditAvailable := 0, pipesOpenBitmap := fun _ => 0 }
  txBuff := []
  rx := .init
  isConnected := false
  ack := false
  timingChangeDone := false
  setupRequired := false
  deviceName := "BLE Shield".toList.map Char.toUInt8
  log := []

def Ble.note (s : Ble) (e : Entry) : Ble := { s with log := s.log ++ [e] }

/-- A function of the transport layer. -/
def onLink {α : Type} (x : StateT Link Option α) : StateT Ble Option α := fun s =>
  (x s.link).map fun r => (r.1, { s with link := r.2 })

/-! ## Commands -/

inductive AciPipeStore where
  | ACI_STORE_LOCAL
  | ACI_STORE_REMOTE
  deriving DecidableEq, Repr

inductive AciPipeType where
  | ACI_TX
  | ACI_TX_ACK
  | ACI_RX
  | ACI_SET
  deriving DecidableEq, Repr

/-- `SERVICES_PIPE_TYPE_MAPPING_CONTENT` -/
def servicesPipeTypeMapping : List (AciPipeStore × AciPipeType) :=
  [(.ACI_STORE_LOCAL, .ACI_SET), (.ACI_STORE_LOCAL, .ACI_TX_ACK), (.ACI_STORE_LOCAL, .ACI_RX),
    (.ACI_STORE_LOCAL, .ACI_TX), (.ACI_STORE_LOCAL, .ACI_SET)]

def PIPE_GAP_DEVICE_NAME_SET : Nat := 1

def PIPE_DEVICE_INFORMATION_HARDWARE_REVISION_STRING_SET : Nat := 5

def ACI_CMD_GET_DEVICE_VERSION : UInt8 := 0x09

def ACI_CMD_SET_LOCAL_DATA : UInt8 := 0x0D

def ACI_CMD_CONNECT : UInt8 := 0x0F

def ACI_CMD_CHANGE_TIMING : UInt8 := 0x13

def ACI_REASON_TERMINATE : UInt8 := 0x01

/-- `hal_aci_tl_send`, and a note of it. -/
def send (cmd : List UInt8) : StateT Ble Option Bool := do
  let taken ← onLink (halAciTlSend (.ofBytes cmd))
  modify (·.note (.command cmd taken))
  return taken

def libAciSendData (pipe : Nat) (value : List UInt8) : StateT Ble Option Bool :=
  let pipe_type := (servicesPipeTypeMapping[pipe - 1]?).map Prod.snd
  if pipe_type ≠ some .ACI_TX ∧ pipe_type ≠ some .ACI_TX_ACK then return false
  else if value.length > ACI_PIPE_TX_DATA_MAX_LEN then return false
  else send ([UInt8.ofNat (2 + value.length), ACI_CMD_SEND_DATA, UInt8.ofNat pipe] ++ value)

def libAciSetLocalData (pipe : Nat) (value : List UInt8) : StateT Ble Option Bool :=
  let location := (servicesPipeTypeMapping[pipe - 1]?).map Prod.fst
  if location ≠ some .ACI_STORE_LOCAL ∨ value.length > ACI_PIPE_TX_DATA_MAX_LEN then return false
  else send ([UInt8.ofNat (2 + value.length), ACI_CMD_SET_LOCAL_DATA, UInt8.ofNat pipe] ++ value)

def libAciConnect (run_timeout adv_interval : UInt16) : StateT Ble Option Bool :=
  send [5, ACI_CMD_CONNECT, run_timeout.toUInt8, (run_timeout >>> 8).toUInt8, adv_interval.toUInt8,
    (adv_interval >>> 8).toUInt8]

def libAciDeviceVersion : StateT Ble Option Bool := send [1, ACI_CMD_GET_DEVICE_VERSION]

def libAciChangeTimingGapPpcp : StateT Ble Option Bool := send [1, ACI_CMD_CHANGE_TIMING]

def AciState.setPipes (a : AciState) (pipesOpenBitmap : Fin 8 → UInt8) : AciState :=
  { a with pipesOpenBitmap }

def libAciDisconnect (reason : UInt8) : StateT Ble Option Bool := do
  let ret_val ← send [2, ACI_CMD_DISCONNECT, reason]
  -- If we have actually sent the disconnect
  if ret_val then modify fun s => { s with aciState := s.aciState.setPipes fun _ => 0 }
  return ret_val

/-! ## Events -/

/-- `Adv_Timeout` -/
def advTimeout : UInt16 := 0

/-- `Adv_Interval` -/
def advInterval : UInt16 := 0x0050

/-- What `lib_aci_event_get` does to the state. -/
def AciState.update (a : AciState) (aci_evt : Message) : AciState :=
  match aci_evt.opcode with
  | .pipeStatus => { a with pipesOpenBitmap := aci_evt.pipesOpenBitmap }
  | .disconnected =>
    { a with pipesOpenBitmap := fun _ => 0, dataCreditAvailable := a.dataCreditTotal }
  | _ => a

/-- The assignments of the cases of the `switch` in `process_events`. -/
def Ble.assign (s : Ble) (aci_evt : Message) : Ble :=
  let a := s.aciState
  match aci_evt.opcode with
  | .deviceStarted =>
    { s with
      aciState := { a with dataCreditTotal := aci_evt.creditAvailable }
      setupRequired := s.setupRequired || aci_evt.deviceMode == ACI_DEVICE_SETUP }
  | .connected =>
    { s with
      isConnected := true
      timingChangeDone := false
      aciState := { a with dataCreditAvailable := a.dataCreditTotal } }
  | .disconnected => { s with isConnected := false, ack := true }
  | .dataReceived => { s with rx := s.rx.receive aci_evt.aciData }
  | .dataCredit =>
    { s with
      aciState := { a with dataCreditAvailable := a.dataCreditAvailable + aci_evt.credit }
      ack := true }
  | .pipeError =>
    if aci_evt.errorCode ≠ ACI_STATUS_ERROR_PEER_ATT_ERROR then
      { s with aciState := { a with dataCreditAvailable := a.dataCreditAvailable + 1 } }
    else s
  | _ => s

/-- The commands that these cases send, behind the assignments. -/
def respond (aci_evt : Message) : StateT Ble Option Unit := do
  match aci_evt.opcode with
  | .deviceStarted =>
    if aci_evt.deviceMode = ACI_DEVICE_STANDBY ∧ aci_evt.hwError = 0 then
      let _ ← libAciSetLocalData PIPE_GAP_DEVICE_NAME_SET (← get).deviceName
      let _ ← libAciConnect advTimeout advInterval
  | .cmdRsp =>
    if aci_evt.cmdOpcode = ACI_CMD_GET_DEVICE_VERSION then
      let get_device_version := (List.range 9).map fun i => aci_evt.byte (4 + i)
      let _ ← libAciSetLocalData PIPE_DEVICE_INFORMATION_HARDWARE_REVISION_STRING_SET
        get_device_version
  | .connected =>
    let _ ← libAciDeviceVersion
  | .pipeStatus =>
    let s ← get
    if pipeAvailable s.aciState.pipesOpenBitmap PIPE_UART_OVER_BTLE_UART_TX_TX ∧
        s.timingChangeDone = false then
      let _ ← libAciChangeTimingGapPpcp
      modify fun s => { s with timingChangeDone := true }
  | .disconnected | .hwError =>
    let _ ← libAciConnect advTimeout advInterval
  | _ => return ()

section Functions

variable (radio : Link → Poll)

/-- `lib_aci_event_get` and the `switch` of `process_events`. -/
def handleEvent : StateT Ble Option Unit := do
  match ← onLink (halAciTlEventGet radio) with
  | some aci_evt =>
    modify fun s =>
      ({ s with aciState := s.aciState.update aci_evt }.assign aci_evt).note (.event aci_evt)
    respond aci_evt
  | none => return ()

def processEvents (polls : Nat) : StateT Ble Option Bool := do
  handleEvent radio
  if (← get).setupRequired then
    match ← onLink (doAciSetup radio SETUP_MESSAGES_CONTENT polls) with
    | .inl _ => return false
    | .inr .success => do
      modify fun s => { s with setupRequired := false }
      return true
    | .inr _ => return true
  else return true

/-- `while (!ack) process_events();` -/
def waitAck (polls : Nat) : Nat → StateT Ble Option Bool
  | 0 => return (← get).ack
  | n + 1 => do
    if (← get).ack then return true
    else if ← processEvents radio polls then waitAck polls n
    else return false

/-- A packet of `size` bytes, and the wait for its answer. -/
def sendPacket (polls size : Nat) : StateT Ble Option Bool := do
  let _ ← libAciSendData PIPE_UART_OVER_BTLE_UART_TX_TX ((← get).txBuff.take size)
  modify fun s =>
    { s with
      txBuff := s.txBuff.drop size
      aciState := { s.aciState with dataCreditAvailable := s.aciState.dataCreditAvailable - 1 }
      ack := false }
  waitAck radio polls polls

/-- `while (tx_buffer_len > 20)`, which takes fewer rounds than there are bytes. -/
def sendFull (polls : Nat) : Nat → StateT Ble Option Bool
  | 0 => return true
  | n + 1 => do
    if (← get).txBuff.length > 20 then
      if ← sendPacket radio polls 20 then sendFull polls n else return false
    else return true

/-- The body of the two `if`s of `ble_do_events`. -/
def flush (polls : Nat) : StateT Ble Option Bool := do
  if ← sendFull radio polls (← get).txBuff.length then
    sendPacket radio polls (← get).txBuff.length
  else return false

def bleDoEvents (polls : Nat) : StateT Ble Option Bool := do
  let s ← get
  if pipeAvailable s.aciState.pipesOpenBitmap PIPE_UART_OVER_BTLE_UART_TX_TX ∧
      s.txBuff.length > 0 then
    if ← flush radio polls then processEvents radio polls else return false
  else processEvents radio polls

end Functions

/-! ## The other functions -/

def bleWrite (data : UInt8) : StateT Ble Option Unit :=
  modify fun s =>
    (if s.txBuff.length = MAX_TX_BUFF then s else { s with txBuff := s.txBuff ++ [data] }).note
      (.write data)

def bleWriteBytes : List UInt8 → StateT Ble Option Unit
  | [] => return ()
  | data :: rest => do
    bleWrite data
    bleWriteBytes rest

def bleRead : StateT Ble Option Int := do
  let s ← get
  let (data, rx) := RxBuffer.bleRead s.rx
  set ({ s with rx := rx }.note (.read data))
  return data

def bleAvailable : StateT Ble Option UInt8 := do
  let s ← get
  set (s.note (.available s.rx.bleAvailable))
  return s.rx.bleAvailable

def bleConnected : StateT Ble Option Bool := do
  let s ← get
  set (s.note (.connected s.isConnected))
  return s.isConnected

/-- `len` is an `unsigned char`.  `device_name` has room for ten characters. -/
def bleSetName (name : List UInt8) : StateT Ble Option Unit :=
  let len := UInt8.ofNat name.length
  if len > 10 then return () -- the new name is too long
  else if name.length ≤ 10 then modify fun s => { s with deviceName := name }
  else failure -- strcpy leaves device_name

def bleDisconnect : StateT Ble Option Unit := do
  let _ ← libAciDisconnect ACI_REASON_TERMINATE

/-! ## Sequences of calls -/

/-- What a sketch calls. -/
inductive BleCall where
  | write (data : UInt8)
  | writeBytes (data : List UInt8)
  | read
  | available
  | connected
  | setName (name : List UInt8)
  | disconnect
  | doEvents

/-- One call, and whether it has come to its end. -/
def BleCall.exec (radio : Link → Poll) (polls : Nat) : BleCall → StateT Ble Option Bool
  | write data => do bleWrite data; return true
  | writeBytes data => do bleWriteBytes data; return true
  | read => do let _ ← bleRead; return true
  | available => do let _ ← bleAvailable; return true
  | connected => do let _ ← bleConnected; return true
  | setName name => do bleSetName name; return true
  | disconnect => do bleDisconnect; return true
  | doEvents => bleDoEvents radio polls

/-- The calls up to the first that does not come to its end. -/
def runCalls (radio : Link → Poll) (polls : Nat) : List BleCall → StateT Ble Option Bool
  | [] => return true
  | call :: calls => do
    if ← call.exec radio polls then runCalls radio polls calls else return false

/-- The name that a call sets does not fool the check of its length. -/
def BleCall.Bounded : BleCall → Prop
  | setName name => UInt8.ofNat name.length > 10 ∨ name.length ≤ 10
  | _ => True

end ArduinoProjects.Nrf8001
