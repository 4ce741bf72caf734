import ArduinoProjects.Lib.Returns
import ArduinoProjects.Nrf8001.Queue

/-!
# The transport layer of the radio

`src/libraries/BLE_SDK_for_Arduino/src/hal_aci_tl.cpp` moves commands from the
sketch to the nRF8001 and events from the nRF8001 to the sketch.  Both go through
an `aci_queue`.  `m_aci_event_check` looks at the RDYN line.  When the line is low
it shifts the next command out while it shifts an event in.

The sketches poll, so the interrupt service routine is not modelled.  A computation
has the value `none` where the code writes outside of a slot or loops for ever.

There are four groups.

* The transfer.  `mAciSpiTransfer` runs for as long as the longer message needs.
  `command_transfer` and `event_transfer` say what each side gets of the message
  of the other.
* The functions of the transport layer.
* One look at the lines.  `Looked` says everything that it can do.
* Runs.  `Sound` is the law that nothing is lost, and `calls_sound` is the law for
  all sequences of calls, with a radio whose length bytes are at most 31.
-/

namespace ArduinoProjects.Nrf8001

/-! ## The transfer -/

/-- What one look at the lines finds: the level of RDYN, the bytes that the radio
shifts out if there is a transfer, what is in the two local variables of
`m_aci_event_check` before they are written, and the byte behind the first of them. -/
structure Poll where
  rdyn : Bool
  shiftedIn : Nat → UInt8
  dataToSend : HalAciData
  receivedData : HalAciData
  beyond : UInt8

/-- The length of the radio's message is one that `hal_aci_data_t` has room for. -/
def Poll.Fits (p : Poll) : Prop := (p.shiftedIn 1).toNat ≤ HAL_ACI_MAX_LENGTH

instance (p : Poll) : Decidable p.Fits :=
  inferInstanceAs (Decidable (_ ≤ _))

/-- The message that the radio has to offer. -/
def Poll.event (p : Poll) : Option (List UInt8) :=
  if p.shiftedIn 1 = 0 then none
  else some ((List.range ((p.shiftedIn 1).toNat + 1)).map fun i => p.shiftedIn (i + 1))

/-- The bytes on the two data lines during one transfer. -/
structure Transfer where
  sent : List UInt8
  received : List UInt8
  deriving DecidableEq, Repr

/-- A length byte and the bytes that it counts.  A length of zero stands for no
message. -/
def frame : List UInt8 → Option (List UInt8)
  | [] => none
  | length :: rest => if length = 0 then none else some (length :: rest.take length.toNat)

/-- The message that the radio reads. -/
def Transfer.command (t : Transfer) : Option (List UInt8) := frame t.sent

/-- The message that the radio writes, which a status byte comes before. -/
def Transfer.event (t : Transfer) : Option (List UInt8) := frame t.received.tail

/-- `max_bytes` of `m_aci_spi_transfer`, from the two length bytes. -/
def maxBytes (sendLength receivedLength : Nat) : Nat :=
  let max_bytes :=
    if sendLength = 0 then receivedLength
    else if receivedLength > sendLength - 1 then receivedLength else sendLength - 1
  if max_bytes > HAL_ACI_MAX_LENGTH then HAL_ACI_MAX_LENGTH else max_bytes

/-- The byte that `data_to_send->buffer[i]` reads. -/
def Poll.byteToSend (p : Poll) (dataToSend : HalAciData) (i : Nat) : UInt8 :=
  if h : i < HAL_ACI_MAX_LENGTH + 1 then dataToSend.buffer ⟨i, h⟩ else p.beyond

/-- Two bytes and then `max_bytes` more.  Byte `i` goes out while the byte before
`buffer[i]`, or `buffer[i - 1]`, comes in. -/
def mAciSpiTransfer (p : Poll) (dataToSend : HalAciData) : HalAciData × Transfer × Bool :=
  let max_bytes := maxBytes dataToSend.length (p.shiftedIn 1).toNat
  ({ statusByte := p.shiftedIn 0
     buffer := fun i =>
      if i.val ≤ max_bytes then p.shiftedIn (i.val + 1) else p.receivedData.buffer i },
    { sent := (List.range (max_bytes + 2)).map (p.byteToSend dataToSend)
      received := (List.range (max_bytes + 2)).map p.shiftedIn },
    max_bytes > 0)

theorem le_maxBytes_left {sendLength : Nat} (receivedLength : Nat)
    (h : sendLength ≤ HAL_ACI_MAX_LENGTH) :
    sendLength ≤ maxBytes sendLength receivedLength + 1 := by
  rw [maxBytes]
  split_ifs <;> omega

/-- The loop runs for the message of the radio, or for as much of it as there is
room for. -/
theorem min_le_maxBytes (sendLength receivedLength : Nat) :
    min receivedLength HAL_ACI_MAX_LENGTH ≤ maxBytes sendLength receivedLength := by
  rw [maxBytes]
  split_ifs <;> omega

theorem maxBytes_le (sendLength receivedLength : Nat) :
    maxBytes sendLength receivedLength ≤ HAL_ACI_MAX_LENGTH := by
  rw [maxBytes]
  split_ifs <;> omega

/-- A message of which only `n` bytes may be there. -/
theorem frame_map_range_min {f : Nat → UInt8} {length : UInt8} {n : Nat} (hf : f 0 = length) :
    frame ((List.range (n + 1)).map f) =
      if length = 0 then none
      else some ((List.range (min length.toNat n + 1)).map f) := by
  subst hf
  rw [List.range_succ_eq_map, List.map_cons, frame, List.range_succ_eq_map, List.map_cons,
    List.map_map, List.map_map, ← List.map_take, List.take_range]

theorem frame_map_range {f : Nat → UInt8} {length : UInt8} {n : Nat} (hf : f 0 = length)
    (h : length.toNat ≤ n) :
    frame ((List.range (n + 1)).map f) =
      if length = 0 then none else some ((List.range (length.toNat + 1)).map f) := by
  rw [frame_map_range_min hf, Nat.min_eq_left h]

theorem HalAciData.bytes_eq_map (d : HalAciData) (f : Nat → UInt8)
    (h : ∀ i : Fin (HAL_ACI_MAX_LENGTH + 1), i.val ≤ d.length → f i.val = d.buffer i) :
    d.bytes = (List.range (min d.length HAL_ACI_MAX_LENGTH + 1)).map f := by
  have hlength : d.bytes.length = min d.length HAL_ACI_MAX_LENGTH + 1 := by
    rw [bytes, List.length_take, List.length_ofFn]
    omega
  refine List.ext_getElem ?_ fun i hi hi' => ?_
  · rw [hlength, List.length_map, List.length_range]
  · rw [hlength] at hi
    simp only [bytes, List.getElem_map, List.getElem_range, List.getElem_take, List.getElem_ofFn]
    exact (h ⟨i, by omega⟩ (by show i ≤ d.length; omega)).symm

theorem Message.bytes_eq_map (d : Message) (f : Nat → UInt8)
    (h : ∀ i : Fin (HAL_ACI_MAX_LENGTH + 1), i.val ≤ d.length → f i.val = d.buffer i) :
    (List.range (d.length + 1)).map f = d.bytes := by
  rw [bytes, d.toHalAciData.bytes_eq_map f h, Nat.min_eq_left d.fits]

theorem HalAciData.frame_bytes (d : HalAciData) :
    frame d.bytes = if d.buffer 0 = 0 then none else some d.bytes := by
  have hbuffer : ∀ i : Fin (HAL_ACI_MAX_LENGTH + 1), i.val ≤ d.length →
      d.buffer (Fin.ofNat _ i.val) = d.buffer i := by
    intro i _
    rw [Fin.ofNat_val_eq_self]
  have hfirst : (fun i => d.buffer (Fin.ofNat _ i)) 0 = d.buffer 0 := rfl
  rw [d.bytes_eq_map (fun i => d.buffer (Fin.ofNat _ i)) hbuffer, frame_map_range_min hfirst,
    ← HalAciData.length, ← Nat.min_assoc, Nat.min_self]

theorem frame_bytes (d : Message) :
    frame d.bytes = if d.buffer 0 = 0 then none else some d.bytes :=
  d.toHalAciData.frame_bytes

/-- The radio gets the command whole. -/
theorem command_transfer (p : Poll) (d : Message) :
    (mAciSpiTransfer p d.toHalAciData).2.1.command = frame d.bytes := by
  have hmax := le_maxBytes_left (p.shiftedIn 1).toNat d.fits
  have hbyte : ∀ i : Fin (HAL_ACI_MAX_LENGTH + 1), p.byteToSend d.toHalAciData i.val = d.buffer i :=
    fun i => dif_pos i.isLt
  have hbytes : (List.range (d.length + 1)).map (p.byteToSend d.toHalAciData) = d.bytes :=
    d.bytes_eq_map _ fun i _ => hbyte i
  show frame ((List.range (maxBytes d.length _ + 1 + 1)).map _) = _
  rw [frame_map_range (hbyte 0) hmax, frame_bytes, ← hbytes]
  rfl

/-- With nothing to send the radio gets no command. -/
theorem command_transfer_of_empty (p : Poll) {d : HalAciData} (h : d.buffer 0 = 0) :
    (mAciSpiTransfer p d).2.1.command = none := by
  have hbyte : p.byteToSend d 0 = 0 := h
  show frame ((List.range (maxBytes d.length _ + 1 + 1)).map _) = _
  rw [frame_map_range hbyte (Nat.zero_le _), if_pos rfl]

theorem buffer_received (p : Poll) (d : HalAciData) :
    (mAciSpiTransfer p d).1.buffer 0 = p.shiftedIn 1 := by
  show (if 0 ≤ maxBytes d.length (p.shiftedIn 1).toNat then p.shiftedIn (0 + 1)
    else p.receivedData.buffer 0) = _
  rw [if_pos (Nat.zero_le _)]

theorem min_maxBytes (sendLength receivedLength : Nat) :
    min receivedLength (maxBytes sendLength receivedLength) =
      min receivedLength HAL_ACI_MAX_LENGTH := by
  have hmin := min_le_maxBytes sendLength receivedLength
  have hle := maxBytes_le sendLength receivedLength
  omega

/-- What comes over the wire, by its length byte. -/
theorem event_eq (p : Poll) (d : HalAciData) :
    (mAciSpiTransfer p d).2.1.event =
      if p.shiftedIn 1 = 0 then none
      else some ((List.range (min (p.shiftedIn 1).toNat HAL_ACI_MAX_LENGTH + 1)).map
        (p.shiftedIn ∘ Nat.succ)) := by
  show frame ((List.range (maxBytes d.length _ + 1 + 1)).map p.shiftedIn).tail = _
  rw [List.range_succ_eq_map, List.map_cons, List.tail_cons, List.map_map, frame_map_range_min rfl,
    ← min_maxBytes d.length]
  rfl

/-- As much of the radio's message as there is room for goes over the wire. -/
theorem event_transfer (p : Poll) (d : HalAciData) :
    (mAciSpiTransfer p d).2.1.event = p.event.map (List.take (HAL_ACI_MAX_LENGTH + 1)) := by
  rw [event_eq, Poll.event]
  split_ifs
  · rfl
  · rw [Option.map_some, ← List.map_take, List.take_range, Nat.min_comm, Nat.add_min_add_right]
    rfl

/-- The radio's message goes over the wire whole. -/
theorem event_transfer_of_fits {p : Poll} (hp : p.Fits) (d : HalAciData) :
    (mAciSpiTransfer p d).2.1.event = p.event := by
  rw [event_eq, Nat.min_eq_left hp]
  rfl

/-- The sketch gets the bytes that went over the wire. -/
theorem event_exchanged (p : Poll) (d : HalAciData) :
    frame (mAciSpiTransfer p d).1.bytes = (mAciSpiTransfer p d).2.1.event := by
  have hle := min_le_maxBytes d.length (p.shiftedIn 1).toNat
  have hfirst := buffer_received p d
  have hlength : (mAciSpiTransfer p d).1.length = (p.shiftedIn 1).toNat :=
    congrArg UInt8.toNat hfirst
  have hbuffer : ∀ i : Fin (HAL_ACI_MAX_LENGTH + 1), i.val ≤ (mAciSpiTransfer p d).1.length →
      (p.shiftedIn ∘ Nat.succ) i.val = (mAciSpiTransfer p d).1.buffer i := by
    intro i hi
    rw [hlength] at hi
    have hlt := i.isLt
    exact (if_pos (by omega)).symm
  rw [HalAciData.frame_bytes, hfirst, HalAciData.bytes_eq_map _ _ hbuffer, hlength, event_eq]

/-- The sketch gets the event whole. -/
theorem event_received {p : Poll} (hp : p.Fits) (d : HalAciData) {m : Message}
    (hm : m.toHalAciData = (mAciSpiTransfer p d).1) :
    p.event = if m.buffer 0 = 0 then none else some m.bytes := by
  rw [← event_transfer_of_fits hp d, ← event_exchanged, ← hm]
  exact frame_bytes m

theorem Poll.Fits.received {p : Poll} (hp : p.Fits) (d : HalAciData) :
    (mAciSpiTransfer p d).1.length ≤ HAL_ACI_MAX_LENGTH := by
  show ((mAciSpiTransfer p d).1.buffer 0).toNat ≤ HAL_ACI_MAX_LENGTH
  rw [buffer_received]
  exact hp

theorem maxBytes_lt_iff {sendLength : Nat} (receivedLength : Nat)
    (h : sendLength ≤ HAL_ACI_MAX_LENGTH) :
    maxBytes sendLength receivedLength < HAL_ACI_MAX_LENGTH ↔
      receivedLength < HAL_ACI_MAX_LENGTH := by
  rw [HAL_ACI_MAX_LENGTH] at h
  rw [maxBytes, HAL_ACI_MAX_LENGTH]
  split_ifs <;> omega

theorem sent_transfer (p : Poll) (d : HalAciData) :
    (mAciSpiTransfer p d).2.1.sent =
      (List.range (maxBytes d.length (p.shiftedIn 1).toNat + 2)).map (p.byteToSend d) := rfl

/-- The byte behind `data_to_send` goes out when the radio's message has the full
length or a longer one, and only then. -/
theorem reads_beyond_iff (p : Poll) (d : Message) :
    (∃ b, (mAciSpiTransfer { p with beyond := b } d.toHalAciData).2.1.sent ≠
        (mAciSpiTransfer p d.toHalAciData).2.1.sent) ↔
      HAL_ACI_MAX_LENGTH ≤ (p.shiftedIn 1).toNat := by
  have hmax := maxBytes_lt_iff (p.shiftedIn 1).toNat d.fits
  constructor
  · rintro ⟨b, hne⟩
    by_contra hshort
    refine hne (List.map_congr_left fun i hi => ?_)
    have hlt := hmax.mpr (by omega)
    have hi' : i < HAL_ACI_MAX_LENGTH + 1 := by
      have hrange : i < maxBytes d.length (p.shiftedIn 1).toNat + 2 := List.mem_range.mp hi
      omega
    rw [Poll.byteToSend, dif_pos hi', Poll.byteToSend, dif_pos hi']
  · intro hlong
    refine ⟨p.beyond + 1, fun heq => ?_⟩
    have hlast : HAL_ACI_MAX_LENGTH + 1 < maxBytes d.length (p.shiftedIn 1).toNat + 2 := by omega
    have hbyte := congrArg (fun sent => sent[HAL_ACI_MAX_LENGTH + 1]?) heq
    rw [sent_transfer, sent_transfer] at hbyte
    simp only [List.getElem?_map, List.getElem?_range hlast, Option.map_some, Option.some.injEq,
      Poll.byteToSend, Nat.lt_irrefl, dite_false] at hbyte
    have hsucc := congrArg UInt8.toNat hbyte
    have hlt := p.beyond.toNat_lt
    rw [UInt8.toNat_add, show (1 : UInt8).toNat = 1 from rfl] at hsucc
    omega

/-- **The transfer.**  The radio gets every command whole, and the sketch gets as
much of the radio's message as there is room for.  When that has the full length or
a longer one, and only then, a byte from behind the command goes out. -/
theorem mAciSpiTransfer_exchanges (p : Poll) (d : Message) :
    (mAciSpiTransfer p d.toHalAciData).2.1.command = frame d.bytes ∧
      frame (mAciSpiTransfer p d.toHalAciData).1.bytes =
        (mAciSpiTransfer p d.toHalAciData).2.1.event ∧
      (mAciSpiTransfer p d.toHalAciData).2.1.event =
        p.event.map (List.take (HAL_ACI_MAX_LENGTH + 1)) ∧
      ((∃ b, (mAciSpiTransfer { p with beyond := b } d.toHalAciData).2.1.sent ≠
          (mAciSpiTransfer p d.toHalAciData).2.1.sent) ↔
        HAL_ACI_MAX_LENGTH ≤ (p.shiftedIn 1).toNat) :=
  ⟨command_transfer p d, event_exchanged p _, event_transfer p _, reads_beyond_iff p d⟩

/-- A radio that writes `bytes` behind its status byte. -/
def Poll.ofBytes (rdyn : Bool) (bytes : List UInt8) : Poll where
  rdyn := rdyn
  shiftedIn i := (0 :: bytes).getD i 0
  dataToSend := .ofBytes []
  receivedData := .ofBytes []
  beyond := 0

/-! ## The functions of the transport layer -/

/-- The queues, the level of REQN, how often the lines have been looked at, and
what has been seen at the two ends so far, oldest first: the transfers, the commands
that `hal_aci_tl_send` took and the events that `hal_aci_tl_event_get` gave out.
`txOverrun` and `rxOverrun` say whether a queue has taken a message that it had no
room for. -/
structure Link where
  txQ : AciQueue
  rxQ : AciQueue
  reqn : Bool
  looks : Nat
  wire : List Transfer
  queued : List (List UInt8)
  delivered : List (List UInt8)
  txOverrun : Bool
  rxOverrun : Bool

/-- The commands that the radio has read. -/
def Link.commands (l : Link) : List (List UInt8) := l.wire.filterMap Transfer.command

/-- The events that the radio has written. -/
def Link.events (l : Link) : List (List UInt8) := l.wire.filterMap Transfer.event

/-- The queues after `hal_aci_tl_init`. -/
def Link.init (txQ rxQ : AciQueue) : Link where
  txQ := txQ.init
  rxQ := rxQ.init
  reqn := true
  looks := 0
  wire := []
  queued := []
  delivered := []
  txOverrun := false
  rxOverrun := false

/-- `m_aci_reqn_enable`, if there is something to send and room for the answer. -/
def Link.request (l : Link) : Link :=
  if !l.rxQ.isFull && !l.txQ.isEmpty then { l with reqn := false } else l

/-- The call of `aci_queue_enqueue` on the receive queue. -/
def Link.receive (l : Link) (received_data : Message) : Option Link :=
  let (accepted, rxQ) := l.rxQ.enqueue received_data
  if accepted then some { l with rxQ := rxQ, rxOverrun := l.rxOverrun || decide l.rxQ.Overrun }
  else none -- while(1);

/-- What `data_to_send` is after `aci_queue_dequeue`. -/
def Poll.command (p : Poll) : Option Message → HalAciData
  | some data_to_send => data_to_send.toHalAciData
  | none => -- queue was empty, nothing to send
    { statusByte := 0
      buffer := Function.update p.dataToSend.buffer ⟨0, Nat.succ_pos _⟩ 0 }

/-- What `m_aci_event_check` does with the data that it received. -/
def Link.check (l : Link) (received_data : HalAciData) : Option Link :=
  if received_data.length > 0 then
    if h : received_data.length ≤ HAL_ACI_MAX_LENGTH then l.receive ⟨received_data, h⟩
    else none -- the memcpy of aci_queue_enqueue leaves the slot
  else some l

/-- The transfer of `m_aci_event_check`, with RDYN low. -/
def Link.exchange (l : Link) (p : Poll) : Option Link :=
  let (data_to_send, txQ) := l.txQ.dequeue
  let (received_data, transfer, _) := mAciSpiTransfer p (p.command data_to_send)
  { l with txQ := txQ, reqn := true, wire := l.wire ++ [transfer] }.request.check received_data

section Functions

-- What the radio does may depend on everything that has happened.
variable (radio : Link → Poll)

def mAciEventCheck : StateT Link Option Unit := fun l =>
  if l.rxQ.isFull then some ((), l) -- No room to store incoming messages
  else
    let p := radio l
    let l := { l with looks := l.looks + 1 }
    if p.rdyn then some ((), if l.txQ.isEmpty then l else { l with reqn := false })
    else (l.exchange p).map fun l => ((), l)

def halAciTlEventPeek : StateT Link Option (Option Message) := do
  mAciEventCheck radio
  return (← get).rxQ.peek

/-- The second half of `hal_aci_tl_event_get`. -/
def takeEvent : StateT Link Option (Option Message) := fun l =>
  match l.rxQ.dequeue with
  | (some p_aci_data, rxQ) =>
    let l := { l with rxQ := rxQ, delivered := l.delivered ++ [p_aci_data.bytes] }
    some (some p_aci_data, l.request)
  | (none, _) => some (none, l)

/-- The first `if` of `hal_aci_tl_event_get`. -/
def checkIfRoom : StateT Link Option Unit := fun l =>
  if !l.rxQ.isFull then mAciEventCheck radio l else some ((), l)

def halAciTlEventGet : StateT Link Option (Option Message) := do
  checkIfRoom radio
  takeEvent

end Functions

def halAciTlSend (p_aci_cmd : HalAciData) : StateT Link Option Bool := fun l =>
  if h : p_aci_cmd.length ≤ HAL_ACI_MAX_LENGTH then
    let (accepted, txQ) := l.txQ.enqueue ⟨p_aci_cmd, h⟩
    if accepted then
      let txOverrun := l.txOverrun || decide l.txQ.Overrun
      let queued := l.queued ++ [p_aci_cmd.bytes]
      let l := { l with txQ := txQ, txOverrun := txOverrun, queued := queued }
      some (true, if l.rxQ.isFull then l else { l with reqn := false })
    else some (false, l)
  else some (false, l)

/-! ## One look at the lines -/

/-- What a look at the lines has done to the receive queue. -/
inductive Received (l l' : Link) (event : Option (List UInt8)) : Prop where
  | nothing (hevent : event = none) (hrx : l'.rxQ = l.rxQ) (hover : l'.rxOverrun = l.rxOverrun)
  | message (m : Message) (hevent : event = some m.bytes) (hrx : l'.rxQ = (l.rxQ.enqueue m).2)
      (hover : l'.rxOverrun = (l.rxOverrun || decide l.rxQ.Overrun))

/-- What a look at the lines that found `p` has done to the queues and the log. -/
inductive Looked (p : Poll) (l l' : Link) : Prop where
  /-- Nothing was shifted. -/
  | idle (htx : l'.txQ = l.txQ) (hrx : l'.rxQ = l.rxQ) (hwire : l'.wire = l.wire)
      (hover : l'.rxOverrun = l.rxOverrun)
      (hwhy : l.rxQ.isFull = true ∨ p.rdyn = true ∧ l'.reqn = (l.reqn && l.txQ.isEmpty))
  /-- The front of the send queue was shifted out, and an event came in. -/
  | transfer (t : Transfer) (hroom : l.rxQ.isFull = false) (hrdyn : p.rdyn = false)
      (htx : l'.txQ = l.txQ.dequeue.2) (hreqn : l'.reqn = l'.txQ.isEmpty)
      (hcommand : t.command = l.txQ.dequeue.1.bind fun d => frame d.bytes)
      (hevent : t.event = p.event)
      (hrx : Received l l' t.event) (hwire : l'.wire = l.wire ++ [t])

/-- What a look at the lines never changes. -/
structure Kept (l l' : Link) : Prop where
  queued : l'.queued = l.queued
  delivered : l'.delivered = l.delivered
  txOverrun : l'.txOverrun = l.txOverrun

theorem Link.request_eq (l : Link) :
    l.request = { l with reqn := l.reqn && (l.rxQ.isFull || l.txQ.isEmpty) } := by
  rw [request]
  cases l.rxQ.isFull <;> cases l.txQ.isEmpty <;> cases l <;> simp

/-- The `while(1)` behind a full receive queue is never reached. -/
theorem Link.receive_eq {l : Link} (h : l.rxQ.isFull = false) (m : Message) :
    l.receive m =
      some { l with
        rxQ := (l.rxQ.enqueue m).2, rxOverrun := l.rxOverrun || decide l.rxQ.Overrun } := by
  have haccepted : (l.rxQ.enqueue m).1 = true := by
    rw [AciQueue.enqueue_fst, h]
    rfl
  rw [receive]
  exact if_pos haccepted

theorem command_exchange (p : Poll) (command : Option Message) :
    (mAciSpiTransfer p (p.command command)).2.1.command = command.bind fun d => frame d.bytes := by
  cases command with
  | none =>
    refine command_transfer_of_empty p ?_
    show Function.update p.dataToSend.buffer 0 (0 : UInt8) 0 = 0
    rw [Function.update_self]
  | some d => exact command_transfer p d

/-- The data that was received goes into the receive queue, unless it is empty. -/
theorem Link.check_eq {l : Link} (hroom : l.rxQ.isFull = false) {r : HalAciData}
    (hr : r.length ≤ HAL_ACI_MAX_LENGTH) :
    r.buffer 0 = 0 ∧ l.check r = some l ∨
      r.buffer 0 ≠ 0 ∧ l.check r =
        some { l with
          rxQ := (l.rxQ.enqueue ⟨r, hr⟩).2
          rxOverrun := l.rxOverrun || decide l.rxQ.Overrun } := by
  have hlength : r.length = 0 ↔ r.buffer 0 = 0 := by
    rw [← UInt8.toNat_inj]
    rfl
  by_cases h0 : r.length = 0
  · left
    refine ⟨hlength.mp h0, ?_⟩
    rw [check, if_neg (by omega)]
  · right
    refine ⟨fun hb => h0 (hlength.mpr hb), ?_⟩
    rw [check, if_pos (by omega), dif_pos hr, receive_eq hroom]

theorem exchange_looked {l : Link} {p : Poll} (hroom : l.rxQ.isFull = false)
    (hrdyn : p.rdyn = false) (hp : p.Fits) :
    ∃ l', l.exchange p = some l' ∧ Looked p l l' ∧ Kept l l' := by
  let d := p.command l.txQ.dequeue.1
  let t := mAciSpiTransfer p d
  let l₁ : Link :=
    { l with
      txQ := l.txQ.dequeue.2, reqn := l.txQ.dequeue.2.isEmpty, wire := l.wire ++ [t.2.1] }
  have hrequest : { l with
      txQ := l.txQ.dequeue.2, reqn := true, wire := l.wire ++ [t.2.1] }.request = l₁ := by
    rw [Link.request_eq]
    show { l₁ with reqn := true && (l.rxQ.isFull || l.txQ.dequeue.2.isEmpty) } = l₁
    rw [hroom]
    rfl
  have hexchange : l.exchange p = l₁.check t.1 := congrArg (fun l => Link.check l t.1) hrequest
  have hr : t.1.length ≤ HAL_ACI_MAX_LENGTH := hp.received d
  have hevent : t.2.1.event = p.event := event_transfer_of_fits hp d
  have hreceived := event_received hp d (m := ⟨t.1, hr⟩) rfl
  have hcommand := command_exchange p l.txQ.dequeue.1
  rw [hexchange]
  rcases Link.check_eq (l := l₁) hroom hr with ⟨h0, heq⟩ | ⟨h0, heq⟩
  · refine ⟨_, heq, .transfer t.2.1 hroom hrdyn rfl rfl hcommand hevent ?_ rfl, rfl, rfl, rfl⟩
    exact .nothing (hevent.trans (hreceived.trans (if_pos h0))) rfl rfl
  · refine ⟨_, heq, .transfer t.2.1 hroom hrdyn rfl rfl hcommand hevent ?_ rfl, rfl, rfl, rfl⟩
    exact .message _ (hevent.trans (hreceived.trans (if_neg h0))) rfl rfl

/-- One look at the lines ends, whatever the queues hold. -/
theorem mAciEventCheck_looked {radio : Link → Poll} (l : Link) (hfits : (radio l).Fits) :
    Returns (mAciEventCheck radio) l fun _ l' => Looked (radio l) l l' ∧ Kept l l' := by
  by_cases hfull : l.rxQ.isFull = true
  · exact ⟨(), l, if_pos hfull, .idle rfl rfl rfl rfl (Or.inl hfull), rfl, rfl, rfl⟩
  have hroom : l.rxQ.isFull = false := Bool.eq_false_iff.mpr hfull
  let l₁ : Link := { l with looks := l.looks + 1 }
  by_cases hrdyn : (radio l).rdyn = true
  · refine ⟨(), if l.txQ.isEmpty then l₁ else { l₁ with reqn := false }, ?_, ?_⟩
    · rw [mAciEventCheck, if_neg hfull]
      exact if_pos hrdyn
    · split
      · rename_i hempty
        refine ⟨.idle rfl rfl rfl rfl (Or.inr ⟨hrdyn, ?_⟩), rfl, rfl, rfl⟩
        rw [hempty, Bool.and_true]
      · rename_i hempty
        refine ⟨.idle rfl rfl rfl rfl (Or.inr ⟨hrdyn, ?_⟩), rfl, rfl, rfl⟩
        rw [Bool.eq_false_iff.mpr hempty, Bool.and_false]
  · obtain ⟨l', heq, hlooked, hkept⟩ :=
      exchange_looked (l := l₁) hroom (Bool.eq_false_iff.mpr hrdyn) hfits
    refine ⟨(), l', ?_, ?_, hkept.queued, hkept.delivered, hkept.txOverrun⟩
    · rw [mAciEventCheck, if_neg hfull]
      refine (if_neg hrdyn).trans ?_
      show (l₁.exchange (radio l)).map _ = _
      rw [heq]
      rfl
    · cases hlooked with
      | idle htx hrx hwire hover hwhy => exact .idle htx hrx hwire hover hwhy
      | transfer t hroom hrdyn htx hreqn hcommand hevent hrx hwire =>
        refine .transfer t hroom hrdyn htx hreqn hcommand hevent ?_ hwire
        cases hrx with
        | nothing hevent hrx hover => exact .nothing hevent hrx hover
        | message m hevent hrx hover => exact .message m hevent hrx hover

/-! ## Runs -/

/-- What an enqueue does to a queue that has room. -/
theorem AciQueue.enqueue_room {q : AciQueue} (hq : q.Bounded) (hfull : q.isFull = false)
    (h : ¬ q.Overrun) (m : Message) :
    (q.enqueue m).2.Bounded ∧ (q.enqueue m).2.contents = q.contents ++ [m.bytes] := by
  have hroom : q.occupancy < ACI_QUEUE_SIZE := hq.room hfull h
  refine ⟨?_, contents_enqueue hroom m⟩
  rw [Bounded, occupancy_enqueue hroom]
  exact hroom

/-- Nothing is lost, added or reordered on the way to the radio. -/
structure Link.TxSound (l : Link) : Prop where
  bounded : l.txQ.Bounded
  law : ∃ out, l.queued = out ++ l.txQ.contents ∧ out.filterMap frame = l.commands

/-- Nothing is lost, added or reordered on the way from the radio. -/
structure Link.RxSound (l : Link) : Prop where
  bounded : l.rxQ.Bounded
  law : l.events = l.delivered ++ l.rxQ.contents

/-- The invariant of all functions.  A queue is overrun by its 257th message at
the earliest. -/
structure Link.Inv (l : Link) : Prop where
  tx : l.txOverrun = false → l.TxSound
  rx : l.rxOverrun = false → l.RxSound
  txCount : l.txQ.count ≤ l.queued.length
  rxCount : l.rxQ.count ≤ l.events.length
  txLate : l.txOverrun = true → 256 < l.queued.length
  rxLate : l.rxOverrun = true → 256 < l.events.length

theorem Link.init_inv (txQ rxQ : AciQueue) : (Link.init txQ rxQ).Inv where
  tx _ := by
    refine ⟨txQ.init_bounded, [], ?_, rfl⟩
    show [] = [] ++ txQ.init.contents
    rw [AciQueue.contents_init]
    rfl
  rx _ := by
    refine ⟨rxQ.init_bounded, ?_⟩
    show _ = _ ++ rxQ.init.contents
    rw [AciQueue.contents_init]
    rfl
  txCount := (AciQueue.count_init txQ).le
  rxCount := (AciQueue.count_init rxQ).le
  txLate h := by cases h
  rxLate h := by cases h

theorem Link.TxSound.filterMap_queued {l : Link} (h : l.TxSound) :
    l.queued.filterMap frame = l.commands ++ l.txQ.contents.filterMap frame := by
  obtain ⟨out, hqueued, hout⟩ := h.law
  rw [hqueued, List.filterMap_append, hout]

theorem commands_append {l l' : Link} {t : Transfer} (hwire : l'.wire = l.wire ++ [t]) :
    l'.commands = l.commands ++ t.command.toList := by
  rw [Link.commands, hwire, List.filterMap_append]
  refine congrArg _ ?_
  rw [List.filterMap_cons]
  cases t.command <;> rfl

/-- A command that is shifted out leaves the send queue. -/
theorem commands_shifted {l l' : Link} {t : Transfer} (hwire : l'.wire = l.wire ++ [t])
    (hcommand : t.command = l.txQ.dequeue.1.bind fun d => frame d.bytes)
    (h : ∃ out, l.queued = out ++ l.txQ.contents ∧ out.filterMap frame = l.commands) :
    ∃ out, l.queued = out ++ l.txQ.dequeue.2.contents ∧ out.filterMap frame = l'.commands := by
  obtain ⟨out, hqueued, hout⟩ := h
  refine ⟨out ++ (l.txQ.dequeue.1.map Message.bytes).toList, ?_, ?_⟩
  · rw [hqueued, AciQueue.contents_eq_append, List.append_assoc]
  · rw [List.filterMap_append, hout, commands_append hwire, hcommand]
    cases l.txQ.dequeue.1 with
    | none => rfl
    | some d =>
      refine congrArg _ ?_
      show [d.bytes].filterMap frame = (frame d.bytes).toList
      rw [List.filterMap_cons]
      cases frame d.bytes <;> rfl

theorem events_append {l l' : Link} {t : Transfer} (hwire : l'.wire = l.wire ++ [t]) :
    l'.events = l.events ++ t.event.toList := by
  rw [Link.events, hwire, List.filterMap_append]
  refine congrArg _ ?_
  rw [List.filterMap_cons]
  cases t.event <;> rfl

theorem Looked.tx {p : Poll} {l l' : Link} (h : Looked p l l') (hkept : Kept l l') (hl : l.Inv) :
    (l'.txOverrun = false → l'.TxSound) ∧ l'.txQ.count ≤ l'.queued.length ∧
      (l'.txOverrun = true → 256 < l'.queued.length) := by
  rw [hkept.txOverrun, hkept.queued]
  have hcount := hl.txCount
  cases h with
  | idle htx hrx hwire hover =>
    refine ⟨fun hclean => ⟨htx ▸ (hl.tx hclean).bounded, ?_⟩, htx ▸ hcount, hl.txLate⟩
    rw [hkept.queued, htx, Link.commands, hwire]
    exact (hl.tx hclean).law
  | transfer t hroom hrdyn htx hreqn hcommand hevent hrx hwire =>
    refine ⟨fun hclean => ⟨?_, ?_⟩, ?_, hl.txLate⟩
    · rw [htx]
      exact AciQueue.dequeue_bounded (hl.tx hclean).bounded
    · rw [hkept.queued, htx]
      exact commands_shifted hwire hcommand (hl.tx hclean).law
    · rw [htx]
      exact Nat.le_trans (AciQueue.count_dequeue_le _) hcount

theorem Looked.rx {p : Poll} {l l' : Link} (h : Looked p l l') (hkept : Kept l l') (hl : l.Inv) :
    (l'.rxOverrun = false → l'.RxSound) ∧ l'.rxQ.count ≤ l'.events.length ∧
      (l'.rxOverrun = true → 256 < l'.events.length) := by
  have hcount := hl.rxCount
  cases h with
  | idle htx hrx hwire hover =>
    have hevents : l'.events = l.events := congrArg (List.filterMap Transfer.event) hwire
    rw [hover, hevents]
    refine ⟨fun hclean => ⟨hrx ▸ (hl.rx hclean).bounded, ?_⟩, hrx ▸ hcount, hl.rxLate⟩
    rw [hevents, hrx, hkept.delivered]
    exact (hl.rx hclean).law
  | transfer t hroom hrdyn htx hreqn hcommand hevent hrx hwire =>
    have hevents := events_append hwire
    cases hrx with
    | nothing hevent hrx hover =>
      rw [hevent, Option.toList_none, List.append_nil] at hevents
      rw [hover, hevents]
      refine ⟨fun hclean => ⟨hrx ▸ (hl.rx hclean).bounded, ?_⟩, hrx ▸ hcount, hl.rxLate⟩
      rw [hevents, hrx, hkept.delivered]
      exact (hl.rx hclean).law
    | message m hevent hrx hover =>
      rw [hevent, Option.toList_some] at hevents
      have hlength : l'.events.length = l.events.length + 1 := by
        rw [hevents, List.length_append, List.length_singleton]
      rw [hover]
      refine ⟨fun hclean => ?_, ?_, fun hlost => ?_⟩
      · obtain ⟨hclean₀, hnot⟩ := Bool.or_eq_false_iff.mp hclean
        have hsound := hl.rx hclean₀
        obtain ⟨hbounded, hcontents⟩ :=
          AciQueue.enqueue_room hsound.bounded hroom (decide_eq_false_iff_not.mp hnot) m
        refine ⟨hrx ▸ hbounded, ?_⟩
        rw [hevents, hsound.law, hrx, hcontents, hkept.delivered, List.append_assoc]
      · have hpush := AciQueue.count_enqueue_le l.rxQ m
        rw [hrx]
        omega
      · rcases (Bool.or_eq_true _ _).mp hlost with hold | hnew
        · have hlate := hl.rxLate hold
          omega
        · have h256 := (of_decide_eq_true hnew : l.rxQ.Overrun).le_count
          omega

theorem Looked.inv {p : Poll} {l l' : Link} (h : Looked p l l') (hkept : Kept l l')
    (hl : l.Inv) : l'.Inv := by
  obtain ⟨htx, htxCount, htxLate⟩ := h.tx hkept hl
  obtain ⟨hrx, hrxCount, hrxLate⟩ := h.rx hkept hl
  exact ⟨htx, hrx, htxCount, hrxCount, htxLate, hrxLate⟩

/-- The level of REQN is not part of the invariant. -/
theorem Link.Inv.setReqn {l : Link} (hl : l.Inv) (reqn : Bool) : ({ l with reqn } : Link).Inv where
  tx hclean := ⟨(hl.tx hclean).bounded, (hl.tx hclean).law⟩
  rx hclean := ⟨(hl.rx hclean).bounded, (hl.rx hclean).law⟩
  txCount := hl.txCount
  rxCount := hl.rxCount
  txLate := hl.txLate
  rxLate := hl.rxLate

/-! ### The other functions -/

section Functions

variable {radio : Link → Poll}

theorem takeEvent_inv {l : Link} (hl : l.Inv) :
    Returns takeEvent l fun event l' => l'.Inv ∧ l'.queued = l.queued ∧
      l'.delivered = l.delivered ++ (event.map Message.bytes).toList := by
  rcases hpop : l.rxQ.dequeue with ⟨event, rxQ⟩
  cases event with
  | none => exact ⟨none, l, by rw [takeEvent, hpop], hl, rfl, (List.append_nil _).symm⟩
  | some m =>
    have hrest : l.rxQ.dequeue.2 = rxQ := congrArg Prod.snd hpop
    have hfront : l.rxQ.dequeue.1 = some m := congrArg Prod.fst hpop
    let l₁ : Link := { l with rxQ := rxQ, delivered := l.delivered ++ [m.bytes] }
    have hinv : l₁.Inv := by
      refine ⟨fun hclean => ?_, fun hclean => ⟨?_, ?_⟩, hl.txCount, ?_, hl.txLate, hl.rxLate⟩
      · exact ⟨(hl.tx hclean).bounded, (hl.tx hclean).law⟩
      · show rxQ.Bounded
        exact hrest ▸ AciQueue.dequeue_bounded (hl.rx hclean).bounded
      · show l.events = (l.delivered ++ [m.bytes]) ++ rxQ.contents
        rw [(hl.rx hclean).law, AciQueue.contents_eq_append, hfront, hrest, List.append_assoc]
        rfl
      · show rxQ.count ≤ l.events.length
        exact hrest ▸ Nat.le_trans (AciQueue.count_dequeue_le _) hl.rxCount
    have htake : takeEvent l = some (some m, l₁.request) := by
      rw [takeEvent, hpop]
    rw [Link.request_eq] at htake
    exact ⟨_, _, htake, hinv.setReqn _, rfl, rfl⟩

theorem checkIfRoom_looked (hradio : ∀ l, (radio l).Fits) (l : Link) :
    Returns (checkIfRoom radio) l fun _ l' => Looked (radio l) l l' ∧ Kept l l' := by
  by_cases hfull : l.rxQ.isFull = true
  · refine ⟨(), l, ?_, .idle rfl rfl rfl rfl (Or.inl hfull), rfl, rfl, rfl⟩
    rw [checkIfRoom, hfull]
    rfl
  · rw [Bool.not_eq_true] at hfull
    obtain ⟨_, l', heq, h⟩ := mAciEventCheck_looked l (hradio l)
    refine ⟨(), l', ?_, h⟩
    rw [checkIfRoom, hfull]
    exact heq

theorem halAciTlEventPeek_inv (hradio : ∀ l, (radio l).Fits) {l : Link} (hl : l.Inv) :
    Returns (halAciTlEventPeek radio) l fun event l' => l'.Inv ∧ Kept l l' ∧
      event = l'.rxQ.peek := by
  refine Returns.bind (mAciEventCheck_looked l (hradio l)) fun _ l' h => ?_
  exact ⟨_, l', rfl, h.1.inv h.2 hl, h.2, rfl⟩

theorem halAciTlEventGet_inv (hradio : ∀ l, (radio l).Fits) {l : Link} (hl : l.Inv) :
    Returns (halAciTlEventGet radio) l fun event l' => l'.Inv ∧ l'.queued = l.queued ∧
      l'.delivered = l.delivered ++ (event.map Message.bytes).toList := by
  refine Returns.bind (checkIfRoom_looked hradio l) fun _ l' h => ?_
  refine (takeEvent_inv (h.1.inv h.2 hl)).mono fun event l'' h' => ?_
  rw [← h.2.queued, ← h.2.delivered]
  exact h'

theorem halAciTlSend_inv {l : Link} (hl : l.Inv) (p_aci_cmd : HalAciData) :
    Returns (halAciTlSend p_aci_cmd) l fun accepted l' => l'.Inv ∧
      l'.queued = l.queued ++ (if accepted then [p_aci_cmd.bytes] else []) ∧
      l'.delivered = l.delivered := by
  by_cases hfits : p_aci_cmd.length ≤ HAL_ACI_MAX_LENGTH
  swap
  · exact ⟨false, l, dif_neg hfits, hl, (List.append_nil _).symm, rfl⟩
  let m : Message := ⟨p_aci_cmd, hfits⟩
  by_cases hfull : l.txQ.isFull = true
  · refine ⟨false, l, (dif_pos hfits).trans ?_, hl, (List.append_nil _).symm, rfl⟩
    rw [AciQueue.enqueue_of_isFull hfull]
    rfl
  have hroom : l.txQ.isFull = false := Bool.eq_false_iff.mpr hfull
  have haccepted : (l.txQ.enqueue m).1 = true := by
    rw [AciQueue.enqueue_fst, hroom]
    rfl
  let l₁ : Link :=
    { l with
      txQ := (l.txQ.enqueue m).2
      txOverrun := l.txOverrun || decide l.txQ.Overrun
      queued := l.queued ++ [p_aci_cmd.bytes] }
  have hlength : l₁.queued.length = l.queued.length + 1 := List.length_append
  have hinv : l₁.Inv := by
    have hcount := hl.txCount
    refine ⟨fun hclean => ?_, fun hclean => ?_, ?_, hl.rxCount, fun hlost => ?_, hl.rxLate⟩
    · obtain ⟨hclean₀, hnot⟩ := Bool.or_eq_false_iff.mp hclean
      have hsound := hl.tx hclean₀
      obtain ⟨hbounded, hcontents⟩ :=
        AciQueue.enqueue_room hsound.bounded hroom (decide_eq_false_iff_not.mp hnot) m
      obtain ⟨out, hqueued, hout⟩ := hsound.law
      refine ⟨hbounded, out, ?_, hout⟩
      show l.queued ++ [p_aci_cmd.bytes] = out ++ (l.txQ.enqueue m).2.contents
      rw [hcontents, hqueued, List.append_assoc]
      rfl
    · exact ⟨(hl.rx hclean).bounded, (hl.rx hclean).law⟩
    · have hpush := AciQueue.count_enqueue_le l.txQ m
      show (l.txQ.enqueue m).2.count ≤ l₁.queued.length
      omega
    · rcases (Bool.or_eq_true _ _).mp hlost with hold | hnew
      · have hlate := hl.txLate hold
        omega
      · have h256 := (of_decide_eq_true hnew : l.txQ.Overrun).le_count
        omega
  refine ⟨true, if l.rxQ.isFull then l₁ else { l₁ with reqn := false }, ?_, ?_⟩
  · exact (dif_pos hfits).trans (if_pos haccepted)
  · split
    · exact ⟨hinv, rfl, rfl⟩
    · exact ⟨hinv.setReqn false, rfl, rfl⟩

end Functions

/-! ### Sequences of calls -/

/-- What the layers above call. -/
inductive Call where
  | send (p_aci_cmd : HalAciData)
  | peek
  | get

namespace Call

def exec (radio : Link → Poll) : Call → StateT Link Option (Fifo.Reply Message)
  | send p_aci_cmd => do return .pushed (← halAciTlSend p_aci_cmd)
  | peek => do return .front (← halAciTlEventPeek radio)
  | get => do return .front (← halAciTlEventGet radio)

/-- The command that a call put into the send queue. -/
def accepted : Call → Fifo.Reply Message → List (List UInt8)
  | send p_aci_cmd, .pushed true => [p_aci_cmd.bytes]
  | _, _ => []

/-- The event that a call took out of the receive queue. -/
def taken : Call → Fifo.Reply Message → List (List UInt8)
  | get, .front (some m) => [m.bytes]
  | _, _ => []

variable {radio : Link → Poll}

theorem exec_inv (hradio : ∀ l, (radio l).Fits) {l : Link} (hl : l.Inv) (call : Call) :
    Returns (call.exec radio) l fun reply l' => l'.Inv ∧
      l'.queued = l.queued ++ call.accepted reply ∧
      l'.delivered = l.delivered ++ call.taken reply := by
  cases call with
  | send p_aci_cmd =>
    refine Returns.bind (halAciTlSend_inv hl p_aci_cmd) fun accepted l' h => Returns.pure ?_
    obtain ⟨hinv, hqueued, hdelivered⟩ := h
    refine ⟨hinv, ?_, hdelivered.trans (List.append_nil _).symm⟩
    rw [hqueued]
    cases accepted <;> rfl
  | peek =>
    refine Returns.bind (halAciTlEventPeek_inv hradio hl) fun front l' h => Returns.pure ?_
    obtain ⟨hinv, hkept, _⟩ := h
    exact ⟨hinv, hkept.queued.trans (List.append_nil _).symm,
      hkept.delivered.trans (List.append_nil _).symm⟩
  | get =>
    refine Returns.bind (halAciTlEventGet_inv hradio hl) fun event l' h => Returns.pure ?_
    obtain ⟨hinv, hqueued, hdelivered⟩ := h
    refine ⟨hinv, hqueued.trans (List.append_nil _).symm, ?_⟩
    rw [hdelivered]
    cases event <;> rfl

/-- What a sequence of calls has done. -/
structure Done (calls : List Call) (replies : List (Fifo.Reply Message)) (l : Link) : Prop where
  inv : l.Inv
  length : replies.length = calls.length
  queued : l.queued = (List.zipWith accepted calls replies).flatten
  delivered : l.delivered = (List.zipWith taken calls replies).flatten

theorem mapM_done (hradio : ∀ l, (radio l).Fits) (txQ rxQ : AciQueue) (calls : List Call) :
    Returns (calls.mapM (exec radio)) (Link.init txQ rxQ) (Done calls) := by
  refine Returns.mapM Done (fun done replies l call h => ?_) calls ?_
  · refine (exec_inv hradio h.inv call).mono fun reply l' h' => ?_
    obtain ⟨hinv, hqueued, hdelivered⟩ := h'
    have hlength : done.length = replies.length := h.length.symm
    refine ⟨hinv, by rw [List.length_append, List.length_append, h.length]; rfl, ?_, ?_⟩
    · rw [hqueued, h.queued, List.zipWith_append hlength, List.flatten_append]
      exact congrArg _ (List.append_nil _).symm
    · rw [hdelivered, h.delivered, List.zipWith_append hlength, List.flatten_append]
      exact congrArg _ (List.append_nil _).symm
  · exact ⟨Link.init_inv txQ rxQ, rfl, rfl, rfl⟩

end Call

/-- **The transport layer, with a radio whose length bytes are at most 31.**  Every
sequence of calls ends.  The commands that were taken are those that the radio has read
and those that still wait, and the events that the radio has written are those that
were given out and those that still wait, unless a queue was overrun, which takes 257
messages. -/
theorem calls_sound {radio : Link → Poll} (hradio : ∀ l, (radio l).Fits) (txQ rxQ : AciQueue)
    (calls : List Call) :
    Returns (calls.mapM (Call.exec radio)) (Link.init txQ rxQ) fun replies l =>
      (l.txOverrun = false →
        (List.zipWith Call.accepted calls replies).flatten.filterMap frame =
          l.commands ++ l.txQ.contents.filterMap frame) ∧
      (l.rxOverrun = false →
        l.events = (List.zipWith Call.taken calls replies).flatten ++ l.rxQ.contents) ∧
      (l.txOverrun = true →
        256 < (List.zipWith Call.accepted calls replies).flatten.length) ∧
      (l.rxOverrun = true → 256 < l.events.length) := by
  refine (Call.mapM_done hradio txQ rxQ calls).mono fun replies l h => ?_
  rw [← h.queued, ← h.delivered]
  exact ⟨fun hclean => (h.inv.tx hclean).filterMap_queued, fun hclean => (h.inv.rx hclean).law,
    h.inv.txLate, h.inv.rxLate⟩

theorem calls_sound_version :
    Returns ([Call.send (.ofBytes [1, 0x09]), .get].mapM
        (Call.exec fun _ => .ofBytes false [2, 0x8A, 1]))
      (Link.init .zero .zero) fun replies l =>
        (l.txOverrun = false →
          (List.zipWith Call.accepted [.send (.ofBytes [1, 0x09]), .get] replies).flatten.filterMap
              frame = l.commands ++ l.txQ.contents.filterMap frame) ∧
        (l.rxOverrun = false →
          l.events = (List.zipWith Call.taken [.send (.ofBytes [1, 0x09]), .get] replies).flatten ++
            l.rxQ.contents) ∧
        (l.txOverrun = true → 256 <
          (List.zipWith Call.accepted [.send (.ofBytes [1, 0x09]), .get] replies).flatten.length) ∧
        (l.rxOverrun = true → 256 < l.events.length) :=
  calls_sound (fun _ => by decide) .zero .zero _

end ArduinoProjects.Nrf8001
