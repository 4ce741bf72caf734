import ArduinoProjects.Lib.Fifo
import Mathlib.Data.List.OfFn

/-!
# The queues between the sketch and the radio

`src/libraries/BLE_SDK_for_Arduino/src/aci_queue.cpp` keeps the commands for the
nRF8001 and the events that come from it in two circular queues of four messages.
`head` and `tail` are bytes that only count up.  A queue is full when `tail` is
`head + 4`, a sum of type `int` that has no wrap-around, while `tail` wraps
around at 256.  So a queue with `head` at 252 or above never looks full.

`trace_eq_iff` says exactly how far the queue is a queue of four messages: on all
runs that never put a message into a queue that holds four of them while `head` is
at 252 or above.
-/

namespace ArduinoProjects.Nrf8001

/-- `#define HAL_ACI_MAX_LENGTH 31` -/
def HAL_ACI_MAX_LENGTH : Nat := 31

/-- `#define ACI_QUEUE_SIZE 4` -/
def ACI_QUEUE_SIZE : Nat := 4

instance : NeZero ACI_QUEUE_SIZE := ⟨by decide⟩

instance : NeZero (HAL_ACI_MAX_LENGTH + 1) := ⟨by decide⟩

/-! ## Messages -/

/-- `hal_aci_data_t`.  The first byte of `buffer` is the number of the bytes
that follow it. -/
structure HalAciData where
  statusByte : UInt8
  buffer : Fin (HAL_ACI_MAX_LENGTH + 1) → UInt8

/-- Data whose first bytes are given. -/
def HalAciData.ofBytes (bytes : List UInt8) : HalAciData where
  statusByte := 0
  buffer i := bytes.getD i.val 0

/-- The number of bytes behind the length byte. -/
def HalAciData.length (d : HalAciData) : Nat := (d.buffer 0).toNat

/-- The length byte and the bytes that it counts. -/
def HalAciData.bytes (d : HalAciData) : List UInt8 := (List.ofFn d.buffer).take (d.length + 1)

/-- Data with a length byte that stays inside of `buffer`.  The `memcpy` of
`aci_queue_enqueue` is defined for these. -/
structure Message extends HalAciData where
  fits : toHalAciData.length ≤ HAL_ACI_MAX_LENGTH

namespace Message

def bytes (d : Message) : List UInt8 := d.toHalAciData.bytes

/-- `memcpy` of `length + 1` bytes over the message in a slot. -/
def overwrite (old p_data : Message) : Message where
  statusByte := 0
  buffer i := if i.val ≤ p_data.length then p_data.buffer i else old.buffer i
  fits := p_data.fits

theorem length_bytes (d : Message) : d.bytes.length = d.length + 1 := by
  have hfits := d.fits
  rw [bytes, HalAciData.bytes, List.length_take, List.length_ofFn]
  omega

theorem bytes_eq_of_agree {d e : Message} (hlength : d.length = e.length)
    (hbuffer : ∀ i : Fin (HAL_ACI_MAX_LENGTH + 1), i.val ≤ e.length → d.buffer i = e.buffer i) :
    d.bytes = e.bytes := by
  refine List.ext_getElem (by rw [length_bytes, length_bytes, hlength]) fun i hi hi' => ?_
  rw [length_bytes] at hi'
  simp only [bytes, HalAciData.bytes, List.getElem_take, List.getElem_ofFn]
  exact hbuffer _ (by show i ≤ e.length; omega)

/-- Only the bytes that are counted matter. -/
@[simp] theorem bytes_overwrite (old p_data : Message) :
    (overwrite old p_data).bytes = p_data.bytes :=
  bytes_eq_of_agree rfl fun _ hi => if_pos hi

end Message

/-! ## The queue -/

structure AciQueue where
  aciData : Fin ACI_QUEUE_SIZE → Message
  head : UInt8
  tail : UInt8

namespace AciQueue

/-- `aci_queue_init` clears the first two bytes of every slot. -/
def init (q : AciQueue) : AciQueue where
  aciData loop :=
    { statusByte := (q.aciData loop).statusByte
      buffer := fun i => if i.val < 2 then 0 else (q.aciData loop).buffer i
      fits := Nat.zero_le _ }
  head := 0
  tail := 0

def isEmpty (q : AciQueue) : Bool := q.head == q.tail

/-- `aci_q->tail == aci_q->head + ACI_QUEUE_SIZE`, where both sides are `int`. -/
def isFull (q : AciQueue) : Bool := q.tail.toNat == q.head.toNat + ACI_QUEUE_SIZE

/-- The slot of the next message to dequeue. -/
def front (q : AciQueue) : Message := q.aciData (Fifo.slot ACI_QUEUE_SIZE q.head.toNat)

def dequeue (q : AciQueue) : Option Message × AciQueue :=
  if q.isEmpty then (none, q)
  else (some q.front, { q with head := q.head + 1 })

def enqueue (q : AciQueue) (p_data : Message) : Bool × AciQueue :=
  if q.isFull then (false, q)
  else
    let slot := Fifo.slot ACI_QUEUE_SIZE q.tail.toNat
    (true,
      { q with
        aciData := Function.update q.aciData slot ((q.aciData slot).overwrite p_data)
        tail := q.tail + 1 })

def peek (q : AciQueue) : Option Message :=
  if q.isEmpty then none else some q.front

/-- The three operations as one machine. -/
def machine : Machine AciQueue (Fifo.Request Message) (Fifo.Reply Message) where
  step q
    | .push p_data => ((q.enqueue p_data).2, .pushed (q.enqueue p_data).1)
    | .pop => (q.dequeue.2, .front q.dequeue.1)
    | .peek => (q, .front q.peek)

/-- A queue before `aci_queue_init`, with nothing in its slots. -/
def zero : AciQueue where
  aciData _ := ⟨.ofBytes [], Nat.zero_le _⟩
  head := 0
  tail := 0

/-! ## What the queue holds -/

/-- The number of messages in the queue. -/
def occupancy (q : AciQueue) : Nat := (q.tail - q.head).toNat

/-- The messages in the queue, oldest first. -/
def contents (q : AciQueue) : List (List UInt8) :=
  (Fifo.window q.aciData q.head.toNat q.occupancy).map Message.bytes

/-- No more messages than slots. -/
def Bounded (q : AciQueue) : Prop := q.occupancy ≤ ACI_QUEUE_SIZE

@[simp] theorem length_contents (q : AciQueue) : q.contents.length = q.occupancy := by
  simp [contents]

theorem occupancy_eq (q : AciQueue) :
    q.occupancy = (256 + q.tail.toNat - q.head.toNat) % 256 := by
  have hhead := q.head.toNat_lt
  rw [occupancy, UInt8.toNat_sub]
  omega

theorem isEmpty_iff (q : AciQueue) : q.isEmpty = true ↔ q.occupancy = 0 := by
  have hhead := q.head.toNat_lt
  have htail := q.tail.toNat_lt
  rw [occupancy_eq, isEmpty, beq_iff_eq, ← UInt8.toNat_inj]
  omega

/-- A queue of four messages looks full unless `head` is about to wrap around. -/
theorem isFull_iff (q : AciQueue) :
    q.isFull = true ↔ q.occupancy = ACI_QUEUE_SIZE ∧ q.head.toNat < 252 := by
  have hhead := q.head.toNat_lt
  have htail := q.tail.toNat_lt
  rw [occupancy_eq, isFull, beq_iff_eq, show ACI_QUEUE_SIZE = 4 from rfl]
  omega

@[simp] theorem occupancy_init (q : AciQueue) : q.init.occupancy = 0 := by
  show ((0 : UInt8) - 0).toNat = 0
  decide

@[simp] theorem contents_init (q : AciQueue) : q.init.contents = [] := by
  rw [contents, occupancy_init, Fifo.window_zero, List.map_nil]

theorem init_bounded (q : AciQueue) : q.init.Bounded := by
  rw [Bounded, occupancy_init]
  exact Nat.zero_le _

theorem Bounded.not_isFull {q : AciQueue} (h : q.occupancy < ACI_QUEUE_SIZE) :
    q.isFull = false := by
  rw [Bool.eq_false_iff, Ne, isFull_iff]
  omega

/-! ## Enqueue -/

/-- A message that the queue takes although four messages are in it. -/
def Overrun (q : AciQueue) : Prop := q.occupancy = ACI_QUEUE_SIZE ∧ 252 ≤ q.head.toNat

instance (q : AciQueue) : Decidable q.Overrun :=
  inferInstanceAs (Decidable (_ ∧ _))

theorem enqueue_of_isFull {q : AciQueue} (h : q.isFull = true) (p_data : Message) :
    q.enqueue p_data = (false, q) := by
  rw [enqueue, if_pos h]

theorem enqueue_fst (q : AciQueue) (p_data : Message) : (q.enqueue p_data).1 = !q.isFull := by
  rw [enqueue]
  split <;> simp_all

/-- A queue that does not look full has room, unless it is overrun. -/
theorem Bounded.room {q : AciQueue} (hq : q.Bounded) (hfull : q.isFull = false)
    (h : ¬ q.Overrun) : q.occupancy < ACI_QUEUE_SIZE := by
  have hbounded : q.occupancy ≤ ACI_QUEUE_SIZE := hq
  rw [Bool.eq_false_iff, Ne, isFull_iff] at hfull
  rw [Overrun] at h
  omega

@[simp] theorem head_enqueue (q : AciQueue) (p_data : Message) :
    (q.enqueue p_data).2.head = q.head := by
  rw [enqueue]
  split <;> rfl

/-- The tail is the slot behind the messages of the queue. -/
theorem slot_tail (q : AciQueue) :
    Fifo.slot ACI_QUEUE_SIZE q.tail.toNat =
      Fifo.slot ACI_QUEUE_SIZE (q.head.toNat + q.occupancy) := by
  have hhead := q.head.toNat_lt
  have htail := q.tail.toNat_lt
  rw [Fifo.slot_eq_iff, occupancy_eq, show ACI_QUEUE_SIZE = 4 from rfl]
  omega

theorem occupancy_enqueue {q : AciQueue} (h : q.occupancy < ACI_QUEUE_SIZE) (p_data : Message) :
    (q.enqueue p_data).2.occupancy = q.occupancy + 1 := by
  have hhead := q.head.toNat_lt
  have htail := q.tail.toNat_lt
  have hfull : q.isFull = false := Bounded.not_isFull h
  rw [occupancy_eq, show ACI_QUEUE_SIZE = 4 from rfl] at h
  rw [occupancy_eq, occupancy_eq, enqueue, hfull]
  simp only [Bool.false_eq_true, if_false, UInt8.toNat_add]
  show (256 + (q.tail.toNat + 1) % 256 - q.head.toNat) % 256 = _
  omega

/-- A message that there is room for goes behind the others. -/
theorem contents_enqueue {q : AciQueue} (h : q.occupancy < ACI_QUEUE_SIZE) (p_data : Message) :
    (q.enqueue p_data).2.contents = q.contents ++ [p_data.bytes] := by
  have hocc : (q.enqueue p_data).2.occupancy = q.occupancy + 1 := occupancy_enqueue h p_data
  have hfull : q.isFull = false := Bounded.not_isFull h
  rw [contents, hocc, enqueue, hfull]
  simp only [Bool.false_eq_true, if_false]
  rw [slot_tail, Fifo.window_push h, List.map_append, List.map_singleton,
    Message.bytes_overwrite]
  rfl

/-! ## Dequeue and peek -/

theorem head?_contents {q : AciQueue} (h : q.occupancy ≠ 0) :
    q.contents.head? = some q.front.bytes := by
  rw [contents, List.head?_map, Fifo.head?_window (by omega)]
  rfl

theorem peek_bytes (q : AciQueue) : q.peek.map Message.bytes = q.contents.head? := by
  rw [peek]
  by_cases h : q.occupancy = 0
  · rw [if_pos ((isEmpty_iff q).mpr h), List.head?_eq_none_iff.mpr]
    · rfl
    · exact List.eq_nil_of_length_eq_zero (by rw [length_contents, h])
  · rw [if_neg (fun hempty => h ((isEmpty_iff q).mp hempty)), head?_contents h]
    rfl

theorem dequeue_fst (q : AciQueue) : q.dequeue.1 = q.peek := by
  rw [dequeue, peek]
  split <;> rfl

theorem occupancy_dequeue (q : AciQueue) : q.dequeue.2.occupancy = q.occupancy - 1 := by
  have hhead := q.head.toNat_lt
  have htail := q.tail.toNat_lt
  by_cases h : q.isEmpty = true
  · rw [dequeue, if_pos h, (isEmpty_iff q).mp h]
  · have hocc : q.occupancy ≠ 0 := fun h0 => h ((isEmpty_iff q).mpr h0)
    rw [occupancy_eq] at hocc
    rw [occupancy_eq, occupancy_eq, dequeue, if_neg h, UInt8.toNat_add]
    show (256 + q.tail.toNat - (q.head.toNat + 1) % 256) % 256 = _
    omega

theorem contents_dequeue (q : AciQueue) : q.dequeue.2.contents = q.contents.tail := by
  by_cases h : q.isEmpty = true
  · have hnil : q.contents = [] :=
      List.eq_nil_of_length_eq_zero (by rw [length_contents, (isEmpty_iff q).mp h])
    rw [dequeue, if_pos h, hnil, List.tail_nil]
  · rw [contents, occupancy_dequeue, contents, ← List.map_tail, Fifo.tail_window, dequeue,
      if_neg h]
    refine congrArg _ (Fifo.window_congr ?_ _)
    have hhead := q.head.toNat_lt
    rw [show ACI_QUEUE_SIZE = 4 from rfl, UInt8.toNat_add]
    show (q.head.toNat + 1) % 256 % 4 = (q.head.toNat + 1) % 4
    omega

theorem dequeue_bounded {q : AciQueue} (hq : q.Bounded) : q.dequeue.2.Bounded := by
  have hbounded : q.occupancy ≤ ACI_QUEUE_SIZE := hq
  rw [Bounded, occupancy_dequeue]
  omega

/-- The front of a queue goes out and the rest stays. -/
theorem contents_eq_append (q : AciQueue) :
    q.contents = (q.dequeue.1.map Message.bytes).toList ++ q.dequeue.2.contents := by
  rw [dequeue_fst, peek_bytes, contents_dequeue]
  cases q.contents <;> rfl

/-! ## How many messages have gone in -/

/-- Where the next message would go if `head` had no wrap-around.  Each message
that goes in adds at most one, and the overrun is at 256. -/
def count (q : AciQueue) : Nat := q.head.toNat + q.occupancy

@[simp] theorem count_init (q : AciQueue) : q.init.count = 0 := by
  rw [count, occupancy_init]
  rfl

theorem count_enqueue_le (q : AciQueue) (p_data : Message) :
    (q.enqueue p_data).2.count ≤ q.count + 1 := by
  have hhead := q.head.toNat_lt
  have htail := q.tail.toNat_lt
  rw [count, count, head_enqueue, occupancy_eq, occupancy_eq, head_enqueue, enqueue]
  split
  · exact Nat.le_succ _
  · rw [UInt8.toNat_add]
    show q.head.toNat + (256 + (q.tail.toNat + 1) % 256 - q.head.toNat) % 256 ≤ _
    omega

theorem count_dequeue_le (q : AciQueue) : q.dequeue.2.count ≤ q.count := by
  have hhead := q.head.toNat_lt
  rw [count, count, occupancy_dequeue]
  by_cases h : q.isEmpty = true
  · rw [dequeue, if_pos h]
    show q.head.toNat + (q.occupancy - 1) ≤ _
    omega
  · have hocc : q.occupancy ≠ 0 := fun h0 => h ((isEmpty_iff q).mpr h0)
    rw [dequeue, if_neg h, UInt8.toNat_add]
    show (q.head.toNat + 1) % 256 + (q.occupancy - 1) ≤ _
    omega

theorem Overrun.le_count {q : AciQueue} (h : q.Overrun) : 256 ≤ q.count := by
  obtain ⟨hocc, hhead⟩ := h
  rw [count, hocc]
  exact Nat.add_le_add_right hhead 4

/-! ## The queue of four messages -/

/-- The queue of `ACI_QUEUE_SIZE` messages that the code is meant to be. -/
abbrev spec : Machine (List (List UInt8)) (Fifo.Request (List UInt8)) (Fifo.Reply (List UInt8)) :=
  Fifo.queue (List UInt8) ACI_QUEUE_SIZE

/-- The step puts a message into a queue that is full without looking full. -/
def Overruns (q : AciQueue) (r : Fifo.Request Message) : Prop :=
  (∃ p_data, r = .push p_data) ∧ q.Overrun

theorem step_refines {q : AciQueue} (hq : q.Bounded) (r : Fifo.Request Message)
    (h : ¬ q.Overruns r) :
    (machine.out q r).map Message.bytes = spec.out q.contents (r.map Message.bytes) ∧
      (machine.next q r).Bounded ∧
      (machine.next q r).contents = spec.next q.contents (r.map Message.bytes) := by
  cases r with
  | push p_data =>
    by_cases hroom : q.occupancy < ACI_QUEUE_SIZE
    · have hspec : spec.step q.contents (.push p_data.bytes) =
          (q.contents ++ [p_data.bytes], .pushed true) := by
        show (if _ then _ else _) = _
        rw [length_contents, if_pos hroom]
      have hnext : (q.enqueue p_data).2.occupancy = q.occupancy + 1 := occupancy_enqueue hroom _
      refine ⟨?_, ?_, ?_⟩
      · show Fifo.Reply.pushed (q.enqueue p_data).1 = (spec.step _ (.push p_data.bytes)).2
        rw [enqueue_fst, Bounded.not_isFull hroom, hspec]
        rfl
      · show (q.enqueue p_data).2.occupancy ≤ ACI_QUEUE_SIZE
        omega
      · show (q.enqueue p_data).2.contents = (spec.step _ (.push p_data.bytes)).1
        rw [contents_enqueue hroom, hspec]
    · have hocc : q.occupancy = ACI_QUEUE_SIZE := by
        have hbounded : q.occupancy ≤ ACI_QUEUE_SIZE := hq
        omega
      have hhead : ¬ 252 ≤ q.head.toNat := fun h252 => h ⟨⟨p_data, rfl⟩, hocc, h252⟩
      have hfull : q.isFull = true := (isFull_iff q).mpr ⟨hocc, by omega⟩
      have hspec : spec.step q.contents (.push p_data.bytes) = (q.contents, .pushed false) := by
        show (if _ then _ else _) = _
        rw [length_contents, if_neg hroom]
      refine ⟨?_, ?_, ?_⟩
      · show Fifo.Reply.pushed (q.enqueue p_data).1 = (spec.step _ (.push p_data.bytes)).2
        rw [enqueue_of_isFull hfull, hspec]
      · show (q.enqueue p_data).2.Bounded
        rw [enqueue_of_isFull hfull]
        exact hq
      · show (q.enqueue p_data).2.contents = (spec.step _ (.push p_data.bytes)).1
        rw [enqueue_of_isFull hfull, hspec]
  | pop =>
    refine ⟨?_, ?_, contents_dequeue q⟩
    · show Fifo.Reply.front (q.dequeue.1.map Message.bytes) = .front q.contents.head?
      rw [dequeue_fst, peek_bytes]
    · exact dequeue_bounded hq
  | peek =>
    refine ⟨?_, hq, rfl⟩
    show Fifo.Reply.front (q.peek.map Message.bytes) = .front q.contents.head?
    rw [peek_bytes]

/-- A queue that is overrun takes a message that a queue of four messages refuses. -/
theorem out_ne_of_overruns {q : AciQueue} {r : Fifo.Request Message} (h : q.Overruns r) :
    (machine.out q r).map Message.bytes ≠ spec.out q.contents (r.map Message.bytes) := by
  obtain ⟨⟨p_data, rfl⟩, hocc, hhead⟩ := h
  have hfull : q.isFull = false := by
    rw [Bool.eq_false_iff, Ne, isFull_iff]
    omega
  have hspec : spec.out q.contents (.push p_data.bytes) = .pushed false := by
    show (if _ then _ else _ : _ × _).2 = _
    rw [length_contents, hocc, if_neg (Nat.lt_irrefl _)]
  show Fifo.Reply.pushed (q.enqueue p_data).1 ≠ spec.out _ (.push p_data.bytes)
  rw [enqueue_fst, hfull, hspec]
  decide

/-- **The queue.**  After `aci_queue_init` the queue answers like a queue of four
messages on exactly the runs that never overrun it. -/
theorem trace_eq_iff (q : AciQueue) (requests : List (Fifo.Request Message)) :
    (machine.trace q.init requests).map (Fifo.Reply.map Message.bytes) =
        spec.trace [] (requests.map (Fifo.Request.map Message.bytes)) ↔
      machine.Always (fun q r => ¬ q.Overruns r) q.init requests := by
  have h : (machine.trace q.init requests).map (Fifo.Reply.map Message.bytes) =
        (spec.trace [] (requests.map (Fifo.Request.map Message.bytes))).map id ↔ _ :=
    Machine.trace_eq_iff_always (Fifo.Request.map Message.bytes) (Fifo.Reply.map Message.bytes) id
    (R := fun q t => q.Bounded ∧ q.contents = t) (G := fun q r => ¬ q.Overruns r)
    (by
      rintro q _ r ⟨hq, rfl⟩ hr
      obtain ⟨hout, hbounded, hcontents⟩ := step_refines hq r hr
      exact ⟨hout, hbounded, hcontents⟩)
    (by
      rintro q _ r ⟨_, rfl⟩ hr
      exact out_ne_of_overruns (not_not.mp hr))
    ⟨init_bounded q, contents_init q⟩ requests
  rw [List.map_id] at h
  exact h

end AciQueue

end ArduinoProjects.Nrf8001
