import ArduinoProjects.BleRgb.Basic
import ArduinoProjects.Lib.Fifo

/-!
# The receive buffer

`src/libraries/RBL_nRF8001/src/RBL_nRF8001.cpp` keeps the bytes that arrive over the
air in `rx_buff` until the sketch reads them.  The array has one element more than the
buffer holds.  A pointer that has reached that element goes back to the first one just
before it is used, so that two different pointers may stand for the same place.

`contents` is the queue that the buffer stands for.  The sketches are modelled on
such a list, as `BleRgb.bleRead` is, and `rx_trace_eq` says that this is the same for
all sequences of calls.
-/

namespace ArduinoProjects.Nrf8001

abbrev MAX_RX_BUFF : Nat := 64

/-- `rx_buff`, `rx_buffer_len` and the indices of the elements that `p_before` and
`p_back` point to. -/
structure RxBuffer where
  rxBuff : Fin (MAX_RX_BUFF + 1) → UInt8
  rxBufferLen : UInt8
  pBefore : Fin (MAX_RX_BUFF + 1)
  pBack : Fin (MAX_RX_BUFF + 1)

/-! ## The functions -/

/-- The pointer, back at the first element if it is at the end. -/
def wrapped (p : Fin (MAX_RX_BUFF + 1)) : Fin (MAX_RX_BUFF + 1) :=
  if p = Fin.last MAX_RX_BUFF then 0 else p

namespace RxBuffer

/-- The static variables before the first call. -/
def init : RxBuffer where
  rxBuff _ := 0
  rxBufferLen := 0
  pBefore := 0
  pBack := 0

def bleRead : StateM RxBuffer Int := fun b =>
  if b.rxBufferLen = 0 then (-1, b)
  else
    let p_before := wrapped b.pBefore
    (((b.rxBuff p_before).toNat : Int),
      { b with pBefore := p_before + 1, rxBufferLen := b.rxBufferLen - 1 })

def bleAvailable (b : RxBuffer) : UInt8 := b.rxBufferLen

/-- One byte of a packet, with room for it. -/
def put (b : RxBuffer) (data : UInt8) : RxBuffer :=
  let p_back := wrapped b.pBack
  { b with
    rxBuff := Function.update b.rxBuff p_back data
    rxBufferLen := b.rxBufferLen + 1
    pBack := p_back + 1 }

/-- The loop over the bytes of `ACI_EVT_DATA_RECEIVED`, which a full buffer ends. -/
def receive (b : RxBuffer) : List UInt8 → RxBuffer
  | [] => b
  | data :: rest =>
    if b.rxBufferLen.toNat = MAX_RX_BUFF then b else receive (b.put data) rest

/-! ## The queue behind the buffer -/

/-- The 64 elements in use. -/
def slots (b : RxBuffer) (i : Fin 64) : UInt8 := b.rxBuff i.castSucc

def contents (b : RxBuffer) : List UInt8 :=
  Fifo.window b.slots b.pBefore.val b.rxBufferLen.toNat

/-- The pointers are as far apart as the number of bytes says. -/
structure Valid (b : RxBuffer) : Prop where
  le : b.rxBufferLen.toNat ≤ MAX_RX_BUFF
  back : b.pBack.val % 64 = (b.pBefore.val + b.rxBufferLen.toNat) % 64

theorem init_valid : init.Valid := ⟨by decide, by decide⟩

@[simp] theorem length_contents (b : RxBuffer) : b.contents.length = b.rxBufferLen.toNat :=
  Fifo.length_window _ _ _

theorem wrapped_val (p : Fin (MAX_RX_BUFF + 1)) : (wrapped p).val = p.val % 64 := by
  have hlt : p.val < 65 := p.isLt
  rw [wrapped]
  split_ifs with hlast
  · rw [hlast]
    rfl
  · have hne : p.val ≠ 64 := fun hval => hlast (Fin.ext hval)
    omega

/-- The pointer after the step to the next element. -/
theorem wrapped_add_one_val (p : Fin (MAX_RX_BUFF + 1)) :
    (wrapped p + 1).val = p.val % 64 + 1 := by
  have hwrapped := wrapped_val p
  rw [Fin.val_add, hwrapped]
  show (p.val % 64 + 1) % 65 = _
  omega

/-- The element in use that a pointer stands for. -/
theorem wrapped_eq_castSucc (p : Fin (MAX_RX_BUFF + 1)) :
    wrapped p = (Fifo.slot 64 p.val).castSucc := by
  refine Fin.ext ?_
  rw [wrapped_val]
  rfl

theorem slots_update (b : RxBuffer) (i : Fin 64) (data : UInt8) :
    (fun j : Fin 64 => Function.update b.rxBuff i.castSucc data j.castSucc) =
      Function.update b.slots i data := by
  funext j
  by_cases hj : j = i
  · rw [hj, Function.update_self, Function.update_self]
  · have hne : j.castSucc ≠ i.castSucc := fun h => hj (Fin.castSucc_injective 64 h)
    rw [Function.update_of_ne hj, Function.update_of_ne hne]
    rfl

theorem toNat_sub_one {n : UInt8} (h : n ≠ 0) : (n - 1).toNat = n.toNat - 1 := by
  have hpos : n.toNat ≠ 0 := fun h0 => h (UInt8.toNat_inj.mp h0)
  have hlt := n.toNat_lt
  rw [UInt8.toNat_sub, show (1 : UInt8).toNat = 1 from rfl]
  omega

/-- `ble_read` takes the byte at the head of the queue. -/
theorem bleRead_eq {b : RxBuffer} (hb : b.Valid) :
    (bleRead b).1 = (BleRgb.bleRead b.contents).1 ∧ (bleRead b).2.Valid ∧
      (bleRead b).2.contents = (BleRgb.bleRead b.contents).2 := by
  have hle : b.rxBufferLen.toNat ≤ 64 := hb.le
  have hback := hb.back
  by_cases hempty : b.rxBufferLen = 0
  · have hcontents : b.contents = [] := by
      rw [contents, hempty]
      rfl
    have hread : bleRead b = (-1, b) := if_pos hempty
    rw [hread]
    exact ⟨by rw [hcontents]; rfl, hb, by rw [hcontents]; rfl⟩
  · have hlen := toNat_sub_one hempty
    have hpos : b.rxBufferLen.toNat ≠ 0 := fun h0 => hempty (UInt8.toNat_inj.mp h0)
    have hnext := wrapped_add_one_val b.pBefore
    have hread : bleRead b = (((b.rxBuff (wrapped b.pBefore)).toNat : Int),
        { b with pBefore := wrapped b.pBefore + 1, rxBufferLen := b.rxBufferLen - 1 }) :=
      if_neg hempty
    have hcontents : b.contents = b.rxBuff (wrapped b.pBefore) ::
        Fifo.window b.slots (wrapped b.pBefore + 1).val (b.rxBufferLen - 1).toNat := by
      obtain ⟨k, hk⟩ : ∃ k, b.rxBufferLen.toNat = k + 1 := ⟨b.rxBufferLen.toNat - 1, by omega⟩
      have hstart : (b.pBefore.val + 1) % 64 = (wrapped b.pBefore + 1).val % 64 := by
        rw [hnext]
        omega
      rw [contents, hlen, hk, Fifo.window_cons, Fifo.window_congr hstart, wrapped_eq_castSucc]
      rfl
    rw [hread, hcontents]
    refine ⟨rfl, ⟨?_, ?_⟩, rfl⟩
    · show (b.rxBufferLen - 1).toNat ≤ 64
      omega
    · show b.pBack.val % 64 = ((wrapped b.pBefore + 1).val + (b.rxBufferLen - 1).toNat) % 64
      rw [hnext, hlen]
      omega

/-- A byte goes to the end of the queue. -/
theorem put_eq {b : RxBuffer} (hb : b.Valid) (hroom : b.rxBufferLen.toNat ≠ MAX_RX_BUFF)
    (data : UInt8) : (b.put data).Valid ∧ (b.put data).contents = b.contents ++ [data] := by
  have hlt : b.rxBufferLen.toNat < 64 := Nat.lt_of_le_of_ne hb.le hroom
  have hback := hb.back
  have hlen : (b.rxBufferLen + 1).toNat = b.rxBufferLen.toNat + 1 := by
    rw [UInt8.toNat_add, show (1 : UInt8).toNat = 1 from rfl]
    omega
  have hnext := wrapped_add_one_val b.pBack
  refine ⟨⟨?_, ?_⟩, ?_⟩
  · show (b.rxBufferLen + 1).toNat ≤ 64
    omega
  · show (wrapped b.pBack + 1).val % 64 = (b.pBefore.val + (b.rxBufferLen + 1).toNat) % 64
    rw [hnext, hlen]
    omega
  · have hslot : Fifo.slot 64 b.pBack.val = Fifo.slot 64 (b.pBefore.val + b.rxBufferLen.toNat) :=
      Fifo.slot_eq_iff.mpr hback
    have hslots : (b.put data).slots =
        Function.update b.slots (Fifo.slot 64 (b.pBefore.val + b.rxBufferLen.toNat)) data := by
      rw [← hslot, ← slots_update, ← wrapped_eq_castSucc]
      rfl
    show Fifo.window (b.put data).slots b.pBefore.val (b.rxBufferLen + 1).toNat = _
    rw [hslots, hlen]
    exact Fifo.window_push (by omega) data

/-- A packet goes to the end of the queue as far as there is room for it. -/
theorem receive_eq (data : List UInt8) {b : RxBuffer} (hb : b.Valid) :
    (b.receive data).Valid ∧
      (b.receive data).contents =
        b.contents ++ data.take (MAX_RX_BUFF - b.contents.length) := by
  induction data generalizing b with
  | nil => exact ⟨hb, by rw [List.take_nil, List.append_nil]; rfl⟩
  | cons byte rest ih =>
    rw [receive, length_contents]
    split_ifs with hfull
    · rw [hfull, Nat.sub_self, List.take_zero, List.append_nil]
      exact ⟨hb, rfl⟩
    · obtain ⟨hvalid, hcontents⟩ := put_eq hb hfull byte
      obtain ⟨hvalid', hcontents'⟩ := ih hvalid
      have hle := hb.le
      have hroom : MAX_RX_BUFF - b.rxBufferLen.toNat =
          MAX_RX_BUFF - (b.put byte).contents.length + 1 := by
        rw [hcontents, List.length_append, length_contents, List.length_singleton]
        omega
      refine ⟨hvalid', ?_⟩
      rw [hcontents', hroom, List.take_succ_cons, hcontents, List.append_assoc]
      rfl

end RxBuffer

/-! ## Sequences of calls -/

inductive RxCall where
  | read
  | available
  | receive (data : List UInt8)

/-- The buffer. -/
def rxBuffer : Machine RxBuffer RxCall (Option Int) where
  step b
    | .read => ((RxBuffer.bleRead b).2, some (RxBuffer.bleRead b).1)
    | .available => (b, some b.bleAvailable.toNat)
    | .receive data => (b.receive data, none)

/-- The queue of the sketches.  It takes what it has room for. -/
def rxQueue : Machine (List UInt8) RxCall (Option Int) where
  step rx
    | .read => ((BleRgb.bleRead rx).2, some (BleRgb.bleRead rx).1)
    | .available => (rx, some rx.length)
    | .receive data => (rx ++ data.take (MAX_RX_BUFF - rx.length), none)

theorem rxBuffer_step {b : RxBuffer} (hb : b.Valid) (call : RxCall) :
    rxBuffer.out b call = rxQueue.out b.contents call ∧
      ((rxBuffer.next b call).Valid ∧
        (rxBuffer.next b call).contents = rxQueue.next b.contents call) := by
  cases call with
  | read =>
    obtain ⟨hvalue, hvalid, hcontents⟩ := RxBuffer.bleRead_eq hb
    exact ⟨congrArg some hvalue, hvalid, hcontents⟩
  | available =>
    refine ⟨?_, hb, rfl⟩
    show some (b.rxBufferLen.toNat : Int) = some (b.contents.length : Int)
    rw [RxBuffer.length_contents]
  | receive data => exact ⟨rfl, RxBuffer.receive_eq data hb⟩

/-- **The receive buffer.**  Every sequence of packets, reads and questions gets the
answers of a queue of 64 bytes. -/
theorem rx_trace_eq (calls : List RxCall) :
    rxBuffer.trace .init calls = rxQueue.trace [] calls ∧
      (rxBuffer.run .init calls).contents = rxQueue.run [] calls := by
  have hrun : ∀ (calls : List RxCall) (b : RxBuffer), b.Valid →
      rxBuffer.trace b calls = rxQueue.trace b.contents calls ∧
        (rxBuffer.run b calls).contents = rxQueue.run b.contents calls := by
    intro calls
    induction calls with
    | nil => exact fun b _ => ⟨rfl, rfl⟩
    | cons call calls ih =>
      intro b hb
      obtain ⟨hout, hvalid, hcontents⟩ := rxBuffer_step hb call
      obtain ⟨htrace, hcontents'⟩ := ih _ hvalid
      rw [Machine.trace_cons, Machine.trace_cons, Machine.run_cons, Machine.run_cons, hout,
        htrace, hcontents', hcontents]
      exact ⟨rfl, rfl⟩
  exact hrun calls .init RxBuffer.init_valid

end ArduinoProjects.Nrf8001
