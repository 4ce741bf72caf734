import ArduinoProjects.Dataflash.Wire
import ArduinoProjects.Lib.Machine

/-!
# The traffic is a sequence of commands

Every public function selects the chip, sends one or two frames and deselects it.
`perform_ifReturns` says which frames these are.  A frame is a command when it starts
with an opcode of `dataflash.h` and carries the bytes that the opcode takes.

The four functions with a buffer number send the opcode in an `if` with two cases
and no `else`.  For any other number no opcode is sent, and the first address byte
stands in its place.  `traffic_iff` says that this is the only way in which the
traffic goes wrong, whatever the chip and the clock answer.
-/

namespace ArduinoProjects.Dataflash

/-! ## The commands -/

/-- The opcodes of `dataflash.h` that the library never sends. -/
def AutoPageReWrBuf1 : UInt8 := 0x58
def AutoPageReWrBuf2 : UInt8 := 0x59
def FlashToBuf1Compare : UInt8 := 0x60
def FlashToBuf2Compare : UInt8 := 0x61
def ContArrayRead : UInt8 := 0x68
def FlashProgBuf1 : UInt8 := 0x82
def FlashProgBuf2 : UInt8 := 0x85
def Buf1ToFlash : UInt8 := 0x88
def Buf2ToFlash : UInt8 := 0x89
def PageErase : UInt8 := 0x81

/-- What follows an opcode. -/
inductive Takes where
  /-- Three address bytes. -/
  | address
  /-- Three address bytes, some dummy bytes and then data. -/
  | data (dummies : Nat)
  /-- A dummy byte, and then as many pairs of the opcode and a dummy byte. -/
  | polls
  deriving DecidableEq, Repr

def takes (opcode : UInt8) : Option Takes :=
  if opcode ∈ [FlashToBuf1Transfer, FlashToBuf2Transfer, AutoPageReWrBuf1, AutoPageReWrBuf2,
      FlashToBuf1Compare, FlashToBuf2Compare, Buf1ToFlashWE, Buf2ToFlashWE, Buf1ToFlash,
      Buf2ToFlash, PageErase] then some .address
  else if opcode ∈ [Buf1Write, Buf2Write, FlashProgBuf1, FlashProgBuf2] then some (.data 0)
  else if opcode ∈ [Buf1Read, Buf2Read] then some (.data 1)
  else if opcode ∈ [FlashPageRead, ContArrayRead] then some (.data 4)
  else if opcode = StatusReg then some .polls
  else none

/-- Pairs of the status opcode and a dummy byte. -/
def StatusPairs : List UInt8 → Prop
  | [] => True
  | [_] => False
  | opcode :: _ :: rest => opcode = StatusReg ∧ StatusPairs rest

/-- The bytes behind an opcode are what it takes. -/
def Carries (opcode : UInt8) (rest : List UInt8) : Option Takes → Prop
  | some .address => rest.length = 3
  | some (.data dummies) => 3 + dummies ≤ rest.length
  | some .polls => StatusPairs (opcode :: rest)
  | none => False

/-- The bytes of a frame are one command. -/
def WellFormed : List UInt8 → Prop
  | [] => False
  | opcode :: rest => Carries opcode rest (takes opcode)

/-! ## The public functions -/

/-- A call of a public function with its arguments. -/
inductive Call where
  | init
  | pageToBuffer (PageAdr : UInt16) (BufferNo : UInt8)
  | bufferReadStr (BufferNo : UInt8) (IntPageAdr No_of_bytes : UInt16)
  | pageReadStr (PageAdr IntPageAdr No_of_bytes : UInt16)
  | bufferWriteStr (BufferNo : UInt8) (IntPageAdr : UInt16) (BufferPtr : List UInt8)
  | bufferToPage (BufferNo : UInt8) (PageAdr : UInt16)

namespace Call

def perform {σ : Type} [SpiBus σ] (polls : Nat) : Call → SpiM σ Unit
  | init => do let _ ← Dataflash.init polls
  | pageToBuffer PageAdr BufferNo => Dataflash.pageToBuffer polls PageAdr BufferNo
  | bufferReadStr BufferNo IntPageAdr No_of_bytes => do
    let _ ← Dataflash.bufferReadStr BufferNo IntPageAdr No_of_bytes
  | pageReadStr PageAdr IntPageAdr No_of_bytes => do
    let _ ← Dataflash.pageReadStr PageAdr IntPageAdr No_of_bytes
  | bufferWriteStr BufferNo IntPageAdr BufferPtr =>
    Dataflash.bufferWriteStr BufferNo IntPageAdr BufferPtr
  | bufferToPage BufferNo PageAdr => Dataflash.bufferToPage polls BufferNo PageAdr

/-- The call takes no buffer, or one of the two that there are. -/
def BufferExists : Call → Prop
  | init | pageReadStr _ _ _ => True
  | pageToBuffer _ BufferNo | bufferReadStr BufferNo _ _ | bufferWriteStr BufferNo _ _
  | bufferToPage BufferNo _ => BufferNo = 1 ∨ BufferNo = 2

/-- The opcode for a buffer, which is missing for any other number than `1` and `2`. -/
def bufferOpcode (BufferNo opcode₁ opcode₂ : UInt8) : List UInt8 :=
  if 1 = BufferNo then [opcode₁] else if 2 = BufferNo then [opcode₂] else []

/-- The frames of a call whose wait takes `n + 1` polls. -/
def frames (n : Nat) : Call → List (List UInt8)
  | init => [Wire.pollBytes (n + 1)]
  | pageToBuffer PageAdr BufferNo =>
    [bufferOpcode BufferNo FlashToBuf1Transfer FlashToBuf2Transfer ++
      [highByte PageAdr, midByte PageAdr, 0], Wire.pollBytes (n + 1)]
  | bufferReadStr BufferNo IntPageAdr No_of_bytes =>
    [bufferOpcode BufferNo Buf1Read Buf2Read ++
      [(0x00 : UInt8), (IntPageAdr >>> 8).toUInt8, IntPageAdr.toUInt8, 0x00] ++
      List.replicate No_of_bytes.toNat 0x00]
  | pageReadStr PageAdr IntPageAdr No_of_bytes =>
    [[FlashPageRead, highByte PageAdr,
      ((PageAdr <<< (PageBits - 8)) ||| (IntPageAdr >>> 8).toUInt8.toUInt16).toUInt8,
      IntPageAdr.toUInt8, DUMMY_BYTE, DUMMY_BYTE, DUMMY_BYTE, DUMMY_BYTE] ++
      List.replicate No_of_bytes.toNat DUMMY_BYTE]
  | bufferWriteStr BufferNo IntPageAdr BufferPtr =>
    [bufferOpcode BufferNo Buf1Write Buf2Write ++
      [(0x00 : UInt8), (IntPageAdr >>> 8).toUInt8, IntPageAdr.toUInt8] ++ BufferPtr]
  | bufferToPage BufferNo PageAdr =>
    [bufferOpcode BufferNo Buf1ToFlashWE Buf2ToFlashWE ++
      [highByte PageAdr, midByte PageAdr, 0x00], Wire.pollBytes (n + 1)]

end Call

namespace Wire

variable {frames : List (List UInt8)} {bytes : List UInt8} {w : Wire}

/-! ## The frames of a call -/

/-- The choice of the opcode, in front of the rest of a function. -/
theorem select_ifReturns {α : Type} {rest : SpiM Wire α} {post : α → Wire → Prop}
    (BufferNo opcode₁ opcode₂ : UInt8) (h : w.InFrame frames [])
    (hrest : ∀ w', w'.InFrame frames (Call.bufferOpcode BufferNo opcode₁ opcode₂) →
      IfReturns rest w' post) :
    IfReturns
      (if 1 = BufferNo then Dataflash.transfer opcode₁ >>= fun _ => rest
        else if 2 = BufferNo then Dataflash.transfer opcode₂ >>= fun _ => rest
        else rest) w post := by
  unfold Call.bufferOpcode at hrest
  split_ifs at hrest ⊢
  · exact IfReturns.bind_returns (transfer_returns h opcode₁) fun _ w' h' => hrest w' h'
  · exact IfReturns.bind_returns (transfer_returns h opcode₂) fun _ w' h' => hrest w' h'
  · exact hrest w h

/-- The end of the functions that move a page: three address bytes, a strobe, the
wait for the chip. -/
theorem moveEnd_ifReturns (h : w.InFrame frames bytes) (polls : Nat) (high mid low : UInt8) :
    IfReturns
      (do
        let _ ← Dataflash.transfer high
        let _ ← Dataflash.transfer mid
        let _ ← Dataflash.transfer low
        strobe
        let _ ← waitForReady polls ONE_SECOND
        chipDeselect) w fun _ w' =>
      ∃ n, w'.Deselected (frames ++ [bytes ++ [high, mid, low], pollBytes (n + 1)]) := by
  refine IfReturns.bind_returns (transfer_returns h high) fun _ _ h => ?_
  refine IfReturns.bind_returns (transfer_returns h mid) fun _ _ h => ?_
  refine IfReturns.bind_returns (transfer_returns h low) fun _ _ h => ?_
  refine IfReturns.bind_returns (strobe_returns h) fun _ _ h => ?_
  refine IfReturns.bind (waitForReady_ifReturns h polls ONE_SECOND) fun _ _ h => ?_
  obtain ⟨n, h⟩ := h
  refine IfReturns.of_returns ((chipDeselect_returns h).mono fun _ _ h => ⟨n, ?_⟩)
  simpa using h

/-- The end of the functions that read bytes. -/
theorem readEnd_ifReturns (h : w.InFrame frames bytes) (data : List UInt8) :
    IfReturns
      (do
        let BufferPtr ← data.mapM Dataflash.transfer
        chipDeselect
        return BufferPtr) w fun _ w' => w'.Deselected (frames ++ [bytes ++ data]) := by
  refine IfReturns.bind_returns (transferAll_returns h data) fun _ _ h => ?_
  refine IfReturns.bind_returns (chipDeselect_returns h) fun _ _ h => ?_
  exact IfReturns.of_returns (Returns.pure h)

theorem bufferReadStr_ifReturns (h : w.Between frames) (BufferNo : UInt8)
    (IntPageAdr No_of_bytes : UInt16) :
    IfReturns (bufferReadStr BufferNo IntPageAdr No_of_bytes) w fun _ w' =>
      w'.Deselected
        (frames ++ (Call.bufferReadStr BufferNo IntPageAdr No_of_bytes).frames 0) := by
  refine IfReturns.bind_returns (chipSelect_returns h) fun _ _ h => ?_
  refine select_ifReturns BufferNo _ _ h fun _ h => ?_
  refine IfReturns.bind_returns (transfer_returns h _) fun _ _ h => ?_
  refine IfReturns.bind_returns (transfer_returns h _) fun _ _ h => ?_
  refine IfReturns.bind_returns (transfer_returns h _) fun _ _ h => ?_
  refine IfReturns.bind_returns (transfer_returns h _) fun _ _ h => ?_
  refine (readEnd_ifReturns h _).mono fun _ _ h => ?_
  simpa [Call.frames] using h

theorem pageReadStr_ifReturns (h : w.Between frames) (PageAdr IntPageAdr No_of_bytes : UInt16) :
    IfReturns (pageReadStr PageAdr IntPageAdr No_of_bytes) w fun _ w' =>
      w'.Deselected (frames ++ (Call.pageReadStr PageAdr IntPageAdr No_of_bytes).frames 0) := by
  refine IfReturns.bind_returns (chipSelect_returns h) fun _ _ h => ?_
  refine IfReturns.bind_returns (transfer_returns h _) fun _ _ h => ?_
  refine IfReturns.bind_returns (transfer_returns h _) fun _ _ h => ?_
  refine IfReturns.bind_returns (transfer_returns h _) fun _ _ h => ?_
  refine IfReturns.bind_returns (transfer_returns h _) fun _ _ h => ?_
  refine IfReturns.bind_returns (transfer_returns h _) fun _ _ h => ?_
  refine IfReturns.bind_returns (transfer_returns h _) fun _ _ h => ?_
  refine IfReturns.bind_returns (transfer_returns h _) fun _ _ h => ?_
  refine IfReturns.bind_returns (transfer_returns h _) fun _ _ h => ?_
  exact readEnd_ifReturns h _

theorem bufferWriteStr_ifReturns (h : w.Between frames) (BufferNo : UInt8) (IntPageAdr : UInt16)
    (BufferPtr : List UInt8) :
    IfReturns (bufferWriteStr BufferNo IntPageAdr BufferPtr) w fun _ w' =>
      w'.Deselected (frames ++ (Call.bufferWriteStr BufferNo IntPageAdr BufferPtr).frames 0) := by
  refine IfReturns.bind_returns (chipSelect_returns h) fun _ _ h => ?_
  refine select_ifReturns BufferNo _ _ h fun _ h => ?_
  refine IfReturns.bind_returns (transfer_returns h _) fun _ _ h => ?_
  refine IfReturns.bind_returns (transfer_returns h _) fun _ _ h => ?_
  refine IfReturns.bind_returns (transfer_returns h _) fun _ _ h => ?_
  refine IfReturns.bind_returns (transferAll_returns h BufferPtr) fun _ _ h => ?_
  refine IfReturns.of_returns ((chipDeselect_returns h).mono fun _ _ h => ?_)
  simpa [Call.frames] using h

theorem init_ifReturns (h : w.Between frames) (polls : Nat) :
    IfReturns (Dataflash.init polls) w fun _ w' =>
      ∃ n, w'.Deselected (frames ++ Call.init.frames n) := by
  refine IfReturns.bind_returns (spiBegin_returns h) fun _ _ h => ?_
  refine IfReturns.bind_returns (chipSelect_returns h) fun _ _ h => ?_
  refine IfReturns.bind (waitForReady_ifReturns h polls ONE_SECOND) fun _ _ h => ?_
  obtain ⟨n, h⟩ := h
  refine IfReturns.bind_returns (chipDeselect_returns h) fun _ _ h => ?_
  exact IfReturns.of_returns (Returns.pure ⟨n, h⟩)

/-- Every call that ends has sent its frames and has deselected the chip. -/
theorem perform_ifReturns (h : w.Between frames) (polls : Nat) (call : Call) :
    IfReturns (call.perform polls) w fun _ w' => ∃ n, w'.Deselected (frames ++ call.frames n) := by
  cases call with
  | init =>
    exact (init_ifReturns h polls).bind fun _ _ h => IfReturns.of_returns (Returns.pure h)
  | pageToBuffer PageAdr BufferNo =>
    refine IfReturns.bind_returns (chipSelect_returns h) fun _ _ h => ?_
    refine select_ifReturns BufferNo _ _ h fun _ h => ?_
    exact moveEnd_ifReturns h polls _ _ _
  | bufferReadStr BufferNo IntPageAdr No_of_bytes =>
    exact (bufferReadStr_ifReturns h BufferNo IntPageAdr No_of_bytes).bind fun _ _ h =>
      IfReturns.of_returns (Returns.pure ⟨0, h⟩)
  | pageReadStr PageAdr IntPageAdr No_of_bytes =>
    exact (pageReadStr_ifReturns h PageAdr IntPageAdr No_of_bytes).bind fun _ _ h =>
      IfReturns.of_returns (Returns.pure ⟨0, h⟩)
  | bufferWriteStr BufferNo IntPageAdr BufferPtr =>
    exact (bufferWriteStr_ifReturns h BufferNo IntPageAdr BufferPtr).mono fun _ _ h => ⟨0, h⟩
  | bufferToPage BufferNo PageAdr =>
    refine IfReturns.bind_returns (chipSelect_returns h) fun _ _ h => ?_
    refine select_ifReturns BufferNo _ _ h fun _ h => ?_
    exact moveEnd_ifReturns h polls _ _ _

end Wire

/-! ## Well-formed frames -/

theorem statusPairs_pollBytes (n : Nat) : StatusPairs (Wire.pollBytes n) := by
  induction n with
  | zero => trivial
  | succ n ih =>
    rw [Wire.pollBytes_succ]
    exact ⟨rfl, ih⟩

theorem wellFormed_pollBytes (n : Nat) : WellFormed (Wire.pollBytes (n + 1)) := by
  have hpairs := statusPairs_pollBytes (n + 1)
  rw [Wire.pollBytes_succ] at hpairs ⊢
  exact hpairs

/-- No opcode takes two bytes, and the polls come in pairs. -/
theorem not_wellFormed_three (high mid low : UInt8) : ¬ WellFormed [high, mid, low] := by
  show ¬ Carries high [mid, low] (takes high)
  cases takes high with
  | none => exact not_false
  | some kind =>
    cases kind with
    | address => simp [Carries]
    | data dummies =>
      show ¬ 3 + dummies ≤ 2
      omega
    | polls => exact fun h => h.2

theorem not_wellFormed_zero (rest : List UInt8) : ¬ WellFormed (0x00 :: rest) := not_false

/-- The opcode of a buffer, or no opcode. -/
theorem Call.bufferOpcode_cases (BufferNo opcode₁ opcode₂ : UInt8) :
    (BufferNo = 1 ∧ Call.bufferOpcode BufferNo opcode₁ opcode₂ = [opcode₁]) ∨
      (BufferNo = 2 ∧ Call.bufferOpcode BufferNo opcode₁ opcode₂ = [opcode₂]) ∨
      (¬ (BufferNo = 1 ∨ BufferNo = 2) ∧ Call.bufferOpcode BufferNo opcode₁ opcode₂ = []) := by
  unfold Call.bufferOpcode
  split_ifs with h₁ h₂
  · exact Or.inl ⟨h₁.symm, rfl⟩
  · exact Or.inr (Or.inl ⟨h₂.symm, rfl⟩)
  · refine Or.inr (Or.inr ⟨?_, rfl⟩)
    rintro (h | h)
    · exact h₁ h.symm
    · exact h₂ h.symm

/-- A frame that starts with the opcode of a buffer is well-formed exactly when the
buffer exists. -/
theorem wellFormed_bufferOpcode_iff {BufferNo opcode₁ opcode₂ : UInt8} {rest : List UInt8}
    (h₁ : WellFormed (opcode₁ :: rest)) (h₂ : WellFormed (opcode₂ :: rest))
    (hnone : ¬ WellFormed rest) :
    WellFormed (Call.bufferOpcode BufferNo opcode₁ opcode₂ ++ rest) ↔
      BufferNo = 1 ∨ BufferNo = 2 := by
  rcases Call.bufferOpcode_cases BufferNo opcode₁ opcode₂ with
    ⟨rfl, h⟩ | ⟨rfl, h⟩ | ⟨hne, h⟩
  · rw [h]
    exact iff_of_true h₁ (Or.inl rfl)
  · rw [h]
    exact iff_of_true h₂ (Or.inr rfl)
  · rw [h]
    exact iff_of_false hnone hne

/-- The frames of a call are well-formed exactly when its buffer exists. -/
theorem Call.wellFormed_frames_iff (n : Nat) (call : Call) :
    (∀ f ∈ call.frames n, WellFormed f) ↔ call.BufferExists := by
  have hpolls := wellFormed_pollBytes n
  cases call with
  | init => exact iff_of_true (by simpa [frames] using hpolls) trivial
  | pageToBuffer PageAdr BufferNo =>
    rw [frames, List.forall_mem_cons, List.forall_mem_singleton, and_iff_left hpolls]
    exact wellFormed_bufferOpcode_iff rfl rfl (not_wellFormed_three _ _ _)
  | bufferReadStr BufferNo IntPageAdr No_of_bytes =>
    rw [frames, List.forall_mem_singleton, List.append_assoc]
    refine wellFormed_bufferOpcode_iff ?_ ?_ (not_wellFormed_zero _)
    · exact Nat.le_add_left 4 _
    · exact Nat.le_add_left 4 _
  | pageReadStr PageAdr IntPageAdr No_of_bytes =>
    rw [frames, List.forall_mem_singleton]
    exact iff_of_true (Nat.le_add_left 7 _) trivial
  | bufferWriteStr BufferNo IntPageAdr BufferPtr =>
    rw [frames, List.forall_mem_singleton, List.append_assoc]
    refine wellFormed_bufferOpcode_iff ?_ ?_ (not_wellFormed_zero _)
    · exact Nat.le_add_left 3 _
    · exact Nat.le_add_left 3 _
  | bufferToPage BufferNo PageAdr =>
    rw [frames, List.forall_mem_cons, List.forall_mem_singleton, and_iff_left hpolls]
    exact wellFormed_bufferOpcode_iff rfl rfl (not_wellFormed_three _ _ _)

/-! ## Every sequence of calls -/

/-- The calls of a run on the wire.  A call whose wait does not end within the polls
ends the run. -/
def traffic (polls : Nat) : Machine (Option Wire) Call Unit where
  step w call := (w.bind fun w => (call.perform polls w).map Prod.snd, ())

/-- Everything that was sent is a sequence of commands, the chip is deselected, and
every transaction has been ended. -/
structure Orderly (w : Wire) : Prop where
  wellFormed : ∀ f ∈ w.frames, WellFormed f
  frame : w.frame = none
  stray : w.stray = []
  ss : w.ss = .HIGH
  transactions : w.transactions = 0

/-- The traffic is in order when the call returns. -/
def OrderlyAfter (polls : Nat) (w : Option Wire) (call : Call) : Prop :=
  ∀ w', (traffic polls).next w call = some w' → Orderly w'

/-- A call that returns is for a buffer that exists. -/
def BufferGiven (polls : Nat) (w : Option Wire) (call : Call) : Prop :=
  ((traffic polls).next w call).isSome → call.BufferExists

/-- Between two calls, with the traffic in order so far. -/
def OrderlyBefore (w : Option Wire) : Prop :=
  ∀ w', w = some w' → w'.Between w'.frames ∧ ∀ f ∈ w'.frames, WellFormed f

theorem Orderly.between {w : Wire} (h : Orderly w) :
    w.Between w.frames ∧ ∀ f ∈ w.frames, WellFormed f :=
  ⟨⟨rfl, h.frame, h.stray, h.transactions⟩, h.wellFormed⟩

/-- A call that returns keeps the traffic in order exactly when its buffer exists. -/
theorem orderlyAfter_iff {polls : Nat} {w : Option Wire} (h : OrderlyBefore w) (call : Call) :
    OrderlyAfter polls w call ↔ BufferGiven polls w call := by
  unfold OrderlyAfter BufferGiven
  cases hnext : (traffic polls).next w call with
  | none => simp
  | some w' =>
    obtain ⟨w, rfl, hperform⟩ := Option.bind_eq_some_iff.mp hnext
    obtain ⟨⟨u, w''⟩, hresult, rfl⟩ := Option.map_eq_some_iff.mp hperform
    obtain ⟨hbetween, hbefore⟩ := h w rfl
    obtain ⟨n, hafter⟩ := Wire.perform_ifReturns hbetween polls call u w'' hresult
    have hframes : w''.frames = w.frames ++ call.frames n := hafter.frames_eq
    constructor
    · intro horderly _
      have hsent := (horderly w'' rfl).wellFormed
      rw [hframes] at hsent
      exact (Call.wellFormed_frames_iff n call).mp fun f hf => hsent f (List.mem_append_right _ hf)
    · rintro hgiven _ ⟨⟩
      have hcall := (Call.wellFormed_frames_iff n call).mpr (hgiven rfl)
      refine ⟨?_, hafter.frame, hafter.stray, hafter.ss, hafter.transactions⟩
      intro f hf
      rw [hframes] at hf
      rcases List.mem_append.mp hf with hf | hf
      · exact hbefore f hf
      · exact hcall f hf

/-- The traffic is in order after every call that returns exactly when each of these
calls is for a buffer that exists. -/
theorem always_orderlyAfter_iff (polls : Nat) (ss : Level) (replies : Nat → UInt8)
    (clock : Nat → UInt32) (calls : List Call) :
    (traffic polls).Always (OrderlyAfter polls) (some (Wire.powerUp ss replies clock)) calls ↔
      (traffic polls).Always (BufferGiven polls) (some (Wire.powerUp ss replies clock)) calls := by
  refine Machine.always_iff OrderlyBefore (fun w call h => orderlyAfter_iff h call) ?_ ?_
  · intro w call h hgiven w' hw'
    exact ((orderlyAfter_iff h call).mpr hgiven w' hw').between
  · rintro _ ⟨⟩
    exact ⟨⟨rfl, rfl, rfl, rfl⟩, by simp [Wire.powerUp]⟩

/-! ## Calls that return -/

/-- The status of a chip that is ready. -/
def Wire.readyStatus : UInt8 := 0x80

/-- With a chip that is always ready one poll is enough, whatever the clock says. -/
theorem Wire.waitsEnd_ready (clock : Nat → UInt32) : WaitsEnd (fun _ => readyStatus) clock 1 :=
  fun _ _ => ⟨0, by decide, Or.inr (show readyStatus &&& READY_BIT ≠ 0 by decide)⟩

/-- The choice of the opcode, in front of the rest of a function. -/
theorem Wire.keeps_select {replies : Nat → UInt8} {clock : Nat → UInt32} {α : Type}
    {rest : SpiM Wire α} (BufferNo opcode₁ opcode₂ : UInt8) (hrest : Keeps replies clock rest) :
    Keeps replies clock
      (if 1 = BufferNo then Dataflash.transfer opcode₁ >>= fun _ => rest
        else if 2 = BufferNo then Dataflash.transfer opcode₂ >>= fun _ => rest
        else rest) := by
  split_ifs
  · exact (keeps_transfer opcode₁).bind fun _ => hrest
  · exact (keeps_transfer opcode₂).bind fun _ => hrest
  · exact hrest

/-- When the waits end, every call returns. -/
theorem Wire.keeps_perform {replies : Nat → UInt8} {clock : Nat → UInt32} {polls : Nat}
    (hends : WaitsEnd replies clock polls) (call : Call) :
    Keeps replies clock (call.perform polls) := by
  have hwait := keeps_waitForReady hends
  cases call with
  | init =>
    refine Keeps.bind ?_ fun _ => Keeps.pure _
    refine (keeps_modify fun _ => ⟨rfl, rfl⟩).bind fun _ => ?_
    refine keeps_chipSelect.bind fun _ => hwait.bind fun _ => ?_
    exact keeps_chipDeselect.bind fun _ => Keeps.pure _
  | pageToBuffer PageAdr BufferNo =>
    refine keeps_chipSelect.bind fun _ => keeps_select BufferNo _ _ ?_
    refine (keeps_transfer _).bind fun _ => (keeps_transfer _).bind fun _ => ?_
    refine (keeps_transfer _).bind fun _ => keeps_strobe.bind fun _ => ?_
    exact hwait.bind fun _ => keeps_chipDeselect
  | bufferReadStr BufferNo IntPageAdr No_of_bytes =>
    refine Keeps.bind ?_ fun _ => Keeps.pure _
    refine keeps_chipSelect.bind fun _ => keeps_select BufferNo _ _ ?_
    refine (keeps_transfer _).bind fun _ => (keeps_transfer _).bind fun _ => ?_
    refine (keeps_transfer _).bind fun _ => (keeps_transfer _).bind fun _ => ?_
    refine (keeps_transferAll _).bind fun _ => keeps_chipDeselect.bind fun _ => ?_
    exact Keeps.pure _
  | pageReadStr PageAdr IntPageAdr No_of_bytes =>
    refine Keeps.bind ?_ fun _ => Keeps.pure _
    refine keeps_chipSelect.bind fun _ => (keeps_transfer _).bind fun _ => ?_
    refine (keeps_transfer _).bind fun _ => (keeps_transfer _).bind fun _ => ?_
    refine (keeps_transfer _).bind fun _ => (keeps_transfer _).bind fun _ => ?_
    refine (keeps_transfer _).bind fun _ => (keeps_transfer _).bind fun _ => ?_
    refine (keeps_transfer _).bind fun _ => (keeps_transferAll _).bind fun _ => ?_
    exact keeps_chipDeselect.bind fun _ => Keeps.pure _
  | bufferWriteStr BufferNo IntPageAdr BufferPtr =>
    refine keeps_chipSelect.bind fun _ => keeps_select BufferNo _ _ ?_
    refine (keeps_transfer _).bind fun _ => (keeps_transfer _).bind fun _ => ?_
    refine (keeps_transfer _).bind fun _ => (keeps_transferAll _).bind fun _ => ?_
    exact keeps_chipDeselect
  | bufferToPage BufferNo PageAdr =>
    refine keeps_chipSelect.bind fun _ => keeps_select BufferNo _ _ ?_
    refine (keeps_transfer _).bind fun _ => (keeps_transfer _).bind fun _ => ?_
    refine (keeps_transfer _).bind fun _ => keeps_strobe.bind fun _ => ?_
    exact hwait.bind fun _ => keeps_chipDeselect

/-- When the waits end, no call is left out because it does not return. -/
theorem always_bufferGiven_iff {polls : Nat} {replies : Nat → UInt8} {clock : Nat → UInt32}
    (hends : Wire.WaitsEnd replies clock polls) {w : Wire} (hw : w.On replies clock)
    (calls : List Call) :
    (traffic polls).Always (BufferGiven polls) (some w) calls ↔
      ∀ call ∈ calls, call.BufferExists := by
  have hnext : ∀ w : Wire, w.On replies clock → ∀ call,
      ∃ w' : Wire, (traffic polls).next (some w) call = some w' ∧ w'.On replies clock := by
    intro w hw call
    obtain ⟨u, w', hperform, hon⟩ := Wire.keeps_perform hends call w hw
    refine ⟨w', ?_, hon⟩
    show (call.perform polls w).map Prod.snd = some w'
    rw [hperform]
    rfl
  rw [← Machine.always_iff_forall_mem (m := traffic polls) (s := some w)]
  refine Machine.always_iff (fun s => ∃ w : Wire, s = some w ∧ w.On replies clock) ?_ ?_
    ⟨w, rfl, hw⟩
  · rintro _ call ⟨w, rfl, hw⟩
    obtain ⟨w', hw', _⟩ := hnext w hw call
    rw [BufferGiven, hw']
    exact ⟨fun h => h rfl, fun h _ => h⟩
  · rintro _ call ⟨w, rfl, hw⟩ _
    exact hnext w hw call

/-- From power-up, with SS at any level, whatever is shifted in and whatever the clock
says: the traffic is in order after every call that returns exactly when each of
these calls is for a buffer that exists.  When the waits end, so that every call
returns, this is a condition on the arguments alone. -/
theorem traffic_iff (polls : Nat) (ss : Level) (replies : Nat → UInt8) (clock : Nat → UInt32)
    (calls : List Call) :
    ((traffic polls).Always (OrderlyAfter polls) (some (Wire.powerUp ss replies clock)) calls ↔
      (traffic polls).Always (BufferGiven polls) (some (Wire.powerUp ss replies clock)) calls) ∧
    (Wire.WaitsEnd replies clock polls →
      ((traffic polls).Always (OrderlyAfter polls) (some (Wire.powerUp ss replies clock)) calls ↔
        ∀ call ∈ calls, call.BufferExists)) := by
  have hgiven := always_orderlyAfter_iff polls ss replies clock calls
  refine ⟨hgiven, fun hends => hgiven.trans ?_⟩
  exact always_bufferGiven_iff hends ⟨rfl, rfl⟩ calls

/-- A page is read through a buffer of a chip that is always ready. -/
theorem traffic_read_page :
    (traffic 1).Always (OrderlyAfter 1)
      (some (Wire.powerUp .HIGH (fun _ => Wire.readyStatus) fun _ => 0))
      [.init, .pageToBuffer 5 2, .bufferReadStr 2 10 3] := by
  refine ((traffic_iff 1 .HIGH _ (fun _ => 0) _).2 (Wire.waitsEnd_ready _)).mpr ?_
  simp [Call.BufferExists]

/-- Behind `init()`, a transfer of page 1 to buffer 3 sends an address without an opcode. -/
theorem pageToBuffer_three_malformed :
    ¬ (traffic 1).Always (OrderlyAfter 1)
      (some (Wire.powerUp .HIGH (fun _ => Wire.readyStatus) fun _ => 0))
      [.init, .pageToBuffer 1 3] := by
  rintro ⟨_, h, _⟩
  have hsent : ((traffic 1).run (some (Wire.powerUp .HIGH (fun _ => Wire.readyStatus) fun _ => 0))
      [.init, .pageToBuffer 1 3]).map
        (fun w => decide ([highByte 1, midByte 1, 0] ∈ w.frames)) = some true := by
    decide +kernel
  rcases Option.map_eq_some_iff.mp hsent with ⟨w, hw, hmem⟩
  have hframe := (h w hw).wellFormed [highByte 1, midByte 1, 0] (of_decide_eq_true hmem)
  exact not_wellFormed_three _ _ _ hframe

end ArduinoProjects.Dataflash
