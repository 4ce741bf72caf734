import ArduinoProjects.Dataflash.Pages
import ArduinoProjects.Dataflash.Traffic

/-!
# The layout of an address

The comments of the library give the layout of the three address bytes:
`rrrrPPPP PPPPPPPx xxxxxxxx` for a transfer of a page and `xxxxPPPPPPPPPPPBBBBBBBBB`
for a direct read, so the page stands in bits 9 to 19.

The library shifts by `PageBits`, which is the number of page bits and not the number
of byte bits.  The page comes out in bits 11 to 21.  `layout_iff` takes the promises of
the layout one by one and says for which pages each is kept.
-/

namespace ArduinoProjects.Dataflash

open Chip

/-- The three bytes behind the opcode of a call, in every run in which it returns, are
an address that satisfies `P`. -/
def SendsAddress (call : Call) (P : Nat → Prop) : Prop :=
  ∀ (polls : Nat) (w : Wire) (u : Unit) (w' : Wire), w.Between w.frames →
    call.perform polls w = some (u, w') →
      ∃ opcode high mid low rest more,
        w'.frames = w.frames ++ (opcode :: high :: mid :: low :: rest) :: more ∧
          P (address high mid low)

/-- The page in bits 9 to 19, below four bits that are zero. -/
def HasPage (p : Fin 2048) (addr : Nat) : Prop :=
  addr / 2 ^ 9 % 2 ^ 11 = p.val ∧ addr / 2 ^ 20 = 0

/-- The number of a page as the library takes it. -/
def pageAdr (p : Fin 2048) : UInt16 := UInt16.ofNat p.val

/-! ## The address that is sent -/

/-- What is sent is read off the frames of the call, since some run returns. -/
theorem sendsAddress_iff {call : Call} {opcode high mid low : UInt8} {rest : List UInt8}
    (hframes : ∀ n, ∃ more, call.frames n = (opcode :: high :: mid :: low :: rest) :: more)
    (P : Nat → Prop) : SendsAddress call P ↔ P (address high mid low) := by
  constructor
  · intro h
    obtain ⟨w, hbetween, hon⟩ : ∃ w : Wire, w.Between w.frames ∧
        w.On (fun _ => Wire.readyStatus) fun _ => 0 :=
      ⟨Wire.powerUp .HIGH _ _, ⟨rfl, rfl, rfl, rfl⟩, rfl, rfl⟩
    obtain ⟨u, w', hperform, _⟩ := Wire.keeps_perform (Wire.waitsEnd_ready _) call w hon
    obtain ⟨n, hafter⟩ := Wire.perform_ifReturns hbetween 1 call u w' hperform
    obtain ⟨opcode', high', mid', low', rest', more', hsent, hp⟩ := h 1 w u w' hbetween hperform
    obtain ⟨more, hcall⟩ := hframes n
    have heq := List.append_cancel_left (hafter.frames_eq.symm.trans hsent)
    rw [hcall] at heq
    simp only [List.cons.injEq] at heq
    obtain ⟨⟨_, rfl, rfl, rfl, _⟩, _⟩ := heq
    exact hp
  · intro hp polls w u w' hbetween hperform
    obtain ⟨n, hafter⟩ := Wire.perform_ifReturns hbetween polls call u w' hperform
    obtain ⟨more, hcall⟩ := hframes n
    refine ⟨opcode, high, mid, low, rest, more, ?_, hp⟩
    rw [hafter.frames_eq, hcall]

theorem pageAdr_toNat (p : Fin 2048) : (pageAdr p).toNat = p.val := by
  have hp := p.isLt
  rw [pageAdr, UInt16.toNat_ofNat']
  omega

/-- The page stands two bits too high. -/
theorem address_page (p : Fin 2048) :
    address (highByte (pageAdr p)) (midByte (pageAdr p)) 0 = p.val * 2 ^ 11 := by
  have hp := p.isLt
  simp only [address, highByte_toNat, midByte_toNat, pageAdr_toNat, UInt8.toNat_zero]
  omega

theorem address_direct (p : Fin 2048) (off : UInt16) (hoff : off.toNat < 512) :
    address (highByte (pageAdr p))
        ((pageAdr p <<< (PageBits - 8)) ||| (off >>> 8).toUInt8.toUInt16).toUInt8 off.toUInt8 =
      p.val * 2 ^ 11 + off.toNat := by
  have hp := p.isLt
  have hlow : off.toUInt8.toNat = off.toNat % 256 := UInt16.toNat_toUInt8 off
  simp only [address, highByte_toNat, midByte_or_toNat _ _ hoff, pageAdr_toNat, hlow]
  omega

/-- The page bits of the address hold the page only for page 0. -/
theorem hasPage_iff (p : Fin 2048) : HasPage p (p.val * 2 ^ 11) ↔ p = 0 := by
  have hp := p.isLt
  simp only [HasPage, Fin.ext_iff, Fin.val_zero]
  omega

theorem pageToBuffer_sends (p : Fin 2048) (b : BufferNo) (P : Nat → Prop) :
    SendsAddress (.pageToBuffer (pageAdr p) b.toUInt8) P ↔ P (p.val * 2 ^ 11) := by
  rw [← address_page]
  cases b with
  | one => exact sendsAddress_iff (fun n => ⟨_, rfl⟩) P
  | two => exact sendsAddress_iff (fun n => ⟨_, rfl⟩) P

theorem bufferToPage_sends (p : Fin 2048) (b : BufferNo) (P : Nat → Prop) :
    SendsAddress (.bufferToPage b.toUInt8 (pageAdr p)) P ↔ P (p.val * 2 ^ 11) := by
  rw [← address_page]
  cases b with
  | one => exact sendsAddress_iff (fun n => ⟨_, rfl⟩) P
  | two => exact sendsAddress_iff (fun n => ⟨_, rfl⟩) P

theorem pageReadStr_sends (p : Fin 2048) (off n : UInt16) (hoff : off.toNat < 512)
    (P : Nat → Prop) :
    SendsAddress (.pageReadStr (pageAdr p) off n) P ↔ P (p.val * 2 ^ 11 + off.toNat) := by
  rw [← address_direct p off hoff]
  exact sendsAddress_iff (fun n => ⟨_, rfl⟩) P

/-! ## The page of the chip -/

/-- A transfer of page `p` to the buffer brings what the chip has on page `p`. -/
def LoadsFrom (p : Fin 2048) (b : BufferNo) : Prop :=
  ∀ (polls : Nat) (chip : Chip) (board : Board), board.Idle chip →
    Returns (pageToBuffer (polls + 1) (pageAdr p) b.toUInt8) board fun _ board' =>
      board'.chip.buffer b = chip.flash p

/-- A transfer of the buffer to page `p` is found on page `p` of the chip. -/
def StoresAt (p : Fin 2048) (b : BufferNo) : Prop :=
  ∀ (polls : Nat) (chip : Chip) (board : Board), board.Idle chip →
    Returns (bufferToPage (polls + 1) b.toUInt8 (pageAdr p)) board fun _ board' =>
      board'.chip.flash p = chip.buffer b

theorem loadsFrom_iff (p : Fin 2048) (b : BufferNo) : LoadsFrom p b ↔ p = 0 := by
  rw [← chipPage_eq_self_iff]
  constructor
  · intro h
    by_contra hne
    have hidle : (powerUp (markedChip p) fun _ => 0).Idle (markedChip p) := ⟨rfl, rfl⟩
    obtain ⟨u, board', hreturn, hsame⟩ := h 0 _ _ hidle
    have hload := (Board.pageToBuffer_returns hidle 0 (pageAdr p) b).of_eq hreturn
    rw [hload.1, setBuffer_buffer, pageAdr_toNat] at hsame
    have hbyte := congrFun hsame 0
    simp [markedChip, markedFlash, mark, hne] at hbyte
  · intro heq polls chip board hidle
    refine (Board.pageToBuffer_returns hidle polls (pageAdr p) b).mono fun _ board' hload => ?_
    rw [hload.1, setBuffer_buffer, pageAdr_toNat, heq]

theorem storesAt_iff (p : Fin 2048) (b : BufferNo) : StoresAt p b ↔ p = 0 := by
  rw [← chipPage_eq_self_iff]
  constructor
  · intro h
    by_contra hne
    have hidle : (powerUp (markedChip p) fun _ => 0).Idle (markedChip p) := ⟨rfl, rfl⟩
    obtain ⟨u, board', hreturn, hsame⟩ := h 0 _ _ hidle
    have hstore := (Board.bufferToPage_returns hidle 0 (pageAdr p) b).of_eq hreturn
    rw [hstore.1, setPage_flash, pageAdr_toNat, Function.update_of_ne (Ne.symm hne)] at hsame
    have hbyte := congrFun hsame 0
    simp [markedChip, markedFlash, mark] at hbyte
  · intro heq polls chip board hidle
    refine (Board.bufferToPage_returns hidle polls (pageAdr p) b).mono fun _ board' hstore => ?_
    rw [hstore.1, setPage_flash, pageAdr_toNat, heq, Function.update_self]

/-! ## The promises of the layout -/

/-- Each promise of the layout is kept for page 0 and for no other page, whatever the
buffer, the offset and the length. -/
theorem layout_iff (p : Fin 2048) (off : Fin 264) (n : UInt16) (b : BufferNo) :
    (SendsAddress (.pageToBuffer (pageAdr p) b.toUInt8) (HasPage p) ↔ p = 0) ∧
    (SendsAddress (.bufferToPage b.toUInt8 (pageAdr p)) (HasPage p) ↔ p = 0) ∧
    (SendsAddress (.pageReadStr (pageAdr p) (UInt16.ofNat off.val) n)
        (fun addr => addr = p.val * 512 + off.val) ↔ p = 0) ∧
    (LoadsFrom p b ↔ p = 0) ∧
    (StoresAt p b ↔ p = 0) := by
  refine ⟨?_, ?_, ?_, loadsFrom_iff p b, storesAt_iff p b⟩
  · rw [pageToBuffer_sends, hasPage_iff]
  · rw [bufferToPage_sends, hasPage_iff]
  · have hoff : (UInt16.ofNat off.val).toNat = off.val := by
      have hlt := off.isLt
      rw [UInt16.toNat_ofNat']
      omega
    rw [pageReadStr_sends p _ n (by have hlt := off.isLt; omega), hoff, Fin.ext_iff, Fin.val_zero]
    omega

/-- A transfer of page 1 sends the address of page 4. -/
theorem page_one_sent_as_four : ¬ SendsAddress (.pageToBuffer (pageAdr 1) 1) (HasPage 1) := by
  intro h
  exact absurd ((pageToBuffer_sends 1 .one (HasPage 1)).mp h) (by unfold HasPage; decide)

end ArduinoProjects.Dataflash
