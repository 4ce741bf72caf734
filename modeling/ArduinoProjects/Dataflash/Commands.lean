import ArduinoProjects.Dataflash.Chip

/-!
# What the library makes the chip do

For each function of the library, one lemma says which change of the chip it
is.  The functions that take a page number send an address in which the number
stands two bits too high: `pageNumber_sent` is what the chip reads from it.
-/

namespace ArduinoProjects.Dataflash

open PageArray Chip

/-! ## Addresses -/

theorem highByte_toNat (p : UInt16) : (highByte p).toNat = p.toNat / 32 % 256 := by
  have hshift : (16 - PageBits : UInt16).toNat = 5 := by decide
  simp [highByte, hshift, Nat.shiftRight_eq_div_pow]

theorem midByte_toNat (p : UInt16) : (midByte p).toNat = p.toNat * 8 % 256 := by
  have hshift : (PageBits - 8 : UInt16).toNat = 3 := by decide
  have hmod : (p.toNat * 8 % 65536) % 256 = p.toNat * 8 % 256 := by omega
  simp [midByte, hshift, Nat.shiftLeft_eq, hmod]

/-- The page that the chip reads from the address sent for page `p`. -/
def chipPage (p : Nat) : Fin 2048 := ⟨4 * p % 2048, Nat.mod_lt _ (by decide)⟩

/-- `PageBits` is 11, but the code takes it for the number of bits that the
page number is shifted by. -/
theorem pageNumber_sent (p : UInt16) :
    pageNumber (highByte p) (midByte p) 0 = chipPage p.toNat := by
  apply Fin.ext
  have hp := p.toNat_lt
  simp only [pageNumber, address, chipPage, Fin.val_ofNat, highByte_toNat, midByte_toNat,
    UInt8.toNat_zero]
  omega

/-- Only page 0 is where the layout in the comments puts it. -/
theorem chipPage_eq_self_iff (p : Fin 2048) : chipPage p.val = p ↔ p = 0 := by
  have hp := p.isLt
  simp only [chipPage, Fin.ext_iff, Fin.val_zero]
  omega

theorem byteNumber_sent (off : Nat) (h : off < 512) :
    byteNumber 0 ((UInt16.ofNat off) >>> 8).toUInt8 (UInt16.ofNat off).toUInt8 = off := by
  have hoff : (UInt16.ofNat off).toNat = off := by
    rw [UInt16.toNat_ofNat']
    omega
  have hshift : (8 : UInt16).toNat = 8 := by decide
  have hbytes : (off / 256 % 256 * 256 + off % 256) % 512 = off := by omega
  simpa [byteNumber, address, hoff, hshift, Nat.shiftRight_eq_div_pow] using hbytes

/-- The middle byte of a direct read: the page bits stand above the highest bit of
the offset. -/
theorem midByte_or_toNat (p off : UInt16) (h : off.toNat < 512) :
    ((p <<< (PageBits - 8)) ||| (off >>> 8).toUInt8.toUInt16).toUInt8.toNat =
      p.toNat * 8 % 256 + off.toNat / 256 := by
  have hshift : (PageBits - 8 : UInt16).toNat = 3 := by decide
  have height : (8 : UInt16).toNat = 8 := by decide
  have hpage : p.toNat <<< 3 % 2 ^ 16 = (p.toNat % 8192) <<< 3 := by
    rw [Nat.shiftLeft_eq, Nat.shiftLeft_eq]
    omega
  have hoff : off.toNat >>> 8 % 2 ^ 8 = off.toNat / 256 := by
    rw [Nat.shiftRight_eq_div_pow]
    omega
  have hlow : off.toNat / 256 < 2 ^ 3 := by omega
  simp only [UInt16.toNat_toUInt8, UInt16.toNat_or, UInt16.toNat_shiftLeft, hshift,
    UInt8.toNat_toUInt16, UInt16.toNat_shiftRight, height]
  rw [show 3 % 16 = 3 from rfl, show 8 % 16 = 8 from rfl, hpage, hoff,
    ← Nat.shiftLeft_add_eq_or_of_lt hlow, Nat.shiftLeft_eq]
  omega

/-- The chip takes the same page from the address of a direct read as from the one
of a transfer, and the offset with it. -/
theorem address_sent (p off : UInt16) (h : off.toNat < 512) :
    pageNumber (highByte p)
        ((p <<< (PageBits - 8)) ||| (off >>> 8).toUInt8.toUInt16).toUInt8 off.toUInt8 =
      chipPage p.toNat ∧
    byteNumber (highByte p)
        ((p <<< (PageBits - 8)) ||| (off >>> 8).toUInt8.toUInt16).toUInt8 off.toUInt8 =
      off.toNat := by
  have hp := p.toNat_lt
  have hmid := midByte_or_toNat p off h
  have hlow : off.toUInt8.toNat = off.toNat % 256 := UInt16.toNat_toUInt8 off
  constructor
  · apply Fin.ext
    simp only [pageNumber, address, chipPage, Fin.val_ofNat, highByte_toNat, hmid, hlow]
    omega
  · simp only [byteNumber, address, highByte_toNat, hmid, hlow]
    omega

/-! ## The bytes of a buffer -/

/-- A write that fits is an update of the buffer. -/
theorem store_eq_overlay (u : Update 264 UInt8) (bytes : Bytes) :
    store bytes u.off u.data = u.overlay bytes := by
  obtain ⟨off, data, fits⟩ := u
  dsimp only
  induction data generalizing off bytes with
  | nil => exact (Update.overlay_nil rfl bytes).symm
  | cons b data ih =>
    rw [List.length_cons] at fits
    refine (ih _ (off + 1) (by omega)).trans (funext fun i => ?_)
    have hfirst : (Fin.ofNat 264 off).val = off := Nat.mod_eq_of_lt (by omega)
    simp only [Update.overlay, List.length_cons, Function.update_apply, Fin.ext_iff, hfirst]
    by_cases hi : i.val = off
    · simp [hi]
    · by_cases hrest : off + 1 ≤ i.val ∧ i.val < off + 1 + data.length
      · have hpred : i.val - off = i.val - (off + 1) + 1 := by omega
        rw [dif_pos hrest, dif_pos (by omega)]
        simp [hpred]
      · rw [dif_neg hrest, dif_neg (by omega), if_neg hi]

namespace Board

theorem length_replies (chip : Chip) (bytes data : List UInt8) :
    (replies chip bytes data).length = data.length := by
  induction data generalizing bytes with
  | nil => rfl
  | cons b data ih => simp [replies, ih]

theorem getElem_replies (chip : Chip) (bytes data : List UInt8) (k : Nat)
    (h : k < (replies chip bytes data).length) :
    (replies chip bytes data)[k] = chip.answer (bytes ++ data.take k) := by
  induction data generalizing bytes k with
  | nil => simp [replies] at h
  | cons b data ih =>
    cases k with
    | zero => simp [replies]
    | succ k => simp [replies, ih]

/-- A command whose header makes the chip shift out the bytes from an address
on reads a range. -/
theorem replies_read {chip : Chip} {header : List UInt8} {bytes : Bytes} {r : Range 264}
    (hanswer : ∀ sent, chip.answer (header ++ sent) = byteAt bytes (r.off + sent.length))
    (dummy : UInt8) : replies chip header (List.replicate r.len dummy) = r.read bytes := by
  refine List.ext_getElem (by simp [length_replies, Range.read]) fun k hk _ => ?_
  rw [length_replies, List.length_replicate] at hk
  have hfits := r.fits
  have haddr : Fin.ofNat 264 (r.off + k) = ⟨r.off + k, by omega⟩ :=
    Fin.ext (Nat.mod_eq_of_lt (by omega))
  have htake : (List.take k (List.replicate r.len dummy)).length = k := by
    rw [List.length_take, List.length_replicate]
    omega
  rw [getElem_replies, hanswer, htake]
  simp only [Range.read, List.getElem_ofFn]
  exact congrArg bytes haddr

variable {chip : Chip} {board : Board}

/-! ## The functions -/

/-- The end of the commands that move a page: the opcode and the address, a
strobe that starts the move, and the wait for the chip. -/
theorem moveCommand_returns (h : board.Receiving chip []) (polls : Nat)
    (opcode high mid low : UInt8) :
    Returns
      (do
        let _ ← Dataflash.transfer opcode
        let _ ← Dataflash.transfer high
        let _ ← Dataflash.transfer mid
        let _ ← Dataflash.transfer low
        strobe
        let _ ← waitForReady (polls + 1) ONE_SECOND
        chipDeselect)
      board fun _ board' => board'.Idle (chip.execute [opcode, high, mid, low]) := by
  refine Returns.bind (transfer_returns h opcode) fun _ _ h => ?_
  refine Returns.bind (transfer_returns h.2 high) fun _ _ h => ?_
  refine Returns.bind (transfer_returns h.2 mid) fun _ _ h => ?_
  refine Returns.bind (transfer_returns h.2 low) fun _ _ h => ?_
  refine Returns.bind (strobe_returns h.2) fun _ _ h => ?_
  refine Returns.bind (waitForReady_returns h polls _) fun _ _ h => ?_
  -- The polls are a command of their own, which changes nothing.
  exact (chipDeselect_returns h).mono fun _ _ h => h

theorem pageToBuffer_returns (h : board.Idle chip) (polls : Nat) (p : UInt16) (b : BufferNo) :
    Returns (pageToBuffer (polls + 1) p b.toUInt8) board fun _ board' =>
      board'.Idle (chip.setBuffer b (chip.flash (chipPage p.toNat))) := by
  rw [← pageNumber_sent]
  refine Returns.bind (chipSelect_returns h) fun _ _ h => ?_
  cases b with
  | one => exact moveCommand_returns h polls FlashToBuf1Transfer _ _ _
  | two => exact moveCommand_returns h polls FlashToBuf2Transfer _ _ _

theorem bufferToPage_returns (h : board.Idle chip) (polls : Nat) (p : UInt16) (b : BufferNo) :
    Returns (bufferToPage (polls + 1) b.toUInt8 p) board fun _ board' =>
      board'.Idle (chip.setPage (chipPage p.toNat) (chip.buffer b)) := by
  rw [← pageNumber_sent]
  refine Returns.bind (chipSelect_returns h) fun _ _ h => ?_
  cases b with
  | one => exact moveCommand_returns h polls Buf1ToFlashWE _ _ _
  | two => exact moveCommand_returns h polls Buf2ToFlashWE _ _ _

/-- A write of bytes that fit in the buffer. -/
theorem bufferWriteStr_returns (h : board.Idle chip) (b : BufferNo) (u : Update 264 UInt8) :
    Returns (bufferWriteStr b.toUInt8 (UInt16.ofNat u.off) u.data) board fun _ board' =>
      board'.Idle (chip.setBuffer b (u.overlay (chip.buffer b))) := by
  have hoff := byteNumber_sent u.off (by have := u.fits; omega)
  rw [← store_eq_overlay]
  refine Returns.bind (chipSelect_returns h) fun _ _ h => ?_
  cases b
  all_goals
    refine Returns.bind (transfer_returns h _) fun _ _ h => ?_
    refine Returns.bind (transfer_returns h.2 _) fun _ _ h => ?_
    refine Returns.bind (transfer_returns h.2 _) fun _ _ h => ?_
    refine Returns.bind (transfer_returns h.2 _) fun _ _ h => ?_
    refine Returns.bind (transferAll_returns h.2 u.data) fun _ _ h => ?_
    conv in store _ _ _ => rw [← hoff]
    exact chipDeselect_returns h.2

/-- A read of bytes that are in the buffer. -/
theorem bufferReadStr_returns (h : board.Idle chip) (b : BufferNo) (r : Range 264) :
    Returns (bufferReadStr b.toUInt8 (UInt16.ofNat r.off) (UInt16.ofNat r.len)) board
      fun received board' => received = r.read (chip.buffer b) ∧ board'.Idle chip := by
  have hfits := r.fits
  have hoff := byteNumber_sent r.off (by omega)
  have hlen : (UInt16.ofNat r.len).toNat = r.len := by
    rw [UInt16.toNat_ofNat']
    omega
  refine Returns.bind (chipSelect_returns h) fun _ _ h => ?_
  cases b
  all_goals
    refine Returns.bind (transfer_returns h _) fun _ _ h => ?_
    refine Returns.bind (transfer_returns h.2 _) fun _ _ h => ?_
    refine Returns.bind (transfer_returns h.2 _) fun _ _ h => ?_
    refine Returns.bind (transfer_returns h.2 _) fun _ _ h => ?_
    refine Returns.bind (transfer_returns h.2 _) fun _ _ h => ?_
    refine Returns.bind (transferAll_returns h.2 _) fun received _ h => ?_
    refine Returns.bind (chipDeselect_returns h.2) fun _ _ h' => ?_
    rw [hlen] at h
    refine Returns.pure ⟨h.1.trans (replies_read (fun sent => ?_) _), h'⟩
    conv_rhs => rw [← hoff]
    rfl

/-- A direct read of bytes of a page. -/
theorem pageReadStr_returns (h : board.Idle chip) (p : UInt16) (r : Range 264) :
    Returns (pageReadStr p (UInt16.ofNat r.off) (UInt16.ofNat r.len)) board
      fun received board' => received = r.read (chip.flash (chipPage p.toNat)) ∧
        board'.Idle chip := by
  have hfits := r.fits
  have hoff : (UInt16.ofNat r.off).toNat = r.off := by
    rw [UInt16.toNat_ofNat']
    omega
  have hlen : (UInt16.ofNat r.len).toNat = r.len := by
    rw [UInt16.toNat_ofNat']
    omega
  obtain ⟨hpage, hbyte⟩ := address_sent p (UInt16.ofNat r.off) (by omega)
  refine Returns.bind (chipSelect_returns h) fun _ _ h => ?_
  refine Returns.bind (transfer_returns h _) fun _ _ h => ?_
  refine Returns.bind (transfer_returns h.2 _) fun _ _ h => ?_
  refine Returns.bind (transfer_returns h.2 _) fun _ _ h => ?_
  refine Returns.bind (transfer_returns h.2 _) fun _ _ h => ?_
  refine Returns.bind (transfer_returns h.2 _) fun _ _ h => ?_
  refine Returns.bind (transfer_returns h.2 _) fun _ _ h => ?_
  refine Returns.bind (transfer_returns h.2 _) fun _ _ h => ?_
  refine Returns.bind (transfer_returns h.2 _) fun _ _ h => ?_
  refine Returns.bind (transferAll_returns h.2 _) fun received _ h => ?_
  refine Returns.bind (chipDeselect_returns h.2) fun _ _ h' => ?_
  rw [hlen] at h
  refine Returns.pure ⟨h.1.trans (replies_read (fun sent => ?_) _), h'⟩
  show byteAt (chip.flash (pageNumber _ _ _)) (byteNumber _ _ _ + sent.length) = _
  rw [hpage, hbyte, hoff]

/-! ## Two ways to read a page -/

/-- A direct read returns the bytes that a read through a buffer returns, and it
leaves the chip as it is. -/
theorem pageReadStr_eq_buffered (h : board.Idle chip) (polls : Nat) (p : UInt16) (b : BufferNo)
    (off n : UInt16) (hfits : off.toNat + n.toNat ≤ 264) :
    ∃ received board₁ board₂,
      pageReadStr p off n board = some (received, board₁) ∧ board₁.Idle chip ∧
      (do
        pageToBuffer (polls + 1) p b.toUInt8
        bufferReadStr b.toUInt8 off n : SpiM Board (List UInt8)) board =
        some (received, board₂) := by
  have hdirect := pageReadStr_returns h p ⟨off.toNat, n.toNat, hfits⟩
  have hbuffered : Returns (do
        pageToBuffer (polls + 1) p b.toUInt8
        bufferReadStr b.toUInt8 (UInt16.ofNat off.toNat) (UInt16.ofNat n.toNat)) board
      fun received _ => received =
        (⟨off.toNat, n.toNat, hfits⟩ : Range 264).read (chip.flash (chipPage p.toNat)) := by
    refine Returns.bind (pageToBuffer_returns h polls p b) fun _ _ h => ?_
    refine (bufferReadStr_returns h b ⟨off.toNat, n.toNat, hfits⟩).mono fun received _ h => ?_
    rw [h.1, setBuffer_buffer]
  rw [UInt16.ofNat_toNat, UInt16.ofNat_toNat] at hdirect hbuffered
  obtain ⟨received, board₁, hread, rfl, hidle⟩ := hdirect
  obtain ⟨received, board₂, hread', rfl⟩ := hbuffered
  exact ⟨_, board₁, board₂, hread, hidle, hread'⟩

/-- The last 14 bytes of page 700 of a chip. -/
theorem pageReadStr_eq_buffered_seven_hundred :
    let chip : Chip := ⟨fun p i => UInt8.ofNat (p.val + i.val), fun _ _ => 0, 0x80, by decide⟩
    let board : Board := ⟨chip, none, fun _ => 0, 0, []⟩
    ∃ received board₁ board₂,
      pageReadStr 700 250 14 board = some (received, board₁) ∧ board₁.Idle chip ∧
      (do
        pageToBuffer 1 700 1
        bufferReadStr 1 250 14 : SpiM Board (List UInt8)) board = some (received, board₂) :=
  pageReadStr_eq_buffered ⟨rfl, rfl⟩ 0 700 .one 250 14 (by decide)

end Board

end ArduinoProjects.Dataflash
