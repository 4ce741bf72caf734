import ArduinoProjects.Dataflash.Commands

/-!
# Pages that share a page of the chip

A program updates a page by reading it into a buffer, writing some bytes of the
buffer and writing the buffer back, and it reads a page through a buffer.
`perform_returns` says that these accesses are the accesses of `PageArray.array`
with page `p` renamed to `chipPage p`, which is page `4 * p` modulo 2048.

Four pages share each chip page that is used, and only page 0 is where the
layout in the comments of the library puts it.  `pages_independent_iff` gives
the sequences of accesses for which this does not show.
-/

namespace ArduinoProjects.Dataflash

open PageArray Chip

/-- An access of a program to a page, through a buffer. -/
structure PageAccess where
  buffer : BufferNo
  access : Access (Fin 2048) 264 UInt8

namespace PageAccess

/-- The access without the contents of an update. -/
structure Shape where
  buffer : BufferNo
  update : Bool
  page : Fin 2048
  off : Nat
  len : Nat
  deriving DecidableEq

def shape : PageAccess → Shape
  | ⟨b, .update p u⟩ => ⟨b, true, p, u.off, u.data.length⟩
  | ⟨b, .read p r⟩ => ⟨b, false, p, r.off, r.len⟩

theorem shape_len (a : PageAccess) : a.shape.len = a.access.length := by
  obtain ⟨b, ⟨p, u⟩ | ⟨p, r⟩⟩ := a <;> rfl

theorem shape_page (a : PageAccess) : a.shape.page = a.access.page := by
  obtain ⟨b, ⟨p, u⟩ | ⟨p, r⟩⟩ := a <;> rfl

/-- The calls that make an access, and the bytes that were read. -/
def perform {σ : Type} [SpiBus σ] (polls : Nat) : PageAccess → SpiM σ (List UInt8)
  | ⟨b, .update p u⟩ => do
    pageToBuffer polls (UInt16.ofNat p.val) b.toUInt8
    bufferWriteStr b.toUInt8 (UInt16.ofNat u.off) u.data
    bufferToPage polls b.toUInt8 (UInt16.ofNat p.val)
    return []
  | ⟨b, .read p r⟩ => do
    pageToBuffer polls (UInt16.ofNat p.val) b.toUInt8
    bufferReadStr b.toUInt8 (UInt16.ofNat r.off) (UInt16.ofNat r.len)

/-- The access that the chip makes of it. -/
def onChip (a : PageAccess) : Access (Fin 2048) 264 UInt8 :=
  a.access.rename fun p => chipPage p.val

end PageAccess

/-- A chip that has just been powered up, with any contents and any clock. -/
def powerUp (chip : Chip) (clock : Nat → UInt32) : Board := ⟨chip, none, clock, 0, []⟩

/-- The accesses find the flash to be an array of independent pages.  A read of
a page answers with its initial contents, overlaid with exactly the updates
made to it, and an update of a page changes no other page. -/
def PagesIndependent (polls : Nat) (board : Board) (accesses : List PageAccess) : Prop :=
  ∀ pre a post, accesses = pre ++ a :: post →
    ∃ replies board₁ reply board₂,
      pre.mapM (PageAccess.perform polls) board = some (replies, board₁) ∧
      a.perform polls board₁ = some (reply, board₂) ∧
      match a.access with
      | .update p _ => ∀ q ≠ p, board₂.chip.flash q = board₁.chip.flash q
      | .read p r => reply =
          r.read (overlaid (· = p) (pre.map PageAccess.access) (board.chip.flash p))

/-! ## The chip is a page array -/

/-- The board is between two commands, with some contents in the flash. -/
def Board.Holds (flash : Fin 2048 → Bytes) (board : Board) : Prop :=
  board.frame = none ∧ board.chip.flash = flash

theorem toNat_page (p : Fin 2048) : (UInt16.ofNat p.val).toNat = p.val := by
  rw [UInt16.toNat_ofNat']
  omega

/-- An access is one step of the page array. -/
theorem perform_returns {flash : Fin 2048 → Bytes} {board : Board} (h : board.Holds flash)
    (polls : Nat) (a : PageAccess) :
    Returns (a.perform (polls + 1)) board fun reply board' =>
      reply = (array (Fin 2048) 264 UInt8).out flash a.onChip ∧
        board'.Holds ((array (Fin 2048) 264 UInt8).next flash a.onChip) := by
  obtain ⟨hframe, rfl⟩ := h
  have hidle : board.Idle board.chip := ⟨rfl, hframe⟩
  obtain ⟨b, ⟨p, u⟩ | ⟨p, r⟩⟩ := a
  · have hp := toNat_page p
    refine Returns.bind (Board.pageToBuffer_returns hidle polls _ b) fun _ _ h => ?_
    refine Returns.bind (Board.bufferWriteStr_returns h b u) fun _ _ h => ?_
    refine Returns.bind (Board.bufferToPage_returns h polls _ b) fun _ _ h => ?_
    refine Returns.pure ⟨rfl, h.2, ?_⟩
    rw [h.1, hp]
    simp [PageAccess.onChip, Access.rename]
  · have hp := toNat_page p
    refine Returns.bind (Board.pageToBuffer_returns hidle polls _ b) fun _ _ h => ?_
    refine (Board.bufferReadStr_returns h b r).mono fun reply _ h => ⟨?_, h.2.2, ?_⟩
    · rw [h.1, setBuffer_buffer, hp]
      rfl
    · rw [h.2.1]
      rfl

/-- Some accesses are a run of the page array. -/
theorem performAll_returns (chip : Chip) (clock : Nat → UInt32) (polls : Nat)
    (accesses : List PageAccess) :
    Returns (accesses.mapM (PageAccess.perform (polls + 1))) (powerUp chip clock)
      fun _ board' => board'.Holds
        ((array (Fin 2048) 264 UInt8).run chip.flash (accesses.map PageAccess.onChip)) := by
  refine Returns.mapM
    (fun done _ (board' : Board) => board'.Holds
      ((array (Fin 2048) 264 UInt8).run chip.flash (done.map PageAccess.onChip)))
    (fun done _ board' a h => ?_) accesses ⟨rfl, rfl⟩
  refine (perform_returns h polls a).mono fun _ _ h => ?_
  rw [List.map_append, List.map_singleton, Machine.run_concat]
  exact h.2

/-- Each page of the flash after some accesses. -/
theorem run_flash (flash : Fin 2048 → Bytes) (accesses : List PageAccess) (q : Fin 2048) :
    (array (Fin 2048) 264 UInt8).run flash (accesses.map PageAccess.onChip) q =
      overlaid (fun p => chipPage p.val = q) (accesses.map PageAccess.access) (flash q) := by
  have hrename := overlaid_rename (P := (· = q)) (φ := fun p : Fin 2048 => chipPage p.val)
    (accesses.map PageAccess.access) (flash q)
  rw [run_apply, ← hrename, List.map_map]
  rfl

/-- An access to a flash finds it to be an array of independent pages.  `page`
is what the page numbered as the access should hold. -/
def AccessIndependent (flash : Fin 2048 → Bytes) (page : Bytes) :
    Access (Fin 2048) 264 UInt8 → Prop
  | .update p u => ∀ q ≠ p, chipPage p.val = q → u.overlay (flash q) = flash q
  | .read p r => r.read (flash (chipPage p.val)) = r.read page

/-- `PagesIndependent` in terms of the page array. -/
theorem pagesIndependent_powerUp (chip : Chip) (clock : Nat → UInt32) (polls : Nat)
    (accesses : List PageAccess) :
    PagesIndependent (polls + 1) (powerUp chip clock) accesses ↔
      ∀ pre a post, accesses = pre ++ a :: post →
        AccessIndependent
          ((array (Fin 2048) 264 UInt8).run chip.flash (pre.map PageAccess.onChip))
          (overlaid (· = a.access.page) (pre.map PageAccess.access)
            (chip.flash a.access.page)) a.access := by
  refine forall_congr' fun pre => forall_congr' fun a => forall_congr' fun post =>
    imp_congr_right fun _ => ?_
  have hall := performAll_returns chip clock polls pre
  constructor
  · rintro ⟨replies, board₁, reply, board₂, hpre, ha, hindependent⟩
    have hholds := hall.of_eq hpre
    obtain ⟨hreply, hholds'⟩ := (perform_returns hholds polls a).of_eq ha
    obtain ⟨b, ⟨p, u⟩ | ⟨p, r⟩⟩ := a
    · intro q hq hchip
      have hq' := hindependent q hq
      rw [hholds'.2, hholds.2, ← hchip] at hq'
      rw [← hchip]
      simpa [PageAccess.onChip, Access.rename] using hq'
    · exact hreply.symm.trans hindependent
  · intro hindependent
    obtain ⟨replies, board₁, hpre, hholds⟩ := hall
    obtain ⟨reply, board₂, ha, hreply, hholds'⟩ := perform_returns hholds polls a
    refine ⟨replies, board₁, reply, board₂, hpre, ha, ?_⟩
    obtain ⟨b, ⟨p, u⟩ | ⟨p, r⟩⟩ := a
    · intro q hq
      rw [hholds'.2, hholds.2]
      by_cases hchip : chipPage p.val = q
      · have hq' := hindependent q hq hchip
        simpa [PageAccess.onChip, Access.rename, hchip] using hq'
      · simp [PageAccess.onChip, Access.rename, Function.update_of_ne (Ne.symm hchip)]
    · exact hreply.trans hindependent

/-! ## The chip page of a page -/

theorem chipPage_inj_iff (p q : Fin 2048) :
    chipPage p.val = chipPage q.val ↔ p.val % 512 = q.val % 512 := by
  simp only [chipPage, Fin.ext_iff]
  omega

/-- As long as no other page that is accessed is congruent to it modulo 512, a
page takes exactly the updates made to it. -/
theorem run_chipPage {accesses : List PageAccess} {p : Fin 2048}
    (h : ∀ a ∈ accesses, a.access.length ≠ 0 →
      a.access.page.val % 512 = p.val % 512 → a.access.page = p)
    (flash : Fin 2048 → Bytes) :
    (array (Fin 2048) 264 UInt8).run flash (accesses.map PageAccess.onChip) (chipPage p.val) =
      overlaid (· = p) (accesses.map PageAccess.access) (flash (chipPage p.val)) := by
  rw [run_flash]
  refine overlaid_congr (fun a ha hlen => ?_) _
  obtain ⟨a', ha', rfl⟩ := List.mem_map.mp ha
  rw [chipPage_inj_iff]
  exact ⟨h a' ha' hlen, fun hp => by rw [hp]⟩

/-! ## The accesses that do not show it -/

/-- A byte that marks one page. -/
def mark (marked p : Fin 2048) : UInt8 := if p = marked then 1 else 0

/-- A flash in which one page holds other bytes than all the others. -/
def markedFlash (marked p : Fin 2048) : Bytes := fun _ => mark marked p

/-- The access of the same shape that writes to each page what the marked flash
holds there. -/
def PageAccess.refill (marked : Fin 2048) : PageAccess → PageAccess
  | ⟨b, .update p u⟩ =>
    ⟨b, .update p ⟨u.off, List.replicate u.data.length (mark marked p), by
      rw [List.length_replicate]
      exact u.fits⟩⟩
  | ⟨b, .read p r⟩ => ⟨b, .read p r⟩

theorem PageAccess.shape_refill (marked : Fin 2048) (a : PageAccess) :
    (a.refill marked).shape = a.shape := by
  obtain ⟨b, ⟨p, u⟩ | ⟨p, r⟩⟩ := a
  · simp [refill, shape]
  · rfl

theorem PageAccess.page_refill (marked : Fin 2048) (a : PageAccess) :
    (a.refill marked).access.page = a.access.page := by
  obtain ⟨b, ⟨p, u⟩ | ⟨p, r⟩⟩ := a <;> rfl

/-- Accesses of the marked flash that touch only page 0 leave every page as it
is, under its own number and under its chip page. -/
theorem overlaid_refill {marked : Fin 2048} {accesses : List PageAccess}
    (h : ∀ a ∈ accesses, a.access.length ≠ 0 → a.access.page = 0)
    {P : Fin 2048 → Prop} [DecidablePred P] {q : Fin 2048} (hP : P 0 → q = 0) :
    overlaid P ((accesses.map (PageAccess.refill marked)).map PageAccess.access)
      (markedFlash marked q) = markedFlash marked q := by
  refine overlaid_eq_self (b := mark marked q) (fun _ => rfl) fun p u hu hp x hx => ?_
  rw [List.map_map, List.mem_map] at hu
  obtain ⟨⟨b, ⟨p', u'⟩ | ⟨p', r'⟩⟩, ha, heq⟩ := hu
  · cases heq
    obtain ⟨hdata, rfl⟩ := List.mem_replicate.mp hx
    obtain rfl : p = 0 := h _ ha hdata
    rw [hP hp]
  · cases heq

/-- The first access of some bytes of a page other than page 0 shows the
mismatch on the flash with that page marked. -/
theorem not_accessIndependent_marked {a : PageAccess} (hlen : a.access.length ≠ 0)
    (hpage : a.access.page ≠ 0) :
    ¬ AccessIndependent (markedFlash a.access.page) (markedFlash a.access.page a.access.page)
      (a.refill a.access.page).access := by
  have hchip := mt (chipPage_eq_self_iff a.access.page).mp hpage
  have hmark : mark a.access.page a.access.page = 1 := if_pos rfl
  have hother : mark a.access.page (chipPage a.access.page.val) = 0 := if_neg hchip
  have hone : (1 : UInt8) ≠ 0 := by decide
  obtain ⟨b, ⟨p, u⟩ | ⟨p, r⟩⟩ := a
  · intro hindependent
    refine Update.overlay_ne_self ?_ (fun x hx => ?_) (fun _ => hother) hone
      (hindependent _ hchip rfl)
    · exact fun hnil => hlen (by simpa [Access.length] using hnil)
    · exact (List.eq_of_mem_replicate hx).trans hmark
  · intro hindependent
    have hread : r.read (fun _ => mark p (chipPage p.val)) = r.read (fun _ => mark p p) :=
      hindependent
    rw [show mark p (chipPage p.val) = 0 from hother, show mark p p = 1 from hmark] at hread
    exact Range.read_ne hlen hone hread.symm

/-- A sequence with an access of some bytes of another page than page 0 has a
first one. -/
theorem exists_first {accesses : List PageAccess}
    (h : ¬ ∀ a ∈ accesses, a.access.length ≠ 0 → a.access.page = 0) :
    ∃ pre a post, accesses = pre ++ a :: post ∧
      (a.access.length ≠ 0 ∧ a.access.page ≠ 0) ∧
      ∀ b ∈ pre, b.access.length ≠ 0 → b.access.page = 0 := by
  have hsome : (accesses.find? fun a =>
      decide (a.access.length ≠ 0 ∧ a.access.page ≠ 0)).isSome := by
    rw [List.find?_isSome]
    push Not at h
    obtain ⟨a, ha, hlen, hpage⟩ := h
    exact ⟨a, ha, decide_eq_true ⟨hlen, hpage⟩⟩
  obtain ⟨a, hfind⟩ := Option.isSome_iff_exists.mp hsome
  obtain ⟨ha, pre, post, hsplit, hpre⟩ := List.find?_eq_some_iff_append.mp hfind
  refine ⟨pre, a, post, hsplit, of_decide_eq_true ha, fun b hb hlen => ?_⟩
  by_contra hpage
  have hfalse := hpre b hb
  rw [decide_eq_true (And.intro hlen hpage)] at hfalse
  cases hfalse

/-- A chip with the marked flash. -/
def markedChip (marked : Fin 2048) : Chip where
  flash := markedFlash marked
  buffer _ _ := 0
  status := READY_BIT
  ready := by decide

theorem not_pagesIndependent_marked (pre post : List PageAccess) (a : PageAccess)
    (hlen : a.access.length ≠ 0) (hpage : a.access.page ≠ 0)
    (hpre : ∀ b ∈ pre, b.access.length ≠ 0 → b.access.page = 0) (polls : Nat)
    (clock : Nat → UInt32) :
    ¬ PagesIndependent (polls + 1) (powerUp (markedChip a.access.page) clock)
      ((pre ++ a :: post).map (PageAccess.refill a.access.page)) := by
  intro hindependent
  rw [pagesIndependent_powerUp] at hindependent
  have ha := hindependent (pre.map (PageAccess.refill a.access.page))
    (a.refill a.access.page) (post.map (PageAccess.refill a.access.page)) (by simp)
  have hflash : (array (Fin 2048) 264 UInt8).run (markedFlash a.access.page)
      ((pre.map (PageAccess.refill a.access.page)).map PageAccess.onChip) =
        markedFlash a.access.page := by
    funext q
    rw [run_flash]
    exact overlaid_refill hpre fun hq => hq.symm
  have hown : overlaid (· = a.access.page)
      ((pre.map (PageAccess.refill a.access.page)).map PageAccess.access)
        (markedFlash a.access.page a.access.page) =
      markedFlash a.access.page a.access.page := overlaid_refill hpre fun hq => hq.symm
  rw [PageAccess.page_refill] at ha
  change AccessIndependent ((array (Fin 2048) 264 UInt8).run (markedFlash a.access.page) _)
    (overlaid _ _ (markedFlash a.access.page a.access.page)) _ at ha
  rw [hflash, hown] at ha
  exact not_accessIndependent_marked hlen hpage ha

/-- Accesses of page 0, and accesses of no byte, find the pages independent. -/
theorem pagesIndependent_of_page_zero {accesses : List PageAccess}
    (h : ∀ a ∈ accesses, a.access.length ≠ 0 → a.access.page = 0) (polls : Nat)
    (chip : Chip) (clock : Nat → UInt32) :
    PagesIndependent (polls + 1) (powerUp chip clock) accesses := by
  rw [pagesIndependent_powerUp]
  rintro pre a post rfl
  have hpre : ∀ b ∈ pre, b.access.length ≠ 0 → b.access.page = 0 := fun b hb =>
    h b (List.mem_append_left _ hb)
  have ha := h a (List.mem_append_right pre List.mem_cons_self)
  obtain ⟨b, ⟨p, u⟩ | ⟨p, r⟩⟩ := a
  · intro q hq hchip
    by_cases hlen : u.data = []
    · exact Update.overlay_nil hlen _
    · obtain rfl : p = 0 := ha fun hnil => hlen (by simpa [Access.length] using hnil)
      exact absurd (hchip.symm.trans ((chipPage_eq_self_iff 0).mpr rfl)) hq
  · by_cases hlen : r.len = 0
    · exact Range.read_nil hlen _ _
    · obtain rfl : p = 0 := ha hlen
      have hrun := run_chipPage (p := 0) (fun b hb hb' _ => hpre b hb hb') chip.flash
      rw [(chipPage_eq_self_iff 0).mpr rfl] at hrun
      show r.read _ = r.read _
      rw [(chipPage_eq_self_iff 0).mpr rfl, hrun]
      rfl

/-- The pages are independent, whatever the flash and the updates hold, exactly
for the sequences in which every access of some bytes is to page 0. -/
theorem pages_independent_iff (polls : Nat) (accesses : List PageAccess) :
    (∀ (chip : Chip) (clock : Nat → UInt32) (accesses' : List PageAccess),
      accesses'.map PageAccess.shape = accesses.map PageAccess.shape →
        PagesIndependent (polls + 1) (powerUp chip clock) accesses') ↔
      ∀ a ∈ accesses, a.access.length ≠ 0 → a.access.page = 0 := by
  constructor
  · intro hall
    by_contra hbad
    obtain ⟨pre, a, post, rfl, ⟨hlen, hpage⟩, hpre⟩ := exists_first hbad
    have hshape : ((pre ++ a :: post).map (PageAccess.refill a.access.page)).map
        PageAccess.shape = (pre ++ a :: post).map PageAccess.shape := by
      simp [List.map_map, Function.comp_def, PageAccess.shape_refill]
    exact not_pagesIndependent_marked pre post a hlen hpage hpre polls (fun _ => 0)
      (hall (markedChip a.access.page) (fun _ => 0) _ hshape)
  · intro h chip clock accesses' hshape
    refine pagesIndependent_of_page_zero (fun a' ha' => ?_) polls chip clock
    obtain ⟨a, ha, hsame⟩ := List.mem_map.mp (hshape ▸ List.mem_map_of_mem ha')
    rw [← PageAccess.shape_len, ← PageAccess.shape_page, ← hsame, PageAccess.shape_len,
      PageAccess.shape_page]
    exact h a ha

/-- An update of page 512 changes page 0. -/
theorem update_512_changes_page_0 :
    ¬ PagesIndependent 1 (powerUp (markedChip 512) fun _ => 0)
      [⟨.one, .update 512 ⟨0, [1], by decide⟩⟩] := by
  have hpage : (512 : Fin 2048) ≠ 0 := by decide
  exact not_pagesIndependent_marked [] [] ⟨.one, .update 512 ⟨0, [1], by decide⟩⟩
    (by decide) hpage (by simp) 0 (fun _ => 0)

end ArduinoProjects.Dataflash
