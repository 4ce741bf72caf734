import ArduinoProjects.Nrf8001.Setup

/-!
# The setup of a radio that answers

A radio that reads the setup messages answers each of them at once with
`TRANSACTION_CONTINUE`, and the last one with `TRANSACTION_COMPLETE`.  The driver
keeps up to four messages and up to four answers in its queues while it talks to
the radio, so the two sides are never in step.

`doAciSetup_success` says that the setup succeeds with such a radio, that it takes
at most three iterations of the loop for each message, and that the radio has then
read every setup message once and in order.
-/

namespace ArduinoProjects.Nrf8001

def ACI_CMD_SETUP : UInt8 := 0x06

/-- The answer to setup message `k`. -/
def answer (total k : Nat) : List UInt8 :=
  [3, ACI_EVT_CMD_RSP, ACI_CMD_SETUP,
    if k + 1 < total then ACI_STATUS_TRANSACTION_CONTINUE else ACI_STATUS_TRANSACTION_COMPLETE]

/-- A radio that answers the commands in the order in which it has read them.  It
pulls RDYN low without delay, when REQN is low and when it has an answer. -/
structure Answers (total : Nat) (radio : Link → Poll) : Prop where
  rdyn : ∀ l, (radio l).rdyn = (l.reqn && decide (l.commands.length ≤ l.events.length))
  event : ∀ l, (radio l).event =
    if l.events.length < l.commands.length then some (answer total l.events.length) else none

/-- The radio that answers at once. -/
def answering (total : Nat) (l : Link) : Poll :=
  .ofBytes (l.reqn && decide (l.commands.length ≤ l.events.length))
    (if l.events.length < l.commands.length then answer total l.events.length else [])

theorem answering_answers (total : Nat) : Answers total (answering total) where
  rdyn _ := rfl
  event l := by
    rw [answering]
    split <;> rfl

variable {radio : Link → Poll} {setup_msgs : List HalAciData}

theorem Answers.fits {total : Nat} (h : Answers total radio) (l : Link) : (radio l).Fits := by
  have hevent := h.event l
  rw [Poll.event] at hevent
  rw [Poll.Fits]
  by_cases h0 : (radio l).shiftedIn 1 = 0
  · rw [h0]
    exact Nat.zero_le _
  · rw [if_neg h0] at hevent
    split at hevent
    · have hlength := congrArg List.length (Option.some.inj hevent)
      rw [List.length_map, List.length_range] at hlength
      have h4 : ((radio l).shiftedIn 1).toNat + 1 = 4 := hlength
      rw [HAL_ACI_MAX_LENGTH]
      omega
    · cases hevent

/-! ## The invariant of the setup -/

/-- The commands so far are the first `offset` setup messages. -/
structure Sent (setup_msgs : List HalAciData) (offset : Nat) (l : Link) : Prop where
  inv : l.Inv
  le : offset ≤ setup_msgs.length
  queued : l.queued = (setup_msgs.take offset).map HalAciData.bytes

/-- The events so far are the answers to the messages that the radio has read, up to
one that it still owes. -/
structure Going (setup_msgs : List HalAciData) (offset : Nat) (l : Link) : Prop
    extends Sent setup_msgs offset l where
  events : l.events = (List.range l.events.length).map (answer setup_msgs.length)
  heard_le : l.events.length ≤ l.commands.length
  sent_le : l.commands.length ≤ l.events.length + 1

/-- The setup messages are not empty, and `num_setup_msgs` is a byte. -/
structure Table (setup_msgs : List HalAciData) : Prop where
  frames : ∀ msg ∈ setup_msgs, frame msg.bytes = some msg.bytes
  fits : ∀ msg ∈ setup_msgs, msg.length ≤ HAL_ACI_MAX_LENGTH
  length : setup_msgs.length < 256

theorem filterMap_eq_self {α : Type} {f : α → Option α} {as : List α}
    (h : ∀ a ∈ as, f a = some a) : as.filterMap f = as := by
  induction as with
  | nil => rfl
  | cons a as ih =>
    rw [List.filterMap_cons_some (h a List.mem_cons_self),
      ih fun b hb => h b (List.mem_cons_of_mem a hb)]

variable {offset : Nat} {l : Link}

namespace Sent

theorem length_queued (h : Sent setup_msgs offset l) : l.queued.length = offset := by
  have hle := h.le
  rw [h.queued, List.length_map, List.length_take]
  omega

theorem txSound (ht : Table setup_msgs) (h : Sent setup_msgs offset l) : l.TxSound := by
  refine h.inv.tx (Bool.eq_false_iff.mpr fun hlost => ?_)
  have hlate := h.inv.txLate hlost
  have hlength := h.length_queued
  have hle := h.le
  have hN := ht.length
  omega

/-- What was queued has been read or still waits. -/
theorem queued_eq (ht : Table setup_msgs) (h : Sent setup_msgs offset l) :
    l.queued = l.commands ++ l.txQ.contents := by
  obtain ⟨out, hqueued, hout⟩ := (h.txSound ht).law
  have hframes : ∀ b ∈ out, frame b = some b := by
    intro b hb
    have hmem : b ∈ (setup_msgs.take offset).map HalAciData.bytes := by
      rw [← h.queued, hqueued]
      exact List.mem_append_left _ hb
    obtain ⟨msg, hmsg, rfl⟩ := List.mem_map.mp hmem
    exact ht.frames msg (List.mem_of_mem_take hmsg)
  rw [filterMap_eq_self hframes] at hout
  rw [hqueued, hout]

theorem sent_add (ht : Table setup_msgs) (h : Sent setup_msgs offset l) :
    l.commands.length + l.txQ.occupancy = offset := by
  have hlength := congrArg List.length (h.queued_eq ht)
  rw [h.length_queued, List.length_append, AciQueue.length_contents] at hlength
  exact hlength.symm

end Sent

namespace Going

theorem rxSound (ht : Table setup_msgs) (h : Going setup_msgs offset l) : l.RxSound := by
  refine h.inv.rx (Bool.eq_false_iff.mpr fun hlost => ?_)
  have hlate := h.inv.rxLate hlost
  have hsent := h.sent_add ht
  have hheard := h.heard_le
  have hle := h.le
  have hN := ht.length
  omega

theorem heard_eq (ht : Table setup_msgs) (h : Going setup_msgs offset l) :
    l.events.length = l.delivered.length + l.rxQ.occupancy := by
  have hlength := congrArg List.length (h.rxSound ht).law
  rw [List.length_append, AciQueue.length_contents] at hlength
  exact hlength

/-- The event in front is the answer to the first message whose answer has not been
taken. -/
theorem head?_contents (ht : Table setup_msgs) (h : Going setup_msgs offset l)
    (hrx : l.rxQ.occupancy ≠ 0) :
    l.rxQ.contents.head? = some (answer setup_msgs.length l.delivered.length) := by
  have hlt : l.delivered.length < l.events.length := by
    have heq := h.heard_eq ht
    omega
  have hget : l.events[l.delivered.length]? = l.rxQ.contents.head? := by
    rw [(h.rxSound ht).law, List.getElem?_append_right (Nat.le_refl _), Nat.sub_self,
      List.head?_eq_getElem?]
  rw [← hget, h.events, List.getElem?_map, List.getElem?_range hlt]
  rfl

end Going

/-! ## One look at the lines -/

/-- How a look at the lines moves the counts. -/
inductive Counted (l l' : Link) : Prop where
  | full (hfull : l.rxQ.isFull = true) (htx : l'.txQ = l.txQ) (hrx : l'.rxQ = l.rxQ)
  | waiting (hreqn : l.reqn = true) (hsent : l.commands.length ≤ l.events.length)
      (htx : l'.txQ = l.txQ) (hrx : l'.rxQ = l.rxQ) (hreqn' : l'.reqn = l.txQ.isEmpty)
      (hevents : l'.events = l.events)
  | transfer (hwhy : l.reqn = false ∨ l.events.length < l.commands.length)
      (htx : l'.txQ.occupancy = l.txQ.occupancy - 1)
      (hevents : l'.events.length =
        l.events.length + if l.events.length < l.commands.length then 1 else 0)

theorem Link.events_eq {l l' : Link} (h : l'.wire = l.wire) : l'.events = l.events :=
  congrArg (List.filterMap Transfer.event) h

theorem Link.commands_eq {l l' : Link} (h : l'.wire = l.wire) : l'.commands = l.commands :=
  congrArg (List.filterMap Transfer.command) h

/-- The invariant only looks at the wire and at what was queued. -/
theorem Going.of_wire (h : Going setup_msgs offset l) {l' : Link} (hinv : l'.Inv)
    (hqueued : l'.queued = l.queued) (hwire : l'.wire = l.wire) : Going setup_msgs offset l' := by
  have hevents := Link.events_eq hwire
  have hcommands := Link.commands_eq hwire
  refine ⟨⟨hinv, h.le, hqueued.trans h.queued⟩, ?_, ?_, ?_⟩
  · rw [hevents]
    exact h.events
  · rw [hevents, hcommands]
    exact h.heard_le
  · rw [hevents, hcommands]
    exact h.sent_le

theorem Looked.going (hradio : Answers setup_msgs.length radio) (ht : Table setup_msgs)
    (h : Going setup_msgs offset l) {l' : Link} (hlooked : Looked (radio l) l l')
    (hkept : Kept l l') : Going setup_msgs offset l' ∧ Counted l l' := by
  have hinv := hlooked.inv hkept h.inv
  cases hlooked with
  | idle htx hrx hwire hover hwhy =>
    refine ⟨h.of_wire hinv hkept.queued hwire, ?_⟩
    rcases hwhy with hfull | ⟨hrdyn, hreqn⟩
    · exact .full hfull htx hrx
    · rw [hradio.rdyn, Bool.and_eq_true, decide_eq_true_iff] at hrdyn
      rw [hrdyn.1, Bool.true_and] at hreqn
      exact .waiting hrdyn.1 hrdyn.2 htx hrx hreqn (Link.events_eq hwire)
  | transfer t hroom hrdyn htx hreqn hcommand hevent hrx hwire =>
    have hsent : Sent setup_msgs offset l' := ⟨hinv, h.le, hkept.queued.trans h.queued⟩
    have hadd := h.sent_add ht
    have hadd' := hsent.sent_add ht
    have hocc : l'.txQ.occupancy = l.txQ.occupancy - 1 := by
      rw [htx, AciQueue.occupancy_dequeue]
    have hheard := h.heard_le
    have hless := h.sent_le
    have hevents := events_append hwire
    rw [hevent, hradio.event] at hevents
    rw [hradio.rdyn, Bool.and_eq_false_iff, decide_eq_false_iff_not, Nat.not_le] at hrdyn
    by_cases hpending : l.events.length < l.commands.length
    · rw [if_pos hpending, Option.toList_some] at hevents
      have hlength : l'.events.length = l.events.length + 1 := by
        rw [hevents, List.length_append, List.length_singleton]
      refine ⟨⟨hsent, ?_, by omega, by omega⟩, .transfer hrdyn hocc ?_⟩
      · rw [hlength, List.range_succ, List.map_append, ← h.events]
        exact hevents
      · rw [hlength, if_pos hpending]
    · rw [if_neg hpending, Option.toList_none, List.append_nil] at hevents
      refine ⟨⟨hsent, ?_, ?_, ?_⟩, .transfer hrdyn hocc ?_⟩
      · rw [hevents]
        exact h.events
      · rw [hevents]
        omega
      · rw [hevents]
        omega
      · rw [hevents, if_neg hpending]
        rfl

/-! ## Filling the queue and taking an event -/

/-- What `hal_aci_tl_send` leaves alone, and when it refuses a command. -/
theorem halAciTlSend_kept (l : Link) {cmd : HalAciData} (hfits : cmd.length ≤ HAL_ACI_MAX_LENGTH) :
    Returns (halAciTlSend cmd) l fun accepted l' => l'.rxQ = l.rxQ ∧ l'.wire = l.wire ∧
      (accepted = false → l'.txQ.isFull = true) := by
  by_cases hfull : l.txQ.isFull = true
  · refine ⟨false, l, (dif_pos hfits).trans ?_, rfl, rfl, fun _ => hfull⟩
    rw [AciQueue.enqueue_of_isFull hfull]
    rfl
  · have haccepted : (l.txQ.enqueue ⟨cmd, hfits⟩).1 = true := by
      rw [AciQueue.enqueue_fst, Bool.eq_false_iff.mpr hfull]
      rfl
    refine ⟨true, _, (dif_pos hfits).trans (if_pos haccepted), ?_, ?_, fun h => by cases h⟩
    · split <;> rfl
    · split <;> rfl

/-- The queue is full of setup messages, or all of them have been queued. -/
theorem fillFrom_going (ht : Table setup_msgs) (rest : List HalAciData) :
    ∀ (offset : Nat) (l : Link), rest = setup_msgs.drop offset → Going setup_msgs offset l →
      Returns (fillFrom rest offset) l fun offset' l' => Going setup_msgs offset' l' ∧
        l'.rxQ = l.rxQ ∧ l'.wire = l.wire ∧ l'.delivered = l.delivered ∧
          (offset' < setup_msgs.length → l'.txQ.isFull = true) := by
  induction rest with
  | nil =>
    intro offset l hrest h
    refine Returns.pure ⟨h, rfl, rfl, rfl, fun hlt => ?_⟩
    have hnil := List.drop_eq_nil_iff.mp hrest.symm
    omega
  | cons msg rest ih =>
    intro offset l hrest h
    have hlt : offset < setup_msgs.length := by
      by_contra hle
      rw [List.drop_eq_nil_of_le (Nat.le_of_not_lt hle)] at hrest
      cases hrest
    have hcons := (List.drop_eq_getElem_cons hlt).symm.trans hrest.symm
    have hmsg : setup_msgs[offset] = msg := (List.cons.inj hcons).1
    have hdrop : rest = setup_msgs.drop (offset + 1) := (List.cons.inj hcons).2.symm
    have hfits : msg.length ≤ HAL_ACI_MAX_LENGTH := by
      rw [← hmsg]
      exact ht.fits _ (List.getElem_mem hlt)
    obtain ⟨accepted, l', heq, hinv, hqueued, hdelivered⟩ := halAciTlSend_inv h.inv msg
    obtain ⟨hrx, hwire, hfull⟩ := (halAciTlSend_kept l hfits).of_eq heq
    refine Returns.bind_of_eq heq ?_
    cases accepted with
    | false =>
      rw [if_neg Bool.false_ne_true, List.append_nil] at hqueued
      exact Returns.pure ⟨h.of_wire hinv hqueued hwire, hrx, hwire, hdelivered, fun _ => hfull rfl⟩
    | true =>
      rw [if_pos rfl] at hqueued
      have hgoing : Going setup_msgs (offset + 1) l' := by
        have hevents := Link.events_eq hwire
        have hcommands := Link.commands_eq hwire
        refine ⟨⟨hinv, hlt, ?_⟩, hevents ▸ h.events, ?_, ?_⟩
        · rw [hqueued, h.queued, List.take_succ_eq_append_getElem hlt, List.map_append, hmsg]
          rfl
        · rw [hevents, hcommands]
          exact h.heard_le
        · rw [hevents, hcommands]
          exact h.sent_le
      refine (ih (offset + 1) l' hdrop hgoing).mono fun offset' l'' h'' => ?_
      obtain ⟨hgoing'', hrx'', hwire'', hdelivered'', hfull''⟩ := h''
      exact ⟨hgoing'', hrx''.trans hrx, hwire''.trans hwire, hdelivered''.trans hdelivered, hfull''⟩

theorem aciSetupFill_going (ht : Table setup_msgs) (h : Going setup_msgs offset l) :
    Returns (aciSetupFill setup_msgs offset) l fun r l' => Going setup_msgs r.2 l' ∧
      l'.rxQ = l.rxQ ∧ l'.wire = l.wire ∧ l'.delivered = l.delivered ∧
        (r.2 < setup_msgs.length → l'.txQ.isFull = true) :=
  Returns.bind (fillFrom_going ht _ offset l rfl h) fun _ _ h' => Returns.pure h'

/-- `hal_aci_tl_event_get` with an event in the queue takes it, and sends at most one
command. -/
theorem halAciTlEventGet_going (hradio : Answers setup_msgs.length radio) (ht : Table setup_msgs)
    (h : Going setup_msgs offset l) (hrx : l.rxQ.occupancy ≠ 0) :
    Returns (halAciTlEventGet radio) l fun _ l' => Going setup_msgs offset l' ∧
      l'.delivered.length = l.delivered.length + 1 ∧
      l.txQ.occupancy ≤ l'.txQ.occupancy + 1 ∧ l.events.length ≤ l'.events.length := by
  refine Returns.bind (checkIfRoom_looked hradio.fits l) fun _ l₁ h₁ => ?_
  obtain ⟨hlooked, hkept⟩ := h₁
  obtain ⟨hgoing, hcounted⟩ := hlooked.going hradio ht h hkept
  have hheard := h.heard_eq ht
  have hheard₁ := hgoing.heard_eq ht
  rw [hkept.delivered] at hheard₁
  have hcounts : l.txQ.occupancy ≤ l₁.txQ.occupancy + 1 ∧ l.events.length ≤ l₁.events.length := by
    cases hcounted with
    | full hfull htx hrx₁ =>
      rw [htx]
      rw [hrx₁] at hheard₁
      omega
    | waiting hreqn hsent htx hrx₁ hreqn' hevents =>
      rw [htx, hevents]
      omega
    | transfer hwhy htx hevents => omega
  have hrx₁ : l₁.rxQ.occupancy ≠ 0 := by omega
  have hevent : ∃ m, l₁.rxQ.dequeue.1 = some m := by
    have hhead := hgoing.head?_contents ht hrx₁
    rw [← AciQueue.peek_bytes, ← AciQueue.dequeue_fst] at hhead
    cases hpop : l₁.rxQ.dequeue.1 with
    | none =>
      rw [hpop] at hhead
      cases hhead
    | some m => exact ⟨m, rfl⟩
  obtain ⟨m, hpop⟩ := hevent
  obtain ⟨event, l₂, heq, hinv, hqueued, hdelivered⟩ := takeEvent_inv hgoing.inv
  have htake : takeEvent l₁ = some (some m,
      ({ l₁ with rxQ := l₁.rxQ.dequeue.2, delivered := l₁.delivered ++ [m.bytes] } :
        Link).request) := by
    have hsplit : l₁.rxQ.dequeue = (some m, l₁.rxQ.dequeue.2) := by
      rw [← hpop]
    rw [takeEvent, hsplit]
  rw [Link.request_eq, heq, Option.some.injEq, Prod.mk.injEq] at htake
  obtain ⟨rfl, rfl⟩ := htake
  refine ⟨_, _, heq, hgoing.of_wire hinv hqueued rfl, ?_, hcounts.1, hcounts.2⟩
  rw [hdelivered, hkept.delivered, List.length_append]
  rfl

/-! ## The loop -/

theorem byte_of_bytes_eq {m : Message} {bytes : List UInt8} (h : m.bytes = bytes) {i : Nat}
    {b : UInt8} (hi : bytes[i]? = some b) : m.byte i = b := by
  have hlt : i < m.bytes.length := by
    rw [h]
    exact (List.getElem?_eq_some_iff.mp hi).1
  rw [Message.length_bytes] at hlt
  have hget := m.getElem?_bytes (Nat.le_of_lt_succ hlt)
  rw [h, hi] at hget
  exact (Option.some.inj hget).symm

/-- The radio owes an answer, or it has something to read. -/
def Live (l : Link) : Prop :=
  l.rxQ.occupancy = 0 → l.events.length = l.commands.length → l.txQ.occupancy ≠ 0

/-- How many iterations it takes at most until an event is taken. -/
def patience (l : Link) : Nat :=
  if l.rxQ.occupancy ≠ 0 ∨ l.events.length < l.commands.length then 0
  else if l.reqn then 2 else 1

theorem patience_of_owed {l : Link} (h : l.events.length < l.commands.length) : patience l = 0 :=
  if_pos (Or.inr h)

theorem patience_of_idle {l : Link} (hrx : l.rxQ.occupancy = 0)
    (h : l.commands.length ≤ l.events.length) : patience l = if l.reqn then 2 else 1 :=
  if_neg (not_or.mpr ⟨not_not.mpr hrx, Nat.not_lt.mpr h⟩)

theorem patience_le (l : Link) : patience l ≤ 2 := by
  rw [patience]
  split_ifs <;> omega

/-- Without an event the radio is nearer to its next answer. -/
theorem Going.wait (ht : Table setup_msgs) (h : Going setup_msgs offset l) (hlive : Live l)
    {l' : Link} (hgoing : Going setup_msgs offset l') (hcounted : Counted l l')
    (hdelivered : l'.delivered = l.delivered) (hrx' : l'.rxQ.occupancy = 0) :
    Live l' ∧ patience l' + 1 ≤ patience l := by
  have hheard := h.heard_eq ht
  have hheard' := hgoing.heard_eq ht
  have hsent := h.sent_add ht
  have hsent' := hgoing.sent_add ht
  rw [hdelivered] at hheard'
  have hle := h.heard_le
  cases hcounted with
  | full hfull htx hrx =>
    rw [AciQueue.isFull_iff, ← hrx, hrx'] at hfull
    exact absurd hfull.1 (by decide)
  | waiting hreqn hcaught htx hrx hreqn' hevents =>
    have hrx₀ : l.rxQ.occupancy = 0 := by
      rw [← hrx]
      exact hrx'
    have htx₀ := hlive hrx₀ (by omega)
    have hempty : l.txQ.isEmpty = false := by
      rw [Bool.eq_false_iff, Ne, AciQueue.isEmpty_iff]
      exact htx₀
    rw [htx] at hsent'
    rw [hevents] at hheard'
    have hcaught' : l'.commands.length ≤ l'.events.length := by
      rw [hevents]
      omega
    refine ⟨fun _ _ => by rw [htx]; exact htx₀, ?_⟩
    rw [patience_of_idle hrx' hcaught', patience_of_idle hrx₀ hcaught, hreqn', hempty, hreqn]
    rfl
  | transfer hwhy htx hevents =>
    split_ifs at hevents with hpending
    · omega
    · have hrx₀ : l.rxQ.occupancy = 0 := by omega
      have htx₀ := hlive hrx₀ (by omega)
      have hreqn : l.reqn = false := hwhy.resolve_right hpending
      refine ⟨fun _ hcaught => by omega, ?_⟩
      rw [patience_of_owed (by omega), patience_of_idle hrx₀ (by omega), hreqn]
      rfl

/-- The number of iterations that are left at most. -/
def measure (setup_msgs : List HalAciData) (l : Link) : Nat :=
  3 * (setup_msgs.length - l.delivered.length) + patience l

/-- The loop goes on, and it is nearer to its end. -/
structure Nearer (setup_msgs : List HalAciData) (l : Link) (s' : SetupState) (l' : Link) :
    Prop where
  going : Going setup_msgs s'.setupOffset l'
  live : Live l'
  unfinished : l'.delivered.length < setup_msgs.length
  guard : s'.i + patience l' ≤ 2
  lt : measure setup_msgs l' < measure setup_msgs l

/-- What an iteration with an event in the queue does. -/
theorem setupEvent_nearer (hradio : Answers setup_msgs.length radio) (ht : Table setup_msgs)
    {s : SetupState} (h : Going setup_msgs s.setupOffset l)
    (hopen : l.delivered.length < setup_msgs.length) (hrx : l.rxQ.occupancy ≠ 0)
    {aci_evt : Message} (hevent : l.rxQ.peek = some aci_evt) :
    Returns (setupEvent radio setup_msgs s aci_evt) l fun r l' =>
      (∃ s', r = .inl s' ∧ Nearer setup_msgs l s' l') ∨
      r = .inr .success ∧ l'.commands = setup_msgs.map HalAciData.bytes := by
  have hbytes : aci_evt.bytes = answer setup_msgs.length l.delivered.length := by
    have hhead := h.head?_contents ht hrx
    rw [← AciQueue.peek_bytes, hevent] at hhead
    exact Option.some.inj hhead
  have hopcode : aci_evt.evtOpcode = ACI_EVT_CMD_RSP := byte_of_bytes_eq hbytes rfl
  have hstatus : aci_evt.cmdStatus = if l.delivered.length + 1 < setup_msgs.length
      then ACI_STATUS_TRANSACTION_CONTINUE else ACI_STATUS_TRANSACTION_COMPLETE :=
    byte_of_bytes_eq hbytes rfl
  rw [setupEvent, if_neg (not_not.mpr hopcode), hstatus]
  by_cases hmore : l.delivered.length + 1 < setup_msgs.length
  · rw [if_pos hmore, if_pos rfl]
    refine Returns.bind (aciSetupFill_going ht h) fun r l₁ h₁ => ?_
    obtain ⟨hgoing, hrx₁, hwire, hdelivered, hfull⟩ := h₁
    rw [← hrx₁] at hrx
    refine Returns.bind (halAciTlEventGet_going hradio ht hgoing hrx) fun _ l₂ h₂ => ?_
    obtain ⟨hgoing₂, hdelivered₂, htx, _⟩ := h₂
    rw [hdelivered] at hdelivered₂
    refine Returns.pure (Or.inl ⟨⟨r.2, 0⟩, rfl, hgoing₂, fun hrx₂ hcaught => ?_, by omega, ?_, ?_⟩)
    · -- either all messages have been queued, or the queue was full a moment ago
      have hsent := hgoing₂.sent_add ht
      have hheard := hgoing₂.heard_eq ht
      by_cases hlt : r.2 < setup_msgs.length
      · have hocc := ((AciQueue.isFull_iff _).mp (hfull hlt)).1
        rw [ACI_QUEUE_SIZE] at hocc
        omega
      · omega
    · have hpatience := patience_le l₂
      show 0 + patience l₂ ≤ 2
      omega
    · have hpatience := patience_le l₂
      rw [measure, measure, hdelivered₂]
      omega
  · rw [if_neg hmore, if_neg (by decide), if_pos rfl]
    refine Returns.bind (halAciTlEventGet_going hradio ht h hrx) fun _ l₁ h₁ => ?_
    obtain ⟨hgoing, hdelivered, _, _⟩ := h₁
    have hheard := hgoing.heard_eq ht
    have hle := hgoing.heard_le
    have hsent := hgoing.sent_add ht
    have hoffset := hgoing.le
    refine Returns.pure (Or.inr ⟨rfl, ?_⟩)
    have hempty : l₁.txQ.contents = [] :=
      List.eq_nil_of_length_eq_zero (by rw [AciQueue.length_contents]; omega)
    have hall := hgoing.queued_eq ht
    rw [hempty, List.append_nil, hgoing.queued, List.take_of_length_le (by omega)] at hall
    exact hall.symm

theorem setupIteration_nearer (hradio : Answers setup_msgs.length radio) (ht : Table setup_msgs)
    {s : SetupState} (h : Going setup_msgs s.setupOffset l) (hlive : Live l)
    (hopen : l.delivered.length < setup_msgs.length) (hi : s.i + patience l ≤ 2) :
    Returns (setupIteration radio setup_msgs s) l fun r l' =>
      (∃ s', r = .inl s' ∧ Nearer setup_msgs l s' l') ∨
      r = .inr .success ∧ l'.commands = setup_msgs.map HalAciData.bytes := by
  have hpeek : Returns (halAciTlEventPeek radio) l fun event l' => event = l'.rxQ.peek ∧
      Going setup_msgs s.setupOffset l' ∧ Counted l l' ∧ Kept l l' := by
    refine Returns.bind (mAciEventCheck_looked l (hradio.fits l)) fun _ l' h' => ?_
    obtain ⟨hgoing, hcounted⟩ := h'.1.going hradio ht h h'.2
    exact ⟨_, l', rfl, rfl, hgoing, hcounted, h'.2⟩
  rw [setupIteration, if_neg (by omega)]
  refine Returns.bind hpeek fun event l₁ h₁ => ?_
  obtain ⟨hevent, hgoing, hcounted, hkept⟩ := h₁
  rw [← hkept.delivered] at hopen
  by_cases hrx : l₁.rxQ.occupancy = 0
  · obtain ⟨hlive₁, hpatience⟩ := h.wait ht hlive hgoing hcounted hkept.delivered hrx
    have hnone : event = none := by
      rw [hevent, AciQueue.peek, if_pos ((AciQueue.isEmpty_iff _).mpr hrx)]
    subst hnone
    refine Returns.pure (Or.inl ⟨{ s with i := s.i + 1 }, rfl, hgoing, hlive₁, hopen, ?_, ?_⟩)
    · show s.i + 1 + patience l₁ ≤ 2
      omega
    · rw [measure, measure, hkept.delivered]
      omega
  · have hsome : ∃ m, event = some m := by
      have hhead := hgoing.head?_contents ht hrx
      rw [← AciQueue.peek_bytes, ← hevent] at hhead
      cases event with
      | none => cases hhead
      | some m => exact ⟨m, rfl⟩
    obtain ⟨m, rfl⟩ := hsome
    refine (setupEvent_nearer (s := { s with i := s.i + 1 }) hradio ht hgoing hopen hrx
      hevent.symm).mono fun r l₂ h₂ => ?_
    refine h₂.imp_left ?_
    rintro ⟨s', hr, hnearer⟩
    refine ⟨s', hr, hnearer.going, hnearer.live, hnearer.unfinished, hnearer.guard, ?_⟩
    have hzero : patience l₁ = 0 := if_pos (Or.inl hrx)
    refine Nat.lt_of_lt_of_le hnearer.lt ?_
    rw [measure, measure, hzero, hkept.delivered]
    omega

/-- The setup succeeds from any state in which it is going on. -/
theorem setupLoop_success (hradio : Answers setup_msgs.length radio) (ht : Table setup_msgs)
    (iterations : Nat) :
    ∀ (s : SetupState) (l : Link), Going setup_msgs s.setupOffset l → Live l →
      l.delivered.length < setup_msgs.length → s.i + patience l ≤ 2 →
      measure setup_msgs l ≤ iterations →
      Returns (setupLoop radio setup_msgs iterations s) l fun r l' =>
        r = .inr .success ∧ l'.commands = setup_msgs.map HalAciData.bytes := by
  induction iterations with
  | zero =>
    intro s l _ _ hopen _ hmeasure
    rw [measure] at hmeasure
    omega
  | succ iterations ih =>
    intro s l h hlive hopen hi hmeasure
    refine Returns.bind (setupIteration_nearer hradio ht h hlive hopen hi) fun r l' h' => ?_
    rcases h' with ⟨s', rfl, hnearer⟩ | ⟨rfl, hcommands⟩
    · have hlt := hnearer.lt
      exact ih s' l' hnearer.going hnearer.live hnearer.unfinished hnearer.guard (by omega)
    · exact Returns.pure ⟨rfl, hcommands⟩

/-! ## The whole setup -/

theorem going_init (txQ rxQ : AciQueue) : Going setup_msgs 0 (Link.init txQ rxQ) where
  inv := Link.init_inv txQ rxQ
  le := Nat.zero_le _
  queued := rfl
  events := rfl
  heard_le := Nat.le_refl _
  sent_le := Nat.zero_le _

/-- **The setup, with a radio that answers at once.**  If there are setup messages it
succeeds, and the radio has then read all of them, once and in order. -/
theorem doAciSetup_success (hradio : Answers setup_msgs.length radio) (ht : Table setup_msgs)
    (hmsgs : setup_msgs ≠ []) (txQ rxQ : AciQueue) {iterations : Nat}
    (hiterations : 3 * setup_msgs.length + 2 ≤ iterations) :
    Returns (doAciSetup radio setup_msgs iterations) (Link.init txQ rxQ) fun r l =>
      r = .inr .success ∧ l.commands = setup_msgs.map HalAciData.bytes := by
  have hpositive : 0 < setup_msgs.length := List.length_pos_iff.mpr hmsgs
  have hstart : Going setup_msgs 0 (Link.init txQ rxQ) := going_init txQ rxQ
  obtain ⟨_, l₁, hcheck, hlooked, hkept⟩ :=
    mAciEventCheck_looked (Link.init txQ rxQ) (hradio.fits _)
  obtain ⟨hgoing₁, hcounted⟩ := hlooked.going hradio ht hstart hkept
  have hrx₁ : l₁.rxQ.occupancy = 0 := by
    cases hcounted with
    | full _ _ hrx => exact hrx ▸ AciQueue.occupancy_init rxQ
    | waiting _ _ _ hrx _ _ => exact hrx ▸ AciQueue.occupancy_init rxQ
    | transfer hwhy _ _ =>
      rcases hwhy with hwhy | hwhy
      · cases hwhy
      · exact absurd hwhy (Nat.lt_irrefl 0)
  have hpeek : halAciTlEventPeek radio (Link.init txQ rxQ) = some (none, l₁) := by
    have hnone : l₁.rxQ.peek = none := if_pos ((AciQueue.isEmpty_iff _).mpr hrx₁)
    rw [← hnone]
    show (mAciEventCheck radio (Link.init txQ rxQ)).bind _ = _
    rw [hcheck]
    rfl
  have hisEmpty : (Link.init txQ rxQ).txQ.isEmpty = true :=
    (AciQueue.isEmpty_iff _).mpr (AciQueue.occupancy_init txQ)
  have hempty : ¬ (!(Link.init txQ rxQ).txQ.isEmpty) = true := by
    rw [hisEmpty]
    exact Bool.false_ne_true
  refine Returns.get_bind ?_
  rw [if_neg hempty]
  refine Returns.bind_of_eq hpeek ?_
  refine Returns.bind (aciSetupFill_going ht hgoing₁) fun r l₂ h₂ => ?_
  obtain ⟨hgoing₂, hrx, hwire, hdelivered, hfull⟩ := h₂
  have hnothing : l₂.delivered = [] := hdelivered.trans hkept.delivered
  have hpatience := patience_le l₂
  refine setupLoop_success hradio ht iterations ⟨r.2, 0⟩ l₂ hgoing₂ ?_ ?_ ?_ ?_
  · -- the queue is full, or it holds all messages
    intro hrx₂ hcaught
    have hsent := hgoing₂.sent_add ht
    have hheard := hgoing₂.heard_eq ht
    rw [hnothing, List.length_nil] at hheard
    by_cases hlt : r.2 < setup_msgs.length
    · have hocc := ((AciQueue.isFull_iff _).mp (hfull hlt)).1
      rw [ACI_QUEUE_SIZE] at hocc
      omega
    · have hle := hgoing₂.le
      omega
  · rw [hnothing]
    exact hpositive
  · show 0 + patience l₂ ≤ 2
    omega
  · rw [measure, hnothing, List.length_nil]
    omega

theorem table_setup_messages : Table SETUP_MESSAGES_CONTENT :=
  ⟨by decide, by decide, by decide⟩

theorem doAciSetup_success_sketches :
    Returns (doAciSetup (answering 23) SETUP_MESSAGES_CONTENT 71) (Link.init .zero .zero)
      fun r l => r = .inr .success ∧
        l.commands = SETUP_MESSAGES_CONTENT.map HalAciData.bytes := by
  have hradio : Answers SETUP_MESSAGES_CONTENT.length (answering 23) := answering_answers 23
  exact doAciSetup_success hradio table_setup_messages (List.cons_ne_nil _ _) .zero .zero
    (by decide)

end ArduinoProjects.Nrf8001
