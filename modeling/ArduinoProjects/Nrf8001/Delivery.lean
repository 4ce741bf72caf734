import ArduinoProjects.Nrf8001.Uart

/-!
# The library keeps to the line

`Session.lean` says what the serial line over the radio is, and `Uart.lean` is the
code.  Here the code refines the line: the history of the library is legal, and its
variables are the state that the history leads to.  The radio may do what it likes
with length bytes of at most 31, and the sketch may call what it likes with names
that `ble_set_name` can tell the length of (`BleCall.Bounded`).

There are four groups.

* The relation: `Follows` for the variables, `Sound` for the layers below.
* One command and one event.
* The loops.
* Sequences of calls, and what they mean for the bytes that the sketch writes.
-/

namespace ArduinoProjects.Nrf8001

/-! ## The relation -/

/-- The state of the line that the variables show. -/
def Ble.session (s : Ble) (awaiting sending : Bool) : Session where
  pending := s.txBuff
  inbox := s.rx.contents
  pipesOpen := s.aciState.pipesOpenBitmap
  total := s.aciState.dataCreditTotal
  credits := s.aciState.dataCreditAvailable
  isConnected := s.isConnected
  awaiting := awaiting
  sending := sending

/-- The history is legal and leads to the state that the variables show. -/
structure Follows (s : Ble) (awaiting sending : Bool) : Prop where
  legal : session.Always Legal .init s.log
  state : session.run .init s.log = s.session awaiting sending
  ack : s.ack = true → awaiting = false

/-- The data of a command that the transport layer took. -/
def Entry.takenPacket : Entry → Option (List UInt8)
  | command p_aci_cmd true => payload p_aci_cmd
  | _ => none

/-- What the layers below and the other variables keep. -/
structure Sound (s : Ble) : Prop where
  link : s.link.Inv
  rx : s.rx.Valid
  room : s.txBuff.length ≤ MAX_TX_BUFF
  name : s.deviceName.length ≤ 10
  queued : s.link.queued.filterMap payload = s.log.filterMap Entry.takenPacket
  framed : ∀ cmd ∈ s.link.queued, (frame cmd).bind payload = payload cmd

variable {s s' : Ble} {awaiting sending awaiting' sending' : Bool}

/-- One more entry. -/
theorem Follows.note (h : Follows s awaiting sending) {e : Entry} (hlog : s'.log = s.log ++ [e])
    (hlegal : Legal (s.session awaiting sending) e)
    (hstate : session.next (s.session awaiting sending) e = s'.session awaiting' sending')
    (hack : s'.ack = true → awaiting' = false) : Follows s' awaiting' sending' where
  legal := by
    rw [hlog, Machine.always_append, h.state]
    exact ⟨h.legal, hlegal, trivial⟩
  state := by rw [hlog, Machine.run_concat, h.state, hstate]
  ack := hack

theorem Ble.init_follows (txQ rxQ : AciQueue) : Follows (.init txQ rxQ) false false :=
  ⟨trivial, rfl, fun _ => rfl⟩

theorem Ble.init_sound (txQ rxQ : AciQueue) : Sound (.init txQ rxQ) where
  link := Link.init_inv txQ rxQ
  rx := RxBuffer.init_valid
  room := Nat.zero_le _
  name := (by decide : ("BLE Shield".toList.map Char.toUInt8).length ≤ 10)
  queued := rfl
  framed _ h := by cases h

/-! ## One command -/

/-- A length byte and as many bytes as it counts. -/
def WellFormed : List UInt8 → Prop
  | [] => False
  | length :: rest => length.toNat = rest.length ∧ rest.length ≤ HAL_ACI_MAX_LENGTH

theorem WellFormed.ofBytes {cmd : List UInt8} (h : WellFormed cmd) :
    (HalAciData.ofBytes cmd).length ≤ HAL_ACI_MAX_LENGTH ∧
      (HalAciData.ofBytes cmd).bytes = cmd := by
  cases cmd with
  | nil => exact absurd h id
  | cons length rest =>
    obtain ⟨hlength, hfits⟩ := h
    have hlen : (HalAciData.ofBytes (length :: rest)).length = rest.length := hlength
    refine ⟨hlen ▸ hfits, List.ext_getElem? fun i => ?_⟩
    rw [HAL_ACI_MAX_LENGTH] at hfits
    rw [HalAciData.bytes, hlen, List.getElem?_take, List.getElem?_ofFn]
    split_ifs with hi hi'
    · have hi'' : i < (length :: rest).length := hi
      rw [List.getElem?_eq_getElem hi'']
      refine congrArg some ?_
      show (length :: rest).getD i 0 = _
      rw [List.getD_eq_getElem?_getD, List.getElem?_eq_getElem hi'']
      rfl
    · rw [HAL_ACI_MAX_LENGTH] at hi'
      omega
    · exact (List.getElem?_eq_none (Nat.le_of_not_lt hi)).symm

/-- The radio reads a well-formed command whole. -/
theorem WellFormed.frame_bind {cmd : List UInt8} (h : WellFormed cmd) :
    (frame cmd).bind payload = payload cmd := by
  cases cmd with
  | nil => exact absurd h id
  | cons length rest =>
    obtain ⟨hlength, _⟩ := h
    rw [frame, hlength, List.take_length]
    split_ifs with hzero
    · have hrest : rest = [] := List.eq_nil_of_length_eq_zero (by rw [← hlength, hzero]; rfl)
      rw [hrest]
      rfl
    · rfl

theorem wellFormed_data {opcode : UInt8} (pipe : UInt8) {value : List UInt8}
    (h : value.length ≤ ACI_PIPE_TX_DATA_MAX_LEN) :
    WellFormed ([UInt8.ofNat (2 + value.length), opcode, pipe] ++ value) := by
  rw [ACI_PIPE_TX_DATA_MAX_LEN] at h
  refine ⟨?_, ?_⟩
  · rw [UInt8.toNat_ofNat', Nat.mod_eq_of_lt (by omega)]
    show 2 + value.length = value.length + 1 + 1
    omega
  · show value.length + 1 + 1 ≤ 31
    omega

theorem onLink_returns {α : Type} {x : StateT Link Option α} {post : α → Link → Prop}
    (h : Returns x s.link post) :
    Returns (onLink x) s fun a s' => ∃ l, s' = { s with link := l } ∧ post a l := by
  obtain ⟨a, l, hx, hpost⟩ := h
  refine ⟨a, { s with link := l }, ?_, l, rfl, hpost⟩
  show (x s.link).map _ = _
  rw [hx]
  rfl

/-- What `send` does: the transport layer takes the command or not, and it is noted. -/
theorem send_spec (hs : Sound s) {cmd : List UInt8} (hcmd : WellFormed cmd) :
    Returns (send cmd) s fun taken s' =>
      Sound s' ∧ ∃ l, s' = { s with link := l }.note (.command cmd taken) := by
  refine Returns.bind (onLink_returns (halAciTlSend_inv hs.link _)) fun taken s₁ h₁ => ?_
  obtain ⟨l, rfl, hlink, hqueued, _⟩ := h₁
  refine ⟨taken, { s with link := l }.note (.command cmd taken), rfl,
    ⟨hlink, hs.rx, hs.room, hs.name, ?_, ?_⟩, l, rfl⟩
  swap
  · intro cmd' hmem
    change cmd' ∈ l.queued at hmem
    rw [hqueued, hcmd.ofBytes.2] at hmem
    rcases List.mem_append.mp hmem with hold | hnew
    · exact hs.framed cmd' hold
    · cases taken with
      | false => cases hnew
      | true => exact List.mem_singleton.mp hnew ▸ hcmd.frame_bind
  show l.queued.filterMap payload =
      (s.log ++ [Entry.command cmd taken]).filterMap Entry.takenPacket
  rw [hqueued, List.filterMap_append, List.filterMap_append, hs.queued, hcmd.ofBytes.2]
  cases taken <;> rfl

/-- A command that the line does not see. -/
def QuietCommand (cmd : List UInt8) : Prop :=
  WellFormed cmd ∧ payload cmd = none ∧ cmd[1]? ≠ some ACI_CMD_DISCONNECT

/-- What a quiet function leaves as it is. -/
structure Quiet (s : Ble) (awaiting sending : Bool) (s' : Ble) : Prop where
  sound : Sound s'
  follows : Follows s' awaiting sending
  txBuff : s'.txBuff = s.txBuff
  setupRequired : s'.setupRequired = s.setupRequired

theorem send_quiet (hs : Sound s) (h : Follows s awaiting sending) {cmd : List UInt8}
    (hcmd : QuietCommand cmd) :
    Returns (send cmd) s fun _ s' => Quiet s awaiting sending s' := by
  obtain ⟨hwell, hnone, hopcode⟩ := hcmd
  refine (send_spec hs hwell).mono fun taken s' h' => ?_
  obtain ⟨hsound, l, rfl⟩ := h'
  refine ⟨hsound, h.note rfl ?_ ?_ h.ack, rfl, rfl⟩
  · intro data hdata
    cases hnone.symm.trans hdata
  · show (s.session awaiting sending).command cmd taken = _
    rw [Session.command, hnone]
    exact if_neg fun hdisconnect => hopcode hdisconnect.1

theorem Quiet.refl (hs : Sound s) (h : Follows s awaiting sending) : Quiet s awaiting sending s :=
  ⟨hs, h, rfl, rfl⟩

theorem Quiet.trans {s'' : Ble} (h : Quiet s awaiting sending s')
    (h' : Quiet s' awaiting sending s'') : Quiet s awaiting sending s'' :=
  ⟨h'.sound, h'.follows, h'.txBuff.trans h.txBuff, h'.setupRequired.trans h.setupRequired⟩

theorem libAciSetLocalData_quiet (hs : Sound s) (h : Follows s awaiting sending) (pipe : Nat)
    (value : List UInt8) :
    Returns (libAciSetLocalData pipe value) s fun _ s' => Quiet s awaiting sending s' := by
  rw [libAciSetLocalData]
  split_ifs with hno
  · exact Returns.pure (.refl hs h)
  · obtain ⟨_, hsize⟩ := not_or.mp hno
    refine send_quiet hs h ⟨wellFormed_data _ (Nat.le_of_not_lt hsize), rfl, ?_⟩
    show some ACI_CMD_SET_LOCAL_DATA ≠ _
    decide

theorem libAciConnect_quiet (hs : Sound s) (h : Follows s awaiting sending)
    (run_timeout adv_interval : UInt16) :
    Returns (libAciConnect run_timeout adv_interval) s fun _ s' => Quiet s awaiting sending s' := by
  refine send_quiet hs h ⟨⟨rfl, ?_⟩, rfl, ?_⟩
  · show 5 ≤ HAL_ACI_MAX_LENGTH
    decide
  · show some ACI_CMD_CONNECT ≠ some ACI_CMD_DISCONNECT
    decide

theorem libAciDeviceVersion_quiet (hs : Sound s) (h : Follows s awaiting sending) :
    Returns libAciDeviceVersion s fun _ s' => Quiet s awaiting sending s' :=
  send_quiet hs h ⟨⟨rfl, by decide⟩, rfl, by decide⟩

theorem libAciChangeTimingGapPpcp_quiet (hs : Sound s) (h : Follows s awaiting sending) :
    Returns libAciChangeTimingGapPpcp s fun _ s' => Quiet s awaiting sending s' :=
  send_quiet hs h ⟨⟨rfl, by decide⟩, rfl, by decide⟩

/-- The answer to an event changes nothing that the line sees. -/
theorem respond_quiet (hs : Sound s) (h : Follows s awaiting sending) (aci_evt : Message) :
    Returns (respond aci_evt) s fun _ s' => Quiet s awaiting sending s' := by
  have hnothing : Returns (pure () : StateT Ble Option Unit) s fun _ s' =>
      Quiet s awaiting sending s' := Returns.pure (.refl hs h)
  rw [respond]
  split
  · split_ifs
    · refine Returns.get_bind (Returns.bind (libAciSetLocalData_quiet hs h _ _) fun _ s₁ h₁ => ?_)
      refine Returns.bind (libAciConnect_quiet h₁.sound h₁.follows _ _) fun _ s₂ h₂ => ?_
      exact Returns.pure (h₁.trans h₂)
    · exact hnothing
  · split_ifs
    · refine Returns.bind (libAciSetLocalData_quiet hs h _ _) fun _ s₁ h₁ => Returns.pure h₁
    · exact hnothing
  · exact Returns.bind (libAciDeviceVersion_quiet hs h) fun _ s₁ h₁ => Returns.pure h₁
  · refine Returns.get_bind ?_
    split_ifs
    · refine Returns.bind (libAciChangeTimingGapPpcp_quiet hs h) fun _ s₁ h₁ => ?_
      have hf := h₁.follows
      refine ⟨(), { s₁ with timingChangeDone := true }, rfl, ?_, ⟨hf.legal, hf.state, hf.ack⟩,
        h₁.txBuff, h₁.setupRequired⟩
      exact ⟨h₁.sound.link, h₁.sound.rx, h₁.sound.room, h₁.sound.name, h₁.sound.queued,
        h₁.sound.framed⟩
    · exact hnothing
  · exact Returns.bind (libAciConnect_quiet hs h _ _) fun _ s₁ h₁ => Returns.pure h₁
  · exact Returns.bind (libAciConnect_quiet hs h _ _) fun _ s₁ h₁ => Returns.pure h₁
  · exact hnothing

/-! ## One event -/

/-- The state behind `lib_aci_event_get` and the assignments for the event. -/
def Ble.got (s : Ble) (aci_evt : Message) : Ble :=
  ({ s with aciState := s.aciState.update aci_evt }.assign aci_evt).note (.event aci_evt)

theorem got_eq (s : Ble) (aci_evt : Message) :
    (s.got aci_evt).link = s.link ∧ (s.got aci_evt).txBuff = s.txBuff ∧
      (s.got aci_evt).deviceName = s.deviceName ∧ (s.got aci_evt).log = s.log ++ [.event aci_evt] ∧
      ((s.got aci_evt).rx = s.rx ∨ (s.got aci_evt).rx = s.rx.receive aci_evt.aciData) ∧
      (s.got aci_evt).ack = (s.ack || aci_evt.isAck) := by
  simp only [Ble.got, Ble.note, Ble.assign, AciState.update, Message.isAck]
  cases aci_evt.opcode with
  | pipeError => split_ifs <;> simp
  | _ => simp

theorem got_session (hs : Sound s) (aci_evt : Message) :
    (s.session awaiting sending).event aci_evt =
      (s.got aci_evt).session (awaiting && !aci_evt.isAck) sending := by
  have hcontents := (RxBuffer.receive_eq aci_evt.aciData hs.rx).2
  simp only [Session.event, Ble.session, Ble.got, Ble.note, Ble.assign, AciState.update,
    Message.isAck]
  cases aci_evt.opcode with
  | pipeError => split_ifs <;> simp
  | _ => simp [hcontents]

theorem got_follows (hs : Sound s) (h : Follows s awaiting sending) (aci_evt : Message) :
    Sound (s.got aci_evt) ∧
      Follows (s.got aci_evt) (awaiting && !aci_evt.isAck) sending := by
  obtain ⟨hlink, htx, hname, hlog, hrx, hack⟩ := got_eq s aci_evt
  constructor
  · refine ⟨hlink ▸ hs.link, ?_, htx ▸ hs.room, hname ▸ hs.name, ?_, hlink ▸ hs.framed⟩
    · rcases hrx with hrx | hrx
      · exact hrx ▸ hs.rx
      · exact hrx ▸ (RxBuffer.receive_eq _ hs.rx).1
    · rw [hlink, hlog, hs.queued, List.filterMap_append]
      exact (List.append_nil _).symm
  · refine h.note hlog trivial (got_session hs aci_evt) fun htrue => ?_
    rw [hack, Bool.or_eq_true] at htrue
    rcases htrue with hold | hnew
    · rw [h.ack hold, Bool.false_and]
    · rw [hnew, Bool.not_true, Bool.and_false]

/-- What a function leaves that takes events.  A packet that has its answer keeps it. -/
def Served (s : Ble) (awaiting sending : Bool) (s' : Ble) : Prop :=
  Sound s' ∧ s'.txBuff = s.txBuff ∧
    ∃ awaiting', (awaiting = false → awaiting' = false) ∧ Follows s' awaiting' sending

section Loops

variable {radio : Link → Poll}

/-- The variables that the line sees do not change. -/
theorem Served.of_link (h : Follows s awaiting sending) {l : Link}
    (hsound : Sound { s with link := l }) : Served s awaiting sending { s with link := l } :=
  ⟨hsound, rfl, awaiting, id, h.legal, h.state, h.ack⟩

theorem handleEvent_served (hradio : ∀ l, (radio l).Fits) (hs : Sound s)
    (h : Follows s awaiting sending) :
    Returns (handleEvent radio) s fun _ s' => Served s awaiting sending s' := by
  refine Returns.bind (onLink_returns (halAciTlEventGet_inv hradio hs.link)) fun event s₁ h₁ => ?_
  obtain ⟨l, rfl, hlink, hqueued, _⟩ := h₁
  have hsound : Sound { s with link := l } :=
    ⟨hlink, hs.rx, hs.room, hs.name, by rw [← hs.queued, ← hqueued], hqueued ▸ hs.framed⟩
  cases event with
  | none => exact Returns.pure (.of_link h hsound)
  | some aci_evt =>
    have hfollows : Follows { s with link := l } awaiting sending := ⟨h.legal, h.state, h.ack⟩
    obtain ⟨hsound', hfollows'⟩ := got_follows hsound hfollows aci_evt
    refine Returns.bind_of_eq rfl ((respond_quiet hsound' hfollows' aci_evt).mono fun _ s' h' => ?_)
    refine ⟨h'.sound, h'.txBuff.trans (got_eq _ aci_evt).2.1, _, fun hno => ?_, h'.follows⟩
    rw [hno, Bool.false_and]

/-- The setup sends no data. -/
theorem payload_setup_messages (offset : Nat) :
    ((SETUP_MESSAGES_CONTENT.take offset).map HalAciData.bytes).filterMap payload = [] := by
  have hnone : ∀ msg ∈ SETUP_MESSAGES_CONTENT, payload msg.bytes = none := by decide
  rw [List.filterMap_eq_nil_iff]
  intro bytes hbytes
  obtain ⟨msg, hmsg, rfl⟩ := List.mem_map.mp hbytes
  exact hnone msg (List.mem_of_mem_take hmsg)

theorem framed_setup_messages (offset : Nat) :
    ∀ cmd ∈ (SETUP_MESSAGES_CONTENT.take offset).map HalAciData.bytes,
      (frame cmd).bind payload = payload cmd := by
  have hframed : ∀ msg ∈ SETUP_MESSAGES_CONTENT,
      (frame msg.bytes).bind payload = payload msg.bytes := by decide
  intro cmd hcmd
  obtain ⟨msg, hmsg, rfl⟩ := List.mem_map.mp hcmd
  exact hframed msg (List.mem_of_mem_take hmsg)

theorem processEvents_served (hradio : ∀ l, (radio l).Fits) (polls : Nat) (hs : Sound s)
    (h : Follows s awaiting sending) :
    Returns (processEvents radio polls) s fun _ s' => Served s awaiting sending s' := by
  refine Returns.bind (handleEvent_served hradio hs h) fun _ s₁ h₁ => Returns.get_bind ?_
  split_ifs with hsetup
  swap
  · exact Returns.pure h₁
  refine Returns.bind (onLink_returns (doAciSetup_done hradio h₁.1.link polls)) fun r s₂ h₂ => ?_
  obtain ⟨l, rfl, offset, hfilled, _⟩ := h₂
  have hserved : ∀ setupRequired,
      Served s awaiting sending { s₁ with link := l, setupRequired } := by
    intro setupRequired
    obtain ⟨hsound, htx, awaiting', hawaiting, hfollows⟩ := h₁
    refine ⟨⟨hfilled.inv, hsound.rx, hsound.room, hsound.name, ?_, ?_⟩, htx, awaiting', hawaiting,
      hfollows.legal, hfollows.state, hfollows.ack⟩
    swap
    · intro cmd hmem
      change cmd ∈ l.queued at hmem
      rw [hfilled.queued] at hmem
      rcases List.mem_append.mp hmem with hold | hnew
      · exact hsound.framed cmd hold
      · exact framed_setup_messages offset cmd hnew
    show l.queued.filterMap payload = s₁.log.filterMap Entry.takenPacket
    rw [hfilled.queued, List.filterMap_append, payload_setup_messages, List.append_nil,
      hsound.queued]
  cases r with
  | inl setup => exact Returns.pure (hserved s₁.setupRequired)
  | inr result =>
    cases result with
    | success => exact Returns.bind_of_eq rfl (Returns.pure (hserved false))
    | _ => exact Returns.pure (hserved s₁.setupRequired)

/-- The loop ends with the answer. -/
theorem waitAck_served (hradio : ∀ l, (radio l).Fits) (polls : Nat) (n : Nat) :
    ∀ {s : Ble} {awaiting : Bool}, Sound s → Follows s awaiting sending →
      Returns (waitAck radio polls n) s fun ended s' =>
        Served s awaiting sending s' ∧ (ended = true → s'.ack = true) := by
  induction n with
  | zero =>
    intro s awaiting hs h
    exact ⟨s.ack, s, rfl, ⟨hs, rfl, awaiting, id, h⟩, id⟩
  | succ n ih =>
    intro s awaiting hs h
    refine Returns.get_bind ?_
    split_ifs with hack
    · exact Returns.pure ⟨⟨hs, rfl, awaiting, id, h⟩, fun _ => hack⟩
    · refine Returns.bind (processEvents_served hradio polls hs h) fun ended s₁ h₁ => ?_
      cases ended with
      | false => exact Returns.pure ⟨h₁, fun hended => by cases hended⟩
      | true =>
        obtain ⟨hsound, htx, awaiting₁, hawaiting, hfollows⟩ := h₁
        refine (ih hsound hfollows).mono fun ended s₂ h₂ => ⟨?_, h₂.2⟩
        obtain ⟨⟨hsound', htx', awaiting₂, hawaiting', hfollows'⟩, _⟩ := h₂
        exact ⟨hsound', htx'.trans htx, awaiting₂, fun hno => hawaiting' (hawaiting hno),
          hfollows'⟩

/-- A packet of the next bytes, with no packet before it that waits. -/
theorem sendPacket_served (hradio : ∀ l, (radio l).Fits) (polls : Nat) {size : Nat} (hs : Sound s)
    (h : Follows s false sending)
    (hpipe : pipeAvailable s.aciState.pipesOpenBitmap PIPE_UART_OVER_BTLE_UART_TX_TX = true ∨
      sending = true)
    (hempty : s.txBuff ≠ []) (hsize : size ≤ ACI_PIPE_TX_DATA_MAX_LEN)
    (htake : s.txBuff.take size = s.txBuff.take ACI_PIPE_TX_DATA_MAX_LEN) :
    Returns (sendPacket radio polls size) s fun ended s' =>
      Sound s' ∧ s'.txBuff = s.txBuff.drop size ∧
        ∃ awaiting', (ended = true → awaiting' = false) ∧ Follows s' awaiting' true := by
  have hlength : (s.txBuff.take size).length ≤ ACI_PIPE_TX_DATA_MAX_LEN := by
    rw [List.length_take]
    exact Nat.le_trans (Nat.min_le_left _ _) hsize
  have hdrop : s.txBuff.drop (s.txBuff.take size).length = s.txBuff.drop size := by
    rw [List.length_take]
    rcases Nat.le_total size s.txBuff.length with hle | hle
    · rw [Nat.min_eq_left hle]
    · rw [Nat.min_eq_right hle, List.drop_length, List.drop_eq_nil_of_le hle]
  have hdrop' : (s.session false sending).pending.drop (s.txBuff.take size).length =
      s.txBuff.drop size := hdrop
  let cmd : List UInt8 :=
    [UInt8.ofNat (2 + (s.txBuff.take size).length), ACI_CMD_SEND_DATA, 4] ++ s.txBuff.take size
  have hpayload : payload cmd = some (s.txBuff.take size) := rfl
  have hsend : libAciSendData PIPE_UART_OVER_BTLE_UART_TX_TX (s.txBuff.take size) = send cmd := by
    have htype : (servicesPipeTypeMapping[PIPE_UART_OVER_BTLE_UART_TX_TX - 1]?).map Prod.snd =
        some .ACI_TX := rfl
    rw [libAciSendData, htype, if_neg (fun hno => hno.1 rfl), if_neg (by omega)]
    rfl
  refine Returns.get_bind ?_
  rw [hsend]
  refine Returns.bind (send_spec hs (wellFormed_data 4 hlength)) fun taken s₁ h₁ => ?_
  obtain ⟨hsound, l, rfl⟩ := h₁
  let s₂ : Ble :=
    { s with
      link := l
      log := s.log ++ [.command cmd taken]
      txBuff := s.txBuff.drop size
      aciState := { s.aciState with dataCreditAvailable := s.aciState.dataCreditAvailable - 1 }
      ack := false }
  have hfollows : Follows s₂ true true := by
    refine h.note rfl ?_ ?_ fun hack => by cases hack
    · intro data hdata
      obtain rfl : s.txBuff.take size = data := Option.some.inj hdata
      refine ⟨?_, htake, rfl, hpipe⟩
      rw [htake]
      exact fun hnil => hempty ((List.take_eq_nil_iff.mp hnil).resolve_left (by decide))
    · show (s.session false sending).command cmd taken = _
      rw [Session.command_of_payload hpayload, hdrop']
      rfl
  have hsound₂ : Sound s₂ := by
    refine ⟨hsound.link, hsound.rx, ?_, hsound.name, hsound.queued, hsound.framed⟩
    show (s.txBuff.drop size).length ≤ MAX_TX_BUFF
    rw [List.length_drop]
    exact Nat.le_trans (Nat.sub_le _ _) hs.room
  refine Returns.bind_of_eq (t := s₂) rfl ?_
  refine (waitAck_served hradio polls polls hsound₂ hfollows).mono fun ended s' h' => ?_
  obtain ⟨⟨hsound', htx, awaiting', _, hfollows'⟩, hended⟩ := h'
  exact ⟨hsound', htx, awaiting', fun hend => hfollows'.ack (hended hend), hfollows'⟩

/-- What a call leaves.  At its end no packet waits for its answer. -/
def AtRest (ended : Bool) (s : Ble) : Prop :=
  Sound s ∧ ∃ awaiting sending, (ended = true → awaiting = false) ∧ Follows s awaiting sending

/-- The packets of 20 bytes.  What is left is one packet. -/
theorem sendFull_served (hradio : ∀ l, (radio l).Fits) (polls : Nat) (n : Nat) :
    ∀ {s : Ble} {sending : Bool}, Sound s → Follows s false sending →
      (pipeAvailable s.aciState.pipesOpenBitmap PIPE_UART_OVER_BTLE_UART_TX_TX = true ∨
        sending = true) → 0 < s.txBuff.length → s.txBuff.length ≤ n →
      Returns (sendFull radio polls n) s fun ended s' =>
        AtRest ended s' ∧ (ended = true → 0 < s'.txBuff.length ∧ s'.txBuff.length ≤ 20 ∧
          ∃ sending', Follows s' false sending' ∧
            (pipeAvailable s'.aciState.pipesOpenBitmap PIPE_UART_OVER_BTLE_UART_TX_TX = true ∨
              sending' = true)) := by
  induction n with
  | zero => exact fun _ _ _ hpos hle => absurd hpos (by omega)
  | succ n ih =>
    intro s sending hs h hpipe hpos hle
    refine Returns.get_bind ?_
    split_ifs with hlong
    swap
    · refine Returns.pure ⟨⟨hs, false, sending, fun _ => rfl, h⟩, fun _ => ⟨hpos, ?_, ?_⟩⟩
      · omega
      · exact ⟨sending, h, hpipe⟩
    · have hempty : s.txBuff ≠ [] := List.ne_nil_of_length_pos hpos
      refine Returns.bind
        (sendPacket_served hradio polls hs h hpipe hempty (Nat.le_refl 20) rfl)
        fun ended s₁ h₁ => ?_
      obtain ⟨hsound, htx, awaiting, hended, hfollows⟩ := h₁
      cases ended with
      | false =>
        refine Returns.pure ⟨⟨hsound, awaiting, true, (fun h0 => by cases h0), hfollows⟩, ?_⟩
        exact fun h0 => by cases h0
      | true =>
        have hlength : s₁.txBuff.length = s.txBuff.length - 20 := by
          rw [htx, List.length_drop]
        rw [hended rfl] at hfollows
        exact ih hsound hfollows (Or.inr rfl) (by omega) (by omega)

theorem flush_rest (hradio : ∀ l, (radio l).Fits) (polls : Nat) (hs : Sound s)
    (h : Follows s false sending)
    (hpipe : pipeAvailable s.aciState.pipesOpenBitmap PIPE_UART_OVER_BTLE_UART_TX_TX = true)
    (hpos : 0 < s.txBuff.length) : Returns (flush radio polls) s AtRest := by
  refine Returns.get_bind ?_
  refine Returns.bind
    (sendFull_served hradio polls _ hs h (Or.inl hpipe) hpos (Nat.le_refl _)) fun ended s₁ h₁ => ?_
  obtain ⟨hrest, hlast⟩ := h₁
  cases ended with
  | false => exact Returns.pure hrest
  | true =>
    obtain ⟨hpos₁, hle, sending₁, hfollows, hpipe₁⟩ := hlast rfl
    refine Returns.get_bind ?_
    have htake : s₁.txBuff.take s₁.txBuff.length = s₁.txBuff.take ACI_PIPE_TX_DATA_MAX_LEN := by
      rw [List.take_length]
      exact (List.take_of_length_le hle).symm
    refine (sendPacket_served hradio polls hrest.1 hfollows hpipe₁
      (List.ne_nil_of_length_pos hpos₁) hle htake).mono fun ended s₂ h₂ => ?_
    obtain ⟨hsound, _, awaiting, hended, hfollows⟩ := h₂
    exact ⟨hsound, awaiting, true, hended, hfollows⟩

theorem bleDoEvents_rest (hradio : ∀ l, (radio l).Fits) (polls : Nat) (hs : Sound s)
    (h : Follows s false sending) : Returns (bleDoEvents radio polls) s AtRest := by
  have hevents : ∀ {s : Ble} {sending : Bool}, Sound s → Follows s false sending →
      Returns (processEvents radio polls) s AtRest := by
    intro s sending hs h
    refine (processEvents_served hradio polls hs h).mono fun ended s₁ h₁ => ?_
    obtain ⟨hsound, _, awaiting, hawaiting, hfollows⟩ := h₁
    exact ⟨hsound, awaiting, sending, fun _ => hawaiting rfl, hfollows⟩
  refine Returns.get_bind ?_
  split_ifs with hsend
  · refine Returns.bind (flush_rest hradio polls hs h hsend.1 hsend.2) fun ended s₁ h₁ => ?_
    cases ended with
    | false => exact Returns.pure h₁
    | true =>
      obtain ⟨hsound, awaiting, sending₁, hended, hfollows⟩ := h₁
      rw [hended rfl] at hfollows
      exact hevents hsound hfollows
  · exact hevents hs h

end Loops

/-! ## The other calls -/

theorem Sound.note (hs : Sound s) {e : Entry} (he : e.takenPacket = none) : Sound (s.note e) := by
  refine ⟨hs.link, hs.rx, hs.room, hs.name, ?_, hs.framed⟩
  show s.link.queued.filterMap payload = (s.log ++ [e]).filterMap Entry.takenPacket
  rw [hs.queued, List.filterMap_append, List.filterMap_cons, he, List.filterMap_nil,
    List.append_nil]

theorem bleWrite_rest (hs : Sound s) (h : Follows s false sending) (data : UInt8) :
    Returns (bleWrite data) s fun _ s' => AtRest true s' := by
  by_cases hfull : s.txBuff.length = MAX_TX_BUFF
  · refine ⟨(), s.note (.write data), congrArg (fun s' => some ((), Ble.note s' _)) (if_pos hfull),
      hs.note rfl, false, sending, fun _ => rfl, h.note rfl trivial ?_ h.ack⟩
    exact if_neg (by show ¬ s.txBuff.length < MAX_TX_BUFF; omega)
  · have hroom : s.txBuff.length < MAX_TX_BUFF := Nat.lt_of_le_of_ne hs.room hfull
    let s₁ : Ble := { s with txBuff := s.txBuff ++ [data] }
    have hsound : Sound s₁ := by
      refine ⟨hs.link, hs.rx, ?_, hs.name, hs.queued, hs.framed⟩
      show (s.txBuff ++ [data]).length ≤ MAX_TX_BUFF
      rw [List.length_append]
      exact hroom
    refine ⟨(), s₁.note (.write data), congrArg (fun s' => some ((), Ble.note s' _)) (if_neg hfull),
      hsound.note rfl, false, false, fun _ => rfl, h.note rfl trivial ?_ fun _ => rfl⟩
    exact if_pos hroom

theorem bleWriteBytes_rest (data : List UInt8) :
    ∀ {s : Ble} {sending : Bool}, Sound s → Follows s false sending →
      Returns (bleWriteBytes data) s fun _ s' => AtRest true s' := by
  induction data with
  | nil => exact fun hs h => Returns.pure ⟨hs, false, _, fun _ => rfl, h⟩
  | cons byte rest ih =>
    intro s sending hs h
    refine Returns.bind (bleWrite_rest hs h byte) fun _ s₁ h₁ => ?_
    obtain ⟨hsound, awaiting, sending₁, hended, hfollows⟩ := h₁
    rw [hended rfl] at hfollows
    exact ih hsound hfollows

theorem bleRead_rest (hs : Sound s) (h : Follows s false sending) :
    Returns bleRead s fun _ s' => AtRest true s' := by
  obtain ⟨hvalue, hvalid, hcontents⟩ := RxBuffer.bleRead_eq hs.rx
  let s₁ : Ble := { s with rx := (RxBuffer.bleRead s.rx).2 }
  have hsound : Sound s₁ := ⟨hs.link, hvalid, hs.room, hs.name, hs.queued, hs.framed⟩
  refine ⟨_, s₁.note (.read (RxBuffer.bleRead s.rx).1), rfl, hsound.note rfl, false, sending,
    fun _ => rfl, h.note rfl hvalue ?_ h.ack⟩
  have htail : (BleRgb.bleRead s.rx.contents).2 = s.rx.contents.tail := by
    cases s.rx.contents <;> rfl
  show ({ s.session false sending with inbox := s.rx.contents.tail } : Session) =
    { s.session false sending with inbox := (RxBuffer.bleRead s.rx).2.contents }
  rw [hcontents, htail]

theorem bleAvailable_rest (hs : Sound s) (h : Follows s false sending) :
    Returns bleAvailable s fun _ s' => AtRest true s' := by
  refine ⟨_, s.note (.available s.rx.bleAvailable), rfl, hs.note rfl, false, sending,
    fun _ => rfl, h.note rfl ?_ rfl h.ack⟩
  exact (RxBuffer.length_contents s.rx).symm

theorem bleConnected_rest (hs : Sound s) (h : Follows s false sending) :
    Returns bleConnected s fun _ s' => AtRest true s' :=
  ⟨_, s.note (.connected s.isConnected), rfl, hs.note rfl, false, sending, fun _ => rfl,
    h.note rfl rfl rfl h.ack⟩

theorem bleSetName_rest (hs : Sound s) (h : Follows s false sending) {name : List UInt8}
    (hname : (BleCall.setName name).Bounded) :
    Returns (bleSetName name) s fun _ s' => AtRest true s' := by
  rw [bleSetName]
  split_ifs with hlong hshort
  · exact Returns.pure ⟨hs, false, sending, fun _ => rfl, h⟩
  · exact ⟨(), { s with deviceName := name }, rfl,
      ⟨hs.link, hs.rx, hs.room, hshort, hs.queued, hs.framed⟩, false, sending, fun _ => rfl,
      h.legal, h.state, h.ack⟩
  · exact absurd hname (not_or.mpr ⟨hlong, hshort⟩)

theorem bleDisconnect_rest (hs : Sound s) (h : Follows s false sending) :
    Returns bleDisconnect s fun _ s' => AtRest true s' := by
  have hwell : WellFormed [2, ACI_CMD_DISCONNECT, ACI_REASON_TERMINATE] := ⟨rfl, by decide⟩
  refine Returns.bind (Returns.bind (send_spec hs hwell) fun taken s₁ h₁ => ?_) fun _ s₂ h₂ => h₂
  obtain ⟨hsound, l, rfl⟩ := h₁
  cases taken with
  | false =>
    refine Returns.pure (Returns.pure ⟨hsound, false, sending, fun _ => rfl, ?_⟩)
    exact h.note rfl (fun data hdata => by cases hdata) rfl h.ack
  | true =>
    let s₂ : Ble :=
      { s with
        link := l
        aciState := s.aciState.setPipes fun _ => 0
        log := s.log ++ [.command [2, ACI_CMD_DISCONNECT, ACI_REASON_TERMINATE] true] }
    have hsound₂ : Sound s₂ :=
      ⟨hsound.link, hsound.rx, hsound.room, hsound.name, hsound.queued, hsound.framed⟩
    refine Returns.bind_of_eq (t := s₂) rfl (Returns.pure (Returns.pure ⟨hsound₂, false, sending,
      fun _ => rfl, ?_⟩))
    exact h.note rfl (fun data hdata => by cases hdata) rfl h.ack

/-! ## Sequences of calls -/

theorem exec_rest {radio : Link → Poll} (hradio : ∀ l, (radio l).Fits) (polls : Nat) (hs : Sound s)
    (h : Follows s false sending) {call : BleCall} (hcall : call.Bounded) :
    Returns (call.exec radio polls) s AtRest := by
  cases call with
  | write data => exact Returns.bind (bleWrite_rest hs h data) fun _ s₁ h₁ => Returns.pure h₁
  | writeBytes data =>
    exact Returns.bind (bleWriteBytes_rest data hs h) fun _ s₁ h₁ => Returns.pure h₁
  | read => exact Returns.bind (bleRead_rest hs h) fun _ s₁ h₁ => Returns.pure h₁
  | available => exact Returns.bind (bleAvailable_rest hs h) fun _ s₁ h₁ => Returns.pure h₁
  | connected => exact Returns.bind (bleConnected_rest hs h) fun _ s₁ h₁ => Returns.pure h₁
  | setName name => exact Returns.bind (bleSetName_rest hs h hcall) fun _ s₁ h₁ => Returns.pure h₁
  | disconnect => exact Returns.bind (bleDisconnect_rest hs h) fun _ s₁ h₁ => Returns.pure h₁
  | doEvents => exact bleDoEvents_rest hradio polls hs h

theorem runCalls_rest {radio : Link → Poll} (hradio : ∀ l, (radio l).Fits) (polls : Nat)
    (calls : List BleCall) :
    ∀ {s : Ble} {sending : Bool}, Sound s → Follows s false sending →
      (∀ call ∈ calls, call.Bounded) → Returns (runCalls radio polls calls) s AtRest := by
  induction calls with
  | nil => exact fun hs h _ => Returns.pure ⟨hs, false, _, fun _ => rfl, h⟩
  | cons call calls ih =>
    intro s sending hs h hcalls
    refine Returns.bind (exec_rest hradio polls hs h (hcalls call List.mem_cons_self)) ?_
    intro ended s₁ h₁
    cases ended with
    | false => exact Returns.pure h₁
    | true =>
      obtain ⟨hsound, awaiting, sending₁, hended, hfollows⟩ := h₁
      rw [hended rfl] at hfollows
      exact ih hsound hfollows fun call' hcall' => hcalls call' (List.mem_cons_of_mem call hcall')

/-- What the radio has read of the data is the beginning of what was taken. -/
theorem Sound.payload_prefix (hs : Sound s) (hclean : s.link.txOverrun = false) :
    s.link.commands.filterMap payload <+: s.log.filterMap Entry.takenPacket := by
  have hlaw := congrArg (List.filterMap payload) (hs.link.tx hclean).filterMap_queued
  have hframed : s.link.queued.filterMap (fun cmd => (frame cmd).bind payload) =
      s.link.queued.filterMap payload := List.filterMap_congr hs.framed
  rw [List.filterMap_filterMap, hframed, hs.queued, List.filterMap_append] at hlaw
  exact ⟨_, hlaw.symm⟩

/-- The packets that were taken are the packets, if none was refused. -/
theorem takenPacket_eq {log : List Entry}
    (h : ∀ cmd, payload cmd ≠ none → Entry.command cmd false ∉ log) :
    log.filterMap Entry.takenPacket = log.filterMap Entry.packet := by
  refine List.filterMap_congr fun e he => ?_
  cases e with
  | command cmd taken =>
    cases taken with
    | true => rfl
    | false =>
      by_contra hne
      exact h cmd (fun hnone => hne hnone.symm) he
  | write | read | available | connected | event => rfl

/-- A radio that opens the pipe, passes two bytes on and then gives credit for every
packet that it has read. -/
def serving : Link → Poll := fun l =>
  match l.events.length with
  | 0 => .ofBytes false [0x11, 0x88, 0x10, 0, 0, 0, 0, 0, 0, 0, 0, 0, 0, 0, 0, 0, 0, 0]
  | 1 => .ofBytes false [4, 0x8C, 3, 0x68, 0x69]
  | n + 2 =>
    if n < (l.commands.filterMap payload).length then .ofBytes false [2, 0x8A, 1]
    else .ofBytes l.reqn []

theorem fits_serving (l : Link) : (serving l).Fits := by
  unfold serving
  split
  · show ((0x11 : UInt8)).toNat ≤ HAL_ACI_MAX_LENGTH
    decide
  · show ((4 : UInt8)).toNat ≤ HAL_ACI_MAX_LENGTH
    decide
  · split_ifs
    · show ((2 : UInt8)).toNat ≤ HAL_ACI_MAX_LENGTH
      decide
    · exact Nat.zero_le _

/-- A byte is read, and two packets go out and get their credit. -/
def servedCalls : List BleCall :=
  [.doEvents, .doEvents, .read, .writeBytes ((List.range 25).map UInt8.ofNat), .doEvents, .read]

theorem bounded_servedCalls : ∀ call ∈ servedCalls, call.Bounded := by
  simp [servedCalls, BleCall.Bounded]

theorem ended_servedCalls :
    (runCalls serving 9 servedCalls (.init .zero .zero)).map (fun r => r.1) = some true := by
  decide +kernel

/-- **Delivery.**  For the same radios and calls: what the sketch wrote is cut into
packets of 1 to 20 bytes, in order and without a gap, and what is left waits in the buffer.  If no packet was refused and
the queue was not overrun, what the radio has read is the beginning of what the sketch
wrote. -/
theorem runCalls_delivers {radio : Link → Poll} (hradio : ∀ l, (radio l).Fits) (polls : Nat)
    (txQ rxQ : AciQueue) {calls : List BleCall} (hcalls : ∀ call ∈ calls, call.Bounded) :
    Returns (runCalls radio polls calls) (.init txQ rxQ) fun _ s =>
      session.gather accepted .init s.log =
          (s.log.filterMap Entry.packet).flatten ++ s.txBuff ∧
        (∀ data ∈ s.log.filterMap Entry.packet, 0 < data.length ∧ data.length ≤ 20) ∧
        (s.link.txOverrun = false →
          s.link.commands.filterMap payload <+: s.log.filterMap Entry.takenPacket ∧
            ((∀ cmd, payload cmd ≠ none → Entry.command cmd false ∉ s.log) →
              (s.link.commands.filterMap payload).flatten <+:
                session.gather accepted .init s.log)) := by
  refine (runCalls_rest hradio polls calls (Ble.init_sound txQ rxQ) (Ble.init_follows txQ rxQ)
    hcalls).mono fun ended s h => ?_
  obtain ⟨hsound, awaiting, sending, hended, hfollows⟩ := h
  have hwritten : session.gather accepted .init s.log =
      (s.log.filterMap Entry.packet).flatten ++ s.txBuff := by
    rw [written_eq hfollows.legal, gather_sent, hfollows.state]
    rfl
  refine ⟨hwritten, fun data hdata => ?_, fun hclean => ?_⟩
  · obtain ⟨e, he, hpacket⟩ := List.mem_filterMap.mp hdata
    obtain ⟨pre, post, hlog⟩ := List.append_of_mem he
    have hlegal := packet_legal (hlog ▸ hfollows.legal) hpacket
    refine ⟨List.length_pos_iff.mpr hlegal.nonempty, ?_⟩
    rw [hlegal.next, List.length_take]
    exact Nat.min_le_left _ _
  · have hbegins := hsound.payload_prefix hclean
    refine ⟨hbegins, fun hall => ?_⟩
    rw [takenPacket_eq hall] at hbegins
    obtain ⟨rest, hrest⟩ := hbegins
    rw [hwritten, ← hrest, List.flatten_append, List.append_assoc]
    exact List.prefix_append _ _

theorem runCalls_delivers_served :
    Returns (runCalls serving 9 servedCalls) (.init .zero .zero) fun ended s =>
      ended = true ∧
        session.gather accepted .init s.log =
          (s.log.filterMap Entry.packet).flatten ++ s.txBuff ∧
        (∀ data ∈ s.log.filterMap Entry.packet, 0 < data.length ∧ data.length ≤ 20) ∧
        (s.link.txOverrun = false →
          s.link.commands.filterMap payload <+: s.log.filterMap Entry.takenPacket ∧
            ((∀ cmd, payload cmd ≠ none → Entry.command cmd false ∉ s.log) →
              (s.link.commands.filterMap payload).flatten <+:
                session.gather accepted .init s.log)) :=
  (runCalls_delivers fits_serving 9 .zero .zero bounded_servedCalls).with_value
    (fun ended => ended) ended_servedCalls

end ArduinoProjects.Nrf8001
