import ModbusRtu.Logic.Frames

/-!
# What each entry point does

One equation per branch of the state machine's entry points. Later proofs
rewrite with these and never unfold an entry point:

* receive callback: `serialRecvCb_idle`, `serialRecvCb_frame`,
  `serialRecvCb_other`, and the three together in `recv_case`;
* timer interrupt: `timerIsr_init`, `timerIsr_eof`, `timerIsr_recv`, `timerIsr_sof`;
* event: `event_quiet`, `event_error`, `event_init`, `event_idle_init`,
  `event_idle_eof`, `event_sof`, `event_recv`, `event_eof`, `event_busy`;
* frame processing: `aduProcess_rejected`, `aduProcess_silent`,
  `aduProcess_reply`, with the two forms of `serial_send` in
  `serialSend_async` and `serialSend_sync`.
-/

namespace ModbusRtu

open Base

variable {U : Type} {cfg : Config U}

/-! ## Receive callback -/

section Append

variable (s : State cfg) (data : UInt8)

@[simp] theorem rxbufAppend_status_curr : (rxbufAppend s data).status.curr = s.status.curr := by
  unfold rxbufAppend; split <;> rfl

@[simp] theorem rxbufAppend_status_prev : (rxbufAppend s data).status.prev = s.status.prev := by
  unfold rxbufAppend; split <;> rfl

theorem rxbufAppend_status_updated (h : s.status.updated = true) :
    (rxbufAppend s data).status.updated = true := by
  unfold rxbufAppend; split <;> first | exact h | rfl

@[simp] theorem rxbufAppend_txbuf : (rxbufAppend s data).txbuf = s.txbuf := by
  unfold rxbufAppend; split <;> rfl

@[simp] theorem rxbufAppend_timer : (rxbufAppend s data).timer = s.timer := by
  unfold rxbufAppend; split <;> rfl

@[simp] theorem rxbufAppend_timerCb : (rxbufAppend s data).timerCb = s.timerCb := by
  unfold rxbufAppend; split <;> rfl

/-- The receive cursor stays in the buffer whether there is room for the byte or not. -/
theorem rxbufAppend_cursor_le (h : s.rxbuf.curr ≤ cfg.rxbufCapacity) :
    (rxbufAppend s data).rxbuf.curr ≤ cfg.rxbufCapacity := by
  unfold rxbufAppend
  split
  · next hroom =>
      show s.rxbuf.curr + 1 ≤ cfg.rxbufCapacity
      omega
  · exact h

/-- A pending error stays pending. -/
theorem rxbufAppend_error (herr : s.status.error = true) :
    (rxbufAppend s data).status.error = true := by
  unfold rxbufAppend; split <;> first | exact herr | rfl

/-- No room, so an error. -/
theorem rxbufAppend_full (hfull : cfg.rxbufCapacity ≤ s.rxbuf.curr) :
    (rxbufAppend s data).status.error = true := by
  rw [rxbufAppend, if_neg (by omega)]
  rfl

theorem rxbufAppend_room (hroom : s.rxbuf.curr < cfg.rxbufCapacity) :
    (rxbufAppend s data).status.error = s.status.error := by
  rw [rxbufAppend, if_pos hroom]

@[simp] theorem rxbufAppend_userData : (rxbufAppend s data).userData = s.userData := by
  unfold rxbufAppend; split <;> rfl

/-- No error, so there was room. -/
theorem rxbufAppend_of_no_error (herr : (rxbufAppend s data).status.error = false) :
    s.status.error = false ∧ (rxbufAppend s data).rxbuf.filled = s.rxbuf.filled ++ [data] := by
  unfold rxbufAppend at herr ⊢
  split at herr
  · next hroom =>
      rw [if_pos hroom]
      exact ⟨herr, Buf.filled_push hroom data⟩
  · exact absurd herr Bool.true_eq_false.mp

end Append

theorem serialRecvCb_idle {s : State cfg} (h : s.status.curr = .idle) (data : UInt8) :
    serialRecvCb s data =
      ({ rxbufAppend (s.update .sof) data with timerCb := .interFrameTimeout }).timerStart1t5 := by
  rw [serialRecvCb, if_pos h]

theorem serialRecvCb_frame {s : State cfg} (h : s.status.curr = .sof ∨ s.status.curr = .recv)
    (data : UInt8) :
    serialRecvCb s data = (rxbufAppend (s.update .recv) data).timerReset := by
  have hne : s.status.curr ≠ .idle := by rcases h with h | h <;> simp [h]
  rw [serialRecvCb, if_neg hne, if_pos h]

theorem serialRecvCb_other {s : State cfg} (hidle : s.status.curr ≠ .idle)
    (hframe : ¬(s.status.curr = .sof ∨ s.status.curr = .recv)) (data : UInt8) :
    serialRecvCb s data = s.raise := by
  rw [serialRecvCb, if_neg hidle, if_neg hframe]

/-- The ways the receive callback goes, with the state each leads to. -/
inductive RecvCase (s : State cfg) (data : UInt8) : State cfg → Prop
  | opened (hc : s.status.curr = .idle) : RecvCase s data
      ({ rxbufAppend (s.update .sof) data with timerCb := .interFrameTimeout }).timerStart1t5
  | extended (hc : s.status.curr = .sof ∨ s.status.curr = .recv) :
      RecvCase s data (rxbufAppend (s.update .recv) data).timerReset
  | stray (hidle : s.status.curr ≠ .idle)
      (hframe : ¬(s.status.curr = .sof ∨ s.status.curr = .recv)) : RecvCase s data s.raise

theorem recv_case (s : State cfg) (data : UInt8) : RecvCase s data (serialRecvCb s data) := by
  by_cases hidle : s.status.curr = .idle
  · rw [serialRecvCb_idle hidle]
    exact .opened hidle
  · by_cases hframe : s.status.curr = .sof ∨ s.status.curr = .recv
    · rw [serialRecvCb_frame hframe]
      exact .extended hframe
    · rw [serialRecvCb_other hidle hframe]
      exact .stray hidle hframe

@[simp] theorem serialRecvCb_txbuf (s : State cfg) (data : UInt8) :
    (serialRecvCb s data).txbuf = s.txbuf := by
  have hcase := recv_case s data
  generalize serialRecvCb s data = s' at hcase ⊢
  cases hcase with
  | opened | extended => exact rxbufAppend_txbuf _ _
  | stray => rfl

/-- A byte does not clear a pending error. -/
theorem serialRecvCb_error {s : State cfg} (herr : s.status.error = true) (data : UInt8) :
    (serialRecvCb s data).status.error = true := by
  have hcase := recv_case s data
  generalize serialRecvCb s data = s' at hcase ⊢
  cases hcase with
  | opened => exact rxbufAppend_error (s.update .sof) data herr
  | extended => exact rxbufAppend_error (s.update .recv) data herr
  | stray => rfl

/-! ## Sent callback -/

theorem serialSentCb_busy {s : State cfg} (h : s.status.curr = .busy) :
    serialSentCb s = { s with txbuf := s.txbuf.rewind }.update .init := by
  rw [serialSentCb, if_pos h]

theorem serialSentCb_other {s : State cfg} (h : s.status.curr ≠ .busy) :
    serialSentCb s = s.raise := by
  rw [serialSentCb, if_neg h]

/-! ## Timer interrupt -/

theorem timerIsr_init {s : State cfg} (hcb : s.timerCb = .silentInterval)
    (h : s.status.curr = .init) : timerIsr s = (s.update .idle).timerStop := by
  simp only [timerIsr, hcb, timerSilentIntervalCb, if_pos h]

theorem timerIsr_eof {s : State cfg} (hcb : s.timerCb = .silentInterval)
    (hprev : s.status.prev = .recv) (h : s.status.curr = .eof) :
    timerIsr s = (s.update .idle).timerStop := by
  simp [timerIsr, hcb, timerSilentIntervalCb, h, hprev]

theorem timerIsr_recv {s : State cfg} (hcb : s.timerCb = .interFrameTimeout)
    (h : s.status.curr = .recv) :
    timerIsr s =
      ({ (s.update .eof).timerStop with timerCb := .silentInterval }).timerStart3t5 := by
  simp only [timerIsr, hcb, timerInterFrameTimeoutCb, if_pos h]

theorem timerIsr_sof {s : State cfg} (hcb : s.timerCb = .interFrameTimeout)
    (h : s.status.curr = .sof) : timerIsr s = s.raise := by
  simp [timerIsr, hcb, timerInterFrameTimeoutCb, h]

@[simp] theorem timerIsr_txbuf (s : State cfg) : (timerIsr s).txbuf = s.txbuf := by
  unfold timerIsr timerSilentIntervalCb timerInterFrameTimeoutCb
  split
  · rfl
  · split
    · rfl
    · split <;> rfl
  · split <;> rfl

/-- A timeout does not clear a pending error. -/
theorem timerIsr_error {s : State cfg} (herr : s.status.error = true) :
    (timerIsr s).status.error = true := by
  unfold timerIsr
  split
  · exact herr
  · unfold timerSilentIntervalCb
    split
    · exact herr
    · split
      · exact herr
      · rfl
  · unfold timerInterFrameTimeoutCb
    split
    · exact herr
    · rfl

/-! ## Frame processing -/

theorem aduCheck_of_accepted {adu : List UInt8} (h : Accepted adu) (s : State cfg) :
    aduCheck s adu = (true, s) := by
  rw [aduCheck, if_neg (by have := h.1; omega), if_neg (by simp [h.2])]

/-- A rejected frame changes nothing but a counter. -/
theorem aduCheck_of_not_accepted {adu : List UInt8} (h : ¬Accepted adu) (s : State cfg) :
    ∃ stats, aduCheck s adu = (false, { s with stats := stats }) := by
  unfold aduCheck
  by_cases hlen : aduMinSize > adu.length
  · rw [if_pos hlen]
    exact ⟨s.stats, rfl⟩
  · have hm : crcMatches adu = false := by
      by_contra hne
      exact h ⟨by omega, by simpa using hne⟩
    rw [if_neg hlen, if_pos (by simp [hm])]
    exact ⟨_, rfl⟩

/-- Storing a reply byte by byte. -/
theorem foldl_txPut (l : List UInt8) (s : State cfg) :
    l.foldl State.txPut s =
      { s with
        txbuf := s.txbuf.pushAll l
        calls := s.calls ++ (List.range' s.txbuf.curr l.length).map .txStore } := by
  induction l generalizing s with
  | nil => simp
  | cons x l ih =>
      rw [List.foldl_cons, ih, List.length_cons, List.range'_succ]
      simp [State.txPut]

/-- The reply of `pdu_cb` to the frame in the receive buffer. -/
def reply (s : State cfg) : List UInt8 := (cfg.pduCb s.userData (pduArgs s)).2

/-- The state `pdu_cb` leaves behind. -/
theorem callPduCb_eq (s : State cfg) :
    callPduCb s =
      { s with
        userData := (cfg.pduCb s.userData (pduArgs s)).1
        txbuf := s.txbuf.rewind.pushAll (reply s)
        calls := s.calls ++ .pduCb (pduArgs s) ::
          (List.range (reply s).length).map .txStore } := by
  simp only [callPduCb, foldl_txPut, State.note, reply, List.range_eq_range', Buf.curr_rewind]
  simp

/-- The state in which `serial_send` is called: the reply and its CRC stored,
the receive cursor back at the start, the machine busy. -/
def readyToSend (s : State cfg) : State cfg :=
  let crc := modbusRtuCalcCrc (s.txbuf.rewind.pushAll (reply s)).filled
  { s with
    userData := (cfg.pduCb s.userData (pduArgs s)).1
    rxbuf := s.rxbuf.rewind
    txbuf := s.txbuf.rewind.pushAll (reply s ++ [crc.low, crc.high])
    status := s.status.update .busy
    calls := s.calls ++ .pduCb (pduArgs s) ::
      (List.range ((reply s).length + 2)).map .txStore }

theorem aduProcess_rejected (send : State cfg → State cfg) {s : State cfg}
    (h : ¬Accepted s.rxbuf.filled) :
    ∃ stats, aduProcess send s = { s with stats := stats }.raise := by
  obtain ⟨stats, hcheck⟩ := aduCheck_of_not_accepted h s
  exact ⟨stats, by rw [aduProcess, hcheck]⟩

/-- An accepted frame without a reply. -/
theorem aduProcess_silent {send : State cfg → State cfg} {s : State cfg}
    (h : Accepted s.rxbuf.filled) (hreply : reply s = []) :
    aduProcess send s =
      { s with
        userData := (cfg.pduCb s.userData (pduArgs s)).1
        rxbuf := s.rxbuf.rewind
        txbuf := s.txbuf.rewind
        calls := s.calls ++ [.pduCb (pduArgs s)] } := by
  simp [aduProcess, aduCheck_of_accepted h, callPduCb_eq, hreply]

/-- An accepted frame with a reply. -/
theorem aduProcess_reply {send : State cfg → State cfg} {s : State cfg}
    (h : Accepted s.rxbuf.filled) (hreply : reply s ≠ []) :
    aduProcess send s = send (readyToSend s) := by
  have hlen : (reply s).length ≠ 0 := by simpa using hreply
  simp only [aduProcess, aduCheck_of_accepted h, callPduCb_eq, Buf.curr_pushAll, Buf.curr_rewind,
    Nat.zero_add, ne_eq, hlen, not_false_eq_true, if_true, State.txPut, State.update, readyToSend]
  simp [Buf.pushAll_append, List.range_succ]

/-! ## Sending -/

theorem serialSend_async (h : cfg.serialSend = .async) (s : State cfg) :
    serialSend s = startTransmission s := by
  rw [serialSend, h]

/-- A synchronous send ends with the machine restarted: the nested event finds
it in `init`, on the way back from `busy`. -/
theorem serialSend_sync (h : cfg.serialSend = .sync) {s : State cfg}
    (hbusy : s.status.curr = .busy) (herr : s.status.error = false) :
    serialSend s =
      restart { startTransmission s with
        txbuf := s.txbuf.rewind
        status := { updated := false, error := false, prev := .busy, curr := .init } } := by
  have hbusy' : (startTransmission s).status.curr = .busy := hbusy
  rw [serialSend, h]
  simp only
  -- the callback goes from `busy` to `init`, where the event behind it restarts
  rw [serialSentCb_busy hbusy']
  simp [eventWith, State.update, Status.update, startTransmission, State.note, hbusy, herr]

/-- The three ways the processing of an accepted frame ends, by the status it
leaves: answered by silence, reply in transmission, reply sent. -/
theorem aduProcess_accepted_status {s : State cfg} (hacc : Accepted s.rxbuf.filled)
    (herr : s.status.error = false) :
    (aduProcess serialSend s).status = s.status ∨
      (aduProcess serialSend s).status = s.status.update .busy ∨
      (aduProcess serialSend s).status =
        { updated := false, error := false, prev := .busy, curr := .init } := by
  by_cases hreply : reply s = []
  · rw [aduProcess_silent hacc hreply]
    exact .inl rfl
  · have hbusy : (readyToSend s).status.curr = .busy := rfl
    rw [aduProcess_reply hacc hreply]
    cases hsend : cfg.serialSend with
    | async =>
        rw [serialSend_async hsend]
        exact .inr (.inl rfl)
    | sync =>
        rw [serialSend_sync hsend hbusy herr]
        exact .inr (.inr rfl)

/-- A rejected frame adds a fourth. -/
theorem aduProcess_status {s : State cfg} (herr : s.status.error = false) :
    (aduProcess serialSend s).status = s.status.raise ∨
      (aduProcess serialSend s).status = s.status ∨
      (aduProcess serialSend s).status = s.status.update .busy ∨
      (aduProcess serialSend s).status =
        { updated := false, error := false, prev := .busy, curr := .init } := by
  by_cases hacc : Accepted s.rxbuf.filled
  · exact .inr (aduProcess_accepted_status hacc herr)
  · obtain ⟨stats, hrej⟩ := aduProcess_rejected serialSend hacc
    rw [hrej]
    exact .inl rfl

/-- What an accepted frame does to the user data, whatever the reply. -/
theorem aduProcess_userData {s : State cfg} (hacc : Accepted s.rxbuf.filled)
    (herr : s.status.error = false) :
    (aduProcess serialSend s).userData = (cfg.pduCb s.userData (pduArgs s)).1 := by
  by_cases hreply : reply s = []
  · rw [aduProcess_silent hacc hreply]
  · have hbusy : (readyToSend s).status.curr = .busy := rfl
    rw [aduProcess_reply hacc hreply]
    cases hsend : cfg.serialSend with
    | async => rw [serialSend_async hsend]; rfl
    | sync => rw [serialSend_sync hsend hbusy herr]; rfl

/-! ## Event -/

variable {s : State cfg}

/-- The state with the `updated` bit consumed. -/
def consumed (s : State cfg) : State cfg :=
  { s with status := { s.status with updated := false } }

theorem event_quiet (h : s.status.updated = false) : modbusRtuEvent s = s := by
  simp [modbusRtuEvent, eventWith, h]

theorem event_error (h : s.status.updated = true) (herr : s.status.error = true) :
    modbusRtuEvent s = errorRestart (consumed s) := by
  simp [modbusRtuEvent, eventWith, h, herr, consumed]

section NoError

variable (h : s.status.updated = true) (herr : s.status.error = false)
include h herr

theorem event_init (hcurr : s.status.curr = .init) :
    modbusRtuEvent s = restart (consumed s) := by
  simp [modbusRtuEvent, eventWith, h, herr, hcurr, consumed]

theorem event_idle_init (hcurr : s.status.curr = .idle) (hprev : s.status.prev = .init) :
    modbusRtuEvent s = consumed s := by
  simp [modbusRtuEvent, eventWith, h, herr, hcurr, hprev, consumed]

theorem event_idle_eof (hcurr : s.status.curr = .idle) (hprev : s.status.prev = .eof)
    (htx : s.txbuf.curr = 0) :
    modbusRtuEvent s =
      if cfg.resumeCb then (aduProcess serialSend (consumed s)).note .resumeCb
      else aduProcess serialSend (consumed s) := by
  simp [modbusRtuEvent, eventWith, h, herr, hcurr, hprev, htx, consumed]

theorem event_sof (hcurr : s.status.curr = .sof) (hprev : s.status.prev = .idle) :
    modbusRtuEvent s = if cfg.suspendCb then (consumed s).note .suspendCb else consumed s := by
  cases hcb : cfg.suspendCb <;>
    simp [modbusRtuEvent, eventWith, h, herr, hcurr, hprev, consumed, State.note, hcb]

theorem event_recv (hcurr : s.status.curr = .recv) : modbusRtuEvent s = consumed s := by
  simp [modbusRtuEvent, eventWith, h, herr, hcurr, consumed]

theorem event_eof (hcurr : s.status.curr = .eof) (hprev : s.status.prev = .recv) :
    modbusRtuEvent s = consumed s := by
  simp [modbusRtuEvent, eventWith, h, herr, hcurr, hprev, consumed]

theorem event_busy (hcurr : s.status.curr = .busy) : modbusRtuEvent s = consumed s := by
  simp [modbusRtuEvent, eventWith, h, herr, hcurr, consumed]

end NoError

end ModbusRtu
