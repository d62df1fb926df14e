import ModbusRtu.Logic.RtuWf

/-!
# The calls a step makes

Only one branch of one entry point hands a frame over: the event that finds
the machine in `idle`, entered from `eof`, without an error (`Handles`). Its
calls are `frameCalls`: `pdu_cb`, the stores of the reply and `serial_send`.
`step_calls` says that every step makes these calls if it takes that branch,
and otherwise none of their kind (`Call.ofFrame`).
-/

namespace ModbusRtu

open Base

variable {U : Type} {cfg : Config U}

/-- The calls that belong to the processing of a received frame. -/
def Call.ofFrame : Call → Bool
  | .pduCb _ | .serialSend _ | .txStore _ => true
  | _ => false

/-- No call of the list belongs to the processing of a frame, and received
bytes are stored within the first `cap` cells. -/
def Plain (cap : Nat) (calls : List Call) : Prop :=
  ∀ c ∈ calls, c.ofFrame = false ∧ ∀ i, c = .rxStore i → i < cap

theorem plain_nil {cap : Nat} : Plain cap [] := by simp [Plain]

/-- A call that is neither for a frame nor a store. -/
theorem plain_singleton {cap : Nat} {c : Call} (hframe : c.ofFrame = false)
    (hstore : ∀ i, c ≠ .rxStore i) : Plain cap [c] := by
  intro d hd
  rw [List.mem_singleton.mp hd]
  exact ⟨hframe, fun i hi => absurd hi (hstore i)⟩

theorem Plain.append {cap : Nat} {l₁ l₂ : List Call} (h₁ : Plain cap l₁) (h₂ : Plain cap l₂) :
    Plain cap (l₁ ++ l₂) :=
  fun c hc => (List.mem_append.mp hc).elim (h₁ c) (h₂ c)

/-- The reply with its CRC, as `serial_send` finds it in the transmit buffer. -/
def replyAdu (s : State cfg) : List UInt8 := (readyToSend s).txbuf.filled

/-- The calls made for the frame in the receive buffer. -/
def frameCalls (s : State cfg) : List Call :=
  if Accepted s.rxbuf.filled then
    .pduCb (pduArgs s) ::
      if reply s = [] then []
      else (List.range ((reply s).length + 2)).map .txStore ++ [.serialSend (replyAdu s)]
  else []

/-- Consuming the `updated` bit does not change what a frame gives rise to. -/
theorem frameCalls_consumed (s : State cfg) : frameCalls (consumed s) = frameCalls s := rfl

/-! ## Steps that process no frame -/

/-- The step from `s` to `s'` makes no call for a frame. -/
def PlainStep (s s' : State cfg) : Prop :=
  ∃ l, s'.calls = s.calls ++ l ∧ Plain cfg.rxbufCapacity l

theorem plainStep_of_calls_eq {s s' : State cfg} (h : s'.calls = s.calls) : PlainStep s s' :=
  ⟨[], by rw [h, List.append_nil], plain_nil⟩

/-- The timer is stopped and started for 3.5t, behind a frame and at a restart. -/
def changeoverCalls : List Call := [.timerStop, .timerStart3t5 .stopped]

theorem plain_changeover {cap : Nat} {l : List Call} (hl : l = [] ∨ l = changeoverCalls) :
    Plain cap l := by
  rcases hl with rfl | rfl
  · exact plain_nil
  · simp [Plain, changeoverCalls, Call.ofFrame]

theorem restart_calls (s : State cfg) : (restart s).calls = s.calls ++ changeoverCalls := by
  simp [restart, State.timerStart3t5, State.timerStop, resetTxbuf, resetRxbuf, changeoverCalls]

theorem plainStep_restart (s : State cfg) : PlainStep s (restart s) :=
  ⟨changeoverCalls, restart_calls s, plain_changeover (.inr rfl)⟩

theorem plainStep_errorRestart (s : State cfg) : PlainStep s (errorRestart s) :=
  plainStep_restart _

theorem plainStep_rxbufAppend (s : State cfg) (data : UInt8) :
    PlainStep s (rxbufAppend s data) := by
  unfold rxbufAppend
  split
  · next hroom => exact ⟨[.rxStore s.rxbuf.curr], rfl, by simpa [Plain, Call.ofFrame] using hroom⟩
  · exact plainStep_of_calls_eq rfl

/-- One more call that belongs to no frame. -/
theorem PlainStep.snoc {s s' s'' : State cfg} (h : PlainStep s s') {c : Call}
    (hcalls : s''.calls = s'.calls ++ [c]) (hc : Plain cfg.rxbufCapacity [c]) :
    PlainStep s s'' := by
  obtain ⟨l, hl, hplain⟩ := h
  exact ⟨l ++ [c], by rw [hcalls, hl, List.append_assoc], hplain.append hc⟩

theorem plainStep_serialRecvCb (s : State cfg) (data : UInt8) :
    PlainStep s (serialRecvCb s data) := by
  have hcase := recv_case s data
  generalize serialRecvCb s data = s' at hcase ⊢
  cases hcase with
  | opened =>
      exact (plainStep_rxbufAppend (s.update .sof) data).snoc rfl (plain_singleton rfl nofun)
  | extended =>
      exact (plainStep_rxbufAppend (s.update .recv) data).snoc rfl (plain_singleton rfl nofun)
  | stray => exact plainStep_of_calls_eq rfl

theorem plainStep_serialSentCb (s : State cfg) : PlainStep s (serialSentCb s) := by
  unfold serialSentCb
  split <;> exact plainStep_of_calls_eq rfl

theorem plainStep_timerIsr (s : State cfg) : PlainStep s (timerIsr s) := by
  have hstop : ∀ t : State cfg, PlainStep t t.timerStop := fun t =>
    ⟨[.timerStop], rfl, plain_singleton rfl nofun⟩
  unfold timerIsr
  split
  · exact plainStep_of_calls_eq rfl
  · unfold timerSilentIntervalCb
    split
    · exact hstop (s.update .idle)
    · split
      · exact hstop (s.update .idle)
      · exact plainStep_of_calls_eq rfl
  · unfold timerInterFrameTimeoutCb
    split
    · exact (hstop (s.update .eof)).snoc rfl (plain_singleton rfl nofun)
    · exact plainStep_of_calls_eq rfl

/-- An event that finds no confirmed frame processes none. -/
theorem plainStep_event {s : State cfg} (hwf : Wf s) (hnot : ¬Handles s) :
    PlainStep s (modbusRtuEvent s) := by
  have hcase := event_case hwf
  generalize modbusRtuEvent s = s' at hcase ⊢
  cases hcase with
  | quiet hup => exact plainStep_of_calls_eq rfl
  | error hup herr => exact plainStep_errorRestart (consumed s)
  | init hup herr hc => exact plainStep_restart (consumed s)
  | frame hh => exact absurd hh hnot
  | passed hup herr hc hp => exact plainStep_of_calls_eq rfl
  | suspended hup herr hc => exact (plainStep_of_calls_eq rfl).snoc rfl (plain_singleton rfl nofun)

/-! ## The event that processes a frame -/

/-- Behind the calls for a frame only a synchronous `serial_send` calls more. -/
theorem aduProcess_calls {s : State cfg} (herr : s.status.error = false) :
    ∃ l, (aduProcess serialSend s).calls = s.calls ++ frameCalls s ++ l ∧
      (l = [] ∨ l = changeoverCalls) := by
  by_cases hacc : Accepted s.rxbuf.filled
  · by_cases hreply : reply s = []
    · rw [aduProcess_silent hacc hreply]
      exact ⟨[], by simp [frameCalls, hacc, hreply], .inl rfl⟩
    · have hcalls : (startTransmission (readyToSend s)).calls = s.calls ++ frameCalls s := by
        simp [startTransmission, State.note, readyToSend, frameCalls, hacc, hreply, replyAdu]
      rw [aduProcess_reply hacc hreply]
      cases hsend : cfg.serialSend with
      | async =>
          rw [serialSend_async hsend, hcalls]
          exact ⟨[], (List.append_nil _).symm, .inl rfl⟩
      | sync =>
          -- what follows the calls for the frame are those of the nested restart
          have hbusy : (readyToSend s).status.curr = .busy := rfl
          rw [serialSend_sync hsend hbusy herr]
          refine ⟨changeoverCalls, ?_, .inr rfl⟩
          rw [restart_calls]
          exact congrArg (· ++ changeoverCalls) hcalls
  · obtain ⟨stats, hrej⟩ := aduProcess_rejected serialSend hacc
    rw [hrej]
    exact ⟨[], by simp [frameCalls, hacc, State.raise], .inl rfl⟩

/-- The event that handles a frame: its calls, those of the nested restart, `resume_cb`. -/
theorem event_calls {s : State cfg} (hwf : Wf s) (h : Handles s) :
    ∃ l, (modbusRtuEvent s).calls =
        s.calls ++ frameCalls s ++ (l ++ if cfg.resumeCb then [.resumeCb] else []) ∧
      (l = [] ∨ l = changeoverCalls) := by
  obtain ⟨l, hl, hkind⟩ := aduProcess_calls (s := consumed s) h.error
  rw [frameCalls_consumed] at hl
  refine ⟨l, ?_, hkind⟩
  rw [event_handled hwf h, handled]
  split
  · show (aduProcess serialSend (consumed s)).calls ++ [.resumeCb] = _
    rw [hl, List.append_assoc]
    rfl
  · rw [hl, List.append_nil]
    rfl

/-! ## All steps -/

/-- The calls of a step that belong to a frame. -/
def stepFrameCalls (s : State cfg) (a : Action) : List Call :=
  if a = .event ∧ Handles s then frameCalls s else []

/-- What a step calls for a frame: `frameCalls` when it handles one, else nothing. -/
theorem step_calls {s : State cfg} (hwf : Wf s) (a : Action) :
    ∃ l, (s.step a).calls = s.calls ++ stepFrameCalls s a ++ l ∧ Plain cfg.rxbufCapacity l := by
  by_cases hh : a = .event ∧ Handles s
  · obtain ⟨l, hl, hkind⟩ := event_calls hwf hh.2
    rw [stepFrameCalls, if_pos hh, hh.1]
    refine ⟨_, hl, (plain_changeover hkind).append ?_⟩
    split
    · exact plain_singleton rfl nofun
    · exact plain_nil
  · have hplain : PlainStep s (s.step a) := by
      cases a with
      | recv data => exact plainStep_serialRecvCb s data
      | recvErr data => exact plainStep_of_calls_eq rfl
      | sent => exact plainStep_serialSentCb s
      | timer => exact plainStep_timerIsr s
      | event => exact plainStep_event hwf fun h => hh ⟨rfl, h⟩
    rw [stepFrameCalls, if_neg hh, List.append_nil]
    exact hplain

/-- A call that belongs to a frame is one of `frameCalls`. -/
theorem mem_callsSince_step {s : State cfg} (hwf : Wf s) {a : Action} {c : Call}
    (hc : c.ofFrame = true) :
    c ∈ callsSince s (s.step a) ↔ (a = .event ∧ Handles s) ∧ c ∈ frameCalls s := by
  obtain ⟨l, hl, hplain⟩ := step_calls hwf a
  have hnot : c ∉ l := fun hm => by rw [(hplain c hm).1] at hc; cases hc
  rw [callsSince, hl, List.append_assoc, List.drop_left, List.mem_append, or_iff_left hnot,
    stepFrameCalls]
  by_cases hh : a = .event ∧ Handles s
  · rw [if_pos hh, and_iff_right hh]
  · rw [if_neg hh]
    exact iff_of_false List.not_mem_nil fun h => hh h.1

/-! ## Calls of `pdu_cb` and `serial_send` -/

/-- The calls of `pdu_cb` among `calls`. -/
def pduCalls (calls : List Call) : List PduArgs :=
  calls.filterMap fun
    | .pduCb args => some args
    | _ => none

/-- What was handed to `serial_send`. -/
def sends (calls : List Call) : List (List UInt8) :=
  calls.filterMap fun
    | .serialSend adu => some adu
    | _ => none

theorem pduCalls_filter (calls : List Call) :
    pduCalls (calls.filter Call.ofFrame) = pduCalls calls := by
  rw [pduCalls, List.filterMap_filter]
  congr 1
  funext c
  cases c <;> rfl

theorem sends_filter (calls : List Call) : sends (calls.filter Call.ofFrame) = sends calls := by
  rw [sends, List.filterMap_filter]
  congr 1
  funext c
  cases c <;> rfl

theorem pduCalls_append (l₁ l₂ : List Call) :
    pduCalls (l₁ ++ l₂) = pduCalls l₁ ++ pduCalls l₂ :=
  List.filterMap_append

theorem sends_append (l₁ l₂ : List Call) : sends (l₁ ++ l₂) = sends l₁ ++ sends l₂ :=
  List.filterMap_append

theorem sends_plain {cap : Nat} {l : List Call} (h : Plain cap l) : sends l = [] := by
  rw [sends, List.filterMap_eq_nil_iff]
  intro c hc
  have hplain := (h c hc).1
  cases c <;> first | rfl | cases hplain

/-- A reply that fits the transmit buffer is sent with its CRC. -/
theorem replyAdu_eq {s : State cfg} (hfits : (reply s).length + 2 ≤ cfg.txbufCapacity) :
    replyAdu s = withCrc (reply s) := by
  have hreply : (s.txbuf.rewind.pushAll (reply s)).filled = reply s := by
    rw [Buf.filled_pushAll (by simp; omega), Buf.filled_rewind, List.nil_append]
  rw [replyAdu, readyToSend, hreply]
  show (s.txbuf.rewind.pushAll _).filled = _
  rw [Buf.filled_pushAll (by simp; omega), Buf.filled_rewind, List.nil_append, withCrc]

/-- What an accepted frame gives rise to. -/
theorem frameCalls_of_accepted {s : State cfg} (hacc : Accepted s.rxbuf.filled) :
    pduCalls (frameCalls s) = [pduArgs s] ∧
      sends (frameCalls s) = if reply s = [] then [] else [replyAdu s] := by
  rw [frameCalls, if_pos hacc]
  by_cases hreply : reply s = []
  · simp [hreply, pduCalls, sends]
  · simp [hreply, pduCalls, sends, List.filterMap_append, List.filterMap_map]

/-- Processing a frame sends what the calls for it say. -/
theorem sends_aduProcess {s : State cfg} (herr : s.status.error = false) :
    sends (callsSince s (aduProcess serialSend s)) = sends (frameCalls s) := by
  obtain ⟨l, hcalls, hkind⟩ := aduProcess_calls herr
  have hplain : Plain cfg.rxbufCapacity l := plain_changeover hkind
  rw [callsSince, hcalls, List.append_assoc, List.drop_left, sends_append, sends_plain hplain,
    List.append_nil]

theorem frameCalls_of_not_accepted {s : State cfg} (hacc : ¬Accepted s.rxbuf.filled) :
    frameCalls s = [] :=
  if_neg hacc

end ModbusRtu
