import ModbusRtu.Logic.RtuSteps

/-!
# The state machine invariant

`Wf` is what holds in every state any interleaving of the entry points
reaches (`wf_invariant`):

* an error is always announced (`error` implies `updated`);
* the state before the current one is a predecessor of it (`Status.Ordered`);
* the timer is armed for, and its callback installed for, exactly the state
  the machine is in (`TimerOk`);
* the transmit cursor leaves the start only in `busy`;
* the receive cursor is at the start in every state outside a frame
  (`Status.Drained`), and it never leaves the buffer.

With the invariant, `timer_case` and `event_case` list what a timeout and an
event can do.
-/

namespace ModbusRtu

open Base

variable {U : Type} {cfg : Config U}

/-- `prev` is a state from which `curr` is entered. -/
def Status.Ordered (status : Status) : Prop :=
  match status.curr with
  | .init => True
  | .idle => status.prev = .init ∨ status.prev = .eof
  | .sof => status.prev = .idle
  | .recv => status.prev = .sof ∨ status.prev = .recv
  | .eof => status.prev = .recv
  | .busy => status.prev = .idle
  | .raw6 | .raw7 => False

/-- The states in which no received byte is waiting: everything but a frame in
progress and a confirmed frame whose event is still to come. -/
def Status.Drained (status : Status) : Prop :=
  match status.curr with
  | .init | .busy => True
  | .idle => status.prev = .init ∨ status.updated = false
  | .sof | .recv | .eof | .raw6 | .raw7 => False

/-- The timer and its callback fit the state. In `init` the timer is still
stopped until the event that starts it. -/
def TimerOk (s : State cfg) : Prop :=
  match s.status.curr with
  | .init =>
      (s.timer = .armed3t5 ∧ s.timerCb = .silentInterval) ∨
        (s.timer = .stopped ∧ s.status.updated = true)
  | .idle | .busy => s.timer = .stopped
  | .sof | .recv => s.timer = .armed1t5 ∧ s.timerCb = .interFrameTimeout
  | .eof => s.timer = .armed3t5 ∧ s.timerCb = .silentInterval
  | .raw6 | .raw7 => False

structure Wf (s : State cfg) : Prop where
  errorUpdated : s.status.error = true → s.status.updated = true
  ordered : s.status.Ordered
  timerOk : TimerOk s
  txIdle : s.status.curr ≠ .busy → s.txbuf.curr = 0
  rxIdle : s.status.Drained → s.rxbuf.curr = 0
  rxBound : s.rxbuf.curr ≤ cfg.rxbufCapacity

namespace Wf

variable {s : State cfg}

/-! ## Reading the invariant off -/

theorem error_of_not_updated (h : Wf s) (hup : s.status.updated = false) :
    s.status.error = false := by
  cases herr : s.status.error with
  | false => rfl
  | true => cases (h.errorUpdated herr).symm.trans hup

theorem timer_idle (h : Wf s) (hcurr : s.status.curr = .idle) : s.timer = .stopped := by
  simpa [TimerOk, hcurr] using h.timerOk

theorem timer_busy (h : Wf s) (hcurr : s.status.curr = .busy) : s.timer = .stopped := by
  simpa [TimerOk, hcurr] using h.timerOk

theorem timer_frame (h : Wf s) (hcurr : s.status.curr = .sof ∨ s.status.curr = .recv) :
    s.timer = .armed1t5 ∧ s.timerCb = .interFrameTimeout := by
  rcases hcurr with hcurr | hcurr <;> simpa [TimerOk, hcurr] using h.timerOk

theorem timer_eof (h : Wf s) (hcurr : s.status.curr = .eof) :
    s.timer = .armed3t5 ∧ s.timerCb = .silentInterval := by
  simpa [TimerOk, hcurr] using h.timerOk

theorem armed_frame (h : Wf s) (hcurr : s.status.curr = .sof ∨ s.status.curr = .recv) :
    s.timer ≠ .stopped := by
  simp [(h.timer_frame hcurr).1]

theorem armed_eof (h : Wf s) (hcurr : s.status.curr = .eof) : s.timer ≠ .stopped := by
  simp [(h.timer_eof hcurr).1]

/-- In `init` the timer is armed once the event has been there. -/
theorem armed_init (h : Wf s) (hcurr : s.status.curr = .init) (hup : s.status.updated = false) :
    s.timer ≠ .stopped := by
  have hok := h.timerOk
  simp only [TimerOk, hcurr, hup] at hok
  rcases hok with ⟨htimer, -⟩ | ⟨-, hup'⟩
  · simp [htimer]
  · cases hup'

theorem timer_init (h : Wf s) (hcurr : s.status.curr = .init) (harmed : s.timer ≠ .stopped) :
    s.timer = .armed3t5 ∧ s.timerCb = .silentInterval := by
  have hok := h.timerOk
  simp only [TimerOk, hcurr] at hok
  rcases hok with hok | ⟨hstop, _⟩
  · exact hok
  · exact absurd hstop harmed

theorem prev_idle (h : Wf s) (hcurr : s.status.curr = .idle) :
    s.status.prev = .init ∨ s.status.prev = .eof := by
  simpa [Status.Ordered, hcurr] using h.ordered

theorem prev_sof (h : Wf s) (hcurr : s.status.curr = .sof) : s.status.prev = .idle := by
  simpa [Status.Ordered, hcurr] using h.ordered

theorem prev_eof (h : Wf s) (hcurr : s.status.curr = .eof) : s.status.prev = .recv := by
  simpa [Status.Ordered, hcurr] using h.ordered

/-- Only the six named states occur. -/
theorem curr_cases (h : Wf s) :
    s.status.curr = .init ∨ s.status.curr = .idle ∨ s.status.curr = .sof ∨
      s.status.curr = .recv ∨ s.status.curr = .eof ∨ s.status.curr = .busy := by
  have hord := h.ordered
  cases hcurr : s.status.curr <;> simp [Status.Ordered, hcurr] at hord ⊢

/-- In `idle` without anything to report, the receive buffer is empty. -/
theorem rx_empty (h : Wf s) (hcurr : s.status.curr = .idle) (hup : s.status.updated = false) :
    s.rxbuf.curr = 0 :=
  h.rxIdle (by simp [Status.Drained, hcurr, hup])

/-! ## Preservation -/

/-- The invariant looks at nothing but the status, the timer and the cursors. -/
theorem congr {s' : State cfg} (h : Wf s) (hstatus : s'.status = s.status)
    (htimer : s'.timer = s.timer) (hcb : s'.timerCb = s.timerCb)
    (htx : s'.txbuf.curr = s.txbuf.curr) (hrx : s'.rxbuf.curr = s.rxbuf.curr) : Wf s' where
  errorUpdated := by rw [hstatus]; exact h.errorUpdated
  ordered := by rw [hstatus]; exact h.ordered
  timerOk := by
    have hok := h.timerOk
    unfold TimerOk at hok ⊢
    rw [hstatus, htimer, hcb]
    exact hok
  txIdle := by rw [hstatus, htx]; exact h.txIdle
  rxIdle := by rw [hstatus, hrx]; exact h.rxIdle
  rxBound := by rw [hrx]; exact h.rxBound

/-- Raising an error keeps the invariant in any state. -/
theorem raise (h : Wf s) : Wf s.raise where
  errorUpdated _ := rfl
  ordered := h.ordered
  timerOk := by
    have hok := h.timerOk
    unfold TimerOk at hok ⊢
    simp only [State.raise, Status.raise]
    revert hok
    cases s.status.curr <;> simp
    rintro (hok | hok)
    · exact .inl hok
    · exact .inr hok.1
  txIdle := h.txIdle
  rxIdle hdr := by
    apply h.rxIdle
    revert hdr
    simp only [Status.Drained, State.raise, Status.raise]
    cases s.status.curr <;> simp
    exact Or.inl
  rxBound := h.rxBound

/-- In the middle of a frame the timer, the order of the states and the cursors
are all there is to check. -/
theorem inFrame {s : State cfg} (hcurr : s.status.curr = .sof ∨ s.status.curr = .recv)
    (hup : s.status.updated = true) (hord : s.status.Ordered)
    (htimer : s.timer = .armed1t5 ∧ s.timerCb = .interFrameTimeout) (htx : s.txbuf.curr = 0)
    (hrx : s.rxbuf.curr ≤ cfg.rxbufCapacity) : Wf s where
  errorUpdated _ := hup
  ordered := hord
  timerOk := by rcases hcurr with hcurr | hcurr <;> simpa [TimerOk, hcurr] using htimer
  txIdle _ := htx
  rxIdle hdr := by rcases hcurr with hcurr | hcurr <;> simp [Status.Drained, hcurr] at hdr
  rxBound := hrx

/-- The code behind `restart` establishes the invariant in `init`. -/
theorem restart {s : State cfg} (hcurr : s.status.curr = .init)
    (herr : s.status.error = true → s.status.updated = true) : Wf (restart s) where
  errorUpdated := herr
  ordered := by
    show s.status.Ordered
    simp [Status.Ordered, hcurr]
  timerOk := by
    simp [TimerOk, ModbusRtu.restart, State.timerStart3t5, State.timerStop, resetTxbuf, resetRxbuf,
      hcurr]
  txIdle _ := rfl
  rxIdle _ := rfl
  rxBound := Nat.zero_le _

theorem errorRestart (s : State cfg) : Wf (errorRestart s) :=
  Wf.restart rfl (by intro h; simp at h)

end Wf

/-! ## The entry points keep the invariant -/

theorem modbusRtuInit_wf (userData : U) : Wf (modbusRtuInit cfg userData) where
  errorUpdated h := by simp [modbusRtuInit] at h
  ordered := by simp [Status.Ordered, modbusRtuInit]
  timerOk := by simp [TimerOk, modbusRtuInit]
  txIdle _ := rfl
  rxIdle _ := rfl
  rxBound := Nat.zero_le _

theorem serialRecvCb_wf {s : State cfg} (h : Wf s) (data : UInt8) : Wf (serialRecvCb s data) := by
  have hcase := recv_case s data
  generalize serialRecvCb s data = s' at hcase ⊢
  cases hcase with
  | opened hidle =>
      refine Wf.inFrame (.inl ?_) ?_ ?_ ⟨rfl, rfl⟩ ?_ ?_
      · exact rxbufAppend_status_curr _ _
      · exact rxbufAppend_status_updated _ _ rfl
      · simpa [Status.Ordered, State.timerStart1t5, State.update, Status.update] using hidle
      · simpa [State.timerStart1t5, State.update] using h.txIdle (by simp [hidle])
      · exact rxbufAppend_cursor_le _ _ h.rxBound
  | extended hframe =>
      refine Wf.inFrame (.inr ?_) ?_ ?_ ?_ ?_ ?_
      · exact rxbufAppend_status_curr _ _
      · exact rxbufAppend_status_updated _ _ rfl
      · simpa [Status.Ordered, State.timerReset, State.update, Status.update] using hframe
      · simpa [State.timerReset, State.update] using h.timer_frame hframe
      · have htx := h.txIdle (by rcases hframe with hf | hf <;> simp [hf])
        simpa [State.timerReset, State.update] using htx
      · exact rxbufAppend_cursor_le _ _ h.rxBound
  | stray => exact h.raise

theorem serialRecvErrCb_wf {s : State cfg} (h : Wf s) (data : UInt8) :
    Wf (serialRecvErrCb s data) :=
  Wf.raise (h.congr rfl rfl rfl rfl rfl)

/-- A state on the way back to the start: `init`, announced, nothing stored. -/
theorem Wf.toInit {s : State cfg} (hcurr : s.status.curr = .init) (hup : s.status.updated = true)
    (htimer : s.timer = .stopped) (htx : s.txbuf.curr = 0) (hrx : s.rxbuf.curr = 0) : Wf s where
  errorUpdated _ := hup
  ordered := by simp [Status.Ordered, hcurr]
  timerOk := by simp [TimerOk, hcurr, htimer, hup]
  txIdle _ := htx
  rxIdle _ := hrx
  rxBound := by omega

theorem serialSentCb_wf {s : State cfg} (h : Wf s) : Wf (serialSentCb s) := by
  by_cases hbusy : s.status.curr = .busy
  · rw [serialSentCb_busy hbusy]
    exact Wf.toInit rfl rfl (h.timer_busy hbusy) rfl (h.rxIdle (by simp [Status.Drained, hbusy]))
  · rw [serialSentCb_other hbusy]
    exact h.raise

/-- Entering `idle` stops the timer; the buffer may still hold the confirmed frame. -/
theorem Wf.toIdle {s : State cfg} (hcurr : s.status.curr = .idle)
    (hprev : s.status.prev = .init ∨ s.status.prev = .eof) (hup : s.status.updated = true)
    (htimer : s.timer = .stopped) (htx : s.txbuf.curr = 0) (hrx : s.rxbuf.curr ≤ cfg.rxbufCapacity)
    (hempty : s.status.prev = .init → s.rxbuf.curr = 0) : Wf s where
  errorUpdated _ := hup
  ordered := by simpa [Status.Ordered, hcurr] using hprev
  timerOk := by simpa [TimerOk, hcurr] using htimer
  txIdle _ := htx
  rxIdle hdr := by
    simp only [Status.Drained, hcurr, hup] at hdr
    exact hempty (by simpa using hdr)
  rxBound := hrx

/-- The ways a timeout goes, with the state each leads to. -/
inductive TimerCase (s : State cfg) : State cfg → Prop
  | silence (hc : s.status.curr = .init) : TimerCase s (s.update .idle).timerStop
  | stray (hc : s.status.curr = .sof) : TimerCase s s.raise
  | ended (hc : s.status.curr = .recv) :
      TimerCase s ({ (s.update .eof).timerStop with timerCb := .silentInterval }).timerStart3t5
  | confirmed (hc : s.status.curr = .eof) : TimerCase s (s.update .idle).timerStop

/-- The armed timer has the callback of the state. -/
theorem timer_case {s : State cfg} (h : Wf s) (harmed : s.timer ≠ .stopped) :
    TimerCase s (timerIsr s) := by
  rcases h.curr_cases with hc | hc | hc | hc | hc | hc
  · rw [timerIsr_init (h.timer_init hc harmed).2 hc]
    exact .silence hc
  · exact absurd (h.timer_idle hc) harmed
  · rw [timerIsr_sof (h.timer_frame (.inl hc)).2 hc]
    exact .stray hc
  · rw [timerIsr_recv (h.timer_frame (.inr hc)).2 hc]
    exact .ended hc
  · rw [timerIsr_eof (h.timer_eof hc).2 (h.prev_eof hc) hc]
    exact .confirmed hc
  · exact absurd (h.timer_busy hc) harmed

theorem timerIsr_wf {s : State cfg} (h : Wf s) (harmed : s.timer ≠ .stopped) :
    Wf (timerIsr s) := by
  have htx : s.status.curr ≠ .busy → s.txbuf.curr = 0 := h.txIdle
  have hcase := timer_case h harmed
  generalize timerIsr s = s' at hcase ⊢
  cases hcase with
  | silence hc =>
      have hrx : s.rxbuf.curr = 0 := h.rxIdle (by simp [Status.Drained, hc])
      exact Wf.toIdle rfl (.inl hc) rfl rfl (htx (by simp [hc])) h.rxBound (fun _ => hrx)
  | stray => exact h.raise
  | ended hc =>
      -- the timer changes over from 1.5t to 3.5t, together with its callback
      refine ⟨fun _ => rfl, ?_, ?_, fun _ => htx (by simp [hc]), ?_, h.rxBound⟩
      · exact hc
      · exact ⟨rfl, rfl⟩
      · exact fun hdr => hdr.elim
  | confirmed hc =>
      refine Wf.toIdle rfl (.inr hc) rfl rfl (htx (by simp [hc])) h.rxBound ?_
      intro hprev
      cases hc.symm.trans hprev

/-! ## What an event can do -/

/-- The event is about to process a confirmed frame. -/
structure Handles (s : State cfg) : Prop where
  updated : s.status.updated = true
  error : s.status.error = false
  curr : s.status.curr = .idle
  prev : s.status.prev = .eof

instance (s : State cfg) : Decidable (Handles s) :=
  decidable_of_iff
    (s.status.updated = true ∧ s.status.error = false ∧ s.status.curr = .idle ∧
      s.status.prev = .eof)
    ⟨fun ⟨h1, h2, h3, h4⟩ => ⟨h1, h2, h3, h4⟩, fun ⟨h1, h2, h3, h4⟩ => ⟨h1, h2, h3, h4⟩⟩

theorem not_handles_of_updated {s : State cfg} (h : s.status.updated = false) : ¬Handles s :=
  fun hh => Bool.false_ne_true (h.symm.trans hh.updated)

theorem not_handles_of_error {s : State cfg} (h : s.status.error = true) : ¬Handles s :=
  fun hh => Bool.false_ne_true (hh.error.symm.trans h)

theorem not_handles_of_curr {s : State cfg} {c : RtuState} (h : s.status.curr = c)
    (hne : c ≠ .idle := by decide) : ¬Handles s :=
  fun hh => hne (h.symm.trans hh.curr)

/-- Only the status decides. -/
theorem Handles.congr {s s' : State cfg} (hh : Handles s) (h : s'.status = s.status) :
    Handles s' :=
  ⟨h ▸ hh.updated, h ▸ hh.error, h ▸ hh.curr, h ▸ hh.prev⟩

/-- The state behind the event that processes a frame. -/
def handled (s : State cfg) : State cfg :=
  if cfg.resumeCb then (aduProcess serialSend (consumed s)).note .resumeCb
  else aduProcess serialSend (consumed s)

/-- The ways an event goes, with the state each leads to. -/
inductive EventCase (s : State cfg) : State cfg → Prop
  | quiet (hup : s.status.updated = false) : EventCase s s
  | error (hup : s.status.updated = true) (herr : s.status.error = true) :
      EventCase s (errorRestart (consumed s))
  | init (hup : s.status.updated = true) (herr : s.status.error = false)
      (hc : s.status.curr = .init) : EventCase s (restart (consumed s))
  | frame (hh : Handles s) : EventCase s (handled s)
  | passed (hup : s.status.updated = true) (herr : s.status.error = false)
      (hc : s.status.curr ≠ .init) (hp : s.status.curr = .idle → s.status.prev = .init) :
      EventCase s (consumed s)
  | suspended (hup : s.status.updated = true) (herr : s.status.error = false)
      (hc : s.status.curr = .sof) : EventCase s ((consumed s).note .suspendCb)

theorem event_case {s : State cfg} (h : Wf s) : EventCase s (modbusRtuEvent s) := by
  cases hup : s.status.updated with
  | false =>
      rw [event_quiet hup]
      exact .quiet hup
  | true =>
    cases herr : s.status.error with
    | true =>
        rw [event_error hup herr]
        exact .error hup herr
    | false =>
      rcases h.curr_cases with hc | hc | hc | hc | hc | hc
      · rw [event_init hup herr hc]
        exact .init hup herr hc
      · -- `idle`: behind a restart there is nothing to do, behind `eof` a frame
        rcases h.prev_idle hc with hp | hp
        · rw [event_idle_init hup herr hc hp]
          exact .passed hup herr (by simp [hc]) (fun _ => hp)
        · rw [event_idle_eof hup herr hc hp (h.txIdle (by simp [hc]))]
          exact .frame ⟨hup, herr, hc, hp⟩
      · rw [event_sof hup herr hc (h.prev_sof hc)]
        split
        · exact .suspended hup herr hc
        · exact .passed hup herr (by simp [hc]) (by simp [hc])
      · rw [event_recv hup herr hc]
        exact .passed hup herr (by simp [hc]) (by simp [hc])
      · rw [event_eof hup herr hc (h.prev_eof hc)]
        exact .passed hup herr (by simp [hc]) (by simp [hc])
      · rw [event_busy hup herr hc]
        exact .passed hup herr (by simp [hc]) (by simp [hc])

theorem event_handled {s : State cfg} (h : Wf s) (hh : Handles s) : modbusRtuEvent s = handled s :=
  event_idle_eof hh.updated hh.error hh.curr hh.prev (h.txIdle (by simp [hh.curr]))

/-! ## The event keeps the invariant -/

/-- Outside `init` and `idle` nothing depends on the `updated` bit, so consuming
it is harmless; `idle` entered from `init` has nothing in its buffer. -/
theorem consumed_wf {s : State cfg} (h : Wf s) (herr : s.status.error = false)
    (hinit : s.status.curr ≠ .init)
    (hidle : s.status.curr = .idle → s.status.prev = .init) : Wf (consumed s) where
  errorUpdated he := by rw [show (consumed s).status.error = false from herr] at he; cases he
  ordered := h.ordered
  timerOk := by
    have hok := h.timerOk
    unfold TimerOk at hok ⊢
    simp only [consumed]
    revert hok
    cases hc : s.status.curr <;> simp_all
  txIdle := h.txIdle
  rxIdle hdr := by
    apply h.rxIdle
    revert hdr hidle
    simp only [Status.Drained, consumed]
    cases s.status.curr <;> simp
    exact Or.inl
  rxBound := h.rxBound

/-- Handling a confirmed frame ends in one of four ways, all within the invariant. -/
theorem aduProcess_wf {s : State cfg} (h : Wf s) (hcurr : s.status.curr = .idle)
    (herr : s.status.error = false) : Wf (aduProcess serialSend (consumed s)) := by
  by_cases hacc : Accepted (consumed s).rxbuf.filled
  · by_cases hreply : reply (consumed s) = []
    · rw [aduProcess_silent hacc hreply]
      refine ⟨?_, h.ordered, ?_, fun _ => rfl, fun _ => rfl, Nat.zero_le _⟩
      · intro he
        rw [show s.status.error = true from he] at herr; cases herr
      · simpa [TimerOk, consumed, hcurr] using h.timer_idle hcurr
    · rw [aduProcess_reply hacc hreply]
      have hready : (readyToSend (consumed s)).status.curr = .busy := rfl
      cases hsend : cfg.serialSend with
      | async =>
          rw [serialSend_async hsend]
          refine ⟨fun _ => rfl, ?_, ?_, fun hne => absurd rfl hne, fun _ => rfl, Nat.zero_le _⟩
          · exact hcurr
          · exact h.timer_idle hcurr
      | sync =>
          rw [serialSend_sync hsend hready herr]
          exact Wf.restart rfl (fun he => by cases he)
  · obtain ⟨stats, hrej⟩ := aduProcess_rejected serialSend hacc
    rw [hrej]
    refine Wf.toIdle hcurr (h.prev_idle hcurr) rfl (h.timer_idle hcurr) ?_ h.rxBound ?_
    · exact h.txIdle (by simp [hcurr])
    · exact fun hprev => h.rxIdle (by
        simp only [Status.Drained, hcurr]
        exact .inl hprev)

theorem modbusRtuEvent_wf {s : State cfg} (h : Wf s) : Wf (modbusRtuEvent s) := by
  have hcase := event_case h
  generalize modbusRtuEvent s = s' at hcase ⊢
  cases hcase with
  | quiet hup => exact h
  | error hup herr => exact Wf.errorRestart _
  | init hup herr hc =>
      exact Wf.restart hc (fun he => by rw [show s.status.error = true from he] at herr; cases herr)
  | frame hh =>
      have hwf := aduProcess_wf h hh.curr hh.error
      unfold handled
      split
      · exact hwf.congr rfl rfl rfl rfl rfl
      · exact hwf
  | passed hup herr hc hp => exact consumed_wf h herr hc hp
  | suspended hup herr hc =>
      exact (consumed_wf h herr (by simp [hc]) (by simp [hc])).congr rfl rfl rfl rfl rfl

/-- Every state of every interleaving is well-formed. -/
theorem wf_invariant : (rtuSystem cfg).Inductive Wf where
  init := by
    rintro s ⟨userData, rfl⟩
    exact modbusRtuInit_wf userData
  step s a h hen := by
    cases a with
    | recv data => exact serialRecvCb_wf h data
    | recvErr data => exact serialRecvErrCb_wf h data
    | sent => exact serialSentCb_wf h
    | timer => exact timerIsr_wf h (hen rfl)
    | event => exact modbusRtuEvent_wf h

end ModbusRtu
