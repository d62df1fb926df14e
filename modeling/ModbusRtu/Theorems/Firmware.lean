import ModbusRtu.Code.Atmega
import ModbusRtu.Theorems.Settling

/-!
# The sleep of the firmware

The main loop sleeps behind every event, and only an interrupt wakes it up. No
frame waits for it while it sleeps: interrupts are disabled from `cli` on, and
`sei` lets `sleep_cpu` be executed first, so behind the event nothing changes
before the loop sleeps (`Sound`). Then either an interrupt is due, or the
machine is at rest. What it may sleep over is the error that a rejected frame
has left; the next byte makes it restart.

If nothing is received, the loop goes round a few more times, whatever the
order of its statements and the interrupts (`silence_ends_in_sleep`): each
interrupt that calls the machine takes it further towards rest (`naps`), and
those of the transmitter that do not only let the loop go round.
-/

namespace ModbusRtu

open Base

/-! ## The event that handles a frame -/

section

variable {U : Type} {cfg : Config U} {s : State cfg}

/-- The ways a frame is handled if `serial_send` returns at once. -/
theorem handled_async (hasync : cfg.serialSend = .async) (hwf : Wf s) (hh : Handles s) :
    (¬Accepted s.rxbuf.filled ∧ AtRest true (modbusRtuEvent s)) ∨
      (Accepted s.rxbuf.filled ∧ reply s = [] ∧ Quiet (modbusRtuEvent s)) ∨
      (Accepted s.rxbuf.filled ∧ reply s ≠ [] ∧ (modbusRtuEvent s).status.curr = .busy ∧
        (modbusRtuEvent s).status.error = false) := by
  have hwf' : Wf (modbusRtuEvent s) := modbusRtuEvent_wf hwf
  have hstatus : (modbusRtuEvent s).status = (aduProcess serialSend (consumed s)).status := by
    rw [event_handled hwf hh, handled]
    split <;> rfl
  by_cases hacc : Accepted s.rxbuf.filled
  · by_cases hreply : reply s = []
    · rw [aduProcess_silent (s := consumed s) hacc hreply] at hstatus
      exact .inr (.inl ⟨hacc, hreply, hwf', by rw [hstatus]; exact hh.curr, by rw [hstatus]; rfl⟩)
    · rw [aduProcess_reply (s := consumed s) hacc hreply, serialSend_async hasync] at hstatus
      exact .inr (.inr ⟨hacc, hreply, by rw [hstatus]; rfl, by rw [hstatus]; exact hh.error⟩)
  · obtain ⟨stats, hrej⟩ := aduProcess_rejected (s := consumed s) serialSend hacc
    rw [hrej] at hstatus
    exact .inl ⟨hacc, hwf', by rw [hstatus]; exact hh.curr, by rw [hstatus]; rfl,
      by rw [hstatus]; rfl⟩

/-- An event starts a transmission when it handles a frame that has a reply. -/
theorem starts_iff (hwf : Wf s) :
    (callsSince s (modbusRtuEvent s)).any startsTransmission = true ↔
      Handles s ∧ Accepted s.rxbuf.filled ∧ reply s ≠ [] := by
  have hmem (adu : List UInt8) : Call.serialSend adu ∈ callsSince s (modbusRtuEvent s) ↔
      (Action.event = .event ∧ Handles s) ∧ Call.serialSend adu ∈ frameCalls s :=
    mem_callsSince_step (a := .event) hwf rfl
  rw [List.any_eq_true]
  constructor
  · rintro ⟨c, hc, hstarts⟩
    cases c with
    | serialSend adu =>
        obtain ⟨⟨-, hh⟩, hin⟩ := (hmem adu).mp hc
        unfold frameCalls at hin
        split at hin
        · next hacc =>
            refine ⟨hh, hacc, ?_⟩
            intro hreply
            simp [hreply] at hin
        · cases hin
    | _ => cases hstarts
  · rintro ⟨hh, hacc, hreply⟩
    refine ⟨.serialSend (replyAdu s), (hmem _).mpr ⟨⟨rfl, hh⟩, ?_⟩, rfl⟩
    rw [frameCalls, if_pos hacc, if_neg hreply]
    simp

/-- A transmission starts with an event that handles a frame, and ends with `serial_sent_cb`. -/
theorem busy_of_step (hasync : cfg.serialSend = .async) (hwf : Wf s) {a : Action}
    (hen : (rtuSystem cfg).enabled s a) (hbusy : (s.step a).status.curr = .busy) :
    a ≠ .sent ∧ (s.status.curr = .busy ∨
      a = .event ∧ (callsSince s (modbusRtuEvent s)).any startsTransmission = true) := by
  cases a with
  | recv data =>
      refine ⟨Action.noConfusion, .inl ?_⟩
      change (serialRecvCb s data).status.curr = .busy at hbusy
      have hcase := recv_case s data
      generalize serialRecvCb s data = s' at hcase hbusy
      cases hcase with
      | opened =>
          change (rxbufAppend (s.update .sof) data).status.curr = .busy at hbusy
          rw [rxbufAppend_status_curr] at hbusy
          cases hbusy
      | extended =>
          change (rxbufAppend (s.update .recv) data).status.curr = .busy at hbusy
          rw [rxbufAppend_status_curr] at hbusy
          cases hbusy
      | stray => exact hbusy
  | recvErr data => exact ⟨Action.noConfusion, .inl hbusy⟩
  | sent =>
      change (serialSentCb s).status.curr = .busy at hbusy
      by_cases hc : s.status.curr = .busy
      · rw [serialSentCb_busy hc] at hbusy
        cases hbusy
      · rw [serialSentCb_other hc] at hbusy
        exact absurd hbusy hc
  | timer =>
      refine ⟨Action.noConfusion, .inl ?_⟩
      change (timerIsr s).status.curr = .busy at hbusy
      have hcase := timer_case hwf (hen rfl)
      generalize timerIsr s = s' at hcase hbusy
      cases hcase with
      | silence | ended | confirmed => cases hbusy
      | stray => exact hbusy
  | event =>
      refine ⟨Action.noConfusion, ?_⟩
      change (modbusRtuEvent s).status.curr = .busy at hbusy
      by_cases hh : Handles s
      · rcases handled_async hasync hwf hh with ⟨-, hrest⟩ | ⟨-, -, hquiet⟩ | ⟨hacc, hreply, -⟩
        · cases hrest.curr.symm.trans hbusy
        · cases hquiet.curr.symm.trans hbusy
        · exact .inr ⟨rfl, (starts_iff hwf).mpr ⟨hh, hacc, hreply⟩⟩
      · refine .inl ?_
        have hcase := event_case hwf
        generalize modbusRtuEvent s = s' at hcase hbusy
        cases hcase with
        | quiet | passed | suspended => exact hbusy
        | error => cases hbusy
        | init => exact hbusy
        | frame hh' => exact absurd hh' hh

end

/-! ## The firmware at any time -/

variable {U : Type} {pduCb : U → PduArgs → U × List UInt8} {fw fw' : Firmware pduCb}
  {i : Interrupt}

/-- The loop is about to call `modbus_rtu_event`. -/
def Statement.Ahead (next : Statement) : Prop := next = .cli ∨ next = .event

instance (next : Statement) : Decidable next.Ahead := inferInstanceAs (Decidable (_ ∨ _))

namespace Firmware

/-- What holds between two moves. Behind an event interrupts stay disabled, so
the event has left what it leaves until the loop is asleep. -/
structure Sound (fw : Firmware pduCb) : Prop where
  wf : Wf fw.state
  masked : fw.interrupts = true → fw.next = .cli ∨ fw.next = .sleepCpu ∨ fw.next = .asleep
  enabled : fw.next = .sleepCpu ∨ fw.next = .asleep → fw.interrupts = true
  left : ¬fw.next.Ahead → fw.state.status.updated = false ∨
    (fw.state.status.curr = .busy ∧ fw.state.status.error = false) ∨ AtRest true fw.state
  idle : fw.next = .dispatch → fw.state.status.curr = .idle
  sending : fw.state.status.curr = .busy → fw.sending = true

theorem main_cli (hnext : fw.next = .cli) :
    fw.main = { fw with next := .event, interrupts := false } := by
  rw [main, hnext]

theorem main_event (hnext : fw.next = .event) :
    fw.main = { fw with
      state := modbusRtuEvent fw.state
      next := .idle
      sending := fw.sending ||
        (callsSince fw.state (modbusRtuEvent fw.state)).any startsTransmission } := by
  rw [main, hnext]

/-- Behind the event the loop only goes on to its sleep. -/
theorem main_behind (hnot : ¬fw.next.Ahead) :
    fw.main.state = fw.state ∧ fw.main.sending = fw.sending ∧ ¬fw.main.next.Ahead := by
  cases hnext : fw.next with
  | cli => exact absurd (.inl hnext) hnot
  | event => exact absurd (.inr hnext) hnot
  | idle =>
      have hstep : fw.main =
          { fw with next := if modbusRtuIdle fw.state then .dispatch else .sei } := by
        rw [main, hnext]
      rw [hstep]
      refine ⟨rfl, rfl, ?_⟩
      dsimp only
      split <;> decide
  | dispatch | sei | sleepCpu | asleep => simp [main, hnext, Statement.Ahead]

/-- A statement of the loop calls `modbus_rtu_event` or leaves the state alone. -/
theorem main_cases (fw : Firmware pduCb) :
    fw.next = .event ∨ fw.main.state = fw.state ∧ fw.main.sending = fw.sending ∧
      (fw.main.next.Ahead ↔ fw.next.Ahead) := by
  by_cases hahead : fw.next.Ahead
  · rcases hahead with hnext | hnext
    · rw [main_cli hnext]
      exact .inr ⟨rfl, rfl, iff_of_true (.inr rfl) (.inl hnext)⟩
    · exact .inl hnext
  · obtain ⟨hstate, hsending, hnot⟩ := main_behind hahead
    exact .inr ⟨hstate, hsending, iff_of_false hnot hahead⟩

theorem Sound.main (h : fw.Sound) : fw.main.Sound := by
  by_cases hahead : fw.next.Ahead
  · rcases hahead with hnext | hnext
    · rw [main_cli hnext]
      exact ⟨h.wf, nofun, by simp, by simp [Statement.Ahead], nofun, h.sending⟩
    · rw [main_event hnext]
      refine ⟨modbusRtuEvent_wf h.wf, fun hon => absurd (h.masked hon) (by simp [hnext]), by simp,
        ?_, nofun, ?_⟩
      · intro _
        exact (event_outcome h.wf).imp_right (Or.imp_left And.right)
      · intro hbusy
        show (fw.sending || _) = true
        rcases (busy_of_step rfl h.wf (a := .event) (enabled_event _) hbusy).2 with hc | ⟨-, hst⟩
        · rw [h.sending hc, Bool.true_or]
        · rw [hst, Bool.or_true]
  · obtain ⟨hstate, hsending, -⟩ := main_behind hahead
    have hleft := h.left hahead
    refine ⟨by rw [hstate]; exact h.wf, ?_, ?_, fun _ => by rw [hstate]; exact hleft, ?_,
      by rw [hstate, hsending]; exact h.sending⟩
    · intro hon
      cases hnext : fw.next with
      | cli => exact absurd (.inl hnext) hahead
      | event => exact absurd (.inr hnext) hahead
      | idle | dispatch =>
          simp only [Firmware.main, hnext] at hon
          exact absurd (h.masked hon) (by simp [hnext])
      | sei | sleepCpu | asleep => simp [Firmware.main, hnext]
    · intro hlate
      cases hnext : fw.next with
      | cli => exact absurd (.inl hnext) hahead
      | event => exact absurd (.inr hnext) hahead
      | idle =>
          simp only [Firmware.main, hnext] at hlate
          split at hlate <;> simp at hlate
      | dispatch => simp [Firmware.main, hnext] at hlate
      | sei => simp [Firmware.main, hnext]
      | sleepCpu | asleep =>
          simp only [Firmware.main, hnext]
          exact h.enabled (by simp [hnext])
    · rw [hstate]
      intro hdispatch
      cases hnext : fw.next with
      | idle =>
          simp only [Firmware.main, hnext] at hdispatch
          split at hdispatch
          · next hidle => exact eq_of_beq hidle
          · cases hdispatch
      | _ => simp [Firmware.main, hnext] at hdispatch

/-- An interrupt is served in front of `cli`, or it wakes the loop up. -/
theorem Sound.serves (h : fw.Sound) (hserves : fw.Serves) :
    fw.next = .cli ∨ fw.next = .asleep := by
  rcases h.masked hserves.1 with hnext | hnext | hnext
  · exact .inl hnext
  · exact absurd hnext hserves.2
  · exact .inr hnext

theorem Sound.serve_next (h : fw.Sound) (hserves : fw.Serves) (i : Interrupt) :
    (fw.serve i).next = .cli := by
  show (if fw.next = .asleep then Statement.cli else fw.next) = .cli
  rcases h.serves hserves with hnext | hnext <;> simp [hnext]

theorem usartRxRecvCb_ne (data fopErrors : UInt8) :
    usartRxRecvCb data fopErrors ≠ .timer ∧ usartRxRecvCb data fopErrors ≠ .event := by
  unfold usartRxRecvCb
  split <;> exact ⟨Action.noConfusion, Action.noConfusion⟩

/-- An interrupt calls nothing, or an entry point that is enabled if it is due. -/
theorem serve_cases (hdue : fw.Due i) :
    (i = .usartDataEmpty ∧ (fw.serve i).state = fw.state) ∨
      ∃ a, i.calls = some a ∧ (fw.serve i).state = fw.state.step a ∧ a ≠ .event ∧
        (rtuSystem (atmegaConfig pduCb)).enabled fw.state a := by
  cases i with
  | usartRxRecv data fopErrors =>
      obtain ⟨htimer, hevent⟩ := usartRxRecvCb_ne data fopErrors
      exact .inr ⟨_, rfl, rfl, hevent, fun h => absurd h htimer⟩
  | usartDataEmpty => exact .inl ⟨rfl, rfl⟩
  | usartTxComplete => exact .inr ⟨_, rfl, rfl, Action.noConfusion, Action.noConfusion⟩
  | tmr => exact .inr ⟨_, rfl, rfl, Action.noConfusion, fun _ => hdue⟩

theorem serve_tmr_sending (fw : Firmware pduCb) : (fw.serve .tmr).sending = fw.sending := by
  simp [serve]

theorem serve_sent_sending (fw : Firmware pduCb) :
    (fw.serve .usartTxComplete).sending = false := by
  simp [serve]

theorem serve_dataEmpty_sending (fw : Firmware pduCb) :
    (fw.serve .usartDataEmpty).sending = fw.sending := by
  simp [serve]

theorem Sound.serve (h : fw.Sound) (hserves : fw.Serves) (hdue : fw.Due i) :
    (fw.serve i).Sound := by
  have hnext := h.serve_next hserves i
  rcases serve_cases hdue with ⟨rfl, hstate⟩ | ⟨a, hcalls, hstate, hne, hen⟩
  · refine ⟨by rw [hstate]; exact h.wf, fun _ => .inl hnext, fun _ => hserves.1, ?_, ?_, ?_⟩
    · exact fun hnot => absurd (.inl hnext) hnot
    · rw [hnext]
      exact nofun
    · rw [hstate, serve_dataEmpty_sending]
      exact h.sending
  · refine ⟨?_, fun _ => .inl hnext, fun _ => hserves.1, ?_, ?_, ?_⟩
    · rw [hstate]
      exact wf_invariant.step _ _ h.wf hen
    · exact fun hnot => absurd (.inl hnext) hnot
    · rw [hnext]
      exact nofun
    · rw [hstate]
      intro hbusy
      obtain ⟨hsent, hbusy'⟩ := busy_of_step rfl h.wf hen hbusy
      have hother : i ≠ .usartTxComplete := by
        rintro rfl
        exact hsent (Option.some_inj.mp hcalls).symm
      rcases hbusy' with hc | ⟨hevent, -⟩
      · show (fw.sending && i != .usartTxComplete) = true
        rw [h.sending hc, Bool.true_and]
        exact bne_iff_ne.mpr hother
      · exact absurd hevent hne

theorem sound_invariant : (firmware pduCb).Inductive Sound where
  init := by
    rintro fw ⟨userData, rfl⟩
    exact ⟨modbusRtuInit_wf userData, nofun, by simp [reset], by simp [reset, Statement.Ahead],
      nofun, nofun⟩
  step fw m h hen := by
    cases m with
    | main => exact h.main
    | interrupt i => exact h.serve hen.1 hen.2

/-! ## Naps -/

end Firmware

/-- How often a sleeping loop is still woken up by the timer, if nothing is
received and no transmission ends, before the machine is at rest. A frame that
is confirmed counts for its reply. -/
def Status.naps (status : Status) : Nat :=
  if status.error then 1
  else match status.curr with
    | .init => 1
    | .sof => 2
    | .recv => 4
    | .eof => 3
    | .idle => if status.updated ∧ status.prev = .eof then 2 else 0
    | .busy | .raw6 | .raw7 => 0

section

variable {cfg : Config U} {s : State cfg}

theorem naps_error (herr : s.status.error = true) : s.status.naps = 1 := by
  rw [Status.naps, if_pos herr]

/-- An event that only takes note of what has happened brings no naps. -/
theorem naps_consumed : (consumed s).status.naps ≤ s.status.naps := by
  cases herr : s.status.error with
  | true => exact Nat.le_of_eq ((naps_error (s := consumed s) herr).trans (naps_error herr).symm)
  | false => cases hc : s.status.curr <;> simp [Status.naps, consumed, herr, hc]

/-- An event brings no more naps than were ahead, with those for the reply it starts. -/
theorem event_naps (hasync : cfg.serialSend = .async) (hwf : Wf s) :
    (modbusRtuEvent s).status.naps +
        (if (callsSince s (modbusRtuEvent s)).any startsTransmission then 2 else 0) ≤
      s.status.naps := by
  by_cases hh : Handles s
  · have hahead : s.status.naps = 2 := by
      simp [Status.naps, hh.error, hh.curr, hh.updated, hh.prev]
    have hstarts := starts_iff hwf
    rcases handled_async hasync hwf hh with ⟨hrej, hrest⟩ | ⟨-, hsilent, hquiet⟩ |
      ⟨-, -, hbusy, herr⟩
    · rw [hahead, naps_error hrest.error, if_neg fun hst => hrej (hstarts.mp hst).2.1]
      decide
    · have hnone : (modbusRtuEvent s).status.naps = 0 := by
        simp [Status.naps, hquiet.atRest.error, hquiet.curr, hquiet.updated]
      rw [hahead, hnone, if_neg fun hst => absurd hsilent (hstarts.mp hst).2.2]
      decide
    · have hnone : (modbusRtuEvent s).status.naps = 0 := by simp [Status.naps, herr, hbusy]
      rw [hahead, hnone]
      split <;> decide
  · rw [if_neg fun hst => hh ((starts_iff hwf).mp hst).1, Nat.add_zero]
    have hcase := event_case hwf
    generalize modbusRtuEvent s = s' at hcase ⊢
    cases hcase with
    | quiet => exact Nat.le_refl _
    | error _ herr =>
        rw [naps_error herr]
        exact Nat.le_refl 1
    | frame hh' => exact absurd hh' hh
    -- the others only clear the update
    | init | passed | suspended => exact naps_consumed

/-- The timer brings the machine further: there is one nap less to come. -/
theorem timer_naps (hwf : Wf s) (harmed : s.timer ≠ .stopped) :
    (timerIsr s).status.naps ≤ s.status.naps ∧
      (s.status.error = false → (timerIsr s).status.naps < s.status.naps) := by
  cases herr : s.status.error with
  | true =>
      rw [naps_error herr, naps_error (timerIsr_error herr)]
      exact ⟨Nat.le_refl 1, nofun⟩
  | false =>
      have hcase := timer_case hwf harmed
      generalize timerIsr s = s' at hcase ⊢
      cases hcase with
      | silence hc =>
          simp [Status.naps, State.timerStop, State.update, Status.update, herr, hc]
      | stray hc =>
          simp [Status.naps, State.raise, Status.raise, herr, hc]
      | ended hc =>
          simp [Status.naps, State.timerStart3t5, State.timerStop, State.update, Status.update,
            herr, hc]
      | confirmed hc =>
          simp [Status.naps, State.timerStop, State.update, Status.update, herr, hc]

/-- Whatever the end of a transmission finds, one nap is left behind it. -/
theorem sent_naps : (serialSentCb s).status.naps ≤ 1 := by
  by_cases hc : s.status.curr = .busy
  · rw [serialSentCb_busy hc]
    cases herr : s.status.error <;>
      simp [Status.naps, State.update, Status.update, herr]
  · rw [serialSentCb_other hc]
    exact Nat.le_of_eq (naps_error rfl)

theorem naps_le : s.status.naps ≤ 4 := by
  unfold Status.naps
  cases s.status.error <;> cases s.status.curr <;> simp
  split <;> decide

end

namespace Firmware

/-- The naps of the machine, and those that the end of a transmission costs. -/
def naps (fw : Firmware pduCb) : Nat := fw.state.status.naps + if fw.sending then 2 else 0

/-- The statements the loop executes before it sleeps. -/
def toSleep : Statement → Nat
  | .cli => 6
  | .event => 5
  | .idle => 4
  | .dispatch => 3
  | .sei => 2
  | .sleepCpu => 1
  | .asleep => 0

/-- The statements left before the loop sleeps for good, with six for each nap. -/
def toGo (fw : Firmware pduCb) : Nat := 6 * fw.naps + toSleep fw.next

theorem toGo_le (fw : Firmware pduCb) : fw.toGo ≤ 42 := by
  have hnaps : fw.naps ≤ 6 := by
    have hstate := naps_le (s := fw.state)
    unfold naps
    split <;> omega
  have hsleep : toSleep fw.next ≤ 6 := by cases fw.next <;> decide
  unfold toGo
  omega

/-- Behind the event the loop comes nearer to its sleep. -/
theorem toSleep_main (hnot : ¬fw.next.Ahead) (hawake : fw.next ≠ .asleep) :
    toSleep fw.main.next < toSleep fw.next := by
  cases hnext : fw.next with
  | cli => exact absurd (.inl hnext) hnot
  | event => exact absurd (.inr hnext) hnot
  | asleep => exact absurd hnext hawake
  | idle =>
      simp only [main, hnext]
      split <;> decide
  | dispatch | sei | sleepCpu => simp [main, hnext, toSleep]

/-- Each statement of the loop is one less to go. -/
theorem toGo_main (h : fw.Sound) (hawake : fw.next ≠ .asleep) : fw.main.toGo + 1 ≤ fw.toGo := by
  by_cases hahead : fw.next.Ahead
  · rcases hahead with hnext | hnext
    · rw [main_cli hnext]
      simp [toGo, naps, toSleep, hnext]
    · have hevent := event_naps rfl h.wf
      rw [main_event hnext]
      simp only [toGo, naps, toSleep, hnext]
      cases fw.sending <;> simp at hevent ⊢ <;> omega
  · obtain ⟨hstate, hsending, -⟩ := main_behind hahead
    have hsleep := toSleep_main hahead hawake
    unfold toGo naps
    rw [hstate, hsending]
    omega

/-- An interrupt that comes in silence and calls the machine brings no naps, and
uses one up if it wakes the loop. -/
theorem naps_serve (h : fw.Sound) (hdue : fw.Due i)
    (hsilent : ∀ data fopErrors, i ≠ .usartRxRecv data fopErrors) :
    (fw.serve i).naps ≤ fw.naps ∧
      (i ≠ .usartDataEmpty → fw.next = .asleep → (fw.serve i).naps < fw.naps) := by
  cases i with
  | usartRxRecv data fopErrors => exact absurd rfl (hsilent data fopErrors)
  | usartDataEmpty =>
      have hstate : (fw.serve .usartDataEmpty).state = fw.state := rfl
      refine ⟨?_, fun hne => absurd rfl hne⟩
      rw [naps, naps, hstate, serve_dataEmpty_sending]
  | usartTxComplete =>
      have hone : (serialSentCb fw.state).status.naps ≤ 1 := sent_naps
      have hsending : fw.sending = true := hdue
      have hstate : (fw.serve .usartTxComplete).state = serialSentCb fw.state := rfl
      rw [naps, naps, serve_sent_sending, hstate, hsending, if_neg Bool.false_ne_true, if_pos rfl]
      exact ⟨by omega, fun _ _ => by omega⟩
  | tmr =>
      obtain ⟨hle, hlt⟩ := timer_naps h.wf hdue
      have hstate : (fw.serve .tmr).state = timerIsr fw.state := rfl
      rw [naps, naps, serve_tmr_sending, hstate]
      refine ⟨Nat.add_le_add_right hle _, fun _ hasleep => Nat.add_lt_add_right (hlt ?_) _⟩
      -- asleep with a timer armed, the machine has no error pending
      rcases h.left (by simp [hasleep, Statement.Ahead]) with hup | ⟨-, herr⟩ | hrest
      · exact h.wf.error_of_not_updated hup
      · exact herr
      · exact absurd (h.wf.timer_idle hrest.curr) hdue

/-- Only the transmitter's call for a byte sends the loop round for nothing. -/
theorem toGo_serve (h : fw.Sound) (hserves : fw.Serves) (hdue : fw.Due i)
    (hsilent : ∀ data fopErrors, i ≠ .usartRxRecv data fopErrors) :
    (fw.serve i).toGo ≤ fw.toGo + 6 * (i == .usartDataEmpty).toNat := by
  obtain ⟨hle, hlt⟩ := naps_serve h hdue hsilent
  unfold toGo
  rw [h.serve_next hserves]
  rcases h.serves hserves with hc | hc
  · rw [hc]
    omega
  · rw [hc]
    simp only [toSleep]
    by_cases hempty : i = .usartDataEmpty
    · rw [beq_iff_eq.mpr hempty, Bool.toNat_true]
      omega
    · have hless := hlt hempty hc
      omega

end Firmware

/-! ## Silence -/

/-- Nothing is received. -/
def Move.Silent (m : Move) : Prop :=
  ∀ data fopErrors, m ≠ .interrupt (.usartRxRecv data fopErrors)

instance : DecidablePred Move.Silent
  | .main => .isTrue fun _ _ => Move.noConfusion
  | .interrupt (.usartRxRecv data fopErrors) => .isFalse fun h => h data fopErrors rfl
  | .interrupt .usartDataEmpty | .interrupt .usartTxComplete | .interrupt .tmr =>
      .isTrue fun _ _ h => nomatch h

/-- All runs in which nothing is received. -/
abbrev silence (pduCb : U → PduArgs → U × List UInt8) : System (Firmware pduCb) Move :=
  (firmware pduCb).restrict fun _ m => m.Silent

namespace Firmware

/-- Only a byte on the line wakes the loop up again. -/
structure Sleeps (fw : Firmware pduCb) : Prop where
  next : fw.next = .asleep
  rest : AtRest fw.state.status.error fw.state
  sending : fw.sending = false

theorem silence_step (h : fw.Sound) {m : Move} (hen : (silence pduCb).enabled fw m) :
    ((silence pduCb).step fw m).toGo + (m == .main).toNat ≤
      fw.toGo + 6 * (m == .interrupt .usartDataEmpty).toNat := by
  obtain ⟨hen, hsilent⟩ := hen
  cases m with
  | main => exact toGo_main h hen
  | interrupt i =>
      have hempty : (Move.interrupt i == .interrupt .usartDataEmpty) = (i == .usartDataEmpty) := by
        rw [Bool.eq_iff_iff, beq_iff_eq, beq_iff_eq, Move.interrupt.injEq]
      rw [hempty]
      refine toGo_serve h hen.1 hen.2 ?_
      rintro data fopErrors rfl
      exact hsilent data fopErrors rfl

theorem stopped_of_not_due (hnext : fw.next = .asleep) (htmr : ¬fw.Due .tmr)
    (htx : ¬fw.Due .usartTxComplete) (m : Move) : ¬(silence pduCb).enabled fw m := by
  rintro ⟨hen, hsilent⟩
  cases m with
  | main => exact hen hnext
  | interrupt i =>
      cases i with
      | usartRxRecv data fopErrors => exact hsilent data fopErrors rfl
      | usartDataEmpty | usartTxComplete => exact htx hen.2
      | tmr => exact htmr hen.2

/-- In silence the loop stops where it sleeps for good, and nowhere else. -/
theorem stops_iff (h : fw.Sound) : (∀ m, ¬(silence pduCb).enabled fw m) ↔ fw.Sleeps := by
  constructor
  · intro hstop
    have hnext : fw.next = .asleep := by
      by_contra hawake
      exact hstop .main ⟨hawake, fun _ _ => Move.noConfusion⟩
    have hserves : fw.Serves := ⟨h.enabled (.inr hnext), by simp [hnext]⟩
    have hdue : ∀ i, (∀ data fopErrors, i ≠ .usartRxRecv data fopErrors) → ¬fw.Due i := by
      intro i hsilent hdue
      refine hstop (.interrupt i) ⟨⟨hserves, hdue⟩, ?_⟩
      intro data fopErrors heq
      exact hsilent data fopErrors (Move.interrupt.inj heq)
    have htimer : fw.state.timer = .stopped :=
      Decidable.not_not.mp (hdue .tmr fun _ _ => Interrupt.noConfusion)
    have hsending : fw.sending = false :=
      Bool.eq_false_iff.mpr (hdue .usartTxComplete fun _ _ => Interrupt.noConfusion)
    have hbusy : fw.state.status.curr ≠ .busy := by
      intro hbusy
      cases hsending.symm.trans (h.sending hbusy)
    refine ⟨hnext, atRest_of_stopped h.wf hbusy ?_ htimer, hsending⟩
    rcases h.left (by simp [hnext, Statement.Ahead]) with hup | ⟨hc, -⟩ | hrest
    · exact .inl hup
    · exact absurd hc hbusy
    · exact .inr hrest
  · rintro ⟨hnext, hrest, hsending⟩
    refine stopped_of_not_due hnext ?_ ?_
    · exact fun htmr => htmr (h.wf.timer_idle hrest.curr)
    · exact fun htx => by cases hsending.symm.trans htx

/-- A measure that every choice below lowers. -/
def unrest (fw : Firmware pduCb) : Nat := 2 * fw.toGo + if fw.next = .asleep then 1 else 0

/-- What wakes the loop up and calls the machine brings it nearer to its sleep. -/
theorem unrest_serve (h : fw.Sound) (hserves : fw.Serves) (hdue : fw.Due i)
    (hsilent : ∀ data fopErrors, i ≠ .usartRxRecv data fopErrors) (hempty : i ≠ .usartDataEmpty)
    (hnext : fw.next = .asleep) : (fw.serve i).unrest < fw.unrest := by
  have hless := toGo_serve h hserves hdue hsilent
  rw [beq_eq_false_iff_ne.mpr hempty, Bool.toNat_false] at hless
  have hawake : (fw.serve i).next ≠ .asleep := by
    rw [h.serve_next hserves i]
    decide
  unfold unrest
  rw [if_pos hnext, if_neg hawake]
  omega

/-- Where the loop does not stop, it can go on towards its sleep. -/
theorem exists_unrest_lt (h : fw.Sound) :
    (∀ m, ¬(silence pduCb).enabled fw m) ∨
      ∃ m, (silence pduCb).enabled fw m ∧ ((silence pduCb).step fw m).unrest < fw.unrest := by
  by_cases hnext : fw.next = .asleep
  · have hserves : fw.Serves := ⟨h.enabled (.inr hnext), by simp [hnext]⟩
    -- the timer goes first, then the end of the transmission
    by_cases htmr : fw.Due .tmr
    · refine .inr ⟨.interrupt .tmr, ⟨⟨hserves, htmr⟩, fun _ _ => nofun⟩, ?_⟩
      exact unrest_serve h hserves htmr (fun _ _ => nofun) nofun hnext
    · by_cases htx : fw.Due .usartTxComplete
      · refine .inr ⟨.interrupt .usartTxComplete, ⟨⟨hserves, htx⟩, fun _ _ => nofun⟩, ?_⟩
        exact unrest_serve h hserves htx (fun _ _ => nofun) nofun hnext
      · exact .inl (stopped_of_not_due hnext htmr htx)
  · refine .inr ⟨.main, ⟨hnext, fun _ _ => Move.noConfusion⟩, ?_⟩
    have hless := toGo_main h hnext
    show fw.main.unrest < fw.unrest
    unfold unrest
    rw [if_neg hnext]
    split <;> omega

/-- From every state silence lets the loop sleep for good. -/
theorem exists_sleep (h : fw.Sound) :
    ∃ moves, (silence pduCb).Legal fw moves ∧ ((silence pduCb).run fw moves).Sleeps := by
  have hinv : (silence pduCb).Inductive Sound := sound_invariant.restrict _
  obtain ⟨moves, hlegal, hstop⟩ := System.exists_stop hinv (fun _ => exists_unrest_lt) h
  exact ⟨moves, hlegal, (stops_iff (hinv.run h hlegal)).mp hstop⟩

/-! ## The theorems -/

/-- Between the firmware and the state machine there is nothing but the order of the calls. -/
theorem step_state {m : Move} (hen : (firmware pduCb).enabled fw m) :
    ∃ acts, (rtuSystem (atmegaConfig pduCb)).Legal fw.state acts ∧
      ((firmware pduCb).step fw m).state = (rtuSystem (atmegaConfig pduCb)).run fw.state acts := by
  cases m with
  | interrupt i =>
      rcases serve_cases hen.2 with ⟨-, hstate⟩ | ⟨a, -, hstate, -, hen'⟩
      · exact ⟨[], trivial, hstate⟩
      · exact ⟨[a], ⟨hen', trivial⟩, hstate⟩
  | main =>
      rcases main_cases fw with hnext | ⟨hstate, -, -⟩
      · refine ⟨[.event], ⟨enabled_event _, trivial⟩, ?_⟩
        show fw.main.state = modbusRtuEvent fw.state
        rw [main_event hnext]
      · exact ⟨[], trivial, hstate⟩

theorem run_state {moves : List Move} (hlegal : (firmware pduCb).Legal fw moves) :
    ∃ acts, (rtuSystem (atmegaConfig pduCb)).Legal fw.state acts ∧
      ((firmware pduCb).run fw moves).state =
        (rtuSystem (atmegaConfig pduCb)).run fw.state acts := by
  induction moves generalizing fw with
  | nil => exact ⟨[], trivial, rfl⟩
  | cons m moves ih =>
      obtain ⟨acts₁, hlegal₁, hstate₁⟩ := step_state hlegal.1
      obtain ⟨acts₂, hlegal₂, hstate₂⟩ := ih hlegal.2
      rw [hstate₁] at hlegal₂ hstate₂
      refine ⟨acts₁ ++ acts₂, System.legal_append.mpr ⟨hlegal₁, hlegal₂⟩, ?_⟩
      rw [System.run_append]
      exact hstate₂

theorem reachable_state (hreach : (firmware pduCb).Reachable fw) :
    (rtuSystem (atmegaConfig pduCb)).Reachable fw.state := by
  induction hreach with
  | init h =>
      obtain ⟨userData, rfl⟩ := h
      exact .init ⟨userData, rfl⟩
  | step _ hen ih =>
      obtain ⟨acts, hlegal, hstate⟩ := step_state hen
      rw [hstate]
      exact ih.run hlegal

/-- In every run of the firmware, whatever the order of the main loop and the
interrupts: the state machine is in a state of one of its own runs. While the
loop sleeps, no confirmed frame waits for it, and nothing else that an event
would handle but what a transmission has met and the error of a rejected frame;
interrupts are served, and the timer or the transmitter will report unless the
machine is at rest with nothing to send. `dispatch` is called only with the
machine at rest, where an error may be pending. -/
theorem no_frame_waits (hreach : (firmware pduCb).Reachable fw) :
    (rtuSystem (atmegaConfig pduCb)).Reachable fw.state ∧
      (fw.next = .asleep → fw.Serves ∧ ¬Handles fw.state ∧
        (fw.state.status.updated = false ∨ fw.state.status.curr = .busy ∧
          fw.state.status.error = false ∨ AtRest true fw.state) ∧
        (fw.Due .tmr ∨ fw.Due .usartTxComplete ∨ fw.Sleeps)) ∧
      (fw.next = .dispatch → AtRest fw.state.status.error fw.state) := by
  have h : fw.Sound := sound_invariant.holds hreach
  refine ⟨reachable_state hreach, ?_, ?_⟩
  · intro hnext
    have hleft := h.left (by simp [hnext, Statement.Ahead])
    refine ⟨⟨h.enabled (.inr hnext), by simp [hnext]⟩, ?_, hleft, ?_⟩
    · rcases hleft with hup | ⟨hbusy, -⟩ | hrest
      · exact not_handles_of_updated hup
      · exact not_handles_of_curr hbusy
      · exact not_handles_of_error hrest.error
    · by_cases htmr : fw.Due .tmr
      · exact .inl htmr
      · by_cases htx : fw.Due .usartTxComplete
        · exact .inr (.inl htx)
        · exact .inr (.inr ((stops_iff h).mp (stopped_of_not_due hnext htmr htx)))
  · intro hnext
    have hidle := h.idle hnext
    rcases h.left (by simp [hnext, Statement.Ahead]) with hup | ⟨hbusy, -⟩ | hrest
    · have hquiet : Quiet fw.state := ⟨h.wf, hidle, hup⟩
      rw [hquiet.atRest.error]
      exact hquiet.atRest
    · cases hidle.symm.trans hbusy
    · rw [hrest.error]
      exact hrest

/-- From every state of every run, if nothing is received: the main loop
executes at most 42 statements more, seven times around, and six for each time
the transmitter asks for a byte, whatever the order. It can always go on to its
last sleep, and there, and nowhere else, nothing more happens. -/
theorem silence_ends_in_sleep (hreach : (firmware pduCb).Reachable fw) {moves : List Move}
    (hlegal : (silence pduCb).Legal fw moves) :
    moves.count .main ≤ 42 + 6 * moves.count (.interrupt .usartDataEmpty) ∧
      (∃ rest, (silence pduCb).Legal fw (moves ++ rest) ∧
        ((silence pduCb).run fw (moves ++ rest)).Sleeps) ∧
      ((∀ m, ¬(silence pduCb).enabled ((silence pduCb).run fw moves) m) ↔
        ((silence pduCb).run fw moves).Sleeps) := by
  have hinv : (silence pduCb).Inductive Sound := sound_invariant.restrict _
  have h : fw.Sound := sound_invariant.holds hreach
  have hafter : ((silence pduCb).run fw moves).Sound := hinv.run h hlegal
  refine ⟨?_, ?_, stops_iff hafter⟩
  · have hcount : moves.countP (· == .main) + ((silence pduCb).run fw moves).toGo ≤
        fw.toGo + 6 * moves.countP (· == .interrupt .usartDataEmpty) :=
      System.countP_add_le hinv (fun _ _ h hen => silence_step h hen) h hlegal
    have hle := fw.toGo_le
    rw [List.count, List.count]
    omega
  · obtain ⟨rest, hlegal', hsleeps⟩ := exists_sleep hafter
    refine ⟨rest, System.legal_append.mpr ⟨hlegal, hlegal'⟩, ?_⟩
    rwa [System.run_append]

/-! ## A sample run -/

/-- Once around the loop. -/
def lap (n : Nat) : List Move := List.replicate n .main

/-- From power-up to the first sleep, the silent interval, and the first byte of a frame. -/
def awaken : List Move :=
  lap 5 ++ [.interrupt .tmr] ++ lap 6 ++ [.interrupt (.usartRxRecv 1 0)]

/-- A firmware that takes frames and never answers. -/
def idleFirmware : Firmware (U := Unit) fun u _ => (u, []) := reset ()

theorem no_frame_waits_first_byte :
    let fw := (firmware _).run idleFirmware (awaken ++ lap 5)
    fw.next = .asleep ∧ fw.Serves ∧ ¬Handles fw.state ∧
      (fw.Due .tmr ∨ fw.Due .usartTxComplete ∨ fw.Sleeps) := by
  intro fw
  have hreach : (firmware _).Reachable fw :=
    System.Reachable.run (.init ⟨(), rfl⟩) (by decide)
  have hnext : fw.next = .asleep := by decide
  obtain ⟨hserves, hnone, -, hdue⟩ := (no_frame_waits hreach).2.1 hnext
  exact ⟨hnext, hserves, hnone, hdue⟩

/-- A single byte, and then the timer. -/
theorem silence_ends_in_sleep_first_byte :
    let fw := (firmware _).run idleFirmware awaken
    ∃ rest, (silence _).Legal fw (lap 5 ++ [.interrupt .tmr] ++ rest) ∧
      ((silence _).run fw (lap 5 ++ [.interrupt .tmr] ++ rest)).Sleeps := by
  intro fw
  have hreach : (firmware _).Reachable fw :=
    System.Reachable.run (.init ⟨(), rfl⟩) (by decide)
  have hlegal : (silence _).Legal fw (lap 5 ++ [.interrupt .tmr]) := by decide
  exact (silence_ends_in_sleep hreach hlegal).2.1

end Firmware

end ModbusRtu
