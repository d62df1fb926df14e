import ModbusRtu.Logic.FramePhases

/-!
# Runs without a call of `pdu_cb`

The user data is in the hands of `pdu_cb`, and whatever else is called for a
frame is called behind it. So a run in which it is not called leaves the user
data alone and sends nothing (`run_unanswered`).
-/

namespace ModbusRtu

open Base

variable {U : Type} {cfg : Config U} {s : State cfg}

/-- A step that does not call `pdu_cb` leaves the user data alone, and calls
nothing else for a frame. -/
theorem step_of_no_pduCb (hwf : Wf s) {a : Action} (hnone : pduCalls (stepFrameCalls s a) = []) :
    stepFrameCalls s a = [] ∧ (s.step a).userData = s.userData := by
  by_cases hhandles : a = .event ∧ Handles s
  · obtain ⟨rfl, hh⟩ := hhandles
    have hcalls : stepFrameCalls s .event = frameCalls s := if_pos ⟨rfl, hh⟩
    rw [hcalls] at hnone ⊢
    have hrej : ¬Accepted s.rxbuf.filled := by
      intro hacc
      rw [(frameCalls_of_accepted hacc).1] at hnone
      cases hnone
    refine ⟨frameCalls_of_not_accepted hrej, ?_⟩
    obtain ⟨stats, hadu⟩ := aduProcess_rejected (s := consumed s) serialSend hrej
    show (modbusRtuEvent s).userData = _
    rw [event_handled hwf hh, handled, hadu]
    split <;> rfl
  · refine ⟨if_neg hhandles, ?_⟩
    cases a with
    | recv data =>
        show (serialRecvCb s data).userData = s.userData
        have hcase := recv_case s data
        generalize serialRecvCb s data = s' at hcase ⊢
        cases hcase with
        | opened => exact rxbufAppend_userData _ _
        | extended => exact rxbufAppend_userData _ _
        | stray => rfl
    | recvErr data => rfl
    | sent =>
        show (serialSentCb s).userData = s.userData
        unfold serialSentCb
        split <;> rfl
    | timer =>
        show (timerIsr s).userData = s.userData
        unfold timerIsr timerSilentIntervalCb timerInterFrameTimeoutCb
        split
        · rfl
        · split
          · rfl
          · split <;> rfl
        · split <;> rfl
    | event =>
        show (modbusRtuEvent s).userData = s.userData
        have hcase := event_case hwf
        generalize modbusRtuEvent s = s' at hcase ⊢
        cases hcase with
        | quiet | error | init | passed | suspended => rfl
        | frame hh => exact absurd ⟨rfl, hh⟩ hhandles

/-- So does a run. -/
theorem run_of_no_pduCb (hwf : Wf s) {acts : List Action} (hlegal : (rtuSystem cfg).Legal s acts)
    (hnone : pduCalls (callsSince s ((rtuSystem cfg).run s acts)) = []) :
    ((rtuSystem cfg).run s acts).frameLog = s.frameLog ∧
      ((rtuSystem cfg).run s acts).userData = s.userData := by
  induction acts generalizing s with
  | nil => exact ⟨rfl, rfl⟩
  | cons a acts ih =>
      have hwf' : Wf (s.step a) := wf_invariant.step s a hwf hlegal.1
      have hstep : (s.step a).frameLog = s.frameLog ++ stepFrameCalls s a := frameLog_step hwf a
      have hrest := frameLog_run hwf' hlegal.2
      have hall := frameLog_run hwf hlegal
      -- the calls of the run are those of its first step and of the rest
      have hcalls : (callsSince s ((rtuSystem cfg).run s (a :: acts))).filter Call.ofFrame =
          stepFrameCalls s a ++ (callsSince (s.step a)
            ((rtuSystem cfg).run (s.step a) acts)).filter Call.ofFrame := by
        have hboth : s.frameLog ++ (callsSince s ((rtuSystem cfg).run s (a :: acts))).filter
            Call.ofFrame = s.frameLog ++ (stepFrameCalls s a ++ (callsSince (s.step a)
              ((rtuSystem cfg).run (s.step a) acts)).filter Call.ofFrame) := by
          rw [← hall, ← List.append_assoc, ← hstep]
          exact hrest
        exact List.append_cancel_left hboth
      rw [← pduCalls_filter, hcalls, pduCalls_append, List.append_eq_nil_iff, pduCalls_filter]
        at hnone
      obtain ⟨hfirst, hdata⟩ := step_of_no_pduCb hwf hnone.1
      obtain ⟨hlog', hdata'⟩ := ih hwf' hlegal.2 hnone.2
      rw [hfirst, List.append_nil] at hstep
      exact ⟨hlog'.trans hstep, hdata'.trans hdata⟩

/-- Then nothing is sent either. -/
theorem run_unanswered (hwf : Wf s) {acts : List Action} (hlegal : (rtuSystem cfg).Legal s acts)
    (hnone : pduCalls (callsSince s ((rtuSystem cfg).run s acts)) = []) :
    ((rtuSystem cfg).run s acts).userData = s.userData ∧
      sends (callsSince s ((rtuSystem cfg).run s acts)) = [] := by
  obtain ⟨hlog, hdata⟩ := run_of_no_pduCb hwf hlegal hnone
  have hnew := frameLog_run hwf hlegal
  rw [hlog, List.self_eq_append_right] at hnew
  refine ⟨hdata, ?_⟩
  rw [← sends_filter, hnew]
  rfl

end ModbusRtu
