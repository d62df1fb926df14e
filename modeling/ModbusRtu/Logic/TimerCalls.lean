import ModbusRtu.Logic.FramePhases
import ModbusRtu.Logic.OwnCalls

/-!
# The timer as its calls tell it

A platform knows the timer from the calls alone. `Tells` is the timer they
leave, with what each call says about the timer it found, and `step_tells` says
that the calls of a step tell the truth. So a platform that does what the calls
say has the timer of the state machine at all times.
-/

namespace ModbusRtu

open Base

variable {U : Type} {cfg : Config U}

/-! ## Telling -/

/-- The timer behind a call. -/
def Timer.after (timer : Timer) : Call → Timer
  | .timerStart1t5 _ => .armed1t5
  | .timerStart3t5 _ => .armed3t5
  | .timerStop => .stopped
  | _ => timer

/-- The call carries the timer it finds. -/
def Call.Carries (timer : Timer) : Call → Prop
  | .timerStart1t5 found | .timerStart3t5 found | .timerReset found => found = timer
  | _ => True

/-- The calls lead from one timer to the other, and carry the right ones. -/
def Tells : Timer → List Call → Timer → Prop
  | timer, [], timer' => timer' = timer
  | timer, c :: calls, timer' => c.Carries timer ∧ Tells (timer.after c) calls timer'

variable {timer timer' timer'' : Timer} {l l' : List Call}

theorem tells_nil : Tells timer [] timer := rfl

theorem Tells.append (h : Tells timer l timer') (h' : Tells timer' l' timer'') :
    Tells timer (l ++ l') timer'' := by
  induction l generalizing timer with
  | nil =>
      have heq : timer' = timer := h
      rwa [heq] at h'
  | cons c l ih => exact ⟨h.1, ih h.2⟩

/-- Calls for a frame do not touch the timer, and neither do stores. -/
theorem tells_of_ofFrame (h : ∀ c ∈ l, c.ofFrame = true) : Tells timer l timer := by
  induction l with
  | nil => exact tells_nil
  | cons c l ih =>
      have hrest : Tells timer l timer := ih fun d hd => h d (List.mem_cons_of_mem _ hd)
      have hc := h c List.mem_cons_self
      cases c with
      | pduCb | serialSend | txStore => exact ⟨trivial, hrest⟩
      | timerStart1t5 | timerStart3t5 | timerStop | timerReset | rxStore | suspendCb | resumeCb
      | logTp => cases hc

theorem tells_storeCalls (s : State cfg) : Tells timer (storeCalls s) timer := by
  unfold storeCalls
  split
  · exact ⟨trivial, tells_nil⟩
  · exact tells_nil

/-- The timer changes over to 3.5t, wherever it was. -/
theorem tells_changeover : Tells timer changeoverCalls .armed3t5 := ⟨trivial, rfl, rfl⟩

/-! ## Steps -/

/-- The calls made since `s` tell what became of the timer. -/
def StepTells (s s' : State cfg) : Prop :=
  ∃ l, s'.calls = s.calls ++ l ∧ Tells s.timer l s'.timer

variable {s s' s'' : State cfg}

theorem StepTells.same (hcalls : s'.calls = s.calls) (htimer : s'.timer = s.timer) :
    StepTells s s' :=
  ⟨[], by rw [hcalls, List.append_nil], htimer⟩

theorem StepTells.trans (h : StepTells s s') (h' : StepTells s' s'') : StepTells s s'' := by
  obtain ⟨l, hl, ht⟩ := h
  obtain ⟨l', hl', ht'⟩ := h'
  exact ⟨l ++ l', by rw [hl', hl, List.append_assoc], ht.append ht'⟩

theorem StepTells.tells (h : StepTells s s') : Tells s.timer (callsSince s s') s'.timer := by
  obtain ⟨l, hl, ht⟩ := h
  rwa [callsSince, hl, List.drop_left]

theorem stepTells_restart (s : State cfg) : StepTells s (restart s) :=
  ⟨changeoverCalls, restart_calls s, tells_changeover⟩

theorem stepTells_recv (s : State cfg) (data : UInt8) : StepTells s (serialRecvCb s data) := by
  by_cases hidle : s.status.curr = .idle
  · refine ⟨_, serialRecvCb_idle_calls hidle data, (tells_storeCalls s).append ?_⟩
    rw [serialRecvCb_idle hidle]
    exact ⟨rfl, rfl⟩
  · by_cases hframe : s.status.curr = .sof ∨ s.status.curr = .recv
    · refine ⟨_, serialRecvCb_frame_calls hframe data, (tells_storeCalls s).append ?_⟩
      rw [serialRecvCb_frame hframe]
      exact ⟨rfl, rxbufAppend_timer (s.update .recv) data⟩
    · rw [serialRecvCb_other hidle hframe]
      exact .same rfl rfl

theorem stepTells_sent (s : State cfg) : StepTells s (serialSentCb s) := by
  unfold serialSentCb
  split <;> exact .same rfl rfl

theorem stepTells_timer (hwf : Wf s) (harmed : s.timer ≠ .stopped) : StepTells s (timerIsr s) := by
  have hcase := timer_case hwf harmed
  have hended := timerIsr_recv_calls hwf
  generalize timerIsr s = s' at hcase hended ⊢
  cases hcase with
  | silence | confirmed => exact ⟨[.timerStop], rfl, trivial, rfl⟩
  | stray => exact .same rfl rfl
  | ended hc => exact ⟨changeoverCalls, hended hc, tells_changeover⟩

/-- Handling a frame: the calls for it, and behind a reply those of the restart. -/
theorem stepTells_aduProcess (herr : s.status.error = false) :
    StepTells s (aduProcess serialSend s) := by
  by_cases hacc : Accepted s.rxbuf.filled
  · by_cases hreply : reply s = []
    · rw [aduProcess_silent hacc hreply]
      exact ⟨[.pduCb (pduArgs s)], rfl, trivial, rfl⟩
    · have hsent : StepTells s (startTransmission (readyToSend s)) := by
        refine ⟨frameCalls s, ?_, tells_of_ofFrame (frameCalls_ofFrame s)⟩
        simp [startTransmission, State.note, readyToSend, frameCalls, hacc, hreply, replyAdu]
      have hbusy : (readyToSend s).status.curr = .busy := rfl
      rw [aduProcess_reply hacc hreply]
      cases hsend : cfg.serialSend with
      | async =>
          rw [serialSend_async hsend]
          exact hsent
      | sync =>
          rw [serialSend_sync hsend hbusy herr]
          exact hsent.trans ((StepTells.same rfl rfl).trans (stepTells_restart _))
  · obtain ⟨stats, hrej⟩ := aduProcess_rejected serialSend hacc
    rw [hrej]
    exact .same rfl rfl

theorem stepTells_event (hwf : Wf s) : StepTells s (modbusRtuEvent s) := by
  have hcase := event_case hwf
  generalize modbusRtuEvent s = s' at hcase ⊢
  cases hcase with
  | quiet | passed => exact .same rfl rfl
  | error => exact (StepTells.same rfl rfl).trans (stepTells_restart _)
  | init => exact (StepTells.same rfl rfl).trans (stepTells_restart _)
  | frame hh =>
      have hadu : StepTells s (aduProcess serialSend (consumed s)) :=
        (StepTells.same rfl rfl).trans (stepTells_aduProcess hh.error)
      unfold handled
      split
      · exact hadu.trans ⟨[.resumeCb], rfl, trivial, rfl⟩
      · exact hadu
  | suspended => exact ⟨[.suspendCb], rfl, trivial, rfl⟩

theorem step_tells (hwf : Wf s) {a : Action} (hen : (rtuSystem cfg).enabled s a) :
    StepTells s (s.step a) := by
  cases a with
  | recv data => exact stepTells_recv s data
  | recvErr data => exact .same rfl rfl
  | sent => exact stepTells_sent s
  | timer => exact stepTells_timer hwf (hen rfl)
  | event => exact stepTells_event hwf

end ModbusRtu
