import ModbusRtu.Logic.RtuCalls

/-!
# The calls a step makes of its own

What a step calls besides the calls for a frame: the timer functions, the
stores of received bytes, `suspend_cb` and `resume_cb`. `OwnCalls` lists them
branch by branch, `step_ownCalls` says that the list is complete.
-/

namespace ModbusRtu

open Base

variable {U : Type} {cfg : Config U}

/-- The store `rxbuf_append` makes, if there is room. -/
def storeCalls (s : State cfg) : List Call :=
  if cfg.rxbufCapacity > s.rxbuf.curr then [.rxStore s.rxbuf.curr] else []

/-- The event is about to report the start of a frame. -/
structure Starts (s : State cfg) : Prop where
  updated : s.status.updated = true
  error : s.status.error = false
  curr : s.status.curr = .sof

instance (s : State cfg) : Decidable (Starts s) :=
  decidable_of_iff
    (s.status.updated = true ∧ s.status.error = false ∧ s.status.curr = .sof)
    ⟨fun ⟨h1, h2, h3⟩ => ⟨h1, h2, h3⟩, fun ⟨h1, h2, h3⟩ => ⟨h1, h2, h3⟩⟩

/-- The calls of the step `a` from `s` that belong to no frame. -/
inductive OwnCalls (s : State cfg) : Action → List Call → Prop
  | none {a} (hnot : a = .event → ¬Starts s ∧ ¬Handles s) : OwnCalls s a []
  | opened {data} (hc : s.status.curr = .idle) :
      OwnCalls s (.recv data) (storeCalls s ++ [.timerStart1t5 s.timer])
  | extended {data} (hc : s.status.curr = .sof ∨ s.status.curr = .recv) :
      OwnCalls s (.recv data) (storeCalls s ++ [.timerReset s.timer])
  | stopped : OwnCalls s .timer [.timerStop]
  | changeover {a} (hnot : a = .event → ¬Starts s ∧ ¬Handles s) : OwnCalls s a changeoverCalls
  | suspended (hs : Starts s) : OwnCalls s .event (if cfg.suspendCb then [.suspendCb] else [])
  | handled (hh : Handles s) {l} (hl : l = [] ∨ l = changeoverCalls) :
      OwnCalls s .event (l ++ if cfg.resumeCb then [.resumeCb] else [])

/-! ## The callbacks -/

theorem rxbufAppend_calls (s : State cfg) (data : UInt8) :
    (rxbufAppend s data).calls = s.calls ++ storeCalls s := by
  unfold rxbufAppend storeCalls
  split
  · rfl
  · exact (List.append_nil _).symm

theorem serialRecvCb_idle_calls {s : State cfg} (h : s.status.curr = .idle) (data : UInt8) :
    (serialRecvCb s data).calls = s.calls ++ (storeCalls s ++ [.timerStart1t5 s.timer]) := by
  rw [serialRecvCb_idle h]
  show (rxbufAppend (s.update .sof) data).calls ++ [.timerStart1t5 _] = _
  rw [rxbufAppend_calls, rxbufAppend_timer, List.append_assoc]
  rfl

theorem serialRecvCb_frame_calls {s : State cfg}
    (h : s.status.curr = .sof ∨ s.status.curr = .recv) (data : UInt8) :
    (serialRecvCb s data).calls = s.calls ++ (storeCalls s ++ [.timerReset s.timer]) := by
  rw [serialRecvCb_frame h]
  show (rxbufAppend (s.update .recv) data).calls ++ [.timerReset _] = _
  rw [rxbufAppend_calls, rxbufAppend_timer, List.append_assoc]
  rfl

theorem serialRecvCb_ownCalls (s : State cfg) (data : UInt8) :
    ∃ l, (serialRecvCb s data).calls = s.calls ++ l ∧ OwnCalls s (.recv data) l := by
  by_cases hidle : s.status.curr = .idle
  · exact ⟨_, serialRecvCb_idle_calls hidle data, .opened hidle⟩
  · by_cases hframe : s.status.curr = .sof ∨ s.status.curr = .recv
    · exact ⟨_, serialRecvCb_frame_calls hframe data, .extended hframe⟩
    · refine ⟨[], ?_, .none fun ha => by cases ha⟩
      rw [serialRecvCb_other hidle hframe]
      exact (List.append_nil _).symm

/-- The first timeout changes over to the longer timer. -/
theorem timerIsr_recv_calls {s : State cfg} (hwf : Wf s) (h : s.status.curr = .recv) :
    (timerIsr s).calls = s.calls ++ changeoverCalls := by
  rw [timerIsr_recv (hwf.timer_frame (.inr h)).2 h]
  exact List.append_assoc s.calls [.timerStop] [.timerStart3t5 .stopped]

theorem timerIsr_ownCalls {s : State cfg} (hwf : Wf s) (harmed : s.timer ≠ .stopped) :
    ∃ l, (timerIsr s).calls = s.calls ++ l ∧ OwnCalls s .timer l := by
  have hcase := timer_case hwf harmed
  have hrecv := timerIsr_recv_calls hwf
  generalize timerIsr s = s' at hcase hrecv ⊢
  cases hcase with
  | silence | confirmed => exact ⟨_, rfl, .stopped⟩
  | stray => exact ⟨[], (List.append_nil _).symm, .none fun ha => by cases ha⟩
  | ended hc => exact ⟨_, hrecv hc, .changeover fun ha => by cases ha⟩

theorem serialSentCb_calls (s : State cfg) : (serialSentCb s).calls = s.calls := by
  unfold serialSentCb
  split <;> rfl

/-! ## The event -/

theorem starts_ownCalls {s : State cfg} (hwf : Wf s) (hs : Starts s) :
    ∃ l, (modbusRtuEvent s).calls = s.calls ++ l ∧ OwnCalls s .event l := by
  refine ⟨_, ?_, .suspended hs⟩
  rw [event_sof hs.updated hs.error hs.curr (hwf.prev_sof hs.curr)]
  split
  · rfl
  · exact (List.append_nil _).symm

/-- Every other event calls nothing, or restarts the machine. -/
theorem event_ownCalls {s : State cfg} (hwf : Wf s) (hs : ¬Starts s) (hh : ¬Handles s) :
    ∃ l, (modbusRtuEvent s).calls = s.calls ++ l ∧ OwnCalls s .event l := by
  have hcase := event_case hwf
  generalize modbusRtuEvent s = s' at hcase ⊢
  have hnot : Action.event = .event → ¬Starts s ∧ ¬Handles s := fun _ => ⟨hs, hh⟩
  cases hcase with
  | quiet | passed => exact ⟨[], (List.append_nil _).symm, .none hnot⟩
  | error => exact ⟨_, restart_calls _, .changeover hnot⟩
  | init => exact ⟨_, restart_calls _, .changeover hnot⟩
  | frame hh' => exact absurd hh' hh
  | suspended hup herr hc => exact absurd ⟨hup, herr, hc⟩ hs

/-! ## All steps -/

/-- A step calls what belongs to the frame it handles, if any, and then its own calls. -/
theorem step_ownCalls {s : State cfg} (hwf : Wf s) {a : Action}
    (hen : (rtuSystem cfg).enabled s a) :
    ∃ l, (s.step a).calls = s.calls ++ stepFrameCalls s a ++ l ∧ OwnCalls s a l := by
  by_cases hframe : a = .event ∧ Handles s
  · obtain ⟨rfl, hh⟩ := hframe
    obtain ⟨l, hl, hkind⟩ := event_calls hwf hh
    rw [stepFrameCalls, if_pos ⟨rfl, hh⟩]
    exact ⟨_, hl, .handled hh hkind⟩
  · rw [stepFrameCalls, if_neg hframe, List.append_nil]
    cases a with
    | recv data => exact serialRecvCb_ownCalls s data
    | recvErr data => exact ⟨[], (List.append_nil _).symm, .none fun ha => by cases ha⟩
    | sent =>
        refine ⟨[], ?_, .none fun ha => by cases ha⟩
        rw [List.append_nil]
        exact serialSentCb_calls s
    | timer => exact timerIsr_ownCalls hwf (hen rfl)
    | event =>
        by_cases hs : Starts s
        · exact starts_ownCalls hwf hs
        · exact event_ownCalls hwf hs fun hh => hframe ⟨rfl, hh⟩

end ModbusRtu
