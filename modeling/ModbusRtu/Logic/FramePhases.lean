import ModbusRtu.Logic.RtuCalls

/-!
# One frame, phase by phase

A frame that starts in a quiet machine is followed from its first byte to the
event that processes it:

* while its bytes come in, the receive buffer holds them (`Fed`), until there
  is one too many; from then on the machine is `Doomed` to restart;
* silence then confirms the end of the frame (`Holds` in `recv`, `eof`,
  `idle`), and one event processes it;
* after that the machine is `Settled`: neither timers nor events make another
  call for a frame.

Every phase says how events, which may come at any time, leave it.
-/

namespace ModbusRtu

open Base

variable {U : Type} {cfg : Config U}

/-! ## What an event leaves behind -/

/-- A frame is being received or waits for its confirmation. -/
def InFrame (s : State cfg) : Prop :=
  s.status.curr = .sof ∨ s.status.curr = .recv ∨ s.status.curr = .eof

theorem not_inFrame {s : State cfg} {c : RtuState} (h : s.status.curr = c)
    (hout : c ≠ .sof ∧ c ≠ .recv ∧ c ≠ .eof := by decide) : ¬InFrame s := by
  obtain ⟨hsof, hrecv, heof⟩ := hout
  rintro (hc | hc | hc)
  · exact hsof (h.symm.trans hc)
  · exact hrecv (h.symm.trans hc)
  · exact heof (h.symm.trans hc)

theorem aduProcess_not_inFrame {s : State cfg} (hcurr : s.status.curr = .idle)
    (herr : s.status.error = false) : ¬InFrame (aduProcess serialSend s) := by
  rcases aduProcess_status herr with hst | hst | hst | hst
  · exact not_inFrame (c := .idle) (by rw [hst]; exact hcurr)
  · exact not_inFrame (c := .idle) (by rw [hst]; exact hcurr)
  · exact not_inFrame (c := .busy) (by rw [hst]; rfl)
  · exact not_inFrame (c := .init) (by rw [hst])

/-- An event in the middle of a frame only consumes the `updated` bit. -/
theorem event_of_inFrame {s : State cfg} (hwf : Wf s) (herr : s.status.error = false)
    (hin : InFrame s) :
    ∃ calls, modbusRtuEvent s = { consumed s with calls := calls } := by
  have hcase := event_case hwf
  generalize modbusRtuEvent s = s' at hcase ⊢
  cases hcase with
  | quiet hup => exact ⟨s.calls, by simp [consumed, ← hup]⟩
  | error hup herr' => rw [herr] at herr'; cases herr'
  | init hup _ hc => exact absurd hin (not_inFrame hc)
  | frame hh => exact absurd hin (not_inFrame hh.curr)
  | passed => exact ⟨s.calls, rfl⟩
  | suspended => exact ⟨_, rfl⟩

/-- Everywhere else an event that has something to do leaves the machine outside a frame. -/
theorem event_not_inFrame {s : State cfg} (hwf : Wf s) (hup : s.status.updated = true)
    (hnot : ¬(s.status.error = false ∧ InFrame s)) : ¬InFrame (modbusRtuEvent s) := by
  have hcase := event_case hwf
  generalize modbusRtuEvent s = s' at hcase ⊢
  cases hcase with
  | quiet hup' => rw [hup] at hup'; cases hup'
  | error => exact not_inFrame (c := .init) rfl
  | init _ _ hc => exact not_inFrame (c := .init) hc
  | frame hh =>
      have hadu := aduProcess_not_inFrame (s := consumed s) hh.curr hh.error
      unfold handled
      split <;> exact hadu
  | passed _ herr => exact fun hin => hnot ⟨herr, hin⟩
  | suspended _ herr => exact fun hin => hnot ⟨herr, hin⟩

theorem aduProcess_not_handles {s : State cfg} (hup : s.status.updated = false)
    (herr : s.status.error = false) : ¬Handles (aduProcess serialSend s) := by
  rcases aduProcess_status herr with hst | hst | hst | hst
  · exact not_handles_of_error (by rw [hst]; rfl)
  · exact not_handles_of_updated (by rw [hst]; exact hup)
  · exact not_handles_of_curr (c := .busy) (by rw [hst]; rfl)
  · exact not_handles_of_updated (by rw [hst])

/-- After an event no confirmed frame waits. -/
theorem event_not_handles {s : State cfg} (hwf : Wf s) : ¬Handles (modbusRtuEvent s) := by
  have hcase := event_case hwf
  generalize modbusRtuEvent s = s' at hcase ⊢
  cases hcase with
  | quiet hup => exact not_handles_of_updated hup
  | frame hh =>
      have hnot := aduProcess_not_handles (s := consumed s) rfl hh.error
      unfold handled
      split
      · exact fun hh' => hnot (hh'.congr rfl)
      · exact hnot
  | error | init | passed | suspended => exact not_handles_of_updated rfl

/-! ## The log of frame calls -/

/-- The calls made for frames so far. -/
def State.frameLog (s : State cfg) : List Call := s.calls.filter Call.ofFrame

theorem frameCalls_ofFrame (s : State cfg) : ∀ c ∈ frameCalls s, c.ofFrame = true := by
  intro c hc
  unfold frameCalls at hc
  split at hc
  · rcases List.mem_cons.mp hc with rfl | hc
    · rfl
    · split at hc
      · exact absurd hc List.not_mem_nil
      · simp only [List.mem_append, List.mem_map, List.mem_singleton] at hc
        rcases hc with ⟨i, -, rfl⟩ | rfl <;> rfl
  · exact absurd hc List.not_mem_nil

theorem frameLog_step {s : State cfg} (hwf : Wf s) (a : Action) :
    (s.step a).frameLog = s.frameLog ++ stepFrameCalls s a := by
  obtain ⟨l, hl, hplain⟩ := step_calls hwf a
  have hdrop : l.filter Call.ofFrame = [] :=
    List.filter_eq_nil_iff.mpr fun c hc => by simp [(hplain c hc).1]
  have hkeep : (stepFrameCalls s a).filter Call.ofFrame = stepFrameCalls s a := by
    rw [List.filter_eq_self, stepFrameCalls]
    split
    · exact frameCalls_ofFrame s
    · exact fun c hc => absurd hc List.not_mem_nil
  rw [State.frameLog, hl, List.filter_append, List.filter_append, hdrop, hkeep, List.append_nil]
  rfl

theorem frameLog_step_of_not {s : State cfg} (hwf : Wf s) {a : Action}
    (hnot : ¬(a = .event ∧ Handles s)) : (s.step a).frameLog = s.frameLog := by
  rw [frameLog_step hwf, stepFrameCalls, if_neg hnot, List.append_nil]

/-- A byte adds nothing to the log. -/
theorem frameLog_recv {s : State cfg} (hwf : Wf s) (data : UInt8) :
    (serialRecvCb s data).frameLog = s.frameLog :=
  frameLog_step_of_not hwf (a := .recv data) fun hf => by cases hf.1

theorem frameLog_timer {s : State cfg} (hwf : Wf s) : (timerIsr s).frameLog = s.frameLog :=
  frameLog_step_of_not hwf (a := .timer) fun hf => by cases hf.1

/-- The event that handles a frame adds its calls. -/
theorem Handles.frameLog_event {s : State cfg} (hh : Handles s) (hwf : Wf s) :
    (modbusRtuEvent s).frameLog = s.frameLog ++ frameCalls s := by
  have hlog : (modbusRtuEvent s).frameLog = _ := frameLog_step hwf .event
  rw [hlog, stepFrameCalls, if_pos ⟨rfl, hh⟩]

/-- No other event adds anything. -/
theorem frameLog_event_of_not {s : State cfg} (hwf : Wf s) (hnot : ¬Handles s) :
    (modbusRtuEvent s).frameLog = s.frameLog :=
  frameLog_step_of_not hwf (a := .event) fun hf => hnot hf.2

theorem calls_step {s : State cfg} (hwf : Wf s) (a : Action) :
    ∃ l, (s.step a).calls = s.calls ++ l := by
  obtain ⟨l, hl, -⟩ := step_calls hwf a
  exact ⟨stepFrameCalls s a ++ l, by rw [hl, List.append_assoc]⟩

/-- The calls of a run come behind those made before. -/
theorem calls_run {s : State cfg} (hwf : Wf s) {acts : List Action}
    (hlegal : (rtuSystem cfg).Legal s acts) :
    ((rtuSystem cfg).run s acts).calls = s.calls ++ callsSince s ((rtuSystem cfg).run s acts) := by
  suffices h : ∃ l, ((rtuSystem cfg).run s acts).calls = s.calls ++ l by
    obtain ⟨l, hl⟩ := h
    rw [callsSince, hl, List.drop_left]
  induction acts generalizing s with
  | nil => exact ⟨[], by simp⟩
  | cons a acts ih =>
      obtain ⟨l₁, h₁⟩ := calls_step hwf a
      obtain ⟨l₂, h₂⟩ := ih (wf_invariant.step s a hwf hlegal.1) hlegal.2
      refine ⟨l₁ ++ l₂, h₂.trans ?_⟩
      rw [show ((rtuSystem cfg).step s a).calls = s.calls ++ l₁ from h₁, List.append_assoc]

/-- What a run calls, and what is called behind it. -/
theorem callsSince_run_append {s : State cfg} (hwf : Wf s) {l₁ l₂ : List Action}
    (hlegal : (rtuSystem cfg).Legal s (l₁ ++ l₂)) :
    callsSince s ((rtuSystem cfg).run s (l₁ ++ l₂)) =
      callsSince s ((rtuSystem cfg).run s l₁) ++
        callsSince ((rtuSystem cfg).run s l₁) ((rtuSystem cfg).run s (l₁ ++ l₂)) := by
  obtain ⟨hlegal₁, hlegal₂⟩ := System.legal_append.mp hlegal
  have hfirst := calls_run hwf hlegal₁
  have hrest := calls_run (wf_invariant.run hwf hlegal₁) hlegal₂
  rw [← System.run_append] at hrest
  generalize (rtuSystem cfg).run s (l₁ ++ l₂) = t' at hrest ⊢
  generalize (rtuSystem cfg).run s l₁ = t at hfirst hrest ⊢
  rw [hfirst, List.append_assoc] at hrest
  rw [callsSince, hrest, List.drop_left]

/-- The calls a run makes for frames. -/
theorem frameLog_run {s : State cfg} (hwf : Wf s) {acts : List Action}
    (hlegal : (rtuSystem cfg).Legal s acts) :
    ((rtuSystem cfg).run s acts).frameLog =
      s.frameLog ++ (callsSince s ((rtuSystem cfg).run s acts)).filter Call.ofFrame := by
  rw [State.frameLog, calls_run hwf hlegal, List.filter_append]
  rfl

/-! ## Receiving a frame -/

/-- `idle` with nothing to report. -/
structure Quiet (s : State cfg) : Prop where
  wf : Wf s
  curr : s.status.curr = .idle
  updated : s.status.updated = false

/-- Since `s₀`, the frame `f` has come in, the machine is in `state`, and
nothing has been called for it. -/
structure Holds (s₀ : State cfg) (f : List UInt8) (state : RtuState) (s : State cfg) : Prop where
  wf : Wf s
  error : s.status.error = false
  curr : s.status.curr = state
  filled : s.rxbuf.filled = f
  userData : s.userData = s₀.userData
  log : s.frameLog = s₀.frameLog

/-- The machine is bound to restart: bytes and events cannot make it take a frame. -/
structure Doomed (s₀ s : State cfg) : Prop where
  wf : Wf s
  status : s.status.error = true ∨ s.status.curr = .init
  log : s.frameLog = s₀.frameLog

/-- The state in which a frame of which `f` has come in is received. -/
def frameState (f : List UInt8) : RtuState := if f.length = 1 then .sof else .recv

/-- The machine after `f`, with any number of events, from a quiet state `s₀`. -/
inductive Fed (s₀ : State cfg) : List UInt8 → State cfg → Prop
  | nothing : Fed s₀ [] s₀
  | frame {f s} : f ≠ [] → Holds s₀ f (frameState f) s → Fed s₀ f s
  | overrun {f s} : cfg.rxbufCapacity < f.length → Doomed s₀ s → Fed s₀ f s

theorem Holds.length_le {s₀ s : State cfg} {f : List UInt8} {state : RtuState}
    (h : Holds s₀ f state s) : f.length = s.rxbuf.curr ∧ f.length ≤ cfg.rxbufCapacity := by
  have hlen : s.rxbuf.filled.length = s.rxbuf.curr := Buf.length_filled h.wf.rxBound
  rw [h.filled] at hlen
  exact ⟨hlen, hlen ▸ h.wf.rxBound⟩

/-- A frame that holds its first bytes is being received. -/
theorem Holds.receiving {s₀ s : State cfg} {f : List UInt8} (h : Holds s₀ f (frameState f) s) :
    s.status.curr = .sof ∨ s.status.curr = .recv := by
  rw [h.curr, frameState]
  split
  · exact .inl rfl
  · exact .inr rfl

/-- An event leaves a frame in progress alone. -/
theorem Holds.event {s₀ s : State cfg} {f : List UInt8} {state : RtuState}
    (h : Holds s₀ f state s) (hin : InFrame s) : Holds s₀ f state (modbusRtuEvent s) := by
  have hlog := frameLog_event_of_not h.wf fun hh => absurd hin (not_inFrame hh.curr)
  have hwf := modbusRtuEvent_wf h.wf
  obtain ⟨calls, hstep⟩ := event_of_inFrame h.wf h.error hin
  rw [hstep] at hwf hlog ⊢
  exact ⟨hwf, h.error, h.curr, h.filled, h.userData, hlog.trans h.log⟩

/-- An event restarts a doomed machine. -/
theorem Doomed.event {s₀ s : State cfg} (h : Doomed s₀ s) :
    Doomed s₀ (modbusRtuEvent s) ∧ (modbusRtuEvent s).status.error = false ∧
      (modbusRtuEvent s).status.updated = false := by
  have hnot : ¬Handles s := by
    rcases h.status with herr | hc
    · exact not_handles_of_error herr
    · exact not_handles_of_curr hc
  have hlog := frameLog_event_of_not h.wf hnot
  -- once the error is handled, only `init` is left of the two ways to be doomed
  have hinit : s.status.error = false → s.status.curr = .init := fun herr =>
    h.status.resolve_left (by simp [herr])
  have hwf := modbusRtuEvent_wf h.wf
  have hcase := event_case h.wf
  generalize modbusRtuEvent s = s' at hcase hlog hwf ⊢
  cases hcase with
  | quiet hup => exact ⟨h, h.wf.error_of_not_updated hup, hup⟩
  | error => exact ⟨⟨hwf, .inr rfl, hlog.trans h.log⟩, rfl, rfl⟩
  | init _ herr hc => exact ⟨⟨hwf, .inr hc, hlog.trans h.log⟩, herr, rfl⟩
  | frame hh => exact absurd hh hnot
  | passed _ herr hc => exact absurd (hinit herr) hc
  | suspended _ herr hc => cases hc.symm.trans (hinit herr)

/-- A byte does not save a doomed machine. -/
theorem Doomed.recv {s₀ s : State cfg} (h : Doomed s₀ s) (data : UInt8) :
    Doomed s₀ (serialRecvCb s data) := by
  have hlog := frameLog_recv h.wf data
  refine ⟨serialRecvCb_wf h.wf data, .inl ?_, hlog.trans h.log⟩
  rcases h.status with herr | hc
  · exact serialRecvCb_error herr data
  · rw [serialRecvCb_other (by simp [hc]) (by simp [hc])]
    rfl

/-- The first byte opens the frame. -/
theorem Quiet.recv {s₀ : State cfg} (h : Quiet s₀) (data : UInt8) :
    Fed s₀ [data] (serialRecvCb s₀ data) := by
  have herr₀ : s₀.status.error = false := h.wf.error_of_not_updated h.updated
  have hempty : s₀.rxbuf.curr = 0 := h.wf.rx_empty h.curr h.updated
  have hlog := frameLog_recv h.wf data
  have hwf := serialRecvCb_wf h.wf data
  have hstep := serialRecvCb_idle h.curr data
  by_cases hroom : 0 < cfg.rxbufCapacity
  · have herr : (serialRecvCb s₀ data).status.error = false := by
      rw [hstep]
      exact (rxbufAppend_room (s₀.update .sof) data (by show s₀.rxbuf.curr < _; omega)).trans herr₀
    refine .frame (by simp) ⟨hwf, herr, ?_, ?_, ?_, hlog⟩
    · rw [hstep]
      exact rxbufAppend_status_curr _ _
    · rw [hstep] at herr ⊢
      refine (rxbufAppend_of_no_error (s₀.update .sof) data herr).2.trans ?_
      rw [show (s₀.update .sof).rxbuf.filled = [] from Buf.filled_eq_nil hempty]
      rfl
    · rw [hstep]
      exact rxbufAppend_userData _ _
  · refine .overrun (by simp; omega) ⟨hwf, .inl ?_, hlog⟩
    rw [hstep]
    exact rxbufAppend_full (s₀.update .sof) data (by show _ ≤ s₀.rxbuf.curr; omega)

/-- Every further byte extends it, until one finds no room. -/
theorem Holds.recv {s₀ s : State cfg} {f : List UInt8} (hf : f ≠ [])
    (h : Holds s₀ f (frameState f) s) (data : UInt8) :
    Fed s₀ (f ++ [data]) (serialRecvCb s data) := by
  have hframe := h.receiving
  have hlen : f.length = s.rxbuf.curr := h.length_le.1
  have hpos : 0 < f.length := List.length_pos_iff.mpr hf
  have hlog := frameLog_recv h.wf data
  have hwf := serialRecvCb_wf h.wf data
  have hstep := serialRecvCb_frame hframe data
  by_cases hroom : s.rxbuf.curr < cfg.rxbufCapacity
  · have herr : (serialRecvCb s data).status.error = false := by
      rw [hstep]
      exact (rxbufAppend_room (s.update .recv) data hroom).trans h.error
    refine .frame (by simp) ⟨hwf, herr, ?_, ?_, ?_, hlog.trans h.log⟩
    · rw [hstep, frameState, if_neg (by simp; omega)]
      exact rxbufAppend_status_curr _ _
    · rw [hstep] at herr ⊢
      refine (rxbufAppend_of_no_error (s.update .recv) data herr).2.trans ?_
      rw [show (s.update .recv).rxbuf.filled = f from h.filled]
    · rw [hstep]
      exact (rxbufAppend_userData _ _).trans h.userData
  · refine .overrun (by simp; omega) ⟨hwf, .inl ?_, hlog.trans h.log⟩
    rw [hstep]
    exact rxbufAppend_full (s.update .recv) data (by show _ ≤ s.rxbuf.curr; omega)

theorem Fed.recv {s₀ s : State cfg} {f : List UInt8} (hq : Quiet s₀) (h : Fed s₀ f s)
    (data : UInt8) : Fed s₀ (f ++ [data]) (serialRecvCb s data) := by
  cases h with
  | nothing => exact hq.recv data
  | frame hf h => exact h.recv hf data
  | overrun hlen h => exact .overrun (by simp; omega) (h.recv data)

theorem Fed.event {s₀ s : State cfg} {f : List UInt8} (hq : Quiet s₀) (h : Fed s₀ f s) :
    Fed s₀ f (modbusRtuEvent s) := by
  cases h with
  | nothing =>
      rw [event_quiet hq.updated]
      exact .nothing
  | frame hf h => exact .frame hf (h.event (h.receiving.imp id .inl))
  | overrun hlen h => exact .overrun hlen h.event.1

/-- The bytes of a schedule. -/
def received : List Action → List UInt8
  | [] => []
  | .recv data :: acts => data :: received acts
  | _ :: acts => received acts

/-- Bytes and events only. -/
def Feeding (acts : List Action) : Prop := ∀ a ∈ acts, a = .event ∨ ∃ data, a = .recv data

/-- Along bytes and events the machine holds what it was fed. -/
theorem Fed.run {s₀ s : State cfg} {f : List UInt8} (hq : Quiet s₀) (h : Fed s₀ f s)
    {acts : List Action} (hacts : Feeding acts) :
    Fed s₀ (f ++ received acts) ((rtuSystem cfg).run s acts) := by
  induction acts generalizing f s with
  | nil => simpa [received] using h
  | cons a acts ih =>
      have htail : Feeding acts := fun b hb => hacts b (List.mem_cons_of_mem _ hb)
      rcases hacts a List.mem_cons_self with rfl | ⟨data, rfl⟩
      · exact ih (h.event hq) htail
      · have hnext := ih (h.recv hq data) htail
        rw [List.append_assoc] at hnext
        exact hnext

/-- Only the timer interrupt has to wait for something. -/
theorem enabled_event (s : State cfg) : (rtuSystem cfg).enabled s .event :=
  fun ha => Action.noConfusion ha

theorem legal_feeding {s : State cfg} {acts : List Action} (hacts : Feeding acts) :
    (rtuSystem cfg).Legal s acts := by
  induction acts generalizing s with
  | nil => trivial
  | cons a acts ih =>
      refine ⟨?_, ih fun b hb => hacts b (List.mem_cons_of_mem _ hb)⟩
      intro ha
      rcases hacts a List.mem_cons_self with rfl | ⟨data, rfl⟩ <;> cases ha

/-- Bytes and events do not save a doomed machine. -/
theorem Doomed.run {s₀ s : State cfg} (h : Doomed s₀ s) {acts : List Action}
    (hacts : Feeding acts) : Doomed s₀ ((rtuSystem cfg).run s acts) := by
  induction acts generalizing s with
  | nil => exact h
  | cons a acts ih =>
      have htail : Feeding acts := fun b hb => hacts b (List.mem_cons_of_mem _ hb)
      rcases hacts a List.mem_cons_self with rfl | ⟨data, rfl⟩
      · exact ih h.event.1 htail
      · exact ih (h.recv data) htail

/-! ## Silence after a frame -/

/-- The first timeout ends a frame of at least two bytes. -/
theorem Holds.timeout {s₀ s : State cfg} {f : List UInt8} (h : Holds s₀ f .recv s) :
    Holds s₀ f .eof (timerIsr s) := by
  have hwf := timerIsr_wf h.wf (h.wf.armed_frame (.inr h.curr))
  have hlog := frameLog_timer h.wf
  rw [timerIsr_recv (h.wf.timer_frame (.inr h.curr)).2 h.curr] at hwf hlog ⊢
  exact ⟨hwf, h.error, rfl, h.filled, h.userData, hlog.trans h.log⟩

/-- The second one confirms the end: the frame waits for its event. -/
theorem Holds.confirm {s₀ s : State cfg} {f : List UInt8} (h : Holds s₀ f .eof s) :
    Holds s₀ f .idle (timerIsr s) ∧ Handles (timerIsr s) := by
  have hwf := timerIsr_wf h.wf (h.wf.armed_eof h.curr)
  have hlog := frameLog_timer h.wf
  rw [timerIsr_eof (h.wf.timer_eof h.curr).2 (h.wf.prev_eof h.curr) h.curr] at hwf hlog ⊢
  exact ⟨⟨hwf, h.error, rfl, h.filled, h.userData, hlog.trans h.log⟩, rfl, h.error, rfl, h.curr⟩

/-- A single byte is not a frame: the timeout raises an error. -/
theorem Holds.timeout_sof {s₀ s : State cfg} {f : List UInt8} (h : Holds s₀ f .sof s) :
    Doomed s₀ (timerIsr s) := by
  have hwf := timerIsr_wf h.wf (h.wf.armed_frame (.inl h.curr))
  have hlog := frameLog_timer h.wf
  rw [timerIsr_sof (h.wf.timer_frame (.inl h.curr)).2 h.curr] at hwf hlog ⊢
  exact ⟨hwf, .inl rfl, hlog.trans h.log⟩

/-! ## Settled states -/

/-- Neither timers nor events can make the machine handle a frame any more. -/
def Settled (s : State cfg) : Prop :=
  s.status.error = true ∨ s.status.curr = .init ∨ s.status.curr = .busy ∨
    s.status.curr = .idle ∧ (s.status.prev = .init ∨ s.status.updated = false)

theorem Settled.not_handles {s : State cfg} (h : Settled s) : ¬Handles s := by
  rcases h with h | h | h | ⟨-, h | h⟩
  · exact not_handles_of_error h
  · exact not_handles_of_curr h
  · exact not_handles_of_curr h
  · intro hh
    cases h.symm.trans hh.prev
  · exact not_handles_of_updated h

theorem Quiet.settled {s : State cfg} (h : Quiet s) : Settled s :=
  .inr (.inr (.inr ⟨h.curr, .inr h.updated⟩))

theorem Doomed.settled {s₀ s : State cfg} (h : Doomed s₀ s) : Settled s :=
  h.status.imp id .inl

theorem Settled.event {s : State cfg} (h : Settled s) (hwf : Wf s) :
    Settled (modbusRtuEvent s) := by
  have hcase := event_case hwf
  generalize modbusRtuEvent s = s' at hcase ⊢
  cases hcase with
  | quiet => exact h
  | error => exact .inr (.inl rfl)
  | init _ _ hc => exact .inr (.inl hc)
  | frame hh => exact absurd hh h.not_handles
  | passed _ herr hinit =>
      rcases h with h | hc | hc | ⟨hc, -⟩
      · cases h.symm.trans herr
      · exact absurd hc hinit
      · exact .inr (.inr (.inl hc))
      · exact .inr (.inr (.inr ⟨hc, .inr rfl⟩))
  | suspended _ herr hsof =>
      rcases h with h | hc | hc | ⟨hc, -⟩
      · cases h.symm.trans herr
      all_goals cases hsof.symm.trans hc

theorem Settled.timer {s : State cfg} (h : Settled s) (hwf : Wf s) (harmed : s.timer ≠ .stopped) :
    Settled (timerIsr s) := by
  rcases h with h | hc | hc | ⟨hc, -⟩
  · exact .inl (timerIsr_error h)
  · rw [timerIsr_init (hwf.timer_init hc harmed).2 hc]
    exact .inr (.inr (.inr ⟨rfl, .inl hc⟩))
  · exact absurd (hwf.timer_busy hc) harmed
  · exact absurd (hwf.timer_idle hc) harmed

/-- The event that handles a frame settles the machine. -/
theorem settled_of_handles {s : State cfg} (hwf : Wf s) (hh : Handles s) :
    Settled (modbusRtuEvent s) := by
  have hsettled : Settled (aduProcess serialSend (consumed s)) := by
    rcases aduProcess_status (s := consumed s) hh.error with hst | hst | hst | hst
    · exact .inl (by rw [hst]; rfl)
    · exact .inr (.inr (.inr ⟨by rw [hst]; exact hh.curr, .inr (by rw [hst]; rfl)⟩))
    · exact .inr (.inr (.inl (by rw [hst]; rfl)))
    · exact .inr (.inl (by rw [hst]))
  rw [event_handled hwf hh, handled]
  split <;> exact hsettled

/-- Timers and events only. -/
def Waiting (acts : List Action) : Prop := ∀ a ∈ acts, a = .event ∨ a = .timer

/-! ## A sample slave -/

/-- A slave that takes frames and never answers. -/
def listener : Config Unit where
  pduCb u _ := (u, [])
  serialSend := .async
  suspendCb := false
  resumeCb := false

/-- From power up to `idle`. -/
def boot : List Action := [.event, .timer, .event]

/-- The sample slave, waiting for its first frame. -/
def idleListener : State listener := (rtuSystem listener).run (modbusRtuInit listener ()) boot

theorem idleListener_reachable : (rtuSystem listener).Reachable idleListener :=
  System.Reachable.run (M := rtuSystem listener) (.init ⟨(), rfl⟩) (by decide)

theorem idleListener_quiet : Quiet idleListener :=
  ⟨wf_invariant.holds idleListener_reachable, rfl, rfl⟩

end ModbusRtu
