import ModbusRtu.Base.Alternation
import ModbusRtu.Logic.FramePhases
import ModbusRtu.Logic.OwnCalls

/-!
# Suspending and resuming the application

`suspend_cb` reports the start of a frame, `resume_cb` the end of its
processing, whether the frame was accepted or not. A frame that is given up
before it is confirmed is not reported: the event behind the error restarts the
machine and leaves the application suspended.

`suspended_iff_inFrame` is the invariant of the runs in which no frame is given
up: between the events, the application is suspended exactly while a frame is
in progress. `suspend_resume_paired` reads the pairing off, and shows that every
step that gives a frame up ends in `idle` with the application suspended.
-/

namespace ModbusRtu

open Base

variable {U : Type} {cfg : Config U}

/-! ## Attended runs -/

/-- Every callback is followed by an event before the next one; further events
may come at any time. The flag tells that the event is due. -/
abbrev attendedSystem (cfg : Config U) : System (State cfg × Bool) Action :=
  ((rtuSystem cfg).track false fun _ _ a => decide (a ≠ .event)).restrict fun p a =>
    p.2 = true → a = .event

instance (s : State cfg) : Decidable (InFrame s) :=
  inferInstanceAs (Decidable (_ ∨ _ ∨ _))

/-- The step gives up a frame in progress: a line error, the end of a
transmission nobody started, a timeout after a single byte, a byte after the
end of the frame, a byte too many. -/
def Aborts (s : State cfg) (a : Action) : Prop :=
  InFrame s ∧
    match a with
    | .recv _ => s.status.curr = .eof ∨ cfg.rxbufCapacity ≤ s.rxbuf.curr
    | .recvErr _ => True
    | .sent => True
    | .timer => s.status.curr = .sof
    | .event => False

instance (s : State cfg) (a : Action) : Decidable (Aborts s a) := by
  unfold Aborts
  cases a <;> exact inferInstance

/-- The attended runs in which no frame is given up. -/
abbrev unbrokenSystem (cfg : Config U) : System (State cfg × Bool) Action :=
  (attendedSystem cfg).restrict fun p a => ¬Aborts p.1 a

/-! ## The log of the two callbacks -/

/-- A call of `suspend_cb` or `resume_cb`. -/
def Call.pairs : Call → Bool
  | .suspendCb | .resumeCb => true
  | _ => false

/-- The calls of `suspend_cb` and `resume_cb` so far. -/
def State.pairLog (s : State cfg) : List Call := s.calls.filter Call.pairs

/-- What the step adds to the log, where both callbacks are set. -/
def stepPairs (s : State cfg) (a : Action) : List Call :=
  if a = .event ∧ Starts s then [.suspendCb]
  else if a = .event ∧ Handles s then [.resumeCb]
  else []

theorem Starts.not_handles {s : State cfg} (hs : Starts s) : ¬Handles s :=
  not_handles_of_curr hs.curr

theorem Handles.not_starts {s : State cfg} (hh : Handles s) : ¬Starts s :=
  fun hs => hs.not_handles hh

theorem stepPairs_of_not {s : State cfg} {a : Action}
    (hnot : a = .event → ¬Starts s ∧ ¬Handles s) : stepPairs s a = [] := by
  rw [stepPairs, if_neg fun h => (hnot h.1).1 h.2, if_neg fun h => (hnot h.1).2 h.2]

theorem storeCalls_pairs (s : State cfg) : (storeCalls s).filter Call.pairs = [] := by
  unfold storeCalls
  split <;> rfl

/-- The calls for a frame are calls of neither. -/
theorem stepFrameCalls_pairs (s : State cfg) (a : Action) :
    (stepFrameCalls s a).filter Call.pairs = [] := by
  refine List.filter_eq_nil_iff.mpr ?_
  intro c hc
  have hframe : c.ofFrame = true := by
    unfold stepFrameCalls at hc
    split at hc
    · exact frameCalls_ofFrame s c hc
    · exact absurd hc List.not_mem_nil
  revert hframe
  cases c <;> simp [Call.ofFrame, Call.pairs]

section Paired

variable (hsuspend : cfg.suspendCb = true) (hresume : cfg.resumeCb = true)
include hsuspend hresume

theorem OwnCalls.pairs {s : State cfg} {a : Action} {l : List Call} (h : OwnCalls s a l) :
    l.filter Call.pairs = stepPairs s a := by
  cases h with
  | none hnot => exact (stepPairs_of_not hnot).symm
  | opened =>
      rw [List.filter_append, storeCalls_pairs, stepPairs_of_not fun ha => by cases ha]
      rfl
  | extended =>
      rw [List.filter_append, storeCalls_pairs, stepPairs_of_not fun ha => by cases ha]
      rfl
  | stopped =>
      rw [stepPairs_of_not fun ha => by cases ha]
      rfl
  | changeover hnot =>
      rw [stepPairs_of_not hnot]
      rfl
  | suspended hs =>
      rw [if_pos hsuspend, stepPairs, if_pos ⟨rfl, hs⟩]
      rfl
  | handled hh hl =>
      rw [if_pos hresume, stepPairs, if_neg fun h => hh.not_starts h.2, if_pos ⟨rfl, hh⟩]
      rcases hl with rfl | rfl <;> rfl

theorem pairLog_step {s : State cfg} (hwf : Wf s) {a : Action}
    (hen : (rtuSystem cfg).enabled s a) : (s.step a).pairLog = s.pairLog ++ stepPairs s a := by
  obtain ⟨l, hl, hown⟩ := step_ownCalls hwf hen
  rw [State.pairLog, hl, List.filter_append, List.filter_append, stepFrameCalls_pairs,
    hown.pairs hsuspend hresume, List.append_nil]
  rfl

theorem pairLog_callback {s : State cfg} (hwf : Wf s) {a : Action}
    (hen : (rtuSystem cfg).enabled s a) (ha : a ≠ .event) : (s.step a).pairLog = s.pairLog := by
  rw [pairLog_step hsuspend hresume hwf hen, stepPairs_of_not fun h => absurd h ha, List.append_nil]

/-! ## Between the events -/

omit hsuspend hresume in
/-- A callback announces something. -/
theorem callback_updated {s : State cfg} (hwf : Wf s) {a : Action}
    (hen : (rtuSystem cfg).enabled s a) (ha : a ≠ .event) : (s.step a).status.updated = true := by
  cases a with
  | recv data =>
      have hcase : RecvCase s data (s.step (.recv data)) := recv_case s data
      generalize s.step (.recv data) = s' at hcase ⊢
      cases hcase with
      | opened | extended => exact rxbufAppend_status_updated _ _ rfl
      | stray => rfl
  | recvErr data => rfl
  | sent =>
      show (serialSentCb s).status.updated = true
      unfold serialSentCb
      split <;> rfl
  | timer =>
      have hcase : TimerCase s (s.step .timer) := timer_case hwf (hen rfl)
      generalize s.step .timer = s' at hcase ⊢
      cases hcase <;> rfl
  | event => exact absurd rfl ha

end Paired

/-- The event finds a frame whose start has been reported: in progress without
an error, or confirmed. -/
def Reported (s : State cfg) : Prop :=
  (s.status.error = false ∧ (s.status.curr = .recv ∨ s.status.curr = .eof)) ∨ Handles s

theorem not_reported_of_error {s : State cfg} (herr : s.status.error = true) : ¬Reported s := by
  rintro (⟨herr', -⟩ | hh)
  · rw [herr] at herr'
    cases herr'
  · exact not_handles_of_error herr hh

theorem not_reported_of_curr {s : State cfg} {c : RtuState} (h : s.status.curr = c)
    (hout : c ≠ .recv ∧ c ≠ .eof ∧ c ≠ .idle := by decide) : ¬Reported s := by
  obtain ⟨hrecv, heof, hidle⟩ := hout
  rintro (⟨-, hc | hc⟩ | hh)
  · exact hrecv (h.symm.trans hc)
  · exact heof (h.symm.trans hc)
  · exact not_handles_of_curr h hidle hh

/-- An event is due; the application is suspended for a frame already reported. -/
structure Due (s : State cfg) : Prop where
  wf : Wf s
  updated : s.status.updated = true
  alternating : Alternating .suspendCb .resumeCb s.pairLog
  suspended : s.pairLog.length % 2 = 1 ↔ Reported s

/-- No event is due; the application is suspended while a frame is in progress. -/
structure Balanced (s : State cfg) : Prop where
  wf : Wf s
  alternating : Alternating .suspendCb .resumeCb s.pairLog
  suspended : s.pairLog.length % 2 = 1 ↔ InFrame s
  quiet : InFrame s → s.status.updated = false
  notHandles : ¬Handles s

theorem Balanced.error {s : State cfg} (h : Balanced s) (hin : InFrame s) :
    s.status.error = false :=
  h.wf.error_of_not_updated (h.quiet hin)

section Steps

variable (hsuspend : cfg.suspendCb = true) (hresume : cfg.resumeCb = true)
include hsuspend hresume

/-- In a frame, the event suspends the application if the frame is new. -/
theorem Due.event_inFrame {s : State cfg} (h : Due s) (herr : s.status.error = false)
    (hin : InFrame s) : Balanced (modbusRtuEvent s) := by
  have hlog := pairLog_step hsuspend hresume h.wf (enabled_event s)
  change (modbusRtuEvent s).pairLog = _ at hlog
  have hodd := h.suspended
  obtain ⟨calls, hstep⟩ := event_of_inFrame h.wf herr hin
  have hin' : InFrame (modbusRtuEvent s) := by
    rw [hstep]
    exact hin
  have hup' : (modbusRtuEvent s).status.updated = false := by rw [hstep]; rfl
  suffices hpair : Alternating .suspendCb .resumeCb (modbusRtuEvent s).pairLog ∧
      (modbusRtuEvent s).pairLog.length % 2 = 1 from
    ⟨modbusRtuEvent_wf h.wf, hpair.1, iff_of_true hpair.2 hin', fun _ => hup',
      not_handles_of_updated hup'⟩
  rcases hin with hc | hc
  · -- the frame is new
    have heven : s.pairLog.length % 2 = 0 := by
      have hnot := mt hodd.mp (not_reported_of_curr hc)
      omega
    rw [hlog, stepPairs, if_pos ⟨rfl, h.updated, herr, hc⟩]
    refine ⟨h.alternating.enter_snoc heven, ?_⟩
    rw [List.length_append, List.length_singleton]
    omega
  · -- it has been reported
    have hnot : ¬Starts s ∧ ¬Handles s := by
      refine ⟨?_, fun hh => absurd (.inr hc) (not_inFrame hh.curr)⟩
      intro hs
      rcases hc with hc | hc <;> cases hs.curr.symm.trans hc
    rw [hlog, stepPairs_of_not fun _ => hnot, List.append_nil]
    exact ⟨h.alternating, hodd.mpr (.inl ⟨herr, hc⟩)⟩

/-- Everywhere else it resumes the application behind a confirmed frame. -/
theorem Due.event_outside {s : State cfg} (h : Due s)
    (hout : ¬(s.status.error = false ∧ InFrame s)) : Balanced (modbusRtuEvent s) := by
  have hlog := pairLog_step hsuspend hresume h.wf (enabled_event s)
  change (modbusRtuEvent s).pairLog = _ at hlog
  have hodd := h.suspended
  have hnotin := event_not_inFrame h.wf h.updated hout
  suffices hpair : Alternating .suspendCb .resumeCb (modbusRtuEvent s).pairLog ∧
      (modbusRtuEvent s).pairLog.length % 2 = 0 from
    ⟨modbusRtuEvent_wf h.wf, hpair.1, iff_of_false (by omega) hnotin,
      fun hin => absurd hin hnotin, event_not_handles h.wf⟩
  have hstarts : ¬Starts s := fun hs => hout ⟨hs.error, .inl hs.curr⟩
  rw [hlog, stepPairs, if_neg fun hs => hstarts hs.2]
  by_cases hh : Handles s
  · -- the frame ends
    have hone : s.pairLog.length % 2 = 1 := hodd.mpr (.inr hh)
    rw [if_pos ⟨rfl, hh⟩]
    refine ⟨h.alternating.leave_snoc hone, ?_⟩
    rw [List.length_append, List.length_singleton]
    omega
  · rw [if_neg fun hh' => hh hh'.2, List.append_nil]
    refine ⟨h.alternating, ?_⟩
    have hnot : ¬Reported s := by
      rintro (⟨herr, hc⟩ | hh')
      · exact hout ⟨herr, .inr hc⟩
      · exact hh hh'
    have heven := mt hodd.mp hnot
    omega

theorem Due.event {s : State cfg} (h : Due s) : Balanced (modbusRtuEvent s) := by
  by_cases hin : s.status.error = false ∧ InFrame s
  · exact Due.event_inFrame hsuspend hresume h hin.1 hin.2
  · exact Due.event_outside hsuspend hresume h hin

/-- An event that is not due. -/
theorem Balanced.event {s : State cfg} (h : Balanced s) : Balanced (modbusRtuEvent s) := by
  cases hup : s.status.updated with
  | false =>
      rw [event_quiet hup]
      exact h
  | true =>
      have hnotin : ¬InFrame s := by
        intro hin
        rw [h.quiet hin] at hup
        cases hup
      refine Due.event hsuspend hresume ⟨h.wf, hup, h.alternating, ?_⟩
      rw [h.suspended]
      refine iff_of_false hnotin ?_
      rintro (⟨-, hc⟩ | hh)
      · exact hnotin (.inr hc)
      · exact h.notHandles hh

omit hsuspend hresume in
/-- Unless it gives a frame up, a byte leaves the event a reported frame exactly
if there is one. -/
theorem Balanced.reported_recv {s : State cfg} (h : Balanced s) {data : UInt8}
    (hnot : ¬Aborts s (.recv data)) : Reported (serialRecvCb s data) ↔ InFrame s := by
  have hcase := recv_case s data
  generalize serialRecvCb s data = s' at hcase ⊢
  cases hcase with
  | opened hidle =>
      -- the first byte of a frame nobody knows of yet
      have hc := rxbufAppend_status_curr (s.update .sof) data
      exact iff_of_false (not_reported_of_curr (c := .sof) hc) (not_inFrame hidle)
  | extended hframe =>
      have hin : InFrame s := hframe.imp_right .inl
      have hroom : s.rxbuf.curr < cfg.rxbufCapacity := by
        by_contra hfull
        exact hnot ⟨hin, .inr (Nat.le_of_not_lt hfull)⟩
      have herr := (rxbufAppend_room (s.update .recv) data hroom).trans (h.error hin)
      exact iff_of_true (.inl ⟨herr, .inl (rxbufAppend_status_curr _ _)⟩) hin
  | stray hidle hframe =>
      have hin : ¬InFrame s := by
        rintro (hc | hc | hc)
        · exact hframe (.inl hc)
        · exact hframe (.inr hc)
        · exact hnot ⟨.inr (.inr hc), .inl hc⟩
      exact iff_of_false (not_reported_of_error rfl) hin

omit hsuspend hresume in
/-- So does a timeout. -/
theorem Balanced.reported_timer {s : State cfg} (h : Balanced s) (harmed : s.timer ≠ .stopped)
    (hnot : ¬Aborts s .timer) : Reported (timerIsr s) ↔ InFrame s := by
  have hcase := timer_case h.wf harmed
  generalize timerIsr s = s' at hcase ⊢
  cases hcase with
  | silence hc =>
      refine iff_of_false ?_ (not_inFrame hc)
      rintro (⟨-, hc' | hc'⟩ | hh)
      · cases hc'
      · cases hc'
      · cases hc.symm.trans hh.prev
  | stray hc => exact absurd ⟨.inl hc, hc⟩ hnot
  | ended hc =>
      have hin : InFrame s := .inr (.inl hc)
      exact iff_of_true (.inl ⟨h.error hin, .inr rfl⟩) hin
  | confirmed hc =>
      have hin : InFrame s := .inr (.inr hc)
      exact iff_of_true (.inr ⟨rfl, h.error hin, rfl, hc⟩) hin

omit hsuspend hresume in
/-- So does every callback. -/
theorem Balanced.reported_callback {s : State cfg} (h : Balanced s) {a : Action}
    (hen : (rtuSystem cfg).enabled s a) (ha : a ≠ .event) (hnot : ¬Aborts s a) :
    Reported (s.step a) ↔ InFrame s := by
  cases a with
  | recv data => exact h.reported_recv hnot
  | recvErr data =>
      exact iff_of_false (not_reported_of_error rfl) fun hin => hnot ⟨hin, trivial⟩
  | sent =>
      have hin : ¬InFrame s := fun hin => hnot ⟨hin, trivial⟩
      show Reported (serialSentCb s) ↔ _
      by_cases hbusy : s.status.curr = .busy
      · rw [serialSentCb_busy hbusy]
        exact iff_of_false (not_reported_of_curr (c := .init) rfl) hin
      · rw [serialSentCb_other hbusy]
        exact iff_of_false (not_reported_of_error rfl) hin
  | timer => exact h.reported_timer (hen rfl) hnot
  | event => exact absurd rfl ha

theorem Balanced.callback {s : State cfg} (h : Balanced s) {a : Action}
    (hen : (rtuSystem cfg).enabled s a) (ha : a ≠ .event) (hnot : ¬Aborts s a) :
    Due (s.step a) := by
  have hlog := pairLog_callback hsuspend hresume h.wf hen ha
  refine ⟨wf_invariant.step s a h.wf hen, callback_updated h.wf hen ha, ?_, ?_⟩
  · rw [hlog]
    exact h.alternating
  · rw [hlog, h.suspended, h.reported_callback hen ha hnot]

/-! ## All runs -/

/-- What holds along the runs in which no frame is given up. -/
def Paired (p : State cfg × Bool) : Prop := if p.2 = true then Due p.1 else Balanced p.1

theorem suspended_iff_inFrame : (unbrokenSystem cfg).Inductive Paired where
  init := by
    rintro ⟨s, due⟩ ⟨⟨userData, rfl⟩, hdue⟩
    obtain rfl : due = false := hdue
    have hnotin : ¬InFrame (modbusRtuInit cfg userData) :=
      not_inFrame (c := .init) rfl
    exact ⟨modbusRtuInit_wf userData, alternating_nil, iff_of_false Nat.zero_ne_one hnotin,
      fun hin => absurd hin hnotin, not_handles_of_curr (c := .init) rfl⟩
  step := by
    rintro ⟨s, due⟩ a h ⟨⟨hen, hdue⟩, hnot⟩
    by_cases ha : a = .event
    · subst ha
      cases due with
      | true => exact Due.event hsuspend hresume h
      | false => exact Balanced.event hsuspend hresume h
    · have hfree : due = false := by
        cases due with
        | true => exact absurd (hdue rfl) ha
        | false => rfl
      subst hfree
      have hnext := Balanced.callback hsuspend hresume h hen ha hnot
      show if decide (a ≠ .event) = true then Due (s.step a) else Balanced (s.step a)
      rw [if_pos (decide_eq_true ha)]
      exact hnext

omit hsuspend hresume in
theorem count_pairLog (s : State cfg) :
    s.pairLog.count .suspendCb = s.calls.count .suspendCb ∧
      s.pairLog.count .resumeCb = s.calls.count .resumeCb :=
  ⟨List.count_filter rfl, List.count_filter rfl⟩

omit hsuspend hresume in
/-- Whether as many frames have ended as started is a matter of the log's length. -/
theorem counts_eq_iff {s : State cfg} (h : Alternating .suspendCb .resumeCb s.pairLog) :
    s.calls.count .resumeCb = s.calls.count .suspendCb ↔ s.pairLog.length % 2 = 0 := by
  rw [← (count_pairLog s).1, ← (count_pairLog s).2, eq_comm]
  exact h.count_eq_iff Call.noConfusion

omit hsuspend hresume in
/-- Outside a frame the application has been resumed. -/
theorem Paired.resumed {p : State cfg × Bool} (h : Paired p) :
    Alternating .suspendCb .resumeCb p.1.pairLog ∧
      (p.1.status.curr = .idle → p.1.status.updated = false →
        p.1.calls.count .resumeCb = p.1.calls.count .suspendCb) := by
  obtain ⟨s, due⟩ := p
  cases due with
  | true =>
      have hdue : Due s := h
      refine ⟨hdue.alternating, ?_⟩
      intro _ hup
      rw [hdue.updated] at hup
      cases hup
  | false =>
      have hbal : Balanced s := h
      refine ⟨hbal.alternating, fun hidle _ => (counts_eq_iff hbal.alternating).mpr ?_⟩
      have := mt hbal.suspended.mp (not_inFrame hidle)
      omega

/-! ## Frames that are given up -/

omit hsuspend hresume in
/-- Giving a frame up raises an error. -/
theorem Aborts.error {s : State cfg} (hwf : Wf s) {a : Action} (h : Aborts s a) :
    a ≠ .event ∧ (s.step a).status.error = true := by
  obtain ⟨hin, hab⟩ := h
  cases a with
  | recv data =>
      refine ⟨Action.noConfusion, ?_⟩
      have hcase : RecvCase s data (s.step (.recv data)) := recv_case s data
      generalize s.step (.recv data) = s' at hcase ⊢
      cases hcase with
      | opened hidle => exact absurd hin (not_inFrame hidle)
      | extended hframe =>
          have hfull : cfg.rxbufCapacity ≤ s.rxbuf.curr := by
            refine hab.resolve_left ?_
            intro heof
            rcases hframe with hc | hc <;> cases hc.symm.trans heof
          exact rxbufAppend_full (s.update .recv) data hfull
      | stray => rfl
  | recvErr data => exact ⟨Action.noConfusion, rfl⟩
  | sent =>
      refine ⟨Action.noConfusion, ?_⟩
      have hbusy : s.status.curr ≠ .busy := fun hc => absurd hin (not_inFrame hc)
      show (serialSentCb s).status.error = true
      rw [serialSentCb_other hbusy]
      rfl
  | timer =>
      refine ⟨Action.noConfusion, ?_⟩
      show (timerIsr s).status.error = true
      rw [timerIsr_sof (hwf.timer_frame (.inl hab)).2 hab]
      rfl
  | event => exact hab.elim

omit hsuspend hresume in
/-- The event restarts a machine with an error; after the silence it is idle. -/
theorem restarted {s : State cfg} (hwf : Wf s) (herr : s.status.error = true) :
    (modbusRtuEvent s).timer ≠ .stopped ∧
      (modbusRtuEvent (timerIsr (modbusRtuEvent s))).status.curr = .idle ∧
      (modbusRtuEvent (timerIsr (modbusRtuEvent s))).status.updated = false ∧
      (¬Starts (timerIsr (modbusRtuEvent s)) ∧ ¬Handles (timerIsr (modbusRtuEvent s))) := by
  rw [event_error (hwf.errorUpdated herr) herr,
    timerIsr_init (s := errorRestart (consumed s)) rfl rfl, event_idle_init rfl rfl rfl rfl]
  refine ⟨Timer.noConfusion, rfl, rfl, ?_, ?_⟩
  · intro hs
    exact absurd hs.curr RtuState.noConfusion
  · intro hh
    exact absurd hh.prev RtuState.noConfusion

/-- A frame given up leaves the application suspended in `idle`. -/
theorem Balanced.never_resumed {s : State cfg} (h : Balanced s) {a : Action}
    (hen : (rtuSystem cfg).enabled s a) (hab : Aborts s a) :
    let s' := modbusRtuEvent (timerIsr (modbusRtuEvent (s.step a)))
    s'.calls.count .resumeCb ≠ s'.calls.count .suspendCb := by
  intro s'
  obtain ⟨ha, herr⟩ := hab.error h.wf
  have hwf : Wf (s.step a) := wf_invariant.step s a h.wf hen
  obtain ⟨harmed, -, -, hquiet⟩ := restarted hwf herr
  have hwf' := modbusRtuEvent_wf hwf
  have hnot : ¬Starts (s.step a) ∧ ¬Handles (s.step a) :=
    ⟨fun hs => absurd (hs.error.symm.trans herr) Bool.false_ne_true, not_handles_of_error herr⟩
  -- none of the four steps calls either of the two
  have hlog : s'.pairLog = s.pairLog := by
    calc s'.pairLog
        = (timerIsr (modbusRtuEvent (s.step a))).pairLog := by
          refine Eq.trans
            (pairLog_step hsuspend hresume (timerIsr_wf hwf' harmed) (enabled_event _)) ?_
          rw [stepPairs_of_not fun _ => hquiet, List.append_nil]
      _ = (modbusRtuEvent (s.step a)).pairLog :=
          pairLog_callback hsuspend hresume hwf' (a := .timer) (fun _ => harmed) Action.noConfusion
      _ = (s.step a).pairLog := by
          refine (pairLog_step hsuspend hresume hwf (enabled_event _)).trans ?_
          rw [stepPairs_of_not fun _ => hnot, List.append_nil]
      _ = s.pairLog := pairLog_callback hsuspend hresume h.wf hen ha
  have halt : Alternating .suspendCb .resumeCb s'.pairLog := hlog ▸ h.alternating
  have hodd := h.suspended.mpr hab.1
  rw [ne_eq, counts_eq_iff halt, hlog]
  omega

/-- In every attended run in which no frame is given up, `suspend_cb` and
`resume_cb` alternate, and in `idle` there have been as many of both. A step
that gives a frame up leads, through one timeout, to `idle` with the application
suspended. -/
theorem suspend_resume_paired {p : State cfg × Bool}
    (hreach : (unbrokenSystem cfg).Reachable p) :
    (Alternating .suspendCb .resumeCb p.1.pairLog ∧
        (p.1.status.curr = .idle → p.1.status.updated = false →
          p.1.calls.count .resumeCb = p.1.calls.count .suspendCb)) ∧
      ∀ a, (attendedSystem cfg).enabled p a → Aborts p.1 a →
        let p' := (attendedSystem cfg).run p [a, .event, .timer, .event]
        (attendedSystem cfg).Legal p [a, .event, .timer, .event] ∧
          p'.1.status.curr = .idle ∧ p'.1.status.updated = false ∧
          p'.1.calls.count .resumeCb ≠ p'.1.calls.count .suspendCb := by
  have hinv := (suspended_iff_inFrame hsuspend hresume).holds hreach
  refine ⟨hinv.resumed, ?_⟩
  intro a hen hab
  obtain ⟨s, due⟩ := p
  have hwf : Wf s := by
    cases due with
    | true => exact Due.wf hinv
    | false => exact Balanced.wf hinv
  obtain ⟨ha, herr⟩ := hab.error hwf
  have hfree : due = false := by
    cases due with
    | true => exact absurd (hen.2 rfl) ha
    | false => rfl
  subst hfree
  obtain ⟨harmed, hidle, hup, -⟩ := restarted (wf_invariant.step s a hwf hen.1) herr
  refine ⟨⟨hen, ⟨enabled_event _, fun _ => rfl⟩, ⟨fun _ => harmed, ?_⟩,
    ⟨enabled_event _, fun _ => rfl⟩, trivial⟩, hidle, hup,
    Balanced.never_resumed hsuspend hresume hinv hen.1 hab⟩
  intro hdue
  cases hdue

end Steps

/-! ## Sample runs -/

/-- A listener that wants to be suspended and resumed. -/
def pausing : Config Unit := { listener with suspendCb := true, resumeCb := true }

def pausingStart : State pausing × Bool := (modbusRtuInit pausing (), false)

/-- A frame of two bytes comes in, an event behind each of them. -/
def twoBytes : List Action := boot ++ [.recv 1, .event, .recv 2, .event]

/-- A single byte comes in, and then silence. -/
def strayByte : List Action := boot ++ [.recv 1, .event, .timer, .event, .timer, .event]

theorem suspend_resume_paired_two_bytes :
    let p := (unbrokenSystem pausing).run pausingStart twoBytes
    (Alternating .suspendCb .resumeCb p.1.pairLog ∧
        (p.1.status.curr = .idle → p.1.status.updated = false →
          p.1.calls.count .resumeCb = p.1.calls.count .suspendCb)) ∧
      ∀ a, (attendedSystem pausing).enabled p a → Aborts p.1 a →
        let p' := (attendedSystem pausing).run p [a, .event, .timer, .event]
        (attendedSystem pausing).Legal p [a, .event, .timer, .event] ∧
          p'.1.status.curr = .idle ∧ p'.1.status.updated = false ∧
          p'.1.calls.count .resumeCb ≠ p'.1.calls.count .suspendCb := by
  intro p
  exact suspend_resume_paired rfl rfl
    (System.Reachable.run (M := unbrokenSystem pausing) (.init ⟨⟨(), rfl⟩, rfl⟩)
      (by decide))

/-- After a stray byte and the silence behind it the machine is idle and the
application suspended; the next byte suspends it once more. -/
theorem stray_byte_leaves_suspended :
    (¬∀ p, (attendedSystem pausing).Reachable p → p.1.status.curr = .idle →
        p.1.status.updated = false →
        p.1.calls.count .resumeCb = p.1.calls.count .suspendCb) ∧
      ¬∀ p, (attendedSystem pausing).Reachable p →
        Alternating .suspendCb .resumeCb p.1.pairLog := by
  constructor
  · intro hall
    have hreach : (attendedSystem pausing).Reachable
        ((attendedSystem pausing).run pausingStart strayByte) :=
      System.Reachable.run (M := attendedSystem pausing) (.init ⟨⟨(), rfl⟩, rfl⟩)
        (by decide)
    exact absurd (hall _ hreach (by decide) (by decide)) (by decide)
  · intro hall
    have hreach : (attendedSystem pausing).Reachable
        ((attendedSystem pausing).run pausingStart (strayByte ++ [.recv 1, .event])) :=
      System.Reachable.run (M := attendedSystem pausing) (.init ⟨⟨(), rfl⟩, rfl⟩)
        (by decide)
    exact absurd (hall _ hreach) (by decide)

end ModbusRtu
