import Mathlib.Data.List.Chain
import ModbusRtu.Base.Clock
import ModbusRtu.Logic.AttendedRuns
import ModbusRtu.Logic.OwnCalls

/-!
# The slave in time

The state machine with its timer, run against bytes that come in at given
times: `timer_start_1t5`, `timer_start_3t5` and `timer_reset` let the timer run
for its full duration from the time of the call.

The phases of a frame, in time:

* bytes that follow each other within 1.5t are received (`runs_received`);
* with nothing else coming for 1.5t and another 3.5t, the end of the frame is
  confirmed and the frame handled (`runs_confirmed`);
* a byte that comes between the two timeouts dooms the machine (`runs_early`),
  and it does not recover while further bytes come (`runs_doomed`).
-/

namespace ModbusRtu

open Base

variable {U : Type} {cfg : Config U}

/-! ## The machine and its clock -/

/-- How long the two timers run. -/
structure Durations where
  t15 : Int
  t35 : Int
  pos : 0 < t15
  lt : t15 < t35

/-- How long the timer runs as it is armed. -/
def Durations.of (d : Durations) : Timer → Option Int
  | .stopped => none
  | .armed1t5 => some d.t15
  | .armed3t5 => some d.t35

/-- The call lets the timer run from its beginning. -/
def Call.startsTimer : Call → Bool
  | .timerStart1t5 _ | .timerStart3t5 _ | .timerReset _ => true
  | _ => false

/-- The machine with an event behind each callback, both in no time. -/
def timedMachine (cfg : Config U) (d : Durations) : TimerMachine (State cfg) Action where
  step s a := modbusRtuEvent (s.step a)
  timeout := .timer
  duration s := d.of s.timer
  rearms s a := (callsSince s (modbusRtuEvent (s.step a))).any Call.startsTimer

/-- Bytes and their times, as the machine meets them. -/
def line (arrivals : List (Int × UInt8)) : List (Int × Action) :=
  arrivals.map fun p => (p.1, .recv p.2)

/-- The next byte comes within 1.5t. -/
def Follows (d : Durations) (p q : Int × UInt8) : Prop := p.1 ≤ q.1 ∧ q.1 < p.1 + d.t15

/-- The next byte comes within 3.5t. -/
def Presses (d : Durations) (p q : Int × UInt8) : Prop := p.1 ≤ q.1 ∧ q.1 < p.1 + d.t35

variable {d : Durations} {s s₀ : State cfg} {f : List UInt8} {since t : Int} {b : UInt8}
  {coming : List (Int × Action)}

theorem Follows.presses {p q : Int × UInt8} (h : Follows d p q) : Presses d p q :=
  ⟨h.1, Int.lt_trans h.2 (Int.add_lt_add_left d.lt _)⟩

/-- A run in time is a run of the machine, if the timer is the only source of timeouts. -/
theorem runs_legal {m m' : Moment (State cfg) Action} (h : (timedMachine cfg d).Runs m m')
    (hcoming : ∀ p ∈ m.coming, p.2 ≠ .timer) :
    ∃ acts, (rtuSystem cfg).Legal m.state acts ∧ m'.state = (rtuSystem cfg).run m.state acts := by
  suffices hboth : (∀ p ∈ m'.coming, p.2 ≠ .timer) ∧ ∃ acts,
      (rtuSystem cfg).Legal m.state acts ∧ m'.state = (rtuSystem cfg).run m.state acts from
    hboth.2
  induction h with
  | refl => exact ⟨hcoming, [], trivial, rfl⟩
  | @tail m₁ m₂ _ hnext ih =>
      obtain ⟨hcoming₁, acts, hlegal, hrun⟩ := ih
      -- the callback of this step, and that it was due
      obtain ⟨hcoming₂, a, hen, hstate⟩ : (∀ p ∈ m₂.coming, p.2 ≠ .timer) ∧ ∃ a,
          (rtuSystem cfg).enabled m₁.state a ∧ m₂.state = modbusRtuEvent (m₁.state.step a) := by
        cases hnext with
        | timeout hduration _ =>
            refine ⟨hcoming₁, .timer, ?_, rfl⟩
            intro _ hstop
            have hnone : (timedMachine cfg d).duration m₁.state = none := congrArg d.of hstop
            rw [hnone] at hduration
            cases hduration
        | @arrival t a rest hrest _ =>
            rw [hrest] at hcoming₁
            refine ⟨fun p hp => hcoming₁ p (List.mem_cons_of_mem _ hp), a, ?_, rfl⟩
            intro ha
            exact absurd ha (hcoming₁ (t, a) List.mem_cons_self)
      refine ⟨hcoming₂, acts ++ [a, .event], System.legal_append.mpr ⟨hlegal, ?_⟩, ?_⟩
      · rw [← hrun]
        exact ⟨hen, enabled_event _, trivial⟩
      · rw [System.run_append, ← hrun]
        exact hstate

/-- What a run in time calls for frames is in the log of frame calls. -/
theorem pduCalls_of_runs {m : Moment (State cfg) Action} {arrivals : List (Int × UInt8)}
    (h : (timedMachine cfg d).Runs ⟨s, since, line arrivals⟩ m) (hwf : Wf s) {l : List Call}
    (hlog : m.state.frameLog = s.frameLog ++ l) : pduCalls (callsSince s m.state) = pduCalls l := by
  have hcoming : ∀ p ∈ line arrivals, p.2 ≠ .timer := by
    intro p hp
    obtain ⟨q, -, rfl⟩ := List.mem_map.mp hp
    exact Action.noConfusion
  obtain ⟨acts, hlegal, hstate⟩ := runs_legal h hcoming
  have hnew := frameLog_run hwf hlegal
  rw [← hstate, hlog] at hnew
  rw [← pduCalls_filter, ← List.append_cancel_left hnew]

/-! ## The timer in each state -/

theorem duration_idle (hwf : Wf s) (hidle : s.status.curr = .idle) :
    (timedMachine cfg d).duration s = none :=
  congrArg d.of (hwf.timer_idle hidle)

theorem duration_frame (hwf : Wf s) (hframe : s.status.curr = .sof ∨ s.status.curr = .recv) :
    (timedMachine cfg d).duration s = some d.t15 :=
  congrArg d.of (hwf.timer_frame hframe).1

theorem duration_eof (hwf : Wf s) (heof : s.status.curr = .eof) :
    (timedMachine cfg d).duration s = some d.t35 :=
  congrArg d.of (hwf.timer_eof heof).1

theorem duration_init (hwf : Wf s) (hinit : s.status.curr = .init)
    (hup : s.status.updated = false) : (timedMachine cfg d).duration s = some d.t35 :=
  congrArg d.of (hwf.timer_init hinit (hwf.armed_init hinit hup)).1

/-! ## Starting the timer -/

/-- The callback or its event starts the timer. -/
theorem rearms_of_calls {a : Action} {l l' : List Call}
    (hcallback : (s.step a).calls = s.calls ++ l)
    (hevent : (modbusRtuEvent (s.step a)).calls = (s.step a).calls ++ l')
    (hstarts : (l ++ l').any Call.startsTimer = true) :
    (timedMachine cfg d).rearms s a = true := by
  show (callsSince s (modbusRtuEvent (s.step a))).any Call.startsTimer = true
  rw [callsSince, hevent, hcallback, List.append_assoc, List.drop_left, hstarts]

/-- The callback starts the timer, whatever the event does. -/
theorem rearms_of_callback {a : Action} {l : List Call} (hwf : Wf (s.step a))
    (hcallback : (s.step a).calls = s.calls ++ l) (hstarts : l.any Call.startsTimer = true) :
    (timedMachine cfg d).rearms s a = true := by
  obtain ⟨l', hevent⟩ := calls_step hwf .event
  refine rearms_of_calls hcallback hevent ?_
  rw [List.any_append, hstarts, Bool.true_or]

theorem rearms_opened (hwf : Wf s) (hidle : s.status.curr = .idle) :
    (timedMachine cfg d).rearms s (.recv b) = true := by
  refine rearms_of_callback (serialRecvCb_wf hwf b) (serialRecvCb_idle_calls hidle b) ?_
  rw [List.any_append]
  exact Bool.or_true _

theorem rearms_extended (hwf : Wf s) (hframe : s.status.curr = .sof ∨ s.status.curr = .recv) :
    (timedMachine cfg d).rearms s (.recv b) = true := by
  refine rearms_of_callback (serialRecvCb_wf hwf b) (serialRecvCb_frame_calls hframe b) ?_
  rw [List.any_append]
  exact Bool.or_true _

theorem rearms_timeout (hwf : Wf s) (hrecv : s.status.curr = .recv) :
    (timedMachine cfg d).rearms s .timer = true := by
  have harmed : s.timer ≠ .stopped := hwf.armed_frame (.inr hrecv)
  exact rearms_of_callback (timerIsr_wf hwf harmed) (timerIsr_recv_calls hwf hrecv) rfl

theorem serialRecvCb_waiting (h : s.status.curr = .eof ∨ s.status.curr = .init) (b : UInt8) :
    serialRecvCb s b = s.raise := by
  rcases h with h | h <;> exact serialRecvCb_other (by simp [h]) (by simp [h]) b

/-- A byte while the machine waits for silence makes the event restart it. -/
theorem rearms_stray (hwaits : s.status.curr = .eof ∨ s.status.curr = .init) :
    (timedMachine cfg d).rearms s (.recv b) = true := by
  have hraise : serialRecvCb s b = s.raise := serialRecvCb_waiting hwaits b
  have hevent : modbusRtuEvent (serialRecvCb s b) = errorRestart (consumed s.raise) := by
    rw [hraise]
    exact event_error rfl rfl
  have hsilent : (s.step (.recv b)).calls = s.calls ++ [] := by
    show (serialRecvCb s b).calls = _
    rw [hraise]
    exact (List.append_nil _).symm
  have hrestart : (modbusRtuEvent (s.step (.recv b))).calls =
      (s.step (.recv b)).calls ++ changeoverCalls := by
    show (modbusRtuEvent (serialRecvCb s b)).calls = (serialRecvCb s b).calls ++ _
    rw [hevent, hraise]
    exact restart_calls _
  exact rearms_of_calls hsilent hrestart rfl

/-! ## A frame on time -/

/-- The first byte of a frame. -/
theorem runs_opened (hq : Quiet s) (hroom : 1 ≤ cfg.rxbufCapacity) :
    ∃ s', (timedMachine cfg d).Runs ⟨s, since, (t, .recv b) :: coming⟩ ⟨s', t, coming⟩ ∧
      Holds s [b] (frameState [b]) s' := by
  refine ⟨_, .single (TimerMachine.next_arrival_stopped (duration_idle hq.wf hq.curr)
    (rearms_opened hq.wf hq.curr)), ?_⟩
  have hfed : Fed s [b] (modbusRtuEvent (serialRecvCb s b)) := (hq.recv b).event hq
  cases hfed with
  | frame _ h => exact h
  | overrun hover _ => exact absurd hover (by simp; omega)

/-- The next byte, within 1.5t. -/
theorem runs_extended (coming : List (Int × Action)) {p q : Int × UInt8} (hf : f ≠ [])
    (h : Holds s₀ f (frameState f) s) (hroom : f.length + 1 ≤ cfg.rxbufCapacity)
    (hfollows : Follows d p q) :
    ∃ s', (timedMachine cfg d).Runs ⟨s, p.1, (q.1, .recv q.2) :: coming⟩ ⟨s', q.1, coming⟩ ∧
      Holds s₀ (f ++ [q.2]) (frameState (f ++ [q.2])) s' := by
  refine ⟨_, .single (TimerMachine.next_arrival_running (duration_frame h.wf h.receiving)
    hfollows.2 (rearms_extended h.wf h.receiving)), ?_⟩
  have hfed : Fed s₀ (f ++ [q.2]) (serialRecvCb s q.2) := h.recv hf q.2
  have hlen : (f ++ [q.2]).length ≤ cfg.rxbufCapacity := by simpa using hroom
  have hne : f ++ [q.2] ≠ [] := by simp
  generalize f ++ [q.2] = g at hfed hlen hne ⊢
  cases hfed with
  | nothing => exact absurd rfl hne
  | frame _ h' => exact h'.event (h'.receiving.imp id .inl)
  | overrun hover _ => omega

/-- The bytes behind the byte `p`. -/
theorem runs_received (coming : List (Int × Action)) {p : Int × UInt8}
    {arrivals : List (Int × UInt8)} (hf : f ≠ []) (h : Holds s₀ f (frameState f) s)
    (hgaps : (p :: arrivals).IsChain (Follows d))
    (hroom : f.length + arrivals.length ≤ cfg.rxbufCapacity) :
    ∃ s', (timedMachine cfg d).Runs ⟨s, p.1, line arrivals ++ coming⟩
        ⟨s', ((p :: arrivals).getLast (List.cons_ne_nil _ _)).1, coming⟩ ∧
      Holds s₀ (f ++ arrivals.map Prod.snd) (frameState (f ++ arrivals.map Prod.snd)) s' := by
  induction arrivals generalizing p f s with
  | nil =>
      rw [List.map_nil, List.append_nil]
      exact ⟨s, .refl, h⟩
  | cons q arrivals ih =>
      obtain ⟨hfollows, hrest⟩ := List.isChain_cons_cons.mp hgaps
      rw [List.length_cons] at hroom
      obtain ⟨s₁, hruns₁, h₁⟩ :=
        runs_extended (line arrivals ++ coming) hf h (by omega) hfollows
      obtain ⟨s', hruns, h'⟩ := ih (by simp) h₁ hrest (by simp; omega)
      rw [List.append_assoc] at h'
      exact ⟨s', hruns₁.trans hruns, h'⟩

/-- The first timeout, if nothing comes before. -/
theorem next_ended (h : Holds s₀ f .recv s) {coming : List (Int × Action)}
    (hfirst : ∀ p ∈ coming.head?, since + d.t15 ≤ p.1) :
    Holds s₀ f .eof (modbusRtuEvent (timerIsr s)) ∧
      (timedMachine cfg d).Next ⟨s, since, coming⟩
        ⟨modbusRtuEvent (timerIsr s), since + d.t15, coming⟩ := by
  refine ⟨h.timeout.event (.inr (.inr h.timeout.curr)), ?_⟩
  exact TimerMachine.next_timeout (duration_frame h.wf (.inr h.curr)) hfirst
    (rearms_timeout h.wf h.curr)

/-- Nothing comes before both timers have run out: the frame is handled. -/
theorem runs_confirmed (h : Holds s₀ f .recv s)
    (hsilence : ∀ p ∈ coming.head?, since + (d.t15 + d.t35) ≤ p.1) :
    ∃ u since', Holds s₀ f .idle u ∧ Handles u ∧
      (timedMachine cfg d).Runs ⟨s, since, coming⟩ ⟨modbusRtuEvent u, since', coming⟩ := by
  have hpos := d.pos
  have hlt := d.lt
  have hfirst : ∀ p ∈ coming.head?, since + d.t15 ≤ p.1 := by
    intro p hp
    have hle := hsilence p hp
    omega
  have hsecond : ∀ p ∈ coming.head?, since + d.t15 + d.t35 ≤ p.1 := by
    intro p hp
    have hle := hsilence p hp
    omega
  obtain ⟨hended, hnext₁⟩ := next_ended h hfirst
  obtain ⟨since', hnext₂⟩ :=
    TimerMachine.exists_next_timeout (duration_eof hended.wf hended.curr) hsecond
  obtain ⟨hconf, hh⟩ := hended.confirm
  exact ⟨_, since', hconf, hh, .head hnext₁ (.single hnext₂)⟩

/-! ## A byte between the timeouts -/

/-- The machine has restarted since `s₀` without a call for a frame. -/
structure Restarted (s₀ s : State cfg) : Prop where
  doomed : Doomed s₀ s
  curr : s.status.curr = .init
  updated : s.status.updated = false

theorem Restarted.of_event (h : Doomed s₀ s) : Restarted s₀ (modbusRtuEvent s) := by
  obtain ⟨hdoomed, herr, hup⟩ := h.event
  exact ⟨hdoomed, hdoomed.status.resolve_left (by simp [herr]), hup⟩

/-- A byte that comes when the first timer has run out and the second has not. -/
theorem runs_early (b : UInt8) (coming : List (Int × Action)) (h : Holds s₀ f .recv s)
    (hlate : since + d.t15 ≤ t) (hearly : t < since + (d.t15 + d.t35)) :
    ∃ s', (timedMachine cfg d).Runs ⟨s, since, (t, .recv b) :: coming⟩ ⟨s', t, coming⟩ ∧
      Restarted s₀ s' := by
  have hfirst : ∀ p ∈ ((t, Action.recv b) :: coming).head?, since + d.t15 ≤ p.1 := by
    intro p hp
    rwa [← Option.some_inj.mp hp]
  obtain ⟨hended, hnext₁⟩ := next_ended h hfirst
  generalize modbusRtuEvent (timerIsr s) = u at hended hnext₁
  have hsoon : t < since + d.t15 + d.t35 := by omega
  have hdoomed : Doomed s₀ (serialRecvCb u b) := by
    have hlog := frameLog_recv hended.wf b
    refine ⟨serialRecvCb_wf hended.wf b, .inl ?_, hlog.trans hended.log⟩
    rw [serialRecvCb_waiting (.inl hended.curr)]
    rfl
  refine ⟨_, .head hnext₁ (.single ?_), .of_event hdoomed⟩
  exact TimerMachine.next_arrival_running (duration_eof hended.wf hended.curr) hsoon
    (rearms_stray (.inl hended.curr))

/-- Bytes that come within 3.5t of each other keep the machine from recovering. -/
theorem runs_pressed (coming : List (Int × Action)) {p : Int × UInt8}
    {arrivals : List (Int × UInt8)} (h : Restarted s₀ s)
    (hgaps : (p :: arrivals).IsChain (Presses d)) :
    ∃ s', (timedMachine cfg d).Runs ⟨s, p.1, line arrivals ++ coming⟩
        ⟨s', ((p :: arrivals).getLast (List.cons_ne_nil _ _)).1, coming⟩ ∧ Restarted s₀ s' := by
  induction arrivals generalizing p s with
  | nil => exact ⟨s, .refl, h⟩
  | cons q arrivals ih =>
      obtain ⟨hpresses, hrest⟩ := List.isChain_cons_cons.mp hgaps
      obtain ⟨s', hruns, h'⟩ := ih (.of_event (h.doomed.recv q.2)) hrest
      refine ⟨s', .head ?_ hruns, h'⟩
      exact TimerMachine.next_arrival_running (duration_init h.doomed.wf h.curr h.updated)
        hpresses.2 (rearms_stray (.inr h.curr))

theorem runs_doomed (coming : List (Int × Action)) {p : Int × UInt8}
    {arrivals : List (Int × UInt8)} (h : Restarted s₀ s)
    (hgaps : (p :: arrivals).IsChain (Follows d)) :
    ∃ s', (timedMachine cfg d).Runs ⟨s, p.1, line arrivals ++ coming⟩
        ⟨s', ((p :: arrivals).getLast (List.cons_ne_nil _ _)).1, coming⟩ ∧ Restarted s₀ s' :=
  runs_pressed coming h (hgaps.imp fun _ _ hfollows => hfollows.presses)

/-- With nothing left to come, a restarted machine becomes quiet, and that is all. -/
theorem runs_init_over (hwf : Wf s) (hinit : s.status.curr = .init)
    (hup : s.status.updated = false) :
    ∃ m, (timedMachine cfg d).Runs ⟨s, since, []⟩ m ∧ (timedMachine cfg d).Over m ∧
      m.state.frameLog = s.frameLog := by
  obtain ⟨-, hquiet, -, hlog⟩ := init_silence hwf hinit hup
  have hnothing : ∀ p ∈ ([] : List (Int × Action)).head?, since + d.t35 ≤ p.1 := by simp
  obtain ⟨since', hnext⟩ :=
    TimerMachine.exists_next_timeout (duration_init hwf hinit hup) hnothing
  exact ⟨_, .single hnext, ⟨duration_idle hquiet.wf hquiet.curr, rfl⟩, hlog⟩

end ModbusRtu
