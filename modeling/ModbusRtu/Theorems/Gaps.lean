import ModbusRtu.Code.LinuxSlave
import ModbusRtu.Theorems.Separation

/-!
# The gaps within a frame

The bytes of one frame come in at given times, each within 3.5t of the one
before. If they all come within 1.5t the frame is handed to `pdu_cb`. The first
one that does not finds a timer run out, and costs the frame: the bytes behind
it keep the machine from recovering (`gapped_frame_lost`).

So the frame is delivered just if no gap reaches 1.5t. Of a machine whose timers
run for the times of `calc_1t5_us` and `calc_3t5_us`, and are never late, this
is a condition on the rate: at the pace of the line a byte takes longer than
1.5t below 19200 baud (`frame_at_line_pace`).
-/

namespace ModbusRtu

open Base

variable {U : Type} {cfg : Config U} {d : Durations} {s s₀ : State cfg} {f : List UInt8}
  {since : Int} {arrivals : List (Int × UInt8)} {m m' : Moment (State cfg) Action}

/-- From `s`, the bytes come in, and then nothing else until no timer runs. -/
structure LineHeard (d : Durations) (s : State cfg) (since : Int) (arrivals : List (Int × UInt8))
    (m : Moment (State cfg) Action) : Prop where
  runs : (timedMachine cfg d).Runs ⟨s, since, line arrivals⟩ m
  ended : (timedMachine cfg d).Over m

/-- `pdu_cb` is called for the bytes as one frame, and not again. -/
def FrameDelivered (d : Durations) (s : State cfg) (since : Int)
    (arrivals : List (Int × UInt8)) : Prop :=
  ∃ m, LineHeard d s since arrivals m ∧
    ∃ args, pduCalls (callsSince s m.state) = [args] ∧ ArgsOf (arrivals.map Prod.snd) args

theorem LineHeard.unique (h : LineHeard d s since arrivals m)
    (h' : LineHeard d s since arrivals m') : m = m' :=
  TimerMachine.Runs.unique h.runs h'.runs h.ended h'.ended

/-! ## No gap of 1.5t -/

theorem frame_delivered (hq : Quiet s) (since : Int) (hacc : Accepted (arrivals.map Prod.snd))
    (hcap : (arrivals.map Prod.snd).length ≤ cfg.rxbufCapacity)
    (hgaps : arrivals.IsChain (Follows d)) : FrameDelivered d s since arrivals := by
  obtain ⟨u, since', h, hh, hruns⟩ :=
    runs_handled hq since ⟨arrivals, hgaps⟩ [] hacc hcap (by simp)
  obtain ⟨m, hrest, hover, hlog⟩ := runs_rest since' h hh hacc
  rw [List.append_nil] at hruns
  have hheard : LineHeard d s since arrivals m := ⟨hruns.trans hrest, hover⟩
  have hcalls : m.state.frameLog = s.frameLog ++ frameCalls u := by
    rw [hlog, hh.frameLog_event h.wf, h.log]
  have hfilled : Accepted u.rxbuf.filled := by rwa [h.filled]
  refine ⟨m, hheard, pduArgs u, ?_, argsOf_pduArgs h hacc.1⟩
  rw [pduCalls_of_runs hheard.runs hq.wf hcalls, (frameCalls_of_accepted hfilled).1]

/-! ## A gap of 1.5t -/

/-- The bytes in front of the first gap of 1.5t, the byte before it, the one
behind it, and the others. -/
theorem exists_late (hpresses : arrivals.IsChain (Presses d))
    (hlate : ¬arrivals.IsChain (Follows d)) :
    ∃ before p q behind, arrivals = before ++ p :: q :: behind ∧
      (before ++ [p]).IsChain (Follows d) ∧ p.1 + d.t15 ≤ q.1 ∧ q.1 < p.1 + d.t35 ∧
      (q :: behind).IsChain (Presses d) := by
  induction arrivals with
  | nil => exact absurd .nil hlate
  | cons p arrivals ih =>
      cases arrivals with
      | nil => exact absurd (.singleton p) hlate
      | cons q behind =>
          obtain ⟨hgap, hrest⟩ := List.isChain_cons_cons.mp hpresses
          by_cases hfollows : Follows d p q
          · have hlate' : ¬(q :: behind).IsChain (Follows d) := fun h =>
              hlate (List.isChain_cons_cons.mpr ⟨hfollows, h⟩)
            obtain ⟨before, p', q', behind', heq, hchain, hgaps⟩ := ih hrest hlate'
            refine ⟨p :: before, p', q', behind', congrArg (p :: ·) heq, ?_, hgaps⟩
            cases before with
            | nil =>
                obtain rfl := (List.cons.inj heq).1
                exact List.isChain_cons_cons.mpr ⟨hfollows, hchain⟩
            | cons r before =>
                obtain rfl := (List.cons.inj heq).1
                exact List.isChain_cons_cons.mpr ⟨hfollows, hchain⟩
          · refine ⟨[], p, q, behind, rfl, .singleton p, ?_, hgap.2, hrest⟩
            by_contra hsoon
            exact hfollows ⟨hgap.1, Int.not_le.mp hsoon⟩

/-- The bytes of a frame that are not yet all of it. -/
theorem runs_held (hq : Quiet s) (since : Int) (coming : List (Int × Action))
    {before : List (Int × UInt8)} {p : Int × UInt8} (hgaps : (before ++ [p]).IsChain (Follows d))
    (hcap : (before ++ [p]).length ≤ cfg.rxbufCapacity) :
    ∃ s' g, (timedMachine cfg d).Runs ⟨s, since, line (before ++ [p]) ++ coming⟩
        ⟨s', p.1, coming⟩ ∧ Holds s g (frameState g) s' := by
  cases before with
  | nil =>
      obtain ⟨s', hopened, h⟩ : ∃ s',
          (timedMachine cfg d).Runs ⟨s, since, (p.1, .recv p.2) :: coming⟩ ⟨s', p.1, coming⟩ ∧
            Holds s [p.2] (frameState [p.2]) s' := runs_opened hq hcap
      exact ⟨s', [p.2], hopened, h⟩
  | cons q before =>
      have hroom : 1 + (before ++ [p]).length ≤ cfg.rxbufCapacity := by
        rwa [Nat.add_comm]
      obtain ⟨s₁, hopened, h₁⟩ : ∃ s₁,
          (timedMachine cfg d).Runs ⟨s, since, line (q :: (before ++ [p])) ++ coming⟩
            ⟨s₁, q.1, line (before ++ [p]) ++ coming⟩ ∧ Holds s [q.2] (frameState [q.2]) s₁ :=
        runs_opened hq (by omega)
      have hgaps' : (q :: (before ++ [p])).IsChain (Follows d) := hgaps
      obtain ⟨s', hreceived, h'⟩ :=
        runs_received coming (List.cons_ne_nil _ _) h₁ hgaps' hroom
      have hlast : (q :: (before ++ [p])).getLast (List.cons_ne_nil _ _) = p := by simp
      rw [hlast] at hreceived
      exact ⟨s', _, hopened.trans hreceived, h'⟩

/-- A single byte, and 1.5t without another: the timeout is an error. -/
theorem runs_lone (b : UInt8) (coming : List (Int × Action)) {t : Int} (h : Holds s₀ f .sof s)
    (hlate : since + d.t15 ≤ t) (hearly : t < since + d.t15 + d.t35) :
    ∃ s', (timedMachine cfg d).Runs ⟨s, since, (t, .recv b) :: coming⟩ ⟨s', t, coming⟩ ∧
      Restarted s₀ s' := by
  have hfirst : ∀ p ∈ ((t, Action.recv b) :: coming).head?, since + d.t15 ≤ p.1 := by
    intro p hp
    rwa [← Option.some_inj.mp hp]
  have hraise : timerIsr s = s.raise := timerIsr_sof (h.wf.timer_frame (.inl h.curr)).2 h.curr
  have hdoomed : Doomed s₀ (timerIsr s) := h.timeout_sof
  have hrestarted : Restarted s₀ (modbusRtuEvent (timerIsr s)) := .of_event hdoomed
  have hrearms : (timedMachine cfg d).rearms s .timer = true := by
    have hcalls : (modbusRtuEvent (s.step .timer)).calls =
        (s.step .timer).calls ++ changeoverCalls := by
      show (modbusRtuEvent (timerIsr s)).calls = (timerIsr s).calls ++ _
      rw [hraise, event_error rfl rfl]
      exact restart_calls _
    have hsilent : (s.step .timer).calls = s.calls ++ [] := by
      show (timerIsr s).calls = _
      rw [hraise, List.append_nil]
      rfl
    exact rearms_of_calls hsilent hcalls rfl
  have hnext := TimerMachine.next_timeout (duration_frame h.wf (.inl h.curr)) hfirst hrearms
  refine ⟨_, .head hnext (.single ?_), .of_event (hrestarted.doomed.recv b)⟩
  exact TimerMachine.next_arrival_running
    (duration_init hrestarted.doomed.wf hrestarted.curr hrestarted.updated) hearly
    (rearms_stray (.inr hrestarted.curr))

/-- A gap of 1.5t costs the frame. -/
theorem gapped_frame_lost (hq : Quiet s) (since : Int) (hcap : arrivals.length ≤ cfg.rxbufCapacity)
    (hpresses : arrivals.IsChain (Presses d)) (hlate : ¬arrivals.IsChain (Follows d)) :
    ∃ m, LineHeard d s since arrivals m ∧ pduCalls (callsSince s m.state) = [] := by
  have hpos := d.pos
  obtain ⟨before, p, q, behind, rfl, hchain, hgap, hsoon, hrest⟩ := exists_late hpresses hlate
  have hroom : (before ++ [p]).length ≤ cfg.rxbufCapacity := by
    simp only [List.length_append, List.length_cons, List.length_nil] at hcap ⊢
    omega
  obtain ⟨s₁, g, hruns₁, h₁⟩ := runs_held hq since (line (q :: behind)) hchain hroom
  -- the byte behind the gap finds the machine waiting for silence
  obtain ⟨s₂, hruns₂, h₂⟩ : ∃ s₂,
      (timedMachine cfg d).Runs ⟨s₁, p.1, line (q :: behind)⟩ ⟨s₂, q.1, line behind⟩ ∧
        Restarted s s₂ := by
    rw [frameState] at h₁
    split at h₁
    · exact runs_lone q.2 (line behind) h₁ hgap (by omega)
    · exact runs_early q.2 (line behind) h₁ hgap (by omega)
  obtain ⟨s₃, hruns₃, h₃⟩ := runs_pressed [] h₂ hrest
  obtain ⟨m, hsilence, hover, hlog⟩ := runs_init_over h₃.doomed.wf h₃.curr h₃.updated
  rw [List.append_nil] at hruns₃
  have hheard : LineHeard d s since (before ++ p :: q :: behind) m := by
    refine ⟨?_, hover⟩
    rw [List.append_cons, line, List.map_append]
    exact ((hruns₁.trans hruns₂).trans hruns₃).trans hsilence
  have hcalls : m.state.frameLog = s.frameLog ++ [] := by
    rw [hlog, h₃.doomed.log, List.append_nil]
  exact ⟨m, hheard, pduCalls_of_runs hheard.runs hq.wf hcalls⟩

/-! ## The theorem -/

/-- Without a gap of 3.5t, and only without one of 1.5t. -/
theorem delivered_iff_follows (hq : Quiet s) (since : Int)
    (hacc : Accepted (arrivals.map Prod.snd)) (hcap : arrivals.length ≤ cfg.rxbufCapacity)
    (hpresses : arrivals.IsChain (Presses d)) :
    FrameDelivered d s since arrivals ↔ arrivals.IsChain (Follows d) := by
  constructor
  · rintro ⟨m, hheard, args, hcalls, -⟩
    by_contra hlate
    obtain ⟨m', hheard', hnone⟩ := gapped_frame_lost hq since hcap hpresses hlate
    rw [hheard.unique hheard', hnone] at hcalls
    cases hcalls
  · intro hgaps
    exact frame_delivered hq since hacc (by rwa [List.length_map]) hgaps

/-- From every reachable state with the machine idle and nothing to handle, an
accepted frame that fits the buffer and whose bytes come within 3.5t of each
other is delivered if and only if they come within 1.5t of each other. If they
do not, nothing is delivered in its place. -/
theorem gaps_decide_delivery (hreach : (rtuSystem cfg).Reachable s)
    (hidle : s.status.curr = .idle) (hup : s.status.updated = false)
    (hacc : Accepted (arrivals.map Prod.snd)) (hcap : arrivals.length ≤ cfg.rxbufCapacity)
    (hpresses : arrivals.IsChain (Presses d)) :
    (FrameDelivered d s since arrivals ↔ arrivals.IsChain (Follows d)) ∧
      (¬arrivals.IsChain (Follows d) →
        ∃ m, LineHeard d s since arrivals m ∧ pduCalls (callsSince s m.state) = []) := by
  have hq : Quiet s := ⟨wf_invariant.holds hreach, hidle, hup⟩
  exact ⟨delivered_iff_follows hq since hacc hcap hpresses,
    gapped_frame_lost hq since hcap hpresses⟩

/-- Gaps of 749 and of 750 microseconds. -/
theorem gaps_decide_delivery_listener :
    FrameDelivered fastLine idleListener 0 [(0, 1), (749, 3), (800, 0x40), (900, 0x21)] ∧
      ¬FrameDelivered fastLine idleListener 0 [(0, 1), (750, 3), (800, 0x40), (900, 0x21)] := by
  refine ⟨(gaps_decide_delivery idleListener_reachable rfl rfl (by decide) (by decide) ?_).1.mpr ?_,
    fun h => absurd ((gaps_decide_delivery idleListener_reachable rfl rfl (by decide) (by decide)
      ?_).1.mp h) ?_⟩
  all_goals simp [Presses, Follows, fastLine]

/-! ## The pace of the line -/

/-- The timeouts of a rate. -/
def Speed.durations (rate : Speed) : Durations where
  t15 := calc1t5Us rate
  t35 := calc3t5Us rate
  pos := by cases rate <;> decide
  lt := by cases rate <;> decide

/-- A byte is eleven bits on the line, as in `calc_tmin_ms`: when byte `k` is
there, in microseconds since the first one. -/
def byteUs (rate : Speed) (k : Nat) : Nat := k * 11000000 / ttyBps rate

/-- The bytes at the pace of the line, from byte `k` on; the first byte of all is there at `t`. -/
def atPace (rate : Speed) (t : Int) : Nat → List UInt8 → List (Int × UInt8)
  | _, [] => []
  | k, b :: f => (t + byteUs rate k, b) :: atPace rate t (k + 1) f

variable {rate : Speed} {t : Int} {k : Nat}

theorem map_atPace : (atPace rate t k f).map Prod.snd = f := by
  induction f generalizing k with
  | nil => rfl
  | cons b f ih => exact congrArg (b :: ·) ih

theorem isChain_atPace {R : Int × UInt8 → Int × UInt8 → Prop}
    (hR : ∀ k b b', R (t + byteUs rate k, b) (t + byteUs rate (k + 1), b')) :
    (atPace rate t k f).IsChain R := by
  induction f generalizing k with
  | nil => exact .nil
  | cons b f ih =>
      cases f with
      | nil => exact .singleton _
      | cons b' f => exact List.isChain_cons_cons.mpr ⟨hR k b b', ih⟩

/-- A byte takes less than 3.5t, and from 19200 baud on less than 1.5t. -/
theorem byteUs_succ (rate : Speed) (k : Nat) :
    byteUs rate k ≤ byteUs rate (k + 1) ∧ byteUs rate (k + 1) < byteUs rate k + calc3t5Us rate ∧
      (byteUs rate (k + 1) < byteUs rate k + calc1t5Us rate ↔ 19200 ≤ ttyBps rate) := by
  cases rate <;>
    simp only [byteUs, ttyBps, calc1t5Us, calc3t5Us, gt_iff_lt, Nat.reduceLT, reduceIte,
      Nat.reduceDiv, Nat.lt_irrefl] <;>
    omega

/-- From every reachable state with the machine idle and nothing to handle, with
timers that run out exactly after the timeouts of a rate: an accepted frame that
fits the buffer and comes in at the pace of the line is delivered if and only if
the rate is at least 19200 baud. -/
theorem frame_at_line_pace (hreach : (rtuSystem cfg).Reachable s) (hidle : s.status.curr = .idle)
    (hup : s.status.updated = false) (hacc : Accepted f) (hcap : f.length ≤ cfg.rxbufCapacity) :
    FrameDelivered rate.durations s since (atPace rate t 0 f) ↔ 19200 ≤ ttyBps rate := by
  have hq : Quiet s := ⟨wf_invariant.holds hreach, hidle, hup⟩
  have hbytes : (atPace rate t 0 f).map Prod.snd = f := map_atPace
  have hlen : (atPace rate t 0 f).length = f.length := by
    rw [← List.length_map (f := Prod.snd), hbytes]
  have hpresses : (atPace rate t 0 f).IsChain (Presses rate.durations) := by
    refine isChain_atPace fun k b b' => ?_
    obtain ⟨hle, hlt, -⟩ := byteUs_succ rate k
    show t + (byteUs rate k : Int) ≤ t + byteUs rate (k + 1) ∧
      t + (byteUs rate (k + 1) : Int) < t + byteUs rate k + calc3t5Us rate
    omega
  rw [delivered_iff_follows hq since (by rwa [hbytes]) (by rwa [hlen]) hpresses]
  constructor
  · intro hchain
    -- the first two bytes of the frame tell
    match f, hacc.1 with
    | b :: b' :: f, _ =>
        have hfollows := (List.isChain_cons_cons.mp hchain).1.2
        refine (byteUs_succ rate 0).2.2.mp ?_
        have hgap : t + (byteUs rate (0 + 1) : Int) < t + byteUs rate 0 + calc1t5Us rate := hfollows
        omega
  · intro hfast
    refine isChain_atPace fun k b b' => ?_
    obtain ⟨hle, -, hlt⟩ := byteUs_succ rate k
    have hgap := hlt.mpr hfast
    show t + (byteUs rate k : Int) ≤ t + byteUs rate (k + 1) ∧
      t + (byteUs rate (k + 1) : Int) < t + byteUs rate k + calc1t5Us rate
    omega

/-- The same frame at 19200 and at 9600 baud. -/
theorem frame_at_line_pace_listener :
    FrameDelivered Speed.b19200.durations idleListener 0 (atPace .b19200 0 0 (withCrc [1, 3])) ∧
      ¬FrameDelivered Speed.b9600.durations idleListener 0
        (atPace .b9600 0 0 (withCrc [1, 3])) := by
  refine ⟨(frame_at_line_pace idleListener_reachable rfl rfl (by decide) (by decide)).mpr
    (by decide), ?_⟩
  rw [frame_at_line_pace idleListener_reachable rfl rfl (by decide) (by decide)]
  decide

end ModbusRtu
