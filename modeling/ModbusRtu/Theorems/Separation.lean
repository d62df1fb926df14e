import ModbusRtu.Logic.Timing
import ModbusRtu.Theorems.Delivery

/-!
# The silence between two frames

Two frames come in at given times, the first without a reply. The end of the
first is confirmed 1.5t and another 3.5t behind its last byte, so that is the
silence it takes: frames that leave it are both handed to `pdu_cb`, in order.
A second frame that comes earlier, even 3.5t behind the first, costs both of
them (`close_frames_lost`).
-/

namespace ModbusRtu

open Base

variable {U : Type} {cfg : Config U} {d : Durations}

/-! ## Frames in time -/

/-- The bytes of a frame and their times, each within 1.5t of the one before. -/
structure TimedFrame (d : Durations) where
  arrivals : List (Int × UInt8)
  gaps : arrivals.IsChain (Follows d)

def TimedFrame.bytes (frame : TimedFrame d) : List UInt8 := frame.arrivals.map Prod.snd

/-- From the last byte of the first frame to the first byte of the second it
takes at least `silence`. -/
def SeparatedBy (silence : Int) (first second : TimedFrame d) : Prop :=
  ∀ p ∈ first.arrivals.getLast?, ∀ q ∈ second.arrivals.head?, p.1 + silence ≤ q.1

instance (silence : Int) (first second : TimedFrame d) :
    Decidable (SeparatedBy silence first second) :=
  inferInstanceAs (Decidable (∀ p ∈ first.arrivals.getLast?, ∀ q ∈ second.arrivals.head?, _))

/-- From `s`, the two frames come in, and then nothing else until no timer runs. -/
structure BothHeard (s : State cfg) (since : Int) (first second : TimedFrame d)
    (m : Moment (State cfg) Action) : Prop where
  runs : (timedMachine cfg d).Runs ⟨s, since, line (first.arrivals ++ second.arrivals)⟩ m
  ended : (timedMachine cfg d).Over m

/-- `pdu_cb` is called for the first frame and then for the second, and not again. -/
def BothDelivered (s : State cfg) (since : Int) (first second : TimedFrame d) : Prop :=
  ∃ m, BothHeard s since first second m ∧
    ∃ args₁ args₂, pduCalls (callsSince s m.state) = [args₁, args₂] ∧
      ArgsOf first.bytes args₁ ∧ ArgsOf second.bytes args₂

variable {s : State cfg} {since : Int} {first second : TimedFrame d}
  {m m' : Moment (State cfg) Action}

theorem BothHeard.unique (h : BothHeard s since first second m)
    (h' : BothHeard s since first second m') : m = m' :=
  TimerMachine.Runs.unique h.runs h'.runs h.ended h'.ended

/-- The calls of `pdu_cb` are in the log of frame calls. -/
theorem BothHeard.pduCalls_eq (h : BothHeard s since first second m) (hwf : Wf s) {l : List Call}
    (hlog : m.state.frameLog = s.frameLog ++ l) : pduCalls (callsSince s m.state) = pduCalls l :=
  pduCalls_of_runs h.runs hwf hlog

/-! ## One frame -/

/-- The bytes of a frame that fits, from a quiet machine. -/
theorem runs_frame (hq : Quiet s) (since : Int) (frame : TimedFrame d)
    (coming : List (Int × Action)) (hlen : 2 ≤ frame.bytes.length)
    (hcap : frame.bytes.length ≤ cfg.rxbufCapacity) :
    ∃ s', ∃ p ∈ frame.arrivals.getLast?,
      (timedMachine cfg d).Runs ⟨s, since, line frame.arrivals ++ coming⟩ ⟨s', p.1, coming⟩ ∧
        Holds s frame.bytes .recv s' := by
  obtain ⟨arrivals, hgaps⟩ := frame
  cases arrivals with
  | nil => exact absurd hlen (by simp [TimedFrame.bytes])
  | cons p arrivals =>
      have hroom : 1 + arrivals.length ≤ cfg.rxbufCapacity := by
        simpa [TimedFrame.bytes, Nat.add_comm] using hcap
      obtain ⟨s₁, hopened, h₁⟩ : ∃ s₁,
          (timedMachine cfg d).Runs ⟨s, since, line (p :: arrivals) ++ coming⟩
            ⟨s₁, p.1, line arrivals ++ coming⟩ ∧ Holds s [p.2] (frameState [p.2]) s₁ :=
        runs_opened hq (by omega)
      obtain ⟨s', hreceived, h'⟩ := runs_received coming (List.cons_ne_nil _ _) h₁ hgaps hroom
      have hlast : ([p.2] ++ arrivals.map Prod.snd).length ≠ 1 := by
        have hrest : 1 ≤ arrivals.length := by simpa [TimedFrame.bytes] using hlen
        rw [List.length_append, List.length_map, List.length_singleton]
        omega
      rw [frameState, if_neg hlast] at h'
      exact ⟨s', _, List.getLast?_eq_some_getLast _, hopened.trans hreceived, h'⟩

/-- A frame and the silence behind it: its end is confirmed and the event handles it. -/
theorem runs_handled (hq : Quiet s) (since : Int) (frame : TimedFrame d)
    (coming : List (Int × Action)) (hacc : Accepted frame.bytes)
    (hcap : frame.bytes.length ≤ cfg.rxbufCapacity)
    (hsilence : ∀ p ∈ frame.arrivals.getLast?, ∀ q ∈ coming.head?,
      p.1 + (d.t15 + d.t35) ≤ q.1) :
    ∃ u since', Holds s frame.bytes .idle u ∧ Handles u ∧
      (timedMachine cfg d).Runs ⟨s, since, line frame.arrivals ++ coming⟩
        ⟨modbusRtuEvent u, since', coming⟩ := by
  have hlen : 2 ≤ frame.bytes.length := Nat.le_trans (by decide) hacc.1
  obtain ⟨s', p, hp, hreceived, hheld⟩ := runs_frame hq since frame coming hlen hcap
  obtain ⟨u, since', hconf, hh, hconfirmed⟩ := runs_confirmed hheld (hsilence p hp)
  exact ⟨u, since', hconf, hh, hreceived.trans hconfirmed⟩

/-- Without a reply, the machine is quiet again. -/
theorem quiet_of_no_reply {u : State cfg} {f : List UInt8} (h : Holds s f .idle u)
    (hh : Handles u) (hacc : Accepted f) (hnone : reply u = []) : Quiet (modbusRtuEvent u) := by
  have hwf : Wf (modbusRtuEvent u) := modbusRtuEvent_wf h.wf
  have hfilled : Accepted (consumed u).rxbuf.filled := by
    show Accepted u.rxbuf.filled
    rwa [h.filled]
  have hstatus : (modbusRtuEvent u).status = (consumed u).status := by
    rw [event_handled h.wf hh, handled, aduProcess_silent hfilled hnone]
    split <;> rfl
  refine ⟨hwf, ?_, ?_⟩
  · rw [hstatus]
    exact hh.curr
  · rw [hstatus]
    rfl

/-- After the last frame the machine comes to rest, and no further frame is handled. -/
theorem runs_rest {u : State cfg} {f : List UInt8} (since : Int) (h : Holds s f .idle u)
    (hh : Handles u) (hacc : Accepted f) :
    ∃ m, (timedMachine cfg d).Runs ⟨modbusRtuEvent u, since, []⟩ m ∧
      (timedMachine cfg d).Over m ∧ m.state.frameLog = (modbusRtuEvent u).frameLog := by
  have hwf : Wf (modbusRtuEvent u) := modbusRtuEvent_wf h.wf
  have hstopped : (modbusRtuEvent u).timer = .stopped →
      ∃ m, (timedMachine cfg d).Runs ⟨modbusRtuEvent u, since, []⟩ m ∧
        (timedMachine cfg d).Over m ∧ m.state.frameLog = (modbusRtuEvent u).frameLog :=
    fun hstop => ⟨_, .refl, ⟨congrArg d.of hstop, rfl⟩, rfl⟩
  obtain ⟨-, hst | hst | hst⟩ := event_accepted h.wf hh (by rwa [h.filled])
  · exact hstopped (hwf.timer_idle (by rw [hst]; exact hh.curr))
  · exact hstopped (hwf.timer_busy (by rw [hst]; rfl))
  · exact runs_init_over hwf (by rw [hst]) (by rw [hst])

/-! ## Two frames -/

/-- Frames that leave 1.5t and 3.5t between them are both delivered. -/
theorem distant_frames_delivered (hq : Quiet s) (hacc₁ : Accepted first.bytes)
    (hacc₂ : Accepted second.bytes) (hcap₁ : first.bytes.length ≤ cfg.rxbufCapacity)
    (hcap₂ : second.bytes.length ≤ cfg.rxbufCapacity)
    (hsilent : ∀ args, ArgsOf first.bytes args → (cfg.pduCb s.userData args).2 = [])
    (hsep : SeparatedBy (d.t15 + d.t35) first second) : BothDelivered s since first second := by
  have hsilence : ∀ p ∈ first.arrivals.getLast?, ∀ q ∈ (line second.arrivals).head?,
      p.1 + (d.t15 + d.t35) ≤ q.1 := by
    intro p hp q hq
    rw [line, List.head?_map] at hq
    obtain ⟨q', hq', rfl⟩ := Option.map_eq_some_iff.mp hq
    exact hsep p hp q' hq'
  obtain ⟨u₁, since₁, h₁, hh₁, hruns₁⟩ :=
    runs_handled hq since first (line second.arrivals) hacc₁ hcap₁ hsilence
  -- without a reply, the second frame meets a quiet machine
  have hargs₁ : ArgsOf first.bytes (pduArgs u₁) := argsOf_pduArgs h₁ hacc₁.1
  have hnone : reply u₁ = [] := by
    rw [reply, h₁.userData]
    exact hsilent _ hargs₁
  have hquiet : Quiet (modbusRtuEvent u₁) := quiet_of_no_reply h₁ hh₁ hacc₁ hnone
  obtain ⟨u₂, since₂, h₂, hh₂, hruns₂⟩ :=
    runs_handled hquiet since₁ second [] hacc₂ hcap₂ (by simp)
  have hargs₂ : ArgsOf second.bytes (pduArgs u₂) := argsOf_pduArgs h₂ hacc₂.1
  obtain ⟨m, hrest, hover, hlog⟩ := runs_rest since₂ h₂ hh₂ hacc₂
  rw [List.append_nil] at hruns₂
  have hheard : BothHeard s since first second m := by
    refine ⟨?_, hover⟩
    rw [line, List.map_append]
    exact (hruns₁.trans hruns₂).trans hrest
  refine ⟨m, hheard, pduArgs u₁, pduArgs u₂, ?_, hargs₁, hargs₂⟩
  have hcalls : m.state.frameLog = s.frameLog ++ (frameCalls u₁ ++ frameCalls u₂) := by
    rw [hlog, hh₂.frameLog_event h₂.wf, h₂.log, hh₁.frameLog_event h₁.wf, h₁.log,
      List.append_assoc]
  rw [hheard.pduCalls_eq hq.wf hcalls, pduCalls_append,
    (frameCalls_of_accepted (by rwa [h₁.filled])).1,
    (frameCalls_of_accepted (by rwa [h₂.filled])).1]
  rfl

/-- A second frame that comes between the two timeouts behind the first: none
of the two is delivered. -/
theorem close_frames_lost (hq : Quiet s) (since : Int) (hacc₁ : Accepted first.bytes)
    (hcap₁ : first.bytes.length ≤ cfg.rxbufCapacity) (hsep : SeparatedBy d.t15 first second)
    (hclose : ¬SeparatedBy (d.t15 + d.t35) first second) :
    ∃ m, BothHeard s since first second m ∧ pduCalls (callsSince s m.state) = [] := by
  have hlen : 2 ≤ first.bytes.length := Nat.le_trans (by decide) hacc₁.1
  obtain ⟨s₁, p, hp, hruns₁, h₁⟩ :=
    runs_frame hq since first (line second.arrivals) hlen hcap₁
  obtain ⟨arrivals, hgaps⟩ := second
  cases arrivals with
  | nil => exact absurd (fun _ _ _ hq => by cases hq) hclose
  | cons q arrivals =>
      have hlate : p.1 + d.t15 ≤ q.1 := hsep p hp q rfl
      have hearly : q.1 < p.1 + (d.t15 + d.t35) := by
        by_contra hle
        refine hclose ?_
        intro p' hp' q' hq'
        obtain rfl := Option.some_inj.mp (hp.symm.trans hp')
        obtain rfl := Option.some_inj.mp hq'
        exact Int.not_lt.mp hle
      -- the first byte restarts the machine, and the others find it waiting
      obtain ⟨s₂, hruns₂, h₂⟩ := runs_early q.2 (line arrivals) h₁ hlate hearly
      obtain ⟨s₃, hruns₃, h₃⟩ := runs_doomed [] h₂ hgaps
      obtain ⟨m, hrest, hover, hlog⟩ := runs_init_over h₃.doomed.wf h₃.curr h₃.updated
      rw [List.append_nil] at hruns₃
      have hheard : BothHeard s since first ⟨q :: arrivals, hgaps⟩ m := by
        refine ⟨?_, hover⟩
        rw [line, List.map_append]
        exact ((hruns₁.trans hruns₂).trans hruns₃).trans hrest
      have hcalls : m.state.frameLog = s.frameLog ++ [] := by
        rw [hlog, h₃.doomed.log, List.append_nil]
      exact ⟨m, hheard, hheard.pduCalls_eq hq.wf hcalls⟩

/-! ## The theorem -/

/-- Two accepted frames, the first without a reply, come in at least 3.5t apart
to a quiet machine. Both are delivered if and only if they leave another 1.5t. -/
theorem separated_frames_delivered (hreach : (rtuSystem cfg).Reachable s)
    (hidle : s.status.curr = .idle) (hup : s.status.updated = false)
    (hacc₁ : Accepted first.bytes) (hacc₂ : Accepted second.bytes)
    (hcap₁ : first.bytes.length ≤ cfg.rxbufCapacity)
    (hcap₂ : second.bytes.length ≤ cfg.rxbufCapacity)
    (hsilent : ∀ args, ArgsOf first.bytes args → (cfg.pduCb s.userData args).2 = [])
    (hsep : SeparatedBy d.t35 first second) :
    BothDelivered s since first second ↔ SeparatedBy (d.t15 + d.t35) first second := by
  have hq : Quiet s := ⟨wf_invariant.holds hreach, hidle, hup⟩
  have hlt := d.lt
  constructor
  · rintro ⟨m, hheard, args₁, args₂, hcalls, -⟩
    by_contra hclose
    have hbetween : SeparatedBy d.t15 first second := by
      intro p hp q hq
      have hle := hsep p hp q hq
      omega
    obtain ⟨m', hheard', hnone⟩ :=
      close_frames_lost hq since hacc₁ hcap₁ hbetween hclose
    rw [hheard.unique hheard', hnone] at hcalls
    cases hcalls
  · exact distant_frames_delivered hq hacc₁ hacc₂ hcap₁ hcap₂ hsilent

/-- The timers in microseconds at 19200 baud and above. -/
def fastLine : Durations := ⟨750, 1750, by decide, by decide⟩

/-- The sample slave's request `[1, 3]` with its CRC, from the time `t` on. -/
def sampleFrame (t : Int) : TimedFrame fastLine where
  arrivals := [(t, 1), (t + 100, 3), (t + 200, 0x40), (t + 300, 0x21)]
  gaps := by simp [Follows, fastLine]; omega

theorem separated_frames_delivered_listener :
    BothDelivered idleListener 0 (sampleFrame 0) (sampleFrame 2800) :=
  (separated_frames_delivered idleListener_reachable rfl rfl (by decide)
    (by decide) (by decide) (by decide) (fun _ _ => rfl) (by decide)).mpr (by decide)

/-- 3.5t are not enough: of two frames so far apart, none is delivered. -/
theorem close_frames_lost_listener :
    (sampleFrame 0).bytes = withCrc [1, 3] ∧ (sampleFrame 2050).bytes = withCrc [1, 3] ∧
      (rtuSystem listener).Reachable idleListener ∧ idleListener.status.curr = .idle ∧
      idleListener.status.updated = false ∧ (∀ args, (listener.pduCb () args).2 = []) ∧
      SeparatedBy fastLine.t35 (sampleFrame 0) (sampleFrame 2050) ∧
      ¬BothDelivered idleListener 0 (sampleFrame 0) (sampleFrame 2050) := by
  refine ⟨rfl, rfl, idleListener_reachable, rfl, rfl, fun _ => rfl, by decide, ?_⟩
  rintro ⟨m, hheard, args₁, args₂, hcalls, -⟩
  obtain ⟨m', hheard', hnone⟩ : ∃ m', BothHeard idleListener 0 (sampleFrame 0)
      (sampleFrame 2050) m' ∧ pduCalls (callsSince idleListener m'.state) = [] :=
    close_frames_lost idleListener_quiet 0 (by decide) (by decide) (by decide) (by decide)
  rw [hheard.unique hheard', hnone] at hcalls
  cases hcalls

end ModbusRtu
