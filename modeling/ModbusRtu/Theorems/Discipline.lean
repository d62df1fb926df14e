import ModbusRtu.Logic.FramePhases
import ModbusRtu.Logic.OwnCalls

/-!
# Timers and states in every run

The platforms check that the timer is stopped when it is started and armed when
it is reset; the event handler traces states it takes for impossible. Neither
check ever fails: `Disciplined` adds to the invariant of the state machine what
holds of every call made so far, and is kept by every entry point
(`disciplined_invariant`).

* `timer_discipline`: the timer calls come in the right states, the callback of
  an armed timer is the one of the state, and the machine never waits without a
  timer outside `idle` and `busy`.
* `no_impossible_state`: the branches that trace an impossible state are dead.
-/

namespace ModbusRtu

open Base

variable {U : Type} {cfg : Config U}

/-- The call finds the timer as the platforms demand, and traces no impossible state. -/
def Call.Sound : Call → Prop
  | .timerStart1t5 timer | .timerStart3t5 timer => timer = .stopped
  | .timerReset timer => timer ≠ .stopped
  | .logTp => False
  | _ => True

structure Disciplined (s : State cfg) : Prop where
  wf : Wf s
  sound : ∀ c ∈ s.calls, c.Sound

/-! ## The calls of one step -/

theorem storeCalls_sound (s : State cfg) : ∀ c ∈ storeCalls s, c.Sound := by
  intro c hc
  unfold storeCalls at hc
  split at hc
  · rw [List.mem_singleton.mp hc]
    trivial
  · exact absurd hc List.not_mem_nil

theorem changeoverCalls_sound : ∀ c ∈ changeoverCalls, c.Sound := by
  simp [changeoverCalls, Call.Sound]

/-- The calls for a frame do not touch the timer. -/
theorem stepFrameCalls_sound (s : State cfg) (a : Action) : ∀ c ∈ stepFrameCalls s a, c.Sound := by
  intro c hc
  have hframe : c.ofFrame = true := by
    unfold stepFrameCalls at hc
    split at hc
    · exact frameCalls_ofFrame s c hc
    · exact absurd hc List.not_mem_nil
  cases c with
  | pduCb | serialSend | txStore => trivial
  | timerStart1t5 | timerStart3t5 | timerStop | timerReset | rxStore | suspendCb | resumeCb
  | logTp => cases hframe

theorem OwnCalls.sound {s : State cfg} (hwf : Wf s) {a : Action} {l : List Call}
    (h : OwnCalls s a l) : ∀ c ∈ l, c.Sound := by
  intro c hc
  cases h with
  | none => exact absurd hc List.not_mem_nil
  | opened hidle =>
      rcases List.mem_append.mp hc with hc | hc
      · exact storeCalls_sound s c hc
      · rw [List.mem_singleton.mp hc]
        exact hwf.timer_idle hidle
  | extended hframe =>
      rcases List.mem_append.mp hc with hc | hc
      · exact storeCalls_sound s c hc
      · rw [List.mem_singleton.mp hc]
        exact hwf.armed_frame hframe
  | stopped =>
      rw [List.mem_singleton.mp hc]
      trivial
  | changeover => exact changeoverCalls_sound c hc
  | suspended =>
      split at hc
      · rw [List.mem_singleton.mp hc]
        trivial
      · exact absurd hc List.not_mem_nil
  | handled hh hl =>
      rcases List.mem_append.mp hc with hc | hc
      · rcases hl with rfl | rfl
        · exact absurd hc List.not_mem_nil
        · exact changeoverCalls_sound c hc
      · split at hc
        · rw [List.mem_singleton.mp hc]
          trivial
        · exact absurd hc List.not_mem_nil

/-! ## All runs -/

theorem disciplined_invariant : (rtuSystem cfg).Inductive Disciplined where
  init := by
    rintro s ⟨userData, rfl⟩
    exact ⟨modbusRtuInit_wf userData, fun c hc => absurd hc List.not_mem_nil⟩
  step s a h hen := by
    refine ⟨wf_invariant.step s a h.wf hen, ?_⟩
    obtain ⟨l, hl, hown⟩ := step_ownCalls h.wf hen
    show ∀ c ∈ (s.step a).calls, c.Sound
    rw [hl]
    intro c hc
    rcases List.mem_append.mp hc with hc | hc
    · rcases List.mem_append.mp hc with hc | hc
      · exact h.sound c hc
      · exact stepFrameCalls_sound s a c hc
    · exact hown.sound h.wf c hc

/-- 1.5t run exactly while a frame comes in, for the callback that ends it. -/
theorem Wf.armed1t5_iff {s : State cfg} (h : Wf s) :
    s.timer = .armed1t5 ↔ s.status.curr = .sof ∨ s.status.curr = .recv := by
  refine ⟨?_, fun hc => (h.timer_frame hc).1⟩
  intro harmed
  have hne : s.timer ≠ .stopped := by simp [harmed]
  rcases h.curr_cases with hc | hc | hc | hc | hc | hc
  · exact absurd (harmed.symm.trans (h.timer_init hc hne).1) Timer.noConfusion
  · exact absurd (h.timer_idle hc) hne
  · exact .inl hc
  · exact .inr hc
  · exact absurd (harmed.symm.trans (h.timer_eof hc).1) Timer.noConfusion
  · exact absurd (h.timer_busy hc) hne

/-- 3.5t run behind a restart and behind a frame, for the callback that ends the silence. -/
theorem Wf.armed3t5 {s : State cfg} (h : Wf s) (harmed : s.timer = .armed3t5) :
    s.timerCb = .silentInterval ∧ (s.status.curr = .init ∨ s.status.curr = .eof) := by
  have hne : s.timer ≠ .stopped := by simp [harmed]
  have hframe : ¬(s.status.curr = .sof ∨ s.status.curr = .recv) := fun hc =>
    absurd (harmed.symm.trans (h.armed1t5_iff.mpr hc)) Timer.noConfusion
  rcases h.curr_cases with hc | hc | hc | hc | hc | hc
  · exact ⟨(h.timer_init hc hne).2, .inl hc⟩
  · exact absurd (h.timer_idle hc) hne
  · exact absurd (.inl hc) hframe
  · exact absurd (.inr hc) hframe
  · exact ⟨(h.timer_eof hc).2, .inr hc⟩
  · exact absurd (h.timer_busy hc) hne

/-- Without a pending update the machine waits for a timeout, for a frame, or
for the end of a transmission. -/
theorem Wf.not_stuck {s : State cfg} (h : Wf s) (hup : s.status.updated = false) :
    s.timer ≠ .stopped ∨ s.status.curr = .idle ∨ s.status.curr = .busy := by
  rcases h.curr_cases with hc | hc | hc | hc | hc | hc
  · exact .inl (h.armed_init hc hup)
  · exact .inr (.inl hc)
  · exact .inl (h.armed_frame (.inl hc))
  · exact .inl (h.armed_frame (.inr hc))
  · exact .inl (h.armed_eof hc)
  · exact .inr (.inr hc)

/-- In every state of every run the timer has been started only while stopped
and reset only while armed; it is armed for the state the machine is in, with
the callback of that state; and where it is not, there is an update to handle, a
frame to wait for or a transmission to end. -/
theorem timer_discipline {s : State cfg} (hreach : (rtuSystem cfg).Reachable s) :
    (∀ timer, Call.timerStart1t5 timer ∈ s.calls → timer = .stopped) ∧
      (∀ timer, Call.timerStart3t5 timer ∈ s.calls → timer = .stopped) ∧
      (∀ timer, Call.timerReset timer ∈ s.calls → timer ≠ .stopped) ∧
      (s.timer = .armed1t5 ↔ s.status.curr = .sof ∨ s.status.curr = .recv) ∧
      (s.timer = .armed1t5 → s.timerCb = .interFrameTimeout) ∧
      (s.timer = .armed3t5 → s.status.curr = .init ∨ s.status.curr = .eof) ∧
      (s.status.curr = .eof → s.timer = .armed3t5) ∧
      (s.timer = .armed3t5 → s.timerCb = .silentInterval) ∧
      (s.status.updated = false →
        s.timer ≠ .stopped ∨ s.status.curr = .idle ∨ s.status.curr = .busy) := by
  have h := disciplined_invariant.holds hreach
  refine ⟨fun _ ht => h.sound _ ht, fun _ ht => h.sound _ ht, fun _ ht => h.sound _ ht,
    h.wf.armed1t5_iff, ?_, fun harmed => (h.wf.armed3t5 harmed).2,
    fun hc => (h.wf.timer_eof hc).1, fun harmed => (h.wf.armed3t5 harmed).1, h.wf.not_stuck⟩
  intro harmed
  exact (h.wf.timer_frame (h.wf.armed1t5_iff.mp harmed)).2

/-- A machine that has taken the first byte of a frame. -/
theorem timer_discipline_first_byte :
    let s := (rtuSystem listener).run idleListener [.recv 1]
    (∀ timer, Call.timerStart1t5 timer ∈ s.calls → timer = .stopped) ∧
      (∀ timer, Call.timerStart3t5 timer ∈ s.calls → timer = .stopped) ∧
      (∀ timer, Call.timerReset timer ∈ s.calls → timer ≠ .stopped) ∧
      (s.timer = .armed1t5 ↔ s.status.curr = .sof ∨ s.status.curr = .recv) ∧
      (s.timer = .armed1t5 → s.timerCb = .interFrameTimeout) ∧
      (s.timer = .armed3t5 → s.status.curr = .init ∨ s.status.curr = .eof) ∧
      (s.status.curr = .eof → s.timer = .armed3t5) ∧
      (s.timer = .armed3t5 → s.timerCb = .silentInterval) ∧
      (s.status.updated = false →
        s.timer ≠ .stopped ∨ s.status.curr = .idle ∨ s.status.curr = .busy) :=
  timer_discipline (idleListener_reachable.run (by decide))

/-- In every state of every run the states before the current one are its
predecessors, an error is announced, and only a busy machine has something in
its transmit buffer; no branch that traces an impossible state has been taken. -/
theorem no_impossible_state {s : State cfg} (hreach : (rtuSystem cfg).Reachable s) :
    (s.status.curr = .idle → s.status.prev = .init ∨ s.status.prev = .eof) ∧
      (s.status.curr = .sof → s.status.prev = .idle) ∧
      (s.status.curr = .eof → s.status.prev = .recv) ∧
      (s.status.error = true → s.status.updated = true) ∧
      (s.txbuf.curr ≠ 0 → s.status.curr = .busy) ∧
      Call.logTp ∉ s.calls := by
  have h := disciplined_invariant.holds hreach
  refine ⟨h.wf.prev_idle, h.wf.prev_sof, h.wf.prev_eof, h.wf.errorUpdated, ?_,
    fun htp => h.sound _ htp⟩
  intro htx
  by_contra hbusy
  exact htx (h.wf.txIdle hbusy)

theorem no_impossible_state_first_byte :
    let s := (rtuSystem listener).run idleListener [.recv 1]
    (s.status.curr = .idle → s.status.prev = .init ∨ s.status.prev = .eof) ∧
      (s.status.curr = .sof → s.status.prev = .idle) ∧
      (s.status.curr = .eof → s.status.prev = .recv) ∧
      (s.status.error = true → s.status.updated = true) ∧
      (s.txbuf.curr ≠ 0 → s.status.curr = .busy) ∧
      Call.logTp ∉ s.calls :=
  no_impossible_state (idleListener_reachable.run (by decide))

end ModbusRtu
