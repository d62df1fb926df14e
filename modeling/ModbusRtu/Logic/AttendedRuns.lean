import ModbusRtu.Logic.FramePhases

/-!
# Attended runs

On the platforms the main loop runs between the callbacks: each callback is
followed by one event. A frame is then heard in one way only (`Heard.unique`).
If it fits the receive buffer, two timeouts confirm its end and the event
behind the second one handles it (`attended_confirmed`); a machine that is
waiting in `init` is quiet after one more (`init_silence`).
-/

namespace ModbusRtu

open Base

variable {U : Type} {cfg : Config U}

/-! ## Schedules -/

/-- Each callback is followed by one event, as in the main loops of the platforms. -/
def attended (acts : List Action) : List Action := acts.flatMap fun a => [a, .event]

/-- From `s`, the bytes `frame` come in without gaps, then there is silence
until no timer is armed, which leaves the machine in `s'`. -/
def Heard (s : State cfg) (frame : List UInt8) (s' : State cfg) : Prop :=
  ∃ k, (rtuSystem cfg).Legal s (attended (frame.map .recv ++ List.replicate k .timer)) ∧
    s' = (rtuSystem cfg).run s (attended (frame.map .recv ++ List.replicate k .timer)) ∧
    s'.timer = .stopped

theorem attended_append (l₁ l₂ : List Action) :
    attended (l₁ ++ l₂) = attended l₁ ++ attended l₂ :=
  List.flatMap_append

theorem feeding_attended (frame : List UInt8) : Feeding (attended (frame.map .recv)) := by
  intro a ha
  simp only [attended, List.mem_flatMap, List.mem_map, List.mem_cons, List.not_mem_nil,
    or_false] at ha
  obtain ⟨-, ⟨data, -, rfl⟩, rfl | rfl⟩ := ha
  · exact .inr ⟨data, rfl⟩
  · exact .inl rfl

theorem received_attended (frame : List UInt8) : received (attended (frame.map .recv)) = frame := by
  induction frame with
  | nil => rfl
  | cons b frame ih => exact congrArg (b :: ·) ih

/-! ## The end of a frame -/

/-- The event that handles an accepted frame leaves the machine quiet, sending,
or waiting for the silence behind its reply. -/
theorem event_accepted {u : State cfg} (hwf : Wf u) (hh : Handles u)
    (hacc : Accepted u.rxbuf.filled) :
    (modbusRtuEvent u).userData = (cfg.pduCb u.userData (pduArgs u)).1 ∧
      ((modbusRtuEvent u).status = (consumed u).status ∨
        (modbusRtuEvent u).status = (consumed u).status.update .busy ∨
        (modbusRtuEvent u).status =
          { updated := false, error := false, prev := .busy, curr := .init }) := by
  have hdata := aduProcess_userData (s := consumed u) hacc hh.error
  have hstatus := aduProcess_accepted_status (s := consumed u) hacc hh.error
  rw [event_handled hwf hh, handled]
  split <;> exact ⟨hdata, hstatus⟩

/-! ## The silence behind a frame -/

/-- A timer that has stopped does not time out again. -/
theorem timeouts_le {s : State cfg} {frame : List UInt8} {k k' : Nat}
    (hstop : ((rtuSystem cfg).run s
      (attended (frame.map .recv ++ List.replicate k .timer))).timer = .stopped)
    (hlegal : (rtuSystem cfg).Legal s
      (attended (frame.map .recv ++ List.replicate k' .timer))) : k' ≤ k := by
  by_contra hlt
  obtain ⟨d, rfl⟩ : ∃ d, k' = k + (d + 1) := ⟨k' - k - 1, by omega⟩
  rw [List.replicate_add, ← List.append_assoc, attended_append, System.legal_append] at hlegal
  exact hlegal.2.1 rfl hstop

/-- What a frame leads to is determined. -/
theorem Heard.unique {s s₁ s₂ : State cfg} {frame : List UInt8} (h₁ : Heard s frame s₁)
    (h₂ : Heard s frame s₂) : s₁ = s₂ := by
  obtain ⟨k₁, hlegal₁, rfl, hstop₁⟩ := h₁
  obtain ⟨k₂, hlegal₂, rfl, hstop₂⟩ := h₂
  rw [Nat.le_antisymm (timeouts_le hstop₂ hlegal₁) (timeouts_le hstop₁ hlegal₂)]

/-- Two timeouts confirm a frame, and the event behind the second one handles it. -/
theorem attended_confirmed {s : State cfg} (hq : Quiet s) {f : List UInt8} (hlen : 2 ≤ f.length)
    (hcap : f.length ≤ cfg.rxbufCapacity) :
    ∃ u, Holds s f .idle u ∧ Handles u ∧
      (rtuSystem cfg).Legal s (attended (f.map .recv ++ List.replicate 2 .timer)) ∧
      (rtuSystem cfg).run s (attended (f.map .recv ++ List.replicate 2 .timer)) =
        modbusRtuEvent u := by
  -- the bytes come in
  have hfed := (Fed.nothing : Fed s [] s).run hq (feeding_attended f)
  rw [List.nil_append, received_attended] at hfed
  have hheld : Holds s f .recv ((rtuSystem cfg).run s (attended (f.map .recv))) := by
    cases hfed with
    | frame _ h => rwa [frameState, if_neg (by omega)] at h
    | overrun hover _ => omega
    | nothing => simp at hlen
  generalize ht : (rtuSystem cfg).run s (attended (f.map .recv)) = t at hheld
  -- the timeout, its event, and the confirmation
  have hended : Holds s f .eof (modbusRtuEvent (timerIsr t)) :=
    hheld.timeout.event (.inr (.inr hheld.timeout.curr))
  obtain ⟨hconf, hh⟩ := hended.confirm
  refine ⟨_, hconf, hh, ?_, ?_⟩
  · rw [attended_append, System.legal_append, ht]
    have harmed : t.timer ≠ .stopped := hheld.wf.armed_frame (.inr hheld.curr)
    have harmed' : (modbusRtuEvent (timerIsr t)).timer ≠ .stopped :=
      hended.wf.armed_eof hended.curr
    exact ⟨legal_feeding (feeding_attended f), fun _ => harmed, enabled_event _,
      fun _ => harmed', enabled_event _, trivial⟩
  · rw [attended_append, System.run_append, ht]
    rfl

/-- A restarted machine is quiet after the silent interval. -/
theorem init_silence {s : State cfg} (hwf : Wf s) (hinit : s.status.curr = .init)
    (hup : s.status.updated = false) :
    (rtuSystem cfg).Legal s [.timer, .event] ∧
      Quiet ((rtuSystem cfg).run s [.timer, .event]) ∧
      ((rtuSystem cfg).run s [.timer, .event]).userData = s.userData ∧
      ((rtuSystem cfg).run s [.timer, .event]).frameLog = s.frameLog := by
  have herr : s.status.error = false := hwf.error_of_not_updated hup
  have harmed : s.timer ≠ .stopped := hwf.armed_init hinit hup
  have hidle : timerIsr s = (s.update .idle).timerStop :=
    timerIsr_init (hwf.timer_init hinit harmed).2 hinit
  have hquiet : modbusRtuEvent (timerIsr s) = consumed (timerIsr s) := by
    rw [hidle]
    exact event_idle_init rfl herr rfl hinit
  have hwf' : Wf (modbusRtuEvent (timerIsr s)) := modbusRtuEvent_wf (timerIsr_wf hwf harmed)
  have hlog : (modbusRtuEvent (timerIsr s)).frameLog = s.frameLog := by
    rw [frameLog_event_of_not (timerIsr_wf hwf harmed), frameLog_timer hwf]
    rw [hidle]
    intro hh
    cases hinit.symm.trans hh.prev
  refine ⟨⟨fun _ => harmed, enabled_event _, trivial⟩, ⟨hwf', ?_, ?_⟩, ?_, hlog⟩
  · show (modbusRtuEvent (timerIsr s)).status.curr = .idle
    rw [hquiet, hidle]
    rfl
  · show (modbusRtuEvent (timerIsr s)).status.updated = false
    rw [hquiet, hidle]
    rfl
  · show (modbusRtuEvent (timerIsr s)).userData = s.userData
    rw [hquiet, hidle]
    rfl

end ModbusRtu
