import ModbusRtu.Theorems.Losses

/-!
# Settling

Whatever has happened to the machine, in whatever order, silence brings it to
rest: behind an event it takes at most three timeouts, and the end of the
transmission if one is under way (`settles`). So a slave that has been
confused, by noise, by errors on the line or by frames run together, needs no
reset. From then on it loses at most one frame for each frame it rejects, and
one more (`loses_one_for_each_rejected`).
-/

namespace ModbusRtu

open Base

variable {U : Type} {cfg : Config U}

/-! ## Silence -/

/-- With nothing coming in, the machine comes to rest after `k` timeouts, each
followed by an event, and after the transmission under way, if there is one. -/
inductive Calms : Nat → State cfg → State cfg → Prop
  | rest {deaf s} : AtRest deaf s → Calms 0 s s
  | sent {s} : s.status.curr = .busy → Calms 0 s ((rtuSystem cfg).run s (attended [.sent, .timer]))
  | timeout {k s t} : s.timer ≠ .stopped → Calms k (modbusRtuEvent (timerIsr s)) t →
      Calms (k + 1) s t

/-- The machine comes to rest within `n` timeouts. -/
def CalmsWithin (n : Nat) (s : State cfg) : Prop :=
  ∃ k t deaf, k ≤ n ∧ Calms k s t ∧ AtRest deaf t ∧ ∃ acts, (rtuSystem cfg).Legal s acts ∧
    t = (rtuSystem cfg).run s acts

theorem CalmsWithin.mono {m n : Nat} {s : State cfg} (h : CalmsWithin m s) (hle : m ≤ n) :
    CalmsWithin n s := by
  obtain ⟨k, t, deaf, hk, hrest⟩ := h
  exact ⟨k, t, deaf, Nat.le_trans hk hle, hrest⟩

theorem AtRest.calms {deaf : Bool} {s : State cfg} (h : AtRest deaf s) : CalmsWithin 0 s :=
  ⟨0, s, deaf, Nat.le_refl 0, .rest h, h, [], trivial, rfl⟩

/-- One timeout, and then the rest of the silence. -/
theorem CalmsWithin.timeout {n : Nat} {s : State cfg} (harmed : s.timer ≠ .stopped)
    (h : CalmsWithin n (modbusRtuEvent (timerIsr s))) : CalmsWithin (n + 1) s := by
  obtain ⟨k, t, deaf, hk, hcalms, hrest, acts, hlegal, hrun⟩ := h
  refine ⟨k + 1, t, deaf, Nat.succ_le_succ hk, .timeout harmed hcalms, hrest,
    .timer :: .event :: acts, ⟨fun _ => harmed, enabled_event _, hlegal⟩, hrun⟩

/-! ## State by state -/

variable {s : State cfg}

/-- A transmission ends, and silence follows it. -/
theorem calms_busy (hwf : Wf s) (hbusy : s.status.curr = .busy) (herr : s.status.error = false) :
    CalmsWithin 0 s := by
  obtain ⟨hlegal, hquiet, -⟩ := reply_sent hwf hbusy herr
  exact ⟨0, _, false, Nat.le_refl 0, .sent hbusy, hquiet.atRest, _, hlegal, rfl⟩

/-- The silence behind a restart. -/
theorem calms_init (hwf : Wf s) (hinit : s.status.curr = .init) (hup : s.status.updated = false) :
    CalmsWithin 1 s := by
  obtain ⟨-, hquiet, -⟩ := init_silence hwf hinit hup
  exact .timeout (hwf.armed_init hinit hup) hquiet.atRest.calms

/-- An event that finds an error restarts the machine. -/
theorem calms_error (hwf : Wf s) (herr : s.status.error = true) :
    CalmsWithin 1 (modbusRtuEvent s) := by
  have hstart : Doomed s s := ⟨hwf, .inl herr, rfl⟩
  obtain ⟨hdoomed, herr', hup⟩ := hstart.event
  exact calms_init hdoomed.wf (hdoomed.status.resolve_left (by simp [herr'])) hup

/-- A frame has been handled: it was rejected, not answered, or answered. -/
theorem calms_handled (hwf : Wf s) (hh : Handles s) : CalmsWithin 1 (modbusRtuEvent s) := by
  have hwf' : Wf (modbusRtuEvent s) := modbusRtuEvent_wf hwf
  have hstatus : (modbusRtuEvent s).status = (aduProcess serialSend (consumed s)).status := by
    rw [event_handled hwf hh, handled]
    split <;> rfl
  rcases aduProcess_status (s := consumed s) hh.error with hst | hst | hst | hst
  · rw [hst] at hstatus
    have hdeaf : AtRest true (modbusRtuEvent s) :=
      ⟨hwf', by rw [hstatus]; exact hh.curr, by rw [hstatus]; rfl, by rw [hstatus]; rfl⟩
    exact hdeaf.calms.mono (Nat.zero_le 1)
  · rw [hst] at hstatus
    have hquiet : Quiet (modbusRtuEvent s) :=
      ⟨hwf', by rw [hstatus]; exact hh.curr, by rw [hstatus]; rfl⟩
    exact hquiet.atRest.calms.mono (Nat.zero_le 1)
  · rw [hst] at hstatus
    have herr : (modbusRtuEvent s).status.error = false := by
      rw [hstatus]
      exact hh.error
    exact (calms_busy hwf' (by rw [hstatus]; rfl) herr).mono (Nat.zero_le 1)
  · rw [hst] at hstatus
    exact calms_init hwf' (by rw [hstatus]) (by rw [hstatus])

/-- The end of a frame waits for its confirmation. -/
theorem calms_eof (hwf : Wf s) (heof : s.status.curr = .eof) (herr : s.status.error = false) :
    CalmsWithin 2 s := by
  have harmed : s.timer ≠ .stopped := hwf.armed_eof heof
  refine .timeout harmed (calms_handled (timerIsr_wf hwf harmed) ?_)
  rw [timerIsr_eof (hwf.timer_eof heof).2 (hwf.prev_eof heof) heof]
  exact ⟨rfl, herr, rfl, heof⟩

/-- Bytes of a frame, and then no more. -/
theorem calms_recv (hwf : Wf s) (hrecv : s.status.curr = .recv) (herr : s.status.error = false) :
    CalmsWithin 3 s := by
  have harmed : s.timer ≠ .stopped := hwf.armed_frame (.inr hrecv)
  have hwf' : Wf (timerIsr s) := timerIsr_wf hwf harmed
  have hended : (timerIsr s).status.curr = .eof ∧ (timerIsr s).status.error = false := by
    rw [timerIsr_recv (hwf.timer_frame (.inr hrecv)).2 hrecv]
    exact ⟨rfl, herr⟩
  obtain ⟨calls, hevent⟩ := event_of_inFrame hwf' hended.2 (.inr (.inr hended.1))
  have hwf'' : Wf (modbusRtuEvent (timerIsr s)) := modbusRtuEvent_wf hwf'
  rw [hevent] at hwf''
  refine .timeout harmed ?_
  rw [hevent]
  exact calms_eof hwf'' hended.1 hended.2

/-- A single byte is no frame. -/
theorem calms_sof (hwf : Wf s) (hsof : s.status.curr = .sof) : CalmsWithin 2 s := by
  have harmed : s.timer ≠ .stopped := hwf.armed_frame (.inl hsof)
  refine .timeout harmed (calms_error (timerIsr_wf hwf harmed) ?_)
  rw [timerIsr_sof (hwf.timer_frame (.inl hsof)).2 hsof]
  rfl

/-- With no update to handle, the state says what the machine waits for. -/
theorem calms_of_not_updated (hwf : Wf s) (hup : s.status.updated = false) : CalmsWithin 3 s := by
  have herr : s.status.error = false := hwf.error_of_not_updated hup
  rcases hwf.curr_cases with hc | hc | hc | hc | hc | hc
  · exact (calms_init hwf hc hup).mono (by decide)
  · have hquiet : Quiet s := ⟨hwf, hc, hup⟩
    exact hquiet.atRest.calms.mono (by decide)
  · exact (calms_sof hwf hc).mono (by decide)
  · exact calms_recv hwf hc herr
  · exact (calms_eof hwf hc herr).mono (by decide)
  · exact (calms_busy hwf hc herr).mono (by decide)

/-- Behind an event nothing is left to handle, unless it has started a reply or
rejected a frame. -/
theorem event_outcome (hwf : Wf s) :
    (modbusRtuEvent s).status.updated = false ∨
      (Handles s ∧ (modbusRtuEvent s).status.curr = .busy ∧
        (modbusRtuEvent s).status.error = false) ∨
      AtRest true (modbusRtuEvent s) := by
  have hwf' : Wf (modbusRtuEvent s) := modbusRtuEvent_wf hwf
  have hcase := event_case hwf
  generalize modbusRtuEvent s = s' at hcase hwf' ⊢
  cases hcase with
  | quiet hup => exact .inl hup
  | error | init | passed | suspended => exact .inl rfl
  | frame hh =>
      have hstatus : (handled s).status = (aduProcess serialSend (consumed s)).status := by
        unfold handled
        split <;> rfl
      rcases aduProcess_status (s := consumed s) hh.error with hst | hst | hst | hst <;>
        rw [hst] at hstatus
      · exact .inr (.inr ⟨hwf', by rw [hstatus]; exact hh.curr, by rw [hstatus]; rfl,
          by rw [hstatus]; rfl⟩)
      · exact .inl (by rw [hstatus]; rfl)
      · exact .inr (.inl ⟨hh, by rw [hstatus]; rfl, by rw [hstatus]; exact hh.error⟩)
      · exact .inl (by rw [hstatus])

/-- With its timer stopped the machine is at rest. -/
theorem atRest_of_stopped (hwf : Wf s) (hbusy : s.status.curr ≠ .busy)
    (hleft : s.status.updated = false ∨ AtRest true s) (hstop : s.timer = .stopped) :
    AtRest s.status.error s := by
  rcases hleft with hup | hrest
  · have hidle : s.status.curr = .idle := by
      rcases hwf.curr_cases with hc | hc | hc | hc | hc | hc
      · exact absurd hstop (hwf.armed_init hc hup)
      · exact hc
      · exact absurd hstop (hwf.armed_frame (.inl hc))
      · exact absurd hstop (hwf.armed_frame (.inr hc))
      · exact absurd hstop (hwf.armed_eof hc)
      · exact absurd hc hbusy
    have hquiet : Quiet s := ⟨hwf, hidle, hup⟩
    rw [hquiet.atRest.error]
    exact hquiet.atRest
  · rw [hrest.error]
    exact hrest

/-- Behind an event three timeouts are enough. -/
theorem settles (hwf : Wf s) : CalmsWithin 3 (modbusRtuEvent s) := by
  have hwf' : Wf (modbusRtuEvent s) := modbusRtuEvent_wf hwf
  rcases event_outcome hwf with hup | ⟨-, hbusy, herr⟩ | hrest
  · exact calms_of_not_updated hwf' hup
  · exact (calms_busy hwf' hbusy herr).mono (by decide)
  · exact hrest.calms.mono (by decide)

/-! ## Losses -/

/-- From every state of every run, an event, the end of a transmission if one is
under way, and then silence for at most three timeouts bring the machine to
rest. Then, over any traffic of good and bad
frames, each frame that is rejected costs at most one accepted frame, and so
does an error still pending at the start. -/
theorem loses_one_for_each_rejected (hreach : (rtuSystem cfg).Reachable s) :
    ∃ k t, k ≤ 3 ∧ Calms k (modbusRtuEvent s) t ∧ (rtuSystem cfg).Reachable t ∧
      ∀ frames : List (List UInt8), (∀ f ∈ frames, f ≠ []) →
        (∃ s', Traffic t frames s') ∧ ∀ s', Traffic t frames s' →
          let accepted := frames.countP fun f => Accepted f ∧ f.length ≤ cfg.rxbufCapacity
          let rejected := frames.countP fun f =>
            2 ≤ f.length ∧ f.length ≤ cfg.rxbufCapacity ∧ ¬Accepted f
          accepted ≤ (pduCalls (callsSince t s')).length + rejected + 1 := by
  obtain ⟨k, t, deaf, hk, hcalms, hrest, acts, hlegal, rfl⟩ := settles (wf_invariant.holds hreach)
  have hevent : (rtuSystem cfg).Reachable (modbusRtuEvent s) := hreach.step (enabled_event s)
  have hreach' : (rtuSystem cfg).Reachable ((rtuSystem cfg).run (modbusRtuEvent s) acts) :=
    hevent.run hlegal
  refine ⟨k, _, hk, hcalms, hreach', ?_⟩
  intro frames hne
  refine ⟨exists_traffic_hearing hrest hne, ?_⟩
  intro s' htraffic accepted rejected
  have hbound := (frameHearing cfg.rxbufCapacity).countP_good_le deaf frames
  rw [← htraffic.delivered hrest hne, List.length_map] at hbound
  have hone := Bool.toNat_le deaf
  show frames.countP (frameHearing cfg.rxbufCapacity).good ≤
    _ + frames.countP (frameHearing cfg.rxbufCapacity).deafens + 1
  omega

/-- A machine in the middle of a frame that breaks off, and then a rejected frame
and three accepted ones: at least one of them is delivered. -/
theorem loses_one_for_each_rejected_broken_frame :
    let s := (rtuSystem listener).run idleListener [.recv 1, .recv 3]
    let frames := [[1, 3, 0, 0], withCrc [1, 3], withCrc [1, 4], withCrc [1, 5]]
    ∃ k t, k ≤ 3 ∧ Calms k (modbusRtuEvent s) t ∧ (rtuSystem listener).Reachable t ∧
      ∃ s', Traffic t frames s' ∧ 1 ≤ (pduCalls (callsSince t s')).length := by
  intro s frames
  obtain ⟨k, t, hk, hcalms, hreach, htraffic⟩ :=
    loses_one_for_each_rejected (s := s) (idleListener_reachable.run (by decide))
  obtain ⟨⟨s', hs'⟩, hbound⟩ := htraffic frames (by decide)
  refine ⟨k, t, hk, hcalms, hreach, s', hs', ?_⟩
  have hcounts : frames.countP (fun f => Accepted f ∧ f.length ≤ listener.rxbufCapacity) = 3 ∧
      frames.countP (fun f => 2 ≤ f.length ∧ f.length ≤ listener.rxbufCapacity ∧ ¬Accepted f) =
        1 := by decide
  have hall := hbound s' hs'
  rw [hcounts.1, hcounts.2] at hall
  omega

end ModbusRtu
