import ModbusRtu.Logic.AttendedRuns

/-!
# After a rejected frame

The event rejects a frame by raising an error after it has consumed the
`updated` bit, with the timer already stopped. Nothing is left that would call
the event again before the next byte arrives; that byte then finds the error
pending, the event restarts the machine, and the restarted machine takes every
further byte of the frame for an error. The frame behind a rejected one is
always lost (`next_frame_lost`).
-/

namespace ModbusRtu

open Base

variable {U : Type} {cfg : Config U}

/-! ## Recovery -/

/-- After the frame `f`, the frame `g` reaches `pdu_cb`. -/
def Recovers (s : State cfg) (f g : List UInt8) : Prop :=
  ∀ s₁ s₂, Heard s f s₁ → Heard s₁ g s₂ →
    ∃ args, Call.pduCb args ∈ callsSince s₁ s₂ ∧ args.src.take (args.end_ + 2) = g

/-! ## The rejected frame -/

/-- The event that rejects a frame leaves an error and a stopped timer. -/
theorem event_rejects {s : State cfg} (hwf : Wf s) (hh : Handles s)
    (hrej : ¬Accepted s.rxbuf.filled) :
    (modbusRtuEvent s).status.error = true ∧ (modbusRtuEvent s).timer = .stopped := by
  obtain ⟨stats, hadu⟩ := aduProcess_rejected (s := consumed s) serialSend hrej
  have htimer : s.timer = .stopped := hwf.timer_idle hh.curr
  rw [event_handled hwf hh, handled, hadu]
  split <;> exact ⟨rfl, htimer⟩

/-- A rejected frame and the silence behind it end in a pending error. -/
theorem heard_rejected {s : State cfg} (hq : Quiet s) {f : List UInt8} (hlen : 2 ≤ f.length)
    (hcap : f.length ≤ cfg.rxbufCapacity) (hrej : ¬Accepted f) :
    ∃ s₁, Heard s f s₁ ∧ Wf s₁ ∧ s₁.status.error = true := by
  obtain ⟨u, hheld, hh, hlegal, hrun⟩ := attended_confirmed hq hlen hcap
  have hrej' : ¬Accepted u.rxbuf.filled := by rwa [hheld.filled]
  obtain ⟨herr, htimer⟩ := event_rejects hheld.wf hh hrej'
  exact ⟨_, ⟨2, hlegal, hrun.symm, htimer⟩, modbusRtuEvent_wf hheld.wf, herr⟩

/-! ## The frame behind it -/

/-- Whatever comes in while an error is pending, the machine is restarted, and
after the silence idle again, without a call for a frame. -/
theorem heard_lost {s₁ : State cfg} (hwf : Wf s₁) (herr : s₁.status.error = true) {g : List UInt8}
    (hg : g ≠ []) : ∃ s₂, Heard s₁ g s₂ ∧ s₂.frameLog = s₁.frameLog := by
  have hstart : Doomed s₁ s₁ := ⟨hwf, .inl herr, rfl⟩
  obtain ⟨init, last, rfl⟩ : ∃ init last, g = init ++ [last] :=
    ⟨g.dropLast, g.getLast hg, (List.dropLast_append_getLast hg).symm⟩
  -- the event behind the last byte leaves the restarted machine waiting for silence
  have hlast := ((hstart.run (feeding_attended init)).recv last).event
  generalize ht : modbusRtuEvent (serialRecvCb ((rtuSystem cfg).run s₁
    (attended (init.map .recv))) last) = t at hlast
  obtain ⟨hdoomed, herr', hup⟩ := hlast
  have hrun : (rtuSystem cfg).run s₁ (attended ((init ++ [last]).map .recv)) = t := by
    rw [List.map_append, attended_append, System.run_append]
    exact ht
  have hinit : t.status.curr = .init := hdoomed.status.resolve_left (by simp [herr'])
  obtain ⟨hlegal, hquiet, -, hlog⟩ := init_silence hdoomed.wf hinit hup
  refine ⟨(rtuSystem cfg).run t [.timer, .event], ⟨1, ?_, ?_, hquiet.wf.timer_idle hquiet.curr⟩,
    hlog.trans hdoomed.log⟩
  · rw [attended_append, System.legal_append, hrun]
    exact ⟨legal_feeding (feeding_attended _), hlegal⟩
  · rw [attended_append, System.run_append, hrun]
    rfl

/-- Without a new entry in the log of frame calls there was no call of `pdu_cb`. -/
theorem Heard.not_pduCb {s s' : State cfg} {frame : List UInt8} (h : Heard s frame s')
    (hwf : Wf s) (hlog : s'.frameLog = s.frameLog) (args : PduArgs) :
    Call.pduCb args ∉ callsSince s s' := by
  obtain ⟨k, hlegal, rfl, -⟩ := h
  have hnew := frameLog_run hwf hlegal
  rw [hlog, List.self_eq_append_right] at hnew
  intro hmem
  exact absurd (List.filter_eq_nil_iff.mp hnew _ hmem) (by simp [Call.ofFrame])

/-- The frame behind a rejected one is heard without any call of `pdu_cb`. -/
theorem next_frame_lost {s : State cfg} (hq : Quiet s) {f g : List UInt8} (hlen : 2 ≤ f.length)
    (hcap : f.length ≤ cfg.rxbufCapacity) (hrej : ¬Accepted f) (hg : g ≠ []) :
    ∃ s₁ s₂, Heard s f s₁ ∧ Heard s₁ g s₂ ∧ ∀ args, Call.pduCb args ∉ callsSince s₁ s₂ := by
  obtain ⟨s₁, hf, hwf, herr⟩ := heard_rejected hq hlen hcap hrej
  obtain ⟨s₂, hheard, hlog⟩ := heard_lost hwf herr hg
  exact ⟨s₁, s₂, hf, hheard, hheard.not_pduCb hwf hlog⟩

/-- The machine recovers for no rejected frame and no frame behind it. -/
theorem never_recovers {s : State cfg} (hreach : (rtuSystem cfg).Reachable s)
    (hidle : s.status.curr = .idle) (hup : s.status.updated = false) {f g : List UInt8}
    (hlen : 2 ≤ f.length) (hcap : f.length ≤ cfg.rxbufCapacity) (hrej : ¬Accepted f)
    (hvalid : Accepted g) : ¬Recovers s f g := by
  intro hrec
  have hq : Quiet s := ⟨wf_invariant.holds hreach, hidle, hup⟩
  have hg : g ≠ [] := by
    rintro rfl
    exact absurd hvalid.1 (by decide)
  obtain ⟨s₁, s₂, hf, hheard, hnone⟩ := next_frame_lost hq hlen hcap hrej hg
  obtain ⟨args, hmem, -⟩ := hrec s₁ s₂ hf hheard
  exact hnone args hmem

theorem never_recovers_short_frame : ¬Recovers idleListener [1, 3] (withCrc [1, 3]) :=
  never_recovers idleListener_reachable rfl rfl (by decide) (by decide) (by decide)
    (by decide)

/-- A frame of four bytes with a wrong CRC loses the good frame behind it. -/
theorem bad_crc_loses_next_frame :
    (rtuSystem listener).Reachable idleListener ∧ ¬Accepted [1, 3, 0, 0] ∧
      Accepted (withCrc [1, 3]) ∧ ¬Recovers idleListener [1, 3, 0, 0] (withCrc [1, 3]) := by
  have hrej : ¬Accepted [1, 3, 0, 0] := by decide
  refine ⟨idleListener_reachable, hrej, by decide, ?_⟩
  intro hrec
  obtain ⟨s₁, s₂, hf, hg, hnone⟩ :=
    next_frame_lost idleListener_quiet (g := withCrc [1, 3]) (by decide) (by decide) hrej
      (by simp [withCrc])
  obtain ⟨args, hmem, -⟩ := hrec s₁ s₂ hf hg
  exact hnone args hmem

end ModbusRtu
