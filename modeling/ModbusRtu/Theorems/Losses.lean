import ModbusRtu.Logic.Reactions
import ModbusRtu.Theorems.Traffic
import ModbusRtu.Theorems.Recovery

/-!
# What a slave loses on a bad line

On a bad line frames come in damaged, cut off or run together. A frame that is
stored whole and then rejected leaves an error pending, and the next frame only
serves to clear it; frames that are too short or too long are dropped at once.
So between two frames the slave is in one of two states, deaf or not
(`AtRest`), and over any traffic it takes the frames that a receiver which
goes deaf takes (`delivered_eq_survivors`).
-/

namespace ModbusRtu

open Base

variable {U : Type} {cfg : Config U}

/-! ## Frames that are dropped -/

/-- The event behind the last byte of a frame. -/
theorem Quiet.lastByte {s : State cfg} (hq : Quiet s) {f : List UInt8} (hf : f ≠ []) :
    ∃ u, Fed s f u ∧ (rtuSystem cfg).run s (attended (f.map .recv)) = modbusRtuEvent u := by
  obtain ⟨init, last, rfl⟩ : ∃ init last, f = init ++ [last] :=
    ⟨f.dropLast, f.getLast hf, (List.dropLast_append_getLast hf).symm⟩
  have hfed := (Fed.nothing : Fed s [] s).run hq (feeding_attended init)
  rw [List.nil_append, received_attended] at hfed
  refine ⟨_, hfed.recv hq last, ?_⟩
  rw [List.map_append, attended_append, System.run_append]
  rfl

/-- A machine that restarts behind the frame is quiet after the silence. -/
theorem Doomed.exchange {s u : State cfg} {f : List UInt8} {k : Nat} (h : Doomed s u)
    (hlegal : (rtuSystem cfg).Legal s (attended (f.map .recv ++ List.replicate k .timer)))
    (hrun : (rtuSystem cfg).run s (attended (f.map .recv ++ List.replicate k .timer)) =
      modbusRtuEvent u) :
    ∃ s', Exchange s f s' ∧ Quiet s' ∧ s'.frameLog = s.frameLog := by
  obtain ⟨hdoomed, herr, hup⟩ := h.event
  have hinit : (modbusRtuEvent u).status.curr = .init :=
    hdoomed.status.resolve_left (by simp [herr])
  obtain ⟨hlegal', hquiet, -, hlog⟩ := init_silence hdoomed.wf hinit hup
  refine ⟨_, .silent ⟨k + 1, ?_, ?_, hquiet.wf.timer_idle hquiet.curr⟩ ?_, hquiet,
    hlog.trans hdoomed.log⟩
  · rw [List.replicate_succ', ← List.append_assoc, attended_append, System.legal_append, hrun]
    exact ⟨hlegal, hlegal'⟩
  · rw [List.replicate_succ', ← List.append_assoc, attended_append, System.run_append, hrun]
    rfl
  · rw [hquiet.curr]
    decide

/-- With an error pending, whatever comes in is lost. -/
theorem exchange_deaf {s : State cfg} (h : AtRest true s) {f : List UInt8} (hf : f ≠ []) :
    ∃ s', Exchange s f s' ∧ Quiet s' ∧ s'.frameLog = s.frameLog := by
  have hstart : Doomed s s := ⟨h.wf, .inl h.error, rfl⟩
  obtain ⟨init, last, rfl⟩ : ∃ init last, f = init ++ [last] :=
    ⟨f.dropLast, f.getLast hf, (List.dropLast_append_getLast hf).symm⟩
  have hlast := (hstart.run (feeding_attended init)).recv last
  refine hlast.exchange (k := 0) ?_ ?_
  · rw [List.replicate_zero, List.append_nil]
    exact legal_feeding (feeding_attended _)
  · rw [List.replicate_zero, List.append_nil, List.map_append, attended_append, System.run_append]
    rfl

/-- A frame that is too long, or has a single byte, is dropped. -/
theorem exchange_dropped {s : State cfg} (hq : Quiet s) {f : List UInt8} (hf : f ≠ [])
    (hsize : ¬(2 ≤ f.length ∧ f.length ≤ cfg.rxbufCapacity)) :
    ∃ s', Exchange s f s' ∧ Quiet s' ∧ s'.frameLog = s.frameLog := by
  obtain ⟨u, hfed, hrun⟩ := hq.lastByte hf
  have hlegal : (rtuSystem cfg).Legal s (attended (f.map .recv)) :=
    legal_feeding (feeding_attended f)
  cases hfed with
  | nothing => exact absurd rfl hf
  | overrun _ h =>
      refine h.exchange (k := 0) ?_ ?_
      · rw [List.replicate_zero, List.append_nil]
        exact hlegal
      · rw [List.replicate_zero, List.append_nil]
        exact hrun
  | frame _ h =>
      -- a single byte: the timeout finds the machine in `sof`
      have hpos : 0 < f.length := List.length_pos_iff.mpr hf
      have hone : f.length = 1 := by
        have hcap := h.length_le.2
        omega
      have hheld := h.event (h.receiving.imp id .inl)
      rw [frameState, if_pos hone] at hheld
      have harmed : (modbusRtuEvent u).timer ≠ .stopped :=
        hheld.wf.armed_frame (.inl hheld.curr)
      refine hheld.timeout_sof.exchange (k := 1) ?_ ?_
      · rw [attended_append, System.legal_append, hrun]
        exact ⟨hlegal, fun _ => harmed, enabled_event _, trivial⟩
      · rw [attended_append, System.run_append, hrun]
        rfl

/-! ## Frames that are stored -/

/-- A frame that is stored whole and rejected leaves an error pending. -/
theorem exchange_rejected {s : State cfg} (hq : Quiet s) {f : List UInt8} (hlen : 2 ≤ f.length)
    (hcap : f.length ≤ cfg.rxbufCapacity) (hrej : ¬Accepted f) :
    ∃ s', Exchange s f s' ∧ AtRest true s' ∧ s'.frameLog = s.frameLog := by
  obtain ⟨u, hheld, hh, hlegal, hrun⟩ := attended_confirmed hq hlen hcap
  have hrej' : ¬Accepted u.rxbuf.filled := by rwa [hheld.filled]
  obtain ⟨stats, hadu⟩ := aduProcess_rejected (s := consumed u) serialSend hrej'
  have hstatus : (modbusRtuEvent u).status = (consumed u).status.raise := by
    rw [event_handled hheld.wf hh, handled, hadu]
    split <;> rfl
  have hcurr : (modbusRtuEvent u).status.curr = .idle := by
    rw [hstatus]
    exact hh.curr
  refine ⟨_, .silent ⟨2, hlegal, hrun.symm, (event_rejects hheld.wf hh hrej').2⟩ ?_,
    ⟨modbusRtuEvent_wf hheld.wf, hcurr, by rw [hstatus]; rfl, by rw [hstatus]; rfl⟩, ?_⟩
  · rw [hcurr]
    decide
  · rw [hh.frameLog_event hheld.wf, frameCalls_of_not_accepted hrej', List.append_nil, hheld.log]

/-! ## All frames -/

/-- A frame of any kind can come in, and is taken as a receiver which goes deaf takes it. -/
theorem exchange_reacts {deaf : Bool} {s : State cfg} (h : AtRest deaf s) {f : List UInt8}
    (hf : f ≠ []) : ∃ s', Exchange s f s' ∧ Reacts deaf s f s' := by
  cases deaf with
  | true =>
      obtain ⟨s', hexch, hquiet, hlog⟩ := exchange_deaf h hf
      exact ⟨s', hexch, hquiet.atRest, hexch.run, .inl ⟨rfl, hlog⟩⟩
  | false =>
      by_cases hsize : 2 ≤ f.length ∧ f.length ≤ cfg.rxbufCapacity
      · by_cases hacc : Accepted f
        · obtain ⟨u, s', hexch, hquiet, hheld, hdata, hlog⟩ :=
            exchange_accepted h.quiet hacc hsize.2
          obtain ⟨hafter, htaken⟩ := hearing_good hacc hsize.2
          refine ⟨s', hexch, ?_, hexch.run, .inr ⟨htaken, hacc, u, hheld, hdata, hlog⟩⟩
          rw [hafter]
          exact hquiet.atRest
        · obtain ⟨s', hexch, hdeaf, hlog⟩ := exchange_rejected h.quiet hsize.1 hsize.2 hacc
          obtain ⟨hafter, htaken⟩ := hearing_rejected hsize.1 hsize.2 hacc
          refine ⟨s', hexch, ?_, hexch.run, .inl ⟨htaken, hlog⟩⟩
          rw [hafter]
          exact hdeaf
      · obtain ⟨s', hexch, hquiet, hlog⟩ := exchange_dropped h.quiet hf hsize
        obtain ⟨hafter, htaken⟩ := hearing_dropped hsize
        refine ⟨s', hexch, ?_, hexch.run, .inl ⟨htaken, hlog⟩⟩
        rw [hafter]
        exact hquiet.atRest

theorem Exchange.reacts {deaf : Bool} {s s' : State cfg} {f : List UInt8} (h : Exchange s f s')
    (hrest : AtRest deaf s) (hf : f ≠ []) : Reacts deaf s f s' := by
  obtain ⟨t, hexch, hreacts⟩ := exchange_reacts hrest hf
  rwa [h.unique hexch]

/-- Frames of any kind lead from one state at rest to the next. -/
theorem exists_traffic_hearing {deaf : Bool} {s : State cfg} (h : AtRest deaf s)
    {frames : List (List UInt8)} (hne : ∀ f ∈ frames, f ≠ []) : ∃ s', Traffic s frames s' := by
  induction frames generalizing deaf s with
  | nil => exact ⟨s, .nothing s⟩
  | cons f frames ih =>
      obtain ⟨t, hexch, hreacts⟩ := exchange_reacts h (hne f List.mem_cons_self)
      obtain ⟨s', htraffic⟩ := ih hreacts.rest fun g hg => hne g (List.mem_cons_of_mem _ hg)
      exact ⟨s', .frame hexch htraffic⟩

theorem Traffic.reactions {deaf : Bool} {s s' : State cfg} {frames : List (List UInt8)}
    (h : Traffic s frames s') (hrest : AtRest deaf s) (hne : ∀ f ∈ frames, f ≠ []) :
    Reactions deaf s frames s' := by
  induction h generalizing deaf with
  | nothing s => exact .nothing s
  | frame hexch _ ih =>
      have hreacts := hexch.reacts hrest (hne _ List.mem_cons_self)
      exact .frame hreacts (ih hreacts.rest fun g hg => hne g (List.mem_cons_of_mem _ hg))

theorem Traffic.atRest {deaf : Bool} {s s' : State cfg} {frames : List (List UInt8)}
    (h : Traffic s frames s') (hrest : AtRest deaf s) (hne : ∀ f ∈ frames, f ≠ []) :
    ∃ d, AtRest d s' :=
  (h.reactions hrest hne).atRest hrest

/-- Of the frames that come in, the survivors are handed over. -/
theorem Traffic.delivered {deaf : Bool} {s s' : State cfg} {frames : List (List UInt8)}
    (h : Traffic s frames s') (hrest : AtRest deaf s) (hne : ∀ f ∈ frames, f ≠ []) :
    (pduCalls (callsSince s s')).map PduArgs.frame =
      (frameHearing cfg.rxbufCapacity).survivors deaf frames :=
  (h.reactions hrest hne).delivered hrest.wf

theorem atRest_of_reachable {s : State cfg} (hreach : (rtuSystem cfg).Reachable s)
    (hidle : s.status.curr = .idle) (hrest : s.status.updated = s.status.error) :
    AtRest s.status.error s :=
  ⟨wf_invariant.holds hreach, hidle, hrest, rfl⟩

/-- From a machine at rest, any sequence of frames, good and bad, can come in,
and the frames handed to `pdu_cb` are those that a receiver which goes deaf
takes: each accepted frame that fits, unless an error was pending, and an error
is left pending by each frame that fits and is rejected. -/
theorem delivered_eq_survivors {s : State cfg} (hreach : (rtuSystem cfg).Reachable s)
    (hidle : s.status.curr = .idle) (hrest : s.status.updated = s.status.error)
    {frames : List (List UInt8)} (hne : ∀ f ∈ frames, f ≠ []) :
    (∃ s', Traffic s frames s') ∧ ∀ s', Traffic s frames s' →
      (pduCalls (callsSince s s')).map PduArgs.frame =
        (frameHearing cfg.rxbufCapacity).survivors s.status.error frames := by
  have hat : AtRest s.status.error s := atRest_of_reachable hreach hidle hrest
  exact ⟨exists_traffic_hearing hat hne, fun s' htraffic => htraffic.delivered hat hne⟩

/-- A rejected frame, the frame it costs, and one that is taken. -/
theorem delivered_eq_survivors_bad_crc :
    ∃ s', Traffic idleListener [[1, 3, 0, 0], withCrc [1, 3], withCrc [1, 4]] s' ∧
      (pduCalls (callsSince idleListener s')).map PduArgs.frame = [withCrc [1, 4]] := by
  have hne : ∀ f ∈ [[1, 3, 0, 0], withCrc [1, 3], withCrc [1, 4]], f ≠ [] := by decide
  obtain ⟨⟨s', htraffic⟩, hall⟩ :=
    delivered_eq_survivors idleListener_reachable rfl rfl hne
  exact ⟨s', htraffic, (hall s' htraffic).trans (by decide)⟩

end ModbusRtu
