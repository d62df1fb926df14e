import ModbusRtu.Logic.FramePhases

/-!
# Delivery of a single frame

A quiet machine is fed a byte sequence and then left in silence, with events
anywhere in between. `single_frame_delivery` says what it makes of it: a
sequence that fits the buffer and ends with its own CRC is handed to `pdu_cb`
exactly once, and the reply, if there is one, sent exactly once with its CRC;
any other sequence leads to no call at all.
-/

namespace ModbusRtu

open Base

variable {U : Type} {cfg : Config U}

/-! ## Schedules -/

/-- From `s`, the bytes `f` are fed, and then the armed timer is called, at
least until the machine is idle or has an error pending; events come anywhere. -/
structure FrameRun (s : State cfg) (f : List UInt8) (feed silence : List Action) : Prop where
  feeding : Feeding feed
  bytes : received feed = f
  waiting : Waiting silence
  legal : (rtuSystem cfg).Legal s (feed ++ silence)
  ends : ∃ before after, silence = before ++ after ∧
    (((rtuSystem cfg).run s (feed ++ before)).status.curr = .idle ∨
      ((rtuSystem cfg).run s (feed ++ before)).status.error = true)

/-! ## Silence -/

/-- What silence makes of a machine fed `f`, phase by phase. The flag says
that the frame is known to be over: confirmed, or none at all. -/
inductive Awaits (s : State cfg) (f : List UInt8) : Bool → State cfg → Prop
  | frame {t} : Holds s f (frameState f) t → Awaits s f false t
  | ended {t} : Holds s f .eof t → Awaits s f false t
  | confirmed {past t} : Holds s f .idle t → Handles t → Awaits s f past t
  | processed {past t u} : Holds s f .idle u → Handles u → Wf t → Settled t →
      t.frameLog = s.frameLog ++ frameCalls u → Awaits s f past t
  | lost {past t} : ¬(2 ≤ f.length ∧ f.length ≤ cfg.rxbufCapacity) → Wf t → Settled t →
      t.frameLog = s.frameLog → Awaits s f past t

theorem Fed.awaits {s t : State cfg} {f : List UInt8} (hq : Quiet s) (h : Fed s f t) :
    Awaits s f false t := by
  cases h with
  | nothing => exact .lost (by simp) hq.wf hq.settled rfl
  | frame _ h => exact .frame h
  | overrun hlen h => exact .lost (by omega) h.wf h.settled h.log

variable {s t : State cfg} {f : List UInt8} {past : Bool}

theorem Awaits.wf (h : Awaits s f past t) : Wf t := by
  cases h with
  | frame h => exact h.wf
  | ended h => exact h.wf
  | confirmed h _ => exact h.wf
  | processed _ _ h _ _ => exact h
  | lost _ h _ _ => exact h

theorem Awaits.event (h : Awaits s f past t) : Awaits s f past (modbusRtuEvent t) := by
  have hwf := modbusRtuEvent_wf h.wf
  have hlog : Settled t → (modbusRtuEvent t).frameLog = t.frameLog := fun hs =>
    frameLog_event_of_not h.wf hs.not_handles
  cases h with
  | frame h => exact .frame (h.event (h.receiving.imp id .inl))
  | ended h => exact .ended (h.event (.inr (.inr h.curr)))
  | confirmed h hh =>
      refine .processed h hh hwf (settled_of_handles h.wf hh) ?_
      rw [← h.log, hh.frameLog_event h.wf]
  | processed hu hhu ht hs hl => exact .processed hu hhu hwf (hs.event ht) ((hlog hs).trans hl)
  | lost hlen ht hs hl => exact .lost hlen hwf (hs.event ht) ((hlog hs).trans hl)

theorem Awaits.timer (h : Awaits s f past t) (harmed : t.timer ≠ .stopped) :
    Awaits s f past (timerIsr t) := by
  have hwf := timerIsr_wf h.wf harmed
  have hlog := frameLog_timer h.wf
  cases h with
  | frame h =>
      -- a single byte is still in `sof`, where a timeout is an error
      by_cases hone : f.length = 1
      · rw [frameState, if_pos hone] at h
        exact .lost (by omega) hwf h.timeout_sof.settled h.timeout_sof.log
      · rw [frameState, if_neg hone] at h
        exact .ended h.timeout
  | ended h => exact .confirmed h.confirm.1 h.confirm.2
  | confirmed h hh => exact absurd (h.wf.timer_idle h.curr) harmed
  | processed hu hhu ht hs hl => exact .processed hu hhu hwf (hs.timer ht harmed) (hlog.trans hl)
  | lost hlen ht hs hl => exact .lost hlen hwf (hs.timer ht harmed) (hlog.trans hl)

/-- Step by step through the silence. -/
theorem Awaits.run (h : Awaits s f past t) {acts : List Action} (hacts : Waiting acts)
    (hlegal : (rtuSystem cfg).Legal t acts) : Awaits s f past ((rtuSystem cfg).run t acts) := by
  induction acts generalizing t with
  | nil => exact h
  | cons a acts ih =>
      have htail : Waiting acts := fun b hb => hacts b (List.mem_cons_of_mem _ hb)
      rcases hacts a List.mem_cons_self with rfl | rfl
      · exact ih h.event htail hlegal.2
      · exact ih (h.timer (hlegal.1 rfl)) htail hlegal.2

/-- A machine that is idle or has an error pending has got past the frame. -/
theorem Awaits.getPast (h : Awaits s f false t)
    (hends : t.status.curr = .idle ∨ t.status.error = true) : Awaits s f true t := by
  have hpast : ∀ {state}, state ≠ .idle → ¬Holds s f state t := by
    intro state hne hh
    rcases hends with hidle | herr
    · exact hne (hh.curr.symm.trans hidle)
    · exact Bool.false_ne_true (hh.error.symm.trans herr)
  cases h with
  | frame h =>
      refine absurd h (hpast ?_)
      unfold frameState
      split <;> decide
  | ended h => exact absurd h (hpast (by decide))
  | confirmed h hh => exact .confirmed h hh
  | processed hu hhu ht hs hl => exact .processed hu hhu ht hs hl
  | lost hlen ht hs hl => exact .lost hlen ht hs hl

/-- Once the frame is over, one event is enough: it has been processed, or there was none. -/
theorem Awaits.outcome (h : Awaits s f true t) :
    (∃ u, Holds s f .idle u ∧ (modbusRtuEvent t).frameLog = s.frameLog ++ frameCalls u) ∨
      ¬(2 ≤ f.length ∧ f.length ≤ cfg.rxbufCapacity) ∧
        (modbusRtuEvent t).frameLog = s.frameLog := by
  have hlog : Settled t → (modbusRtuEvent t).frameLog = t.frameLog := fun hs =>
    frameLog_event_of_not h.wf hs.not_handles
  cases h with
  | confirmed h hh =>
      refine .inl ⟨t, h, ?_⟩
      rw [← h.log, hh.frameLog_event h.wf]
  | processed hu hhu ht hs hl => exact .inl ⟨_, hu, (hlog hs).trans hl⟩
  | lost hlen ht hs hl => exact .inr ⟨hlen, (hlog hs).trans hl⟩

/-! ## The calls for a frame -/

/-- The arguments `pdu_cb` gets for the frame `f`. -/
structure ArgsOf (f : List UInt8) (args : PduArgs) : Prop where
  addr : some args.addr = f[0]?
  fcode : some args.fcode = f[1]?
  request : args.request = f.take (f.length - 2)
  end_ : args.end_ = f.length - 2
  curr : args.curr = 2

theorem argsOf_pduArgs (h : Holds s f .idle t) (hlen : 4 ≤ f.length) :
    ArgsOf f (pduArgs t) := by
  obtain ⟨hcurr, hcap⟩ := h.length_le
  have hbyte : ∀ i < 4, some (t.rxbuf.cells.toList.getD i 0) = f[i]? := by
    intro i hi
    rw [← h.filled, Buf.filled, List.getElem?_take_of_lt (by omega), List.getD_eq_getElem?_getD,
      List.getElem?_eq_getElem (by simp; omega), Option.getD_some]
  refine ⟨hbyte 0 (by omega), hbyte 1 (by omega), ?_, ?_, rfl⟩
  · show t.rxbuf.cells.toList.take (t.rxbuf.curr - 2) = f.take (f.length - 2)
    rw [hcurr, ← h.filled, Buf.filled, List.take_take, Nat.min_eq_left (by omega)]
  · rw [hcurr]
    rfl

/-- After a schedule and one more event, the calls made for frames are those of
one confirmed frame `f`, or there are none because `f` is too short or too long. -/
theorem FrameRun.outcome (hq : Quiet s) {feed silence : List Action}
    (hrun : FrameRun s f feed silence) :
    let calls := callsSince s ((rtuSystem cfg).run s (feed ++ silence ++ [.event]))
    (∃ u, Holds s f .idle u ∧ calls.filter Call.ofFrame = frameCalls u) ∨
      ¬(2 ≤ f.length ∧ f.length ≤ cfg.rxbufCapacity) ∧ calls.filter Call.ofFrame = [] := by
  intro calls
  obtain ⟨before, after, rfl, hends⟩ := hrun.ends
  obtain ⟨-, hlegal⟩ := System.legal_append.mp hrun.legal
  obtain ⟨hbefore, hafter⟩ := System.legal_append.mp hlegal
  have hwaits : Waiting before ∧ Waiting after :=
    ⟨fun a ha => hrun.waiting a (List.mem_append_left _ ha),
      fun a ha => hrun.waiting a (List.mem_append_right _ ha)⟩
  have hfed : Fed s f ((rtuSystem cfg).run s feed) := by
    have h := (Fed.nothing : Fed s [] s).run hq hrun.feeding
    rwa [List.nil_append, hrun.bytes] at h
  rw [System.run_append] at hends
  -- fed, then waiting until the frame is past, then waiting on
  have hpast := (((hfed.awaits hq).run hwaits.1 hbefore).getPast hends).run hwaits.2 hafter
  have hfinal : (rtuSystem cfg).run s (feed ++ (before ++ after) ++ [.event]) =
      modbusRtuEvent ((rtuSystem cfg).run ((rtuSystem cfg).run ((rtuSystem cfg).run s feed) before)
        after) := by
    simp only [System.run_append]
    rfl
  have hlegal' : (rtuSystem cfg).Legal s (feed ++ (before ++ after) ++ [.event]) :=
    System.legal_append.mpr ⟨hrun.legal, enabled_event _, trivial⟩
  have hlog := frameLog_run hq.wf hlegal'
  rcases hpast.outcome with ⟨u, hu, hnew⟩ | ⟨hlen, hnew⟩
  · rw [← hfinal, hlog] at hnew
    exact .inl ⟨u, hu, List.append_cancel_left hnew⟩
  · rw [← hfinal, hlog] at hnew
    exact .inr ⟨hlen, List.append_cancel_left (hnew.trans (List.append_nil _).symm)⟩

/-! ## The theorem -/

/-- Single-frame delivery, sound and complete: from a quiet machine, under any
schedule of events, the bytes `f` followed by silence lead to one call of
`pdu_cb` if they fit the buffer and end with their CRC, and to none otherwise;
a non-empty reply that fits is sent once, with its CRC, and nothing else is. -/
theorem single_frame_delivery (hreach : (rtuSystem cfg).Reachable s)
    (hidle : s.status.curr = .idle) (hup : s.status.updated = false)
    {feed silence : List Action} (hrun : FrameRun s f feed silence) :
    let calls := callsSince s ((rtuSystem cfg).run s (feed ++ silence ++ [.event]))
    let valid := 4 ≤ f.length ∧ f.length ≤ cfg.rxbufCapacity ∧ f = withCrc (f.take (f.length - 2))
    (valid → ∃ args, pduCalls calls = [args] ∧ ArgsOf f args ∧
        let r := (cfg.pduCb s.userData args).2
        (r = [] → sends calls = []) ∧
          (r ≠ [] → r.length + 2 ≤ cfg.txbufCapacity → sends calls = [withCrc r])) ∧
      (¬valid → pduCalls calls = [] ∧ sends calls = []) := by
  intro calls valid
  have hq : Quiet s := ⟨wf_invariant.holds hreach, hidle, hup⟩
  have hpdu : pduCalls (calls.filter Call.ofFrame) = pduCalls calls := pduCalls_filter calls
  have hsend : sends (calls.filter Call.ofFrame) = sends calls := sends_filter calls
  rw [← hpdu, ← hsend]
  rcases hrun.outcome hq with ⟨u, hu, hcalls⟩ | ⟨hlen, hcalls⟩
  · have hvalid : valid ↔ Accepted f :=
      ⟨fun hv => ⟨hv.1, (crcMatches_iff (by have := hv.1; omega)).mpr hv.2.2⟩,
        fun hacc => ⟨hacc.1, hu.length_le.2,
          (crcMatches_iff (by have : 4 ≤ f.length := hacc.1; omega)).mp hacc.2⟩⟩
    rw [hcalls]
    constructor
    · intro hv
      obtain ⟨hcall, hsent⟩ :=
        frameCalls_of_accepted (s := u) (by rw [hu.filled]; exact hvalid.mp hv)
      have hreply : (cfg.pduCb s.userData (pduArgs u)).2 = reply u := by rw [reply, hu.userData]
      refine ⟨pduArgs u, hcall, argsOf_pduArgs hu hv.1, ?_, ?_⟩
      · rw [hreply, hsent]
        exact fun hnil => if_pos hnil
      · rw [hreply, hsent]
        intro hne hfits
        rw [if_neg hne, replyAdu_eq hfits]
    · intro hv
      rw [frameCalls_of_not_accepted (s := u) (by rw [hu.filled]; exact mt hvalid.mpr hv)]
      exact ⟨rfl, rfl⟩
  · rw [hcalls]
    exact ⟨fun hv => absurd ⟨by omega, hv.2.1⟩ hlen, fun _ => ⟨rfl, rfl⟩⟩

theorem single_frame_delivery_listener :
    ∃ args, pduCalls (callsSince idleListener ((rtuSystem listener).run idleListener
        ((withCrc [1, 3]).map .recv ++ [.timer, .event, .timer] ++ [.event]))) = [args] ∧
      ArgsOf (withCrc [1, 3]) args := by
  have hrun : FrameRun idleListener (withCrc [1, 3]) ((withCrc [1, 3]).map .recv)
      [.timer, .event, .timer] := by
    refine ⟨?_, rfl, by simp [Waiting], by decide, [.timer, .event, .timer], [], rfl, ?_⟩
    · intro a ha
      obtain ⟨data, -, rfl⟩ := List.mem_map.mp ha
      exact .inr ⟨data, rfl⟩
    · exact .inl (by decide)
  have hall := single_frame_delivery idleListener_reachable rfl rfl hrun
  obtain ⟨args, hcalls, hargs, -⟩ := hall.1 (by decide)
  exact ⟨args, hcalls, hargs⟩

end ModbusRtu
