import ModbusRtu.Theorems.LinuxSlave

/-!
# The Linux slave keeps the silence

A frame is over once the line has been silent for 1.5t and then for another
3.5t. The program only knows the clock by reading it: each byte leaves a time
stamp (`startsTimer_recv`), each round reads the clock anew and compares. A
frame is never handled before both intervals are over, however the rounds fall
(`never_early`).
-/

namespace ModbusRtu

open Base

variable {U : Type} {pduCb : U → PduArgs → U × List UInt8} {host : Host}

/-! ## Bytes -/

section

variable {cfg : Config U} {s : State cfg}

/-- Which steps start the timer does not depend on how long it runs. -/
def someDurations : Durations := ⟨1, 2, by decide, by decide⟩

/-- Whatever the machine is doing, a byte and its event let the timer run from
its beginning. -/
theorem startsTimer_recv (hwf : Wf s) (b : UInt8) :
    (callsSince s (modbusRtuEvent (serialRecvCb s b))).any Call.startsTimer = true := by
  by_cases hidle : s.status.curr = .idle
  · exact rearms_opened (d := someDurations) hwf hidle
  · by_cases hframe : s.status.curr = .sof ∨ s.status.curr = .recv
    · exact rearms_extended (d := someDurations) hwf hframe
    · -- the byte raises an error, and the event restarts the machine
      have hevent : modbusRtuEvent (serialRecvCb s b) = errorRestart (consumed s.raise) := by
        rw [serialRecvCb_other hidle hframe]
        exact event_error rfl rfl
      have hcalls : (modbusRtuEvent (serialRecvCb s b)).calls = s.calls ++ changeoverCalls := by
        rw [hevent]
        exact restart_calls _
      rw [callsSince, hcalls, List.drop_left]
      rfl

/-- So does the first timeout of a frame. -/
theorem startsTimer_timeout (hwf : Wf s) (hrecv : s.status.curr = .recv) :
    (callsSince s (modbusRtuEvent (timerIsr s))).any Call.startsTimer = true :=
  rearms_timeout (d := someDurations) hwf hrecv

/-- Behind a byte and its event the machine receives a frame or is settled. -/
theorem recv_receiving_or_settled (hwf : Wf s) (b : UInt8) :
    let s' := modbusRtuEvent (serialRecvCb s b)
    (s'.status.curr = .sof ∨ s'.status.curr = .recv) ∧ s'.status.error = false ∨ Settled s' := by
  intro s'
  have hwf' : Wf (serialRecvCb s b) := serialRecvCb_wf hwf b
  cases herr : (serialRecvCb s b).status.error with
  | true =>
      have hsettled : Settled (serialRecvCb s b) := .inl herr
      exact .inr (hsettled.event hwf')
  | false =>
      have hframe : (serialRecvCb s b).status.curr = .sof ∨
          (serialRecvCb s b).status.curr = .recv := by
        have hcase := recv_case s b
        generalize serialRecvCb s b = u at hcase herr ⊢
        cases hcase with
        | opened => exact .inl (rxbufAppend_status_curr _ _)
        | extended => exact .inr (rxbufAppend_status_curr _ _)
        | stray => cases herr
      obtain ⟨calls, hevent⟩ := event_of_inFrame hwf' herr (hframe.imp id .inl)
      have hstatus : s'.status = (consumed (serialRecvCb s b)).status :=
        (congrArg State.status hevent).trans rfl
      refine .inl ⟨?_, ?_⟩
      · rw [hstatus]
        exact hframe
      · rw [hstatus]
        exact herr

/-- A byte and its event call nothing for a frame. -/
theorem frameLog_recv_event (hwf : Wf s) (b : UInt8) :
    (modbusRtuEvent (serialRecvCb s b)).frameLog = s.frameLog := by
  have hwf' : Wf (serialRecvCb s b) := serialRecvCb_wf hwf b
  have hnot : ¬Handles (serialRecvCb s b) := by
    have hcase := recv_case s b
    generalize serialRecvCb s b = u at hcase ⊢
    cases hcase with
    | opened =>
        exact not_handles_of_curr (c := .sof) (rxbufAppend_status_curr _ _)
    | extended =>
        exact not_handles_of_curr (c := .recv) (rxbufAppend_status_curr _ _)
    | stray => exact not_handles_of_error rfl
  rw [frameLog_event_of_not hwf' hnot, frameLog_recv hwf]

end

/-- The clock is never set back. -/
def Host.GoesForward (host : Host) : Prop := ∀ ⦃m n⦄, m ≤ n → host.clock m ≤ host.clock n

/-- A host whose clock is read at fixed intervals, and which writes everything. -/
def steadyHost (interval : Int) : Host where
  clock n := interval * n
  writes _ _ _ := .whole

namespace LinuxSlave

variable {slave slave' : LinuxSlave pduCb} {s₀ : State (linuxConfig pduCb)} {t : Int}

/-! ## Waiting -/

/-- A round in which nothing is read. -/
def silent : Round where
  reading := .bytes [] (Nat.zero_le _)
  userEvent := false

/-- Nothing has been read since the time `t`, at which the machine was in `s₀`:
what the slave waits for, and since when. -/
inductive Awaits (host : Host) (s₀ : State (linuxConfig pduCb)) (t : Int)
    (slave : LinuxSlave pduCb) : Prop
  | bytes : slave.state.status.curr = .sof ∨ slave.state.status.curr = .recv →
      slave.state.status.error = false → slave.state.frameLog = s₀.frameLog →
      t ≤ slave.impl.timer.timestampUs → Awaits host s₀ t slave
  | confirmation : slave.state.status.curr = .eof → slave.state.status.error = false →
      slave.state.frameLog = s₀.frameLog →
      t + slave.impl.timer.timeout1t5Us ≤ slave.impl.timer.timestampUs → Awaits host s₀ t slave
  | nothing : Settled slave.state → slave.state.frameLog = s₀.frameLog → Awaits host s₀ t slave
  | handled : Settled slave.state →
      t + (slave.impl.timer.timeout1t5Us + slave.impl.timer.timeout3t5Us) ≤
        host.clock (slave.impl.readings - 1) → Awaits host s₀ t slave

/-- A time stamp that is the last reading of the clock is not older than any reading before. -/
theorem clock_le_stamp (hclock : host.GoesForward) {impl : RtuImpl} {n : Nat}
    (hfresh : impl.Fresh host) (hn : n < impl.readings) :
    host.clock n ≤ impl.timer.timestampUs := by
  obtain ⟨m, hm, hstamp⟩ := hfresh
  rw [hstamp]
  exact hclock (by omega)

/-- The first timeout of a frame being received. -/
theorem awaits_ended (hclock : host.GoesForward) (hgood : slave.Good)
    (hframe : slave.state.status.curr = .sof ∨ slave.state.status.curr = .recv)
    (herr : slave.state.status.error = false) (hlog : slave.state.frameLog = s₀.frameLog)
    (hsince : t ≤ slave.impl.timer.timestampUs)
    (hover : slave.impl.timer.timestampUs + slave.impl.timer.timeout1t5Us ≤
      host.clock slave.impl.readings)
    (h : Reaches host { slave with impl := (slave.impl.timestampUs host).2 }
      (modbusRtuEvent (timerIsr slave.state)) slave') : Awaits host s₀ t slave' := by
  have harmed : slave.state.timer ≠ .stopped := hgood.wf.armed_frame hframe
  have hwf : Wf (timerIsr slave.state) := timerIsr_wf hgood.wf harmed
  have hlog' : ¬Handles (timerIsr slave.state) → slave'.state.frameLog = s₀.frameLog := by
    intro hnot
    rw [h.state, frameLog_event_of_not hwf hnot, frameLog_timer hgood.wf, hlog]
  rcases hframe with hsof | hrecv
  · -- a single byte is no frame
    have herr' : (timerIsr slave.state).status.error = true := by
      rw [timerIsr_sof (hgood.wf.timer_frame (.inl hsof)).2 hsof]
      rfl
    have hsettled : Settled (timerIsr slave.state) := .inl herr'
    refine .nothing ?_ (hlog' (not_handles_of_error herr'))
    rw [h.state]
    exact hsettled.event hwf
  · have hstart := startsTimer_timeout hgood.wf hrecv
    have hended : (timerIsr slave.state).status.curr = .eof ∧
        (timerIsr slave.state).status.error = false := by
      rw [timerIsr_recv (hgood.wf.timer_frame (.inr hrecv)).2 hrecv]
      exact ⟨rfl, herr⟩
    obtain ⟨calls, hevent⟩ := event_of_inFrame hwf hended.2 (.inr (.inr hended.1))
    have hstatus : slave'.state.status = (consumed (timerIsr slave.state)).status := by
      rw [h.state, hevent]
    refine .confirmation (by rw [hstatus]; exact hended.1) (by rw [hstatus]; exact hended.2)
      (hlog' (not_handles_of_curr hended.1)) ?_
    have hstamp : host.clock slave.impl.readings ≤ slave'.impl.timer.timestampUs :=
      clock_le_stamp hclock (h.answers.fresh (.inr hstart)) h.answers.later.readings
    rw [show slave'.impl.timer.timeout1t5Us = _ from h.answers.later.timeout1t5]
    show t + slave.impl.timer.timeout1t5Us ≤ _
    omega

/-- The second timeout hands the frame over, or finds it too late to do so. -/
theorem awaits_handled (hclock : host.GoesForward) (hgood : slave.Good)
    (heof : slave.state.status.curr = .eof) (herr : slave.state.status.error = false)
    (hsince : t + slave.impl.timer.timeout1t5Us ≤ slave.impl.timer.timestampUs)
    (hover : slave.impl.timer.timestampUs + slave.impl.timer.timeout3t5Us ≤
      host.clock slave.impl.readings)
    (h : Reaches host { slave with impl := (slave.impl.timestampUs host).2 }
      (modbusRtuEvent (timerIsr slave.state)) slave') : Awaits host s₀ t slave' := by
  have harmed : slave.state.timer ≠ .stopped := hgood.wf.armed_eof heof
  have hwf : Wf (timerIsr slave.state) := timerIsr_wf hgood.wf harmed
  have hh : Handles (timerIsr slave.state) := by
    rw [timerIsr_eof (hgood.wf.timer_eof heof).2 (hgood.wf.prev_eof heof) heof]
    exact ⟨rfl, herr, rfl, heof⟩
  refine .handled ?_ ?_
  · rw [h.state]
    exact settled_of_handles hwf hh
  · have hread : slave.impl.readings + 1 ≤ slave'.impl.readings := h.answers.later.readings
    have hle : host.clock slave.impl.readings ≤ host.clock (slave'.impl.readings - 1) :=
      hclock (by omega)
    rw [show slave'.impl.timer.timeout1t5Us = _ from h.answers.later.timeout1t5,
      show slave'.impl.timer.timeout3t5Us = _ from h.answers.later.timeout3t5]
    show t + (slave.impl.timer.timeout1t5Us + slave.impl.timer.timeout3t5Us) ≤ _
    omega

/-- A settled machine hands nothing over. -/
theorem Polled.settled (h : slave.Polled host slave') (hgood : slave.Good)
    (hsettled : Settled slave.state) :
    Settled slave'.state ∧ slave'.state.frameLog = slave.state.frameLog := by
  cases h with
  | stopped _ heq | running _ _ heq =>
      rw [heq]
      exact ⟨hsettled, rfl⟩
  | timeout harmed _ h =>
      have hwf : Wf (timerIsr slave.state) := timerIsr_wf hgood.wf harmed
      have hsettled' : Settled (timerIsr slave.state) := hsettled.timer hgood.wf harmed
      rw [h.state]
      refine ⟨hsettled'.event hwf, ?_⟩
      rw [frameLog_event_of_not hwf hsettled'.not_handles, frameLog_timer hgood.wf]

/-- One look at the timer. -/
theorem Polled.awaits (h : slave.Polled host slave') (hclock : host.GoesForward)
    (hgood : slave.Good) (hawaits : slave.Awaits host s₀ t) : slave'.Awaits host s₀ t := by
  cases hawaits with
  | bytes hframe herr hlog hsince =>
      have htimer : slave.state.timer = .armed1t5 := (hgood.wf.timer_frame hframe).1
      cases h with
      | stopped _ heq | running _ _ heq => exact heq ▸ .bytes hframe herr hlog hsince
      | timeout _ hover h =>
          rw [htimer] at hover
          exact awaits_ended hclock hgood hframe herr hlog hsince hover h
  | confirmation heof herr hlog hsince =>
      have htimer : slave.state.timer = .armed3t5 := (hgood.wf.timer_eof heof).1
      cases h with
      | stopped _ heq | running _ _ heq => exact heq ▸ .confirmation heof herr hlog hsince
      | timeout _ hover h =>
          rw [htimer] at hover
          exact awaits_handled hclock hgood heof herr hsince hover h
  | nothing hsettled hlog =>
      obtain ⟨hsettled', hlog'⟩ := h.settled hgood hsettled
      exact .nothing hsettled' (hlog'.trans hlog)
  | handled hsettled hover =>
      have hsettled' := (h.settled hgood hsettled).1
      have hlater : slave.impl.Later slave'.impl := by
        rcases h.ran hgood with hran | hran <;> exact hran.later
      have hle : host.clock (slave.impl.readings - 1) ≤ host.clock (slave'.impl.readings - 1) :=
        hclock (Nat.sub_le_sub_right hlater.readings 1)
      refine .handled hsettled' ?_
      rw [hlater.timeout1t5, hlater.timeout3t5]
      omega

/-- Rounds without bytes only look at the timer. -/
theorem silent_ends {inv : LinuxSlave pduCb → Prop}
    (hstep : ∀ slave, inv slave → Ends host.GivesUp inv (slave.timeoutImpl host)) {k : Nat}
    (h : inv slave) : Ends host.GivesUp inv (slave.loop host (List.replicate k silent)) := by
  induction k generalizing slave with
  | zero => exact ends_ok h
  | succ k ih =>
      rw [List.replicate_succ]
      show Ends _ _ (slave.timeoutImpl host >>= fun slave' =>
        if silent.userEvent then return slave' else slave'.loop host (List.replicate k silent))
      exact (hstep slave h).bind fun slave' h' => ih h'

/-! ## Reading -/

/-- The slave has read bytes since it was `slave`, the last one just now. -/
structure Read (host : Host) (slave slave' : LinuxSlave pduCb) : Prop where
  fresh : slave'.impl.Fresh host
  reads : slave.impl.readings < slave'.impl.readings
  waits : (slave'.state.status.curr = .sof ∨ slave'.state.status.curr = .recv) ∧
    slave'.state.status.error = false ∨ Settled slave'.state

/-- The bytes of a chunk hand nothing over, and the last one leaves a time stamp. -/
theorem recvBytes_read (hgood : slave.Good) (chunk : List UInt8) :
    Ends host.GivesUp (fun slave' => slave'.Good ∧ slave.impl.Later slave'.impl ∧
        slave'.state.frameLog = slave.state.frameLog ∧ (chunk ≠ [] → slave.Read host slave'))
      (slave.recvBytes host chunk) := by
  have hstep : ∀ (done : List UInt8) data (slave₁ : LinuxSlave pduCb),
      (slave₁.Good ∧ slave.impl.Later slave₁.impl ∧
        slave₁.state.frameLog = slave.state.frameLog ∧ (done ≠ [] → slave.Read host slave₁)) →
      Ends host.GivesUp (fun slave' => slave'.Good ∧ slave.impl.Later slave'.impl ∧
          slave'.state.frameLog = slave.state.frameLog ∧
          (done ++ [data] ≠ [] → slave.Read host slave'))
        (slave₁.attend host (.recv data)) := by
    rintro done data slave₁ ⟨hgood₁, hlater₁, hlog₁, -⟩
    have hstarts := startsTimer_recv hgood₁.wf data
    refine (attend_ends hgood₁ (enabled_recv _ data)).mono fun slave₂ h => ?_
    refine ⟨h.good, hlater₁.trans h.answers.later, ?_, fun _ => ⟨h.answers.fresh (.inr hstarts),
      Nat.lt_of_le_of_lt hlater₁.readings (h.answers.reads hstarts), ?_⟩⟩
    · rw [h.state]
      exact (frameLog_recv_event hgood₁.wf data).trans hlog₁
    · rw [h.state]
      exact recv_receiving_or_settled hgood₁.wf data
  have hnone : slave.Good ∧ slave.impl.Later slave.impl ∧
      slave.state.frameLog = slave.state.frameLog ∧
      (([] : List UInt8) ≠ [] → slave.Read host slave) :=
    ⟨hgood, .refl _, rfl, fun h => absurd rfl h⟩
  exact Ends.foldlM hstep hnone chunk

/-- From the last byte on, the slave waits. -/
theorem Read.awaits (h : slave.Read host slave')
    (hlog : slave'.state.frameLog = slave.state.frameLog) :
    slave'.Awaits host slave.state (host.clock (slave'.impl.readings - 1)) := by
  obtain ⟨n, hn, hstamp⟩ := h.fresh
  rcases h.waits with ⟨hframe, herr⟩ | hsettled
  · refine .bytes hframe herr hlog ?_
    rw [hstamp, hn, Nat.add_sub_cancel]
  · exact .nothing hsettled hlog

/-! ## Never early -/

/-- Without a new entry in the log of frame calls `pdu_cb` was not called. -/
theorem Ran.pduCalls_eq_nil {acts : List Action} (h : slave.Ran acts slave') (hgood : slave.Good)
    (hlog : slave'.state.frameLog = slave.state.frameLog) :
    pduCalls (callsSince slave.state slave'.state) = [] := by
  have hnew := frameLog_run hgood.wf h.legal
  rw [← h.state, hlog, List.self_eq_append_right] at hnew
  rw [← pduCalls_filter, hnew]
  rfl

/-- In every run of the program, if the clock does not go back: reading bytes
hands nothing over, and neither do the rounds that follow without bytes, as
long as the clock shows less than 1.5t and 3.5t since the last byte. -/
theorem never_early (hclock : host.GoesForward) {rate : Speed}
    {timeout1t5Us timeout3t5Us : Int} {userData : U} {rounds : List Round}
    {slave slave₁ slave₂ : LinuxSlave pduCb}
    (hrun : modbusRtuRun host rate timeout1t5Us timeout3t5Us userData rounds = .ok slave)
    {chunk : List UInt8} (hchunk : chunk ≠ []) (hrecv : slave.recvBytes host chunk = .ok slave₁)
    {k : Nat} (hwait : slave₁.loop host (List.replicate k silent) = .ok slave₂) :
    pduCalls (callsSince slave.state slave₁.state) = [] ∧
      (pduCalls (callsSince slave₁.state slave₂.state) ≠ [] →
        host.clock (slave₁.impl.readings - 1) +
            ((if timeout1t5Us = -1 then (calc1t5Us rate : Int) else timeout1t5Us) +
              (if timeout3t5Us = -1 then (calc3t5Us rate : Int) else timeout3t5Us)) ≤
          host.clock (slave₂.impl.readings - 1)) := by
  obtain ⟨hgood, hlater, -⟩ := (modbusRtuRun_ends _ _ _ _ _).of_ok hrun
  have hran₁ := (recvBytes_ends hgood chunk).of_ok hrecv
  obtain ⟨hgood₁, -, hlog₁, hread⟩ := (recvBytes_read hgood chunk).of_ok hrecv
  refine ⟨hran₁.pduCalls_eq_nil hgood hlog₁, ?_⟩
  intro hcalled
  obtain ⟨acts, hran₂, -⟩ := (loop_ends hgood₁ _).of_ok hwait
  have hawaits := (hread hchunk).awaits hlog₁
  have hends : Ends host.GivesUp (fun slave' => slave'.Good ∧
      Awaits host slave.state (host.clock (slave₁.impl.readings - 1)) slave')
      (slave₁.loop host (List.replicate k silent)) := by
    refine silent_ends ?_ ⟨hgood₁, hawaits⟩
    intro slave' ⟨hgood', hawaits'⟩
    refine (timeoutImpl_ends hgood').mono fun slave'' h => ⟨?_, h.awaits hclock hgood' hawaits'⟩
    rcases h.ran hgood' with hran | hran <;> exact hran.good
  have hsame : slave₂.state.frameLog ≠ slave.state.frameLog := fun hlog =>
    hcalled (hran₂.pduCalls_eq_nil hgood₁ (hlog.trans hlog₁.symm))
  have hlater₂ := (hlater.trans hran₁.later).trans hran₂.later
  cases (hends.of_ok hwait).2 with
  | bytes _ _ hlog | confirmation _ _ hlog | nothing _ hlog => exact absurd hlog hsame
  | handled _ hover =>
      rw [hlater₂.timeout1t5, hlater₂.timeout3t5] at hover
      exact hover

set_option maxRecDepth 8000 in
/-- A frame behind the first silence, and two rounds without bytes. -/
theorem never_early_two_rounds :
    ∃ slave slave₁ slave₂ : LinuxSlave (U := Unit) fun u _ => (u, []),
      modbusRtuRun (steadyHost 2000) .b19200 (-1) (-1) () [silent] = .ok slave ∧
      slave.recvBytes (steadyHost 2000) (withCrc [1, 3]) = .ok slave₁ ∧
      slave₁.loop (steadyHost 2000) (List.replicate 2 silent) = .ok slave₂ ∧
      (pduCalls (callsSince slave₁.state slave₂.state)).length = 1 ∧
      (steadyHost 2000).clock (slave₁.impl.readings - 1) + (750 + 1750) ≤
        (steadyHost 2000).clock (slave₂.impl.readings - 1) := by
  have hclock : (steadyHost 2000).GoesForward := by
    intro m n h
    show (2000 * m : Int) ≤ 2000 * n
    omega
  obtain ⟨slave, slave₁, slave₂, hrun, hrecv, hwait, hone⟩ :
      ∃ slave slave₁ slave₂ : LinuxSlave (U := Unit) fun u _ => (u, []),
        modbusRtuRun (steadyHost 2000) .b19200 (-1) (-1) () [silent] = .ok slave ∧
        slave.recvBytes (steadyHost 2000) (withCrc [1, 3]) = .ok slave₁ ∧
        slave₁.loop (steadyHost 2000) (List.replicate 2 silent) = .ok slave₂ ∧
        (pduCalls (callsSince slave₁.state slave₂.state)).length = 1 :=
    ⟨_, _, _, rfl, rfl, rfl, rfl⟩
  have hnever := never_early hclock hrun (by decide) hrecv hwait
  refine ⟨slave, slave₁, slave₂, hrun, hrecv, hwait, hone, hnever.2 ?_⟩
  exact List.ne_nil_of_length_pos (by omega)

end LinuxSlave

end ModbusRtu
