import ModbusRtu.Base.Checked
import ModbusRtu.Code.LinuxSlave
import ModbusRtu.Logic.TimerCalls
import ModbusRtu.Logic.Timing
import ModbusRtu.Theorems.Discipline

/-!
# The Linux slave runs the state machine

The timer of the Linux slave is a record that its callbacks keep. The record
always shows the timer of the state machine (`RtuImpl.Shows`), so none of the
checks on it fails, and a run of the program is a run of the state
machine in which each callback is followed by one event
(`modbusRtuRun_simulates`). What holds in every such run, or in every state
that is reached, holds of the program.
-/

namespace ModbusRtu

open Base

variable {U : Type} {pduCb : U → PduArgs → U × List UInt8} {host : Host}

/-! ## The timer record -/

/-- The timeout of a timer. -/
def ImplTimer.timeoutOf (record : ImplTimer) : Timer → Int
  | .stopped => -1
  | .armed1t5 => record.timeout1t5Us
  | .armed3t5 => record.timeout3t5Us

/-- The record shows the timer: `-1` stands for a stopped timer and for nothing
else, and the timer has been started once more than stopped while it runs. -/
structure RtuImpl.Shows (impl : RtuImpl) (timer : Timer) : Prop where
  known1t5 : impl.timer.timeout1t5Us ≠ -1
  known3t5 : impl.timer.timeout3t5Us ≠ -1
  timeout : impl.timer.timeoutUs = impl.timer.timeoutOf timer
  counted : impl.timer.startCntr = impl.timer.stopCntr + if timer = .stopped then 0 else 1

theorem RtuImpl.Shows.stopped_iff {impl : RtuImpl} {timer : Timer} (h : impl.Shows timer) :
    impl.timer.timeoutUs = -1 ↔ timer = .stopped := by
  rw [h.timeout]
  cases timer with
  | stopped => exact iff_of_true rfl rfl
  | armed1t5 => exact iff_of_false h.known1t5 Timer.noConfusion
  | armed3t5 => exact iff_of_false h.known3t5 Timer.noConfusion

/-- The time stamp is the last reading of the clock. -/
def RtuImpl.Fresh (host : Host) (impl : RtuImpl) : Prop :=
  ∃ n, impl.readings = n + 1 ∧ impl.timer.timestampUs = host.clock n

/-- A later record of the same slave. -/
structure RtuImpl.Later (impl impl' : RtuImpl) : Prop where
  timeout1t5 : impl'.timer.timeout1t5Us = impl.timer.timeout1t5Us
  timeout3t5 : impl'.timer.timeout3t5Us = impl.timer.timeout3t5Us
  readings : impl.readings ≤ impl'.readings

theorem RtuImpl.Later.refl (impl : RtuImpl) : impl.Later impl := ⟨rfl, rfl, Nat.le_refl _⟩

theorem RtuImpl.Later.trans {impl impl' impl'' : RtuImpl} (h : impl.Later impl')
    (h' : impl'.Later impl'') : impl.Later impl'' :=
  ⟨h'.timeout1t5.trans h.timeout1t5, h'.timeout3t5.trans h.timeout3t5,
    Nat.le_trans h.readings h'.readings⟩

/-- A callback gives up only if a reply does not get written. -/
inductive Host.GivesUp (host : Host) : Check → Prop
  | short {n adu timeout} : host.writes n adu timeout = .short → GivesUp host .written
  | failed {n adu timeout} : host.writes n adu timeout = .failed → GivesUp host .device

/-! ## One call -/

/-- What the calls `l`, which lead to `timer'`, make of a record. -/
structure RtuImpl.Answers (host : Host) (impl : RtuImpl) (l : List Call) (timer' : Timer)
    (impl' : RtuImpl) : Prop where
  shows' : impl'.Shows timer'
  later : impl.Later impl'
  fresh : impl.Fresh host ∨ l.any Call.startsTimer = true → impl'.Fresh host
  reads : l.any Call.startsTimer = true → impl.readings < impl'.readings

variable {impl : RtuImpl} {timer timer' : Timer}

/-- A stopped timer is started. -/
theorem timerStart_ends (hshows : impl.Shows .stopped) {timeoutUs : Int} {c : Call}
    (htimeout : timeoutUs = impl.timer.timeoutOf timer) (hrunning : timer ≠ .stopped) :
    Ends host.GivesUp (impl.Answers host [c] timer) (impl.timerStart host timeoutUs) := by
  rw [RtuImpl.timerStart, if_pos (hshows.stopped_iff.mpr rfl)]
  refine ends_ok ⟨⟨hshows.known1t5, hshows.known3t5, ?_, ?_⟩, ⟨rfl, rfl, Nat.le_succ _⟩, ?_,
    fun _ => Nat.lt_succ_self _⟩
  · rw [htimeout]
    cases timer <;> rfl
  · have hcounted := hshows.counted
    rw [if_pos rfl] at hcounted
    rw [if_neg hrunning]
    show impl.timer.startCntr + 1 = impl.timer.stopCntr + 1
    rw [hcounted, UInt64.add_zero]
  · exact fun _ => ⟨impl.readings, rfl, rfl⟩

theorem timerStop_shows (hshows : impl.Shows timer) : impl.timerStop.Shows .stopped := by
  unfold RtuImpl.timerStop
  by_cases hstop : impl.timer.timeoutUs = -1
  · rw [if_pos hstop]
    have heq : timer = .stopped := hshows.stopped_iff.mp hstop
    rwa [heq] at hshows
  · rw [if_neg hstop]
    refine ⟨hshows.known1t5, hshows.known3t5, rfl, ?_⟩
    have hcounted := hshows.counted
    rw [if_neg (mt hshows.stopped_iff.mpr hstop)] at hcounted
    show impl.timer.startCntr = impl.timer.stopCntr + 1 + 0
    rw [hcounted, UInt64.add_zero]

/-- A call that leaves the record alone. -/
theorem answers_self (hshows : impl.Shows timer) {c : Call} (hc : c.startsTimer = false) :
    impl.Answers host [c] timer impl := by
  have hnone : [c].any Call.startsTimer ≠ true := by
    rw [List.any_cons, hc]
    exact Bool.false_ne_true
  exact ⟨hshows, .refl impl, fun hfresh => hfresh.resolve_right hnone, fun hany =>
    absurd hany hnone⟩

/-- A call that finds the timer as it says, and as the platform demands. -/
theorem answer_ends (hshows : impl.Shows timer) {c : Call} (hcarries : c.Carries timer)
    (hsound : c.Sound) :
    Ends host.GivesUp (impl.Answers host [c] (timer.after c)) (impl.answer host c) := by
  cases c with
  | timerStart1t5 found =>
      have heq : timer = .stopped := hcarries.symm.trans hsound
      rw [heq] at hshows ⊢
      exact timerStart_ends hshows rfl Timer.noConfusion
  | timerStart3t5 found =>
      have heq : timer = .stopped := hcarries.symm.trans hsound
      rw [heq] at hshows ⊢
      exact timerStart_ends hshows rfl Timer.noConfusion
  | timerStop =>
      refine ends_ok ⟨timerStop_shows hshows, ?_, ?_, fun hany => absurd hany Bool.false_ne_true⟩
      · unfold RtuImpl.timerStop
        split <;> exact ⟨rfl, rfl, Nat.le_refl _⟩
      · rintro (⟨n, hread, hstamp⟩ | hany)
        · unfold RtuImpl.timerStop
          split <;> exact ⟨n, hread, hstamp⟩
        · cases hany
  | timerReset found =>
      have hrunning : timer ≠ .stopped := hcarries ▸ hsound
      have htimeout : impl.timer.timeoutUs ≠ -1 := mt hshows.stopped_iff.mp hrunning
      show Ends _ _ (impl.timerReset host)
      rw [RtuImpl.timerReset, if_neg htimeout]
      refine ends_ok ⟨⟨hshows.known1t5, hshows.known3t5, ?_, hshows.counted⟩,
        ⟨rfl, rfl, Nat.le_succ _⟩, fun _ => ⟨impl.readings, rfl, rfl⟩, fun _ => Nat.lt_succ_self _⟩
      show impl.timer.timeoutUs = _
      rw [hshows.timeout]
      cases timer <;> rfl
  | serialSend adu =>
      show Ends _ _ (impl.sendImpl host adu)
      unfold RtuImpl.sendImpl
      dsimp only
      cases hwrites : host.writes impl.replies adu (calcTmaxMs impl.rate adu.length) with
      | whole =>
          refine ends_ok ⟨⟨hshows.known1t5, hshows.known3t5, hshows.timeout, hshows.counted⟩,
            ⟨rfl, rfl, Nat.le_refl _⟩, fun hfresh => hfresh.resolve_right Bool.false_ne_true,
            fun hany => absurd hany Bool.false_ne_true⟩
      | short => exact ends_error (.short hwrites)
      | failed => exact ends_error (.failed hwrites)
  | rxStore | txStore | pduCb | suspendCb | resumeCb | logTp =>
      exact ends_ok (answers_self hshows rfl)

/-- Calls that tell the truth are all carried out. -/
theorem answers_end {l : List Call} (hshows : impl.Shows timer) (htells : Tells timer l timer')
    (hsound : ∀ c ∈ l, c.Sound) :
    Ends host.GivesUp (impl.Answers host l timer') (l.foldlM (RtuImpl.answer host) impl) := by
  induction l generalizing impl timer with
  | nil =>
      have heq : timer' = timer := htells
      rw [heq]
      exact ends_ok ⟨hshows, .refl impl, fun h => h.resolve_right Bool.false_ne_true,
        fun hany => absurd hany Bool.false_ne_true⟩
  | cons c l ih =>
      rw [List.foldlM_cons]
      refine (answer_ends hshows htells.1 (hsound c List.mem_cons_self)).bind fun impl' h => ?_
      have hrest := ih h.shows' htells.2 fun d hd => hsound d (List.mem_cons_of_mem _ hd)
      -- either the first call starts the timer or a later one
      have hone : [c].any Call.startsTimer = c.startsTimer := by
        rw [List.any_cons, List.any_nil, Bool.or_false]
      refine hrest.mono fun impl'' h' => ⟨h'.shows', h.later.trans h'.later, ?_, ?_⟩
      · intro hfresh
        apply h'.fresh
        rw [List.any_cons, Bool.or_eq_true, ← hone] at hfresh
        rcases hfresh with hfresh | hc | hl
        · exact .inl (h.fresh (.inl hfresh))
        · exact .inl (h.fresh (.inr hc))
        · exact .inr hl
      · intro hany
        rw [List.any_cons, Bool.or_eq_true, ← hone] at hany
        rcases hany with hc | hl
        · exact Nat.lt_of_lt_of_le (h.reads hc) h'.later.readings
        · exact Nat.lt_of_le_of_lt h.later.readings (h'.reads hl)

/-! ## No transmission in sight -/

section

variable {cfg : Config U} {s : State cfg}

/-- A frame is handled without leaving a transmission behind, if `serial_send` waits for its end. -/
theorem event_not_busy (hsync : cfg.serialSend = .sync) (hwf : Wf s)
    (hbusy : s.status.curr ≠ .busy) : (modbusRtuEvent s).status.curr ≠ .busy := by
  have hcase := event_case hwf
  generalize modbusRtuEvent s = s' at hcase ⊢
  cases hcase with
  | quiet | passed | suspended => exact hbusy
  | error => exact RtuState.noConfusion
  | init => exact hbusy
  | frame hh =>
      have hadu : (aduProcess serialSend (consumed s)).status.curr ≠ .busy := by
        by_cases hacc : Accepted (consumed s).rxbuf.filled
        · by_cases hreply : reply (consumed s) = []
          · rw [aduProcess_silent hacc hreply]
            exact hbusy
          · have hsends : (readyToSend (consumed s)).status.curr = .busy := rfl
            rw [aduProcess_reply hacc hreply, serialSend_sync hsync hsends hh.error]
            exact RtuState.noConfusion
        · obtain ⟨stats, hrej⟩ := aduProcess_rejected serialSend hacc
          rw [hrej]
          exact hbusy
      unfold handled
      split <;> exact hadu

theorem step_not_busy (hsync : cfg.serialSend = .sync) (hwf : Wf s) {a : Action}
    (hen : (rtuSystem cfg).enabled s a) (hbusy : s.status.curr ≠ .busy) :
    (s.step a).status.curr ≠ .busy := by
  cases a with
  | recv data =>
      show (serialRecvCb s data).status.curr ≠ .busy
      have hcase := recv_case s data
      generalize serialRecvCb s data = s' at hcase ⊢
      cases hcase with
      | opened =>
          show (rxbufAppend (s.update .sof) data).status.curr ≠ .busy
          rw [rxbufAppend_status_curr]
          exact RtuState.noConfusion
      | extended =>
          show (rxbufAppend (s.update .recv) data).status.curr ≠ .busy
          rw [rxbufAppend_status_curr]
          exact RtuState.noConfusion
      | stray => exact hbusy
  | recvErr data => exact hbusy
  | sent =>
      show (serialSentCb s).status.curr ≠ .busy
      rw [serialSentCb_other hbusy]
      exact hbusy
  | timer =>
      show (timerIsr s).status.curr ≠ .busy
      have hcase := timer_case hwf (hen rfl)
      generalize timerIsr s = s' at hcase ⊢
      cases hcase with
      | silence | ended | confirmed => exact RtuState.noConfusion
      | stray => exact hbusy
  | event => exact event_not_busy hsync hwf hbusy

end

/-! ## One step -/

namespace LinuxSlave

/-- The state machine is well-formed and not in the middle of a transmission,
and the record shows its timer. -/
structure Good (slave : LinuxSlave pduCb) : Prop where
  wf : Wf slave.state
  notBusy : slave.state.status.curr ≠ .busy
  shown : slave.impl.Shows slave.state.timer

/-- The slave after a step to the state `s`. -/
structure Reaches (host : Host) (slave : LinuxSlave pduCb) (s : State (linuxConfig pduCb))
    (slave' : LinuxSlave pduCb) : Prop where
  state : slave'.state = s
  good : slave'.Good
  answers : slave.impl.Answers host (callsSince slave.state s) s.timer slave'.impl

variable {slave slave' slave'' : LinuxSlave pduCb} {a : Action}

theorem step_sound {s : State (linuxConfig pduCb)} (hwf : Wf s)
    (hen : (rtuSystem (linuxConfig pduCb)).enabled s a) :
    ∀ c ∈ callsSince s (s.step a), c.Sound := by
  intro c hc
  obtain ⟨l, hl, hown⟩ := step_ownCalls hwf hen
  rw [callsSince, hl, List.append_assoc, List.drop_left] at hc
  rcases List.mem_append.mp hc with hc | hc
  · exact stepFrameCalls_sound s a c hc
  · exact hown.sound hwf c hc

/-- An entry point is called, and its calls carried out. -/
theorem enter_ends (hgood : slave.Good)
    (hen : (rtuSystem (linuxConfig pduCb)).enabled slave.state a) :
    Ends host.GivesUp (slave.Reaches host (slave.state.step a)) (slave.enter host a) := by
  have htells := (step_tells hgood.wf hen).tells
  refine (answers_end hgood.shown htells (step_sound hgood.wf hen)).bind fun impl' h => ?_
  exact ends_ok ⟨rfl, ⟨wf_invariant.step _ a hgood.wf hen,
    step_not_busy rfl hgood.wf hen hgood.notBusy, h.shows'⟩, h⟩

/-- A callback and its event. -/
theorem attend_ends (hgood : slave.Good)
    (hen : (rtuSystem (linuxConfig pduCb)).enabled slave.state a) :
    Ends host.GivesUp (slave.Reaches host (modbusRtuEvent (slave.state.step a)))
      (slave.attend host a) := by
  refine (enter_ends hgood hen).bind fun slave₁ h₁ => ?_
  refine (enter_ends h₁.good (enabled_event _)).mono fun slave₂ h₂ => ?_
  have hstate : slave₂.state = modbusRtuEvent (slave.state.step a) := by
    rw [h₂.state, h₁.state]
    rfl
  refine ⟨hstate, h₂.good, ?_⟩
  -- the calls of the event come behind those of the callback
  obtain ⟨l₁, hl₁⟩ := calls_step hgood.wf a
  obtain ⟨l₂, hl₂⟩ := calls_step h₁.good.wf .event
  have hcalls₁ : callsSince slave.state (slave.state.step a) = l₁ := by
    rw [callsSince, hl₁, List.drop_left]
  have hcalls₂ : callsSince slave₁.state (slave₁.state.step .event) = l₂ := by
    rw [callsSince, hl₂, List.drop_left]
  have hcalls : callsSince slave.state (modbusRtuEvent (slave.state.step a)) = l₁ ++ l₂ := by
    rw [← hstate, h₂.state, callsSince, hl₂, h₁.state, hl₁, List.append_assoc, List.drop_left]
  have hfirst := h₁.answers
  have hsecond := h₂.answers
  rw [hcalls₁] at hfirst
  rw [hcalls₂] at hsecond
  rw [hcalls]
  refine ⟨?_, hfirst.later.trans hsecond.later, ?_, ?_⟩
  · rw [← hstate]
    exact h₂.good.shown
  · intro hfresh
    apply hsecond.fresh
    rcases hfresh with hfresh | hany
    · exact .inl (hfirst.fresh (.inl hfresh))
    · rw [List.any_append, Bool.or_eq_true] at hany
      exact hany.imp (fun h => hfirst.fresh (.inr h)) id
  · intro hany
    rw [List.any_append, Bool.or_eq_true] at hany
    rcases hany with hany | hany
    · exact Nat.lt_of_lt_of_le (hfirst.reads hany) hsecond.later.readings
    · exact Nat.lt_of_le_of_lt hfirst.later.readings (hsecond.reads hany)

/-! ## Runs -/

/-- The slave has come from one state to another by the callbacks `acts`, each
followed by its event. -/
structure Ran (slave : LinuxSlave pduCb) (acts : List Action) (slave' : LinuxSlave pduCb) :
    Prop where
  legal : (rtuSystem (linuxConfig pduCb)).Legal slave.state (attended acts)
  state : slave'.state = (rtuSystem (linuxConfig pduCb)).run slave.state (attended acts)
  good : slave'.Good
  later : slave.impl.Later slave'.impl

variable {acts acts' : List Action}

theorem Good.ran (h : slave.Good) : slave.Ran [] slave := ⟨trivial, rfl, h, .refl _⟩

theorem Ran.trans (h : slave.Ran acts slave') (h' : slave'.Ran acts' slave'') :
    slave.Ran (acts ++ acts') slave'' := by
  refine ⟨?_, ?_, h'.good, h.later.trans h'.later⟩
  · rw [attended_append, System.legal_append, ← h.state]
    exact ⟨h.legal, h'.legal⟩
  · rw [attended_append, System.run_append, ← h.state]
    exact h'.state

theorem Reaches.ran (h : slave.Reaches host (modbusRtuEvent (slave.state.step a)) slave')
    (hen : (rtuSystem (linuxConfig pduCb)).enabled slave.state a) : slave.Ran [a] slave' :=
  ⟨⟨hen, enabled_event _, trivial⟩, h.state, h.good, h.answers.later⟩

theorem enabled_recv (s : State (linuxConfig pduCb)) (data : UInt8) :
    (rtuSystem (linuxConfig pduCb)).enabled s (.recv data) := fun h => Action.noConfusion h

/-- The bytes of a chunk, one after the other. -/
theorem recvBytes_ends (hgood : slave.Good) (chunk : List UInt8) :
    Ends host.GivesUp (slave.Ran (chunk.map .recv)) (slave.recvBytes host chunk) := by
  have hstep : ∀ (done : List UInt8) data (slave₁ : LinuxSlave pduCb),
      slave.Ran (done.map .recv) slave₁ →
        Ends host.GivesUp (slave.Ran ((done ++ [data]).map .recv))
          (slave₁.attend host (.recv data)) := by
    intro done data slave₁ h₁
    refine (attend_ends h₁.good (enabled_recv _ data)).mono fun slave₂ h₂ => ?_
    rw [List.map_append]
    exact h₁.trans (h₂.ran (enabled_recv _ data))
  have hnone : slave.Ran (List.map .recv []) slave := hgood.ran
  exact Ends.foldlM hstep hnone chunk

/-- The timeout of a running timer has a callback. -/
theorem timerCb_ne_null {s : State (linuxConfig pduCb)} (hwf : Wf s) (harmed : s.timer ≠ .stopped) :
    s.timerCb ≠ .null := by
  cases htimer : s.timer with
  | stopped => exact absurd htimer harmed
  | armed1t5 =>
      rw [(hwf.timer_frame (hwf.armed1t5_iff.mp htimer)).2]
      exact TimerCb.noConfusion
  | armed3t5 =>
      rw [(hwf.armed3t5 htimer).1]
      exact TimerCb.noConfusion

/-- The record after a reading of the clock. -/
theorem Good.read (h : slave.Good) :
    Good { slave with impl := (slave.impl.timestampUs host).2 } :=
  ⟨h.wf, h.notBusy, h.shown.known1t5, h.shown.known3t5, h.shown.timeout, h.shown.counted⟩

/-- The slave has looked at its timer. -/
inductive Polled (host : Host) (slave slave' : LinuxSlave pduCb) : Prop
  | stopped : slave.state.timer = .stopped → slave' = slave → Polled host slave slave'
  | running : slave.state.timer ≠ .stopped →
      host.clock slave.impl.readings <
        slave.impl.timer.timestampUs + slave.impl.timer.timeoutOf slave.state.timer →
      slave' = { slave with impl := (slave.impl.timestampUs host).2 } → Polled host slave slave'
  | timeout : slave.state.timer ≠ .stopped →
      slave.impl.timer.timestampUs + slave.impl.timer.timeoutOf slave.state.timer ≤
        host.clock slave.impl.readings →
      Reaches host { slave with impl := (slave.impl.timestampUs host).2 }
        (modbusRtuEvent (timerIsr slave.state)) slave' → Polled host slave slave'

/-- The timer is called if its time is over, and only then. -/
theorem timeoutImpl_ends (hgood : slave.Good) :
    Ends host.GivesUp (slave.Polled host) (slave.timeoutImpl host) := by
  unfold timeoutImpl
  by_cases hstop : slave.impl.timer.timeoutUs = -1
  · rw [if_pos hstop]
    exact ends_ok (.stopped (hgood.shown.stopped_iff.mp hstop) rfl)
  · rw [if_neg hstop]
    have harmed : slave.state.timer ≠ .stopped := mt hgood.shown.stopped_iff.mpr hstop
    have hread : Good { slave with impl := (slave.impl.timestampUs host).2 } := hgood.read
    have htimeout := hgood.shown.timeout
    dsimp only
    split
    · next hover =>
        rw [if_neg (timerCb_ne_null hgood.wf harmed)]
        refine (attend_ends hread fun _ => harmed).mono fun slave' h => .timeout harmed ?_ h
        rw [← htimeout]
        exact Int.add_le_of_le_sub_left hover
    · next hearly =>
        refine ends_ok (.running harmed ?_ rfl)
        rw [← htimeout]
        exact Int.lt_add_of_sub_left_lt (Int.not_le.mp hearly)

theorem Polled.ran (h : slave.Polled host slave') (hgood : slave.Good) :
    slave.Ran [] slave' ∨ slave.Ran [.timer] slave' := by
  have hlater : slave.impl.Later (slave.impl.timestampUs host).2 := ⟨rfl, rfl, Nat.le_succ _⟩
  cases h with
  | stopped _ heq => exact .inl (heq ▸ hgood.ran)
  | running _ _ heq => exact .inl (heq ▸ ⟨trivial, rfl, hgood.read, hlater⟩)
  | timeout harmed _ h =>
      exact .inr ⟨⟨fun _ => harmed, enabled_event _, trivial⟩, h.state, h.good,
        hlater.trans h.answers.later⟩

/-! ## The loop -/

/-- The bytes read by a loop over the rounds. -/
def bytesRead : List Round → List UInt8
  | [] => []
  | round :: rounds => round.chunk ++ if round.userEvent then [] else bytesRead rounds

/-- The callbacks are those of received bytes and of timeouts. -/
def Handled (acts : List Action) : Prop := ∀ a ∈ acts, a = .timer ∨ ∃ data, a = .recv data

theorem Handled.append (h : Handled acts) (h' : Handled acts') : Handled (acts ++ acts') :=
  fun a ha => (List.mem_append.mp ha).elim (h a) (h' a)

theorem handled_recv (chunk : List UInt8) : Handled (chunk.map .recv) := by
  intro a ha
  obtain ⟨data, -, rfl⟩ := List.mem_map.mp ha
  exact .inr ⟨data, rfl⟩

theorem received_append (l₁ l₂ : List Action) :
    received (l₁ ++ l₂) = received l₁ ++ received l₂ := by
  induction l₁ with
  | nil => rfl
  | cons a l₁ ih => cases a <;> simp [received, ih]

theorem received_recv (chunk : List UInt8) : received (chunk.map .recv) = chunk := by
  induction chunk with
  | nil => rfl
  | cons b chunk ih => exact congrArg (b :: ·) ih

/-- The slave has come by reading `bytes`, with timeouts anywhere. -/
def RanReading (slave : LinuxSlave pduCb) (bytes : List UInt8) (slave' : LinuxSlave pduCb) :
    Prop :=
  ∃ acts, slave.Ran acts slave' ∧ Handled acts ∧ received acts = bytes

theorem RanReading.trans {bytes bytes' : List UInt8} (h : slave.RanReading bytes slave')
    (h' : slave'.RanReading bytes' slave'') : slave.RanReading (bytes ++ bytes') slave'' := by
  obtain ⟨acts, hran, hacts, rfl⟩ := h
  obtain ⟨acts', hran', hacts', rfl⟩ := h'
  exact ⟨acts ++ acts', hran.trans hran', hacts.append hacts', received_append _ _⟩

theorem RanReading.good {bytes : List UInt8} (h : slave.RanReading bytes slave') :
    slave'.Good := by
  obtain ⟨acts, hran, -⟩ := h
  exact hran.good

/-- A run ends early if a reply does not get written, if a reading fails, or if
`tty_read` is interrupted in `read`. -/
inductive EndsEarly (host : Host) (rounds : List Round) : Check → Prop
  | reply {check} : host.GivesUp check → EndsEarly host rounds check
  | failed {round} : round ∈ rounds → round.reading = .failed → EndsEarly host rounds .device
  | behind {round} : round ∈ rounds → round.reading = .behind → EndsEarly host rounds .pastBuf

theorem EndsEarly.mono {rounds rounds' : List Round} (hsub : rounds ⊆ rounds') {check : Check}
    (h : EndsEarly host rounds check) : EndsEarly host rounds' check := by
  cases h with
  | reply h => exact .reply h
  | failed hmem heq => exact .failed (hsub hmem) heq
  | behind hmem heq => exact .behind (hsub hmem) heq

theorem recvImpl_ends (hgood : slave.Good) (round : Round) :
    Ends (EndsEarly host [round]) (slave.Ran (round.chunk.map .recv))
      (slave.recvImpl host round.reading) := by
  obtain ⟨reading, userEvent⟩ := round
  cases reading with
  | bytes chunk fits => exact (recvBytes_ends hgood chunk).weaken fun _ => .reply
  | behind =>
      refine ((recvBytes_ends hgood _).weaken fun _ => .reply).bind fun _ _ => ?_
      exact ends_error (.behind List.mem_cons_self rfl)
  | failed => exact ends_error (.failed List.mem_cons_self rfl)

/-- One round. -/
theorem round_ends (hgood : slave.Good) (round : Round) :
    Ends (EndsEarly host [round]) (slave.RanReading round.chunk)
      (slave.recvImpl host round.reading >>= timeoutImpl host) := by
  refine (recvImpl_ends hgood round).bind fun slave₁ h₁ => ?_
  refine ((timeoutImpl_ends h₁.good).weaken fun _ => .reply).mono fun slave₂ h₂ => ?_
  have hread : slave.RanReading round.chunk slave₁ :=
    ⟨_, h₁, handled_recv _, received_recv _⟩
  rw [← List.append_nil round.chunk]
  rcases h₂.ran h₁.good with h₂ | h₂
  · exact hread.trans ⟨[], h₂, fun a ha => absurd ha List.not_mem_nil, rfl⟩
  · refine hread.trans ⟨[.timer], h₂, ?_, rfl⟩
    intro a ha
    exact .inl (List.mem_singleton.mp ha)

theorem loop_ends (hgood : slave.Good) (rounds : List Round) :
    Ends (EndsEarly host rounds) (slave.RanReading (bytesRead rounds))
      (slave.loop host rounds) := by
  induction rounds generalizing slave with
  | nil => exact ends_ok ⟨[], hgood.ran, fun a ha => absurd ha List.not_mem_nil, rfl⟩
  | cons round rounds ih =>
      have hround : Ends (EndsEarly host (round :: rounds)) (slave.RanReading round.chunk)
          (slave.recvImpl host round.reading >>= timeoutImpl host) :=
        (round_ends hgood round).weaken fun _ =>
          EndsEarly.mono (List.cons_subset_cons round (List.nil_subset rounds))
      have hloop : slave.loop host (round :: rounds) =
          (slave.recvImpl host round.reading >>= timeoutImpl host) >>= fun slave' =>
            if round.userEvent then return slave' else slave'.loop host rounds := by
        rw [bind_assoc]
        rfl
      rw [hloop]
      refine hround.bind fun slave₁ h₁ => ?_
      unfold bytesRead
      split
      · rw [List.append_nil]
        exact ends_ok h₁
      · refine ((ih h₁.good).weaken fun _ => EndsEarly.mono (List.subset_cons_self _ _)).mono ?_
        exact fun slave₂ h₂ => h₁.trans h₂

/-! ## The program -/

theorem start_good (rate : Speed) (timeout1t5Us timeout3t5Us : Int) (userData : U) :
    (start host rate timeout1t5Us timeout3t5Us userData : LinuxSlave pduCb).Good := by
  refine ⟨modbusRtuInit_wf userData, RtuState.noConfusion, ?_, ?_, rfl, rfl⟩
  · show (if timeout1t5Us = -1 then (calc1t5Us rate : Int) else timeout1t5Us) ≠ -1
    split <;> omega
  · show (if timeout3t5Us = -1 then (calc3t5Us rate : Int) else timeout3t5Us) ≠ -1
    split <;> omega

/-- The first event and the loop behind it. -/
theorem modbusRtuRun_ends (rate : Speed) (timeout1t5Us timeout3t5Us : Int) (userData : U)
    (rounds : List Round) :
    Ends (EndsEarly host rounds)
      (fun slave : LinuxSlave pduCb => slave.Good ∧
        (start host rate timeout1t5Us timeout3t5Us userData : LinuxSlave pduCb).impl.Later
          slave.impl ∧
        ∃ acts, Handled acts ∧ received acts = bytesRead rounds ∧
          (rtuSystem (linuxConfig pduCb)).Legal (modbusRtuInit _ userData)
            (.event :: attended acts) ∧
          slave.state = (rtuSystem (linuxConfig pduCb)).run (modbusRtuInit _ userData)
            (.event :: attended acts))
      (modbusRtuRun host rate timeout1t5Us timeout3t5Us userData rounds) := by
  refine ((enter_ends (start_good _ _ _ _) (enabled_event _)).weaken fun _ => .reply).bind
    fun slave₁ h₁ => ?_
  refine (loop_ends h₁.good rounds).mono fun slave₂ h₂ => ?_
  obtain ⟨acts, hran, hacts, hbytes⟩ := h₂
  have hlegal := hran.legal
  have hstate := hran.state
  rw [h₁.state] at hlegal hstate
  exact ⟨hran.good, h₁.answers.later.trans hran.later, acts, hacts, hbytes,
    ⟨enabled_event _, hlegal⟩, hstate⟩

/-- Whatever the rate, the timeouts, the clock and the bytes: a run of the
program ends early only through the device (`EndsEarly`), and otherwise it is a
run of the state machine on the bytes read, from `modbus_rtu_init` and a first
event on, with one event behind each callback. At its end the timer record
shows the timer of the state machine. -/
theorem modbusRtuRun_simulates (rate : Speed) (timeout1t5Us timeout3t5Us : Int) (userData : U)
    (rounds : List Round) :
    Ends (EndsEarly host rounds)
      (fun slave : LinuxSlave pduCb => ∃ acts, Handled acts ∧ received acts = bytesRead rounds ∧
        (rtuSystem (linuxConfig pduCb)).Legal (modbusRtuInit _ userData)
          (.event :: attended acts) ∧
        slave.state = (rtuSystem (linuxConfig pduCb)).run (modbusRtuInit _ userData)
          (.event :: attended acts) ∧
        slave.impl.Shows slave.state.timer)
      (modbusRtuRun host rate timeout1t5Us timeout3t5Us userData rounds) := by
  refine (modbusRtuRun_ends rate timeout1t5Us timeout3t5Us userData rounds).mono ?_
  rintro slave ⟨hgood, -, acts, hacts, hbytes, hlegal, hstate⟩
  exact ⟨acts, hacts, hbytes, hlegal, hstate, hgood.shown⟩

end LinuxSlave

end ModbusRtu
