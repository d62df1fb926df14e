import ModbusRtu.Theorems.LinuxTiming
import ModbusRtu.Theorems.Settling

/-!
# Frames at the Linux slave

The bytes of a frame come in as the device gives them: in any number of reads,
with a look at the timer behind each. As long as they follow each other fast
enough no look finds a timer run out (`reads_ran`), and once nothing comes the
timers run out one after the other (`silence_ran`). So the program hears a
frame as the state machine does, however it is cut up, and takes those that a
receiver which goes deaf takes (`takes_survivors`). It never waits forever: if
the clock goes on, silence brings it to rest (`comes_to_rest`).
-/

namespace ModbusRtu

open Base

variable {U : Type} {pduCb : U → PduArgs → U × List UInt8} {host : Host}

/-! ## Between two rounds -/

section

variable {cfg : Config U} {s : State cfg}

/-- Behind an event nothing is left to handle, unless the event has rejected a
frame, if `serial_send` waits for the end of the transmission. -/
theorem event_leaves (hsync : cfg.serialSend = .sync) (hwf : Wf s) :
    (modbusRtuEvent s).status.updated = false ∨ AtRest true (modbusRtuEvent s) := by
  rcases event_outcome hwf with hup | ⟨hh, hbusy, -⟩ | hrest
  · exact .inl hup
  · refine absurd hbusy (event_not_busy hsync hwf ?_)
    rw [hh.curr]
    decide
  · exact .inr hrest

/-- So it is along attended runs. -/
theorem attended_leaves (hsync : cfg.serialSend = .sync) (hwf : Wf s)
    (hleft : s.status.updated = false ∨ AtRest true s) {acts : List Action}
    (hlegal : (rtuSystem cfg).Legal s (attended acts)) :
    ((rtuSystem cfg).run s (attended acts)).status.updated = false ∨
      AtRest true ((rtuSystem cfg).run s (attended acts)) := by
  induction acts generalizing s with
  | nil => exact hleft
  | cons a acts ih =>
      have hwf' : Wf (s.step a) := wf_invariant.step s a hwf hlegal.1
      exact ih (modbusRtuEvent_wf hwf') (event_leaves hsync hwf') hlegal.2.2

end

namespace LinuxSlave

variable {slave slave' slave'' : LinuxSlave pduCb}

/-! ## The program between two rounds -/

/-- The slave as it is between two rounds. -/
structure Between (slave : LinuxSlave pduCb) : Prop where
  good : slave.Good
  left : slave.state.status.updated = false ∨ AtRest true slave.state

theorem Ran.between {acts : List Action} (h : slave.Ran acts slave') (hbetween : slave.Between) :
    slave'.Between := by
  refine ⟨h.good, ?_⟩
  rw [h.state]
  exact attended_leaves rfl hbetween.good.wf hbetween.left h.legal

/-- With no timer running the slave is at rest. -/
theorem Between.atRest (h : slave.Between) (hstop : slave.impl.timer.timeoutUs = -1) :
    AtRest slave.state.status.error slave.state :=
  atRest_of_stopped h.good.wf h.good.notBusy h.left (h.good.shown.stopped_iff.mp hstop)

theorem modbusRtuRun_between {rate : Speed} {timeout1t5Us timeout3t5Us : Int} {userData : U}
    {rounds : List Round}
    (hrun : modbusRtuRun host rate timeout1t5Us timeout3t5Us userData rounds = .ok slave) :
    slave.Between := by
  obtain ⟨hgood, -, acts, -, -, hlegal, hstate⟩ := (modbusRtuRun_ends _ _ _ _ _).of_ok hrun
  have hwf : Wf (modbusRtuInit (linuxConfig pduCb) userData) := modbusRtuInit_wf userData
  refine ⟨hgood, ?_⟩
  rw [hstate]
  exact attended_leaves rfl (modbusRtuEvent_wf hwf) (event_leaves rfl hwf) hlegal.2

/-! ## At the pace of the line -/

/-- The round comes back with bytes, or with none, and the loop goes on. -/
def Round.Reads (round : Round) : Prop := ∃ chunk fits, round = ⟨.bytes chunk fits, false⟩

/-- In each round the look at a running timer comes less than 1.5t behind the
last time stamp. -/
def InPace (host : Host) : LinuxSlave pduCb → List Round → Prop
  | _, [] => True
  | slave, round :: rounds => ∀ slave₁, slave.recvImpl host round.reading = .ok slave₁ →
      (slave₁.impl.timer.timeoutUs ≠ -1 → host.clock slave₁.impl.readings <
        slave₁.impl.timer.timestampUs + slave₁.impl.timer.timeout1t5Us) ∧
      ∀ slave₂, slave₁.timeoutImpl host = .ok slave₂ → InPace host slave₂ rounds

/-- A look at the timer that comes soon enough. -/
theorem Polled.ran_in_pace (h : slave.Polled host slave') (hgood : slave.Good)
    (hle : slave.impl.timer.timeout1t5Us ≤ slave.impl.timer.timeout3t5Us)
    (hsoon : slave.impl.timer.timeoutUs ≠ -1 → host.clock slave.impl.readings <
      slave.impl.timer.timestampUs + slave.impl.timer.timeout1t5Us) : slave.Ran [] slave' := by
  cases h with
  | stopped _ heq => exact heq ▸ hgood.ran
  | running _ _ heq => exact heq ▸ ⟨trivial, rfl, hgood.read, rfl, rfl, Nat.le_succ _⟩
  | timeout harmed hover h =>
      have hearly := hsoon (mt hgood.shown.stopped_iff.mp harmed)
      have htimeout : slave.impl.timer.timeout1t5Us ≤
          slave.impl.timer.timeoutOf slave.state.timer := by
        cases htimer : slave.state.timer with
        | stopped => exact absurd htimer harmed
        | armed1t5 => exact Int.le_refl _
        | armed3t5 => exact hle
      omega

/-- A round of the loop, and the rest of them. -/
theorem exists_of_loop_cons {round : Round} {rounds : List Round}
    (hevent : round.userEvent = false) (hloop : slave.loop host (round :: rounds) = .ok slave'') :
    ∃ slave₁ slave₂, slave.recvImpl host round.reading = .ok slave₁ ∧
      slave₁.timeoutImpl host = .ok slave₂ ∧ slave₂.loop host rounds = .ok slave'' := by
  rw [loop] at hloop
  obtain ⟨slave₁, hrecv, hrest⟩ := exists_of_bind_ok hloop
  obtain ⟨slave₂, htimeout, hrest⟩ := exists_of_bind_ok hrest
  rw [hevent] at hrest
  exact ⟨slave₁, slave₂, hrecv, htimeout, hrest⟩

/-- Rounds that read at the pace of the line: the bytes come in, and no timer runs out. -/
theorem reads_ran (hgood : slave.Good)
    (hle : slave.impl.timer.timeout1t5Us ≤ slave.impl.timer.timeout3t5Us) {rounds : List Round}
    (hreads : ∀ round ∈ rounds, round.Reads) (hpace : slave.InPace host rounds)
    (hloop : slave.loop host rounds = .ok slave') :
    slave.Ran ((rounds.flatMap Round.chunk).map .recv) slave' := by
  induction rounds generalizing slave with
  | nil =>
      obtain rfl := Except.ok.inj hloop
      exact hgood.ran
  | cons round rounds ih =>
      obtain ⟨chunk, fits, rfl⟩ := hreads round List.mem_cons_self
      obtain ⟨slave₁, slave₂, hrecv, htimeout, hrest⟩ := exists_of_loop_cons rfl hloop
      obtain ⟨hsoon, hpace⟩ := hpace slave₁ hrecv
      have hran₁ : slave.Ran (chunk.map .recv) slave₁ := (recvBytes_ends hgood chunk).of_ok hrecv
      have hle₁ : slave₁.impl.timer.timeout1t5Us ≤ slave₁.impl.timer.timeout3t5Us := by
        rwa [hran₁.later.timeout1t5, hran₁.later.timeout3t5]
      have hran₂ : slave₁.Ran [] slave₂ :=
        ((timeoutImpl_ends hran₁.good).of_ok htimeout).ran_in_pace hran₁.good hle₁ hsoon
      have hle₂ : slave₂.impl.timer.timeout1t5Us ≤ slave₂.impl.timer.timeout3t5Us := by
        rwa [hran₂.later.timeout1t5, hran₂.later.timeout3t5]
      have hran := (hran₁.trans hran₂).trans (ih hran₂.good hle₂
        (fun r hr => hreads r (List.mem_cons_of_mem _ hr)) (hpace slave₂ htimeout) hrest)
      rw [List.append_nil] at hran
      rwa [List.flatMap_cons, List.map_append]

/-- Rounds without bytes let the timers run out, one after the other. -/
theorem silence_ran {acts : List Action} (hran : slave.Ran acts slave') (n : Nat) :
    Ends host.GivesUp (fun slave'' => ∃ k, slave.Ran (acts ++ List.replicate k .timer) slave'')
      (slave'.loop host (List.replicate n silent)) := by
  refine silent_ends ?_ ⟨0, by rwa [List.replicate_zero, List.append_nil]⟩
  rintro slave₁ ⟨k, hran₁⟩
  refine (timeoutImpl_ends hran₁.good).mono fun slave₂ h => ?_
  rcases h.ran hran₁.good with h | h
  · have hboth := hran₁.trans h
    rw [List.append_nil] at hboth
    exact ⟨k, hboth⟩
  · have hboth := hran₁.trans h
    rw [List.append_assoc] at hboth
    exact ⟨k + 1, by rwa [List.replicate_succ']⟩

/-! ## Silence -/

end LinuxSlave

/-- The clock goes on: whatever the time, from some reading on it is over. -/
def Host.GoesOn (host : Host) : Prop := ∀ t, ∃ n, ∀ m, n ≤ m → t ≤ host.clock m

theorem steadyHost_goesOn {interval : Int} (h : 0 < interval) : (steadyHost interval).GoesOn := by
  intro t
  refine ⟨t.toNat, ?_⟩
  intro m hm
  have hle : 1 * (m : Int) ≤ interval * m :=
    Int.mul_le_mul_of_nonneg_right h (Int.natCast_nonneg m)
  show t ≤ interval * (m : Int)
  omega

/-- All replies get written. -/
def Host.Writes (host : Host) : Prop := ∀ n adu timeout, host.writes n adu timeout = .whole

namespace LinuxSlave

variable {slave slave' slave'' : LinuxSlave pduCb}

/-- One round without bytes, and the rest of them. -/
theorem loop_silent {n : Nat} (h : slave.timeoutImpl host = .ok slave')
    (hrest : slave'.loop host (List.replicate n silent) = .ok slave'') :
    slave.loop host (List.replicate (n + 1) silent) = .ok slave'' := by
  rw [List.replicate_succ]
  show (slave.timeoutImpl host >>= fun t => t.loop host (List.replicate n silent)) = _
  rw [h]
  exact hrest

theorem loop_silent_add {m n : Nat} (h : slave.loop host (List.replicate m silent) = .ok slave')
    (hrest : slave'.loop host (List.replicate n silent) = .ok slave'') :
    slave.loop host (List.replicate (m + n) silent) = .ok slave'' := by
  induction m generalizing slave with
  | zero =>
      obtain rfl := Except.ok.inj h
      rwa [Nat.zero_add]
  | succ m ih =>
      rw [List.replicate_succ] at h
      obtain ⟨t, ht, hloop⟩ : ∃ t, slave.timeoutImpl host = .ok t ∧
          t.loop host (List.replicate m silent) = .ok slave' := by
        change (slave.timeoutImpl host >>= fun t => t.loop host (List.replicate m silent)) = _ at h
        cases ht : slave.timeoutImpl host with
        | ok t =>
            rw [ht] at h
            exact ⟨t, rfl, h⟩
        | error check =>
            rw [ht] at h
            cases h
      rw [Nat.succ_add]
      exact loop_silent ht (ih hloop)

theorem not_givesUp (hwrites : host.Writes) (check : Check) : ¬host.GivesUp check := by
  rintro (h | h) <;> rw [hwrites] at h <;> exact Writing.noConfusion h

/-- A running timer runs out, once the clock has gone on for long enough. -/
theorem fires (hwrites : host.Writes) (hgood : slave.Good)
    (harmed : slave.state.timer ≠ .stopped) {r : Nat}
    (hover : ∀ m, r ≤ m → slave.impl.timer.timestampUs +
      slave.impl.timer.timeoutOf slave.state.timer ≤ host.clock m) :
    ∃ n slave', slave.loop host (List.replicate n silent) = .ok slave' ∧ slave'.Good ∧
      slave'.state = modbusRtuEvent (timerIsr slave.state) := by
  have hnever : ∀ check, ¬host.GivesUp check := not_givesUp hwrites
  -- each look at the timer brings the reading `r` nearer
  obtain ⟨d, hd⟩ : ∃ d, r ≤ slave.impl.readings + d := ⟨r, Nat.le_add_left _ _⟩
  induction d generalizing slave with
  | zero =>
      obtain ⟨slave', hpoll, h⟩ := (timeoutImpl_ends hgood).exists_ok hnever
      cases h with
      | stopped hstop _ => exact absurd hstop harmed
      | running _ hearly _ => exact absurd (hover _ hd) (Int.not_le.mpr hearly)
      | timeout _ _ h => exact ⟨1, slave', loop_silent hpoll rfl, h.good, h.state⟩
  | succ d ih =>
      obtain ⟨slave', hpoll, h⟩ := (timeoutImpl_ends hgood).exists_ok hnever
      cases h with
      | stopped hstop _ => exact absurd hstop harmed
      | running _ _ heq =>
          subst heq
          obtain ⟨n, slave'', hloop, hrest⟩ := ih hgood.read harmed hover (by
            show r ≤ slave.impl.readings + 1 + d
            omega)
          exact ⟨n + 1, slave'', loop_silent hpoll hloop, hrest⟩
      | timeout _ _ h => exact ⟨1, slave', loop_silent hpoll rfl, h.good, h.state⟩

/-- The timeouts that bring the machine to rest come one after the other. -/
theorem calms_silently (hgoes : host.GoesOn)
    (hwrites : host.Writes) {k : Nat}
    {s t : State (linuxConfig pduCb)} (h : Calms k s t) (hgood : slave.Good)
    (hstate : slave.state = s) :
    ∃ n slave', slave.loop host (List.replicate n silent) = .ok slave' ∧
      slave'.impl.timer.timeoutUs = -1 ∧
      slave'.state =
        (rtuSystem (linuxConfig pduCb)).run s (attended (List.replicate k .timer)) := by
  induction h generalizing slave with
  | @rest deaf s hrest =>
      rw [← hstate] at hrest
      have hstop : slave.state.timer = .stopped := hrest.wf.timer_idle hrest.curr
      exact ⟨0, slave, rfl, hgood.shown.stopped_iff.mpr hstop, hstate⟩
  | sent hbusy => exact absurd (hstate ▸ hbusy) hgood.notBusy
  | @timeout k s t harmed _ ih =>
      rw [← hstate] at harmed
      obtain ⟨r, hover⟩ := hgoes (slave.impl.timer.timestampUs +
        slave.impl.timer.timeoutOf slave.state.timer)
      obtain ⟨m, slave₁, hloop, hgood₁, hstate₁⟩ := fires hwrites hgood harmed hover
      rw [hstate] at hstate₁
      obtain ⟨n, slave₂, hloop₂, hstop, hrun⟩ := ih hgood₁ hstate₁
      exact ⟨m + n, slave₂, loop_silent_add hloop hloop₂, hstop, hrun⟩

/-- From between two rounds silence brings the program to rest. -/
theorem Between.rests (hbetween : slave.Between) (hgoes : host.GoesOn)
    (hwrites : host.Writes) :
    ∃ n k slave', k ≤ 3 ∧ slave.loop host (List.replicate n silent) = .ok slave' ∧
      slave'.impl.timer.timeoutUs = -1 ∧ slave'.state.status.curr = .idle ∧
      slave'.state = (rtuSystem (linuxConfig pduCb)).run slave.state
        (attended (List.replicate k .timer)) := by
  have hcalms : CalmsWithin 3 slave.state := by
    rcases hbetween.left with hup | hrest
    · exact calms_of_not_updated hbetween.good.wf hup
    · exact hrest.calms.mono (by decide)
  obtain ⟨k, t, deaf, hk, hcalms, -⟩ := hcalms
  obtain ⟨n, slave', hloop, hstop, hstate⟩ :=
    calms_silently hgoes hwrites hcalms hbetween.good rfl
  obtain ⟨acts, hran, -⟩ := (loop_ends hbetween.good _).of_ok hloop
  exact ⟨n, k, slave', hk, hloop, hstop, ((hran.between hbetween).atRest hstop).curr, hstate⟩

/-- In every run of the program, with any timeouts, if the clock goes on and
replies get written: rounds without bytes bring it to rest, with no timer
running, and it takes at most three timeouts. -/
theorem comes_to_rest (hgoes : host.GoesOn)
    (hwrites : host.Writes) {rate : Speed}
    {timeout1t5Us timeout3t5Us : Int} {userData : U} {rounds : List Round}
    (hrun : modbusRtuRun host rate timeout1t5Us timeout3t5Us userData rounds = .ok slave) :
    ∃ n k slave', k ≤ 3 ∧ slave.loop host (List.replicate n silent) = .ok slave' ∧
      slave'.impl.timer.timeoutUs = -1 ∧ slave'.state.status.curr = .idle ∧
      slave'.state = (rtuSystem (linuxConfig pduCb)).run slave.state
        (attended (List.replicate k .timer)) :=
  (modbusRtuRun_between hrun).rests hgoes hwrites

/-- A slave that is switched on. -/
theorem comes_to_rest_power_up :
    ∃ slave slave' : LinuxSlave (U := Unit) fun u _ => (u, []),
      modbusRtuRun (steadyHost 500) .b1200 (-1) (-1) () [] = .ok slave ∧
      (∃ n, slave.loop (steadyHost 500) (List.replicate n silent) = .ok slave') ∧
      slave'.impl.timer.timeoutUs = -1 := by
  obtain ⟨slave, hrun⟩ : ∃ slave : LinuxSlave (U := Unit) fun u _ => (u, []),
      modbusRtuRun (steadyHost 500) .b1200 (-1) (-1) () [] = .ok slave := ⟨_, rfl⟩
  obtain ⟨n, k, slave', -, hloop, hstop, -⟩ :=
    comes_to_rest (steadyHost_goesOn (by decide)) (fun _ _ _ => rfl) hrun
  exact ⟨slave, slave', hrun, ⟨n, hloop⟩, hstop⟩

/-! ## Frames -/

/-- The bytes of the frame are read, in any number of rounds and at the pace of
the line, and then nothing is read until no timer runs. -/
def Hears (host : Host) (slave : LinuxSlave pduCb) (frame : List UInt8)
    (slave' : LinuxSlave pduCb) : Prop :=
  ∃ rounds slave₁ n, (∀ round ∈ rounds, round.Reads) ∧ rounds.flatMap Round.chunk = frame ∧
    slave.InPace host rounds ∧ slave.loop host rounds = .ok slave₁ ∧
    slave₁.loop host (List.replicate n silent) = .ok slave' ∧ slave'.impl.timer.timeoutUs = -1

/-- Frames are read one after the other. -/
inductive HearsAll (host : Host) : LinuxSlave pduCb → List (List UInt8) → LinuxSlave pduCb → Prop
  | nothing (t : LinuxSlave pduCb) : HearsAll host t [] t
  | frame {t t₁ t' : LinuxSlave pduCb} {f frames} : t.Hears host f t₁ →
      HearsAll host t₁ frames t' → HearsAll host t (f :: frames) t'

variable {f : List UInt8} {frames : List (List UInt8)}

/-- A frame is heard as the state machine hears it, however it is cut up. -/
theorem Hears.ran (h : slave.Hears host f slave') (hbetween : slave.Between)
    (hle : slave.impl.timer.timeout1t5Us ≤ slave.impl.timer.timeout3t5Us) :
    Exchange slave.state f slave'.state ∧ slave'.Between ∧ slave.impl.Later slave'.impl := by
  obtain ⟨rounds, slave₁, n, hreads, rfl, hpace, hloop, hsilence, hstop⟩ := h
  have hread := reads_ran hbetween.good hle hreads hpace hloop
  obtain ⟨k, hran⟩ := (silence_ran hread n).of_ok hsilence
  refine ⟨.silent ⟨k, hran.legal, hran.state, ?_⟩ hran.good.notBusy, hran.between hbetween,
    hran.later⟩
  exact hran.good.shown.stopped_iff.mp hstop

theorem HearsAll.traffic (h : HearsAll host slave frames slave') (hbetween : slave.Between)
    (hle : slave.impl.timer.timeout1t5Us ≤ slave.impl.timer.timeout3t5Us) :
    Traffic slave.state frames slave'.state := by
  induction h with
  | nothing => exact .nothing _
  | frame hhears _ ih =>
      obtain ⟨hexch, hbetween', hlater⟩ := hhears.ran hbetween hle
      refine .frame hexch (ih hbetween' ?_)
      rwa [hlater.timeout1t5, hlater.timeout3t5]

/-- The timeouts the program runs with. -/
theorem modbusRtuRun_timeouts {rate : Speed} {timeout1t5Us timeout3t5Us : Int} {userData : U}
    {rounds : List Round}
    (hrun : modbusRtuRun host rate timeout1t5Us timeout3t5Us userData rounds = .ok slave) :
    slave.impl.timer.timeout1t5Us =
        (if timeout1t5Us = -1 then (calc1t5Us rate : Int) else timeout1t5Us) ∧
      slave.impl.timer.timeout3t5Us =
        (if timeout3t5Us = -1 then (calc3t5Us rate : Int) else timeout3t5Us) := by
  obtain ⟨-, hlater, -⟩ := (modbusRtuRun_ends _ _ _ _ _).of_ok hrun
  exact ⟨hlater.timeout1t5, hlater.timeout3t5⟩

theorem calc1t5Us_le (rate : Speed) : calc1t5Us rate ≤ calc3t5Us rate := by
  cases rate <;> decide

theorem timeouts_le_of_run {rate : Speed} {userData : U} {rounds : List Round}
    (hrun : modbusRtuRun host rate (-1) (-1) userData rounds = .ok slave) :
    slave.impl.timer.timeout1t5Us ≤ slave.impl.timer.timeout3t5Us := by
  obtain ⟨h1t5, h3t5⟩ := modbusRtuRun_timeouts hrun
  rw [h1t5, h3t5, if_pos rfl, if_pos rfl]
  exact Int.ofNat_le.mpr (calc1t5Us_le rate)

/-- Behind a round with bytes the time stamp is the last reading of the clock. -/
theorem inPace_of_quick {d : Int} (hquick : ∀ n, host.clock (n + 1) < host.clock n + d)
    (hd : slave.impl.timer.timeout1t5Us = d) (hgood : slave.Good) {rounds : List Round}
    (hreads : ∀ round ∈ rounds, round.Reads) (hne : ∀ round ∈ rounds, round.chunk ≠ []) :
    slave.InPace host rounds := by
  induction rounds generalizing slave with
  | nil => trivial
  | cons round rounds ih =>
      obtain ⟨chunk, fits, rfl⟩ := hreads round List.mem_cons_self
      intro slave₁ hrecv
      obtain ⟨hgood₁, hlater₁, -, hread⟩ := (recvBytes_read hgood chunk).of_ok hrecv
      refine ⟨fun _ => ?_, fun slave₂ htimeout => ?_⟩
      · obtain ⟨n, hn, hstamp⟩ := (hread (hne _ List.mem_cons_self)).fresh
        rw [hn, hstamp, hlater₁.timeout1t5, hd]
        exact hquick n
      · have hpolled := ((timeoutImpl_ends hgood₁).of_ok htimeout).ran hgood₁
        obtain ⟨hgood₂, hlater₂⟩ : slave₂.Good ∧ slave₁.impl.Later slave₂.impl := by
          rcases hpolled with hran | hran <;> exact ⟨hran.good, hran.later⟩
        refine ih ?_ hgood₂ (fun r hr => hreads r (List.mem_cons_of_mem _ hr))
          fun r hr => hne r (List.mem_cons_of_mem _ hr)
        rw [hlater₂.timeout1t5, hlater₁.timeout1t5, hd]

/-- Rounds that read do not end the run. -/
theorem not_endsEarly (hwrites : host.Writes) {rounds : List Round}
    (hreads : ∀ round ∈ rounds, round.Reads) (check : Check) : ¬EndsEarly host rounds check := by
  rintro (h | ⟨hmem, heq⟩ | ⟨hmem, heq⟩)
  · exact not_givesUp hwrites check h
  all_goals
    obtain ⟨chunk, fits, rfl⟩ := hreads _ hmem
    exact Reading.noConfusion heq

/-- A host that keeps pace hears any frame, however it is cut up. -/
theorem exists_hears (hgoes : host.GoesOn) (hwrites : host.Writes) (hbetween : slave.Between)
    (hle : slave.impl.timer.timeout1t5Us ≤ slave.impl.timer.timeout3t5Us) {rounds : List Round}
    (hreads : ∀ round ∈ rounds, round.Reads) (hpace : slave.InPace host rounds) :
    ∃ slave', slave.Hears host (rounds.flatMap Round.chunk) slave' := by
  obtain ⟨slave₁, hloop, -⟩ :=
    (loop_ends hbetween.good rounds).exists_ok (not_endsEarly hwrites hreads)
  have hran := reads_ran hbetween.good hle hreads hpace hloop
  obtain ⟨n, k, slave', -, hsilence, hstop, -⟩ := (hran.between hbetween).rests hgoes hwrites
  exact ⟨slave', rounds, slave₁, n, hreads, rfl, hpace, hloop, hsilence, hstop⟩

/-- Two readings of the clock in every millisecond keep pace at 19200 baud. -/
theorem steadyHost_inPace {userData : U} {rounds rounds' : List Round}
    (hrun : modbusRtuRun (steadyHost 500) .b19200 (-1) (-1) userData rounds = .ok slave)
    (hreads : ∀ round ∈ rounds', round.Reads) (hne : ∀ round ∈ rounds', round.chunk ≠ []) :
    slave.InPace (steadyHost 500) rounds' := by
  have hquick : ∀ n, (steadyHost 500).clock (n + 1) < (steadyHost 500).clock n + 750 := by
    intro n
    show (500 * (n + 1 : Nat) : Int) < 500 * n + 750
    omega
  exact inPace_of_quick hquick (modbusRtuRun_timeouts hrun).1 (modbusRtuRun_between hrun).good
    hreads hne

/-- In every run of the program, with the timeouts of any rate, once no timer
runs: over any sequence of frames, good and bad, each read in any number of
rounds that keep pace (`InPace`) and followed by silence, `pdu_cb` is called for
those a receiver which goes deaf takes, each once and byte by byte as it came
in. -/
theorem takes_survivors {rate : Speed} {userData : U} {rounds : List Round}
    (hrun : modbusRtuRun host rate (-1) (-1) userData rounds = .ok slave)
    (hstop : slave.impl.timer.timeoutUs = -1) (hne : ∀ f ∈ frames, f ≠ [])
    (h : HearsAll host slave frames slave') :
    (pduCalls (callsSince slave.state slave'.state)).map PduArgs.frame =
      (frameHearing aduCapacity).survivors slave.state.status.error frames := by
  have hbetween : slave.Between := modbusRtuRun_between hrun
  exact (h.traffic hbetween (timeouts_le_of_run hrun)).delivered (hbetween.atRest hstop) hne

/-- None of the first timeouts finds an error. -/
theorem power_up_quiet (pduCb : U → PduArgs → U × List UInt8) (userData : U) {k : Nat}
    (hk : k ≤ 3) :
    let state := (rtuSystem (linuxConfig pduCb)).run
      (modbusRtuEvent (modbusRtuInit (linuxConfig pduCb) userData))
      (attended (List.replicate k .timer))
    state.status.error = false ∧ state.userData = userData := by
  match k, hk with
  | 0, _ | 1, _ | 2, _ | 3, _ => exact ⟨rfl, rfl⟩

/-- A slave that is switched on comes to rest, and has met no error. -/
theorem powers_up (hgoes : host.GoesOn)
    (hwrites : host.Writes)
    (pduCb : U → PduArgs → U × List UInt8) (rate : Speed) (userData : U) :
    ∃ n, ∃ slave : LinuxSlave pduCb,
      modbusRtuRun host rate (-1) (-1) userData (List.replicate n silent) = .ok slave ∧
      slave.impl.timer.timeoutUs = -1 ∧ slave.state.status.error = false ∧
      slave.state.userData = userData := by
  obtain ⟨slave, hrun, hstate⟩ : ∃ slave : LinuxSlave pduCb,
      modbusRtuRun host rate (-1) (-1) userData [] = .ok slave ∧
        slave.state = modbusRtuEvent (modbusRtuInit (linuxConfig pduCb) userData) :=
    ⟨_, rfl, rfl⟩
  obtain ⟨n, k, slave', hk, hloop, hstop, -, hstate'⟩ :=
    (modbusRtuRun_between hrun).rests hgoes hwrites
  rw [hstate] at hstate'
  refine ⟨n, slave', ?_, hstop, ?_⟩
  · cases hstart : (start host rate (-1) (-1) userData).enter host .event with
    | error check =>
        rw [modbusRtuRun, hstart] at hrun
        cases hrun
    | ok t =>
        rw [modbusRtuRun, hstart] at hrun ⊢
        obtain rfl : t = slave := Except.ok.inj hrun
        exact hloop
  · rw [hstate']
    exact power_up_quiet pduCb userData hk

/-- A frame that is read in two rounds. -/
theorem takes_survivors_two_reads :
    ∃ n, ∃ slave slave' : LinuxSlave (U := Unit) fun u _ => (u, []),
      modbusRtuRun (steadyHost 500) .b19200 (-1) (-1) () (List.replicate n silent) = .ok slave ∧
      HearsAll (steadyHost 500) slave [withCrc [1, 3]] slave' ∧
      (pduCalls (callsSince slave.state slave'.state)).map PduArgs.frame = [withCrc [1, 3]] := by
  have hgoes : (steadyHost 500).GoesOn := steadyHost_goesOn (by decide)
  obtain ⟨n, slave, hrun, hstop, herr, -⟩ :=
    powers_up hgoes (fun _ _ _ => rfl) (fun u _ => (u, [])) .b19200 ()
  let rounds : List Round := [⟨.bytes [1] (by decide), false⟩,
    ⟨.bytes ((withCrc [1, 3]).drop 1) (by decide), false⟩]
  have hreads : ∀ round ∈ rounds, round.Reads :=
    List.forall_mem_cons.mpr ⟨⟨_, _, rfl⟩, List.forall_mem_singleton.mpr ⟨_, _, rfl⟩⟩
  obtain ⟨slave', hhears⟩ := exists_hears hgoes (fun _ _ _ => rfl) (modbusRtuRun_between hrun)
    (timeouts_le_of_run hrun) hreads (steadyHost_inPace hrun hreads (by decide))
  have hall : HearsAll (steadyHost 500) slave [withCrc [1, 3]] slave' :=
    .frame hhears (.nothing slave')
  refine ⟨n, slave, slave', hrun, hall, ?_⟩
  rw [takes_survivors hrun hstop (by decide) hall, herr]
  decide

end LinuxSlave

end ModbusRtu
