import ModbusRtu.Code.Memory
import ModbusRtu.Logic.FramePhases

/-!
# The reply in flight

An asynchronous `serial_send` reads the transmit buffer in the background until
it calls `serial_sent_cb`. The bytes in flight are kept beside the machine as a
history, and `serial_sent_cb` comes once for each transmission.

Nothing but the event touches the buffer while the machine is busy. An error
raised meanwhile, by a byte or by a line error, makes the next event restart the
machine, which clears the buffer and lets the machine take a new frame;
`flight_untouched` says that this is the only way: in every run without such an
event the bytes in flight stay, and no second transmission starts.
-/

namespace ModbusRtu

open Base

variable {U : Type} {cfg : Config U}

/-! ## The history of the transmissions -/

/-- What is being transmitted after the step `a` from `s`. -/
def flightNext (flight : Option (List UInt8)) (s : State cfg) (a : Action) :
    Option (List UInt8) :=
  if a = .sent then none
  else match (sends (callsSince s (s.step a))).getLast? with
    | some adu => some adu
    | none => flight

/-- All runs in which `serial_sent_cb` ends a transmission. -/
abbrev transmitSystem (cfg : Config U) : System (State cfg × Option (List UInt8)) Action :=
  ((rtuSystem cfg).track none flightNext).restrict fun p a => a = .sent → p.2.isSome = true

/-- The event is about to restart the machine under a transmission. -/
def Interrupts (p : State cfg × Option (List UInt8)) (a : Action) : Prop :=
  a = .event ∧ p.2.isSome = true ∧ p.1.status.error = true

instance (p : State cfg × Option (List UInt8)) (a : Action) : Decidable (Interrupts p a) :=
  inferInstanceAs (Decidable (_ ∧ _))

/-- The runs in which no event restarts the machine under a transmission. -/
abbrev calmSystem (cfg : Config U) : System (State cfg × Option (List UInt8)) Action :=
  (transmitSystem cfg).restrict fun p a => ¬Interrupts p a

/-! ## What one step does to a transmission -/

/-- What a step hands to `serial_send`. -/
theorem sends_step {s : State cfg} (hwf : Wf s) (a : Action) :
    sends (callsSince s (s.step a)) = sends (stepFrameCalls s a) := by
  obtain ⟨l, hl, hplain⟩ := step_calls hwf a
  rw [callsSince, hl, List.append_assoc, List.drop_left, sends_append, sends_plain hplain,
    List.append_nil]

theorem sends_step_of_not {s : State cfg} (hwf : Wf s) {a : Action}
    (hnot : ¬(a = .event ∧ Handles s)) : sends (callsSince s (s.step a)) = [] := by
  rw [sends_step hwf, stepFrameCalls, if_neg hnot]
  rfl

/-- A busy machine starts no transmission. -/
theorem sends_step_busy {s : State cfg} (hwf : Wf s) (hbusy : s.status.curr = .busy) (a : Action) :
    sends (callsSince s (s.step a)) = [] :=
  sends_step_of_not hwf fun hf => absurd hf.2 (not_handles_of_curr hbusy)

/-- While busy, a step other than `serial_sent_cb` keeps the state and the
transmit buffer, unless it is an event with an error pending. -/
theorem step_busy {s : State cfg} (hwf : Wf s) (hbusy : s.status.curr = .busy) {a : Action}
    (hen : (rtuSystem cfg).enabled s a) (hsent : a ≠ .sent)
    (hcalm : a = .event → s.status.error = false) :
    (s.step a).status.curr = .busy ∧ (s.step a).txbuf = s.txbuf := by
  cases a with
  | recv data =>
      refine ⟨?_, serialRecvCb_txbuf s data⟩
      show (serialRecvCb s data).status.curr = .busy
      rw [serialRecvCb_other (by simp [hbusy]) (by simp [hbusy])]
      exact hbusy
  | recvErr data => exact ⟨hbusy, rfl⟩
  | sent => exact absurd rfl hsent
  | timer => exact absurd (hwf.timer_busy hbusy) (hen rfl)
  | event =>
      have herr := hcalm rfl
      have hcase := event_case hwf
      show (modbusRtuEvent s).status.curr = .busy ∧ (modbusRtuEvent s).txbuf = s.txbuf
      generalize modbusRtuEvent s = s' at hcase ⊢
      cases hcase with
      | error hup herr' => rw [herr] at herr'; cases herr'
      | init hup _ hc => rw [hbusy] at hc; cases hc
      | frame hh => exact absurd hh (not_handles_of_curr hbusy)
      | quiet | passed | suspended => exact ⟨hbusy, rfl⟩

/-- A transmission starts busy, with its bytes in the transmit buffer. -/
theorem starts_transmission (hasync : cfg.serialSend = .async) {s : State cfg} (hwf : Wf s)
    {a : Action} {adu : List UInt8}
    (hadu : (sends (callsSince s (s.step a))).getLast? = some adu) :
    (s.step a).status.curr = .busy ∧ (s.step a).txbuf.filled = adu := by
  by_cases hframe : a = .event ∧ Handles s
  · -- only the event that handles a frame sends anything, and only its reply
    obtain ⟨rfl, hh⟩ := hframe
    rw [sends_step hwf, stepFrameCalls, if_pos ⟨rfl, hh⟩] at hadu
    by_cases hacc : Accepted s.rxbuf.filled
    · rw [(frameCalls_of_accepted hacc).2] at hadu
      by_cases hreply : reply s = []
      · rw [if_pos hreply] at hadu
        cases hadu
      · rw [if_neg hreply] at hadu
        have hstart : aduProcess serialSend (consumed s) =
            startTransmission (readyToSend (consumed s)) := by
          rw [aduProcess_reply (s := consumed s) hacc hreply, serialSend_async hasync]
        have hdone : (handled s).status.curr = .busy ∧ (handled s).txbuf.filled = replyAdu s := by
          rw [handled, hstart]
          split <;> exact ⟨rfl, rfl⟩
        show (modbusRtuEvent s).status.curr = .busy ∧ (modbusRtuEvent s).txbuf.filled = adu
        rw [event_handled hwf hh, ← Option.some_inj.mp hadu]
        exact hdone
    · rw [frameCalls_of_not_accepted hacc] at hadu
      cases hadu
  · rw [sends_step_of_not hwf hframe] at hadu
    cases hadu

/-! ## Calm runs -/

/-- The machine is busy with the bytes in flight, which are in the transmit buffer. -/
structure Transmits (p : State cfg × Option (List UInt8)) : Prop where
  wf : Wf p.1
  busy : ∀ adu, p.2 = some adu → p.1.status.curr = .busy ∧ p.1.txbuf.filled = adu

/-- A step that starts no transmission and ends none keeps the one there is. -/
theorem Transmits.keep {s : State cfg} {flight : Option (List UInt8)}
    (h : Transmits (s, flight)) {a : Action} (hen : (rtuSystem cfg).enabled s a)
    (hsent : a ≠ .sent) (hcalm : ¬Interrupts (s, flight) a) :
    ∀ adu, flight = some adu → (s.step a).status.curr = .busy ∧ (s.step a).txbuf.filled = adu := by
  rintro adu rfl
  obtain ⟨hbusy, hfilled⟩ := h.busy adu rfl
  have herr : a = .event → s.status.error = false := by
    intro ha
    cases he : s.status.error with
    | false => rfl
    | true => exact absurd ⟨ha, rfl, he⟩ hcalm
  obtain ⟨hbusy', htx⟩ := step_busy h.wf hbusy hen hsent herr
  exact ⟨hbusy', htx ▸ hfilled⟩

theorem transmits_invariant (hasync : cfg.serialSend = .async) :
    (calmSystem cfg).Inductive Transmits where
  init := by
    rintro ⟨s, flight⟩ ⟨⟨userData, rfl⟩, hflight⟩
    obtain rfl : flight = none := hflight
    exact ⟨modbusRtuInit_wf userData, fun adu hadu => by cases hadu⟩
  step := by
    rintro ⟨s, flight⟩ a h ⟨⟨hen, -⟩, hcalm⟩
    refine ⟨wf_invariant.step s a h.wf hen, ?_⟩
    intro adu hadu
    change flightNext flight s a = some adu at hadu
    unfold flightNext at hadu
    -- the transmission ends, another one starts, or it goes on
    split at hadu
    · cases hadu
    · next hsent =>
        split at hadu
        · next adu' hlast =>
            rw [← Option.some_inj.mp hadu]
            exact starts_transmission hasync h.wf hlast
        · exact h.keep hen hsent hcalm adu hadu

/-- In every run in which no event restarts the machine under a transmission,
the bytes in flight are in the transmit buffer as they were handed over, and no
step starts another transmission. -/
theorem flight_untouched (hasync : cfg.serialSend = .async) {s : State cfg}
    {adu : List UInt8} (hreach : (calmSystem cfg).Reachable (s, some adu)) :
    s.txbuf.cells.toList.take adu.length = adu ∧
      ∀ a, sends (callsSince s (s.step a)) = [] := by
  have h := (transmits_invariant hasync).holds hreach
  obtain ⟨hbusy, hfilled⟩ := h.busy adu rfl
  refine ⟨?_, fun a => sends_step_busy h.wf hbusy a⟩
  have hprefix : adu <+: s.txbuf.cells.toList := hfilled ▸ List.take_prefix _ _
  exact (List.prefix_iff_eq_take.mp hprefix).symm

/-! ## The run that fails, and one that does not -/

/-- A slave on a microcontroller. -/
def sampleSlave : Config RtuMemoryImpl := slaveConfig .int16 .async

def sampleStart : State sampleSlave × Option (List UInt8) :=
  (modbusRtuInit sampleSlave ⟨0x11, { header := ⟨0x1000, 0x1400⟩, bytes := fun _ => 0 }⟩, none)

def sampleAfter (acts : List Action) : State sampleSlave × Option (List UInt8) :=
  (transmitSystem sampleSlave).run sampleStart acts

theorem sampleAfter_reachable {acts : List Action}
    (h : (transmitSystem sampleSlave).Legal sampleStart acts) :
    (transmitSystem sampleSlave).Reachable (sampleAfter acts) :=
  System.Reachable.run (M := transmitSystem sampleSlave) (.init ⟨⟨_, rfl⟩, rfl⟩) h

theorem sampleAfter_calm {acts : List Action}
    (h : (calmSystem sampleSlave).Legal sampleStart acts) :
    (calmSystem sampleSlave).Reachable (sampleAfter acts) :=
  System.Reachable.run (M := calmSystem sampleSlave) (.init ⟨⟨_, rfl⟩, rfl⟩) h

/-- A request of an unsupported function code, up to the event that handles it. -/
def requestRun : List Action :=
  (withCrc [0x11, 1]).map .recv ++ [.timer, .timer, .event]

/-- The reply: an exception. -/
def sampleReply : List UInt8 := withCrc [0x11, 0x81, 1]

/-- A reply in transmission. -/
def replying : List Action := boot ++ requestRun

/-- A byte comes meanwhile, and then an event. -/
def interrupted : List Action := replying ++ [.recv 0, .event]

/-- Another request comes, and the transmission is still going on. -/
def requestAgain : List Action :=
  interrupted ++ [.timer, .event] ++ (withCrc [0x11, 1]).map .recv ++ [.timer, .timer]

theorem flight_untouched_replying :
    (sampleAfter replying).1.txbuf.cells.toList.take sampleReply.length = sampleReply ∧
      ∀ a, sends (callsSince (sampleAfter replying).1 ((sampleAfter replying).1.step a)) = [] := by
  have hreach : (calmSystem sampleSlave).Reachable (sampleAfter replying) :=
    sampleAfter_calm (by decide)
  have hflight : (sampleAfter replying).2 = some sampleReply := by decide +kernel
  generalize sampleAfter replying = p at hreach hflight ⊢
  obtain ⟨s, flight⟩ := p
  obtain rfl : flight = some sampleReply := hflight
  exact flight_untouched rfl hreach

/-- A byte in the middle of a reply, and the event behind it clears the bytes in
flight; the next request then starts a second transmission. -/
theorem error_restarts_under_transmission :
    (¬∀ p, (transmitSystem sampleSlave).Reachable p → ∀ adu, p.2 = some adu →
        p.1.txbuf.cells.toList.take adu.length = adu) ∧
      ¬∀ p, (transmitSystem sampleSlave).Reachable p → p.2.isSome = true →
        sends (callsSince p.1 (p.1.step .event)) = [] := by
  constructor
  · intro hall
    have hreach : (transmitSystem sampleSlave).Reachable (sampleAfter interrupted) :=
      sampleAfter_reachable (by decide)
    exact absurd (hall _ hreach sampleReply (by decide +kernel)) (by decide +kernel)
  · intro hall
    have hreach : (transmitSystem sampleSlave).Reachable (sampleAfter requestAgain) :=
      sampleAfter_reachable (by decide +kernel)
    exact absurd (hall _ hreach (by decide +kernel)) (by decide +kernel)

end ModbusRtu
