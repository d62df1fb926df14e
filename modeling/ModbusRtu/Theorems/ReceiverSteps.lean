import ModbusRtu.Logic.OwnCalls
import ModbusRtu.Spec.Receiver
import ModbusRtu.Theorems.Delivery
import ModbusRtu.Theorems.Losses

/-!
# A callback and its event, in the diagram

Seen from the main loop, with one event behind every callback, the state record
of `rtu.c` stands for a state of the abstract receiver (`State.receiver`), and
what it calls for the receiver's outputs (`outputs`). Every callback with its
event is then one step of the receiver (`becomes_step`): a byte
(`becomes_byte`), a line error, the end of a transmission, a timeout
(`becomes_timeout`), with a confirmed frame in `becomes_confirmed`.
-/

namespace ModbusRtu

open Base

variable {U : Type} {cfg : Config U} {app : Application U}

/-! ## What the code stands for -/

def Signal.action : Signal → Action
  | .byte data => .recv data
  | .lineError data => .recvErr data
  | .sent => .sent
  | .timeout => .timer

/-- What a call is to the receiver. The stores are its own business. -/
def Call.output : Call → Option Output
  | .timerStart1t5 _ => some .start1t5
  | .timerStart3t5 _ => some .start3t5
  | .timerStop => some .stop
  | .timerReset _ => some .reset
  | .pduCb args => some (.handed args.frame)
  | .serialSend adu => some (.reply adu)
  | .suspendCb => some .suspend
  | .resumeCb => some .resume
  | .rxStore _ | .txStore _ | .logTp => none

def outputs (calls : List Call) : List Output := calls.filterMap Call.output

def State.phase (s : State cfg) : Phase :=
  if s.status.error then .deaf
  else match s.status.curr with
    | .init => .init
    | .idle => .idle
    | .sof | .recv => .frame s.rxbuf.filled
    | .eof => .ended s.rxbuf.filled
    | .busy => .busy
    | .raw6 | .raw7 => .deaf

def State.receiver (s : State cfg) : Receiver U where
  phase := s.phase
  userData := s.userData
  stats := s.stats

/-- The state machine with one event behind each callback. -/
def attendedSlave (cfg : Config U) : Transducer (State cfg) Signal Output where
  enabled s signal := (rtuSystem cfg).enabled s signal.action
  step s signal :=
    let s' := modbusRtuEvent (s.step signal.action)
    (s', outputs (callsSince s s'))

/-- The arguments for the frame `f`, whatever is behind it in the buffer. -/
structure Passes (cfg : Config U) (f : List UInt8) (args : PduArgs) : Prop where
  addr : args.addr = f.getD 0 0
  fcode : args.fcode = f.getD 1 0
  frame : args.frame = f
  end_ : args.end_ = f.length - 2
  curr : args.curr = 2
  dstSize : args.dstSize = cfg.txbufCapacity - 2

/-- The application is what `pdu_cb` computes from the bytes of a frame, and
its replies fit the transmit buffer. -/
structure Implements (cfg : Config U) (app : Application U) : Prop where
  capacity : cfg.rxbufCapacity = app.capacity
  room : 1 ≤ cfg.rxbufCapacity
  answer : ∀ u f args, Accepted f → Passes cfg f args → cfg.pduCb u args = app.answer u f
  fits : ∀ u f, Accepted f → (app.answer u f).2.length + 2 ≤ cfg.txbufCapacity
  sendsAtOnce : cfg.serialSend = if app.sendsAtOnce then .sync else .async
  suspends : cfg.suspendCb = app.suspends
  resumes : cfg.resumeCb = app.resumes

/-! ## Between two callbacks -/

/-- The state an event leaves, of a machine that has always been attended to. -/
structure Steady (s : State cfg) : Prop where
  wf : Wf s
  left : s.status.updated = false ∨ AtRest true s ∨
    s.status.error = false ∧ s.status.curr = .busy
  frame : s.status.curr = .sof ∨ s.status.curr = .recv →
    s.rxbuf.filled ≠ [] ∧ s.status.curr = frameState s.rxbuf.filled

variable {s s' t : State cfg}

/-- The state machine in each phase. -/
inductive View (s : State cfg) : Phase → Prop
  | init (hup : s.status.updated = false) (hc : s.status.curr = .init) : View s .init
  | idle (hq : Quiet s) : View s .idle
  | deaf (hrest : AtRest true s) : View s .deaf
  | frame (hup : s.status.updated = false) (hne : s.rxbuf.filled ≠ [])
      (hc : s.status.curr = frameState s.rxbuf.filled) : View s (.frame s.rxbuf.filled)
  | ended (hup : s.status.updated = false) (hc : s.status.curr = .eof) :
      View s (.ended s.rxbuf.filled)
  | busy (herr : s.status.error = false) (hc : s.status.curr = .busy) : View s .busy

theorem Steady.view (h : Steady s) : View s s.phase := by
  rcases h.left with hup | hrest | ⟨herr, hc⟩
  · have herr : s.status.error = false := h.wf.error_of_not_updated hup
    rcases h.wf.curr_cases with hc | hc | hc | hc | hc | hc
    · rw [State.phase, herr, hc]
      exact .init hup hc
    · rw [State.phase, herr, hc]
      exact .idle ⟨h.wf, hc, hup⟩
    · obtain ⟨hne, hframe⟩ := h.frame (.inl hc)
      rw [State.phase, herr, hc]
      exact .frame hup hne hframe
    · obtain ⟨hne, hframe⟩ := h.frame (.inr hc)
      rw [State.phase, herr, hc]
      exact .frame hup hne hframe
    · rw [State.phase, herr, hc]
      exact .ended hup hc
    · rw [State.phase, herr, hc]
      exact .busy herr hc
  · rw [State.phase, hrest.error]
    exact .deaf hrest
  · rw [State.phase, herr, hc]
    exact .busy herr hc

/-- From `s` the machine has become `s'`, as the receiver says. -/
structure Becomes (s s' : State cfg) (p : Receiver U × List Output) : Prop where
  steady : Steady s'
  receiver : s'.receiver = p.1
  calls : ∃ l, s'.calls = s.calls ++ l ∧ outputs l = p.2

/-- Nothing is left to be said about a state outside a frame. -/
theorem steady_of_not_updated (hwf : Wf s) (hup : s.status.updated = false)
    (hout : ¬(s.status.curr = .sof ∨ s.status.curr = .recv)) : Steady s :=
  ⟨hwf, .inl hup, fun hin => absurd hin hout⟩

/-! ## Errors -/

/-- The event behind an error restarts the machine. -/
theorem becomes_failed {l : List Call} {r : Receiver U} (hwf : Wf t) (herr : t.status.error = true)
    (hcalls : t.calls = s.calls ++ l) (hdata : t.userData = r.userData)
    (hstats : t.stats = r.stats) :
    Becomes s (modbusRtuEvent t) (r.failAfter (outputs l)) := by
  have hwf' : Wf (modbusRtuEvent t) := modbusRtuEvent_wf hwf
  rw [event_error (hwf.errorUpdated herr) herr] at hwf' ⊢
  refine ⟨steady_of_not_updated hwf' rfl (by rintro (h | h) <;> cases h), ?_, ?_⟩
  · show Receiver.mk .init t.userData { t.stats with errCntr := t.stats.errCntr + 1 } = _
    rw [hdata, hstats]
    rfl
  · have hrestart : (errorRestart (consumed t)).calls = s.calls ++ (l ++ changeoverCalls) := by
      rw [← List.append_assoc, ← hcalls]
      exact restart_calls _
    refine ⟨_, hrestart, ?_⟩
    rw [outputs, List.filterMap_append]
    rfl

/-- An error out of place, with nothing called. -/
theorem becomes_raised (hwf : Wf s.raise) : Becomes s (modbusRtuEvent s.raise) s.receiver.fail :=
  becomes_failed (l := []) (r := s.receiver) hwf rfl (List.append_nil _).symm rfl rfl

/-! ## Bytes -/

theorem outputs_storeCalls (s : State cfg) (l : List Call) :
    outputs (storeCalls s ++ l) = outputs l := by
  rw [outputs, List.filterMap_append, storeCalls]
  split <;> rfl

@[simp] theorem rxbufAppend_stats (s : State cfg) (data : UInt8) :
    (rxbufAppend s data).stats = s.stats := by
  unfold rxbufAppend
  split <;> rfl

theorem phase_frame (herr : s.status.error = false)
    (hc : s.status.curr = .sof ∨ s.status.curr = .recv) : s.phase = .frame s.rxbuf.filled := by
  rw [State.phase, herr]
  rcases hc with hc | hc <;> rw [hc] <;> rfl

theorem phase_ended (herr : s.status.error = false) (hc : s.status.curr = .eof) :
    s.phase = .ended s.rxbuf.filled := by
  rw [State.phase, herr, hc]
  rfl

/-- An event that leaves everything to the next callback. -/
theorem becomes_consumed {u : State cfg} {l : List Call} {φ : Phase} (hwf : Wf (consumed u))
    (hframe : u.status.curr = .sof ∨ u.status.curr = .recv →
      u.rxbuf.filled ≠ [] ∧ u.status.curr = frameState u.rxbuf.filled)
    (hcalls : u.calls = s.calls ++ l) (hphase : (consumed u).phase = φ)
    (hdata : u.userData = s.userData) (hstats : u.stats = s.stats) :
    Becomes s (consumed u) ({ s.receiver with phase := φ }, outputs l) := by
  refine ⟨⟨hwf, .inl rfl, hframe⟩, ?_, l, hcalls, rfl⟩
  show Receiver.mk (consumed u).phase u.userData u.stats = Receiver.mk φ s.userData s.stats
  rw [hphase, hdata, hstats]

/-- The bytes of a frame, behind the event. -/
theorem becomes_frame {u : State cfg} {l : List Call} {f : List UInt8} (hf : f ≠ [])
    (h : Holds s f (frameState f) u) (hcalls : u.calls = s.calls ++ l)
    (hstats : u.stats = s.stats) :
    Becomes s (consumed u) ({ s.receiver with phase := .frame f }, outputs l) := by
  have hrecv : u.status.curr = .sof ∨ u.status.curr = .recv := h.receiving
  have hwf : Wf (consumed u) := by
    refine consumed_wf h.wf h.error ?_ ?_ <;> rcases hrecv with hc | hc <;> simp [hc]
  have hphase : (consumed u).phase = .frame f := by
    rw [← h.filled]
    exact phase_frame h.error hrecv
  refine becomes_consumed hwf ?_ hcalls hphase h.userData hstats
  intro _
  rw [h.filled]
  exact ⟨hf, h.curr⟩

theorem Fed.holds {s₀ : State cfg} {f : List UInt8} (h : Fed s₀ f s) (hf : f ≠ [])
    (hcap : f.length ≤ cfg.rxbufCapacity) : Holds s₀ f (frameState f) s := by
  cases h with
  | nothing => exact absurd rfl hf
  | frame _ h => exact h
  | overrun hover _ => omega

/-- The first byte of a frame. -/
theorem becomes_opened (himp : Implements cfg app) (hq : Quiet s) (data : UInt8) :
    Becomes s (modbusRtuEvent (serialRecvCb s data))
      ({ s.receiver with phase := .frame [data] },
        .start1t5 :: if app.suspends then [.suspend] else []) := by
  have hopened : Holds s [data] .sof (serialRecvCb s data) :=
    (hq.recv data).holds (List.cons_ne_nil _ _) himp.room
  have hup : (serialRecvCb s data).status.updated = true := by
    rw [serialRecvCb_idle hq.curr]
    exact rxbufAppend_status_updated (s.update .sof) data rfl
  have hstats : (serialRecvCb s data).stats = s.stats := by
    rw [serialRecvCb_idle hq.curr]
    exact rxbufAppend_stats (s.update .sof) data
  have hcalls := serialRecvCb_idle_calls hq.curr data
  generalize serialRecvCb s data = u at hopened hup hstats hcalls ⊢
  rw [event_sof hup hopened.error hopened.curr (hopened.wf.prev_sof hopened.curr), himp.suspends]
  have hone : [data] ≠ [] := List.cons_ne_nil _ _
  cases app.suspends with
  | false =>
      have hframe := becomes_frame hone hopened hcalls hstats
      rwa [outputs_storeCalls] at hframe
  | true =>
      have hnoted : Holds s [data] .sof (u.note .suspendCb) := by
        refine ⟨hopened.wf.congr rfl rfl rfl rfl rfl, hopened.error, hopened.curr, hopened.filled,
          hopened.userData, ?_⟩
        show (u.calls ++ [Call.suspendCb]).filter Call.ofFrame = _
        rw [List.filter_append]
        exact (List.append_nil _).trans hopened.log
      have hcalls' : (u.note .suspendCb).calls =
          s.calls ++ (storeCalls s ++ [.timerStart1t5 s.timer, .suspendCb]) := by
        show u.calls ++ [Call.suspendCb] = _
        rw [hcalls, List.append_assoc, List.append_assoc]
        rfl
      have hframe := becomes_frame hone hnoted hcalls' hstats
      rwa [outputs_storeCalls] at hframe

/-- A further byte of a frame, if there is room for it. -/
theorem becomes_extended (himp : Implements cfg app) {f : List UInt8} (hf : f ≠ [])
    (h : Holds s f (frameState f) s) (data : UInt8) :
    Becomes s (modbusRtuEvent (serialRecvCb s data))
      (if f.length < app.capacity then
        ({ s.receiver with phase := .frame (f ++ [data]) }, [.reset])
      else s.receiver.failAfter [.reset]) := by
  have hrecv := h.receiving
  have hlen : f.length = s.rxbuf.curr := h.length_le.1
  have hwf : Wf (serialRecvCb s data) := serialRecvCb_wf h.wf data
  have hstep := serialRecvCb_frame hrecv data
  have hcalls := serialRecvCb_frame_calls hrecv data
  have hstats : (serialRecvCb s data).stats = s.stats := by
    rw [hstep]
    exact rxbufAppend_stats (s.update .recv) data
  have hdata : (serialRecvCb s data).userData = s.userData := by
    rw [hstep]
    exact rxbufAppend_userData (s.update .recv) data
  rw [← himp.capacity]
  split
  · next hroom =>
      have hne : f ++ [data] ≠ [] := by simp
      have hheld : Holds s (f ++ [data]) (frameState (f ++ [data])) (serialRecvCb s data) :=
        (h.recv hf data).holds hne (by simp; omega)
      have hcurr : (serialRecvCb s data).status.curr = .recv := by
        rw [hstep]
        exact rxbufAppend_status_curr (s.update .recv) data
      have hup : (serialRecvCb s data).status.updated = true := by
        rw [hstep]
        exact rxbufAppend_status_updated (s.update .recv) data rfl
      rw [event_recv hup hheld.error hcurr]
      have hframe := becomes_frame hne hheld hcalls hstats
      rwa [outputs_storeCalls] at hframe
  · next hfull =>
      have herr : (serialRecvCb s data).status.error = true := by
        rw [hstep]
        exact rxbufAppend_full (s.update .recv) data (by show _ ≤ s.rxbuf.curr; omega)
      have hfailed := becomes_failed (r := s.receiver) hwf herr hcalls hdata hstats
      rwa [outputs_storeCalls] at hfailed

/-- A byte to a machine that has rejected a frame. -/
theorem becomes_deafened (hrest : AtRest true s) (data : UInt8) :
    Becomes s (modbusRtuEvent (serialRecvCb s data)) (s.receiver.failAfter [.start1t5]) := by
  have hcalls := serialRecvCb_idle_calls hrest.curr data
  have hstats : (serialRecvCb s data).stats = s.stats := by
    rw [serialRecvCb_idle hrest.curr]
    exact rxbufAppend_stats (s.update .sof) data
  have hdata : (serialRecvCb s data).userData = s.userData := by
    rw [serialRecvCb_idle hrest.curr]
    exact rxbufAppend_userData (s.update .sof) data
  have hfailed := becomes_failed (r := s.receiver) (serialRecvCb_wf hrest.wf data)
    (serialRecvCb_error hrest.error data) hcalls hdata hstats
  rwa [outputs_storeCalls] at hfailed

theorem holds_self {f : List UInt8} (hwf : Wf s) (hup : s.status.updated = false)
    {state : RtuState} (hc : s.status.curr = state) (hf : s.rxbuf.filled = f) :
    Holds s f state s :=
  ⟨hwf, hwf.error_of_not_updated hup, hc, hf, rfl, rfl⟩

theorem becomes_byte (himp : Implements cfg app) (h : Steady s) (data : UInt8) :
    Becomes s (modbusRtuEvent (serialRecvCb s data)) (s.receiver.byte app data) := by
  have hwf := serialRecvCb_wf h.wf data
  have hview := h.view
  have hphase : s.receiver.phase = s.phase := rfl
  rw [Receiver.byte, hphase]
  generalize s.phase = φ at hview
  -- out of place, the byte is an error and nothing else
  have hstray : s.status.curr ≠ .idle → ¬(s.status.curr = .sof ∨ s.status.curr = .recv) →
      Becomes s (modbusRtuEvent (serialRecvCb s data)) s.receiver.fail := by
    intro hidle hframe
    rw [serialRecvCb_other hidle hframe] at hwf ⊢
    exact becomes_raised hwf
  cases hview with
  | init _ hc | ended _ hc | busy _ hc => exact hstray (by simp [hc]) (by simp [hc])
  | idle hq => exact becomes_opened himp hq data
  | deaf hrest => exact becomes_deafened hrest data
  | frame hup hne hc => exact becomes_extended himp hne (holds_self h.wf hup hc rfl) data

/-! ## Line errors and the end of a transmission -/

theorem becomes_lineError (h : Steady s) (data : UInt8) :
    Becomes s (modbusRtuEvent (serialRecvErrCb s data))
      (s.receiver.step app (.lineError data)) := by
  let r := { s.receiver with stats.serialRecvErrCntr := s.stats.serialRecvErrCntr + 1 }
  exact becomes_failed (l := []) (r := r) (serialRecvErrCb_wf h.wf data) rfl
    (List.append_nil _).symm rfl rfl

theorem becomes_sent (h : Steady s) :
    Becomes s (modbusRtuEvent (serialSentCb s)) (s.receiver.step app .sent) := by
  have hwf := serialSentCb_wf h.wf
  show Becomes s _ (if s.phase = .busy then s.receiver.restart else s.receiver.fail)
  have hview := h.view
  generalize s.phase = φ at hview
  have hstray : s.status.curr ≠ .busy →
      Becomes s (modbusRtuEvent (serialSentCb s)) s.receiver.fail := by
    intro hbusy
    rw [serialSentCb_other hbusy] at hwf ⊢
    exact becomes_raised hwf
  cases hview with
  | init _ hc | ended _ hc => exact hstray (by simp [hc])
  | idle hq => exact hstray (by simp [hq.curr])
  | deaf hrest => exact hstray (by simp [hrest.curr])
  | frame _ _ hc => exact hstray (by rw [hc, frameState]; split <;> simp)
  | busy herr hc =>
      have hwf' : Wf (modbusRtuEvent (serialSentCb s)) := modbusRtuEvent_wf hwf
      have hevent : modbusRtuEvent (serialSentCb s) = restart (consumed (serialSentCb s)) := by
        rw [serialSentCb_busy hc]
        exact event_init rfl herr rfl
      rw [hevent, serialSentCb_busy hc] at hwf' ⊢
      refine ⟨steady_of_not_updated hwf' rfl (by rintro (h | h) <;> cases h), ?_,
        changeoverCalls, restart_calls _, rfl⟩
      show Receiver.mk (if s.status.error then _ else _) s.userData s.stats = _
      rw [herr]
      rfl

/-! ## A frame that is confirmed -/

theorem passes_pduArgs {f : List UInt8} {u : State cfg} (h : Holds s f .idle u)
    (hlen : 4 ≤ f.length) : Passes cfg f (pduArgs u) := by
  have hargs : ArgsOf f (pduArgs u) := argsOf_pduArgs h hlen
  refine ⟨?_, ?_, frame_pduArgs h (by omega), hargs.end_, hargs.curr, rfl⟩
  · rw [List.getD_eq_getElem?_getD, ← hargs.addr, Option.getD_some]
  · rw [List.getD_eq_getElem?_getD, ← hargs.fcode, Option.getD_some]

/-- A frame that is too short is not counted. -/
theorem aduProcess_rejected_eq (send : State cfg → State cfg) (h : ¬Accepted s.rxbuf.filled) :
    aduProcess send s =
      { s with
        stats.crcErrCntr := s.stats.crcErrCntr +
          if s.rxbuf.filled.length < aduMinSize then 0 else 1 }.raise := by
  rw [aduProcess, aduCheck]
  by_cases hshort : s.rxbuf.filled.length < aduMinSize
  · rw [if_pos hshort, if_pos hshort]
    simp
  · have hmismatch : crcMatches s.rxbuf.filled = false := by
      by_contra hmatch
      exact h ⟨Nat.not_lt.mp hshort, by simpa using hmatch⟩
    rw [if_neg hshort, if_neg hshort, if_pos (by rw [hmismatch]; rfl)]

/-- The stores of a reply are no outputs. -/
theorem outputs_txStore (n : Nat) (l : List Call) :
    outputs ((List.range n).map .txStore ++ l) = outputs l := by
  rw [outputs, List.filterMap_append, List.filterMap_map]
  have hnone : (List.range n).filterMap (Call.output ∘ Call.txStore) = [] :=
    List.filterMap_eq_nil_iff.mpr fun _ _ => rfl
  rw [hnone]
  rfl

theorem phase_of {c : RtuState} {φ : Phase} (herr : s.status.error = false)
    (hc : s.status.curr = c)
    (hφ : (c = .init ∧ φ = .init) ∨ (c = .idle ∧ φ = .idle) ∨ (c = .busy ∧ φ = .busy)) :
    s.phase = φ := by
  rw [State.phase, herr, hc]
  rcases hφ with ⟨rfl, rfl⟩ | ⟨rfl, rfl⟩ | ⟨rfl, rfl⟩ <;> rfl

theorem receiver_eq {φ : Phase} {userData : U} {stats : Stats} (hphase : s.phase = φ)
    (hdata : s.userData = userData) (hstats : s.stats = stats) :
    s.receiver = { phase := φ, userData := userData, stats := stats } := by
  rw [State.receiver, hphase, hdata, hstats]

/-- From `s`, the timeout has confirmed the end of `f`. -/
structure Confirmed (s : State cfg) (f : List UInt8) (u : State cfg) : Prop where
  held : Holds s f .idle u
  handles : Handles u
  calls : u.calls = s.calls ++ [.timerStop]
  stats : u.stats = s.stats

section

variable {f : List UInt8} {u : State cfg} {r : Receiver U} {out : List Output}

/-- The calls behind those the timeout has made. -/
theorem Confirmed.becomes {l : List Call} (h : Confirmed s f u) (hsteady : Steady s')
    (hreceiver : s'.receiver = r) (hcalls : s'.calls = u.calls ++ l) (hout : outputs l = out) :
    Becomes s s' (r, .stop :: out) := by
  refine ⟨hsteady, hreceiver, .timerStop :: l, ?_, ?_⟩
  · rw [hcalls, h.calls, List.append_assoc]
    rfl
  · rw [← hout]
    rfl

theorem Confirmed.aduProcess_wf (h : Confirmed s f u) :
    Wf (aduProcess serialSend (consumed u)) :=
  ModbusRtu.aduProcess_wf h.held.wf h.handles.curr h.handles.error

/-- In `idle` no frame is coming in. -/
theorem Confirmed.not_receiving (h : Confirmed s f u) :
    ¬((consumed u).status.curr = .sof ∨ (consumed u).status.curr = .recv) := by
  rintro (hc | hc) <;> cases h.handles.curr.symm.trans hc

theorem Confirmed.accepted (h : Confirmed s f u) (hacc : Accepted f) :
    Accepted (consumed u).rxbuf.filled := by
  show Accepted u.rxbuf.filled
  rwa [h.held.filled]

theorem Confirmed.output_pduCb (h : Confirmed s f u) (hacc : Accepted f) :
    Call.output (.pduCb (pduArgs u)) = some (.handed f) :=
  congrArg (some ∘ Output.handed) (passes_pduArgs h.held hacc.1).frame

theorem becomes_rejected (h : Confirmed s f u) (hacc : ¬Accepted f) :
    Becomes s (aduProcess serialSend (consumed u))
      ({ s.receiver with
        phase := .deaf
        stats.crcErrCntr := s.stats.crcErrCntr + if f.length < aduMinSize then 0 else 1 },
        [.stop]) := by
  have hwf := h.aduProcess_wf
  have hfilled : (consumed u).rxbuf.filled = f := h.held.filled
  rw [aduProcess_rejected_eq serialSend (by rwa [hfilled]), hfilled] at hwf ⊢
  have hstats : (consumed u).stats = s.stats := h.stats
  refine h.becomes ⟨hwf, .inr (.inl ⟨hwf, h.handles.curr, rfl, rfl⟩), ?_⟩ ?_
    (List.append_nil _).symm rfl
  · exact fun hin => absurd hin h.not_receiving
  · refine receiver_eq rfl h.held.userData ?_
    rw [hstats]
    rfl

variable {userData : U} {rep : List UInt8}

theorem becomes_silent (h : Confirmed s f u) (hacc : Accepted f)
    (hanswer : cfg.pduCb u.userData (pduArgs u) = (userData, [])) :
    Becomes s (aduProcess serialSend (consumed u))
      ({ s.receiver with phase := .idle, userData := userData }, [.stop, .handed f]) := by
  have hwf := h.aduProcess_wf
  have hnone : reply (consumed u) = [] := congrArg Prod.snd hanswer
  rw [aduProcess_silent (h.accepted hacc) hnone] at hwf ⊢
  refine h.becomes (l := [.pduCb (pduArgs u)])
    (steady_of_not_updated hwf rfl h.not_receiving) ?_ rfl ?_
  · refine receiver_eq ?_ (congrArg Prod.fst hanswer) h.stats
    exact phase_of h.handles.error h.handles.curr (.inr (.inl ⟨rfl, rfl⟩))
  · rw [outputs, List.filterMap_cons, h.output_pduCb hacc]
    rfl

/-- The calls for an accepted frame with a reply. -/
def replyCalls (u : State cfg) : List Call :=
  .pduCb (pduArgs u) ::
    ((List.range ((reply u).length + 2)).map .txStore ++ [.serialSend (replyAdu u)])

theorem outputs_replyCalls (h : Confirmed s f u) (hacc : Accepted f)
    (hreply : reply u = rep) (hfits : rep.length + 2 ≤ cfg.txbufCapacity) :
    outputs (replyCalls u) = [.handed f, .reply (withCrc rep)] := by
  have hsent : replyAdu u = withCrc rep := by
    rw [replyAdu_eq (by rwa [hreply]), hreply]
  rw [replyCalls, outputs, List.filterMap_cons, h.output_pduCb hacc, hsent]
  exact congrArg _ (outputs_txStore _ _)

theorem startTransmission_calls (u : State cfg) :
    (startTransmission (readyToSend (consumed u))).calls = u.calls ++ replyCalls u :=
  List.append_assoc u.calls _ [_]

theorem becomes_sending (h : Confirmed s f u) (hacc : Accepted f)
    (hanswer : cfg.pduCb u.userData (pduArgs u) = (userData, rep)) (hrep : rep ≠ [])
    (hfits : rep.length + 2 ≤ cfg.txbufCapacity) (hsend : cfg.serialSend = .async) :
    Becomes s (aduProcess serialSend (consumed u))
      ({ s.receiver with phase := .busy, userData := userData },
        [.stop, .handed f, .reply (withCrc rep)]) := by
  have hwf := h.aduProcess_wf
  have hreply : reply u = rep := congrArg Prod.snd hanswer
  have hne : reply (consumed u) ≠ [] := by
    show reply u ≠ []
    rwa [hreply]
  rw [aduProcess_reply (h.accepted hacc) hne, serialSend_async hsend] at hwf ⊢
  refine h.becomes ⟨hwf, .inr (.inr ⟨h.handles.error, rfl⟩), ?_⟩ ?_ (startTransmission_calls u)
    (outputs_replyCalls h hacc hreply hfits)
  · rintro (hc | hc) <;> cases hc
  · refine receiver_eq ?_ (congrArg Prod.fst hanswer) h.stats
    exact phase_of h.handles.error rfl (.inr (.inr ⟨rfl, rfl⟩))

theorem becomes_sent_at_once (h : Confirmed s f u) (hacc : Accepted f)
    (hanswer : cfg.pduCb u.userData (pduArgs u) = (userData, rep)) (hrep : rep ≠ [])
    (hfits : rep.length + 2 ≤ cfg.txbufCapacity) (hsend : cfg.serialSend = .sync) :
    Becomes s (aduProcess serialSend (consumed u))
      ({ s.receiver with phase := .init, userData := userData },
        [.stop, .handed f, .reply (withCrc rep), .stop, .start3t5]) := by
  have hwf := h.aduProcess_wf
  have hreply : reply u = rep := congrArg Prod.snd hanswer
  have hne : reply (consumed u) ≠ [] := by
    show reply u ≠ []
    rwa [hreply]
  have herr : (readyToSend (consumed u)).status.error = false := h.handles.error
  rw [aduProcess_reply (h.accepted hacc) hne, serialSend_sync hsend rfl herr] at hwf ⊢
  refine h.becomes (steady_of_not_updated hwf rfl ?_) ?_
    (l := replyCalls u ++ changeoverCalls) ?_ ?_
  · rintro (hc | hc) <;> cases hc
  · refine receiver_eq ?_ (congrArg Prod.fst hanswer) h.stats
    exact phase_of rfl rfl (.inl ⟨rfl, rfl⟩)
  · rw [restart_calls, ← List.append_assoc]
    exact congrArg (· ++ changeoverCalls) (startTransmission_calls u)
  · rw [outputs, List.filterMap_append]
    exact congrArg (· ++ _) (outputs_replyCalls h hacc hreply hfits)

/-- What becomes of a confirmed frame. -/
theorem becomes_processed (himp : Implements cfg app) (h : Confirmed s f u) :
    Becomes s (aduProcess serialSend (consumed u))
      ((s.receiver.processed app f).1, .stop :: (s.receiver.processed app f).2) := by
  rw [Receiver.processed]
  by_cases hacc : Accepted f
  · have hanswer : cfg.pduCb u.userData (pduArgs u) = app.answer s.receiver.userData f := by
      rw [h.held.userData]
      exact himp.answer _ _ _ hacc (passes_pduArgs h.held hacc.1)
    have hfits := himp.fits s.receiver.userData f hacc
    have hsend := himp.sendsAtOnce
    rw [if_pos hacc]
    generalize app.answer s.receiver.userData f = answer at hanswer hfits
    obtain ⟨userData, rep⟩ := answer
    dsimp only
    by_cases hrep : rep = []
    · subst hrep
      exact becomes_silent h hacc hanswer
    · rw [if_neg hrep]
      cases hat : app.sendsAtOnce with
      | false =>
          rw [hat] at hsend
          exact becomes_sending h hacc hanswer hrep hfits hsend
      | true =>
          rw [hat] at hsend
          exact becomes_sent_at_once h hacc hanswer hrep hfits hsend
  · rw [if_neg hacc]
    exact becomes_rejected h hacc

/-- One more call that does not touch the state. -/
theorem Becomes.note {p : Receiver U × List Output} {c : Call} {o : Output} (h : Becomes s s' p)
    (hc : c.output = some o) : Becomes s (s'.note c) (p.1, p.2 ++ [o]) := by
  obtain ⟨⟨hwf, hleft, hframe⟩, hreceiver, l, hcalls, hout⟩ := h
  have hnoted : ∀ {t : State cfg}, Wf t → Wf (t.note c) := fun ht =>
    ht.congr rfl rfl rfl rfl rfl
  refine ⟨⟨hnoted hwf, ?_, hframe⟩, hreceiver, l ++ [c], ?_, ?_⟩
  · exact hleft.imp id fun h => h.imp (fun h => ⟨hnoted h.wf, h.curr, h.updated, h.error⟩) id
  · show s'.calls ++ [c] = _
    rw [hcalls, List.append_assoc]
  · rw [← hout, outputs, List.filterMap_append, List.filterMap_cons, hc]
    rfl

theorem becomes_confirmed (himp : Implements cfg app) (h : Confirmed s f u) :
    Becomes s (modbusRtuEvent u) (s.receiver.confirmed app f) := by
  have hprocessed := becomes_processed himp h
  rw [event_handled h.held.wf h.handles, handled, himp.resumes, Receiver.confirmed]
  generalize s.receiver.processed app f = p at hprocessed ⊢
  obtain ⟨r, out⟩ := p
  cases app.resumes with
  | false =>
      show Becomes s _ (r, (.stop :: out) ++ [])
      rwa [List.append_nil]
  | true => exact hprocessed.note rfl

end

/-! ## Timeouts -/

theorem becomes_timeout (himp : Implements cfg app) (h : Steady s) (harmed : s.timer ≠ .stopped) :
    Becomes s (modbusRtuEvent (timerIsr s)) (s.receiver.timeout app) := by
  have hwf : Wf (timerIsr s) := timerIsr_wf h.wf harmed
  have hwf' : Wf (modbusRtuEvent (timerIsr s)) := modbusRtuEvent_wf hwf
  have hview := h.view
  have hphase : s.receiver.phase = s.phase := rfl
  rw [Receiver.timeout, hphase]
  generalize s.phase = φ at hview
  cases hview with
  | init hup hc =>
      have herr := h.wf.error_of_not_updated hup
      have hidle := timerIsr_init (h.wf.timer_init hc harmed).2 hc
      have hevent : modbusRtuEvent (timerIsr s) = consumed (timerIsr s) := by
        rw [hidle]
        exact event_idle_init rfl herr rfl hc
      rw [hevent, hidle] at hwf' ⊢
      refine becomes_consumed (l := [.timerStop]) hwf' ?_ rfl ?_ rfl rfl
      · rintro (hc | hc) <;> cases hc
      · exact phase_of herr rfl (.inr (.inl ⟨rfl, rfl⟩))
  | idle hq => exact absurd (h.wf.timer_idle hq.curr) harmed
  | deaf hrest => exact absurd (h.wf.timer_idle hrest.curr) harmed
  | frame hup hne hc =>
      have hheld := holds_self h.wf hup hc rfl
      dsimp only
      rw [frameState] at hheld
      split at hheld
      · next hone =>
          rw [if_pos hone]
          have hsof := timerIsr_sof (h.wf.timer_frame (.inl hheld.curr)).2 hheld.curr
          rw [hsof] at hwf ⊢
          exact becomes_raised hwf
      · next hmany =>
          rw [if_neg hmany]
          have hended := hheld.timeout
          have hcalls := timerIsr_recv_calls h.wf hheld.curr
          have hrecv := timerIsr_recv (h.wf.timer_frame (.inr hheld.curr)).2 hheld.curr
          have hevent : modbusRtuEvent (timerIsr s) = consumed (timerIsr s) := by
            refine event_eof ?_ hended.error hended.curr (hended.wf.prev_eof hended.curr)
            rw [hrecv]
            rfl
          rw [hevent] at hwf' ⊢
          refine becomes_consumed hwf' ?_ hcalls ?_ hended.userData (by rw [hrecv]; rfl)
          · rintro (hin | hin) <;> cases hended.curr.symm.trans hin
          · rw [← hended.filled]
            exact phase_ended hended.error hended.curr
  | ended hup hc =>
      obtain ⟨hheld, hh⟩ := (holds_self h.wf hup hc rfl).confirm
      refine becomes_confirmed himp ⟨hheld, hh, ?_, ?_⟩ <;>
        rw [timerIsr_eof (h.wf.timer_eof hc).2 (h.wf.prev_eof hc) hc] <;> rfl
  | busy _ hc => exact absurd (h.wf.timer_busy hc) harmed

/-! ## All callbacks -/

theorem becomes_step (himp : Implements cfg app) (h : Steady s) {signal : Signal}
    (hen : (rtuSystem cfg).enabled s signal.action) :
    Becomes s (modbusRtuEvent (s.step signal.action)) (s.receiver.step app signal) := by
  cases signal with
  | byte data => exact becomes_byte himp h data
  | lineError data => exact becomes_lineError h data
  | sent => exact becomes_sent h
  | timeout => exact becomes_timeout himp h (hen rfl)

/-- A timer runs in the same phases. -/
theorem Steady.timed_iff (h : Steady s) : s.timer ≠ .stopped ↔ s.phase.Timed := by
  have hview := h.view
  generalize s.phase = φ at hview
  cases hview with
  | init hup hc => exact iff_of_true (h.wf.armed_init hc hup) trivial
  | idle hq => exact iff_of_false (not_not.mpr (h.wf.timer_idle hq.curr)) id
  | deaf hrest => exact iff_of_false (not_not.mpr (h.wf.timer_idle hrest.curr)) id
  | frame hup hne hc =>
      exact iff_of_true (h.wf.armed_frame (holds_self h.wf hup hc rfl).receiving) trivial
  | ended hup hc => exact iff_of_true (h.wf.armed_eof hc) trivial
  | busy _ hc => exact iff_of_false (not_not.mpr (h.wf.timer_busy hc)) id

end ModbusRtu
