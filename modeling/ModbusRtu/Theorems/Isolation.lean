import ModbusRtu.Logic.FramePhases

/-!
# Frame isolation

The history of the line, kept beside the machine: every byte `serial_recv_cb`
was called with, where the machine last left `idle` with a start of frame, and
how many bytes had come by the last two confirmed ends of frame.

A frame handed to `pdu_cb` should be exactly the bytes since that start. The
receive cursor goes back to the start of the buffer only in the event, so a
byte that opens a new frame before the event has handled the last one is
appended to it. `frame_isolated` says that this is the only way to lose the
property: in every run without such a byte it holds at every call.
-/

namespace ModbusRtu

open Base

variable {U : Type} {cfg : Config U}

/-! ## The history of the line -/

structure Line where
  /-- The bytes `serial_recv_cb` was called with. -/
  heard : List UInt8
  /-- How many of them came before the machine last left `idle`. -/
  sof : Nat
  /-- How many of them came before the last end of frame was confirmed. -/
  confirmed : Nat
  /-- The same for the end of frame confirmed before that. -/
  confirmedBefore : Nat
  deriving Repr

def Line.start : Line := { heard := [], sof := 0, confirmed := 0, confirmedBefore := 0 }

/-- The history after the step `a` from `s`. -/
def Line.next (line : Line) (s : State cfg) (a : Action) : Line where
  heard := match a with
    | .recv data => line.heard ++ [data]
    | _ => line.heard
  sof := if s.status.curr = .idle ∧ (s.step a).status.curr = .sof then line.heard.length
    else line.sof
  confirmed := if s.status.curr = .eof ∧ (s.step a).status.curr = .idle then line.heard.length
    else line.confirmed
  confirmedBefore := if s.status.curr = .eof ∧ (s.step a).status.curr = .idle then line.confirmed
    else line.confirmedBefore

/-- The step opens a frame while a confirmed one still waits for its event. -/
def Overtakes (s : State cfg) : Action → Prop
  | .recv _ => Handles s
  | _ => False

instance (s : State cfg) : (a : Action) → Decidable (Overtakes s a)
  | .recv _ => inferInstanceAs (Decidable (Handles s))
  | .recvErr _ | .sent | .timer | .event => inferInstanceAs (Decidable False)

/-- The runs in which no byte overtakes the event of a confirmed frame. -/
abbrev orderlySystem (cfg : Config U) : System (State cfg × Line) Action :=
  ((rtuSystem cfg).restrict fun s a => ¬Overtakes s a).track Line.start Line.next

/-- All runs, with the history of the line. -/
abbrev trackedSystem (cfg : Config U) : System (State cfg × Line) Action :=
  (rtuSystem cfg).track Line.start Line.next

/-! ## The invariant -/

/-- The receive buffer against the history, as long as no error is pending. -/
structure Isolated (s : State cfg) (line : Line) : Prop where
  wf : Wf s
  sofLe : line.sof ≤ line.heard.length
  confirmedLe : line.confirmed ≤ line.heard.length
  /-- A frame in progress is what came since the start of frame. -/
  frame : s.status.error = false → InFrame s →
    s.rxbuf.filled = line.heard.drop line.sof ∧ line.confirmed ≤ line.sof
  /-- So is a confirmed frame. -/
  pending : Handles s →
    s.rxbuf.filled = line.heard.drop line.sof ∧ line.confirmedBefore ≤ line.sof

/-- A step that neither opens nor confirms a frame only adds what was received. -/
theorem Line.next_eq {line : Line} {s : State cfg} {a : Action}
    (hsof : ¬(s.status.curr = .idle ∧ (s.step a).status.curr = .sof))
    (hconf : ¬(s.status.curr = .eof ∧ (s.step a).status.curr = .idle)) :
    line.next s a = { line with heard := (line.next s a).heard } := by
  simp [Line.next, hsof, hconf]

/-- In particular a step that stays in its state. -/
theorem Line.next_eq_of_curr {line : Line} {s : State cfg} {a : Action}
    (h : (s.step a).status.curr = s.status.curr) :
    line.next s a = { line with heard := (line.next s a).heard } := by
  apply Line.next_eq
  · rintro ⟨hc, hc'⟩
    rw [h, hc] at hc'
    cases hc'
  · rintro ⟨hc, hc'⟩
    rw [h, hc] at hc'
    cases hc'

theorem Line.heard_length_le (line : Line) (s : State cfg) (a : Action) :
    line.heard.length ≤ (line.next s a).heard.length := by
  cases a <;> simp [Line.next]

/-- A step into an error, or out of every frame, has nothing to keep up. -/
theorem Isolated.of_neither {s s' : State cfg} {line line' : Line} (h : Isolated s line)
    (hwf : Wf s') (hsof : line'.sof = line.sof) (hconf : line'.confirmed = line.confirmed)
    (hlen : line.heard.length ≤ line'.heard.length)
    (hframe : s'.status.error = false → ¬InFrame s') (hpending : ¬Handles s') :
    Isolated s' line' where
  wf := hwf
  sofLe := by rw [hsof]; exact Nat.le_trans h.sofLe hlen
  confirmedLe := by rw [hconf]; exact Nat.le_trans h.confirmedLe hlen
  frame herr hin := absurd hin (hframe herr)
  pending hh := absurd hh hpending

theorem isolated_raise {s : State cfg} {line line' : Line} (h : Isolated s line)
    (hsof : line'.sof = line.sof) (hconf : line'.confirmed = line.confirmed)
    (hlen : line.heard.length ≤ line'.heard.length) : Isolated s.raise line' :=
  h.of_neither h.wf.raise hsof hconf hlen (fun he => absurd he Bool.true_eq_false.mp)
    (not_handles_of_error rfl)

/-- A byte is stored or raises an error. -/
theorem isolated_recv {s : State cfg} {line : Line} (h : Isolated s line) (data : UInt8)
    (hok : ¬Overtakes s (.recv data)) :
    Isolated (serialRecvCb s data) (line.next s (.recv data)) := by
  have hwf := serialRecvCb_wf h.wf data
  have hcase := recv_case s data
  generalize hstep : serialRecvCb s data = s' at hwf hcase ⊢
  cases hcase with
  | opened hidle =>
      have hline : line.next s (.recv data) =
          { heard := line.heard ++ [data], sof := line.heard.length, confirmed := line.confirmed,
            confirmedBefore := line.confirmedBefore } := by
        have hcurr : (s.step (.recv data)).status.curr = .sof := by
          rw [State.step, hstep]
          exact rxbufAppend_status_curr _ _
        simp [Line.next, hidle, hcurr]
      rw [hline]
      refine ⟨hwf, by simp, ?_, ?_, ?_⟩
      · simpa using Nat.le_succ_of_le h.confirmedLe
      · intro herr _
        obtain ⟨herr', hfilled⟩ := rxbufAppend_of_no_error (s.update .sof) data herr
        -- the buffer is empty: nothing is pending in `idle` that the byte could overtake
        have hempty : s.rxbuf.curr = 0 := by
          apply h.wf.rxIdle
          simp only [Status.Drained, hidle]
          rcases h.wf.prev_idle hidle with hp | hp
          · exact .inl hp
          · right
            by_contra hup
            exact hok ⟨by simpa using hup, herr', hidle, hp⟩
        refine ⟨hfilled.trans ?_, h.confirmedLe⟩
        rw [show (s.update .sof).rxbuf.filled = [] from Buf.filled_eq_nil hempty]
        simp
      · intro hh
        exact absurd hh (not_handles_of_curr (c := .sof) (rxbufAppend_status_curr _ _))
  | extended hframe =>
      have hline : line.next s (.recv data) = { line with heard := line.heard ++ [data] } := by
        have hcurr : (s.step (.recv data)).status.curr = .recv := by
          rw [State.step, hstep]
          exact rxbufAppend_status_curr _ _
        have hidle : s.status.curr ≠ .idle := by rcases hframe with hc | hc <;> simp [hc]
        exact Line.next_eq (by simp [hidle]) (by simp [hcurr])
      rw [hline]
      refine ⟨hwf, ?_, ?_, ?_, ?_⟩
      · simpa using Nat.le_succ_of_le h.sofLe
      · simpa using Nat.le_succ_of_le h.confirmedLe
      · intro herr _
        obtain ⟨herr', hfilled⟩ := rxbufAppend_of_no_error (s.update .recv) data herr
        obtain ⟨hold, hle⟩ := h.frame herr' (hframe.elim .inl fun hr => .inr (.inl hr))
        refine ⟨hfilled.trans ?_, hle⟩
        rw [show (s.update .recv).rxbuf.filled = line.heard.drop line.sof from hold,
          List.drop_append_of_le_length h.sofLe]
      · intro hh
        exact absurd hh (not_handles_of_curr (c := .recv) (rxbufAppend_status_curr _ _))
  | stray =>
      have hcurr : (s.step (.recv data)).status.curr = s.status.curr := by
        rw [State.step, hstep]
        rfl
      rw [Line.next_eq_of_curr hcurr]
      exact isolated_raise h rfl rfl (line.heard_length_le s (.recv data))

/-- Only `sof` and `recv` are left by an end of frame; only `eof` is confirmed. -/
theorem isolated_timer {s : State cfg} {line : Line} (h : Isolated s line)
    (harmed : s.timer ≠ .stopped) : Isolated (timerIsr s) (line.next s .timer) := by
  have hwf := timerIsr_wf h.wf harmed
  have hcase := timer_case h.wf harmed
  generalize hstep : timerIsr s = s' at hwf hcase ⊢
  cases hcase with
  | silence hc =>
      rw [Line.next_eq (by simp [hc]) (by simp [hc])]
      refine h.of_neither hwf rfl rfl (Nat.le_refl _) ?_ ?_
      · intro _
        exact not_inFrame (c := .idle) rfl
      · intro hh
        cases hc.symm.trans hh.prev
  | stray hc =>
      rw [Line.next_eq (by simp [hc]) (by simp [hc])]
      exact isolated_raise h rfl rfl (Nat.le_refl _)
  | ended hc =>
      rw [Line.next_eq (by simp [hc]) (by simp [hc])]
      refine ⟨hwf, h.sofLe, h.confirmedLe, ?_, ?_⟩
      · intro herr _
        exact h.frame herr (.inr (.inl hc))
      · intro hh
        exact absurd hh (not_handles_of_curr (c := .eof) rfl)
  | confirmed hc =>
      have hline : line.next s .timer =
          { heard := line.heard, sof := line.sof, confirmed := line.heard.length,
            confirmedBefore := line.confirmed } := by
        have hidle : (s.step .timer).status.curr = .idle := by
          rw [State.step, hstep]
          rfl
        simp [Line.next, hc, hidle]
      rw [hline]
      -- the frame in progress becomes the pending one, the old confirmation the one before
      refine ⟨hwf, h.sofLe, Nat.le_refl _, ?_, ?_⟩
      · intro _ hin
        exact absurd hin (not_inFrame (c := .idle) rfl)
      · intro hh
        exact h.frame hh.error (.inr (.inr hc))

theorem isolated_sent {s : State cfg} {line : Line} (h : Isolated s line) :
    Isolated (serialSentCb s) (line.next s .sent) := by
  by_cases hbusy : s.status.curr = .busy
  · rw [Line.next_eq (by simp [hbusy]) (by simp [hbusy])]
    refine h.of_neither (serialSentCb_wf h.wf) rfl rfl (Nat.le_refl _) ?_ ?_
    · intro _
      rw [serialSentCb_busy hbusy]
      exact not_inFrame (c := .init) rfl
    · rw [serialSentCb_busy hbusy]
      exact not_handles_of_curr (c := .init) rfl
  · have hraise : serialSentCb s = s.raise := serialSentCb_other hbusy
    have hcurr : (s.step .sent).status.curr = s.status.curr := by
      rw [State.step, hraise]
      rfl
    rw [Line.next_eq_of_curr hcurr, hraise]
    exact isolated_raise h rfl rfl (Nat.le_refl _)

/-- An event keeps a frame in progress as it is; in no other state is there one behind it. -/
theorem isolated_event {s : State cfg} {line : Line} (h : Isolated s line) :
    Isolated (modbusRtuEvent s) (line.next s .event) := by
  have hwf := modbusRtuEvent_wf h.wf
  have hdone := event_not_handles h.wf
  by_cases hin : s.status.error = false ∧ InFrame s
  · obtain ⟨herr, hin⟩ := hin
    obtain ⟨calls, hstep⟩ := event_of_inFrame h.wf herr hin
    have hcurr : (s.step .event).status.curr = s.status.curr := by
      rw [State.step, hstep]
      rfl
    rw [Line.next_eq_of_curr hcurr]
    refine ⟨hwf, h.sofLe, h.confirmedLe, ?_, fun hh => absurd hh hdone⟩
    intro _ _
    rw [hstep]
    exact h.frame herr hin
  · cases hup : s.status.updated with
    | false =>
        have hquiet := event_quiet hup
        have hcurr : (s.step .event).status.curr = s.status.curr := by
          rw [State.step, hquiet]
        rw [Line.next_eq_of_curr hcurr, hquiet]
        exact h
    | true =>
        have hout := event_not_inFrame h.wf hup hin
        have hline : line.next s .event = { line with heard := (line.next s .event).heard } := by
          apply Line.next_eq
          · exact fun ⟨_, hc'⟩ => hout (.inl hc')
          · rintro ⟨hc, hc'⟩
            have herr : s.status.error = true := by
              by_contra hne
              exact hin ⟨by simpa using hne, .inr (.inr hc)⟩
            rw [State.step, event_error hup herr] at hc'
            cases hc'
        rw [hline]
        exact h.of_neither hwf rfl rfl (Nat.le_refl _) (fun _ => hout) hdone

theorem isolated_recvErr {s : State cfg} {line : Line} (h : Isolated s line) (data : UInt8) :
    Isolated (serialRecvErrCb s data) (line.next s (.recvErr data)) := by
  have hwf : Wf (serialRecvErrCb s data) := serialRecvErrCb_wf h.wf data
  rw [Line.next_eq_of_curr rfl]
  exact h.of_neither hwf rfl rfl (Nat.le_refl _) (fun he => absurd he Bool.true_eq_false.mp)
    (not_handles_of_error rfl)

theorem isolated_invariant : (orderlySystem cfg).Inductive fun p => Isolated p.1 p.2 where
  init := by
    rintro ⟨s, line⟩ ⟨⟨userData, hs⟩, hline⟩
    obtain rfl : s = modbusRtuInit cfg userData := hs
    obtain rfl : line = Line.start := hline
    refine ⟨modbusRtuInit_wf userData, Nat.le_refl _, Nat.le_refl _, ?_, ?_⟩
    · intro _ hin
      exact absurd hin (not_inFrame (c := .init) rfl)
    · intro hh
      exact absurd hh (not_handles_of_curr (c := .init) rfl)
  step := by
    rintro ⟨s, line⟩ a h ⟨hen, hok⟩
    cases a with
    | recv data => exact isolated_recv h data hok
    | recvErr data => exact isolated_recvErr h data
    | sent => exact isolated_sent h
    | timer => exact isolated_timer h (hen rfl)
    | event => exact isolated_event h

/-! ## Frame isolation -/

/-- The bytes a call of `pdu_cb` finds in front of `end`, with the CRC behind
it, are the receive buffer up to its cursor. -/
theorem frame_of_pduArgs {s : State cfg} (hacc : Accepted s.rxbuf.filled) :
    (pduArgs s).src.take ((pduArgs s).end_ + 2) = s.rxbuf.filled := by
  have hlen : 4 ≤ s.rxbuf.filled.length := hacc.1
  have hcurr : 4 ≤ s.rxbuf.curr := Nat.le_trans hlen (List.length_take_le _ _)
  show s.rxbuf.cells.toList.take (s.rxbuf.curr - 2 + 2) = _
  rw [Nat.sub_add_cancel (by omega)]
  rfl

/-- In every run in which no byte overtakes the event of a confirmed frame,
each frame handed to `pdu_cb` is exactly what was received since the machine
last left `idle`, and nothing of it came before the end of an earlier frame
was confirmed. -/
theorem frame_isolated {s : State cfg} {line : Line}
    (hreach : (orderlySystem cfg).Reachable (s, line)) {a : Action} {args : PduArgs}
    (hcall : Call.pduCb args ∈ callsSince s (s.step a)) :
    args.src.take (args.end_ + 2) = line.heard.drop line.sof ∧
      line.confirmedBefore ≤ line.sof := by
  have h : Isolated s line := isolated_invariant.holds hreach
  obtain ⟨⟨-, hh⟩, hmem⟩ := (mem_callsSince_step h.wf rfl).mp hcall
  obtain ⟨hframe, hbefore⟩ := h.pending hh
  unfold frameCalls at hmem
  split at hmem
  · next hacc =>
      have hargs : args = pduArgs s := by
        rcases List.mem_cons.mp hmem with heq | hrest
        · exact Call.pduCb.inj heq
        · split at hrest <;> simp at hrest
      rw [hargs, frame_of_pduArgs hacc]
      exact ⟨hframe, hbefore⟩
  · exact absurd hmem List.not_mem_nil

/-! ## The run that fails, and one that does not -/

/-- A frame and the two timeouts that confirm its end, with no event in between. -/
def frameRun (adu : List UInt8) : List Action := adu.map .recv ++ [.timer, .timer]

def listenerStart : State listener × Line := (modbusRtuInit listener (), Line.start)

/-- The state and history after the actions, from power up. -/
def listenerAfter (acts : List Action) : State listener × Line :=
  (trackedSystem listener).run listenerStart acts

theorem listenerAfter_reachable {acts : List Action}
    (h : (trackedSystem listener).Legal listenerStart acts) :
    (trackedSystem listener).Reachable (listenerAfter acts) :=
  System.Reachable.run (.init ⟨⟨(), rfl⟩, rfl⟩) h

theorem listenerAfter_orderly {acts : List Action}
    (h : (orderlySystem listener).Legal listenerStart acts) :
    (orderlySystem listener).Reachable (listenerAfter acts) :=
  System.Reachable.run (M := orderlySystem listener) (.init ⟨⟨(), rfl⟩, rfl⟩) h

/-- A frame, with an event only at the end. -/
def oneFrame : List Action := boot ++ frameRun (withCrc [1, 3])

/-- The same, but two zero bytes and their timeouts come before the event. -/
def twoFrames : List Action := oneFrame ++ frameRun [0, 0]

theorem frame_isolated_oneFrame :
    let p := listenerAfter oneFrame
    (pduArgs p.1).src.take ((pduArgs p.1).end_ + 2) = p.2.heard.drop p.2.sof ∧
      p.2.confirmedBefore ≤ p.2.sof :=
  frame_isolated (listenerAfter_orderly (by decide +kernel)) (a := .event) (by decide +kernel)

/-- Two zero bytes right behind a confirmed frame are handed over together with it. -/
theorem overtaking_frame_appended :
    ¬∀ (s : State listener) (line : Line), (trackedSystem listener).Reachable (s, line) →
      ∀ args, Call.pduCb args ∈ callsSince s (s.step .event) →
        args.src.take (args.end_ + 2) = line.heard.drop line.sof := by
  intro hall
  have hreach : (trackedSystem listener).Reachable (listenerAfter twoFrames) :=
    listenerAfter_reachable (by decide)
  have hcall : Call.pduCb (pduArgs (listenerAfter twoFrames).1) ∈
      callsSince (listenerAfter twoFrames).1 ((listenerAfter twoFrames).1.step .event) := by
    decide +kernel
  exact absurd (hall _ _ hreach _ hcall) (by decide +kernel)

end ModbusRtu
