import ModbusRtu.Theorems.Firmware
import ModbusRtu.Theorems.Serving

/-!
# Frames at the firmware

A frame comes in at the sleeping firmware byte by byte, each byte with its
interrupt, while the main loop goes on as it likes; then the line is silent
until the loop sleeps for good (`Brings`). No order of the statements and the
interrupts makes a difference: the frame is taken or not as by a machine that
is called in the best order (`Brings.reacts`), so what holds of frames that
come in one after the other holds of the firmware.

The proof follows the frame. While its bytes come in the machine holds them or
is bound to restart (`Fills`); in the silence it is confirmed and handled, and
after that nothing more can happen to it (`Underway`).
-/

namespace ModbusRtu

open Base

/-! ## Steps that handle no frame -/

section

variable {U : Type} {cfg : Config U} {s : State cfg}

/-- A step that handles no frame leaves the user data and the log alone. -/
theorem step_apart (hwf : Wf s) {a : Action} (hnot : ¬(a = .event ∧ Handles s)) :
    (s.step a).userData = s.userData ∧ (s.step a).frameLog = s.frameLog := by
  have hnone : stepFrameCalls s a = [] := if_neg hnot
  exact ⟨(step_of_no_pduCb hwf (by rw [hnone]; rfl)).2, frameLog_step_of_not hwf hnot⟩

/-- An event that handles no frame leaves no error behind. -/
theorem event_no_error (hwf : Wf s) (hnot : ¬Handles s) :
    (modbusRtuEvent s).status.error = false := by
  have hcase := event_case hwf
  generalize modbusRtuEvent s = s' at hcase ⊢
  cases hcase with
  | quiet hup => exact hwf.error_of_not_updated hup
  | error => rfl
  | frame hh => exact absurd hh hnot
  | init _ herr | passed _ herr | suspended _ herr => exact herr

/-- A transmission goes on over events. -/
theorem event_keeps_busy (hbusy : s.status.curr = .busy) (herr : s.status.error = false) :
    (modbusRtuEvent s).status.curr = .busy := by
  cases hup : s.status.updated with
  | false =>
      rw [event_quiet hup]
      exact hbusy
  | true =>
      rw [event_busy hup herr hbusy]
      exact hbusy

end

variable {U : Type} {pduCb : U → PduArgs → U × List UInt8} {fw fw' : Firmware pduCb}

/-! ## Moves -/

/-- The byte that is received, if it is received without an error. -/
def Move.byte : Move → Option UInt8
  | .interrupt (.usartRxRecv data fopErrors) => if 0 = fopErrors then some data else none
  | _ => none

/-- While a frame comes in, its bytes are received and the main loop goes on. -/
def Move.Feeds (m : Move) : Prop := m = .main ∨ ∃ data, m = .interrupt (.usartRxRecv data 0)

namespace Firmware

/-! ## One move -/

variable {deaf : Bool} {s : State (atmegaConfig pduCb)} {f : List UInt8}

/-- An event that handles no frame starts no transmission. -/
theorem main_event_of_not (hnext : fw.next = .event) (hwf : Wf fw.state)
    (hnot : ¬Handles fw.state) : fw.main = { fw with
      state := modbusRtuEvent fw.state
      next := .idle } := by
  have hnone : (callsSince fw.state (modbusRtuEvent fw.state)).any startsTransmission = false :=
    Bool.eq_false_iff.mpr fun hst => hnot ((starts_iff hwf).mp hst).1
  rw [main_event hnext, hnone, Bool.or_false]

/-- The loop goes on, and a frame in progress stays as it is. -/
theorem held_main {state : RtuState} (hheld : Holds s f state fw.state) (hin : InFrame fw.state) :
    Holds s f state fw.main.state ∧ fw.main.sending = fw.sending := by
  rcases main_cases fw with hnext | ⟨hstate, hsame, -⟩
  · rw [main_event_of_not hnext hheld.wf fun hh => absurd hin (not_inFrame hh.curr)]
    exact ⟨hheld.event hin, rfl⟩
  · rw [hstate]
    exact ⟨hheld, hsame⟩

/-- An interrupt starts no transmission. -/
theorem serve_not_sending (hsending : fw.sending = false) (i : Interrupt) :
    (fw.serve i).sending = false := by
  show (fw.sending && _) = false
  rw [hsending, Bool.false_and]

/-- The silence that is left cannot make the machine handle a frame. -/
structure Calming (fw : Firmware pduCb) : Prop where
  settled : Settled fw.state
  error : fw.state.status.error = true → fw.next.Ahead
  sending : fw.sending = true → fw.state.status.curr = .busy ∧ fw.state.status.error = false

theorem Calming.main (h : fw.Calming) (hwf : Wf fw.state) :
    fw.main.Calming ∧ fw.main.state.userData = fw.state.userData ∧
      fw.main.state.frameLog = fw.state.frameLog := by
  rcases main_cases fw with hnext | ⟨hstate, hsending, hahead⟩
  · have hnot : ¬Handles fw.state := h.settled.not_handles
    rw [main_event_of_not hnext hwf hnot]
    refine ⟨⟨h.settled.event hwf, ?_, ?_⟩, step_apart hwf (a := .event) fun hev => hnot hev.2⟩
    · intro herr
      cases (event_no_error hwf hnot).symm.trans herr
    · intro hsending
      obtain ⟨hbusy, herr⟩ := h.sending hsending
      exact ⟨event_keeps_busy hbusy herr, event_no_error hwf hnot⟩
  · refine ⟨⟨?_, ?_, ?_⟩, by rw [hstate], by rw [hstate]⟩
    · rw [hstate]
      exact h.settled
    · rw [hstate, hahead]
      exact h.error
    · rw [hstate, hsending]
      exact h.sending

theorem Calming.serve (h : fw.Calming) (hsound : fw.Sound) {i : Interrupt} (hserves : fw.Serves)
    (hdue : fw.Due i) (hsilent : ∀ data fopErrors, i ≠ .usartRxRecv data fopErrors) :
    (fw.serve i).Calming ∧ (fw.serve i).state.userData = fw.state.userData ∧
      (fw.serve i).state.frameLog = fw.state.frameLog := by
  have hahead : (fw.serve i).next.Ahead := .inl (hsound.serve_next hserves i)
  have hapart : (fw.serve i).state.userData = fw.state.userData ∧
      (fw.serve i).state.frameLog = fw.state.frameLog := by
    rcases serve_cases hdue with ⟨-, hstate⟩ | ⟨a, -, hstate, hne, -⟩ <;> rw [hstate]
    · exact ⟨rfl, rfl⟩
    · exact step_apart hsound.wf fun hev => hne hev.1
  refine ⟨?_, hapart⟩
  cases i with
  | usartRxRecv data fopErrors => exact absurd rfl (hsilent data fopErrors)
  | usartDataEmpty => exact ⟨h.settled, fun _ => hahead, serve_dataEmpty_sending fw ▸ h.sending⟩
  | usartTxComplete =>
      refine ⟨?_, fun _ => hahead, fun hon => by cases (serve_sent_sending fw).symm.trans hon⟩
      show Settled (serialSentCb fw.state)
      rw [serialSentCb_busy (h.sending hdue).1]
      exact .inr (.inl rfl)
  | tmr =>
      refine ⟨h.settled.timer hsound.wf hdue, fun _ => hahead, ?_⟩
      rw [serve_tmr_sending]
      intro hon
      exact absurd (hsound.wf.timer_busy (h.sending hon).1) hdue

/-! ## The bytes -/

/-- What the bytes `f` of a frame have made of the machine, with the loop going
on between them. -/
inductive Fills (deaf : Bool) (s : State (atmegaConfig pduCb)) :
    List UInt8 → Firmware pduCb → Prop
  | nothing {fw : Firmware pduCb} : fw.next = .asleep → fw.state = s → fw.sending = false →
      Fills deaf s [] fw
  | frame {f : List UInt8} {fw : Firmware pduCb} : deaf = false → f ≠ [] →
      Holds s f (frameState f) fw.state → fw.sending = false → Fills deaf s f fw
  | lost {f : List UInt8} {fw : Firmware pduCb} : f ≠ [] → deaf = true ∨ aduCapacity < f.length →
      Doomed s fw.state → (fw.state.status.error = true → fw.next.Ahead) → fw.sending = false →
      Fills deaf s f fw

theorem Fills.main (h : Fills deaf s f fw) (hawake : fw.next ≠ .asleep) (hwf : Wf fw.state) :
    Fills deaf s f fw.main := by
  cases h with
  | nothing hnext => exact absurd hnext hawake
  | frame hdeaf hf hheld hsending =>
      obtain ⟨hheld', hsame⟩ := held_main hheld (hheld.receiving.imp id .inl)
      exact .frame hdeaf hf hheld' (hsame.trans hsending)
  | lost hf hwhy hdoomed hahead hsending =>
      rcases main_cases fw with hnext | ⟨hstate, hsame, hiff⟩
      · rw [main_event_of_not hnext hwf hdoomed.settled.not_handles]
        obtain ⟨hdoomed', herr, -⟩ := hdoomed.event
        exact .lost hf hwhy hdoomed' (fun hon => by cases herr.symm.trans hon) hsending
      · refine .lost hf hwhy (hstate ▸ hdoomed) ?_ (hsame.trans hsending)
        rw [hstate, hiff]
        exact hahead

/-- Of a machine that is not deaf, what it holds. -/
theorem Fills.of_fed (h : Fed s f fw.state) (hf : f ≠ []) (hahead : fw.next.Ahead)
    (hsending : fw.sending = false) : Fills false s f fw := by
  cases h with
  | nothing => exact absurd rfl hf
  | frame _ hheld => exact .frame rfl hf hheld hsending
  | overrun hlen hdoomed => exact .lost hf (.inr hlen) hdoomed (fun _ => hahead) hsending

theorem Fills.byte (h : Fills deaf s f fw) (hrest : AtRest deaf s) (hsound : fw.Sound)
    (hserves : fw.Serves) (data : UInt8) :
    Fills deaf s (f ++ [data]) (fw.serve (.usartRxRecv data 0)) := by
  have hahead : (fw.serve (.usartRxRecv data 0)).next.Ahead :=
    .inl (hsound.serve_next hserves _)
  have hstate : (fw.serve (.usartRxRecv data 0)).state = serialRecvCb fw.state data := rfl
  have hne : f ++ [data] ≠ [] := List.append_ne_nil_of_right_ne_nil f (List.cons_ne_nil data [])
  cases h with
  | nothing _ hs hsending =>
      cases deaf with
      | true =>
          have hstart : Doomed s s := ⟨hrest.wf, .inl hrest.error, rfl⟩
          refine .lost hne (.inl rfl) ?_ (fun _ => hahead) (serve_not_sending hsending _)
          rw [hstate, hs]
          exact hstart.recv data
      | false =>
          refine .of_fed ?_ hne hahead (serve_not_sending hsending _)
          rw [hstate, hs]
          exact hrest.quiet.recv data
  | frame hdeaf hf hheld hsending =>
      subst hdeaf
      refine .of_fed ?_ hne hahead (serve_not_sending hsending _)
      rw [hstate]
      exact hheld.recv hf data
  | lost hf hwhy hdoomed _ hsending =>
      refine .lost hne ?_ (hdoomed.recv data) (fun _ => hahead) (serve_not_sending hsending _)
      refine hwhy.imp_right fun hlen => ?_
      rw [List.length_append]
      exact Nat.lt_add_right _ hlen

/-! ## The silence -/

/-- What the silence behind the frame `f` makes of it: it waits to be ended and
to be confirmed, it is handled by the next event, or nothing more can happen. -/
inductive Underway (deaf : Bool) (s : State (atmegaConfig pduCb)) (f : List UInt8)
    (fw : Firmware pduCb) : Prop
  | frame : deaf = false → f ≠ [] → Holds s f (frameState f) fw.state → fw.sending = false →
      Underway deaf s f fw
  | ended : deaf = false → 2 ≤ f.length → Holds s f .eof fw.state → fw.sending = false →
      Underway deaf s f fw
  | confirmed : deaf = false → 2 ≤ f.length → Holds s f .idle fw.state → Handles fw.state →
      fw.next.Ahead → fw.sending = false → Underway deaf s f fw
  | rejected : (frameHearing aduCapacity).after deaf f = true →
      FrameOutcome deaf s f fw.state → AtRest true fw.state → ¬fw.next.Ahead →
      fw.sending = false → Underway deaf s f fw
  | calming : (frameHearing aduCapacity).after deaf f = false →
      FrameOutcome deaf s f fw.state → fw.Calming → Underway deaf s f fw

theorem Fills.underway (h : Fills deaf s f fw) (hf : f ≠ []) : Underway deaf s f fw := by
  cases h with
  | nothing => exact absurd rfl hf
  | frame hdeaf _ hheld hsending => exact .frame hdeaf hf hheld hsending
  | lost _ hwhy hdoomed hahead hsending =>
      have hcalming : fw.Calming :=
        ⟨hdoomed.settled, hahead, fun hon => by cases hsending.symm.trans hon⟩
      cases deaf with
      | true => exact .calming rfl (.inl ⟨rfl, hdoomed.log⟩) hcalming
      | false =>
          have hlen : aduCapacity < f.length := hwhy.resolve_left Bool.false_ne_true
          have hsize : ¬(2 ≤ f.length ∧ f.length ≤ aduCapacity) := by omega
          obtain ⟨hafter, htaken⟩ := hearing_dropped hsize
          exact .calming hafter (.inl ⟨htaken, hdoomed.log⟩) hcalming

/-- The event that handles the frame. -/
theorem handles_underway (hheld : Holds s f .idle fw.state) (hlen : 2 ≤ f.length)
    (hh : Handles fw.state) (hnext : fw.next = .event) (hsending : fw.sending = false) :
    Underway false s f fw.main := by
  have hwf := hheld.wf
  have hcap : f.length ≤ aduCapacity := hheld.length_le.2
  have hlog : (modbusRtuEvent fw.state).frameLog = s.frameLog ++ frameCalls fw.state := by
    rw [hh.frameLog_event hwf, hheld.log]
  have hfilled : Accepted fw.state.rxbuf.filled ↔ Accepted f := by rw [hheld.filled]
  have hstarts := starts_iff hwf
  rw [main_event hnext, hsending, Bool.false_or]
  rcases handled_async rfl hwf hh with ⟨hrej, hrest⟩ | hacc
  · obtain ⟨hafter, htaken⟩ := hearing_rejected hlen hcap (mt hfilled.mpr hrej)
    rw [frameCalls_of_not_accepted hrej, List.append_nil] at hlog
    exact .rejected hafter (.inl ⟨htaken, hlog⟩) hrest (by simp [Statement.Ahead])
      (Bool.eq_false_iff.mpr fun hst => hrej (hstarts.mp hst).2.1)
  · have hacc' : Accepted f := hfilled.mp (hacc.elim And.left And.left)
    obtain ⟨hafter, htaken⟩ := hearing_good hacc' hcap
    have hdata : (modbusRtuEvent fw.state).userData =
        ((atmegaConfig pduCb).pduCb fw.state.userData (pduArgs fw.state)).1 := by
      rw [event_handled hwf hh]
      exact aduProcess_userData (s := consumed fw.state) (hfilled.mpr hacc') hh.error
    refine .calming hafter (.inr ⟨htaken, hacc', fw.state, hheld, hdata, hlog⟩)
      ⟨settled_of_handles hwf hh, ?_, ?_⟩
    · intro herr
      rcases hacc with ⟨-, -, hquiet⟩ | ⟨-, -, -, hnone⟩
      · cases hquiet.atRest.error.symm.trans herr
      · cases hnone.symm.trans herr
    · intro hst
      rcases hacc with ⟨-, hsilent, -⟩ | ⟨-, -, hbusy, hnone⟩
      · exact absurd hsilent (hstarts.mp hst).2.2
      · exact ⟨hbusy, hnone⟩

theorem Underway.main (h : Underway deaf s f fw) (hwf : Wf fw.state) :
    Underway deaf s f fw.main := by
  cases h with
  | frame hdeaf hf hheld hsending =>
      obtain ⟨hheld', hsame⟩ := held_main hheld (hheld.receiving.imp id .inl)
      exact .frame hdeaf hf hheld' (hsame.trans hsending)
  | ended hdeaf hlen hheld hsending =>
      obtain ⟨hheld', hsame⟩ := held_main hheld (.inr (.inr hheld.curr))
      exact .ended hdeaf hlen hheld' (hsame.trans hsending)
  | confirmed hdeaf hlen hheld hh hahead hsending =>
      rcases main_cases fw with hnext | ⟨hstate, hsame, hiff⟩
      · subst hdeaf
        exact handles_underway hheld hlen hh hnext hsending
      · exact .confirmed hdeaf hlen (hstate ▸ hheld) (hstate ▸ hh) (hiff.mpr hahead)
          (hsame.trans hsending)
  | rejected hafter hout hrest hnot hsending =>
      obtain ⟨hstate, hsame, hnot'⟩ := main_behind hnot
      exact .rejected hafter (hstate ▸ hout) (hstate ▸ hrest) hnot' (hsame.trans hsending)
  | calming hafter hout hcalming =>
      obtain ⟨hcalming', hdata, hlog⟩ := hcalming.main hwf
      exact .calming hafter (hout.congr hdata hlog) hcalming'

theorem Underway.serve (h : Underway deaf s f fw) (hsound : fw.Sound) {i : Interrupt}
    (hserves : fw.Serves) (hdue : fw.Due i)
    (hsilent : ∀ data fopErrors, i ≠ .usartRxRecv data fopErrors) :
    Underway deaf s f (fw.serve i) := by
  have hwf := hsound.wf
  have hahead : (fw.serve i).next.Ahead := .inl (hsound.serve_next hserves i)
  -- with no transmission under way the interrupt is the timer's
  have htmr (hsending : fw.sending = false) : i = .tmr := by
    cases i with
    | usartRxRecv data fopErrors => exact absurd rfl (hsilent data fopErrors)
    | usartDataEmpty | usartTxComplete => cases hsending.symm.trans hdue
    | tmr => rfl
  cases h with
  | frame hdeaf hf hheld hsending =>
      obtain rfl := htmr hsending
      subst hdeaf
      by_cases hone : f.length = 1
      · -- a single byte: the timeout raises an error
        rw [frameState, if_pos hone] at hheld
        have hdoomed : Doomed s (fw.serve .tmr).state := hheld.timeout_sof
        have hsize : ¬(2 ≤ f.length ∧ f.length ≤ aduCapacity) := by omega
        obtain ⟨hafter, htaken⟩ := hearing_dropped hsize
        refine .calming hafter (.inl ⟨htaken, hdoomed.log⟩) ⟨hdoomed.settled, fun _ => hahead, ?_⟩
        exact fun hon => by cases (serve_not_sending hsending .tmr).symm.trans hon
      · have hpos : 0 < f.length := List.length_pos_iff.mpr hf
        rw [frameState, if_neg hone] at hheld
        exact .ended rfl (by omega) hheld.timeout (serve_not_sending hsending _)
  | ended hdeaf hlen hheld hsending =>
      obtain rfl := htmr hsending
      exact .confirmed hdeaf hlen hheld.confirm.1 hheld.confirm.2 hahead
        (serve_not_sending hsending _)
  | confirmed _ _ hheld _ _ hsending =>
      obtain rfl := htmr hsending
      exact absurd (hwf.timer_idle hheld.curr) hdue
  | rejected _ _ hrest _ hsending =>
      obtain rfl := htmr hsending
      exact absurd (hwf.timer_idle hrest.curr) hdue
  | calming hafter hout hcalming =>
      obtain ⟨hcalming', hdata, hlog⟩ := hcalming.serve hsound hserves hdue hsilent
      exact .calming hafter (hout.congr hdata hlog) hcalming'

/-- Step by step through the silence. -/
theorem Underway.run (h : Underway deaf s f fw) (hsound : fw.Sound) {moves : List Move}
    (hlegal : (silence pduCb).Legal fw moves) :
    Underway deaf s f ((silence pduCb).run fw moves) := by
  induction moves generalizing fw with
  | nil => exact h
  | cons m moves ih =>
      obtain ⟨⟨hen, hsilent⟩, hrest⟩ := hlegal
      have hsound' : ((firmware pduCb).step fw m).Sound := sound_invariant.step fw m hsound hen
      refine ih ?_ hsound' hrest
      cases m with
      | main => exact h.main hsound.wf
      | interrupt i =>
          refine h.serve hsound hen.1 hen.2 ?_
          rintro data fopErrors rfl
          exact hsilent data fopErrors rfl

/-- Where the loop sleeps for good, the frame has been taken or not. -/
theorem Underway.over (h : Underway deaf s f fw) (hsleeps : fw.Sleeps) :
    AtRest ((frameHearing aduCapacity).after deaf f) fw.state ∧ FrameOutcome deaf s f fw.state := by
  have hidle := hsleeps.rest.curr
  have hnot : ¬fw.next.Ahead := by simp [hsleeps.next, Statement.Ahead]
  cases h with
  | frame _ _ hheld =>
      rcases hheld.receiving with hc | hc <;> cases hc.symm.trans hidle
  | ended _ _ hheld => cases hheld.curr.symm.trans hidle
  | confirmed _ _ _ _ hahead => exact absurd hahead hnot
  | rejected hafter hout hrest =>
      rw [hafter]
      exact ⟨hrest, hout⟩
  | calming hafter hout hcalming =>
      have herr : fw.state.status.error = false :=
        Bool.eq_false_iff.mpr fun hon => hnot (hcalming.error hon)
      rw [hafter, ← herr]
      exact ⟨hsleeps.rest, hout⟩

/-! ## Frames -/

/-- The line brings the frame `f`, and then silence until the loop sleeps for
good; the main loop and the interrupts go on in any order. -/
def Brings (fw : Firmware pduCb) (f : List UInt8) (fw' : Firmware pduCb) : Prop :=
  ∃ feed rest, (∀ m ∈ feed, m.Feeds) ∧ feed.filterMap Move.byte = f ∧
    (firmware pduCb).Legal fw feed ∧
    (silence pduCb).Legal ((firmware pduCb).run fw feed) rest ∧
    fw' = (silence pduCb).run ((firmware pduCb).run fw feed) rest ∧ fw'.Sleeps

/-- Frames come in one after the other. -/
inductive BringsAll : Firmware pduCb → List (List UInt8) → Firmware pduCb → Prop
  | nothing (fw : Firmware pduCb) : BringsAll fw [] fw
  | frame {fw fw₁ fw' : Firmware pduCb} {f : List UInt8} {frames : List (List UInt8)} :
      fw.Brings f fw₁ → BringsAll fw₁ frames fw' → BringsAll fw (f :: frames) fw'

theorem Fills.run (h : Fills deaf s f fw) (hrest : AtRest deaf s) (hsound : fw.Sound)
    {feed : List Move} (hfeeds : ∀ m ∈ feed, m.Feeds) (hlegal : (firmware pduCb).Legal fw feed) :
    Fills deaf s (f ++ feed.filterMap Move.byte) ((firmware pduCb).run fw feed) := by
  induction feed generalizing f fw with
  | nil => simpa using h
  | cons m feed ih =>
      have hsound' : ((firmware pduCb).step fw m).Sound := sound_invariant.step fw m hsound hlegal.1
      have htail : ∀ m ∈ feed, m.Feeds := fun m hm => hfeeds m (List.mem_cons_of_mem _ hm)
      rcases hfeeds m List.mem_cons_self with rfl | ⟨data, rfl⟩
      · exact ih (h.main hlegal.1 hsound.wf) hsound' htail hlegal.2
      · have hnext := ih (h.byte hrest hsound hlegal.1.1 data) hsound' htail hlegal.2
        rw [List.append_assoc] at hnext
        exact hnext

/-- The machine takes the frame or not, whatever the order of the main loop and
the interrupts. -/
theorem Brings.reacts (h : fw.Brings f fw') (hsound : fw.Sound) (hsleeps : fw.Sleeps)
    (hf : f ≠ []) : Reacts fw.state.status.error fw.state f fw'.state := by
  obtain ⟨feed, rest, hfeeds, rfl, hlegal, hlegal', rfl, hover⟩ := h
  have hstart : Fills fw.state.status.error fw.state [] fw :=
    .nothing hsleeps.next rfl hsleeps.sending
  have hfed := hstart.run hsleeps.rest hsound hfeeds hlegal
  rw [List.nil_append] at hfed
  have hsound' : ((firmware pduCb).run fw feed).Sound := sound_invariant.run hsound hlegal
  obtain ⟨hrest, hout⟩ := ((hfed.underway hf).run hsound' hlegal').over hover
  have hboth : (firmware pduCb).Legal fw (feed ++ rest) :=
    System.legal_append.mpr ⟨hlegal, hlegal'.of_restrict⟩
  obtain ⟨acts, hacts, hstate⟩ := run_state hboth
  rw [System.run_append] at hstate
  exact ⟨hrest, ⟨acts, hacts, hstate⟩, hout⟩

theorem Brings.sound (h : fw.Brings f fw') (hsound : fw.Sound) : fw'.Sound ∧ fw'.Sleeps := by
  obtain ⟨feed, rest, -, -, hlegal, hlegal', rfl, hover⟩ := h
  exact ⟨(sound_invariant.restrict _).run (sound_invariant.run hsound hlegal) hlegal', hover⟩

variable {frames : List (List UInt8)}

theorem BringsAll.reactions (h : BringsAll fw frames fw') (hsound : fw.Sound)
    (hsleeps : fw.Sleeps) (hne : ∀ f ∈ frames, f ≠ []) :
    Reactions fw.state.status.error fw.state frames fw'.state := by
  induction h with
  | nothing fw => exact .nothing _
  | frame hbrings _ ih =>
      have hreacts := hbrings.reacts hsound hsleeps (hne _ List.mem_cons_self)
      obtain ⟨hsound', hsleeps'⟩ := hbrings.sound hsound
      refine .frame hreacts ?_
      rw [← hreacts.rest.error]
      exact ih hsound' hsleeps' fun g hg => hne g (List.mem_cons_of_mem _ hg)

/-- Bytes can come in one right behind the other. -/
theorem legal_bytes (hserves : fw.Serves) (bytes : List UInt8) :
    (firmware pduCb).Legal fw (bytes.map fun data => .interrupt (.usartRxRecv data 0)) := by
  induction bytes generalizing fw with
  | nil => trivial
  | cons data bytes ih =>
      refine ⟨⟨hserves, trivial⟩, ih ⟨hserves.1, ?_⟩⟩
      show (if fw.next = .asleep then Statement.cli else fw.next) ≠ .sleepCpu
      split
      · decide
      · exact hserves.2

/-- Any frame can come in at the sleeping firmware. -/
theorem exists_brings (hsound : fw.Sound) (hsleeps : fw.Sleeps) (f : List UInt8) :
    ∃ fw', fw.Brings f fw' := by
  have hserves : fw.Serves := ⟨hsound.enabled (.inr hsleeps.next), by simp [hsleeps.next]⟩
  have hlegal := legal_bytes hserves f
  obtain ⟨rest, hlegal', hover⟩ := exists_sleep (sound_invariant.run hsound hlegal)
  refine ⟨_, _, rest, ?_, ?_, hlegal, hlegal', rfl, hover⟩
  · intro m hm
    obtain ⟨data, -, rfl⟩ := List.mem_map.mp hm
    exact .inr ⟨data, rfl⟩
  · rw [List.filterMap_map]
    exact List.filterMap_some

theorem exists_bringsAll (hsound : fw.Sound) (hsleeps : fw.Sleeps) (frames : List (List UInt8)) :
    ∃ fw', BringsAll fw frames fw' := by
  induction frames generalizing fw with
  | nil => exact ⟨fw, .nothing fw⟩
  | cons f frames ih =>
      obtain ⟨fw₁, hbrings⟩ := exists_brings hsound hsleeps f
      obtain ⟨hsound', hsleeps'⟩ := hbrings.sound hsound
      obtain ⟨fw', hall⟩ := ih hsound' hsleeps'
      exact ⟨fw', .frame hbrings hall⟩

/-! ## The theorems -/

/-- In every run of the firmware, once the loop sleeps for good: any sequence of
frames, good and bad, can come in, and in whatever order the main loop and the
interrupts go on, `pdu_cb` is called for those a receiver which goes deaf
takes, each once and byte by byte as it came in. -/
theorem takes_in_any_order (hreach : (firmware pduCb).Reachable fw) (hsleeps : fw.Sleeps)
    (hne : ∀ f ∈ frames, f ≠ []) :
    (∃ fw', BringsAll fw frames fw') ∧ ∀ fw', BringsAll fw frames fw' →
      (pduCalls (callsSince fw.state fw'.state)).map PduArgs.frame =
        (frameHearing aduCapacity).survivors fw.state.status.error frames := by
  have hsound : fw.Sound := sound_invariant.holds hreach
  refine ⟨exists_bringsAll hsound hsleeps frames, ?_⟩
  intro fw' hall
  exact (hall.reactions hsound hsleeps hne).delivered hsound.wf

/-- From power-up to the sleep in front of the first frame. -/
def powerUp : List Move := lap 5 ++ [.interrupt .tmr] ++ lap 6

/-- A firmware that is switched on comes to its sleep, and has met no error. -/
theorem sleeps_behind_power_up (pduCb : U → PduArgs → U × List UInt8) (userData : U) :
    ∃ fw : Firmware pduCb, (firmware pduCb).Reachable fw ∧ fw.Sleeps ∧
      fw.state.status.error = false ∧ fw.state.userData = userData := by
  have hlegal : (firmware pduCb).Legal (reset userData) powerUp := of_decide_eq_true rfl
  let started : State (atmegaConfig pduCb) := modbusRtuEvent (modbusRtuInit _ userData)
  let quiet : State (atmegaConfig pduCb) := modbusRtuEvent (timerIsr started)
  have hfirst : (firmware pduCb).run (reset userData) (lap 5) = ⟨started, .asleep, true, false⟩ :=
    rfl
  have hwoken : (firmware pduCb).step ⟨started, .asleep, true, false⟩ (.interrupt .tmr) =
      ⟨timerIsr started, .cli, true, false⟩ := rfl
  have hsecond : (firmware pduCb).run ⟨timerIsr started, .cli, true, false⟩ (lap 6) =
      ⟨quiet, .asleep, true, false⟩ := rfl
  have hrun : (firmware pduCb).run (reset userData) powerUp = ⟨quiet, .asleep, true, false⟩ := by
    rw [powerUp, System.run_append, System.run_append, hfirst, System.run_cons, System.run_nil,
      hwoken, hsecond]
  have hreach : (firmware pduCb).Reachable ⟨quiet, .asleep, true, false⟩ :=
    hrun ▸ System.Reachable.run (.init ⟨userData, rfl⟩) hlegal
  have hwf : Wf quiet := (sound_invariant.holds hreach).wf
  exact ⟨_, hreach, ⟨rfl, ⟨hwf, rfl, rfl, rfl⟩, rfl⟩, rfl, rfl⟩

/-- A rejected frame, the frame it costs, and one that is taken. -/
theorem takes_in_any_order_bad_crc :
    ∃ fw fw' : Firmware (U := Unit) fun u _ => (u, []),
      fw.Sleeps ∧ BringsAll fw [[1, 3, 0, 0], withCrc [1, 3], withCrc [1, 4]] fw' ∧
        (pduCalls (callsSince fw.state fw'.state)).map PduArgs.frame = [withCrc [1, 4]] := by
  obtain ⟨fw, hreach, hsleeps, herr, -⟩ :=
    sleeps_behind_power_up (fun (u : Unit) _ => (u, [])) ()
  have hne : ∀ f ∈ [[1, 3, 0, 0], withCrc [1, 3], withCrc [1, 4]], f ≠ [] := by decide
  obtain ⟨⟨fw', hall⟩, htaken⟩ := takes_in_any_order hreach hsleeps hne
  have hsurvive : (frameHearing aduCapacity).survivors false
      [[1, 3, 0, 0], withCrc [1, 3], withCrc [1, 4]] = [withCrc [1, 4]] := by decide
  refine ⟨fw, fw', hsleeps, hall, ?_⟩
  rw [htaken fw' hall, herr, hsurvive]

end Firmware

end ModbusRtu
