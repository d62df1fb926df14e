import ModbusRtu.Base.DeafReceiver
import ModbusRtu.Logic.Unanswered

/-!
# What becomes of a frame

However a frame comes in at a machine at rest, and in whatever order the events
come: the machine is at rest again behind it, and it has taken the frame, in a
state that held it, or it has not (`Reacts`). This is all that matters to those
who only look at the machine between frames.
-/

namespace ModbusRtu

open Base

variable {U : Type} {cfg : Config U}

/-! ## At rest -/

/-- Between two frames, with or without an error pending. -/
structure AtRest (deaf : Bool) (s : State cfg) : Prop where
  wf : Wf s
  curr : s.status.curr = .idle
  updated : s.status.updated = deaf
  error : s.status.error = deaf

theorem AtRest.quiet {s : State cfg} (h : AtRest false s) : Quiet s := ⟨h.wf, h.curr, h.updated⟩

theorem Quiet.atRest {s : State cfg} (h : Quiet s) : AtRest false s :=
  ⟨h.wf, h.curr, h.updated, h.wf.error_of_not_updated h.updated⟩

/-- Stored whole, a frame is taken if it is accepted, and deafens if not. -/
def frameHearing (cap : Nat) : Hearing (List UInt8) where
  good f := decide (Accepted f ∧ f.length ≤ cap)
  deafens f := decide (2 ≤ f.length ∧ f.length ≤ cap ∧ ¬Accepted f)
  exclusive f hgood := by
    rw [decide_eq_true_eq] at hgood
    exact decide_eq_false fun hdeaf => hdeaf.2.2 hgood.1

/-- The frame `pdu_cb` was called for, with its CRC. -/
def PduArgs.frame (args : PduArgs) : List UInt8 := args.src.take (args.end_ + 2)

section

variable {cap : Nat} {f : List UInt8}

theorem hearing_good (hacc : Accepted f) (hcap : f.length ≤ cap) :
    (frameHearing cap).after false f = false ∧ (frameHearing cap).taken false f = [f] := by
  have hgood : (frameHearing cap).good f = true := decide_eq_true ⟨hacc, hcap⟩
  exact ⟨(frameHearing cap).exclusive f hgood, if_pos hgood⟩

/-- An accepted frame leaves no error pending, whether it fits or not. -/
theorem accepted_not_deafening (hacc : Accepted f) (deaf : Bool) :
    (frameHearing cap).after deaf f = false := by
  have hdeafens : (frameHearing cap).deafens f = false :=
    decide_eq_false fun hdeaf => hdeaf.2.2 hacc
  rw [Hearing.after, hdeafens, Bool.and_false]

theorem hearing_rejected (hlen : 2 ≤ f.length) (hcap : f.length ≤ cap) (hrej : ¬Accepted f) :
    (frameHearing cap).after false f = true ∧ (frameHearing cap).taken false f = [] := by
  have hbad : (frameHearing cap).good f = false := decide_eq_false fun hgood => hrej hgood.1
  have hdeafens : (frameHearing cap).deafens f = true := decide_eq_true ⟨hlen, hcap, hrej⟩
  refine ⟨hdeafens, ?_⟩
  rw [Hearing.taken, hbad]
  rfl

theorem hearing_dropped (hsize : ¬(2 ≤ f.length ∧ f.length ≤ cap)) :
    (frameHearing cap).after false f = false ∧ (frameHearing cap).taken false f = [] := by
  have hbad : (frameHearing cap).good f = false :=
    decide_eq_false fun hgood => hsize ⟨Nat.le_trans (by decide) hgood.1.1, hgood.2⟩
  have hdrop : (frameHearing cap).deafens f = false :=
    decide_eq_false fun hdeaf => hsize ⟨hdeaf.1, hdeaf.2.1⟩
  refine ⟨hdrop, ?_⟩
  rw [Hearing.taken, hbad]
  rfl

end

/-- The arguments for a frame that is stored whole give it back. -/
theorem frame_pduArgs {s u : State cfg} {f : List UInt8} (h : Holds s f .idle u)
    (hlen : 2 ≤ f.length) : (pduArgs u).frame = f := by
  have hcurr : f.length = u.rxbuf.curr := h.length_le.1
  show u.rxbuf.cells.toList.take (u.rxbuf.curr - 2 + 2) = f
  rw [Nat.sub_add_cancel (by omega)]
  exact h.filled

/-! ## Reactions -/

/-- The frame `f` was taken, in a state that held it, or nothing was called for it. -/
def FrameOutcome (deaf : Bool) (s : State cfg) (f : List UInt8) (s' : State cfg) : Prop :=
  (frameHearing cfg.rxbufCapacity).taken deaf f = [] ∧ s'.frameLog = s.frameLog ∨
    (frameHearing cfg.rxbufCapacity).taken deaf f = [f] ∧ Accepted f ∧ ∃ u, Holds s f .idle u ∧
      s'.userData = (cfg.pduCb u.userData (pduArgs u)).1 ∧
      s'.frameLog = s.frameLog ++ frameCalls u

/-- The frame `f` has come in at `s`, which was at rest, and the machine is at rest in `s'`. -/
structure Reacts (deaf : Bool) (s : State cfg) (f : List UInt8) (s' : State cfg) : Prop where
  rest : AtRest ((frameHearing cfg.rxbufCapacity).after deaf f) s'
  run : ∃ acts, (rtuSystem cfg).Legal s acts ∧ s' = (rtuSystem cfg).run s acts
  outcome : FrameOutcome deaf s f s'

/-- Frames come in one after the other. -/
inductive Reactions : Bool → State cfg → List (List UInt8) → State cfg → Prop
  | nothing {deaf} (s) : Reactions deaf s [] s
  | frame {deaf} {s t s' : State cfg} {f frames} : Reacts deaf s f t →
      Reactions ((frameHearing cfg.rxbufCapacity).after deaf f) t frames s' →
      Reactions deaf s (f :: frames) s'

variable {s t s' : State cfg} {f : List UInt8} {frames : List (List UInt8)} {deaf : Bool}

/-! ## One frame -/

theorem FrameOutcome.congr (h : FrameOutcome deaf s f t) (hdata : s'.userData = t.userData)
    (hlog : s'.frameLog = t.frameLog) : FrameOutcome deaf s f s' := by
  unfold FrameOutcome
  rwa [hdata, hlog]

/-- What a frame has called is what it has added to the log of frame calls. -/
theorem Reacts.calls_eq (h : Reacts deaf s f s') (hwf : Wf s) {calls : List Call}
    (hlog : s'.frameLog = s.frameLog ++ calls) :
    (callsSince s s').filter Call.ofFrame = calls := by
  obtain ⟨acts, hlegal, rfl⟩ := h.run
  have hnew := frameLog_run hwf hlegal
  rw [hlog] at hnew
  exact (List.append_cancel_left hnew).symm

/-- It is handed over if it is taken. -/
theorem Reacts.delivered (h : Reacts deaf s f s') (hwf : Wf s) :
    (pduCalls (callsSince s s')).map PduArgs.frame =
      (frameHearing cfg.rxbufCapacity).taken deaf f := by
  rw [← pduCalls_filter]
  rcases h.outcome with ⟨htaken, hlog⟩ | ⟨htaken, hacc, u, hheld, -, hlog⟩
  · rw [h.calls_eq hwf (hlog.trans (List.append_nil _).symm), htaken]
    rfl
  · have hlen : 2 ≤ f.length := Nat.le_trans (by decide) hacc.1
    rw [h.calls_eq hwf hlog, (frameCalls_of_accepted (by rwa [hheld.filled])).1, htaken,
      List.map_singleton, frame_pduArgs hheld hlen]

/-- A frame that is not taken leaves the user data alone and is not answered. -/
theorem Reacts.untaken (h : Reacts deaf s f s') (hwf : Wf s)
    (htaken : (frameHearing cfg.rxbufCapacity).taken deaf f = []) :
    s'.userData = s.userData ∧ sends (callsSince s s') = [] := by
  have hnone := h.delivered hwf
  rw [htaken, List.map_eq_nil_iff] at hnone
  obtain ⟨acts, hlegal, rfl⟩ := h.run
  exact run_unanswered hwf hlegal hnone

/-! ## Many frames -/

theorem Reactions.run (h : Reactions deaf s frames s') :
    ∃ acts, (rtuSystem cfg).Legal s acts ∧ s' = (rtuSystem cfg).run s acts := by
  induction h with
  | nothing s => exact ⟨[], trivial, rfl⟩
  | frame hreacts _ ih =>
      obtain ⟨acts₁, hlegal₁, rfl⟩ := hreacts.run
      obtain ⟨acts₂, hlegal₂, rfl⟩ := ih
      exact ⟨acts₁ ++ acts₂, System.legal_append.mpr ⟨hlegal₁, hlegal₂⟩,
        (System.run_append _ _ _ _).symm⟩

theorem Reactions.atRest (h : Reactions deaf s frames s') (hrest : AtRest deaf s) :
    ∃ d, AtRest d s' := by
  induction h with
  | nothing s => exact ⟨_, hrest⟩
  | frame hreacts _ ih => exact ih hreacts.rest

/-- The calls for one frame, and for the others behind it. -/
theorem Reactions.callsSince_eq {d : Bool} (h : Reactions d t frames s')
    (hfirst : Reacts deaf s f t) (hwf : Wf s) :
    callsSince s s' = callsSince s t ++ callsSince t s' := by
  obtain ⟨acts₁, hlegal₁, rfl⟩ := hfirst.run
  obtain ⟨acts₂, hlegal₂, rfl⟩ := h.run
  have hboth := callsSince_run_append hwf (System.legal_append.mpr ⟨hlegal₁, hlegal₂⟩)
  rwa [System.run_append] at hboth

/-- Of the frames that come in, the survivors are handed over. -/
theorem Reactions.delivered (h : Reactions deaf s frames s') (hwf : Wf s) :
    (pduCalls (callsSince s s')).map PduArgs.frame =
      (frameHearing cfg.rxbufCapacity).survivors deaf frames := by
  induction h with
  | @nothing deaf s =>
      have hnone : pduCalls (callsSince s s) = [] := by simp [callsSince, pduCalls]
      rw [hnone]
      cases deaf <;> rfl
  | frame hreacts hrests ih =>
      rw [hrests.callsSince_eq hreacts hwf, pduCalls_append, List.map_append,
        hreacts.delivered hwf, ih hreacts.rest.wf, Hearing.survivors_cons]

end ModbusRtu
