import ModbusRtu.Theorems.Losses

/-!
# What a slave serves on a bad line

A slave hears its own requests, frames of other slaves, damaged frames and
frames with an error pending. It serves the requests among those it takes, in
their order, each one whole (`serves_survivors`); the others change nothing and
are not answered.
-/

namespace ModbusRtu

open Base

/-! ## Frames that are not taken -/

section

variable {U : Type} {cfg : Config U} {s s' : State cfg} {f : List UInt8}
  {frames : List (List UInt8)} {deaf : Bool}

/-- A frame that is not taken leaves the user data alone and is not answered. -/
theorem Exchange.untaken (h : Exchange s f s') (hrest : AtRest deaf s) (hf : f ≠ [])
    (htaken : (frameHearing cfg.rxbufCapacity).taken deaf f = []) :
    AtRest ((frameHearing cfg.rxbufCapacity).after deaf f) s' ∧ s'.userData = s.userData ∧
      sends (callsSince s s') = [] := by
  have hreacts := h.reacts hrest hf
  exact ⟨hreacts.rest, hreacts.untaken hrest.wf htaken⟩

/-- With an error pending no frame is taken. -/
theorem Exchange.lost (h : Exchange s f s') (hrest : AtRest true s) (hf : f ≠ []) :
    Quiet s' ∧ s'.userData = s.userData ∧ sends (callsSince s s') = [] := by
  obtain ⟨hrest', hunanswered⟩ := h.untaken hrest hf rfl
  exact ⟨hrest'.quiet, hunanswered⟩

/-- Frames of which none is accepted leave the user data alone and are not answered. -/
theorem Traffic.rejected (h : Traffic s frames s') (hrest : AtRest deaf s)
    (hbad : ∀ f ∈ frames, f ≠ [] ∧ ¬Accepted f) :
    s'.userData = s.userData ∧ sends (callsSince s s') = [] := by
  have hnone := h.delivered hrest fun f hf => (hbad f hf).1
  have hfilter : frames.filter (frameHearing cfg.rxbufCapacity).good = [] := by
    rw [List.filter_eq_nil_iff]
    intro f hf hgood
    exact (hbad f hf).2 (of_decide_eq_true hgood).1
  have hsub := (frameHearing cfg.rxbufCapacity).survivors_sublist deaf frames
  rw [hfilter] at hsub
  rw [List.eq_nil_of_sublist_nil hsub, List.map_eq_nil_iff] at hnone
  obtain ⟨acts, hlegal, rfl⟩ := (h.reactions hrest fun f hf => (hbad f hf).1).run
  exact run_unanswered hrest.wf hlegal hnone

end

/-! ## The slave as a memory -/

section

variable {w : IntWidth} {send : SerialSend} {s s' : State (slaveConfig w send)} {f : List UInt8}
  {deaf : Bool}

/-- The slave between two frames, as a memory. -/
structure Keeps (slaveAddr : UInt8) (h : Header) (m : Nat → UInt8)
    (s : State (slaveConfig w send)) : Prop where
  rest : ∃ deaf, AtRest deaf s
  addr : s.userData.selfAddr = slaveAddr
  header : s.userData.memory.header = h
  memory : s.userData.memory.Represents m

theorem Keeps.congr {slaveAddr : UInt8} {h : Header} {m : Nat → UInt8}
    (hkeeps : Keeps slaveAddr h m s) {deaf : Bool} (hrest : AtRest deaf s')
    (hdata : s'.userData = s.userData) : Keeps slaveAddr h m s' := by
  refine ⟨⟨deaf, hrest⟩, ?_, ?_, ?_⟩ <;> rw [hdata]
  · exact hkeeps.addr
  · exact hkeeps.header
  · exact hkeeps.memory

variable {slaveAddr : UInt8} {h : Header} {m : Nat → UInt8} {r : Request}

/-- An own request that is taken is executed and answered. -/
theorem Reacts.own (hreacts : Reacts false s (withCrc (slaveAddr :: r.encode)) s')
    (hkeeps : Keeps slaveAddr h m s) (hwf : Wf s) (hlegal : r.Legal) (hwithin : r.Within h) :
    Keeps slaveAddr h (replay m r.writes) s' ∧
      sends (callsSince s s') = [withCrc (slaveAddr :: r.reply m)] := by
  obtain ⟨-, haddr, hheader, hmemory⟩ := hkeeps
  have hwithin' : r.Within s.userData.memory.header := hheader ▸ hwithin
  rcases hreacts.outcome with ⟨htaken, -⟩ | ⟨-, hacc, u, hheld, hdata, hlog⟩
  · -- it is accepted and fits, so it is taken
    have hlen := Request.length_encode_le hlegal
    have hpos : 1 ≤ r.encode.length := List.length_pos_iff.mpr r.encode_ne_nil
    have hcap : (withCrc (slaveAddr :: r.encode)).length ≤ aduCapacity := by
      rw [length_withCrc, List.length_cons, aduCapacity]
      omega
    have hlen2 : 2 ≤ (slaveAddr :: r.encode).length := Nat.succ_le_succ hpos
    have hone := (hearing_good (accepted_withCrc hlen2) hcap).2
    exact absurd (hone.symm.trans htaken) (List.cons_ne_nil _ _)
  · have hrecv : Receives u s.userData (withCrc (s.userData.selfAddr :: r.encode)) :=
      ⟨hheld.userData, haddr ▸ hheld.filled, hheld.wf.rxBound, hheld.error⟩
    obtain ⟨hsends, hafter⟩ := (slave_answers hmemory hlegal hwithin').answers u hrecv
    rw [aduProcess_userData (by rwa [hheld.filled]) hheld.error] at hafter
    have hdata' : s'.userData = s.userData.after w r := hdata.trans hafter
    refine ⟨⟨⟨_, hreacts.rest⟩, ?_, ?_, ?_⟩, ?_⟩
    · rw [hdata']
      exact haddr
    · rw [hdata']
      exact hheader
    · rw [hdata']
      exact represents_after hmemory hlegal hwithin'
    · rw [← sends_filter, hreacts.calls_eq hwf hlog, ← sends_aduProcess hheld.error, hsends, haddr]

/-- A frame of another slave changes nothing and is not answered. -/
theorem Reacts.foreign (hreacts : Reacts deaf s f s') (hwf : Wf s)
    (haddr : f.head? ≠ some s.userData.selfAddr) :
    s'.userData = s.userData ∧ sends (callsSince s s') = [] := by
  rcases hreacts.outcome with ⟨htaken, -⟩ | ⟨-, hacc, u, hheld, hdata, hlog⟩
  · exact hreacts.untaken hwf htaken
  · obtain ⟨a, fcode, payload, rfl⟩ : ∃ a fcode payload, f = withCrc (a :: fcode :: payload) := by
      obtain ⟨bytes, hlen, hf⟩ := (accepted_iff_withCrc f).mp hacc
      rcases bytes with _ | ⟨a, _ | ⟨fcode, payload⟩⟩
      · exact absurd hlen (by decide)
      · exact absurd hlen (by simp)
      · exact ⟨a, fcode, payload, hf⟩
    obtain ⟨hargs, -⟩ :=
      pduArgs_of_filled (List.cons_ne_nil fcode payload) hheld.filled hheld.wf.rxBound
    have hne : u.userData.selfAddr ≠ (pduArgs u).addr := by
      rw [hargs, hheld.userData]
      rintro rfl
      exact haddr rfl
    have hcb : (slaveConfig w send).pduCb u.userData (pduArgs u) = (u.userData, []) :=
      implPduCb_foreign hne
    have hsilent : reply u = [] := by rw [reply, hcb]
    refine ⟨by rw [hdata, hcb, hheld.userData], ?_⟩
    rw [← sends_filter, hreacts.calls_eq hwf hlog,
      (frameCalls_of_accepted (by rwa [hheld.filled])).2, if_pos hsilent]

/-- An own request is executed and answered. -/
theorem Keeps.served (hkeeps : Keeps slaveAddr h m s) (hquiet : Quiet s) (hlegal : r.Legal)
    (hwithin : r.Within h) (hexch : Exchange s (withCrc (slaveAddr :: r.encode)) s') :
    Quiet s' ∧ Keeps slaveAddr h (replay m r.writes) s' ∧
      sends (callsSince s s') = [withCrc (slaveAddr :: r.reply m)] := by
  have hreacts := hexch.reacts hquiet.atRest (by simp [withCrc])
  have hrest := hreacts.rest
  have hlen : 2 ≤ (slaveAddr :: r.encode).length :=
    Nat.succ_le_succ (List.length_pos_iff.mpr r.encode_ne_nil)
  rw [accepted_not_deafening (accepted_withCrc hlen)] at hrest
  exact ⟨hrest.quiet, hreacts.own hkeeps hquiet.wf hlegal hwithin⟩

theorem keeps_of_reachable (hreach : (rtuSystem (slaveConfig w send)).Reachable s)
    (hidle : s.status.curr = .idle) (hrest : s.status.updated = s.status.error)
    (hmemory : s.userData.memory.Represents m) :
    Keeps s.userData.selfAddr s.userData.memory.header m s :=
  ⟨⟨_, atRest_of_reachable hreach hidle hrest⟩, rfl, rfl, hmemory⟩

/-! ## Service -/

/-- The own requests among the frames are executed and answered, one after the other. -/
inductive Serves (slaveAddr : UInt8) (h : Header) :
    (Nat → UInt8) → List (List UInt8) → List (List UInt8) → (Nat → UInt8) → Prop
  | nothing (v : Nat → UInt8) : Serves slaveAddr h v [] [] v
  | own {q : Request} {v v' frames replies} : q.Legal → q.Within h →
      Serves slaveAddr h (replay v q.writes) frames replies v' →
      Serves slaveAddr h v (withCrc (slaveAddr :: q.encode) :: frames)
        (withCrc (slaveAddr :: q.reply v) :: replies) v'
  | foreign {f v v' frames replies} : f.head? ≠ some slaveAddr →
      Serves slaveAddr h v frames replies v' → Serves slaveAddr h v (f :: frames) replies v'

/-- With the address of the slave the frame is a documented request within its window. -/
def Answerable (slaveAddr : UInt8) (h : Header) (f : List UInt8) : Prop :=
  f.head? = some slaveAddr →
    ∃ r : Request, f = withCrc (slaveAddr :: r.encode) ∧ r.Legal ∧ r.Within h

variable {frames : List (List UInt8)}

theorem Reactions.serves (hreactions : Reactions deaf s frames s') (hrest : AtRest deaf s)
    (hkeeps : Keeps slaveAddr h m s)
    (hdoc : ∀ f ∈ frames, Accepted f → Answerable slaveAddr h f) :
    ∃ m', Serves slaveAddr h m ((frameHearing aduCapacity).survivors deaf frames)
        (sends (callsSince s s')) m' ∧ Keeps slaveAddr h m' s' := by
  induction hreactions generalizing m with
  | @nothing deaf s =>
      have hnone : sends (callsSince s s) = [] := by simp [callsSince, sends]
      rw [hnone]
      exact ⟨m, by cases deaf <;> exact .nothing m, hkeeps⟩
  | @frame deaf s t s' f frames hreacts hrests ih =>
      have hdoc' : ∀ g ∈ frames, Accepted g → Answerable slaveAddr h g := fun g hg =>
        hdoc g (List.mem_cons_of_mem _ hg)
      rw [Hearing.survivors_cons, hrests.callsSince_eq hreacts hrest.wf, sends_append]
      by_cases htaken : (frameHearing aduCapacity).taken deaf f = []
      · obtain ⟨hdata, hsends⟩ := hreacts.untaken hrest.wf htaken
        obtain ⟨m', hserves, hkeeps'⟩ := ih hreacts.rest (hkeeps.congr hreacts.rest hdata) hdoc'
        rw [hsends, htaken]
        exact ⟨m', hserves, hkeeps'⟩
      · -- a good frame, and no error pending
        obtain ⟨rfl, hgood⟩ := Hearing.of_taken htaken
        have hone : (frameHearing aduCapacity).taken false f = [f] := if_pos hgood
        rw [hone, List.singleton_append]
        by_cases haddr : f.head? = some slaveAddr
        · obtain ⟨r, rfl, hlegal, hwithin⟩ :=
            hdoc f List.mem_cons_self (of_decide_eq_true hgood).1 haddr
          obtain ⟨hkeeps₁, hsends⟩ := hreacts.own hkeeps hrest.wf hlegal hwithin
          obtain ⟨m', hserves, hkeeps'⟩ := ih hreacts.rest hkeeps₁ hdoc'
          rw [hsends]
          exact ⟨m', .own hlegal hwithin hserves, hkeeps'⟩
        · obtain ⟨hdata, hsends⟩ := hreacts.foreign hrest.wf (by rwa [hkeeps.addr])
          obtain ⟨m', hserves, hkeeps'⟩ := ih hreacts.rest (hkeeps.congr hreacts.rest hdata) hdoc'
          rw [hsends]
          exact ⟨m', .foreign haddr hserves, hkeeps'⟩

/-- Any sequence of frames can come in at a slave at rest: damaged ones, frames
of other slaves and documented requests. The frames it takes are those a
receiver which goes deaf takes; the requests among them are executed and
answered, each one whole and in their order, and nothing else is. -/
theorem serves_survivors (hreach : (rtuSystem (slaveConfig w send)).Reachable s)
    (hidle : s.status.curr = .idle) (hrest : s.status.updated = s.status.error)
    (hmemory : s.userData.memory.Represents m) (hne : ∀ f ∈ frames, f ≠ [])
    (hdoc : ∀ f ∈ frames, Accepted f →
      Answerable s.userData.selfAddr s.userData.memory.header f) :
    (∃ s', Traffic s frames s') ∧ ∀ s', Traffic s frames s' →
      ∃ m', Serves s.userData.selfAddr s.userData.memory.header m
          ((frameHearing aduCapacity).survivors s.status.error frames)
          (sends (callsSince s s')) m' ∧
        s'.userData.memory.Represents m' := by
  have hat : AtRest s.status.error s := atRest_of_reachable hreach hidle hrest
  refine ⟨exists_traffic_hearing hat hne, ?_⟩
  intro s' htraffic
  obtain ⟨m', hserves, hkeeps⟩ :=
    (htraffic.reactions hat hne).serves hat (keeps_of_reachable hreach hidle hrest hmemory) hdoc
  exact ⟨m', hserves, hkeeps.memory⟩

/-- A slave with a kilobyte of memory, in front of its first frame. -/
def freshSlave : State (slaveConfig .int32 .async) :=
  (rtuSystem _).run (modbusRtuInit _
    { selfAddr := 0x11, memory := { header := ⟨0x1000, 0x1400⟩, bytes := fun _ => 0 } }) boot

theorem freshSlave_reachable : (rtuSystem (slaveConfig .int32 .async)).Reachable freshSlave :=
  System.Reachable.run (.init ⟨_, rfl⟩) (by decide)

/-- A rejected frame, the write it costs, a write, and one to another slave. -/
theorem serves_survivors_bad_line :
    let lost := withCrc (0x11 :: (Request.wrBytes 0x1000 [9]).encode)
    let own := withCrc (0x11 :: (Request.wrBytes 0x1000 [7]).encode)
    let other := withCrc (0x22 :: (Request.wrBytes 0x1000 [8]).encode)
    ∃ s' m', Traffic freshSlave [[0x11, 3, 0, 0], lost, own, other] s' ∧
      Serves 0x11 ⟨0x1000, 0x1400⟩ freshSlave.userData.memory.cell [own, other]
        (sends (callsSince freshSlave s')) m' ∧
      s'.userData.memory.Represents m' := by
  intro lost own other
  have hdoc : ∀ f ∈ [[0x11, 3, 0, 0], lost, own, other], Accepted f →
      Answerable 0x11 ⟨0x1000, 0x1400⟩ f := by
    intro f hf hacc haddr
    simp only [List.mem_cons, List.not_mem_nil, or_false] at hf
    rcases hf with rfl | rfl | rfl | rfl
    · exact absurd hacc (by decide)
    · exact ⟨.wrBytes 0x1000 [9], rfl, by decide, by decide⟩
    · exact ⟨.wrBytes 0x1000 [7], rfl, by decide, by decide⟩
    · exact absurd haddr (by decide)
  obtain ⟨⟨s', htraffic⟩, hall⟩ := serves_survivors freshSlave_reachable rfl rfl
    (represents_self freshSlave.userData.memory) (by decide) hdoc
  obtain ⟨m', hserves, hmemory⟩ := hall s' htraffic
  have hsurvive : (frameHearing aduCapacity).survivors false [[0x11, 3, 0, 0], lost, own, other] =
      [own, other] := by decide
  refine ⟨s', m', htraffic, ?_, hmemory⟩
  rw [← hsurvive]
  exact hserves

end

end ModbusRtu
