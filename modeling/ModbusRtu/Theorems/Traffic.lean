import ModbusRtu.Logic.AttendedRuns
import ModbusRtu.Logic.SlavePath

/-!
# Traffic of other slaves

On a shared line the slave hears every frame, its own and those of others.
Between frames it is quiet again, but the buffers keep what was in them and the
status its previous state. None of it is seen later: `exchange_accepted` says
what a frame leads to from any quiet state, in terms of the user data alone,
and by induction over the traffic the frames of other slaves can be left out
(`other_traffic_invisible`).
-/

namespace ModbusRtu

open Base

/-! ## One frame -/

section

variable {U : Type} {cfg : Config U}

/-- A frame is heard, and if it has a reply, the reply is sent and followed by
the silent interval. -/
inductive Exchange (s : State cfg) (frame : List UInt8) : State cfg → Prop
  | silent {t} : Heard s frame t → t.status.curr ≠ .busy → Exchange s frame t
  | replied {t} : Heard s frame t → t.status.curr = .busy →
      (rtuSystem cfg).Legal t (attended [.sent, .timer]) →
      Exchange s frame ((rtuSystem cfg).run t (attended [.sent, .timer]))

theorem Exchange.unique {s s₁ s₂ : State cfg} {frame : List UInt8} (h₁ : Exchange s frame s₁)
    (h₂ : Exchange s frame s₂) : s₁ = s₂ := by
  cases h₁ with
  | silent hheard₁ hidle =>
      cases h₂ with
      | silent hheard₂ _ => exact hheard₁.unique hheard₂
      | replied hheard₂ hbusy _ => exact absurd (hheard₁.unique hheard₂ ▸ hbusy) hidle
  | replied hheard₁ hbusy _ =>
      cases h₂ with
      | silent hheard₂ hidle => exact absurd (hheard₁.unique hheard₂ ▸ hbusy) hidle
      | replied hheard₂ _ _ => rw [hheard₁.unique hheard₂]

/-- An exchange is a run of the machine. -/
theorem Exchange.run {s s' : State cfg} {frame : List UInt8} (h : Exchange s frame s') :
    ∃ acts, (rtuSystem cfg).Legal s acts ∧ s' = (rtuSystem cfg).run s acts := by
  cases h with
  | silent hheard _ =>
      obtain ⟨k, hlegal, hrun, -⟩ := hheard
      exact ⟨_, hlegal, hrun⟩
  | replied hheard _ hlegal =>
      obtain ⟨k, hlegal₁, rfl, -⟩ := hheard
      exact ⟨_, System.legal_append.mpr ⟨hlegal₁, hlegal⟩, (System.run_append _ _ _ _).symm⟩

theorem Exchange.calls {s s' : State cfg} {frame : List UInt8} (h : Exchange s frame s')
    (hwf : Wf s) : s'.calls = s.calls ++ callsSince s s' := by
  obtain ⟨acts, hlegal, rfl⟩ := h.run
  exact calls_run hwf hlegal

/-- What is sent in an exchange is in the log of frame calls. -/
theorem Exchange.sends_eq {s s' u : State cfg} {frame : List UInt8} (h : Exchange s frame s')
    (hwf : Wf s) (hlog : s'.frameLog = s.frameLog ++ frameCalls u) :
    sends (callsSince s s') = sends (frameCalls u) := by
  obtain ⟨acts, hlegal, rfl⟩ := h.run
  have hnew := frameLog_run hwf hlegal
  rw [hlog] at hnew
  rw [← sends_filter, ← List.append_cancel_left hnew]

/-- The reply has been sent: the machine restarts and waits for the silence. -/
theorem reply_sent {t : State cfg} (hwf : Wf t) (hbusy : t.status.curr = .busy)
    (herr : t.status.error = false) :
    (rtuSystem cfg).Legal t (attended [.sent, .timer]) ∧
      Quiet ((rtuSystem cfg).run t (attended [.sent, .timer])) ∧
      ((rtuSystem cfg).run t (attended [.sent, .timer])).userData = t.userData ∧
      ((rtuSystem cfg).run t (attended [.sent, .timer])).frameLog = t.frameLog := by
  have hsent : serialSentCb t = { t with txbuf := t.txbuf.rewind }.update .init :=
    serialSentCb_busy hbusy
  have hinit : (serialSentCb t).status.curr = .init := by rw [hsent]; rfl
  have hrestart : modbusRtuEvent (serialSentCb t) = restart (consumed (serialSentCb t)) :=
    event_init (by rw [hsent]; rfl) (by rw [hsent]; exact herr) hinit
  have hwf' : Wf (serialSentCb t) := serialSentCb_wf hwf
  have hnot : ¬Handles (serialSentCb t) := not_handles_of_curr hinit
  have hlog : (modbusRtuEvent (serialSentCb t)).frameLog = t.frameLog := by
    rw [frameLog_event_of_not hwf' hnot]
    exact frameLog_step_of_not hwf (a := .sent) fun hf => by cases hf.1
  have hdata : (modbusRtuEvent (serialSentCb t)).userData = t.userData := by
    rw [hrestart, hsent]
    rfl
  obtain ⟨hlegal, hquiet, hdata', hlog'⟩ := init_silence (modbusRtuEvent_wf hwf')
    (by rw [hrestart, hsent]; rfl) (by rw [hrestart]; rfl)
  exact ⟨⟨fun ha => Action.noConfusion ha, enabled_event _, hlegal⟩, hquiet, hdata'.trans hdata,
    hlog'.trans hlog⟩

/-- From a quiet machine an accepted frame leads to a quiet machine again. It is
handed to `pdu_cb` in a state `u` that holds it, and this alone decides what
becomes of the user data and what is called for it. -/
theorem exchange_accepted {s : State cfg} (hq : Quiet s) {f : List UInt8} (hacc : Accepted f)
    (hcap : f.length ≤ cfg.rxbufCapacity) :
    ∃ u s', Exchange s f s' ∧ Quiet s' ∧ Holds s f .idle u ∧
      s'.userData = (cfg.pduCb u.userData (pduArgs u)).1 ∧
      s'.frameLog = s.frameLog ++ frameCalls u := by
  have hlen : 2 ≤ f.length := Nat.le_trans (by decide) hacc.1
  obtain ⟨u, hheld, hh, hlegal, hrun⟩ := attended_confirmed hq hlen hcap
  obtain ⟨hdata, hstatus⟩ := event_accepted hheld.wf hh (by rwa [hheld.filled])
  have hwf : Wf (modbusRtuEvent u) := modbusRtuEvent_wf hheld.wf
  have hlog : (modbusRtuEvent u).frameLog = s.frameLog ++ frameCalls u := by
    rw [hh.frameLog_event hheld.wf, hheld.log]
  rcases hstatus with hst | hst | hst
  · -- no reply
    have hidle : (modbusRtuEvent u).status.curr = .idle := by rw [hst]; exact hh.curr
    have hup : (modbusRtuEvent u).status.updated = false := by rw [hst]; rfl
    refine ⟨u, _, .silent ⟨2, hlegal, hrun.symm, hwf.timer_idle hidle⟩ ?_, ⟨hwf, hidle, hup⟩,
      hheld, hdata, hlog⟩
    rw [hidle]
    decide
  · -- the reply is on its way
    have hbusy : (modbusRtuEvent u).status.curr = .busy := by rw [hst]; rfl
    have herr : (modbusRtuEvent u).status.error = false := by rw [hst]; exact hh.error
    obtain ⟨hlegal', hquiet, hdata', hlog'⟩ := reply_sent hwf hbusy herr
    exact ⟨u, _, .replied ⟨2, hlegal, hrun.symm, hwf.timer_busy hbusy⟩ hbusy hlegal', hquiet,
      hheld, hdata'.trans hdata, hlog'.trans hlog⟩
  · -- the reply went out within the event
    have hinit : (modbusRtuEvent u).status.curr = .init := by rw [hst]
    have hup : (modbusRtuEvent u).status.updated = false := by rw [hst]
    obtain ⟨hlegal', hquiet, hdata', hlog'⟩ := init_silence hwf hinit hup
    refine ⟨u, _, .silent ⟨3, ?_, ?_, hquiet.wf.timer_idle hquiet.curr⟩ ?_, hquiet, hheld,
      hdata'.trans hdata, hlog'.trans hlog⟩
    · rw [List.replicate_succ', ← List.append_assoc, attended_append, System.legal_append, hrun]
      exact ⟨hlegal, hlegal'⟩
    · rw [List.replicate_succ' (n := 2), ← List.append_assoc, attended_append, System.run_append,
        hrun]
      rfl
    · rw [hquiet.curr]
      decide

/-! ## Many frames -/

/-- The frames come in one after the other. -/
inductive Traffic : State cfg → List (List UInt8) → State cfg → Prop
  | nothing (s) : Traffic s [] s
  | frame {s t s' f frames} : Exchange s f t → Traffic t frames s' → Traffic s (f :: frames) s'

/-- Accepted frames that fit lead from one quiet state to the next. -/
theorem exists_traffic {s : State cfg} (hq : Quiet s) {frames : List (List UInt8)}
    (hvalid : ∀ f ∈ frames, Accepted f ∧ f.length ≤ cfg.rxbufCapacity) :
    ∃ s', Traffic s frames s' := by
  induction frames generalizing s with
  | nil => exact ⟨s, .nothing s⟩
  | cons f frames ih =>
      obtain ⟨hacc, hcap⟩ := hvalid f List.mem_cons_self
      obtain ⟨u, t, hexch, hquiet, -⟩ := exchange_accepted hq hacc hcap
      obtain ⟨s', htraffic⟩ := ih hquiet fun g hg => hvalid g (List.mem_cons_of_mem _ hg)
      exact ⟨s', .frame hexch htraffic⟩

/-- Traffic adds its calls behind those made before. -/
theorem Traffic.calls {s s' : State cfg} {frames : List (List UInt8)} (h : Traffic s frames s')
    (hwf : Wf s) : s'.calls = s.calls ++ callsSince s s' := by
  suffices hrun : ∃ acts, (rtuSystem cfg).Legal s acts ∧ s' = (rtuSystem cfg).run s acts by
    obtain ⟨acts, hlegal, rfl⟩ := hrun
    exact calls_run hwf hlegal
  clear hwf
  induction h with
  | nothing s => exact ⟨[], trivial, rfl⟩
  | frame hexch _ ih =>
      obtain ⟨acts₁, hlegal₁, rfl⟩ := hexch.run
      obtain ⟨acts₂, hlegal₂, rfl⟩ := ih
      exact ⟨acts₁ ++ acts₂, System.legal_append.mpr ⟨hlegal₁, hlegal₂⟩,
        (System.run_append _ _ _ _).symm⟩

/-- What is sent during traffic, frame by frame. -/
theorem sends_traffic {s t s' : State cfg} {f : List UInt8} {frames : List (List UInt8)}
    (hexch : Exchange s f t) (htraffic : Traffic t frames s') (hs : Wf s) (ht : Wf t) :
    sends (callsSince s s') = sends (callsSince s t) ++ sends (callsSince t s') := by
  rw [← sends_append, callsSince, htraffic.calls ht, hexch.calls hs, List.append_assoc,
    List.drop_left]

end

/-! ## At the slave -/

section

variable {w : IntWidth} {send : SerialSend}

/-- A frame that a slave with the data `impl` may meet on the line: with its
own address it is a documented request within the window. -/
structure Expected (impl : RtuMemoryImpl) (f : List UInt8) : Prop where
  accepted : Accepted f
  fits : f.length ≤ aduCapacity
  own : f.head? = some impl.selfAddr → ∃ r : Request,
    f = withCrc (impl.selfAddr :: r.encode) ∧ r.Legal ∧ r.Within impl.memory.header

/-- The address and the window decide. -/
theorem Expected.congr {impl impl' : RtuMemoryImpl} {f : List UInt8} (h : Expected impl f)
    (haddr : impl'.selfAddr = impl.selfAddr) (hheader : impl'.memory.header = impl.memory.header) :
    Expected impl' f := by
  refine ⟨h.accepted, h.fits, ?_⟩
  rw [haddr, hheader]
  exact h.own

variable {s s' : State (slaveConfig w send)} {f : List UInt8}

/-- An own request changes the data and is answered, both as the data says. -/
theorem Exchange.own (h : Exchange s f s') (hq : Quiet s) {r : Request}
    (hf : f = withCrc (s.userData.selfAddr :: r.encode)) (hlegal : r.Legal)
    (hwithin : r.Within s.userData.memory.header) :
    Quiet s' ∧ s'.userData = s.userData.after w r ∧
      sends (callsSince s s') =
        [withCrc (s.userData.selfAddr :: r.reply s.userData.memory.cell)] := by
  have hlen := Request.length_encode_le hlegal
  have hpos : 1 ≤ r.encode.length := List.length_pos_iff.mpr r.encode_ne_nil
  have hacc : Accepted f := hf ▸ accepted_withCrc (Nat.succ_le_succ hpos)
  have hcap : f.length ≤ aduCapacity := by
    rw [hf, length_withCrc, List.length_cons, aduCapacity]
    omega
  obtain ⟨u, t, hexch, hquiet, hheld, hdata, hlog⟩ := exchange_accepted hq hacc hcap
  obtain rfl := hexch.unique h
  have hrecv : Receives u s.userData (withCrc (s.userData.selfAddr :: r.encode)) :=
    ⟨hheld.userData, hf ▸ hheld.filled, hheld.wf.rxBound, hheld.error⟩
  obtain ⟨hsends, hafter⟩ :=
    (slave_answers (represents_self s.userData.memory) hlegal hwithin).answers u hrecv
  refine ⟨hquiet, ?_, ?_⟩
  · rw [hdata, ← hafter, aduProcess_userData (by rwa [hheld.filled]) hheld.error]
  · rw [hexch.sends_eq hq.wf hlog, ← sends_aduProcess hheld.error, hsends]

/-- A frame of another slave changes nothing and is not answered. -/
theorem Exchange.foreign (h : Exchange s f s') (hq : Quiet s) (hacc : Accepted f)
    (hcap : f.length ≤ aduCapacity) (haddr : f.head? ≠ some s.userData.selfAddr) :
    Quiet s' ∧ s'.userData = s.userData ∧ sends (callsSince s s') = [] := by
  obtain ⟨u, t, hexch, hquiet, hheld, hdata, hlog⟩ := exchange_accepted hq hacc hcap
  obtain rfl := hexch.unique h
  obtain ⟨a, fcode, payload, hf⟩ : ∃ a fcode payload, f = withCrc (a :: fcode :: payload) := by
    obtain ⟨bytes, hlen, hf⟩ := (accepted_iff_withCrc f).mp hacc
    rcases bytes with _ | ⟨a, _ | ⟨fcode, payload⟩⟩
    · exact absurd hlen (by decide)
    · exact absurd hlen (by simp)
    · exact ⟨a, fcode, payload, hf⟩
  obtain ⟨hargs, -⟩ :=
    pduArgs_of_filled (List.cons_ne_nil fcode payload) (hf ▸ hheld.filled) hheld.wf.rxBound
  have hne : u.userData.selfAddr ≠ (pduArgs u).addr := by
    rw [hargs, hheld.userData]
    rintro rfl
    exact haddr (by rw [hf]; rfl)
  have hcb : (slaveConfig w send).pduCb u.userData (pduArgs u) = (u.userData, []) :=
    implPduCb_foreign hne
  have hsilent : reply u = [] := by rw [reply, hcb]
  refine ⟨hquiet, ?_, ?_⟩
  · rw [hdata, hcb, hheld.userData]
  · rw [hexch.sends_eq hq.wf hlog, (frameCalls_of_accepted (by rwa [hheld.filled])).2,
      if_pos hsilent]

/-- Any frame leaves the slave quiet, with its address and its window. -/
theorem Exchange.keeps (h : Exchange s f s') (hq : Quiet s) (hexp : Expected s.userData f) :
    Quiet s' ∧ s'.userData.selfAddr = s.userData.selfAddr ∧
      s'.userData.memory.header = s.userData.memory.header := by
  by_cases haddr : f.head? = some s.userData.selfAddr
  · obtain ⟨r, hf, hlegal, hwithin⟩ := hexp.own haddr
    obtain ⟨hquiet, hdata, -⟩ := h.own hq hf hlegal hwithin
    rw [hdata]
    exact ⟨hquiet, rfl, rfl⟩
  · obtain ⟨hquiet, hdata, -⟩ := h.foreign hq hexp.accepted hexp.fits haddr
    rw [hdata]
    exact ⟨hquiet, rfl, rfl⟩

theorem Traffic.keeps {frames : List (List UInt8)} (h : Traffic s frames s') (hq : Quiet s)
    (hexp : ∀ f ∈ frames, Expected s.userData f) :
    Quiet s' ∧ s'.userData.selfAddr = s.userData.selfAddr := by
  induction h with
  | nothing s => exact ⟨hq, rfl⟩
  | frame hexch _ ih =>
      obtain ⟨hquiet, haddr, hheader⟩ := hexch.keeps hq (hexp _ List.mem_cons_self)
      obtain ⟨hquiet', haddr'⟩ := ih hquiet fun g hg =>
        (hexp g (List.mem_cons_of_mem _ hg)).congr haddr hheader
      exact ⟨hquiet', haddr'.trans haddr⟩

/-- The frames with the address `a`. -/
def ownFrames (a : UInt8) (frames : List (List UInt8)) : List (List UInt8) :=
  frames.filter fun f => f.head? = some a

/-- Two slaves with the same data, one of which hears only the frames that are
its own: they keep the same data and send the same. -/
theorem Traffic.purge {s₁ s₂ s₁' s₂' : State (slaveConfig w send)} {frames : List (List UInt8)}
    (hq₁ : Quiet s₁) (hq₂ : Quiet s₂) (hdata : s₁.userData = s₂.userData)
    (hexp : ∀ f ∈ frames, Expected s₁.userData f) (h₁ : Traffic s₁ frames s₁')
    (h₂ : Traffic s₂ (ownFrames s₁.userData.selfAddr frames) s₂') :
    s₁'.userData = s₂'.userData ∧ sends (callsSince s₁ s₁') = sends (callsSince s₂ s₂') := by
  induction h₁ generalizing s₂ with
  | nothing s =>
      cases h₂ with
      | nothing s₂ => exact ⟨hdata, by simp [callsSince]⟩
  | @frame s t s' f frames hexch htraffic ih =>
      have hf := hexp f List.mem_cons_self
      obtain ⟨hquiet, hkeepAddr, hkeepHeader⟩ := hexch.keeps hq₁ hf
      have hrest : ∀ g ∈ frames, Expected t.userData g := fun g hg =>
        (hexp g (List.mem_cons_of_mem _ hg)).congr hkeepAddr hkeepHeader
      by_cases haddr : f.head? = some s.userData.selfAddr
      · -- both hear it, with the same data
        rw [ownFrames, List.filter_cons_of_pos (by simpa using haddr)] at h₂
        cases h₂ with
        | @frame _ t₂ _ _ _ hexch₂ htraffic₂ =>
            obtain ⟨r, henc, hlegal, hwithin⟩ := hf.own haddr
            obtain ⟨-, hafter, hsends⟩ := hexch.own hq₁ henc hlegal hwithin
            rw [hdata] at henc hwithin
            obtain ⟨hquiet₂, hafter₂, hsends₂⟩ := hexch₂.own hq₂ henc hlegal hwithin
            rw [← hkeepAddr] at htraffic₂
            obtain ⟨hdata', hsends'⟩ := ih hquiet hquiet₂
              (by rw [hafter, hafter₂, hdata]) hrest htraffic₂
            refine ⟨hdata', ?_⟩
            rw [sends_traffic hexch htraffic hq₁.wf hquiet.wf,
              sends_traffic hexch₂ htraffic₂ hq₂.wf hquiet₂.wf, hsends, hsends₂, hdata, hsends']
      · -- only the first hears it, and nothing comes of it
        rw [ownFrames, List.filter_cons_of_neg (by simpa using haddr)] at h₂
        obtain ⟨-, hsame, hnone⟩ := hexch.foreign hq₁ hf.accepted hf.fits haddr
        rw [← hkeepAddr] at h₂
        obtain ⟨hdata', hsends'⟩ := ih hquiet hq₂ (hsame.trans hdata) hrest h₂
        refine ⟨hdata', ?_⟩
        rw [sends_traffic hexch htraffic hq₁.wf hquiet.wf, hnone, List.nil_append, hsends']

/-- Traffic of other slaves is invisible: the memory and the frames sent are
those of the traffic from which the frames with other addresses are removed,
and no removed frame is answered. -/
theorem other_traffic_invisible (hreach : (rtuSystem (slaveConfig w send)).Reachable s)
    (hidle : s.status.curr = .idle) (hup : s.status.updated = false) {frames : List (List UInt8)}
    (hexp : ∀ f ∈ frames, Expected s.userData f) :
    (∃ s₁, Traffic s frames s₁) ∧
      (∃ s₂, Traffic s (ownFrames s.userData.selfAddr frames) s₂) ∧
      (∀ s₁ s₂, Traffic s frames s₁ → Traffic s (ownFrames s.userData.selfAddr frames) s₂ →
        s₁.userData = s₂.userData ∧ sends (callsSince s s₁) = sends (callsSince s s₂)) ∧
      ∀ before f after s₁ s₂, frames = before ++ f :: after →
        f.head? ≠ some s.userData.selfAddr → Traffic s before s₁ → Exchange s₁ f s₂ →
          sends (callsSince s₁ s₂) = [] := by
  have hq : Quiet s := ⟨wf_invariant.holds hreach, hidle, hup⟩
  have hvalid : ∀ f ∈ frames, Accepted f ∧ f.length ≤ aduCapacity := fun f hf =>
    ⟨(hexp f hf).accepted, (hexp f hf).fits⟩
  have hvalidOwn : ∀ f ∈ ownFrames s.userData.selfAddr frames,
      Accepted f ∧ f.length ≤ aduCapacity := fun f hf => hvalid f (List.mem_of_mem_filter hf)
  refine ⟨exists_traffic hq hvalid, exists_traffic hq hvalidOwn,
    fun s₁ s₂ h₁ h₂ => Traffic.purge hq hq rfl hexp h₁ h₂, ?_⟩
  rintro before f after s₁ s₂ rfl haddr hbefore hexch
  obtain ⟨hquiet, hsame⟩ := hbefore.keeps hq fun g hg => hexp g (List.mem_append_left _ hg)
  have hf := hvalid f (by simp)
  exact (hexch.foreign hquiet hf.1 hf.2 (by rwa [hsame])).2.2

end

/-- A write to another slave, then one to this slave. -/
theorem other_traffic_invisible_two_writes :
    let impl : RtuMemoryImpl :=
      { selfAddr := 0x11, memory := { header := ⟨0x1000, 0x1400⟩, bytes := fun _ => 0 } }
    let s := (rtuSystem (slaveConfig .int32 .async)).run (modbusRtuInit _ impl) boot
    let other := withCrc (0x22 :: (Request.wrBytes 0x1000 [9]).encode)
    let own := withCrc (0x11 :: (Request.wrBytes 0x1000 [7]).encode)
    ∃ s₁ s₂, Traffic s [other, own] s₁ ∧ Traffic s [own] s₂ ∧ s₁.userData = s₂.userData ∧
      sends (callsSince s s₁) = sends (callsSince s s₂) := by
  intro impl s other own
  have hreach : (rtuSystem (slaveConfig .int32 .async)).Reachable s :=
    System.Reachable.run (.init ⟨impl, rfl⟩) (by decide)
  have hexp : ∀ f ∈ [other, own], Expected s.userData f := by
    intro f hf
    rcases List.mem_pair.mp hf with rfl | rfl
    · refine ⟨accepted_withCrc (by decide), by decide, ?_⟩
      intro haddr
      exact absurd haddr (by decide)
    · exact ⟨accepted_withCrc (by decide), by decide, fun _ =>
        ⟨.wrBytes 0x1000 [7], rfl, by decide, by decide⟩⟩
  obtain ⟨⟨s₁, h₁⟩, ⟨s₂, h₂⟩, hsame, -⟩ := other_traffic_invisible hreach rfl rfl hexp
  have hown : Traffic s [own] s₂ := h₂
  exact ⟨s₁, s₂, h₁, hown, hsame s₁ s₂ h₁ h₂⟩

end ModbusRtu
