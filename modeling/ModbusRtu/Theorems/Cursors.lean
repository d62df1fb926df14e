import ModbusRtu.Logic.Execution
import ModbusRtu.Logic.RtuCalls
import ModbusRtu.Theorems.Serving

/-!
# Every store stays in its buffer

The receive buffer is guarded by `rxbuf_append`; nothing guards the transmit
buffer: that a reply and its CRC fit rests on the quantity limits of the
handlers. `length_reply_le` bounds the reply to any call, documented or not,
and `bounded_invariant` says that a bound on the replies is all the machine
needs to keep both cursors, and every store, inside the buffers.
-/

namespace ModbusRtu

open Base

/-! ## Cursors and stores -/

variable {U : Type} {cfg : Config U}

/-- The replies of `pdu_cb` fit the transmit buffer with their CRC. -/
def RepliesFit (cfg : Config U) : Prop :=
  ∀ s : State cfg, (reply s).length + 2 ≤ cfg.txbufCapacity

/-- The call is not a store behind the end of its buffer. -/
def Call.InBounds (cfg : Config U) : Call → Prop
  | .rxStore i => i < cfg.rxbufCapacity
  | .txStore i => i < cfg.txbufCapacity
  | _ => True

/-- Both cursors are in their buffers, and so was every store. -/
structure Bounded (s : State cfg) : Prop where
  wf : Wf s
  txBound : s.txbuf.curr ≤ cfg.txbufCapacity
  stores : ∀ c ∈ s.calls, c.InBounds cfg

theorem Plain.inBounds {calls : List Call} (h : Plain cfg.rxbufCapacity calls) :
    ∀ c ∈ calls, c.InBounds cfg := by
  intro c hc
  obtain ⟨hframe, hstore⟩ := h c hc
  cases c with
  | rxStore i => exact hstore i rfl
  | txStore i => cases hframe
  | _ => trivial

/-- A frame gives rise to the stores of the reply and its CRC, and to no others. -/
theorem frameCalls_inBounds (hfit : RepliesFit cfg) (s : State cfg) :
    ∀ c ∈ frameCalls s, c.InBounds cfg := by
  intro c hc
  unfold frameCalls at hc
  split at hc
  · rcases List.mem_cons.mp hc with rfl | hc
    · trivial
    · split at hc
      · exact absurd hc List.not_mem_nil
      · simp only [List.mem_append, List.mem_map, List.mem_range, List.mem_singleton] at hc
        rcases hc with ⟨i, hi, rfl⟩ | rfl
        · exact Nat.lt_of_lt_of_le hi (hfit s)
        · trivial
  · exact absurd hc List.not_mem_nil

/-- Frame processing leaves the transmit cursor behind the reply at most. -/
theorem aduProcess_txBound (hfit : RepliesFit cfg) {s : State cfg}
    (htx : s.txbuf.curr ≤ cfg.txbufCapacity) (herr : s.status.error = false) :
    (aduProcess serialSend s).txbuf.curr ≤ cfg.txbufCapacity := by
  by_cases hacc : Accepted s.rxbuf.filled
  · by_cases hreply : reply s = []
    · rw [aduProcess_silent hacc hreply]
      exact Nat.zero_le _
    · have hbusy : (readyToSend s).status.curr = .busy := rfl
      rw [aduProcess_reply hacc hreply]
      cases hsend : cfg.serialSend with
      | async =>
          rw [serialSend_async hsend]
          have hcurr : (readyToSend s).txbuf.curr = (reply s).length + 2 := by
            simp [readyToSend]
          exact hcurr.trans_le (hfit s)
      | sync =>
          rw [serialSend_sync hsend hbusy herr]
          exact Nat.zero_le _
  · obtain ⟨stats, hrej⟩ := aduProcess_rejected serialSend hacc
    rw [hrej]
    exact htx

theorem event_txBound (hfit : RepliesFit cfg) {s : State cfg} (hwf : Wf s)
    (htx : s.txbuf.curr ≤ cfg.txbufCapacity) :
    (modbusRtuEvent s).txbuf.curr ≤ cfg.txbufCapacity := by
  have hcase := event_case hwf
  generalize modbusRtuEvent s = s' at hcase ⊢
  cases hcase with
  | error | init => exact Nat.zero_le _
  | quiet | passed | suspended => exact htx
  | frame hh =>
      have hadu := aduProcess_txBound (s := consumed s) hfit htx hh.error
      unfold handled
      split <;> exact hadu

theorem step_txBound (hfit : RepliesFit cfg) {s : State cfg} (h : Bounded s) (a : Action) :
    (s.step a).txbuf.curr ≤ cfg.txbufCapacity := by
  have htx := h.txBound
  cases a with
  | recv data => exact serialRecvCb_txbuf s data ▸ htx
  | recvErr data => exact htx
  | sent =>
      show (serialSentCb s).txbuf.curr ≤ _
      unfold serialSentCb
      split
      · exact Nat.zero_le _
      · exact htx
  | timer => exact timerIsr_txbuf s ▸ htx
  | event => exact event_txBound hfit h.wf htx

/-- As long as the replies fit, nothing leaves the buffers. -/
theorem bounded_invariant (hfit : RepliesFit cfg) : (rtuSystem cfg).Inductive Bounded where
  init := by
    rintro s ⟨userData, rfl⟩
    exact ⟨modbusRtuInit_wf userData, Nat.zero_le _, fun c hc => absurd hc List.not_mem_nil⟩
  step s a h hen := by
    refine ⟨wf_invariant.step s a h.wf hen, step_txBound hfit h a, ?_⟩
    obtain ⟨l, hl, hplain⟩ := step_calls h.wf a
    show ∀ c ∈ (s.step a).calls, c.InBounds cfg
    rw [hl]
    intro c hc
    -- the calls made before, those for a frame, and the others of this step
    rcases List.mem_append.mp hc with hc | hc
    · rcases List.mem_append.mp hc with hc | hc
      · exact h.stores c hc
      · unfold stepFrameCalls at hc
        split at hc
        · exact frameCalls_inBounds hfit s c hc
        · exact absurd hc List.not_mem_nil
    · exact hplain.inBounds c hc

/-! ## The slave -/

/-- The replies of the memory handler fit a transmit buffer of 256 bytes; the
longest one fills it. -/
theorem slaveConfig_repliesFit (w : IntWidth) (send : SerialSend) :
    RepliesFit (slaveConfig w send) := by
  intro s
  show (rtuMemoryImplPduCb w s.userData (pduArgs s)).2.length + 2 ≤ 256
  unfold rtuMemoryImplPduCb
  split
  · exact Nat.le_add_left 2 254
  · have hlen := length_reply_le w s.userData.memory (pduArgs s).fcode ((pduArgs s).src.drop 1)
      ((pduArgs s).end_ - 1)
    exact Nat.add_le_add_right (Nat.succ_le_succ hlen) 2

/-- In every state of every run of the slave the cursors are in their buffers,
and every byte stored on the way there was stored inside its buffer. -/
theorem slave_cursors_bounded (w : IntWidth) (send : SerialSend) {s : State (slaveConfig w send)}
    (hreach : (rtuSystem (slaveConfig w send)).Reachable s) :
    s.rxbuf.curr ≤ 256 ∧ s.txbuf.curr ≤ 256 ∧
      (∀ i, Call.rxStore i ∈ s.calls → i < 256) ∧ ∀ i, Call.txStore i ∈ s.calls → i < 256 := by
  have hbounded := (bounded_invariant (slaveConfig_repliesFit w send)).holds hreach
  exact ⟨hbounded.wf.rxBound, hbounded.txBound, fun i hi => hbounded.stores _ hi,
    fun i hi => hbounded.stores _ hi⟩

/-- A write to the slave and its reply. -/
theorem slave_cursors_bounded_write :
    ∃ s, Exchange freshSlave (withCrc (0x11 :: (Request.wrBytes 0x1000 [7]).encode)) s ∧
      sends (callsSince freshSlave s) = [withCrc [0x11, 0x42, 0x10, 0x00, 0x01]] ∧
      s.rxbuf.curr ≤ 256 ∧ s.txbuf.curr ≤ 256 ∧
      (∀ i, Call.rxStore i ∈ s.calls → i < 256) ∧ ∀ i, Call.txStore i ∈ s.calls → i < 256 := by
  have hquiet : Quiet freshSlave := ⟨wf_invariant.holds freshSlave_reachable, rfl, rfl⟩
  have hkeeps := keeps_of_reachable freshSlave_reachable rfl rfl
    (represents_self freshSlave.userData.memory)
  have hne : withCrc (0x11 :: (Request.wrBytes 0x1000 [7]).encode) ≠ [] := by simp [withCrc]
  obtain ⟨s, hexch, hreacts⟩ := exchange_reacts hquiet.atRest hne
  obtain ⟨-, -, hsends⟩ := hkeeps.served hquiet (r := .wrBytes 0x1000 [7]) (by decide) (by decide)
    hexch
  obtain ⟨acts, hlegal, rfl⟩ := hreacts.run
  exact ⟨_, hexch, hsends,
    slave_cursors_bounded .int32 .async (freshSlave_reachable.run hlegal)⟩

end ModbusRtu
