import ModbusRtu.Logic.Execution
import ModbusRtu.Logic.RtuCalls

/-!
# From a request frame to the reply frame

The path of a frame through the slave: the CRC check, the adapter in front of
the memory handler, the reply with its CRC. `slave_answers` says what it makes
of a documented request to its own address.
-/

namespace ModbusRtu

open Base

variable {w : IntWidth} {send : SerialSend}

/-! ## The arguments of `pdu_cb` -/

/-- The bytes `pdu_cb` finds: the frame without its CRC, and what is behind it. -/
theorem pduArgs_of_filled {U : Type} {cfg : Config U} {s : State cfg} {a : UInt8}
    {pdu : List UInt8} (hpdu : pdu ≠ []) (hfilled : s.rxbuf.filled = withCrc (a :: pdu))
    (hbound : s.rxbuf.curr ≤ cfg.rxbufCapacity) :
    (pduArgs s).addr = a ∧ some (pduArgs s).fcode = pdu.head? ∧
      (∃ tail, (pduArgs s).src.drop 1 = pdu ++ tail) ∧ (pduArgs s).end_ = pdu.length + 1 := by
  obtain ⟨f, rest, rfl⟩ := List.exists_cons_of_ne_nil hpdu
  have hsrc : s.rxbuf.cells.toList =
      withCrc (a :: f :: rest) ++ s.rxbuf.cells.toList.drop s.rxbuf.curr := by
    rw [← hfilled, Buf.filled, List.take_append_drop]
  have hcurr : s.rxbuf.curr = (f :: rest).length + 3 := by
    have hlen := congrArg List.length hfilled
    rw [Buf.length_filled hbound, length_withCrc] at hlen
    simpa using hlen
  generalize s.rxbuf.cells.toList.drop s.rxbuf.curr = behind at hsrc
  refine ⟨?_, ?_, ?_, ?_⟩
  · show s.rxbuf.cells.toList.getD 0 0 = a
    rw [hsrc]
    rfl
  · show some (s.rxbuf.cells.toList.getD 1 0) = some f
    rw [hsrc]
    rfl
  · refine ⟨[(modbusRtuCalcCrc (a :: f :: rest)).low, (modbusRtuCalcCrc (a :: f :: rest)).high] ++
      behind, ?_⟩
    show s.rxbuf.cells.toList.drop 1 = _
    rw [hsrc, withCrc, List.append_assoc]
    rfl
  · show s.rxbuf.curr - 2 = _
    omega

/-! ## The handler behind the adapter -/

/-- The call of the handler that the adapter makes for an own frame in the
receive buffer. -/
def handlerOutcome (s : State (slaveConfig w send)) : Outcome :=
  rtuMemoryPduCb w s.userData.memory (pduArgs s).fcode ((pduArgs s).src.drop 1)
    ((pduArgs s).end_ - 1) ((pduArgs s).curr - 1)

section

variable {s : State (slaveConfig w send)}

theorem implPduCb_foreign (haddr : s.userData.selfAddr ≠ (pduArgs s).addr) :
    rtuMemoryImplPduCb w s.userData (pduArgs s) = (s.userData, []) :=
  if_pos haddr

theorem implPduCb_own (haddr : s.userData.selfAddr = (pduArgs s).addr) :
    rtuMemoryImplPduCb w s.userData (pduArgs s) =
      ({ s.userData with memory.bytes := (handlerOutcome s).ctx.bytes },
        s.userData.selfAddr :: (handlerOutcome s).reply) := by
  rw [rtuMemoryImplPduCb, if_neg (not_not.mpr haddr), ← haddr]
  rfl

/-- The handler finds the PDU, and what is behind it in the buffer. -/
theorem handlerOutcome_of_filled {a fcode : UInt8} {payload : List UInt8}
    (hfilled : s.rxbuf.filled = withCrc (a :: fcode :: payload))
    (hbound : s.rxbuf.curr ≤ aduCapacity) :
    (pduArgs s).addr = a ∧
      ∃ tail, handlerOutcome s = rtuMemoryPduCb w s.userData.memory fcode
        (fcode :: payload ++ tail) (fcode :: payload).length 1 := by
  obtain ⟨haddr, hfcode, ⟨tail, htail⟩, hend⟩ :=
    pduArgs_of_filled (List.cons_ne_nil fcode payload) hfilled hbound
  obtain hfcode := Option.some_inj.mp hfcode
  refine ⟨haddr, tail, ?_⟩
  rw [handlerOutcome, hfcode, htail, hend, Nat.add_sub_cancel]
  rfl

/-- The frame the slave sends for an accepted frame of its own. -/
theorem sends_own (hacc : Accepted s.rxbuf.filled) (herr : s.status.error = false)
    (haddr : s.userData.selfAddr = (pduArgs s).addr) :
    sends (callsSince s (aduProcess serialSend s)) =
      [withCrc (s.userData.selfAddr :: (handlerOutcome s).reply)] := by
  have hcb : (slaveConfig w send).pduCb s.userData (pduArgs s) = _ := implPduCb_own haddr
  have hreply : reply s = s.userData.selfAddr :: (handlerOutcome s).reply := by rw [reply, hcb]
  have hfits : (reply s).length + 2 ≤ aduCapacity := by
    have hle := length_reply_le w s.userData.memory (pduArgs s).fcode ((pduArgs s).src.drop 1)
      ((pduArgs s).end_ - 1)
    rw [hreply, List.length_cons, aduCapacity]
    exact Nat.add_le_add_right (Nat.succ_le_succ hle) 2
  rw [sends_aduProcess herr, (frameCalls_of_accepted hacc).2, replyAdu_eq hfits, hreply]
  rfl

end

/-! ## The answer to a documented request -/

/-- `adu_process` finds the data `impl` and the frame `request` in `s`. -/
structure Receives {w : IntWidth} {send : SerialSend} (s : State (slaveConfig w send))
    (impl : RtuMemoryImpl) (request : List UInt8) : Prop where
  userData : s.userData = impl
  filled : s.rxbuf.filled = request
  rxBound : s.rxbuf.curr ≤ aduCapacity
  error : s.status.error = false

/-- The slave answers `request` with `reply` and nothing else: whatever state
`adu_process` finds that frame in, this is what it sends, and the data of the
adapter goes from `impl` to `impl'`. -/
structure SlaveAnswers (w : IntWidth) (send : SerialSend) (impl : RtuMemoryImpl)
    (request reply : List UInt8) (impl' : RtuMemoryImpl) : Prop where
  received : ∃ s : State (slaveConfig w send), Receives s impl request
  answers : ∀ s : State (slaveConfig w send), Receives s impl request →
    sends (callsSince s (aduProcess serialSend s)) = [reply] ∧
      (aduProcess serialSend s).userData = impl'

/-- A frame that fits the receive buffer can be received. -/
theorem exists_receives (impl : RtuMemoryImpl) {request : List UInt8}
    (hfits : request.length ≤ aduCapacity) :
    ∃ s : State (slaveConfig w send), Receives s impl request := by
  have hlen : 0 + request.length ≤ aduCapacity := by omega
  have hfilled : ((Buf.clear aduCapacity (0 : UInt8)).pushAll request).filled = request := by
    rw [Buf.filled_pushAll hlen, Buf.filled_clear, List.nil_append]
  have hcurr : ((Buf.clear aduCapacity (0 : UInt8)).pushAll request).curr ≤ aduCapacity := by
    rw [Buf.curr_pushAll]
    exact hlen
  let s : State (slaveConfig w send) :=
    { modbusRtuInit (slaveConfig w send) impl with rxbuf := (Buf.clear _ 0).pushAll request }
  exact ⟨s, rfl, hfilled, hcurr, rfl⟩

/-- The adapter after the request, executed by the handler. -/
def RtuMemoryImpl.after (w : IntWidth) (impl : RtuMemoryImpl) (r : Request) : RtuMemoryImpl :=
  { impl with
    memory.bytes := (rtuMemoryPduCb w impl.memory r.fcode r.encode r.encode.length 1).ctx.bytes }

theorem Request.head?_encode (r : Request) : r.encode.head? = some r.fcode := by
  cases r <;> rfl

theorem Request.encode_ne_nil (r : Request) : r.encode ≠ [] := by
  intro hnil
  have hhead := r.head?_encode
  rw [hnil] at hhead
  cases hhead

section

variable {impl : RtuMemoryImpl} {m : Nat → UInt8} {r : Request}

/-- What is behind the request in the buffer has no influence on the handler. -/
theorem executes_after (hrep : impl.memory.Represents m) (hlegal : r.Legal)
    (hwithin : r.Within impl.memory.header) (tail : List UInt8) :
    (rtuMemoryPduCb w impl.memory r.fcode (r.encode ++ tail) r.encode.length 1).reply =
        r.reply m ∧
      (rtuMemoryPduCb w impl.memory r.fcode (r.encode ++ tail) r.encode.length 1).ctx.bytes =
        (impl.after w r).memory.bytes := by
  have hexec : Executed impl.memory m r _ := executes (w := w) tail hrep hlegal hwithin
  have hnone : Executed impl.memory m r _ := executes (w := w) [] hrep hlegal hwithin
  rw [List.append_nil] at hnone
  exact ⟨hexec.reply, hexec.bytes_unique hnone hwithin⟩

/-- The memory after the request represents the map with the request's writes. -/
theorem represents_after (hrep : impl.memory.Represents m) (hlegal : r.Legal)
    (hwithin : r.Within impl.memory.header) :
    (impl.after w r).memory.Represents (replay m r.writes) := by
  have hnone := executes (w := w) [] hrep hlegal hwithin
  rw [List.append_nil] at hnone
  exact hnone.represents

/-- The function code is the first byte of the request. -/
theorem Request.encode_eq_cons (r : Request) : ∃ payload, r.encode = r.fcode :: payload := by
  cases r <;> exact ⟨_, rfl⟩

/-- A request to the slave's own address runs the handler on the request. -/
theorem handlerOutcome_of_receives {s : State (slaveConfig w send)}
    (hrecv : Receives s impl (withCrc (impl.selfAddr :: r.encode)))
    (hrep : impl.memory.Represents m) (hlegal : r.Legal) (hwithin : r.Within impl.memory.header) :
    s.userData.selfAddr = (pduArgs s).addr ∧ (handlerOutcome s).reply = r.reply m ∧
      { impl with memory.bytes := (handlerOutcome s).ctx.bytes } = impl.after w r := by
  obtain ⟨payload, hpdu⟩ := r.encode_eq_cons
  have hfilled : s.rxbuf.filled = withCrc (impl.selfAddr :: r.fcode :: payload) :=
    hpdu ▸ hrecv.filled
  obtain ⟨haddr, tail, houtcome⟩ := handlerOutcome_of_filled hfilled hrecv.rxBound
  obtain ⟨hreply, hbytes⟩ := executes_after (w := w) hrep hlegal hwithin tail
  rw [← hpdu, hrecv.userData] at houtcome
  refine ⟨by rw [haddr, hrecv.userData], by rw [houtcome, hreply], ?_⟩
  rw [houtcome, hbytes]
  rfl

/-- A documented request to the slave's own address is answered as it should be. -/
theorem slave_answers (hrep : impl.memory.Represents m) (hlegal : r.Legal)
    (hwithin : r.Within impl.memory.header) :
    SlaveAnswers w send impl (withCrc (impl.selfAddr :: r.encode))
      (withCrc (impl.selfAddr :: r.reply m)) (impl.after w r) where
  received := by
    have hlen := Request.length_encode_le hlegal
    refine exists_receives impl ?_
    rw [length_withCrc, List.length_cons, aduCapacity]
    omega
  answers s hrecv := by
    have hlen : 2 ≤ (impl.selfAddr :: r.encode).length :=
      Nat.succ_le_succ (List.length_pos_iff.mpr r.encode_ne_nil)
    have hacc : Accepted s.rxbuf.filled := hrecv.filled ▸ accepted_withCrc hlen
    obtain ⟨haddr, hreply, hafter⟩ := handlerOutcome_of_receives hrecv hrep hlegal hwithin
    have hcb : (slaveConfig w send).pduCb s.userData (pduArgs s) = _ := implPduCb_own haddr
    constructor
    · rw [sends_own hacc hrecv.error haddr, hreply, hrecv.userData]
    · rw [aduProcess_userData hacc hrecv.error, hcb, ← hafter, hrecv.userData]

end

end ModbusRtu
