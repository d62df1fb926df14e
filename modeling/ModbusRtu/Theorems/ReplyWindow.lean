import ModbusRtu.Base.RawMemory
import ModbusRtu.Logic.RequestBytes
import ModbusRtu.Logic.SlavePath

/-!
# The reply and its destination

`adu_process` gives the callback a range for the reply, the transmit buffer less
two bytes for the CRC, and the handler ignores its end. `reply_window_iff` says
when the reply stays in the range all the same: exactly if the range has room for
it, and how much room a request needs (`replySize`) is fixed by the checks it
passes and its quantity. With the default capacity there is always enough.
-/

namespace ModbusRtu

open Base

/-! ## Stores and the returned pointer -/

/-- `rtu_memory_pdu_cb` with its destination: the bytes of the reply are stored
one behind the other from `dst_begin` on, and the pointer behind them is returned. -/
def pduCbInto (w : IntWidth) (mem : RtuMemory) (fcode : UInt8) (src : List UInt8) (end_ : Nat)
    (dst : Nat → UInt8) : Nat × RawMemory UInt8 :=
  let reply := (rtuMemoryPduCb w mem fcode src end_ 1).reply
  (reply.length, RawMemory.memcpy { cells := dst, stored := [] } 0 reply)

/-- `rtu_memory_impl_pdu_cb` with its destination. -/
def implPduCbInto (w : IntWidth) (impl : RtuMemoryImpl) (args : PduArgs) (dst : Nat → UInt8) :
    Nat × RawMemory UInt8 :=
  let reply := (rtuMemoryImplPduCb w impl args).2
  (reply.length, RawMemory.memcpy { cells := dst, stored := [] } 0 reply)

/-- No byte is stored at `dst_end` or behind it, and the returned pointer is in the range. -/
def RespectsWindow (size : Nat) (result : Nat × RawMemory UInt8) : Prop :=
  (∀ i ∈ result.2.stored, i < size) ∧ result.1 ≤ size

theorem respectsWindow_iff (reply : List UInt8) (dst : Nat → UInt8) (size : Nat) :
    RespectsWindow size (reply.length, RawMemory.memcpy { cells := dst, stored := [] } 0 reply) ↔
      reply.length ≤ size := by
  refine ⟨And.right, fun hle => ⟨?_, hle⟩⟩
  intro i hi
  have hlt : i < 0 + reply.length := (List.mem_range'_1.mp hi).2
  omega

/-! ## The size of a reply -/

/-- The size of the reply to a request. -/
def replySize (w : IntWidth) (h : Header) (fcode : UInt8) (src : List UInt8) (end_ : Nat) : Nat :=
  if PassesChecks w h fcode src end_ then
    if fcode = fcodeRdHoldingRegisters then 2 + 2 * (rd16 src 3).toNat
    else if fcode = fcodeRdBytes then 4 + (rd8 src 3).toNat
    else if fcode = fcodeWrBytes then 4
    else 5
  else 2

/-- The adapter puts the slave address in front, and answers its own requests only. -/
def implReplySize (w : IntWidth) (impl : RtuMemoryImpl) (args : PduArgs) : Nat :=
  if impl.selfAddr ≠ args.addr then 0
  else 1 + replySize w impl.memory.header args.fcode (args.src.drop 1) (args.end_ - 1)

section

variable {w : IntWidth} {mem : RtuMemory} {fcode : UInt8} {src : List UInt8} {end_ : Nat}

/-- A request that fails a check is answered with an exception. -/
theorem length_reply_refused (hbad : ¬PassesChecks w mem.header fcode src end_) :
    (rtuMemoryPduCb w mem fcode src end_ 1).reply.length = 2 := by
  rcases fcode_cases fcode with rfl | rfl | rfl | rfl | rfl | hunsup
  · exact (readN16_refused hbad _).length_reply
  · exact (write16_refused hbad _).length_reply
  · rw [pduCb_wrRegisters]
    by_cases hok : WriteN16Ok mem.header src end_
    · -- some register has failed its check
      rcases registers_cases src (rd16 src 3).toNat with hall | ⟨j, hj, hgood, hreg⟩
      · exact absurd ⟨hok, hall⟩ hbad
      · rw [writeN16_bad hok hj hgood hreg]
        rfl
    · exact (writeN16_refused hok _).length_reply
  · exact (readN8_refused hbad _).length_reply
  · exact (writeN8_refused hbad _).length_reply
  · rw [pduCb_unsupported w mem src end_ 1 hunsup]
    rfl

theorem length_reply_eq :
    (rtuMemoryPduCb w mem fcode src end_ 1).reply.length =
      replySize w mem.header fcode src end_ := by
  by_cases hpass : PassesChecks w mem.header fcode src end_
  · rw [replySize, if_pos hpass]
    rcases fcode_cases fcode with rfl | rfl | rfl | rfl | rfl | hunsup
    · rw [pduCb_rdHoldingRegisters, readN16_ok hpass, if_pos rfl]
      simp only [wr16_toUInt16]
      rw [← List.flatMap_map, List.length_append, length_registers, List.length_map,
        List.length_range]
      rfl
    · rw [pduCb_wrRegister, write16_ok hpass, List.length_map, List.length_range]
      rfl
    · rw [pduCb_wrRegisters, writeN16_ok hpass.1 hpass.2, List.length_map, List.length_range]
      rfl
    · rw [pduCb_rdBytes, readN8_ok hpass, List.length_append, List.length_map, List.length_map,
        List.length_range, List.length_range]
      rfl
    · rw [pduCb_wrBytes, writeN8_ok hpass, List.length_map, List.length_range]
      rfl
    · exact absurd hpass (not_passesChecks hunsup)
  · rw [length_reply_refused hpass, replySize, if_neg hpass]

theorem length_implReply_eq {impl : RtuMemoryImpl} {args : PduArgs} (hcurr : args.curr = 2) :
    (rtuMemoryImplPduCb w impl args).2.length = implReplySize w impl args := by
  rw [rtuMemoryImplPduCb, implReplySize, hcurr]
  split
  · rfl
  · rw [List.length_cons, length_reply_eq, Nat.add_comm]

end

/-! ## The transmit buffer -/

/-- The slave built with another `TXBUF_CAPACITY`. -/
def slaveWithTxbuf (w : IntWidth) (send : SerialSend) (capacity : Nat) : Config RtuMemoryImpl :=
  { slaveConfig w send with txbufCapacity := capacity }

section

variable {w : IntWidth} {send : SerialSend} {capacity : Nat}
  {s : State (slaveWithTxbuf w send capacity)}

/-- An accepted frame gives rise to one store for each byte of the reply and of
its CRC, if there is a reply. -/
theorem txStore_mem_iff (hacc : Accepted s.rxbuf.filled) (herr : s.status.error = false)
    (i : Nat) :
    Call.txStore i ∈ callsSince s (aduProcess serialSend s) ↔
      reply s ≠ [] ∧ i < (reply s).length + 2 := by
  obtain ⟨l, hl, hkind⟩ := aduProcess_calls herr
  have hother : Call.txStore i ∉ l := by
    rcases hkind with rfl | rfl
    · exact List.not_mem_nil
    · simp [changeoverCalls]
  rw [callsSince, hl, List.append_assoc, List.drop_left, List.mem_append, or_iff_left hother,
    frameCalls, if_pos hacc]
  by_cases hreply : reply s = []
  · simp [hreply]
  · simp [hreply]

/-- The reply and its CRC stay in the transmit buffer if the reply stays in the
range `adu_process` gives the callback. -/
theorem txStores_inBounds_iff (hcap : 2 ≤ capacity) (hacc : Accepted s.rxbuf.filled)
    (herr : s.status.error = false) :
    (∀ i, Call.txStore i ∈ callsSince s (aduProcess serialSend s) → i < capacity) ↔
      implReplySize w s.userData (pduArgs s) ≤ (pduArgs s).dstSize := by
  have hlen : (reply s).length = implReplySize w s.userData (pduArgs s) := length_implReply_eq rfl
  have hsize : (pduArgs s).dstSize = capacity - 2 := rfl
  rw [← hlen, hsize]
  simp only [txStore_mem_iff hacc herr]
  constructor
  · intro hall
    by_cases hreply : reply s = []
    · rw [hreply]
      exact Nat.zero_le _
    · have hlast := hall ((reply s).length + 1) ⟨hreply, Nat.lt_succ_self _⟩
      omega
  · rintro hle i ⟨-, hi⟩
    omega

end

/-- For every request and every destination range: the handler, and the adapter
in front of it, keep to the range exactly if it has room for the reply, and then,
and only then, the CRC behind the reply stays in the transmit buffer too. -/
theorem reply_window_iff (w : IntWidth) :
    (∀ mem fcode src end_ dst size,
      RespectsWindow size (pduCbInto w mem fcode src end_ dst) ↔
        replySize w mem.header fcode src end_ ≤ size) ∧
    (∀ impl args dst, args.curr = 2 →
      (RespectsWindow args.dstSize (implPduCbInto w impl args dst) ↔
        implReplySize w impl args ≤ args.dstSize)) ∧
    (∀ send capacity (s : State (slaveWithTxbuf w send capacity)), 2 ≤ capacity →
      Accepted s.rxbuf.filled → s.status.error = false →
        ((∀ i, Call.txStore i ∈ callsSince s (aduProcess serialSend s) → i < capacity) ↔
          implReplySize w s.userData (pduArgs s) ≤ (pduArgs s).dstSize)) := by
  refine ⟨?_, ?_, ?_⟩
  · intro mem fcode src end_ dst size
    rw [← length_reply_eq]
    exact respectsWindow_iff _ dst size
  · intro impl args dst hcurr
    rw [← length_implReply_eq hcurr]
    exact respectsWindow_iff _ dst _
  · intro send capacity s hcap hacc herr
    exact txStores_inBounds_iff hcap hacc herr

/-- A byte read in a slave with a transmit buffer of 64 bytes. -/
theorem reply_window_short_read :
    let impl : RtuMemoryImpl := ⟨0x11, { header := ⟨0x1000, 0x1400⟩, bytes := fun _ => 0 }⟩
    let s : State (slaveWithTxbuf .int16 .async 64) :=
      { modbusRtuInit _ impl with
        rxbuf := (Buf.clear _ 0).pushAll (withCrc [0x11, 0x41, 0x10, 0, 2]) }
    RespectsWindow 62 (implPduCbInto .int16 impl (pduArgs s) fun _ => 0) ∧
      ∀ i, Call.txStore i ∈ callsSince s (aduProcess serialSend s) → i < 64 := by
  intro impl s
  obtain ⟨-, hadapter, hmachine⟩ := reply_window_iff .int16
  exact ⟨(hadapter impl (pduArgs s) _ rfl).mpr (by decide +kernel),
    (hmachine .async 64 s (by decide) (by decide +kernel) rfl).mpr (by decide +kernel)⟩

/-- With the same buffer, a read of 249 bytes stores its reply behind it. -/
theorem long_read_overruns :
    let impl : RtuMemoryImpl := ⟨0x11, { header := ⟨0x1000, 0x1400⟩, bytes := fun _ => 0 }⟩
    let args : PduArgs :=
      { addr := 0x11, fcode := 0x41, src := [0x11, 0x41, 0x10, 0, 249], end_ := 5, curr := 2
        dstSize := 62 }
    ¬RespectsWindow args.dstSize (implPduCbInto .int16 impl args fun _ => 0) ∧
      ¬RespectsWindow 61
        (pduCbInto .int16 impl.memory args.fcode (args.src.drop 1) 4 fun _ => 0) := by
  intro impl args
  constructor
  · intro h
    have hlen : (rtuMemoryImplPduCb .int16 impl args).2.length = implReplySize .int16 impl args :=
      length_implReply_eq rfl
    have hsize : (rtuMemoryImplPduCb .int16 impl args).2.length ≤ args.dstSize := h.2
    rw [hlen] at hsize
    exact absurd hsize (by decide)
  · intro h
    have hlen : (rtuMemoryPduCb .int16 impl.memory args.fcode (args.src.drop 1) 4 1).reply.length =
        replySize .int16 impl.memory.header args.fcode (args.src.drop 1) 4 := length_reply_eq
    have hsize : (rtuMemoryPduCb .int16 impl.memory args.fcode
        (args.src.drop 1) 4 1).reply.length ≤ 61 := h.2
    rw [hlen] at hsize
    exact absurd hsize (by decide)

end ModbusRtu
