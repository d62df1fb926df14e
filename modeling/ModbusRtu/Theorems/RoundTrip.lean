import ModbusRtu.Logic.MasterFrames
import ModbusRtu.Logic.SlavePath

/-!
# From the master to the slave and back

The frame a request builder puts together, handed to the slave, is answered
with a frame the matching parser reads the request out of; and reading the
range back gives the data that was written. Both ends meet in `Request`: the
builders write its encoding, the slave answers it, and the parsers read its
reply.
-/

namespace ModbusRtu

open Base

variable {w : IntWidth} {send : SerialSend} {impl : RtuMemoryImpl} {m : Nat → UInt8}

/-- The master's builder returned a request, the slave answers it with `reply`,
and the data of the slave goes from `impl` to `impl'`. -/
def Transacts (w : IntWidth) (send : SerialSend) (impl : RtuMemoryImpl) (call : Option Written)
    (reply : List UInt8) (impl' : RtuMemoryImpl) : Prop :=
  ∃ request, Builds call request ∧ SlaveAnswers w send impl request reply impl'

/-- A write and then a read: both builders return a request, the slave answers
both, the parsers read `echo` and `answer` out of the replies, and the read
leaves the slave as the write left it. -/
def RoundTrips {α β : Type} (w : IntWidth) (send : SerialSend) (impl : RtuMemoryImpl)
    (wrCall : Option Written) (parseWr : List UInt8 → Option α) (echo : α)
    (rdCall : Option Written) (parseRd : List UInt8 → Option β) (answer : β) : Prop :=
  ∃ wrReply rdReply impl',
    Transacts w send impl wrCall wrReply impl' ∧ parseWr wrReply = some echo ∧
      Transacts w send impl' rdCall rdReply impl' ∧ parseRd rdReply = some answer

/-- A read leaves the slave as it was. -/
theorem after_of_writes_nil {r : Request} (hwrites : r.writes = []) (hlegal : r.Legal)
    (hwithin : r.Within impl.memory.header) : impl.after w r = impl := by
  have hexec := executes (w := w) [] (represents_self impl.memory) hlegal hwithin
  have hbytes := funext fun i => hexec.frame i (by simp [hwrites])
  rw [List.append_nil] at hbytes
  rw [RtuMemoryImpl.after, hbytes]

theorem Request.within_iff {h : Header} {r : Request} : r.Within h ↔ ¬h.Outside r.addr r.count := by
  rw [Request.Within, Header.Outside, UInt16.lt_iff_toNat_lt]
  omega

/-- The written range, read back. -/
theorem map_replay_range (addr : Nat) (values : List UInt8) :
    (List.range values.length).map (fun k =>
        replay m ((List.range values.length).map fun k => (addr + k, values.getD k 0)) (addr + k)) =
      values := by
  rw [List.map_congr_left fun k hk =>
    replay_range_apply m addr (values.getD · 0) (List.mem_range.mp hk), RawMemory.map_range_getD]

/-- Registers without a high byte are bytes. -/
theorem map_low_of_high_eq_zero {data : List Data16} (hhigh : ∀ d ∈ data, d.high = 0) :
    (data.map Data16.low).map (⟨0, ·⟩) = data := by
  rw [List.map_map]
  refine (List.map_congr_left ?_).trans (List.map_id data)
  intro d hd
  show Data16.mk 0 d.low = d
  rw [← hhigh d hd]

theorem Data16.ofWord_toWord (d : Data16) : Data16.ofWord d.toWord = d := by
  rw [Data16.ofWord, Data16.toWord, highByte_makeWord, lowByte_makeWord]

/-- A write and then a read: the replies are those of the two requests, the
second one for the map with the writes of the first. -/
theorem transacts_write_read (w : IntWidth) (send : SerialSend) (wr rd : Request)
    {wrCall rdCall : Option Written} (hrep : impl.memory.Represents m)
    (hwrBuilds : Builds wrCall (withCrc (impl.selfAddr :: wr.encode)))
    (hrdBuilds : Builds rdCall (withCrc (impl.selfAddr :: rd.encode)))
    (hwrLegal : wr.Legal) (hrdLegal : rd.Legal) (hwrWithin : wr.Within impl.memory.header)
    (hrdWithin : rd.Within impl.memory.header) (hread : rd.writes = []) :
    Transacts w send impl wrCall (withCrc (impl.selfAddr :: wr.reply m)) (impl.after w wr) ∧
      Transacts w send (impl.after w wr) rdCall
        (withCrc (impl.selfAddr :: rd.reply (replay m wr.writes))) (impl.after w wr) := by
  have hrep' := represents_after (w := w) hrep hwrLegal hwrWithin
  refine ⟨⟨_, hwrBuilds, slave_answers hrep hwrLegal hwrWithin⟩, _, hrdBuilds, ?_⟩
  -- the second request meets the slave the first one left
  have hsame : (impl.after w wr).after w rd = impl.after w wr :=
    after_of_writes_nil hread hrdLegal hrdWithin
  have hanswers : SlaveAnswers w send (impl.after w wr) _ _ ((impl.after w wr).after w rd) :=
    slave_answers hrep' hrdLegal hrdWithin
  rwa [hsame] at hanswers

/-! ## The three writes -/

section

variable (w : IntWidth) (send : SerialSend) (impl : RtuMemoryImpl) (memAddr : Data16)
  (dst : RawMemory UInt8) (maxSize : Nat)

theorem wrBytes_rdBytes {data : List UInt8} (hpos : 1 ≤ data.length) (hmax : data.length ≤ 249)
    (hfits : data.length + 7 ≤ maxSize)
    (hin : ¬impl.memory.header.Outside memAddr.toWord data.length) :
    RoundTrips w send impl
      (makeRequestWrBytes impl.selfAddr memAddr data (.ofNat data.length) dst maxSize)
      parseReplyWrBytes ⟨impl.selfAddr, fcodeWrBytes, memAddr, .ofNat data.length⟩
      (makeRequestRdBytes impl.selfAddr memAddr (.ofNat data.length) dst maxSize)
      parseReplyRdBytes ⟨impl.selfAddr, fcodeRdBytes, memAddr, .ofNat data.length, data⟩ := by
  have hroom : 7 ≤ maxSize := by omega
  obtain ⟨hwr, hrd⟩ := transacts_write_read w send (.wrBytes memAddr.toWord data)
    (.rdBytes memAddr.toWord data.length) (represents_self impl.memory)
    (builds_wrBytes _ _ dst hmax hfits) (builds_rdBytes _ _ dst hmax hroom)
    ⟨hpos, hmax⟩ ⟨hpos, hmax⟩ (Request.within_iff.mpr hin) (Request.within_iff.mpr hin) rfl
  refine ⟨_, _, _, hwr, ?_, hrd, ?_⟩
  · rw [parse_wrBytes, Data16.ofWord_toWord]
  · rw [parse_rdBytes hmax, Data16.ofWord_toWord, Request.writes, map_replay_range]

theorem wrRegisters_rdHoldingRegisters {data : List Data16} (hhigh : ∀ d ∈ data, d.high = 0)
    (hpos : 1 ≤ data.length) (hmax : data.length ≤ 123) (hfits : 2 * data.length + 9 ≤ maxSize)
    (hin : ¬impl.memory.header.Outside memAddr.toWord data.length) :
    RoundTrips w send impl
      (makeRequestWrRegisters impl.selfAddr memAddr data (.ofWord (.ofNat data.length)) dst maxSize)
      parseReplyWrRegisters
      ⟨impl.selfAddr, fcodeWrRegisters, memAddr, .ofWord (.ofNat data.length)⟩
      (makeRequestRdHoldingRegisters impl.selfAddr memAddr (.ofWord (.ofNat data.length)) dst
        maxSize)
      parseReplyRdHoldingRegisters
      ⟨impl.selfAddr, fcodeRdHoldingRegisters, .ofNat (2 * data.length), data⟩ := by
  generalize hvalues : data.map Data16.low = values
  obtain rfl : data = values.map (⟨0, ·⟩) := by
    rw [← hvalues, map_low_of_high_eq_zero hhigh]
  rw [List.length_map] at *
  have hroom : 8 ≤ maxSize := by omega
  obtain ⟨hwr, hrd⟩ := transacts_write_read w send (.wrRegisters memAddr.toWord values)
    (.rdHoldingRegisters memAddr.toWord values.length) (represents_self impl.memory)
    (builds_wrRegisters _ _ dst hmax hfits) (builds_rdHoldingRegisters _ _ dst (by omega) hroom)
    ⟨hpos, hmax⟩ ⟨hpos, show values.length ≤ 125 by omega⟩
    (Request.within_iff.mpr hin) (Request.within_iff.mpr hin) rfl
  refine ⟨_, _, _, hwr, ?_, hrd, ?_⟩
  · rw [parse_wrRegisters, Data16.ofWord_toWord]
  · rw [parse_rdHoldingRegisters (by omega), Request.writes, map_replay_range]

theorem wrRegister_rdHoldingRegisters {data : Data16} (hhigh : data.high = 0)
    (hfits : 8 ≤ maxSize) (hin : ¬impl.memory.header.Outside memAddr.toWord 1) :
    RoundTrips w send impl
      (makeRequestWrRegister impl.selfAddr memAddr data dst maxSize)
      parseReplyWrRegister ⟨impl.selfAddr, fcodeWrRegister, memAddr, data⟩
      (makeRequestRdHoldingRegisters impl.selfAddr memAddr (.ofWord 1) dst maxSize)
      parseReplyRdHoldingRegisters ⟨impl.selfAddr, fcodeRdHoldingRegisters, 2, [data]⟩ := by
  obtain ⟨high, value⟩ := data
  obtain rfl : high = 0 := hhigh
  obtain ⟨hwr, hrd⟩ := transacts_write_read w send (.wrRegister memAddr.toWord value)
    (.rdHoldingRegisters memAddr.toWord 1) (represents_self impl.memory)
    (builds_wrRegister _ _ dst hfits) (builds_rdHoldingRegisters _ _ dst (by omega) hfits)
    ⟨Nat.le_refl 1, Nat.le_refl 1⟩ ⟨Nat.le_refl 1, show 1 ≤ 125 by omega⟩
    (Request.within_iff.mpr hin) (Request.within_iff.mpr hin) rfl
  refine ⟨_, _, _, hwr, ?_, hrd, ?_⟩
  · rw [parse_wrRegister, Data16.ofWord_toWord]
  · rw [parse_rdHoldingRegisters (by omega)]
    simp [Request.writes, replay]

/-- What the master writes is acknowledged field by field, and what it then
reads back is what it wrote: byte lists, register lists and single registers. -/
theorem write_read_round_trip :
    (∀ data : List UInt8, 1 ≤ data.length → data.length ≤ 249 → data.length + 7 ≤ maxSize →
      ¬impl.memory.header.Outside memAddr.toWord data.length →
        RoundTrips w send impl
          (makeRequestWrBytes impl.selfAddr memAddr data (.ofNat data.length) dst maxSize)
          parseReplyWrBytes ⟨impl.selfAddr, fcodeWrBytes, memAddr, .ofNat data.length⟩
          (makeRequestRdBytes impl.selfAddr memAddr (.ofNat data.length) dst maxSize)
          parseReplyRdBytes ⟨impl.selfAddr, fcodeRdBytes, memAddr, .ofNat data.length, data⟩) ∧
    (∀ data : List Data16, (∀ d ∈ data, d.high = 0) → 1 ≤ data.length → data.length ≤ 123 →
      2 * data.length + 9 ≤ maxSize →
      ¬impl.memory.header.Outside memAddr.toWord data.length →
        RoundTrips w send impl
          (makeRequestWrRegisters impl.selfAddr memAddr data (.ofWord (.ofNat data.length)) dst
            maxSize)
          parseReplyWrRegisters
          ⟨impl.selfAddr, fcodeWrRegisters, memAddr, .ofWord (.ofNat data.length)⟩
          (makeRequestRdHoldingRegisters impl.selfAddr memAddr (.ofWord (.ofNat data.length)) dst
            maxSize)
          parseReplyRdHoldingRegisters
          ⟨impl.selfAddr, fcodeRdHoldingRegisters, .ofNat (2 * data.length), data⟩) ∧
    (∀ data : Data16, data.high = 0 → 8 ≤ maxSize →
      ¬impl.memory.header.Outside memAddr.toWord 1 →
        RoundTrips w send impl
          (makeRequestWrRegister impl.selfAddr memAddr data dst maxSize)
          parseReplyWrRegister ⟨impl.selfAddr, fcodeWrRegister, memAddr, data⟩
          (makeRequestRdHoldingRegisters impl.selfAddr memAddr (.ofWord 1) dst maxSize)
          parseReplyRdHoldingRegisters ⟨impl.selfAddr, fcodeRdHoldingRegisters, 2, [data]⟩) :=
  ⟨fun _ hpos hmax hfits hin =>
      wrBytes_rdBytes w send impl memAddr dst maxSize hpos hmax hfits hin,
    fun _ hhigh hpos hmax hfits hin =>
      wrRegisters_rdHoldingRegisters w send impl memAddr dst maxSize hhigh hpos hmax hfits hin,
    fun _ hhigh hfits hin =>
      wrRegister_rdHoldingRegisters w send impl memAddr dst maxSize hhigh hfits hin⟩

end

/-- Three bytes, two registers and one register at the start of a window. -/
theorem write_read_round_trip_short :
    let impl : RtuMemoryImpl := ⟨0x11, { header := ⟨0x1000, 0x1400⟩, bytes := fun _ => 0 }⟩
    let dst : RawMemory UInt8 := { cells := fun _ => 0, stored := [] }
    RoundTrips .int32 .async impl
        (makeRequestWrBytes 0x11 ⟨0x10, 0⟩ [1, 2, 3] 3 dst 256)
        parseReplyWrBytes ⟨0x11, fcodeWrBytes, ⟨0x10, 0⟩, 3⟩
        (makeRequestRdBytes 0x11 ⟨0x10, 0⟩ 3 dst 256)
        parseReplyRdBytes ⟨0x11, fcodeRdBytes, ⟨0x10, 0⟩, 3, [1, 2, 3]⟩ ∧
      RoundTrips .int32 .async impl
        (makeRequestWrRegisters 0x11 ⟨0x10, 0⟩ [⟨0, 7⟩, ⟨0, 8⟩] ⟨0, 2⟩ dst 256)
        parseReplyWrRegisters ⟨0x11, fcodeWrRegisters, ⟨0x10, 0⟩, ⟨0, 2⟩⟩
        (makeRequestRdHoldingRegisters 0x11 ⟨0x10, 0⟩ ⟨0, 2⟩ dst 256)
        parseReplyRdHoldingRegisters ⟨0x11, fcodeRdHoldingRegisters, 4, [⟨0, 7⟩, ⟨0, 8⟩]⟩ ∧
      RoundTrips .int32 .async impl
        (makeRequestWrRegister 0x11 ⟨0x10, 0⟩ ⟨0, 9⟩ dst 256)
        parseReplyWrRegister ⟨0x11, fcodeWrRegister, ⟨0x10, 0⟩, ⟨0, 9⟩⟩
        (makeRequestRdHoldingRegisters 0x11 ⟨0x10, 0⟩ ⟨0, 1⟩ dst 256)
        parseReplyRdHoldingRegisters ⟨0x11, fcodeRdHoldingRegisters, 2, [⟨0, 9⟩]⟩ := by
  intro impl dst
  obtain ⟨hbytes, hregisters, hregister⟩ :=
    write_read_round_trip .int32 .async impl ⟨0x10, 0⟩ dst 256
  exact ⟨hbytes [1, 2, 3] (by decide) (by decide) (by decide) (by decide),
    hregisters [⟨0, 7⟩, ⟨0, 8⟩] (by decide) (by decide) (by decide) (by decide) (by decide),
    hregister ⟨0, 9⟩ rfl (by decide) (by decide)⟩

end ModbusRtu
