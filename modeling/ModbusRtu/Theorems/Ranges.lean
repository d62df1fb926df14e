import ModbusRtu.Logic.Execution
import ModbusRtu.Logic.Refusals

/-!
# Reads and writes of one range

A read handler compares both ends of the range with the window, a write handler
only its start with the end of the window. `ranges_agree_iff` says for which
ranges a write and the read of the same addresses are answered alike, and that a
request which is legal but for its range is refused with
`ECODE_ILLEGAL_DATA_ADDRESS` by both.
-/

namespace ModbusRtu

/-- The write and the read are about the same addresses, in the same units. -/
inductive SameRange : Request → Request → Prop
  | register (addr : UInt16) (value : UInt8) :
      SameRange (.wrRegister addr value) (.rdHoldingRegisters addr 1)
  | registers (addr : UInt16) (values : List UInt8) :
      SameRange (.wrRegisters addr values) (.rdHoldingRegisters addr values.length)
  | bytes (addr : UInt16) (values : List UInt8) :
      SameRange (.wrBytes addr values) (.rdBytes addr values.length)

/-- The answer to a request, whatever bytes are behind it in the buffer. -/
def answerTo (w : IntWidth) (mem : RtuMemory) (r : Request) (tail : List UInt8) : Outcome :=
  rtuMemoryPduCb w mem r.fcode (r.encode ++ tail) r.encode.length 1

/-- The request is refused for its range. -/
def RefusedForRange (r : Request) (outcome : Outcome) : Prop :=
  outcome.exception = true ∧ outcome.reply = [r.fcode + 0x80, ecodeIllegalDataAddress]

/-- Both requests are executed or both refused, and refused for their range. -/
structure Agree (wr rd : Request) (written read : Outcome) : Prop where
  accepted : written.exception = false ↔ read.exception = false
  writeRefused : written.exception = true → RefusedForRange wr written
  readRefused : read.exception = true → RefusedForRange rd read

/-- What the writes check of a range. -/
def Header.WriteChecks (h : Header) (addr : UInt16) : Prop := addr < h.addrEnd

/-- What the reads check of a range; the sum is the one the target computes. -/
def Header.ReadChecks (w : IntWidth) (h : Header) (addr : UInt16) (n : Nat) : Prop :=
  (h.addrBegin ≤ addr ∧ addr < h.addrEnd) ∧ w.add addr (.ofNat n) ≤ h.addrEnd.toNat

instance (h : Header) (addr : UInt16) : Decidable (h.WriteChecks addr) :=
  inferInstanceAs (Decidable (_ < _))

instance (w : IntWidth) (h : Header) (addr : UInt16) (n : Nat) :
    Decidable (h.ReadChecks w addr n) :=
  inferInstanceAs (Decidable (_ ∧ _))

/-! ## Request by request -/

/-- The request is executed if the range passes, and else refused for it. -/
structure Decides (r : Request) (ok : Prop) (outcome : Outcome) : Prop where
  executed : ok → outcome.exception = false
  refused : ¬ok → RefusedForRange r outcome

section

variable {w : IntWidth} {mem : RtuMemory} {addr : UInt16} {num : Nat} {value : UInt8}
  {values : List UInt8} {tail : List UInt8}

theorem rdHoldingRegisters_decides (hlegal : (Request.rdHoldingRegisters addr num).Legal) :
    Decides (.rdHoldingRegisters addr num) (mem.header.ReadChecks w addr num)
      (answerTo w mem (.rdHoldingRegisters addr num) tail) := by
  have hiff := readN16Ok_encode (w := w) (h := mem.header) tail hlegal
  have hquantity : 1 ≤ num ∧ num ≤ 125 := hlegal
  refine ⟨?_, ?_⟩
  · intro hok
    show (readN16 w mem.header _ 5 1 _).exception = false
    rw [readN16_ok (hiff.mpr hok)]
  · intro hbad
    have hbad' := mt hiff.mp hbad
    refine ⟨(readN16_refused hbad' _).exception, readN16_illegalAddress (Nat.le_refl 5) ?_ hbad' _⟩
    rw [rd16_rdHoldingRegisters_num]
    exact (ofNat_u16_bounds 126 (by omega) (by omega)).mpr ⟨hquantity.1, by omega⟩

theorem rdBytes_decides (hlegal : (Request.rdBytes addr num).Legal) :
    Decides (.rdBytes addr num) (mem.header.ReadChecks w addr num)
      (answerTo w mem (.rdBytes addr num) tail) := by
  have hiff := readN8Ok_encode (w := w) (h := mem.header) tail hlegal
  have hquantity : 1 ≤ num ∧ num ≤ 249 := hlegal
  refine ⟨?_, ?_⟩
  · intro hok
    show (readN8 w mem.header _ 4 1 _).exception = false
    rw [readN8_ok (hiff.mpr hok)]
  · intro hbad
    have hbad' := mt hiff.mp hbad
    refine ⟨(readN8_refused hbad' _).exception, readN8_illegalAddress (Nat.le_refl 4) ?_ hbad' _⟩
    rw [rd8_rdBytes_num]
    exact (ofNat_u8_bounds 250 (by omega) (by omega)).mpr ⟨hquantity.1, by omega⟩

theorem wrRegister_decides :
    Decides (.wrRegister addr value) (mem.header.WriteChecks addr)
      (answerTo w mem (.wrRegister addr value) tail) := by
  have hiff : Write16Ok mem.header ((Request.wrRegister addr value).encode ++ tail) 5 ↔
      addr < mem.header.addrEnd := write16Ok_encode tail
  refine ⟨?_, ?_⟩
  · intro hok
    show (write16 w mem.header _ 5 1 _).exception = false
    rw [write16_ok (hiff.mpr hok)]
  · intro hbad
    refine ⟨(write16_refused (mt hiff.mp hbad) _).exception,
      write16_illegalAddress (Nat.le_refl 5) ?_ _⟩
    rw [Request.rd16_addr]
    exact hbad

theorem wrRegisters_decides (hlegal : (Request.wrRegisters addr values).Legal) :
    Decides (.wrRegisters addr values) (mem.header.WriteChecks addr)
      (answerTo w mem (.wrRegisters addr values) tail) := by
  have hiff := writeN16Ok_encode (h := mem.header) tail hlegal
  rw [answerTo, Request.length_encode]
  refine ⟨?_, ?_⟩
  · intro hok
    show (writeN16 mem.header _ (6 + 2 * values.length) 1 _).exception = false
    rw [writeN16_ok (hiff.mpr hok) (registerOk_encode tail hlegal)]
  · intro hbad
    have hsize : 5 ≤ 6 + 2 * values.length := by omega
    refine ⟨(writeN16_refused (mt hiff.mp hbad) _).exception, writeN16_illegalAddress hsize ?_ _⟩
    rw [Request.rd16_addr]
    exact hbad

theorem wrBytes_decides (hlegal : (Request.wrBytes addr values).Legal) :
    Decides (.wrBytes addr values) (mem.header.WriteChecks addr)
      (answerTo w mem (.wrBytes addr values) tail) := by
  have hiff := writeN8Ok_encode (h := mem.header) tail hlegal
  rw [answerTo, Request.length_encode]
  refine ⟨?_, ?_⟩
  · intro hok
    show (writeN8 mem.header _ (4 + values.length) 1 _).exception = false
    rw [writeN8_ok (hiff.mpr hok)]
  · intro hbad
    have hsize : 4 ≤ 4 + values.length := by omega
    refine ⟨(writeN8_refused (mt hiff.mp hbad) _).exception, writeN8_illegalAddress hsize ?_ _⟩
    rw [Request.rd16_addr]
    exact hbad

end

/-! ## The write and the read -/

theorem Decides.accepted_iff {r : Request} {ok : Prop} {outcome : Outcome}
    (h : Decides r ok outcome) : outcome.exception = false ↔ ok := by
  refine ⟨?_, h.executed⟩
  intro hexc
  by_contra hbad
  rw [(h.refused hbad).1] at hexc
  cases hexc

theorem Decides.refusedForRange {r : Request} {ok : Prop} {outcome : Outcome}
    (h : Decides r ok outcome) (hexc : outcome.exception = true) : RefusedForRange r outcome :=
  h.refused fun hok => by
    rw [h.executed hok] at hexc
    cases hexc

/-- The requests agree exactly if their checks do. -/
theorem Decides.agree_iff {wr rd : Request} {okw okr : Prop} {written read : Outcome}
    (hw : Decides wr okw written) (hr : Decides rd okr read) :
    Agree wr rd written read ↔ (okw ↔ okr) := by
  constructor
  · intro h
    rw [← hw.accepted_iff, ← hr.accepted_iff]
    exact h.accepted
  · intro h
    refine ⟨?_, hw.refusedForRange, hr.refusedForRange⟩
    rw [hw.accepted_iff, hr.accepted_iff]
    exact h

/-- Agreeing or not, what is refused is refused for the range. -/
theorem Decides.agree_iff_and_refused {wr rd : Request} {okw okr : Prop} {written read : Outcome}
    (hw : Decides wr okw written) (hr : Decides rd okr read) :
    (Agree wr rd written read ↔ (okw ↔ okr)) ∧
      (written.exception = true → RefusedForRange wr written) ∧
      (read.exception = true → RefusedForRange rd read) :=
  ⟨hw.agree_iff hr, hw.refusedForRange, hr.refusedForRange⟩

/-- The checks differ on the ranges that start below the end of the window but
not in it, or end behind it. -/
theorem checks_agree_iff (w : IntWidth) (h : Header) (addr : UInt16) (n : Nat) :
    (h.WriteChecks addr ↔ h.ReadChecks w addr n) ↔
      ¬(addr < h.addrEnd ∧
        (addr < h.addrBegin ∨ h.addrEnd.toNat < w.add addr (.ofNat n))) := by
  have hle : ¬h.addrBegin ≤ addr ↔ addr < h.addrBegin := UInt16.not_le
  rw [← hle, ← Nat.not_le]
  unfold Header.WriteChecks Header.ReadChecks
  tauto

/-- A legal write and the read of the same range are both executed or both
refused, and refused for the range, exactly unless the range starts below the
end of the window and either below its begin or so that its end, as the target
computes it, is behind the end of the window. Whatever is refused, of all ranges,
is refused for its range. -/
theorem ranges_agree_iff (w : IntWidth) (mem : RtuMemory) {wr rd : Request}
    (hsame : SameRange wr rd) (hlegal : wr.Legal) (tail tail' : List UInt8) :
    (Agree wr rd (answerTo w mem wr tail) (answerTo w mem rd tail') ↔
      ¬(wr.addr < mem.header.addrEnd ∧
        (wr.addr < mem.header.addrBegin ∨
          mem.header.addrEnd.toNat < w.add wr.addr (.ofNat wr.count)))) ∧
      ((answerTo w mem wr tail).exception = true →
        RefusedForRange wr (answerTo w mem wr tail)) ∧
      ((answerTo w mem rd tail').exception = true →
        RefusedForRange rd (answerTo w mem rd tail')) := by
  rw [← checks_agree_iff]
  cases hsame with
  | register addr value =>
      have hrd : (Request.rdHoldingRegisters addr 1).Legal :=
        ⟨Nat.le_refl 1, (by decide : (1 : Nat) ≤ 125)⟩
      exact wrRegister_decides.agree_iff_and_refused (rdHoldingRegisters_decides hrd)
  | registers addr values =>
      have hrd : (Request.rdHoldingRegisters addr values.length).Legal :=
        ⟨hlegal.1, hlegal.2.trans (by decide : (123 : Nat) ≤ 125)⟩
      exact (wrRegisters_decides hlegal).agree_iff_and_refused (rdHoldingRegisters_decides hrd)
  | bytes addr values =>
      have hrd : (Request.rdBytes addr values.length).Legal := hlegal
      exact (wrBytes_decides hlegal).agree_iff_and_refused (rdBytes_decides hrd)

/-- Two bytes in the middle of the window. -/
theorem ranges_agree_inside :
    let mem : RtuMemory := { header := ⟨0x1000, 0x1400⟩, bytes := fun _ => 0 }
    let wr : Request := .wrBytes 0x1100 [1, 2]
    let rd : Request := .rdBytes 0x1100 2
    Agree wr rd (answerTo .int32 mem wr []) (answerTo .int32 mem rd []) ↔
      ¬(wr.addr < mem.header.addrEnd ∧
        (wr.addr < mem.header.addrBegin ∨
          mem.header.addrEnd.toNat < IntWidth.int32.add wr.addr (.ofNat wr.count))) := by
  intro mem wr rd
  exact (ranges_agree_iff .int32 mem (.bytes 0x1100 [1, 2]) (by decide) [] []).1

/-- The writes accept a range that runs past the end of the window or starts
below it, where the reads refuse it. -/
theorem writes_accept_more :
    let mem : RtuMemory := { header := ⟨0x1000, 0x1400⟩, bytes := fun _ => 0 }
    let agree (wr rd : Request) : Prop :=
      Agree wr rd (answerTo .int32 mem wr []) (answerTo .int32 mem rd [])
    ¬agree (.wrBytes 0x13FF [1, 2]) (.rdBytes 0x13FF 2) ∧
      ¬agree (.wrRegisters 0x13FF [1, 2]) (.rdHoldingRegisters 0x13FF 2) ∧
      ¬agree (.wrRegister 0x0FFF 1) (.rdHoldingRegisters 0x0FFF 1) := by
  intro mem agree
  refine ⟨?_, ?_, ?_⟩
  · intro h
    exact absurd (h.accepted.mp (by decide)) (by decide)
  · intro h
    exact absurd (h.accepted.mp (by decide)) (by decide)
  · intro h
    exact absurd (h.accepted.mp (by decide)) (by decide)

end ModbusRtu
