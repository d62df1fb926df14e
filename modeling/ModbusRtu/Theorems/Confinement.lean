import ModbusRtu.Logic.Handlers

/-!
# Memory confinement

The handler is meant to answer an access outside the window with an exception.
The read handlers check both ends of the range; the write handlers compare
only the first address, and only with `addr_end`. `Escapes` names the requests
that get past the checks and leave the window, and `confined_iff_not_escapes`
says that there are no others: on every other request each accessed cell is in
the window and nothing around the window changes.
-/

namespace ModbusRtu

/-- The request passes the checks of its handler, and the elements the handler
then accesses are not all in the window. A register write accesses the
registers up to the first that has a non-zero high byte. -/
def Escapes (w : IntWidth) (h : Header) (fcode : UInt8) (src : List UInt8) (end_ : Nat) : Prop :=
  if fcode = fcodeRdHoldingRegisters then
    ReadN16Ok w h src end_ ∧ h.Outside (rd16 src 1) (rd16 src 3).toNat
  else if fcode = fcodeWrRegister then
    Write16Ok h src end_ ∧ h.Outside (rd16 src 1) 1
  else if fcode = fcodeWrRegisters then
    WriteN16Ok h src end_ ∧ ∃ n ≤ (rd16 src 3).toNat, 0 < n ∧ (∀ k < n, RegisterOk src k) ∧
      h.Outside (rd16 src 1) n
  else if fcode = fcodeRdBytes then
    ReadN8Ok w h src end_ ∧ h.Outside (rd16 src 1) (rd8 src 3).toNat
  else if fcode = fcodeWrBytes then
    WriteN8Ok h src end_ ∧ h.Outside (rd16 src 1) (rd8 src 3).toNat
  else False

/-! ## The reads, where `int` has 32 bits -/

/-- `addr + num` does not wrap, so both ends of the range are checked. -/
theorem readN16_not_outside {h : Header} {src : List UInt8} {end_ : Nat}
    (hok : ReadN16Ok .int32 h src end_) : ¬h.Outside (rd16 src 1) (rd16 src 3).toNat := by
  obtain ⟨-, haddr, -, hend⟩ := hok
  rintro (hlow | hhigh)
  · exact absurd haddr.1 (UInt16.not_le.mpr hlow)
  · exact absurd hend (by rw [IntWidth.add]; omega)

theorem readN8_not_outside {h : Header} {src : List UInt8} {end_ : Nat}
    (hok : ReadN8Ok .int32 h src end_) : ¬h.Outside (rd16 src 1) (rd8 src 3).toNat := by
  obtain ⟨-, haddr, -, hend⟩ := hok
  rintro (hlow | hhigh)
  · exact absurd haddr.1 (UInt16.not_le.mpr hlow)
  · exact absurd hend (by rw [IntWidth.add, UInt8.toNat_toUInt16]; omega)

/-! ## Handler by handler -/

/-- All cells in the list are in the window. -/
def Header.Confined (h : Header) (touched : List Int) : Prop := ∀ i ∈ touched, h.InWindow i

theorem Refused.confined {h : Header} {bytes : Int → UInt8} {outcome : Outcome}
    (href : Refused (.start bytes) outcome) : h.Confined outcome.ctx.touched := by
  rw [href.touched]
  exact fun i hi => absurd hi List.not_mem_nil

section

variable {w : IntWidth} {h : Header} {src : List UInt8} {end_ : Nat} {bytes : Int → UInt8}

theorem confined_cells_iff {addr : UInt16} {n : Nat} (hn : 0 < n) (haddr : addr < h.addrEnd) :
    h.Confined ((Ctx.start bytes).touched ++ cells h addr n) ↔ ¬h.Outside addr n :=
  cells_inWindow_iff hn haddr

theorem readN16_confined_iff :
    h.Confined (readN16 w h src end_ 1 (.start bytes)).ctx.touched ↔
      ¬(ReadN16Ok w h src end_ ∧ h.Outside (rd16 src 1) (rd16 src 3).toNat) := by
  by_cases hok : ReadN16Ok w h src end_
  · have hnum : 0 < (rd16 src 3).toNat := UInt16.lt_iff_toNat_lt.mp hok.2.2.1.1
    rw [readN16_ok hok, confined_cells_iff hnum hok.2.1.2, and_iff_right hok]
  · simp [hok, (readN16_refused hok (.start bytes)).confined]

theorem readN8_confined_iff :
    h.Confined (readN8 w h src end_ 1 (.start bytes)).ctx.touched ↔
      ¬(ReadN8Ok w h src end_ ∧ h.Outside (rd16 src 1) (rd8 src 3).toNat) := by
  by_cases hok : ReadN8Ok w h src end_
  · have hnum : 0 < (rd8 src 3).toNat := UInt8.lt_iff_toNat_lt.mp hok.2.2.1.1
    rw [readN8_ok hok, confined_cells_iff hnum hok.2.1.2, and_iff_right hok]
  · simp [hok, (readN8_refused hok (.start bytes)).confined]

theorem writeN8_confined_iff :
    h.Confined (writeN8 h src end_ 1 (.start bytes)).ctx.touched ↔
      ¬(WriteN8Ok h src end_ ∧ h.Outside (rd16 src 1) (rd8 src 3).toNat) := by
  by_cases hok : WriteN8Ok h src end_
  · have hnum : 0 < (rd8 src 3).toNat := UInt8.lt_iff_toNat_lt.mp hok.2.2.1.1
    rw [writeN8_ok hok, confined_cells_iff hnum hok.2.1, and_iff_right hok]
  · simp [hok, (writeN8_refused hok (.start bytes)).confined]

/-- The one cell of a single register write. -/
theorem write16Cell_inWindow_iff (haddr : rd16 src 1 < h.addrEnd) :
    h.InWindow (write16Cell w h src) ↔ ¬h.Outside (rd16 src 1) 1 := by
  have ha : (rd16 src 1).toNat < 65536 := (rd16 src 1).toNat_lt
  have he : h.addrEnd.toNat < 65536 := h.addrEnd.toNat_lt
  have hb : h.addrBegin.toNat < 65536 := h.addrBegin.toNat_lt
  rw [UInt16.lt_iff_toNat_lt] at haddr
  rw [Header.InWindow, Header.Outside, Header.size, write16Cell, UInt16.lt_iff_toNat_lt]
  cases w with
  | int16 => rw [IntWidth.sub, UInt16.toNat_sub]; omega
  | int32 => rw [IntWidth.sub]; omega

theorem write16_confined_iff :
    h.Confined (write16 w h src end_ 1 (.start bytes)).ctx.touched ↔
      ¬(Write16Ok h src end_ ∧ h.Outside (rd16 src 1) 1) := by
  by_cases hok : Write16Ok h src end_
  · rw [write16_ok hok, and_iff_right hok, ← write16Cell_inWindow_iff (w := w) hok.2.1]
    simp [Header.Confined, Ctx.start]
  · simp [hok, (write16_refused hok (.start bytes)).confined]

/-- The registers a register write accesses are the leading good ones; `n` is their number. -/
theorem leading_confined_iff {n num : Nat} (haddr : rd16 src 1 < h.addrEnd) (hn : n ≤ num)
    (hgood : ∀ k < n, RegisterOk src k) (hlast : n = num ∨ ¬RegisterOk src n) :
    h.Confined ((Ctx.start bytes).touched ++ cells h (rd16 src 1) n) ↔
      ¬∃ m ≤ num, 0 < m ∧ (∀ k < m, RegisterOk src k) ∧ h.Outside (rd16 src 1) m := by
  constructor
  · rintro hconf ⟨m, hm, hpos, hok, hout⟩
    -- the registers before `m` are good, so the loop does not stop before `m`
    have hle : m ≤ n := by
      rcases hlast with rfl | hbad
      · exact hm
      · by_contra hlt
        exact hbad (hok n (by omega))
    rw [confined_cells_iff (by omega) haddr] at hconf
    exact hconf (hout.imp id (fun hhigh => by omega))
  · intro hnone
    by_cases hpos : 0 < n
    · rw [confined_cells_iff hpos haddr]
      exact fun hout => hnone ⟨n, hn, hpos, hgood, hout⟩
    · obtain rfl : n = 0 := by omega
      exact fun i hi => absurd hi List.not_mem_nil

theorem writeN16_confined_iff :
    h.Confined (writeN16 h src end_ 1 (.start bytes)).ctx.touched ↔
      ¬(WriteN16Ok h src end_ ∧ ∃ n ≤ (rd16 src 3).toNat, 0 < n ∧ (∀ k < n, RegisterOk src k) ∧
        h.Outside (rd16 src 1) n) := by
  by_cases hok : WriteN16Ok h src end_
  · rw [and_iff_right hok]
    rcases registers_cases src (rd16 src 3).toNat with hall | ⟨j, hj, hgood, hbad⟩
    · rw [writeN16_ok hok hall, leading_confined_iff hok.2.1 (Nat.le_refl _) hall (.inl rfl)]
    · rw [writeN16_bad hok hj hgood hbad,
        leading_confined_iff hok.2.1 (Nat.le_of_lt hj) hgood (.inr hbad)]
  · simp [hok, (writeN16_refused hok (.start bytes)).confined]

end

/-! ## The whole handler -/

section

variable (w : IntWidth) (mem : RtuMemory) (fcode : UInt8) (src : List UInt8) (end_ : Nat)

/-- Cells outside the rounds of a write loop keep their content. -/
theorem scatter_of_not_touched {bytes : Int → UInt8} {h : Header} {addr : UInt16} {n : Nat}
    {val : Nat → UInt8} {i : Int} (hi : i ∉ (Ctx.start bytes).touched ++ cells h addr n) :
    Base.scatter bytes (cellAt h addr) val n i = bytes i :=
  Base.scatter_of_not_mem fun k hk hc => hi (mem_cells.mpr ⟨k, hk, hc⟩)

/-- Only accessed cells change. -/
theorem bytes_of_not_touched {i : Int}
    (hi : i ∉ (rtuMemoryPduCb w mem fcode src end_ 1).ctx.touched) :
    (rtuMemoryPduCb w mem fcode src end_ 1).ctx.bytes i = mem.bytes i := by
  rcases fcode_cases fcode with rfl | rfl | rfl | rfl | rfl | hunsup
  · rw [pduCb_rdHoldingRegisters, readN16_bytes]
    rfl
  · rw [pduCb_wrRegister] at hi ⊢
    by_cases hok : Write16Ok mem.header src end_
    · rw [write16_ok hok] at hi ⊢
      exact Function.update_of_ne (fun hc => hi (by simp [hc])) _ _
    · rw [(write16_refused hok _).bytes]
      rfl
  · rw [pduCb_wrRegisters] at hi ⊢
    by_cases hok : WriteN16Ok mem.header src end_
    · rcases registers_cases src (rd16 src 3).toNat with hall | ⟨j, hj, hgood, hbad⟩
      · rw [writeN16_ok hok hall] at hi ⊢
        exact scatter_of_not_touched hi
      · rw [writeN16_bad hok hj hgood hbad] at hi ⊢
        exact scatter_of_not_touched hi
    · rw [(writeN16_refused hok _).bytes]
      rfl
  · rw [pduCb_rdBytes, readN8_bytes]
    rfl
  · rw [pduCb_wrBytes] at hi ⊢
    by_cases hok : WriteN8Ok mem.header src end_
    · rw [writeN8_ok hok] at hi ⊢
      exact scatter_of_not_touched hi
    · rw [(writeN8_refused hok _).bytes]
      rfl
  · rw [pduCb_unsupported w mem src end_ 1 hunsup]
    rfl

/-- The accessed cells, over all function codes. -/
theorem touched_confined_iff :
    mem.header.Confined (rtuMemoryPduCb w mem fcode src end_ 1).ctx.touched ↔
      ¬Escapes w mem.header fcode src end_ := by
  rcases fcode_cases fcode with rfl | rfl | rfl | rfl | rfl | hunsup
  · exact readN16_confined_iff
  · exact write16_confined_iff
  · exact writeN16_confined_iff
  · exact readN8_confined_iff
  · exact writeN8_confined_iff
  · obtain ⟨h3, h6, h16, h65, h66⟩ := hunsup
    rw [pduCb_unsupported w mem src end_ 1 ⟨h3, h6, h16, h65, h66⟩, Escapes, if_neg h3,
      if_neg h6, if_neg h16, if_neg h65, if_neg h66]
    exact iff_of_true (fun i hi => absurd hi List.not_mem_nil) id

/-- Where `int` has 32 bits, no read leaves the window. -/
theorem read_confined_int32 (hread : fcode = fcodeRdHoldingRegisters ∨ fcode = fcodeRdBytes) :
    mem.header.Confined (rtuMemoryPduCb .int32 mem fcode src end_ 1).ctx.touched := by
  rw [touched_confined_iff]
  rcases hread with rfl | rfl
  · exact fun ⟨hok, hout⟩ => readN16_not_outside hok hout
  · exact fun ⟨hok, hout⟩ => readN8_not_outside hok hout

/-- The accesses of a call stay in the window, and around it nothing changes,
exactly if the request is none of those that get past the checks. -/
theorem confined_iff_not_escapes :
    ((∀ i ∈ (rtuMemoryPduCb w mem fcode src end_ 1).ctx.touched, mem.header.InWindow i) ∧
        ∀ i, ¬mem.header.InWindow i →
          (rtuMemoryPduCb w mem fcode src end_ 1).ctx.bytes i = mem.bytes i) ↔
      ¬Escapes w mem.header fcode src end_ := by
  rw [← touched_confined_iff]
  refine ⟨fun h => h.1, fun hconf => ⟨hconf, ?_⟩⟩
  intro i hout
  exact bytes_of_not_touched w mem fcode src end_ fun hi => hout (hconf i hi)

end

/-- A register write to the address before the window stores in the byte
before `bytes[]`, the last byte of what the adapters keep in front of it. -/
theorem write_below_window :
    let mem : RtuMemory := { header := ⟨0x1000, 0x1400⟩, bytes := fun _ => 0 }
    let outcome := rtuMemoryPduCb .int32 mem fcodeWrRegister [6, 0x0F, 0xFF, 0, 3] 5 1
    mem.header.addrBegin ≤ mem.header.addrEnd ∧
      (¬∀ i ∈ outcome.ctx.touched, mem.header.InWindow i) ∧
      outcome.ctx.bytes (-1) = 3 ∧ mem.bytes (-1) = 0 := by
  decide

end ModbusRtu
