import ModbusRtu.Logic.Execution
import ModbusRtu.Logic.Refusals
import ModbusRtu.Logic.RequestCalls

/-!
# The quantities of both ends

The limits of the builders and of the handlers are written down apart.
`quantities_agree_iff` compares them over every quantity the field of the request
can hold: the upper limits are the same, and the builders have no lower one, so
a request for nothing is built and refused.
-/

namespace ModbusRtu

open Base

/-! ## At the slave -/

/-- The reply refuses the quantity: an exception for an illegal value or for the format. -/
def RefusesQuantity (reply : List UInt8) : Prop :=
  0x80 ≤ reply.getD 0 0 ∧
    (reply.getD 1 0 = ecodeIllegalDataValue ∨ reply.getD 1 0 = ecodeFormatError)

section

variable {w : IntWidth} {mem : RtuMemory} {r : Request} (tail : List UInt8)

/-- An illegal quantity, with an address in the window. -/
theorem reply_illegal_quantity (hfits : r.count < r.quantities)
    (hbad : ¬r.Legal) (haddr : mem.header.addrBegin ≤ r.addr ∧ r.addr < mem.header.addrEnd) :
    (rtuMemoryPduCb w mem r.fcode (r.encode ++ tail) r.encode.length 1).reply =
      [r.fcode + 0x80, ecodeIllegalDataValue] := by
  have hword := r.rd16_addr tail
  cases r with
  | rdHoldingRegisters addr num =>
      refine readN16_illegalValue (Nat.le_refl 5) (hword.symm ▸ haddr) ?_ _
      rw [rd16_rdHoldingRegisters_num]
      intro hnum
      obtain ⟨hpos, hmax⟩ := (ofNat_u16_bounds 126 (by decide) hfits).mp hnum
      exact hbad ⟨hpos, Nat.le_of_lt_succ hmax⟩
  | wrRegister addr value => exact absurd ⟨Nat.le_refl 1, Nat.le_refl 1⟩ hbad
  | wrRegisters addr values =>
      have hsize : 5 ≤ (Request.wrRegisters addr values).encode.length := Nat.le_add_left 5 _
      refine writeN16_illegalValue hsize (hword.symm ▸ haddr.2) ?_ _
      rw [rd16_wrRegisters_num]
      intro hnum
      obtain ⟨hpos, hmax⟩ := (ofNat_u16_bounds 124 (by decide) hfits).mp hnum
      exact hbad ⟨hpos, Nat.le_of_lt_succ hmax⟩
  | rdBytes addr num =>
      refine readN8_illegalValue (Nat.le_refl 4) (hword.symm ▸ haddr) ?_ _
      rw [rd8_rdBytes_num]
      intro hnum
      obtain ⟨hpos, hmax⟩ := (ofNat_u8_bounds 250 (by decide) hfits).mp hnum
      exact hbad ⟨hpos, Nat.le_of_lt_succ hmax⟩
  | wrBytes addr values =>
      have hsize : 4 ≤ (Request.wrBytes addr values).encode.length := Nat.le_add_left 4 _
      refine writeN8_illegalValue hsize (hword.symm ▸ haddr.2) ?_ _
      rw [rd8_wrBytes_num]
      intro hnum
      obtain ⟨hpos, hmax⟩ := (ofNat_u8_bounds 250 (by decide) hfits).mp hnum
      exact hbad ⟨hpos, Nat.le_of_lt_succ hmax⟩

/-- An address behind the window: the quantity is not looked at. -/
theorem reply_behind_window (hbehind : ¬r.addr < mem.header.addrEnd) :
    (rtuMemoryPduCb w mem r.fcode (r.encode ++ tail) r.encode.length 1).reply =
      [r.fcode + 0x80, ecodeIllegalDataAddress] := by
  have hword := r.rd16_addr tail
  cases r with
  | rdHoldingRegisters addr num =>
      exact readN16_behind (Nat.le_refl 5) (hword.symm ▸ hbehind) _
  | wrRegister addr value =>
      exact write16_illegalAddress (Nat.le_refl 5) (hword.symm ▸ hbehind) _
  | wrRegisters addr values =>
      have hsize : 5 ≤ (Request.wrRegisters addr values).encode.length := Nat.le_add_left 5 _
      exact writeN16_illegalAddress hsize (hword.symm ▸ hbehind) _
  | rdBytes addr num => exact readN8_behind (Nat.le_refl 4) (hword.symm ▸ hbehind) _
  | wrBytes addr values =>
      have hsize : 4 ≤ (Request.wrBytes addr values).encode.length := Nat.le_add_left 4 _
      exact writeN8_illegalAddress hsize (hword.symm ▸ hbehind) _

/-- Function codes leave the highest bit to the exceptions. -/
theorem Request.fcode_lt (r : Request) : r.fcode < 0x80 ∧ 0x80 ≤ r.fcode + 0x80 := by
  cases r <;> simp only [Request.fcode] <;> decide

/-- In the window, the handlers refuse the illegal quantities and no others. -/
theorem refusesQuantity_iff (hfits : r.count < r.quantities) (hwithin : r.Within mem.header) :
    RefusesQuantity (rtuMemoryPduCb w mem r.fcode (r.encode ++ tail) r.encode.length 1).reply ↔
      ¬r.Legal ∧ r.addr < mem.header.addrEnd := by
  obtain ⟨hplain, hexception⟩ := r.fcode_lt
  by_cases hlegal : r.Legal
  · have hhead : (r.reply mem.cell).getD 0 0 = r.fcode := by cases r <;> rfl
    rw [(executes tail (represents_self mem) hlegal hwithin).reply, RefusesQuantity, hhead]
    exact iff_of_false (fun h => UInt8.not_le.mpr hplain h.1) (fun h => h.1 hlegal)
  · by_cases haddr : r.addr < mem.header.addrEnd
    · have hlow : mem.header.addrBegin ≤ r.addr := UInt16.le_iff_toNat_le.mpr hwithin.1
      rw [reply_illegal_quantity tail hfits hlegal ⟨hlow, haddr⟩]
      exact iff_of_true ⟨hexception, .inl rfl⟩ ⟨hlegal, haddr⟩
    · -- an empty range at the end of the window is refused for its address
      rw [reply_behind_window tail haddr]
      refine iff_of_false ?_ (fun h => haddr h.2)
      rintro ⟨-, hvalue | hformat⟩
      · have hcode : ecodeIllegalDataAddress = ecodeIllegalDataValue := hvalue
        exact absurd hcode (by decide)
      · have hcode : ecodeIllegalDataAddress = ecodeFormatError := hformat
        exact absurd hcode (by decide)

end

/-! ## Both ends -/

namespace RequestCall

/-- The builder returns a request, given a destination of 256 bytes. -/
def Emits (call : RequestCall) (cells : Nat → UInt8) : Prop :=
  ∃ n dst, call.make { cells := cells, stored := [] } 256 = some (some n, dst)

/-- What the handler of the slave answers to the request with these fields, built or not. -/
def handlerReply (w : IntWidth) (mem : RtuMemory) (call : RequestCall) : List UInt8 :=
  (rtuMemoryPduCb w mem (call.adu.getD 1 0) (call.adu.drop 1) (call.adu.length - 3) 1).reply

/-- The builder returns a request exactly if the slave does not refuse its quantity. -/
def QuantityAgrees (w : IntWidth) (mem : RtuMemory) (call : RequestCall) (cells : Nat → UInt8) :
    Prop :=
  call.Emits cells ↔ ¬RefusesQuantity (call.handlerReply w mem)

variable {w : IntWidth} {mem : RtuMemory} {call : RequestCall} {r : Request}

/-- The builder looks at the quantity only: what is legal fits. -/
theorem emits_iff (call : RequestCall) (cells : Nat → UInt8) :
    call.Emits cells ↔ ¬call.Refused := by
  rcases make_cases call { cells := cells, stored := [] } 256 with
    ⟨hrefused, hmake⟩ | ⟨hlegal, -, hfits, -⟩ | ⟨hlegal, -, hmake⟩
  · refine iff_of_false ?_ ?_
    · rintro ⟨n, dst, hsome⟩
      rw [hmake] at hsome
      exact absurd hsome (by simp)
    · intro hlegal
      have hadu := length_adu_le hlegal
      have hchecked := (length_body_le_checkedSize call).2
      rcases hrefused with h | h
      · exact hlegal h
      · omega
  · exact absurd hfits (Nat.not_lt.mpr (length_adu_le hlegal))
  · exact iff_of_true ⟨_, _, hmake⟩ hlegal

/-- The handler sees the encoded request with the CRC behind it. -/
theorem handlerReply_eq (hr : call.request = some r) (hzero : call.ZeroHighBytes) :
    call.handlerReply w mem =
      (rtuMemoryPduCb w mem r.fcode
        (r.encode ++ [(modbusRtuCalcCrc call.body).low, (modbusRtuCalcCrc call.body).high])
        r.encode.length 1).reply := by
  have hbody := body_eq_encode hr hzero
  have hcode : call.adu.getD 1 0 = r.fcode := by
    rw [adu, withCrc, hbody]
    cases r <;> rfl
  have hlen : call.adu.length - 3 = r.encode.length := by
    rw [length_adu, hbody, List.length_cons]
    omega
  have hsrc : call.adu.drop 1 =
      r.encode ++ [(modbusRtuCalcCrc call.body).low, (modbusRtuCalcCrc call.body).high] := by
    rw [adu, withCrc]
    generalize [(modbusRtuCalcCrc call.body).low, (modbusRtuCalcCrc call.body).high] = crc
    rw [hbody]
    rfl
  rw [handlerReply, hcode, hlen, hsrc]

/-- For every quantity of a range in the window: both ends agree unless the quantity is zero and
the address in the window. -/
theorem quantities_agree_iff (hr : call.request = some r) (hzero : call.ZeroHighBytes)
    (hwithin : r.Within mem.header) (cells : Nat → UInt8) :
    call.QuantityAgrees w mem cells ↔ ¬(r.count = 0 ∧ r.addr < mem.header.addrEnd) := by
  rw [QuantityAgrees, emits_iff, refused_iff_limit hr, handlerReply_eq hr hzero,
    refusesQuantity_iff _ (count_lt_quantities hr) hwithin, Request.Legal]
  have hrange := hwithin.2
  have hlimit : 1 ≤ r.limit := by cases r <;> simp [Request.limit]
  rw [UInt16.lt_iff_toNat_lt]
  omega

/-- A write of one register. -/
theorem quantities_agree_one_register :
    (wrRegisters 1 { high := 0x10, low := 0 } [{ high := 0, low := 7 }]
      { high := 0, low := 1 }).QuantityAgrees .int16
        { header := { addrBegin := 0x1000, addrEnd := 0x1010 }, bytes := fun _ => 0 }
        (fun _ => 0) := by
  refine (quantities_agree_iff rfl ?_ ?_ _).mpr ?_
  · intro i hi
    have hcount : i < 1 := hi
    obtain rfl : i = 0 := by omega
    rfl
  · decide
  · decide

/-- A read of no registers is built and refused. -/
theorem read_of_nothing_disagrees :
    ¬(rdHoldingRegisters 1 { high := 0x10, low := 0 } { high := 0, low := 0 }).QuantityAgrees .int32
        { header := { addrBegin := 0x1000, addrEnd := 0x1010 }, bytes := fun _ => 0 }
        (fun _ => 0) := by
  intro hagrees
  have hemits := (emits_iff (rdHoldingRegisters 1 { high := 0x10, low := 0 }
    { high := 0, low := 0 }) (fun _ => 0)).mpr (by decide)
  exact hagrees.mp hemits ⟨by decide, .inl (by decide)⟩

end RequestCall

end ModbusRtu
