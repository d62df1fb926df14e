import Mathlib.Data.List.GetD
import ModbusRtu.Logic.Execution
import ModbusRtu.Logic.RequestCalls

/-!
# The frames of the master

The request builders and the reply parsers as statements about byte lists:

* `validCrc_eq_none_iff`: the frames `valid_crc` accepts are the non-empty bodies
  with their CRC appended, those of `adu_check` and the three-byte ones;
* `RequestCall.builds_encode`: with a legal quantity and room for the frame, a
  builder puts the documented request behind the slave address, with its CRC;
  `builds_wrBytes`, … are its instances for the quantity a payload has;
* `parse_wrBytes`, …: a parser reads the fields of the documented reply back.
-/

namespace ModbusRtu

open Base

/-! ## CRC -/

/-- The two CRC tests compare the same bytes. -/
theorem crcMatches_iff_bytes (adu : List UInt8) :
    crcMatches adu = true ↔
      adu.getD (adu.length - 2) 0 = (modbusRtuCalcCrc (adu.take (adu.length - 2))).low ∧
        adu.getD (adu.length - 1) 0 = (modbusRtuCalcCrc (adu.take (adu.length - 2))).high := by
  rw [crcMatches, beq_iff_eq, Crc.toWord_inj]
  cases modbusRtuCalcCrc (adu.take (adu.length - 2))
  rw [Crc.mk.injEq]

/-- `valid_crc` accepts a non-empty body with its CRC appended, and nothing else. -/
theorem validCrc_eq_none_iff (adu : List UInt8) :
    validCrc adu = none ↔ ¬∃ bytes, bytes ≠ [] ∧ adu = withCrc bytes := by
  by_cases hlen : adu.length ≤ 2
  · rw [validCrc, if_pos hlen]
    refine iff_of_true rfl ?_
    rintro ⟨bytes, hne, rfl⟩
    have hpos : 0 < bytes.length := List.length_pos_iff.mpr hne
    rw [length_withCrc] at hlen
    omega
  · -- with more than two bytes, the test is that of `adu_check`
    have hcrc : validCrc adu = none ↔ ¬crcMatches adu = true := by
      rw [crcMatches_iff_bytes, not_and_or, validCrc, if_neg hlen]
      simp only [ite_eq_left_iff, reduceCtorEq, imp_false, not_not, ne_eq]
    rw [hcrc, crcMatches_iff (by omega)]
    refine not_congr ⟨fun he => ⟨_, ?_, he⟩, ?_⟩
    · rw [ne_eq, ← List.length_eq_zero_iff, List.length_take]
      omega
    · rintro ⟨bytes, -, rfl⟩
      rw [length_withCrc, Nat.add_sub_cancel, take_withCrc]

/-- A frame with its own CRC is valid. -/
theorem validCrc_withCrc {bytes : List UInt8} (h : bytes ≠ []) :
    validCrc (withCrc bytes) ≠ none := by
  rw [ne_eq, validCrc_eq_none_iff]
  exact not_not.mpr ⟨bytes, h, rfl⟩

/-- The CRC of a valid frame is found in its last two bytes. -/
theorem validCrc_withCrc_eq {bytes : List UInt8} (h : bytes ≠ []) :
    validCrc (withCrc bytes) = some bytes.length := by
  have hvalid := validCrc_withCrc h
  rw [validCrc] at hvalid ⊢
  simp only [length_withCrc, Nat.add_sub_cancel] at hvalid ⊢
  split at hvalid
  · exact absurd rfl hvalid
  · split at hvalid
    · exact absurd rfl hvalid
    · rw [if_neg ‹_›, if_neg ‹_›]

/-! ## Building a request -/

/-- The call put the frame `adu` behind `dst` and returned the pointer behind the frame. -/
def Builds (call : Option Written) (adu : List UInt8) : Prop :=
  ∃ dst, call = some (some adu.length, dst) ∧ dst.read adu.length = adu

section

variable {call : RequestCall} {r : Request} (dst : RawMemory UInt8) {maxSize : Nat}

/-- A call with a legal argument and room for the frame builds its request. -/
theorem RequestCall.builds_make (hlegal : ¬call.Refused) (hfits : call.adu.length ≤ maxSize) :
    Builds (call.make dst maxSize) call.adu := by
  have hchecked := call.length_body_le_checkedSize.2
  have hroom : ¬(call.Refused ∨ maxSize < call.checkedSize) := not_or.mpr ⟨hlegal, by omega⟩
  rw [call.make_eq, if_neg hroom, if_neg (Nat.not_lt.mpr hfits)]
  exact ⟨_, rfl, RawMemory.read_memcpy⟩

/-- What a call asks for with a legal quantity is encoded behind the slave address. -/
theorem RequestCall.builds_encode (hr : call.request = some r) (hzero : call.ZeroHighBytes)
    (hcount : r.count ≤ r.limit) (hfits : r.encode.length + 3 ≤ maxSize) :
    Builds (call.make dst maxSize) (withCrc (call.slaveAddr :: r.encode)) := by
  have hbody := body_eq_encode hr hzero
  have hlegal : ¬call.Refused := fun h => Nat.not_lt.mpr hcount ((refused_iff_limit hr).mp h)
  rw [← hbody]
  refine builds_make dst hlegal ?_
  rw [length_adu, hbody, List.length_cons]
  exact hfits

end

section

variable (slaveAddr : UInt8) (memAddr : Data16) (dst : RawMemory UInt8) {maxSize : Nat}

theorem builds_wrBytes {data : List UInt8} (hlen : data.length ≤ 249)
    (hfits : data.length + 7 ≤ maxSize) :
    Builds (makeRequestWrBytes slaveAddr memAddr data (.ofNat data.length) dst maxSize)
      (withCrc (slaveAddr :: (Request.wrBytes memAddr.toWord data).encode)) := by
  have hnat : (UInt8.ofNat data.length).toNat = data.length := toNat_ofNat_u8 (by omega)
  have hr : (RequestCall.wrBytes slaveAddr memAddr data (.ofNat data.length)).request =
      some (.wrBytes memAddr.toWord data) := by
    rw [RequestCall.request, hnat, RawMemory.map_range_getD]
  exact RequestCall.builds_encode dst hr trivial hlen (by simpa [Request.encode] using hfits)

theorem builds_rdBytes {num : Nat} (hlen : num ≤ 249) (hfits : 7 ≤ maxSize) :
    Builds (makeRequestRdBytes slaveAddr memAddr (.ofNat num) dst maxSize)
      (withCrc (slaveAddr :: (Request.rdBytes memAddr.toWord num).encode)) := by
  have hr : (RequestCall.rdBytes slaveAddr memAddr (.ofNat num)).request =
      some (.rdBytes memAddr.toWord num) := by
    rw [RequestCall.request, toNat_ofNat_u8 (by omega)]
  exact RequestCall.builds_encode dst hr trivial hlen hfits

theorem builds_rdHoldingRegisters {num : Nat} (hlen : num ≤ 125) (hfits : 8 ≤ maxSize) :
    Builds (makeRequestRdHoldingRegisters slaveAddr memAddr (.ofWord (.ofNat num)) dst maxSize)
      (withCrc (slaveAddr :: (Request.rdHoldingRegisters memAddr.toWord num).encode)) := by
  have hword : (Data16.ofWord (.ofNat num)).toWord = .ofNat num := makeWord_bytes _
  have hr : (RequestCall.rdHoldingRegisters slaveAddr memAddr (.ofWord (.ofNat num))).request =
      some (.rdHoldingRegisters memAddr.toWord num) := by
    rw [RequestCall.request, hword, toNat_ofNat_u16 (by omega)]
  exact RequestCall.builds_encode dst hr trivial hlen hfits

theorem builds_wrRegister {value : UInt8} (hfits : 8 ≤ maxSize) :
    Builds (makeRequestWrRegister slaveAddr memAddr ⟨0, value⟩ dst maxSize)
      (withCrc (slaveAddr :: (Request.wrRegister memAddr.toWord value).encode)) := by
  have hr : (RequestCall.wrRegister slaveAddr memAddr ⟨0, value⟩).request =
      some (.wrRegister memAddr.toWord value) := rfl
  exact RequestCall.builds_encode dst hr rfl (Nat.le_refl 1) hfits

theorem builds_wrRegisters {values : List UInt8} (hlen : values.length ≤ 123)
    (hfits : 2 * values.length + 9 ≤ maxSize) :
    Builds
      (makeRequestWrRegisters slaveAddr memAddr (values.map (⟨0, ·⟩))
        (.ofWord (.ofNat values.length)) dst maxSize)
      (withCrc (slaveAddr :: (Request.wrRegisters memAddr.toWord values).encode)) := by
  have hword : (Data16.ofWord (.ofNat values.length)).toWord = .ofNat values.length :=
    makeWord_bytes _
  have hnat : (UInt16.ofNat values.length).toNat = values.length := toNat_ofNat_u16 (by omega)
  have hget : ∀ i, (values.map (⟨0, ·⟩)).getD i ⟨0, 0⟩ = Data16.mk 0 (values.getD i 0) :=
    fun i => List.getD_map (f := Data16.mk 0) ..
  have hr : (RequestCall.wrRegisters slaveAddr memAddr (values.map (⟨0, ·⟩))
      (.ofWord (.ofNat values.length))).request = some (.wrRegisters memAddr.toWord values) := by
    simp only [RequestCall.request, hword, hnat, hget, RawMemory.map_range_getD]
  have hencode : (Request.wrRegisters memAddr.toWord values).encode.length =
      6 + 2 * values.length := by
    rw [Request.encode, List.length_append, length_registers]
    rfl
  exact RequestCall.builds_encode dst hr (fun i _ => by rw [hget]) hlen (by omega)

end

/-! ## Parsing a reply -/

section

variable {slaveAddr : UInt8} {addr : UInt16} {m : Nat → UInt8}

theorem parse_wrBytes {values : List UInt8} :
    parseReplyWrBytes (withCrc (slaveAddr :: (Request.wrBytes addr values).reply m)) =
      some
        { addr := slaveAddr, fcode := fcodeWrBytes, memAddr := .ofWord addr
          count := .ofNat values.length } := by
  rw [parseReplyWrBytes]
  simp only [validCrc_withCrc (List.cons_ne_nil _ _), if_false]
  rfl

theorem parse_wrRegisters {values : List UInt8} :
    parseReplyWrRegisters (withCrc (slaveAddr :: (Request.wrRegisters addr values).reply m)) =
      some
        { addr := slaveAddr, fcode := fcodeWrRegisters, memAddr := .ofWord addr
          count := .ofWord (.ofNat values.length) } := by
  rw [parseReplyWrRegisters]
  simp only [validCrc_withCrc (List.cons_ne_nil _ _), if_false]
  rfl

theorem parse_wrRegister {value : UInt8} :
    parseReplyWrRegister (withCrc (slaveAddr :: (Request.wrRegister addr value).reply m)) =
      some
        { addr := slaveAddr, fcode := fcodeWrRegister, memAddr := .ofWord addr
          data := ⟨0, value⟩ } := by
  rw [parseReplyWrRegister]
  simp only [validCrc_withCrc (List.cons_ne_nil _ _), if_false]
  rfl

/-- A field behind the header of a frame. -/
theorem field8_append (head body : List UInt8) (k : Nat) :
    field8 (head ++ body) (head.length + k) = field8 body k := by
  rw [field8, List.getD_append_right _ _ _ _ (Nat.le_add_right _ _), Nat.add_sub_cancel_left]
  rfl

/-- Bytes in the middle of a frame, read one by one. -/
theorem map_field8 (head body rest : List UInt8) :
    (List.range body.length).map (fun k => field8 (head ++ (body ++ rest)) (head.length + k)) =
      body := by
  have hread : ∀ k < body.length,
      field8 (head ++ (body ++ rest)) (head.length + k) = body.getD k 0 := by
    intro k hk
    rw [field8_append]
    exact List.getD_append _ _ _ _ hk
  rw [List.map_congr_left fun k hk => hread k (List.mem_range.mp hk), RawMemory.map_range_getD]

/-- Registers in the middle of a frame, read one by one. -/
theorem map_field16 (head values rest : List UInt8) :
    (List.range values.length).map (fun k =>
        field16 (head ++ (values.flatMap Request.register ++ rest)) (head.length + 2 * k)) =
      values.map (⟨0, ·⟩) := by
  have hread : ∀ k < values.length,
      field16 (head ++ (values.flatMap Request.register ++ rest)) (head.length + 2 * k) =
        ⟨0, values.getD k 0⟩ := by
    intro k hk
    obtain ⟨hhigh, hlow⟩ := rd8_registers values rest hk
    rw [field16, field8_append, Nat.add_assoc, field8_append]
    exact congrArg₂ Data16.mk hhigh hlow
  have hvalues := congrArg (List.map (Data16.mk 0)) (RawMemory.map_range_getD values 0)
  rw [List.map_map] at hvalues
  rw [List.map_congr_left fun k hk => hread k (List.mem_range.mp hk)]
  exact hvalues

/-- A valid frame with as many bytes behind the header as `count` says. -/
theorem parseReplyRdBytes_eq {fcode high low count : UInt8} {body crc : List UInt8}
    (hbody : body.length = count.toNat) (hcrc : crc.length = 2)
    (hvalid : validCrc ([slaveAddr, fcode, high, low, count] ++ (body ++ crc)) ≠ none) :
    parseReplyRdBytes ([slaveAddr, fcode, high, low, count] ++ (body ++ crc)) =
      some ⟨slaveAddr, fcode, ⟨high, low⟩, count, body⟩ := by
  have hlen : ([slaveAddr, fcode, high, low, count] ++ (body ++ crc)).length = 7 + count.toNat := by
    rw [List.length_append, List.length_append, hbody, hcrc]
    show 5 + _ = _
    omega
  have hdata := map_field8 [slaveAddr, fcode, high, low, count] body crc
  rw [hbody] at hdata
  rw [parseReplyRdBytes]
  generalize hadu : [slaveAddr, fcode, high, low, count] ++ (body ++ crc) = adu at *
  have hcount : field8 adu 4 = count := by rw [← hadu]; rfl
  simp only [hcount, hlen]
  rw [if_neg (by omega), if_neg (by omega), if_neg hvalid]
  congr 2
  · rw [← hadu]; rfl
  · rw [← hadu]; rfl
  · rw [← hadu]; rfl

/-- A valid frame with as many registers behind the header as `byte_count` says. -/
theorem parseReplyRdHoldingRegisters_eq {fcode byteCount : UInt8} {values crc : List UInt8}
    (hvalues : byteCount.toNat = 2 * values.length) (hcrc : crc.length = 2)
    (hvalid : validCrc ([slaveAddr, fcode, byteCount] ++
      (values.flatMap Request.register ++ crc)) ≠ none) :
    parseReplyRdHoldingRegisters ([slaveAddr, fcode, byteCount] ++
        (values.flatMap Request.register ++ crc)) =
      some ⟨slaveAddr, fcode, byteCount, values.map (⟨0, ·⟩)⟩ := by
  have hlen : ([slaveAddr, fcode, byteCount] ++
      (values.flatMap Request.register ++ crc)).length = 5 + byteCount.toNat := by
    rw [List.length_append, List.length_append, length_registers, hvalues, hcrc]
    show 3 + _ = _
    omega
  have hdata := map_field16 [slaveAddr, fcode, byteCount] values crc
  have hhalf : byteCount.toNat / 2 = values.length := by omega
  rw [parseReplyRdHoldingRegisters]
  generalize hadu : [slaveAddr, fcode, byteCount] ++ (values.flatMap Request.register ++ crc) = adu
    at *
  have hcount : field8 adu 2 = byteCount := by rw [← hadu]; rfl
  simp only [hcount, hlen, hhalf]
  rw [if_neg (by omega), if_neg (by omega), if_neg hvalid]
  congr 2
  · rw [← hadu]; rfl
  · rw [← hadu]; rfl

/-- What the parsers of the read replies see: a header, the payload and the CRC. -/
theorem withCrc_headerData (head body : List UInt8) :
    ∃ crc : List UInt8, crc.length = 2 ∧ withCrc (head ++ body) = head ++ (body ++ crc) :=
  ⟨_, rfl, List.append_assoc _ _ _⟩

theorem parse_rdBytes {num : Nat} (hnum : num ≤ 249) :
    parseReplyRdBytes (withCrc (slaveAddr :: (Request.rdBytes addr num).reply m)) =
      some
        { addr := slaveAddr, fcode := fcodeRdBytes, memAddr := .ofWord addr
          count := .ofNat num, bytes := (List.range num).map fun k => m (addr.toNat + k) } := by
  have hvalid := validCrc_withCrc (List.cons_ne_nil slaveAddr ((Request.rdBytes addr num).reply m))
  have hreply : slaveAddr :: (Request.rdBytes addr num).reply m =
      [slaveAddr, fcodeRdBytes, highByte addr, lowByte addr, .ofNat num] ++
        (List.range num).map (fun k => m (addr.toNat + k)) := rfl
  obtain ⟨crc, hcrc, hadu⟩ := withCrc_headerData
    [slaveAddr, fcodeRdBytes, highByte addr, lowByte addr, .ofNat num]
    ((List.range num).map fun k => m (addr.toNat + k))
  rw [hreply, hadu] at hvalid ⊢
  refine parseReplyRdBytes_eq ?_ hcrc hvalid
  rw [toNat_ofNat_u8 (by omega), List.length_map, List.length_range]

theorem parse_rdHoldingRegisters {num : Nat} (hnum : num ≤ 125) :
    parseReplyRdHoldingRegisters
        (withCrc (slaveAddr :: (Request.rdHoldingRegisters addr num).reply m)) =
      some
        { addr := slaveAddr, fcode := fcodeRdHoldingRegisters, byteCount := .ofNat (2 * num)
          data := ((List.range num).map fun k => m (addr.toNat + k)).map (⟨0, ·⟩) } := by
  have hvalid := validCrc_withCrc
    (List.cons_ne_nil slaveAddr ((Request.rdHoldingRegisters addr num).reply m))
  have hreply : slaveAddr :: (Request.rdHoldingRegisters addr num).reply m =
      [slaveAddr, fcodeRdHoldingRegisters, .ofNat (2 * num)] ++
        ((List.range num).map fun k => m (addr.toNat + k)).flatMap Request.register := by
    rw [List.flatMap_map]
    rfl
  obtain ⟨crc, hcrc, hadu⟩ := withCrc_headerData
    [slaveAddr, fcodeRdHoldingRegisters, .ofNat (2 * num)]
    (((List.range num).map fun k => m (addr.toNat + k)).flatMap Request.register)
  rw [hreply, hadu] at hvalid ⊢
  refine parseReplyRdHoldingRegisters_eq ?_ hcrc hvalid
  rw [toNat_ofNat_u8 (by omega), List.length_map, List.length_range]

end

end ModbusRtu
