import ModbusRtu.Code.Master
import ModbusRtu.Logic.Frames
import ModbusRtu.Spec.Requests

/-!
# The seven request builders as one

The builders assemble a request in different ways: a packed structure is
completed aside and copied, or header, payload and CRC are written to the
destination one after the other, with a size check before the first copy, before
the CRC, or both. `RequestCall.make_eq` says what all of them come to: the
argument is refused, or the room in front of the first copy is too small, or the
body is copied and its CRC does not fit any more, or the complete request is
behind the pointer.
-/

namespace ModbusRtu

open Base

/-- A call of one of the request builders, less its destination. -/
inductive RequestCall where
  | rdCoils (slaveAddr : UInt8) (memAddr : Data16) (count : UInt8)
  | rdHoldingRegisters (slaveAddr : UInt8) (memAddr count : Data16)
  | wrCoil (slaveAddr : UInt8) (memAddr : Data16) (data : UInt8)
  | wrRegister (slaveAddr : UInt8) (memAddr data : Data16)
  | wrRegisters (slaveAddr : UInt8) (memAddr : Data16) (data : List Data16) (count : Data16)
  | wrBytes (slaveAddr : UInt8) (memAddr : Data16) (data : List UInt8) (count : UInt8)
  | rdBytes (slaveAddr : UInt8) (memAddr : Data16) (count : UInt8)

namespace RequestCall

/-- The call, with its destination and the size of it. `data` does not lie inside the
destination. -/
def make (dst : RawMemory UInt8) (maxSize : Nat) : RequestCall → Option Written
  | rdCoils slaveAddr memAddr count => makeRequestRdCoils slaveAddr memAddr count dst maxSize
  | rdHoldingRegisters slaveAddr memAddr count =>
      makeRequestRdHoldingRegisters slaveAddr memAddr count dst maxSize
  | wrCoil slaveAddr memAddr data => makeRequestWrCoil slaveAddr memAddr data dst maxSize
  | wrRegister slaveAddr memAddr data => makeRequestWrRegister slaveAddr memAddr data dst maxSize
  | wrRegisters slaveAddr memAddr data count =>
      makeRequestWrRegisters slaveAddr memAddr data count dst maxSize
  | wrBytes slaveAddr memAddr data count =>
      makeRequestWrBytes slaveAddr memAddr data count dst maxSize
  | rdBytes slaveAddr memAddr count => makeRequestRdBytes slaveAddr memAddr count dst maxSize

/-- The quantity is above the limit, or the coil neither off nor on. -/
def Refused : RequestCall → Prop
  | rdCoils _ _ count => 125 < count.toNat
  | rdHoldingRegisters _ _ count => 125 < count.toWord.toNat
  | wrCoil _ _ data => data ≠ 0x00 ∧ data ≠ 0xFF
  | wrRegister _ _ _ => False
  | wrRegisters _ _ _ count => 123 < count.toWord.toNat
  | wrBytes _ _ _ count => 249 < count.toNat
  | rdBytes _ _ count => 249 < count.toNat

instance : DecidablePred Refused
  | rdCoils _ _ count => inferInstanceAs (Decidable (125 < count.toNat))
  | rdHoldingRegisters _ _ count => inferInstanceAs (Decidable (125 < count.toWord.toNat))
  | wrCoil _ _ data => inferInstanceAs (Decidable (data ≠ 0x00 ∧ data ≠ 0xFF))
  | wrRegister _ _ _ => inferInstanceAs (Decidable False)
  | wrRegisters _ _ _ count => inferInstanceAs (Decidable (123 < count.toWord.toNat))
  | wrBytes _ _ _ count => inferInstanceAs (Decidable (249 < count.toNat))
  | rdBytes _ _ count => inferInstanceAs (Decidable (249 < count.toNat))

/-- The documented request without its CRC; a payload is the first elements of `data`. -/
def body : RequestCall → List UInt8
  | rdCoils slaveAddr memAddr count =>
      [slaveAddr, fcodeRdCoils, memAddr.high, memAddr.low, 0, count]
  | rdHoldingRegisters slaveAddr memAddr count =>
      [slaveAddr, fcodeRdHoldingRegisters, memAddr.high, memAddr.low, count.high, count.low]
  | wrCoil slaveAddr memAddr data => [slaveAddr, fcodeWrCoil, memAddr.high, memAddr.low, data, 0]
  | wrRegister slaveAddr memAddr data =>
      [slaveAddr, fcodeWrRegister, memAddr.high, memAddr.low, data.high, data.low]
  | wrRegisters slaveAddr memAddr data count =>
      [slaveAddr, fcodeWrRegisters, memAddr.high, memAddr.low, count.high, count.low,
        .ofNat (2 * count.toWord.toNat)] ++ data16Bytes data count.toWord.toNat
  | wrBytes slaveAddr memAddr data count =>
      [slaveAddr, fcodeWrBytes, memAddr.high, memAddr.low, count] ++
        (List.range count.toNat).map (data.getD · 0)
  | rdBytes slaveAddr memAddr count => [slaveAddr, fcodeRdBytes, memAddr.high, memAddr.low, count]

/-- The complete request. -/
def adu (call : RequestCall) : List UInt8 := withCrc call.body

/-- The room checked for in front of the first copy. -/
def checkedSize : RequestCall → Nat
  | rdCoils _ _ _ => 6
  | wrCoil _ _ _ => 6
  | call => call.adu.length

@[simp] theorem length_adu (call : RequestCall) : call.adu.length = call.body.length + 2 :=
  length_withCrc _

end RequestCall

/-! ## The two ways to build -/

/-- The two bytes of a CRC are stored one after the other. -/
theorem memcpy_crc (mem : RawMemory UInt8) (n : Nat) (crc : Crc) :
    (mem.memcpy n [crc.low]).memcpy (n + 1) [crc.high] = mem.memcpy n [crc.low, crc.high] :=
  (RawMemory.memcpy_append n [crc.low] [crc.high]).symm

/-- `implace_crc_impl` behind `n` bytes, with room for the CRC or without. -/
theorem implaceCrcImpl_eq (mem : RawMemory UInt8) {n : Nat} (hsize : n + 2 < sizeTModulus)
    (maxSize : Nat) :
    implaceCrcImpl mem n maxSize =
      some (if maxSize < n + 2 then (none, mem)
        else (some (n + 2), mem.memcpy n
          [(modbusRtuCalcCrc (mem.read n)).low, (modbusRtuCalcCrc (mem.read n)).high])) := by
  have hmod : ((n : Int) + 2) % sizeTModulus = n + 2 := Int.emod_eq_of_lt (by omega) (by omega)
  rw [implaceCrcImpl, hmod]
  by_cases hroom : maxSize < n + 2
  · rw [if_pos (by omega), if_pos hroom]
  · rw [if_neg (by omega), if_neg (by omega), if_neg hroom, Int.toNat_natCast]
    simp only [memcpy_crc]

/-- A body that is in place is completed by its CRC. -/
theorem implaceCrcImpl_memcpy (dst : RawMemory UInt8) (body : List UInt8)
    (hsize : body.length + 2 < sizeTModulus) (maxSize : Nat) :
    implaceCrcImpl (dst.memcpy 0 body) body.length maxSize =
      some (if maxSize < body.length + 2 then (none, dst.memcpy 0 body)
        else (some (body.length + 2), dst.memcpy 0 (withCrc body))) := by
  have hcrc := RawMemory.memcpy_append (m := dst) 0 body
    [(modbusRtuCalcCrc body).low, (modbusRtuCalcCrc body).high]
  rw [Nat.zero_add] at hcrc
  rw [implaceCrcImpl_eq _ hsize, RawMemory.read_memcpy, ← hcrc]
  rfl

/-- A packed request is completed in place. -/
theorem implaceCrc_packed (req : List UInt8) (hsize : req.length + 2 < sizeTModulus) :
    ∃ req', implaceCrc (.ofList (req ++ [0, 0])) (req.length + 2) =
        some (some (req.length + 2), req') ∧ req'.read (req.length + 2) = withCrc req := by
  have hend : ((req.length + 2 : Nat) : Int) - 2 = req.length := by omega
  have hread := RawMemory.read_memcpy_append (m := .ofList (req ++ [0, 0]))
    (l := [(modbusRtuCalcCrc req).low, (modbusRtuCalcCrc req).high]) req.length
  rw [RawMemory.read_ofList_append] at hread
  rw [implaceCrc, hend, implaceCrcImpl_eq _ hsize, if_neg (Nat.lt_irrefl _),
    RawMemory.read_ofList_append]
  exact ⟨_, rfl, hread⟩

/-- A packed request is completed aside and copied as a whole. -/
theorem copyRequest_eq (req : List UInt8) (dst : RawMemory UInt8)
    (hsize : req.length + 2 < sizeTModulus) :
    copyRequest req dst = some (some (req.length + 2), dst.memcpy 0 (withCrc req)) := by
  obtain ⟨req', hcall, hread⟩ := implaceCrc_packed req hsize
  rw [copyRequest, hcall]
  simp only [hread]

/-! ## The builders -/

@[simp] theorem length_data16Bytes (data : List Data16) (n : Nat) :
    (data16Bytes data n).length = n * 2 := by
  simp [data16Bytes, List.length_flatMap]

namespace RequestCall

/-- A request that is not refused fits into the default buffers. -/
theorem length_adu_le {call : RequestCall} (h : ¬call.Refused) : call.adu.length ≤ 256 := by
  rw [length_adu]
  cases call <;> simp [body, Refused] at h ⊢ <;> omega

/-- No request comes near the end of the address space. -/
theorem length_body_lt {call : RequestCall} (h : ¬call.Refused) :
    call.body.length + 2 < sizeTModulus := by
  have hle := length_adu_le h
  rw [length_adu] at hle
  exact Nat.lt_of_le_of_lt hle (by decide)

section

variable (call : RequestCall) {p : Prop} [Decidable p] (hrefused : p ↔ call.Refused)
  (dst : RawMemory UInt8)

include hrefused

/-- The builders that assemble the request at the destination. -/
theorem buildInPlace_eq (checked maxSize : Nat) :
    (if p then some (none, dst) else if checked > maxSize then some (none, dst)
      else implaceCrcImpl (dst.memcpy 0 call.body) call.body.length maxSize) =
      some (if call.Refused ∨ maxSize < checked then (none, dst)
        else if maxSize < call.adu.length then (none, dst.memcpy 0 call.body)
        else (some call.adu.length, dst.memcpy 0 call.adu)) := by
  by_cases hp : p
  · rw [if_pos hp, if_pos (.inl (hrefused.mp hp))]
  · have hlegal : ¬call.Refused := fun h => hp (hrefused.mpr h)
    rw [if_neg hp]
    by_cases hroom : maxSize < checked
    · rw [if_pos hroom, if_pos (.inr hroom)]
    · rw [if_neg hroom, if_neg (not_or.mpr ⟨hlegal, hroom⟩),
        implaceCrcImpl_memcpy dst call.body (length_body_lt hlegal), length_adu]
      rfl

/-- The builders that assemble the request aside: the complete size is checked first. -/
theorem buildAside_eq (maxSize : Nat) :
    (if p then some (none, dst) else if call.body.length + 2 > maxSize then some (none, dst)
      else copyRequest call.body dst) =
      some (if call.Refused ∨ maxSize < call.adu.length then (none, dst)
        else if maxSize < call.adu.length then (none, dst.memcpy 0 call.body)
        else (some call.adu.length, dst.memcpy 0 call.adu)) := by
  rw [length_adu]
  by_cases hp : p
  · rw [if_pos hp, if_pos (.inl (hrefused.mp hp))]
  · have hlegal : ¬call.Refused := fun h => hp (hrefused.mpr h)
    rw [if_neg hp]
    by_cases hroom : maxSize < call.body.length + 2
    · rw [if_pos hroom, if_pos (.inr hroom)]
    · rw [if_neg hroom, if_neg (not_or.mpr ⟨hlegal, hroom⟩), if_neg hroom,
        copyRequest_eq call.body dst (length_body_lt hlegal)]
      rfl

end

/-- What a builder returns and leaves behind. -/
theorem make_eq (call : RequestCall) (dst : RawMemory UInt8) (maxSize : Nat) :
    call.make dst maxSize =
      some (if call.Refused ∨ maxSize < call.checkedSize then (none, dst)
        else if maxSize < call.adu.length then (none, dst.memcpy 0 call.body)
        else (some call.adu.length, dst.memcpy 0 call.adu)) := by
  cases call with
  | rdCoils slaveAddr memAddr count =>
      exact buildInPlace_eq (rdCoils slaveAddr memAddr count) UInt8.lt_iff_toNat_lt dst 6 maxSize
  | rdHoldingRegisters slaveAddr memAddr count =>
      exact buildAside_eq (rdHoldingRegisters slaveAddr memAddr count) UInt16.lt_iff_toNat_lt dst
        maxSize
  | wrCoil slaveAddr memAddr data =>
      exact buildInPlace_eq (wrCoil slaveAddr memAddr data) Iff.rfl dst 6 maxSize
  | wrRegister slaveAddr memAddr data =>
      -- the one builder without an argument to refuse
      have heq := buildAside_eq (p := False) (wrRegister slaveAddr memAddr data) Iff.rfl dst
        maxSize
      rw [if_neg not_false] at heq
      exact heq
  | wrRegisters slaveAddr memAddr data count =>
      have hlimit : (0x7B : UInt16) < count.toWord ↔
          (wrRegisters slaveAddr memAddr data count).Refused := UInt16.lt_iff_toNat_lt
      have hlen : (wrRegisters slaveAddr memAddr data count).body.length =
          7 + count.toWord.toNat * 2 := by
        simp [body]
        omega
      -- header and payload are copied one behind the other
      have hcopy : (dst.memcpy 0 [slaveAddr, fcodeWrRegisters, memAddr.high, memAddr.low,
          count.high, count.low, .ofNat (2 * count.toWord.toNat)]).memcpy 7
            (data16Bytes data count.toWord.toNat) =
          dst.memcpy 0 (wrRegisters slaveAddr memAddr data count).body :=
        (RawMemory.memcpy_append 0 _ _).symm
      have heq := buildInPlace_eq _ hlimit dst (7 + count.toWord.toNat * 2 + 2) maxSize
      rw [length_adu, hlen] at heq
      have hchecked : (wrRegisters slaveAddr memAddr data count).checkedSize =
          7 + count.toWord.toNat * 2 + 2 := by rw [← hlen, ← length_adu]; rfl
      rw [make, makeRequestWrRegisters, hchecked, length_adu, hlen]
      simp only [byteCount_eq, hcopy]
      exact heq
  | wrBytes slaveAddr memAddr data count =>
      have hlimit : (249 : UInt8) < count ↔ (wrBytes slaveAddr memAddr data count).Refused :=
        UInt8.lt_iff_toNat_lt
      have hlen : (wrBytes slaveAddr memAddr data count).body.length = 5 + count.toNat := by
        simp [body]
        omega
      have hcopy : (dst.memcpy 0 [slaveAddr, fcodeWrBytes, memAddr.high, memAddr.low,
          count]).memcpy 5 ((List.range count.toNat).map (data.getD · 0)) =
          dst.memcpy 0 (wrBytes slaveAddr memAddr data count).body :=
        (RawMemory.memcpy_append 0 _ _).symm
      have heq := buildInPlace_eq _ hlimit dst (5 + count.toNat + 2) maxSize
      rw [length_adu, hlen] at heq
      have hchecked : (wrBytes slaveAddr memAddr data count).checkedSize =
          5 + count.toNat + 2 := by rw [← hlen, ← length_adu]; rfl
      rw [make, makeRequestWrBytes, hchecked, length_adu, hlen]
      simp only [hcopy]
      exact heq
  | rdBytes slaveAddr memAddr count =>
      exact buildAside_eq (rdBytes slaveAddr memAddr count) UInt8.lt_iff_toNat_lt dst maxSize

/-- The first copy is never larger than what was checked for. -/
theorem length_body_le_checkedSize (call : RequestCall) :
    call.body.length ≤ call.checkedSize ∧ call.checkedSize ≤ call.adu.length := by
  rw [length_adu]
  cases call <;> simp [body, checkedSize]

/-- The three ways a build ends. -/
theorem make_cases (call : RequestCall) (dst : RawMemory UInt8) (maxSize : Nat) :
    ((call.Refused ∨ maxSize < call.checkedSize) ∧ call.make dst maxSize = some (none, dst)) ∨
    (¬call.Refused ∧ call.checkedSize ≤ maxSize ∧ maxSize < call.adu.length ∧
      call.make dst maxSize = some (none, dst.memcpy 0 call.body)) ∨
    (¬call.Refused ∧ call.adu.length ≤ maxSize ∧
      call.make dst maxSize = some (some call.adu.length, dst.memcpy 0 call.adu)) := by
  have hchecked := (length_body_le_checkedSize call).2
  rw [make_eq]
  by_cases hrefused : call.Refused ∨ maxSize < call.checkedSize
  · exact .inl ⟨hrefused, by rw [if_pos hrefused]⟩
  · have hlegal : ¬call.Refused := fun h => hrefused (.inl h)
    rw [if_neg hrefused]
    by_cases hfits : maxSize < call.adu.length
    · rw [if_pos hfits]
      exact .inr (.inl ⟨hlegal, by omega, hfits, rfl⟩)
    · rw [if_neg hfits]
      exact .inr (.inr ⟨hlegal, by omega, rfl⟩)

/-! ## Documented requests -/

/-- What the call asks for in the terms of the handlers, which do not know coils. -/
def request : RequestCall → Option Request
  | rdCoils _ _ _ => none
  | rdHoldingRegisters _ memAddr count =>
      some (.rdHoldingRegisters memAddr.toWord count.toWord.toNat)
  | wrCoil _ _ _ => none
  | wrRegister _ memAddr data => some (.wrRegister memAddr.toWord data.low)
  | wrRegisters _ memAddr data count =>
      some (.wrRegisters memAddr.toWord
        ((List.range count.toWord.toNat).map fun i => (data.getD i ⟨0, 0⟩).low))
  | wrBytes _ memAddr data count =>
      some (.wrBytes memAddr.toWord ((List.range count.toNat).map (data.getD · 0)))
  | rdBytes _ memAddr count => some (.rdBytes memAddr.toWord count.toNat)

/-- The registers to write have a zero high byte. -/
def ZeroHighBytes : RequestCall → Prop
  | wrRegister _ _ data => data.high = 0
  | wrRegisters _ _ data count => ∀ i < count.toWord.toNat, (data.getD i ⟨0, 0⟩).high = 0
  | _ => True

/-- The address of the slave, in front of every request. -/
def slaveAddr : RequestCall → UInt8
  | rdCoils slaveAddr _ _ | rdHoldingRegisters slaveAddr _ _ | wrCoil slaveAddr _ _
  | wrRegister slaveAddr _ _ | wrRegisters slaveAddr _ _ _ | wrBytes slaveAddr _ _ _
  | rdBytes slaveAddr _ _ => slaveAddr

variable {call : RequestCall} {r : Request}

/-- The body is the encoded request behind the slave address, for every quantity. -/
theorem body_eq_encode (hr : call.request = some r) (hzero : call.ZeroHighBytes) :
    call.body = call.slaveAddr :: r.encode := by
  cases call with
  | rdCoils _ _ _ => exact absurd hr (by simp [request])
  | wrCoil _ _ _ => exact absurd hr (by simp [request])
  | rdHoldingRegisters slaveAddr memAddr count =>
      obtain rfl := Option.some.inj hr
      simp [body, RequestCall.slaveAddr, Request.encode, Data16.toWord]
  | wrRegister slaveAddr memAddr data =>
      obtain rfl := Option.some.inj hr
      have hhigh : data.high = 0 := hzero
      simp [body, RequestCall.slaveAddr, Request.encode, Data16.toWord, hhigh]
  | wrRegisters slaveAddr memAddr data count =>
      obtain rfl := Option.some.inj hr
      have hregisters : data16Bytes data count.toWord.toNat =
          ((List.range count.toWord.toNat).map fun i => (data.getD i ⟨0, 0⟩).low).flatMap
            Request.register := by
        rw [List.flatMap_map, data16Bytes]
        refine List.flatMap_congr fun i hi => ?_
        rw [hzero i (List.mem_range.mp hi), Request.register]
      rw [body, hregisters]
      simp [RequestCall.slaveAddr, Request.encode, Data16.toWord]
  | wrBytes slaveAddr memAddr data count =>
      obtain rfl := Option.some.inj hr
      simp [body, RequestCall.slaveAddr, Request.encode, Data16.toWord]
  | rdBytes slaveAddr memAddr count =>
      obtain rfl := Option.some.inj hr
      simp [body, RequestCall.slaveAddr, Request.encode, Data16.toWord]

/-- The builder refuses the quantities above the limit. -/
theorem refused_iff_limit (hr : call.request = some r) : call.Refused ↔ r.limit < r.count := by
  cases call with
  | rdCoils _ _ _ => exact absurd hr (by simp [request])
  | wrCoil _ _ _ => exact absurd hr (by simp [request])
  | wrRegister _ _ _ =>
      obtain rfl := Option.some.inj hr
      simp [Refused, Request.limit, Request.count]
  | rdHoldingRegisters _ _ _ =>
      obtain rfl := Option.some.inj hr
      exact Iff.rfl
  | wrRegisters _ _ _ count =>
      obtain rfl := Option.some.inj hr
      rw [Refused, Request.limit, Request.count, List.length_map, List.length_range]
  | wrBytes _ _ _ _ =>
      obtain rfl := Option.some.inj hr
      rw [Refused, Request.limit, Request.count, List.length_map, List.length_range]
  | rdBytes _ _ _ =>
      obtain rfl := Option.some.inj hr
      exact Iff.rfl

/-- A quantity is one its field in the request can hold. -/
theorem count_lt_quantities (hr : call.request = some r) : r.count < r.quantities := by
  cases call with
  | rdCoils _ _ _ => exact absurd hr (by simp [request])
  | wrCoil _ _ _ => exact absurd hr (by simp [request])
  | wrRegister _ _ _ =>
      obtain rfl := Option.some.inj hr
      simp [Request.count, Request.quantities]
  | rdHoldingRegisters _ _ count =>
      obtain rfl := Option.some.inj hr
      exact count.toWord.toNat_lt
  | wrRegisters _ _ _ count =>
      obtain rfl := Option.some.inj hr
      rw [Request.count, List.length_map, List.length_range]
      exact count.toWord.toNat_lt
  | wrBytes _ _ _ count =>
      obtain rfl := Option.some.inj hr
      rw [Request.count, List.length_map, List.length_range]
      exact count.toNat_lt
  | rdBytes _ _ count =>
      obtain rfl := Option.some.inj hr
      exact count.toNat_lt

end RequestCall

end ModbusRtu
