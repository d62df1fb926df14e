import ModbusRtu.Theorems.Transactions

/-!
# The operations of a master

The four transactions of `master_impl.c` seen as operations on the memory of a
slave: what they ask for, what the caller is to get, and what decides it. A
legal operation writes the documented request, and its result is what `finish`
makes of the reply (`perform_eq`): the documented reply gives the documented
result (`result_of_reply`), and there is no result without a reply that has its
CRC (`answered_of_result`).
-/

namespace ModbusRtu

open Base

/-- The transactions of `master_impl.c`, by what they ask for. -/
inductive Operation
  | rdHoldingRegisters (addr : UInt16) (num : Nat)
  | wrRegisters (addr : UInt16) (values : List UInt8)
  | rdBytes (addr : UInt16) (num : Nat)
  | wrBytes (addr : UInt16) (values : List UInt8)
  deriving DecidableEq, Repr

/-- What the caller sees of a transaction: the request written, and the elements copied. -/
structure Course where
  written : Option (List UInt8)
  result : Option (List Data16)

/-- Bytes are taken as registers without a high byte. -/
def Transaction.course {α : Type} (t : Transaction α) (element : α → Data16) : Course where
  written := t.written
  result := t.result.map fun r => r.2.map element

namespace Operation

def request : Operation → Request
  | rdHoldingRegisters addr num => .rdHoldingRegisters addr num
  | wrRegisters addr values => .wrRegisters addr values
  | rdBytes addr num => .rdBytes addr num
  | wrBytes addr values => .wrBytes addr values

/-- The elements the caller is to get, where `m` says what every address holds. -/
def answer (m : Nat → UInt8) : Operation → List Data16
  | rdHoldingRegisters addr num | rdBytes addr num =>
      (List.range num).map fun k => ⟨0, m (addr.toNat + k)⟩
  | wrRegisters .. | wrBytes .. => []

/-- The size `read_impl` is asked for. -/
def replySize : Operation → Nat
  | rdHoldingRegisters _ num => 3 + num * 2 + 2
  | wrRegisters .. => 8
  | rdBytes _ num => 5 + num + 2
  | wrBytes .. => 7

def perform (line : SerialLine) (slaveAddr : UInt8) : Operation → Option Course
  | rdHoldingRegisters addr num =>
      (rtuMasterRdHoldingRegisters line slaveAddr (.ofWord addr) (.ofWord (.ofNat num))).map
        (·.course id)
  | wrRegisters addr values =>
      (rtuMasterWrRegisters line slaveAddr (.ofWord addr) (.ofWord (.ofNat values.length))
        (values.map (⟨0, ·⟩))).map (·.course id)
  | rdBytes addr num =>
      (rtuMasterRdBytes line slaveAddr (.ofWord addr) (.ofNat num)).map (·.course (⟨0, ·⟩))
  | wrBytes addr values =>
      (rtuMasterWrBytes line slaveAddr (.ofWord addr) (.ofNat values.length) values).map
        (·.course (⟨0, ·⟩))

/-- What becomes of a reply of the right size. -/
def finish : Operation → List UInt8 → Option (List Data16)
  | rdHoldingRegisters _ num, adu =>
      (parseReplyRdHoldingRegisters adu).map fun rep => rep.data.take num
  | wrRegisters .., adu => (parseReplyWrRegisters adu).map fun _ => []
  | rdBytes _ num, adu =>
      (parseReplyRdBytes adu).map fun rep => (rep.bytes.take num).map (⟨0, ·⟩)
  | wrBytes .., adu => (parseReplyWrBytes adu).map fun _ => []

variable {line : SerialLine} {slaveAddr : UInt8} {op : Operation} {m : Nat → UInt8}

theorem course_transact {α : Type} (request : List UInt8) (size : Nat)
    (finish : List UInt8 → Option (Nat × List α)) (element : α → Data16) :
    (transact line request size finish).course element =
      { written := some request
        result := if line.writes then
          (readImpl line size).bind fun adu => (finish adu).map fun r => r.2.map element
          else none } := by
  cases hwrites : line.writes with
  | false => simp [transact, writeImpl, hwrites, Transaction.course]
  | true => simp [transact, writeImpl, hwrites, Transaction.course, Option.map_bind]

theorem toWord_ofWord (addr : UInt16) : (Data16.ofWord addr).toWord = addr := makeWord_bytes addr

/-- A legal operation writes the documented request, and the reply decides. -/
theorem perform_eq (hlegal : op.request.Legal) :
    op.perform line slaveAddr = some
      { written := some (withCrc (slaveAddr :: op.request.encode))
        result := if line.writes then (readImpl line op.replySize).bind op.finish else none } := by
  cases op with
  | wrBytes addr values =>
      have hlen : values.length ≤ 249 := hlegal.2
      have hfits : values.length + 7 ≤ aduCapacity := by
        rw [aduCapacity]
        omega
      obtain ⟨txBuf, hcall, hread⟩ :=
        builds_wrBytes slaveAddr (.ofWord addr) (.ofList []) hlen hfits
      rw [toWord_ofWord] at hcall hread
      show (rtuMasterWrBytes _ _ _ _ _).map _ = _
      rw [rtuMasterWrBytes, hcall]
      simp only [Option.map_some, course_transact, hread, Option.map_map]
      rfl
  | wrRegisters addr values =>
      have hlen : values.length ≤ 123 := hlegal.2
      have hfits : 2 * values.length + 9 ≤ aduCapacity := by
        rw [aduCapacity]
        omega
      obtain ⟨txBuf, hcall, hread⟩ :=
        builds_wrRegisters slaveAddr (.ofWord addr) (.ofList []) hlen hfits
      rw [toWord_ofWord] at hcall hread
      show (rtuMasterWrRegisters _ _ _ _ _).map _ = _
      rw [rtuMasterWrRegisters, hcall]
      simp only [Option.map_some, course_transact, hread, Option.map_map]
      rfl
  | rdBytes addr num =>
      have hnum : num ≤ 249 := hlegal.2
      have hnat : (UInt8.ofNat num).toNat = num := toNat_ofNat_u8 (by omega)
      obtain ⟨req', hbuilds, hread⟩ := implaceCrc_packed
        [slaveAddr, fcodeRdBytes, (Data16.ofWord addr).high, (Data16.ofWord addr).low, .ofNat num]
        (by simp [sizeTModulus])
      have hcall : implaceCrc (.ofList [slaveAddr, fcodeRdBytes, (Data16.ofWord addr).high,
        (Data16.ofWord addr).low, .ofNat num, 0, 0]) 7 = some (some 7, req') := hbuilds
      have hread' : req'.read 7 = withCrc (slaveAddr :: (Request.rdBytes addr num).encode) := hread
      rw [perform]
      simp only [rtuMasterRdBytes, hcall, Option.map_some, course_transact, hread', hnat,
        Option.map_map]
      rfl
  | rdHoldingRegisters addr num =>
      have hnum : num ≤ 125 := hlegal.2
      have hword : (Data16.ofWord (.ofNat num)).toWord.toNat = num := by
        rw [toWord_ofWord]
        exact toNat_ofNat_u16 (by omega)
      obtain ⟨req', hbuilds, hread⟩ := implaceCrc_packed
        [slaveAddr, fcodeRdHoldingRegisters, (Data16.ofWord addr).high, (Data16.ofWord addr).low,
          (Data16.ofWord (.ofNat num)).high, (Data16.ofWord (.ofNat num)).low]
        (by simp [sizeTModulus])
      have hcall : implaceCrc (.ofList [slaveAddr, fcodeRdHoldingRegisters,
        (Data16.ofWord addr).high, (Data16.ofWord addr).low, (Data16.ofWord (.ofNat num)).high,
        (Data16.ofWord (.ofNat num)).low, 0, 0]) 8 = some (some 8, req') := hbuilds
      have hread' : req'.read 8 =
          withCrc (slaveAddr :: (Request.rdHoldingRegisters addr num).encode) := hread
      rw [perform]
      simp only [rtuMasterRdHoldingRegisters, hcall, Option.map_some, course_transact, hread',
        hword, Option.map_map, Function.comp_def, List.map_id]
      rfl

/-- The request that is written, whatever comes of it. -/
theorem request_eq (hlegal : op.request.Legal) {c : Course}
    (hperform : op.perform line slaveAddr = some c) {request : List UInt8}
    (hwritten : c.written = some request) :
    request = withCrc (slaveAddr :: op.request.encode) := by
  rw [perform_eq hlegal] at hperform
  rw [← Option.some_inj.mp hperform] at hwritten
  exact (Option.some_inj.mp hwritten).symm

theorem validCrc_of_finish {adu : List UInt8} (h : op.finish adu ≠ none) :
    validCrc adu ≠ none := by
  intro hcrc
  apply h
  cases op with
  | rdHoldingRegisters => simp [finish, parseReplyRdHoldingRegisters, hcrc]
  | wrRegisters => simp [finish, parseReplyWrRegisters, hcrc]
  | rdBytes => simp [finish, parseReplyRdBytes, hcrc]
  | wrBytes => simp [finish, parseReplyWrBytes, hcrc]

/-- The documented reply is read as it should be. -/
theorem finish_reply (hlegal : op.request.Legal) :
    op.finish (withCrc (slaveAddr :: op.request.reply m)) = some (op.answer m) := by
  cases op with
  | rdHoldingRegisters addr num =>
      have hnum : num ≤ 125 := hlegal.2
      show (parseReplyRdHoldingRegisters (withCrc
        (slaveAddr :: (Request.rdHoldingRegisters addr num).reply m))).map _ = _
      rw [parse_rdHoldingRegisters hnum]
      simp [answer, List.take_of_length_le]
  | wrRegisters addr values =>
      show (parseReplyWrRegisters (withCrc
        (slaveAddr :: (Request.wrRegisters addr values).reply m))).map _ = _
      rw [parse_wrRegisters]
      rfl
  | rdBytes addr num =>
      have hnum : num ≤ 249 := hlegal.2
      show (parseReplyRdBytes (withCrc
        (slaveAddr :: (Request.rdBytes addr num).reply m))).map _ = _
      rw [parse_rdBytes hnum]
      simp [answer, List.take_of_length_le]
  | wrBytes addr values =>
      show (parseReplyWrBytes (withCrc
        (slaveAddr :: (Request.wrBytes addr values).reply m))).map _ = _
      rw [parse_wrBytes]
      rfl

theorem length_reply (hlegal : op.request.Legal) :
    (withCrc (slaveAddr :: op.request.reply m)).length = op.replySize := by
  rw [length_withCrc, List.length_cons]
  cases op with
  | rdHoldingRegisters addr num =>
      simp [request, Request.reply, replySize, Request.register]
      omega
  | wrRegisters => rfl
  | rdBytes addr num =>
      simp [request, Request.reply, replySize, Request.encode]
      omega
  | wrBytes => rfl

/-- A result is made of what `tty_read` has filled the buffer with. -/
theorem answered_of_result (hlegal : op.request.Legal) {c : Course}
    (hperform : op.perform line slaveAddr = some c) (hresult : c.result ≠ none) :
    ∃ adu, Answered line op.replySize adu ∧ c.result = op.finish adu := by
  rw [perform_eq hlegal] at hperform
  obtain rfl := Option.some_inj.mp hperform
  cases hwrites : line.writes with
  | false => exact absurd (by simp [hwrites]) hresult
  | true =>
      by_cases hfilled : (line.read op.replySize).curr = op.replySize
      · simp only [hwrites, if_true, readImpl, if_pos hfilled, Option.bind_some] at hresult ⊢
        exact ⟨_, ⟨hwrites, hfilled, rfl, validCrc_of_finish hresult⟩, rfl⟩
      · exact absurd (by simp [hwrites, readImpl, hfilled]) hresult

/-- A reply that arrives as it was sent, smoothly and in time, is the result. -/
theorem result_of_reply (hlegal : op.request.Legal) (hwrites : line.writes = true)
    (hsmooth : Smooth (line.tmaxMs op.replySize) line.rounds)
    (harrived : line.rounds.flatMap TtyRound.arrived =
      withCrc (slaveAddr :: op.request.reply m)) :
    op.perform line slaveAddr = some
      { written := some (withCrc (slaveAddr :: op.request.encode))
        result := some (op.answer m) } := by
  have hlen : (line.rounds.flatMap TtyRound.arrived).length = op.replySize := by
    rw [harrived]
    exact length_reply hlegal
  rw [perform_eq hlegal, readImpl_smooth hsmooth hlen, harrived, Option.bind_some,
    finish_reply hlegal, if_pos hwrites]

end Operation

end ModbusRtu
