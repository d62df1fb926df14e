import ModbusRtu.Code.Transaction
import ModbusRtu.Logic.MasterFrames
import ModbusRtu.Theorems.SerialTransfer

/-!
# When a master transaction succeeds

A transaction checks the size of the reply and its CRC, and a read also the
number of elements the reply says it has: any frame that passes is the reply.
Slave address, function code and memory address are not compared with the
request, nor is the count of a write.
-/

namespace ModbusRtu

open Base

/-- The request went out, and `tty_read` has filled the buffer with `size` bytes
`adu`, a frame with its own CRC. -/
structure Answered (line : SerialLine) (size : Nat) (adu : List UInt8) : Prop where
  writes : line.writes = true
  filled : (line.read size).curr = size
  adu_eq : adu = (line.read size).front
  crc : validCrc adu ≠ none

/-! ## The shared part -/

variable {α : Type} {line : SerialLine}

/-- Without an interrupted `read` the frame is what the calls of `read` have brought. -/
theorem answered_iff_moved (hcalls : ∀ round ∈ line.rounds, ¬round.Interrupted) {size : Nat}
    {adu : List UInt8} :
    Answered line size adu ↔ line.writes = true ∧ (moved (line.read size).calls).length = size ∧
      adu = moved (line.read size).calls ∧ validCrc adu ≠ none := by
  have htracks : Tracks size (line.read size) :=
    (tracks_start size line.found).run movesBytes_readCall hcalls
  have hlen := htracks.length_moved
  have hnonneg := htracks.nonneg
  have hfilled : (line.read size).curr = size ↔ (moved (line.read size).calls).length = size := by
    omega
  constructor
  · rintro ⟨hwrites, hcurr, hadu, hcrc⟩
    exact ⟨hwrites, hfilled.mp hcurr, hadu.trans htracks.front, hcrc⟩
  · rintro ⟨hwrites, hmoved, hadu, hcrc⟩
    exact ⟨hwrites, hfilled.mpr hmoved, hadu.trans htracks.front.symm, hcrc⟩

theorem Answered.length_eq {size : Nat} {adu : List UInt8} (hans : Answered line size adu) :
    adu.length = size := by
  rw [hans.adu_eq, TtyState.front, List.length_map, List.length_range, hans.filled]
  rfl

/-- Of a smooth read it is the front of what arrives. -/
theorem Answered.eq_take {size : Nat} {adu : List UInt8} (hans : Answered line size adu)
    (hsmooth : Smooth (line.tmaxMs size) line.rounds) :
    adu = (line.rounds.flatMap TtyRound.arrived).take size := by
  rw [hans.adu_eq]
  exact (ttyReadLoop_smooth line.found hsmooth).2 hans.filled

theorem readImpl_smooth {size : Nat} (hsmooth : Smooth (line.tmaxMs size) line.rounds)
    (hlen : (line.rounds.flatMap TtyRound.arrived).length = size) :
    readImpl line size = some (line.rounds.flatMap TtyRound.arrived) := by
  have hread : ((line.read size).curr = size ↔
        size ≤ (line.rounds.flatMap TtyRound.arrived).length) ∧
      ((line.read size).curr = size →
        (line.read size).front = (line.rounds.flatMap TtyRound.arrived).take size) :=
    ttyReadLoop_smooth line.found hsmooth
  obtain ⟨hfilled, hfront⟩ := hread
  have hcurr : (line.read size).curr = size := hfilled.mpr (Nat.le_of_eq hlen.symm)
  rw [readImpl, if_pos hcurr, hfront hcurr, List.take_of_length_le (Nat.le_of_eq hlen)]

/-- A transaction succeeds if its line answers with a frame that `finish` accepts. -/
theorem transact_result_iff {request : List UInt8} {size : Nat}
    {finish : List UInt8 → Option (Nat × List α)} {P : List UInt8 → Prop} {r : Nat × List α}
    (hfinish : ∀ adu : List UInt8, adu.length = size →
      (finish adu = some r ↔ validCrc adu ≠ none ∧ P adu)) :
    (transact line request size finish).result = some r ↔
      ∃ adu, Answered line size adu ∧ P adu := by
  cases hwrites : line.writes with
  | false =>
      refine iff_of_false (by simp [transact, writeImpl, hwrites]) ?_
      rintro ⟨adu, hans, -⟩
      exact Bool.false_ne_true (hwrites.symm.trans hans.writes)
  | true =>
      by_cases hfilled : (line.read size).curr = size
      · have hlen : (line.read size).front.length = size := by
          rw [TtyState.front, List.length_map, List.length_range, hfilled]
          rfl
        have hresult : (transact line request size finish).result =
            finish (line.read size).front := by
          simp [transact, writeImpl, hwrites, readImpl, hfilled]
        rw [hresult, hfinish _ hlen]
        constructor
        · rintro ⟨hcrc, hP⟩
          exact ⟨_, ⟨hwrites, hfilled, rfl, hcrc⟩, hP⟩
        · rintro ⟨adu, ⟨-, -, rfl, hcrc⟩, hP⟩
          exact ⟨hcrc, hP⟩
      · refine iff_of_false (by simp [transact, writeImpl, hwrites, readImpl, hfilled]) ?_
        rintro ⟨adu, hans, -⟩
        exact hfilled hans.filled

/-! ## The four parsers on a frame of the expected size -/

section

variable {adu : List UInt8}

/-- The parsers of the write replies look at nothing but the size and the CRC. -/
theorem parseReplyWrRegisters_finish {n : Nat} {r : Nat × List α} (hlen : adu.length = 8) :
    (parseReplyWrRegisters adu).map (fun _ => (n, [])) = some r ↔
      validCrc adu ≠ none ∧ r = (n, []) := by
  by_cases hcrc : validCrc adu = none
  · simp [parseReplyWrRegisters, hlen, hcrc]
  · simp [parseReplyWrRegisters, hlen, hcrc, eq_comm]

theorem parseReplyWrBytes_finish {n : Nat} {r : Nat × List α} (hlen : adu.length = 7) :
    (parseReplyWrBytes adu).map (fun _ => (n, [])) = some r ↔
      validCrc adu ≠ none ∧ r = (n, []) := by
  by_cases hcrc : validCrc adu = none
  · simp [parseReplyWrBytes, hlen, hcrc]
  · simp [parseReplyWrBytes, hlen, hcrc, eq_comm]

/-- With the expected size, `count` has to be the requested one. -/
theorem parseReplyRdBytes_finish {count : UInt8} {r : Nat × List UInt8}
    (hlen : adu.length = 5 + count.toNat + 2) :
    (parseReplyRdBytes adu).map (fun rep => (count.toNat, rep.bytes.take count.toNat)) = some r ↔
      validCrc adu ≠ none ∧ field8 adu 4 = count ∧
        r = (count.toNat, (List.range count.toNat).map fun k => field8 adu (5 + k)) := by
  have hmin : ¬5 + 2 > adu.length := by omega
  by_cases hcount : field8 adu 4 = count
  · have hsize : ¬5 + 2 + (field8 adu 4).toNat ≠ adu.length := by rw [hcount]; omega
    by_cases hcrc : validCrc adu = none
    · simp [parseReplyRdBytes, hcrc]
    · rw [parseReplyRdBytes]
      dsimp only
      rw [if_neg hmin, if_neg hsize, if_neg hcrc]
      simp [hcrc, hcount, eq_comm, List.take_of_length_le]
  · -- another count does not go with the size that was read
    have hsize : 5 + 2 + (field8 adu 4).toNat ≠ adu.length := by
      intro heq
      exact hcount (UInt8.toNat_inj.mp (by omega))
    simp only [parseReplyRdBytes, if_neg hmin, if_pos hsize]
    simp [hcount]

/-- With the expected size, `byte_count` has to be twice the requested count. -/
theorem parseReplyRdHoldingRegisters_finish {n : Nat} {r : Nat × List Data16}
    (hlen : adu.length = 3 + n * 2 + 2) :
    (parseReplyRdHoldingRegisters adu).map (fun rep => (n, rep.data.take n)) = some r ↔
      validCrc adu ≠ none ∧ (field8 adu 2).toNat = 2 * n ∧
        r = (n, (List.range n).map fun k => field16 adu (3 + 2 * k)) := by
  have hmin : ¬3 + 2 > adu.length := by omega
  by_cases hcount : (field8 adu 2).toNat = 2 * n
  · have hsize : ¬3 + 2 + (field8 adu 2).toNat ≠ adu.length := by omega
    have hhalf : 2 * n / 2 = n := by omega
    by_cases hcrc : validCrc adu = none
    · simp [parseReplyRdHoldingRegisters, hcrc]
    · rw [parseReplyRdHoldingRegisters]
      dsimp only
      rw [if_neg hmin, if_neg hsize, if_neg hcrc, hcount, hhalf]
      simp [hcrc, eq_comm, List.take_of_length_le]
  · have hsize : 3 + 2 + (field8 adu 2).toNat ≠ adu.length := by omega
    simp only [parseReplyRdHoldingRegisters, if_neg hmin, if_pos hsize]
    simp [hcount]

end

/-! ## The four transactions -/

section

variable (line : SerialLine) (addr : UInt8) (memAddr : Data16)

/-- The two reads always have their request, and ask for the reply that goes with the count. -/
theorem rtuMasterRdHoldingRegisters_eq (count : Data16) :
    ∃ request, rtuMasterRdHoldingRegisters line addr memAddr count =
      some (transact line request (3 + count.toWord.toNat * 2 + 2) fun rxBuf =>
        (parseReplyRdHoldingRegisters rxBuf).map fun rep =>
          (count.toWord.toNat, rep.data.take count.toWord.toNat)) := by
  obtain ⟨req, hbuilds, -⟩ := implaceCrc_packed
    [addr, fcodeRdHoldingRegisters, memAddr.high, memAddr.low, count.high, count.low]
    (by simp [sizeTModulus])
  have hcall : implaceCrc (.ofList [addr, fcodeRdHoldingRegisters, memAddr.high, memAddr.low,
    count.high, count.low, 0, 0]) 8 = some (some 8, req) := hbuilds
  simp only [rtuMasterRdHoldingRegisters, hcall]
  exact ⟨_, rfl⟩

theorem rtuMasterRdBytes_eq (count : UInt8) :
    ∃ request, rtuMasterRdBytes line addr memAddr count =
      some (transact line request (5 + count.toNat + 2) fun rxBuf =>
        (parseReplyRdBytes rxBuf).map fun rep => (count.toNat, rep.bytes.take count.toNat)) := by
  obtain ⟨req, hbuilds, -⟩ := implaceCrc_packed
    [addr, fcodeRdBytes, memAddr.high, memAddr.low, count] (by simp [sizeTModulus])
  have hcall : implaceCrc (.ofList [addr, fcodeRdBytes, memAddr.high, memAddr.low, count, 0, 0])
    7 = some (some 7, req) := hbuilds
  simp only [rtuMasterRdBytes, hcall]
  exact ⟨_, rfl⟩

theorem rtuMasterRdHoldingRegisters_result (count : Data16) :
    ∃ t, rtuMasterRdHoldingRegisters line addr memAddr count = some t ∧
      ∀ r, t.result = some r ↔ ∃ adu, Answered line (3 + count.toWord.toNat * 2 + 2) adu ∧
        (field8 adu 2).toNat = 2 * count.toWord.toNat ∧
        r = (count.toWord.toNat,
          (List.range count.toWord.toNat).map fun k => field16 adu (3 + 2 * k)) := by
  obtain ⟨request, hcall⟩ := rtuMasterRdHoldingRegisters_eq line addr memAddr count
  rw [hcall]
  exact ⟨_, rfl, fun r => transact_result_iff fun adu => parseReplyRdHoldingRegisters_finish⟩

theorem rtuMasterRdBytes_result (count : UInt8) :
    ∃ t, rtuMasterRdBytes line addr memAddr count = some t ∧
      ∀ r, t.result = some r ↔ ∃ adu, Answered line (5 + count.toNat + 2) adu ∧
        field8 adu 4 = count ∧
        r = (count.toNat, (List.range count.toNat).map fun k => field8 adu (5 + k)) := by
  obtain ⟨request, hcall⟩ := rtuMasterRdBytes_eq line addr memAddr count
  rw [hcall]
  exact ⟨_, rfl, fun r => transact_result_iff fun adu => parseReplyRdBytes_finish⟩

theorem rtuMasterWrRegisters_result (count : Data16) (data : List Data16) :
    ∃ t, rtuMasterWrRegisters line addr memAddr count data = some t ∧
      ∀ r, t.result = some r ↔ count.toWord ≤ 0x7B ∧ ∃ adu, Answered line 8 adu ∧
        r = (count.toWord.toNat, []) := by
  by_cases hcount : count.toWord ≤ 0x7B
  · have hlt : count.toWord.toNat ≤ 123 := UInt16.le_iff_toNat_le.mp hcount
    have hlegal : ¬(RequestCall.wrRegisters addr memAddr data count).Refused :=
      Nat.not_lt.mpr hlt
    have hfits : (RequestCall.wrRegisters addr memAddr data count).adu.length ≤ aduCapacity :=
      RequestCall.length_adu_le hlegal
    obtain ⟨txBuf, hcall, -⟩ := RequestCall.builds_make (.ofList []) hlegal hfits
    rw [RequestCall.make] at hcall
    simp only [rtuMasterWrRegisters, hcall, hcount, true_and]
    exact ⟨_, rfl, fun r => transact_result_iff fun adu => parseReplyWrRegisters_finish⟩
  · rw [rtuMasterWrRegisters, makeRequestWrRegisters, if_pos (UInt16.not_le.mp hcount)]
    exact ⟨_, rfl, fun r => iff_of_false (by simp [Transaction.refused]) fun h => hcount h.1⟩

theorem rtuMasterWrBytes_result (count : UInt8) (bytes : List UInt8) :
    ∃ t, rtuMasterWrBytes line addr memAddr count bytes = some t ∧
      ∀ r, t.result = some r ↔ count ≤ 249 ∧ ∃ adu, Answered line 7 adu ∧
        r = (count.toNat, []) := by
  by_cases hcount : count ≤ 249
  · have hlt : count.toNat ≤ 249 := UInt8.le_iff_toNat_le.mp hcount
    have hlegal : ¬(RequestCall.wrBytes addr memAddr bytes count).Refused :=
      Nat.not_lt.mpr hlt
    have hfits : (RequestCall.wrBytes addr memAddr bytes count).adu.length ≤ aduCapacity :=
      RequestCall.length_adu_le hlegal
    obtain ⟨txBuf, hcall, -⟩ := RequestCall.builds_make (.ofList []) hlegal hfits
    rw [RequestCall.make] at hcall
    simp only [rtuMasterWrBytes, hcall, hcount, true_and]
    exact ⟨_, rfl, fun r => transact_result_iff fun adu => parseReplyWrBytes_finish⟩
  · rw [rtuMasterWrBytes, makeRequestWrBytes, if_pos (UInt8.not_le.mp hcount)]
    exact ⟨_, rfl, fun r => iff_of_false (by simp [Transaction.refused]) fun h => hcount h.1⟩

/-- A transaction returns, and it succeeds exactly if its request went out and
`tty_read` filled the buffer with a frame with its own CRC; for a read the frame
also has to say that it holds as many elements as were asked for, and these are
copied. Without an interrupted `read` the frame is made of the bytes that the
calls of `read` have brought, in their order. -/
theorem transactions_succeed_iff :
    (∀ count, ∃ t, rtuMasterRdHoldingRegisters line addr memAddr count = some t ∧
      ∀ r, t.result = some r ↔ ∃ adu, Answered line (3 + count.toWord.toNat * 2 + 2) adu ∧
        (field8 adu 2).toNat = 2 * count.toWord.toNat ∧
        r = (count.toWord.toNat,
          (List.range count.toWord.toNat).map fun k => field16 adu (3 + 2 * k))) ∧
    (∀ count data, ∃ t, rtuMasterWrRegisters line addr memAddr count data = some t ∧
      ∀ r, t.result = some r ↔ count.toWord ≤ 0x7B ∧ ∃ adu, Answered line 8 adu ∧
        r = (count.toWord.toNat, [])) ∧
    (∀ count bytes, ∃ t, rtuMasterWrBytes line addr memAddr count bytes = some t ∧
      ∀ r, t.result = some r ↔ count ≤ 249 ∧ ∃ adu, Answered line 7 adu ∧
        r = (count.toNat, [])) ∧
    (∀ count, ∃ t, rtuMasterRdBytes line addr memAddr count = some t ∧
      ∀ r, t.result = some r ↔ ∃ adu, Answered line (5 + count.toNat + 2) adu ∧
        field8 adu 4 = count ∧
        r = (count.toNat, (List.range count.toNat).map fun k => field8 adu (5 + k))) ∧
    ((∀ round ∈ line.rounds, ¬round.Interrupted) → ∀ size adu, Answered line size adu ↔
      line.writes = true ∧ (moved (line.read size).calls).length = size ∧
        adu = moved (line.read size).calls ∧ validCrc adu ≠ none) :=
  ⟨rtuMasterRdHoldingRegisters_result line addr memAddr,
    rtuMasterWrRegisters_result line addr memAddr, rtuMasterWrBytes_result line addr memAddr,
    rtuMasterRdBytes_result line addr memAddr, fun hcalls _ _ => answered_iff_moved hcalls⟩

end

/-- The frame names another slave and another function code than the request. -/
def Foreign (adu : List UInt8) (addr fcode : UInt8) : Prop :=
  field8 adu 0 ≠ addr ∧ field8 adu 1 ≠ fcode

instance (adu : List UInt8) (addr fcode : UInt8) : Decidable (Foreign adu addr fcode) :=
  inferInstanceAs (Decidable (_ ∧ _))

/-- A line on which all bytes come in together, and in time. -/
def SerialLine.bringing (bytes : List UInt8) : SerialLine where
  rate := .b19200
  timeoutExecMs := 0
  writes := true
  rounds :=
    if h : bytes = [] then []
    else
      [{ poll := .ready, device := true, aux := false, elapsedMs := 1
         transfer := some ⟨bytes, h⟩ }]
  found := fun _ => 0

theorem SerialLine.smooth_bringing (bytes : List UInt8) (size : Nat) :
    Smooth ((SerialLine.bringing bytes).tmaxMs size) (SerialLine.bringing bytes).rounds := by
  have htime : 10 ≤ (SerialLine.bringing bytes).tmaxMs size := by
    show (10 : Int) ≤ ((10 + calcTminMs .b19200 size : Nat) : Int) + 0
    omega
  have hrounds : ∀ round ∈ (SerialLine.bringing bytes).rounds,
      ¬round.Interrupted ∧ round.elapsedMs = 1 ∧ round.aux = false := by
    intro round hmem
    by_cases hbytes : bytes = []
    · simp [SerialLine.bringing, hbytes] at hmem
    · simp only [SerialLine.bringing, dif_neg hbytes, List.mem_singleton] at hmem
      subst hmem
      exact ⟨fun hround => Option.some_ne_none _ hround.2.2, rfl, rfl⟩
  refine ⟨by omega, fun round hr => (hrounds round hr).1, fun round hr => ?_,
    fun round hr => (hrounds round hr).2.2⟩
  rw [(hrounds round hr).2.1]
  omega

theorem SerialLine.arrived_bringing (bytes : List UInt8) :
    (SerialLine.bringing bytes).rounds.flatMap TtyRound.arrived = bytes := by
  by_cases hbytes : bytes = []
  · simp [SerialLine.bringing, hbytes]
  · simp [SerialLine.bringing, hbytes, TtyRound.arrived]

/-- Replies of slave 0x22, with other function codes, memory addresses and
(to the writes) counts, are all taken for the replies of slave 0x11. -/
theorem foreign_replies_accepted :
    let registers := withCrc [0x22, 4, 2, 0xAB, 0xCD]
    let wroteRegisters := withCrc [0x22, 6, 0x20, 0, 0, 9]
    let wroteBytes := withCrc [0x22, 65, 0x20, 0, 9]
    let bytes := withCrc [0x22, 66, 0x20, 0, 1, 0xAB]
    ((rtuMasterRdHoldingRegisters (.bringing registers) 0x11 ⟨0x10, 0⟩ ⟨0, 1⟩).map (·.result) =
        some (some (1, [⟨0xAB, 0xCD⟩])) ∧ Foreign registers 0x11 fcodeRdHoldingRegisters) ∧
      ((rtuMasterWrRegisters (.bringing wroteRegisters) 0x11 ⟨0x10, 0⟩ ⟨0, 1⟩ [⟨0, 7⟩]).map
          (·.result) = some (some (1, [])) ∧ Foreign wroteRegisters 0x11 fcodeWrRegisters ∧
          field16 wroteRegisters 2 ≠ ⟨0x10, 0⟩ ∧ field16 wroteRegisters 4 ≠ ⟨0, 1⟩) ∧
      ((rtuMasterWrBytes (.bringing wroteBytes) 0x11 ⟨0x10, 0⟩ 1 [7]).map (·.result) =
        some (some (1, [])) ∧ Foreign wroteBytes 0x11 fcodeWrBytes ∧
          field16 wroteBytes 2 ≠ ⟨0x10, 0⟩ ∧ field8 wroteBytes 4 ≠ 1) ∧
      ((rtuMasterRdBytes (.bringing bytes) 0x11 ⟨0x10, 0⟩ 1).map (·.result) =
        some (some (1, [0xAB])) ∧ Foreign bytes 0x11 fcodeRdBytes ∧
          field16 bytes 2 ≠ ⟨0x10, 0⟩) := by
  decide

end ModbusRtu
