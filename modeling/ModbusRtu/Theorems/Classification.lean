import ModbusRtu.Logic.MasterFrames
import ModbusRtu.Logic.Refusals
import ModbusRtu.Logic.SlavePath
import ModbusRtu.Theorems.Ranges

/-!
# How the master tells replies from exceptions

The parsers of the master and `find_ecode` look at the size of a frame, its CRC
and, for the two reads, at one byte that has to agree with the size; none looks
at the function code. The frames of the slave are told apart all the same: an
exception is a frame of five bytes, too short for every parser but that of
`read_n16`, and its exception code, which that parser takes for a length, is
never zero. `replies_classified` says this of every request the slave can get.
-/

namespace ModbusRtu

/-- The reply parser for the function code accepts the frame. -/
def parserAccepts (fcode : UInt8) (adu : List UInt8) : Bool :=
  if fcode = fcodeRdHoldingRegisters then (parseReplyRdHoldingRegisters adu).isSome
  else if fcode = fcodeWrRegister then (parseReplyWrRegister adu).isSome
  else if fcode = fcodeWrRegisters then (parseReplyWrRegisters adu).isSome
  else if fcode = fcodeRdBytes then (parseReplyRdBytes adu).isSome
  else if fcode = fcodeWrBytes then (parseReplyWrBytes adu).isSome
  else false

/-- The master takes the frame for a reply to a request with the function code. -/
structure TakenAsReply (fcode : UInt8) (adu : List UInt8) : Prop where
  parsed : parserAccepts fcode adu = true
  noEcode : findEcode adu = none

/-- The master takes the frame for an exception reply with the exception code. -/
structure TakenAsException (ecode : UInt8) (adu : List UInt8) : Prop where
  found : findEcode adu = some 2
  code : adu[2]? = some ecode
  rdHoldingRegisters : parseReplyRdHoldingRegisters adu = none
  wrRegister : parseReplyWrRegister adu = none
  wrRegisters : parseReplyWrRegisters adu = none
  wrBytes : parseReplyWrBytes adu = none
  rdBytes : parseReplyRdBytes adu = none

/-- The master takes the frame for what the handler's call ended with. -/
structure Classified (fcode : UInt8) (outcome : Outcome) (adu : List UInt8) : Prop where
  executed : outcome.exception = false → TakenAsReply fcode adu
  rejected : outcome.exception = true →
    ∃ named ecode, outcome.reply = [named, ecode] ∧ TakenAsException ecode adu

/-! ## Exception frames -/

theorem takenAsException {a named ecode : UInt8} (hecode : ecode ≠ 0) :
    TakenAsException ecode (withCrc [a, named, ecode]) := by
  have hvalid : validCrc (withCrc [a, named, ecode]) ≠ none := validCrc_withCrc (by simp)
  -- `byte_count` is the exception code, and a frame of five bytes has none
  have hcount : 5 + ecode.toNat ≠ 5 := by
    have hne : ecode.toNat ≠ 0 := fun h0 => hecode (UInt8.toNat_inj.mp h0)
    omega
  constructor
  · rw [findEcode]
    exact (if_neg (not_not.mpr rfl)).trans (if_neg hvalid)
  · rfl
  · exact if_pos hcount
  · rfl
  · rfl
  · rfl
  · rfl

theorem classified_exception {fcode a ecode named : UInt8} {outcome : Outcome}
    (hexc : outcome.exception = true) (hecode : ecode ≠ 0)
    (hreply : outcome.reply = [named, ecode]) :
    Classified fcode outcome (withCrc (a :: outcome.reply)) where
  executed hexc' := by cases hexc.symm.trans hexc'
  rejected _ := ⟨named, ecode, hreply, hreply ▸ takenAsException hecode⟩

theorem ExceptsAs.classified {fcode : UInt8} {size end_ : Nat} {c : Ctx} {outcome : Outcome}
    (h : ExceptsAs fcode size end_ c outcome) (a : UInt8) :
    Classified fcode outcome (withCrc (a :: outcome.reply)) := by
  obtain ⟨ecode, hecode, hreply⟩ := h.refusesAs
  exact classified_exception h.refused.exception hecode hreply

/-! ## Reply frames -/

/-- Only a frame of five bytes can be an exception. -/
theorem findEcode_withCrc {bytes : List UInt8} (hlen : bytes.length ≠ 3) :
    findEcode (withCrc bytes) = none := by
  refine if_pos ?_
  rw [length_withCrc]
  omega

theorem classified_reply {fcode a : UInt8} {outcome : Outcome} (hexc : outcome.exception = false)
    (hparsed : parserAccepts fcode (withCrc (a :: outcome.reply)) = true)
    (hlen : outcome.reply.length ≠ 2) :
    Classified fcode outcome (withCrc (a :: outcome.reply)) where
  executed _ := ⟨hparsed, findEcode_withCrc fun h3 => hlen (Nat.succ_inj.mp h3)⟩
  rejected hexc' := by cases hexc.symm.trans hexc'

/-- The parser of `write_16` goes by the size of the frame alone. -/
theorem parseReplyWrRegister_withCrc {bytes : List UInt8} (hlen : bytes.length = 6) :
    (parseReplyWrRegister (withCrc bytes)).isSome = true := by
  have hvalid : validCrc (withCrc bytes) ≠ none := validCrc_withCrc (by rintro rfl; cases hlen)
  rw [parseReplyWrRegister, length_withCrc, hlen, if_neg (not_not.mpr rfl), if_neg hvalid]
  rfl

theorem parseReplyWrRegisters_withCrc {bytes : List UInt8} (hlen : bytes.length = 6) :
    (parseReplyWrRegisters (withCrc bytes)).isSome = true := by
  have hvalid : validCrc (withCrc bytes) ≠ none := validCrc_withCrc (by rintro rfl; cases hlen)
  simp only [parseReplyWrRegisters, length_withCrc, hlen]
  rw [if_neg (not_not.mpr rfl), if_neg hvalid]
  rfl

theorem parseReplyWrBytes_withCrc {bytes : List UInt8} (hlen : bytes.length = 5) :
    (parseReplyWrBytes (withCrc bytes)).isSome = true := by
  have hvalid : validCrc (withCrc bytes) ≠ none := validCrc_withCrc (by rintro rfl; cases hlen)
  simp only [parseReplyWrBytes, length_withCrc, hlen]
  rw [if_neg (not_not.mpr rfl), if_neg hvalid]
  rfl

/-! ## The handlers -/

section

variable {w : IntWidth} {h : Header} {src : List UInt8} {end_ : Nat}

theorem readN16_classified (a : UInt8) (c : Ctx) :
    Classified fcodeRdHoldingRegisters (readN16 w h src end_ 1 c)
      (withCrc (a :: (readN16 w h src end_ 1 c).reply)) := by
  by_cases hok : ReadN16Ok w h src end_
  · have hpos : 0 < (rd16 src 3).toNat := UInt16.lt_iff_toNat_lt.mp hok.2.2.1.1
    have hlt : (rd16 src 3).toNat < 126 := UInt16.lt_iff_toNat_lt.mp hok.2.2.1.2
    have hcount : (rd16 src 3 <<< 1).toUInt8.toNat = 2 * (rd16 src 3).toNat := by
      rw [UInt16.toNat_toUInt8, shiftLeft_one_toNat hok.2.2.1.2]
      omega
    -- the registers read, one value each
    generalize hvalues : (List.range (rd16 src 3).toNat).map
      (fun k => c.bytes (cellAt h (rd16 src 1) k)) = values
    have hlen : values.length = (rd16 src 3).toNat := by
      rw [← hvalues, List.length_map, List.length_range]
    have hreply : (readN16 w h src end_ 1 c).reply =
        [fcodeRdHoldingRegisters, (rd16 src 3 <<< 1).toUInt8] ++
          values.flatMap Request.register := by
      rw [readN16_ok hok]
      simp only [wr16_toUInt16]
      rw [← hvalues, List.flatMap_map]
    refine classified_reply (by rw [readN16_ok hok]) ?_ ?_
    · obtain ⟨crc, hcrc, hadu⟩ := withCrc_headerData
        [a, fcodeRdHoldingRegisters, (rd16 src 3 <<< 1).toUInt8] (values.flatMap Request.register)
      have hvalid := validCrc_withCrc (List.cons_ne_nil a (readN16 w h src end_ 1 c).reply)
      have hframe : a :: (readN16 w h src end_ 1 c).reply =
          [a, fcodeRdHoldingRegisters, (rd16 src 3 <<< 1).toUInt8] ++
            values.flatMap Request.register := congrArg (a :: ·) hreply
      rw [hframe, hadu] at hvalid ⊢
      rw [parserAccepts, if_pos rfl,
        parseReplyRdHoldingRegisters_eq (hcount.trans (by rw [hlen])) hcrc hvalid]
      rfl
    · rw [hreply, List.length_append, length_registers, hlen]
      show 2 + _ ≠ 2
      omega
  · exact (readN16_exceptsAs hok c).classified a

theorem readN8_classified (a : UInt8) (c : Ctx) :
    Classified fcodeRdBytes (readN8 w h src end_ 1 c)
      (withCrc (a :: (readN8 w h src end_ 1 c).reply)) := by
  by_cases hok : ReadN8Ok w h src end_
  · generalize hvalues : (List.range (rd8 src 3).toNat).map
      (fun k => c.bytes (cellAt h (rd16 src 1) k)) = values
    have hlen : values.length = (rd8 src 3).toNat := by
      rw [← hvalues, List.length_map, List.length_range]
    have hreply : (readN8 w h src end_ 1 c).reply =
        [rd8 src 0, rd8 src 1, rd8 src 2, rd8 src 3] ++ values := by
      rw [readN8_ok hok, ← hvalues]
      rfl
    refine classified_reply (by rw [readN8_ok hok]) ?_ ?_
    · obtain ⟨crc, hcrc, hadu⟩ := withCrc_headerData
        [a, rd8 src 0, rd8 src 1, rd8 src 2, rd8 src 3] values
      have hvalid := validCrc_withCrc (List.cons_ne_nil a (readN8 w h src end_ 1 c).reply)
      have hframe : a :: (readN8 w h src end_ 1 c).reply =
          [a, rd8 src 0, rd8 src 1, rd8 src 2, rd8 src 3] ++ values := congrArg (a :: ·) hreply
      rw [hframe, hadu] at hvalid ⊢
      have hparse := parseReplyRdBytes_eq hlen hcrc hvalid
      show (parseReplyRdBytes _).isSome = true
      rw [hparse]
      rfl
    · rw [hreply, List.length_append]
      show 4 + _ ≠ 2
      omega
  · exact (readN8_exceptsAs hok c).classified a

theorem write16_classified (a : UInt8) (c : Ctx) :
    Classified fcodeWrRegister (write16 w h src end_ 1 c)
      (withCrc (a :: (write16 w h src end_ 1 c).reply)) := by
  by_cases hok : Write16Ok h src end_
  · rw [write16_ok hok]
    refine classified_reply rfl ?_ (by simp)
    exact parseReplyWrRegister_withCrc rfl
  · exact (write16_exceptsAs hok c).classified a

theorem writeN8_classified (a : UInt8) (c : Ctx) :
    Classified fcodeWrBytes (writeN8 h src end_ 1 c)
      (withCrc (a :: (writeN8 h src end_ 1 c).reply)) := by
  by_cases hok : WriteN8Ok h src end_
  · rw [writeN8_ok hok]
    refine classified_reply rfl ?_ (by simp)
    exact parseReplyWrBytes_withCrc rfl
  · exact (writeN8_exceptsAs hok c).classified a

/-- A register write that fails at a register is rejected, whatever it has stored. -/
theorem writeN16_classified (a : UInt8) (c : Ctx) :
    Classified fcodeWrRegisters (writeN16 h src end_ 1 c)
      (withCrc (a :: (writeN16 h src end_ 1 c).reply)) := by
  by_cases hok : WriteN16Ok h src end_
  · rcases registers_cases src (rd16 src 3).toNat with hall | ⟨j, hj, hgood, hbad⟩
    · rw [writeN16_ok hok hall]
      refine classified_reply rfl ?_ (by simp)
      exact parseReplyWrRegisters_withCrc rfl
    · rw [writeN16_bad hok hj hgood hbad]
      exact classified_exception rfl (by decide) rfl
  · exact (writeN16_exceptsAs hok c).classified a

/-- Whatever the handler is called with, its reply in a frame is taken for what it is. -/
theorem pduCb_classified (mem : RtuMemory) (fcode a : UInt8) (src : List UInt8) (end_ : Nat) :
    Classified fcode (rtuMemoryPduCb w mem fcode src end_ 1)
      (withCrc (a :: (rtuMemoryPduCb w mem fcode src end_ 1).reply)) := by
  rcases fcode_cases fcode with rfl | rfl | rfl | rfl | rfl | hunsup
  · exact readN16_classified a _
  · exact write16_classified a _
  · exact writeN16_classified a _
  · exact readN8_classified a _
  · exact writeN8_classified a _
  · rw [pduCb_unsupported w mem src end_ 1 hunsup]
    exact classified_exception rfl (by decide) rfl

end

/-! ## The frames of the slave -/

/-- The slave answers every frame of its own with one frame, which the master
takes for what the handler made of the request. -/
theorem replies_classified {w : IntWidth} {send : SerialSend} {impl : RtuMemoryImpl}
    {fcode : UInt8} {payload : List UInt8} {s : State (slaveConfig w send)}
    (hrecv : Receives s impl (withCrc (impl.selfAddr :: fcode :: payload))) :
    ∃ tail outcome adu,
      outcome = rtuMemoryPduCb w impl.memory fcode (fcode :: payload ++ tail)
        (fcode :: payload).length 1 ∧
      adu = withCrc (impl.selfAddr :: outcome.reply) ∧
      sends (callsSince s (aduProcess serialSend s)) = [adu] ∧ Classified fcode outcome adu := by
  obtain ⟨haddr, tail, houtcome⟩ := handlerOutcome_of_filled hrecv.filled hrecv.rxBound
  have hown : s.userData.selfAddr = (pduArgs s).addr := by rw [haddr, hrecv.userData]
  have hlen : 2 ≤ (impl.selfAddr :: fcode :: payload).length := by simp
  have hacc : Accepted s.rxbuf.filled := hrecv.filled ▸ accepted_withCrc hlen
  rw [hrecv.userData] at houtcome
  refine ⟨tail, _, _, rfl, rfl, ?_, pduCb_classified impl.memory fcode impl.selfAddr _ _⟩
  rw [sends_own hacc hrecv.error hown, houtcome, hrecv.userData]

/-- A request the handler does not know, and one that it executes. -/
theorem replies_classified_unsupported :
    (∃ s : State (slaveConfig .int32 .async), ∃ adu,
      sends (callsSince s (aduProcess serialSend s)) = [adu] ∧ findEcode adu = some 2) ∧
    ∃ s : State (slaveConfig .int32 .async), ∃ adu,
      sends (callsSince s (aduProcess serialSend s)) = [adu] ∧ TakenAsReply fcodeWrBytes adu := by
  let impl : RtuMemoryImpl :=
    { selfAddr := 0x11, memory := { header := ⟨0x1000, 0x1400⟩, bytes := fun _ => 0 } }
  refine ⟨?_, ?_⟩
  · have hfits : (withCrc [impl.selfAddr, 0x2B, 0x0E]).length ≤ aduCapacity := by decide
    obtain ⟨s, hrecv⟩ : ∃ s : State (slaveConfig .int32 .async), Receives s impl _ :=
      exists_receives impl hfits
    obtain ⟨tail, outcome, adu, houtcome, -, hsends, hclass⟩ := replies_classified hrecv
    have hexc : outcome.exception = true := by
      rw [houtcome, pduCb_unsupported _ _ _ _ _ (by decide)]
      rfl
    obtain ⟨-, ecode, -, htaken⟩ := hclass.rejected hexc
    exact ⟨s, adu, hsends, htaken.found⟩
  · let payload : List UInt8 := [0x10, 0x00, 1, 7]
    have hfits : (withCrc (impl.selfAddr :: fcodeWrBytes :: payload)).length ≤ aduCapacity := by
      decide
    obtain ⟨s, hrecv⟩ : ∃ s : State (slaveConfig .int32 .async), Receives s impl _ :=
      exists_receives impl hfits
    obtain ⟨tail, outcome, adu, houtcome, -, hsends, hclass⟩ := replies_classified hrecv
    have hexecuted : outcome.exception = false := by
      have hdecides : Decides (.wrBytes 0x1000 [7]) (impl.memory.header.WriteChecks 0x1000)
          (answerTo .int32 impl.memory (.wrBytes 0x1000 [7]) tail) := wrBytes_decides (by decide)
      rw [houtcome]
      exact hdecides.executed (by decide)
    exact ⟨s, adu, hsends, hclass.executed hexecuted⟩

end ModbusRtu
