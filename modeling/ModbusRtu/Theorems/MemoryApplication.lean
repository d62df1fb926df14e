import ModbusRtu.Logic.RequestBytes
import ModbusRtu.Theorems.Cursors
import ModbusRtu.Theorems.ReceiverSteps

/-!
# The memory handler as an application

What the memory handler makes of a frame depends on the bytes of the frame only:
the one byte it may read behind a request is the first one of the CRC. So it is
an application of the receiver (`implements_memory`).
-/

namespace ModbusRtu

open Base

section

variable {w : IntWidth} {h : Header} {mem : RtuMemory} {fcode : UInt8} {src src' : List UInt8}
  {end_ : Nat} {c : Ctx}

theorem AgreeBefore.mono {m n : Nat} (hsame : AgreeBefore n src src') (hle : m ≤ n) :
    AgreeBefore m src src' := fun i hi => hsame i (Nat.lt_of_lt_of_le hi hle)

/-- A register write without its byte count finds another byte there. -/
theorem writeN16_congr_behind (hsame : AgreeBefore (end_ + 1) src src') :
    writeN16 h src end_ 1 c = writeN16 h src' end_ 1 c := by
  by_cases hcount : end_ = 5 ∧ WriteN16Head h src
  · obtain ⟨rfl, -⟩ := hcount
    simp only [writeN16, Nat.reduceAdd]
    rw [← hsame.word (i := 1) (by decide), ← hsame.word (i := 3) (by decide),
      ← hsame 5 (by decide)]
    split_ifs with hsize hlow hquantity hdouble hend
    all_goals first | rfl | omega
  · exact writeN16_congr (hsame.mono (Nat.le_succ _)) hcount

theorem pduCb_congr_behind (hsame : AgreeBefore (end_ + 1) src src') :
    rtuMemoryPduCb w mem fcode src end_ 1 = rtuMemoryPduCb w mem fcode src' end_ 1 := by
  have hbefore : AgreeBefore end_ src src' := hsame.mono (Nat.le_succ _)
  rcases fcode_cases fcode with rfl | rfl | rfl | rfl | rfl | hunsup
  · exact readN16_congr hbefore
  · exact write16_congr hbefore
  · exact writeN16_congr_behind hsame
  · exact readN8_congr hbefore
  · exact writeN8_congr hbefore
  · rw [pduCb_unsupported w mem _ _ 1 hunsup, pduCb_unsupported w mem _ _ 1 hunsup]

end

/-! ## The application -/

/-- The arguments of `pdu_cb` for the frame `f`, with nothing behind it in the buffer. -/
def argsFor (f : List UInt8) : PduArgs where
  addr := f.getD 0 0
  fcode := f.getD 1 0
  src := f
  end_ := f.length - 2
  curr := 2
  dstSize := aduCapacity - 2

def memoryApplication (w : IntWidth) (send : SerialSend) : Application RtuMemoryImpl where
  capacity := aduCapacity
  answer impl f := rtuMemoryImplPduCb w impl (argsFor f)
  sendsAtOnce := decide (send = .sync)
  suspends := false
  resumes := false

variable {w : IntWidth} {send : SerialSend} {f : List UInt8} {args : PduArgs}

/-- The buffer has the bytes of the frame. -/
theorem Passes.agree (h : Passes (slaveConfig w send) f args) (hlen : 4 ≤ f.length) :
    AgreeBefore (f.length - 3 + 1) (args.src.drop 1) (f.drop 1) := by
  intro i hi
  have hframe : args.src.take (f.length - 2 + 2) = f := by
    rw [← h.end_]
    exact h.frame
  rw [Nat.sub_add_cancel (by omega)] at hframe
  rw [rd8, rd8, List.getD_eq_getElem?_getD, List.getD_eq_getElem?_getD, List.getElem?_drop,
    List.getElem?_drop, ← List.getElem?_take_of_lt (by omega : 1 + i < f.length), hframe]

theorem implPduCb_eq_argsFor (h : Passes (slaveConfig w send) f args) (hlen : 4 ≤ f.length)
    (impl : RtuMemoryImpl) :
    rtuMemoryImplPduCb w impl args = rtuMemoryImplPduCb w impl (argsFor f) := by
  have hend : args.end_ - 1 = f.length - 3 := by
    rw [h.end_]
    omega
  have hend' : (argsFor f).end_ - 1 = f.length - 3 := by
    show f.length - 2 - 1 = _
    omega
  have hcongr : rtuMemoryPduCb w impl.memory args.fcode _ _ 1 = _ :=
    pduCb_congr_behind (h.agree hlen)
  have hfcode : (argsFor f).fcode = args.fcode := h.fcode.symm
  have haddr : (argsFor f).addr = args.addr := h.addr.symm
  unfold rtuMemoryImplPduCb
  rw [h.curr, hend, hend', hfcode, haddr, hcongr]
  rfl

theorem implements_memory (w : IntWidth) (send : SerialSend) :
    Implements (slaveConfig w send) (memoryApplication w send) where
  capacity := rfl
  room := by
    show 1 ≤ aduCapacity
    decide
  answer impl f args hacc h := implPduCb_eq_argsFor h hacc.1 impl
  fits impl f _ := by
    show (rtuMemoryImplPduCb w impl (argsFor f)).2.length + 2 ≤ 256
    unfold rtuMemoryImplPduCb
    split
    · exact Nat.le_add_left 2 254
    · have hlen := length_reply_le w impl.memory (argsFor f).fcode ((argsFor f).src.drop 1)
        ((argsFor f).end_ - 1)
      exact Nat.add_le_add_right (Nat.succ_le_succ hlen) 2
  sendsAtOnce := by cases send <;> rfl
  suspends := rfl
  resumes := rfl

end ModbusRtu
