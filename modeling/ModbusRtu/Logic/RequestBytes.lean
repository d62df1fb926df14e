import Mathlib.Data.List.GetD
import ModbusRtu.Logic.Handlers

/-!
# Requests with the same bytes

What a handler makes of a request depends on its bytes, not on those behind it
in the buffer (`readN16_congr`, …), with one exception: `write_n16` may read the
byte count of a register write that ends in front of it. Whether a request is
accepted depends on its own bytes only (`callWith_accepted_iff`).
-/

namespace ModbusRtu

open Base

/-- The two requests have the same bytes before `end`. -/
def AgreeBefore (end_ : Nat) (src src' : List UInt8) : Prop := ∀ i < end_, rd8 src i = rd8 src' i

section

variable {w : IntWidth} {h : Header} {src src' : List UInt8} {end_ : Nat} {c : Ctx}

theorem AgreeBefore.word (hsame : AgreeBefore end_ src src') {i : Nat} (hi : i + 1 < end_) :
    rd16 src i = rd16 src' i := by
  rw [rd16_eq_makeWord, rd16_eq_makeWord, hsame i (by omega), hsame (i + 1) hi]

theorem AgreeBefore.echo (hsame : AgreeBefore end_ src src') {n : Nat} (hn : n ≤ end_) :
    (List.range n).map (rd8 src) = (List.range n).map (rd8 src') :=
  List.map_congr_left fun i hi => hsame i (Nat.lt_of_lt_of_le (List.mem_range.mp hi) hn)

theorem readN16_congr (hsame : AgreeBefore end_ src src') :
    readN16 w h src end_ 1 c = readN16 w h src' end_ 1 c := by
  simp only [readN16, Nat.reduceAdd]
  by_cases hsize : 5 > end_
  · rw [if_pos hsize, if_pos hsize]
  · rw [hsame.word (i := 1) (by omega), hsame.word (i := 3) (by omega)]

theorem readN8_congr (hsame : AgreeBefore end_ src src') :
    readN8 w h src end_ 1 c = readN8 w h src' end_ 1 c := by
  simp only [readN8, echo, Nat.reduceAdd]
  by_cases hsize : 4 > end_
  · rw [if_pos hsize, if_pos hsize]
  · rw [hsame.word (i := 1) (by omega), hsame 3 (by omega), hsame.echo (n := 4) (by omega)]

theorem write16_congr (hsame : AgreeBefore end_ src src') :
    write16 w h src end_ 1 c = write16 w h src' end_ 1 c := by
  simp only [write16, echo, Nat.reduceAdd]
  by_cases hsize : 5 > end_
  · rw [if_pos hsize, if_pos hsize]
  · rw [hsame.word (i := 1) (by omega), hsame.word (i := 3) (by omega),
      hsame.echo (n := 5) (by omega)]

theorem writeN8_congr (hsame : AgreeBefore end_ src src') :
    writeN8 h src end_ 1 c = writeN8 h src' end_ 1 c := by
  by_cases hsize : 4 > end_
  · simp only [writeN8, Nat.reduceAdd]
    rw [if_pos hsize, if_pos hsize]
  · have haddr := hsame.word (i := 1) (by omega)
    have hnum := hsame 3 (by omega)
    by_cases hok : WriteN8Ok h src end_
    · have hend := hok.2.2.2
      have hok' : WriteN8Ok h src' end_ := by rw [WriteN8Ok, ← haddr, ← hnum]; exact hok
      rw [writeN8_ok hok, writeN8_ok hok', ← haddr, ← hnum, hsame.echo (n := 4) (by omega)]
      congr 2
      exact scatter_congr fun k hk => hsame (4 + k) (by omega)
    · -- both calls end at the same check
      simp only [writeN8, Nat.reduceAdd]
      rw [← haddr, ← hnum]
      split_ifs with hlow hquantity hend
      · rfl
      · exact absurd ⟨by omega, hlow, hquantity, by omega⟩ hok
      · rfl
      · rfl

/-- The fields in front of the byte count of a register write pass their checks. -/
def WriteN16Head (h : Header) (src : List UInt8) : Prop :=
  rd16 src 1 < h.addrEnd ∧ 0 < rd16 src 3 ∧ rd16 src 3 < 0x7C

instance (h : Header) (src : List UInt8) : Decidable (WriteN16Head h src) :=
  inferInstanceAs (Decidable (_ ∧ _))

/-- The requests share the byte count, unless it is behind them. -/
theorem AgreeBefore.byteCount (hsame : AgreeBefore end_ src src') (hsize : 5 ≤ end_)
    (hcount : ¬(end_ = 5 ∧ WriteN16Head h src)) (hhead : WriteN16Head h src) :
    rd8 src 5 = rd8 src' 5 := by
  have hfive : end_ ≠ 5 := fun he => hcount ⟨he, hhead⟩
  exact hsame 5 (by omega)

/-- Register writes that pass the checks store the same registers, up to the same one. -/
theorem writeN16_congr_ok (hsame : AgreeBefore end_ src src') (hok : WriteN16Ok h src end_) :
    writeN16 h src end_ 1 c = writeN16 h src' end_ 1 c := by
  have hsize := hok.1
  have hdouble := hok.2.2.2.1
  have hend := hok.2.2.2.2
  have haddr := hsame.word (i := 1) (by omega)
  have hnum := hsame.word (i := 3) (by omega)
  have hbyte := hsame 5 (by omega)
  have hok' : WriteN16Ok h src' end_ := by
    rw [WriteN16Ok, ← haddr, ← hnum, ← hbyte]
    exact hok
  have hregister : ∀ k < (rd16 src 3).toNat, rd16 src (6 + 2 * k) = rd16 src' (6 + 2 * k) :=
    fun k hk => hsame.word (by omega)
  have hpass : ∀ k < (rd16 src 3).toNat, RegisterOk src k ↔ RegisterOk src' k := by
    intro k hk
    rw [RegisterOk, RegisterOk, hregister k hk]
  have hwritten : ∀ n ≤ (rd16 src 3).toNat,
      registersWritten h src c.bytes n = registersWritten h src' c.bytes n := by
    intro n hn
    rw [registersWritten, registersWritten, ← haddr]
    exact scatter_congr fun k hk => by rw [hregister k (by omega)]
  rcases registers_cases src (rd16 src 3).toNat with hall | ⟨j, hj, hgood, hbad⟩
  · have hall' : ∀ k < (rd16 src' 3).toNat, RegisterOk src' k := by
      intro k hk
      rw [← hnum] at hk
      exact (hpass k hk).mp (hall k hk)
    rw [writeN16_ok hok hall, writeN16_ok hok' hall', ← haddr, ← hnum,
      hwritten _ (Nat.le_refl _), hsame.echo (n := 5) (by omega)]
  · have hgood' : ∀ k < j, RegisterOk src' k := fun k hk =>
      (hpass k (by omega)).mp (hgood k hk)
    have hbad' : ¬RegisterOk src' j := fun hr => hbad ((hpass j hj).mpr hr)
    rw [writeN16_bad hok hj hgood hbad, writeN16_bad hok' (hnum ▸ hj) hgood' hbad', ← haddr,
      hwritten j (by omega)]

theorem writeN16_congr (hsame : AgreeBefore end_ src src')
    (hcount : ¬(end_ = 5 ∧ WriteN16Head h src)) :
    writeN16 h src end_ 1 c = writeN16 h src' end_ 1 c := by
  by_cases hok : WriteN16Ok h src end_
  · exact writeN16_congr_ok hsame hok
  · simp only [writeN16, Nat.reduceAdd]
    by_cases hsize : 5 > end_
    · rw [if_pos hsize, if_pos hsize]
    · rw [← hsame.word (i := 1) (by omega), ← hsame.word (i := 3) (by omega)]
      by_cases hlow : ¬(h.addrEnd > rd16 src 1)
      · rw [if_pos hlow, if_pos hlow]
      rw [if_neg hlow, if_neg hlow]
      by_cases hquantity : ¬(0 < rd16 src 3 ∧ 0x7C > rd16 src 3)
      · rw [if_pos hquantity, if_pos hquantity]
      rw [if_neg hquantity, if_neg hquantity]
      rw [not_not] at hlow hquantity
      -- from here on the byte count is read
      rw [← hsame.byteCount (by omega) hcount ⟨hlow, hquantity⟩]
      by_cases hdouble : (rd8 src 5).toNat ≠ (rd16 src 3 <<< 1).toNat
      · rw [if_pos hdouble, if_pos hdouble]
      rw [if_neg hdouble, if_neg hdouble]
      by_cases hend : ((rd8 src 5).toNat : Int) ≠ (end_ : Int) - ↑(6 : Nat)
      · rw [if_pos hend, if_pos hend]
      · have hshift := shiftLeft_one_toNat (UInt16.lt_trans hquantity.2 (by decide))
        exact absurd ⟨by omega, hlow, hquantity, by omega, by omega⟩ hok

end

/-- The call for the payload, with `tail` behind it in the buffer. -/
def callWith (w : IntWidth) (mem : RtuMemory) (fcode : UInt8) (payload tail : List UInt8) :
    Outcome :=
  rtuMemoryPduCb w mem fcode (payload ++ tail) payload.length 1

theorem agreeBefore_append (payload tail tail' : List UInt8) :
    AgreeBefore payload.length (payload ++ tail) (payload ++ tail') := by
  intro i hi
  rw [rd8, rd8, List.getD_append _ _ _ _ hi, List.getD_append _ _ _ _ hi]

/-! ## Accepted requests -/

/-- The request passes every check of the handler for its function code. -/
def PassesChecks (w : IntWidth) (h : Header) (fcode : UInt8) (src : List UInt8) (end_ : Nat) :
    Prop :=
  if fcode = fcodeRdHoldingRegisters then ReadN16Ok w h src end_
  else if fcode = fcodeWrRegister then Write16Ok h src end_
  else if fcode = fcodeWrRegisters then
    WriteN16Ok h src end_ ∧ ∀ k < (rd16 src 3).toNat, RegisterOk src k
  else if fcode = fcodeRdBytes then ReadN8Ok w h src end_
  else if fcode = fcodeWrBytes then WriteN8Ok h src end_
  else False

instance (w : IntWidth) (h : Header) (fcode : UInt8) (src : List UInt8) (end_ : Nat) :
    Decidable (PassesChecks w h fcode src end_) :=
  inferInstanceAs (Decidable (ite _ _ _))

section

variable {w : IntWidth} {h : Header} {mem : RtuMemory} {fcode : UInt8} {src src' : List UInt8}
  {end_ : Nat}

theorem not_passesChecks (hunsup : Unsupported fcode) : ¬PassesChecks w h fcode src end_ := by
  obtain ⟨h3, h6, h16, h65, h66⟩ := hunsup
  rw [PassesChecks, if_neg h3, if_neg h6, if_neg h16, if_neg h65, if_neg h66]
  exact not_false

/-- A handler that answers when its checks pass, and else refuses. -/
theorem accepted_iff_of {ok : Prop} {outcome : Outcome}
    (hanswer : ok → outcome.exception = false) (hrefuse : ¬ok → outcome.exception = true) :
    outcome.exception = false ↔ ok := by
  refine ⟨?_, hanswer⟩
  intro hexc
  by_contra hbad
  exact Bool.false_ne_true (hexc.symm.trans (hrefuse hbad))

theorem pduCb_accepted_iff :
    (rtuMemoryPduCb w mem fcode src end_ 1).exception = false ↔
      PassesChecks w mem.header fcode src end_ := by
  rcases fcode_cases fcode with rfl | rfl | rfl | rfl | rfl | hunsup
  · show _ ↔ ReadN16Ok w mem.header src end_
    refine accepted_iff_of (fun hok => ?_) fun hbad => (readN16_refused hbad _).exception
    rw [pduCb_rdHoldingRegisters, readN16_ok hok]
  · show _ ↔ Write16Ok mem.header src end_
    refine accepted_iff_of (fun hok => ?_) fun hbad => (write16_refused hbad _).exception
    rw [pduCb_wrRegister, write16_ok hok]
  · show _ ↔ WriteN16Ok mem.header src end_ ∧ ∀ k < (rd16 src 3).toNat, RegisterOk src k
    refine accepted_iff_of (fun hok => ?_) fun hbad => ?_
    · rw [pduCb_wrRegisters, writeN16_ok hok.1 hok.2]
    · rw [pduCb_wrRegisters]
      by_cases hok : WriteN16Ok mem.header src end_
      · rcases registers_cases src (rd16 src 3).toNat with hall | ⟨j, hj, hgood, hreg⟩
        · exact absurd ⟨hok, hall⟩ hbad
        · rw [writeN16_bad hok hj hgood hreg]
      · exact (writeN16_refused hok _).exception
  · show _ ↔ ReadN8Ok w mem.header src end_
    refine accepted_iff_of (fun hok => ?_) fun hbad => (readN8_refused hbad _).exception
    rw [pduCb_rdBytes, readN8_ok hok]
  · show _ ↔ WriteN8Ok mem.header src end_
    refine accepted_iff_of (fun hok => ?_) fun hbad => (writeN8_refused hbad _).exception
    rw [pduCb_wrBytes, writeN8_ok hok]
  · rw [pduCb_unsupported w mem src end_ 1 hunsup]
    exact iff_of_false (by simp [except]) (not_passesChecks hunsup)

theorem AgreeBefore.symm (hsame : AgreeBefore end_ src src') : AgreeBefore end_ src' src :=
  fun i hi => (hsame i hi).symm

/-- The checks are about bytes of the request. -/
theorem AgreeBefore.passesChecks (hsame : AgreeBefore end_ src src')
    (hpass : PassesChecks w h fcode src end_) : PassesChecks w h fcode src' end_ := by
  rcases fcode_cases fcode with rfl | rfl | rfl | rfl | rfl | hunsup
  · obtain ⟨hsize, hrest⟩ : ReadN16Ok w h src end_ := hpass
    rw [hsame.word (i := 1) (by omega), hsame.word (i := 3) (by omega)] at hrest
    exact ⟨hsize, hrest⟩
  · obtain ⟨hsize, hrest⟩ : Write16Ok h src end_ := hpass
    rw [hsame.word (i := 1) (by omega), hsame.word (i := 3) (by omega)] at hrest
    exact ⟨hsize, hrest⟩
  · obtain ⟨⟨hsize, haddr, hnum, hdouble, hend⟩, hall⟩ :
      WriteN16Ok h src end_ ∧ ∀ k < (rd16 src 3).toNat, RegisterOk src k := hpass
    have hregister : ∀ k < (rd16 src 3).toNat, RegisterOk src' k := by
      intro k hk
      rw [RegisterOk, ← hsame.word (by omega)]
      exact hall k hk
    rw [hsame.word (i := 1) (by omega)] at haddr
    rw [hsame 5 (by omega)] at hdouble hend
    rw [hsame.word (i := 3) (by omega)] at hnum hdouble hregister
    exact ⟨⟨hsize, haddr, hnum, hdouble, hend⟩, hregister⟩
  · obtain ⟨hsize, hrest⟩ : ReadN8Ok w h src end_ := hpass
    rw [hsame.word (i := 1) (by omega), hsame 3 (by omega)] at hrest
    exact ⟨hsize, hrest⟩
  · obtain ⟨hsize, hrest⟩ : WriteN8Ok h src end_ := hpass
    rw [hsame.word (i := 1) (by omega), hsame 3 (by omega)] at hrest
    exact ⟨hsize, hrest⟩
  · exact absurd hpass (not_passesChecks hunsup)

/-- Whether a request is accepted does not depend on the bytes behind it. -/
theorem callWith_accepted_iff (payload tail : List UInt8) :
    (callWith w mem fcode payload tail).exception = false ↔
      PassesChecks w mem.header fcode payload payload.length := by
  have hsame := agreeBefore_append payload tail []
  rw [List.append_nil] at hsame
  rw [callWith, pduCb_accepted_iff]
  exact ⟨hsame.passesChecks, hsame.symm.passesChecks⟩

end

end ModbusRtu
