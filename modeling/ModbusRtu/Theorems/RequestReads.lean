import ModbusRtu.Logic.RequestBytes

/-!
# Which request bytes a handler reads

A handler compares the length of the request once with the size of its fixed
fields and then reads through a moving pointer. `reads_only_request_iff` says for
which requests every byte read is one of the request, and for which the answer does
not depend on the bytes behind it. Both fail for the same requests: the register
writes that end in front of their byte count, a field that the size `write_n16`
asks for does not include.
-/

namespace ModbusRtu

/-- No byte at `end` or behind it has been read. -/
def Ctx.ReadsInside (end_ : Nat) (c : Ctx) : Prop := ∀ i ∈ c.fetched, i < end_

/-- A register write without a byte count, whose other checks pass. -/
def LacksByteCount (h : Header) (fcode : UInt8) (payload : List UInt8) : Prop :=
  fcode = fcodeWrRegisters ∧ payload.length = 5 ∧ WriteN16Head h payload

instance (h : Header) (fcode : UInt8) (payload : List UInt8) :
    Decidable (LacksByteCount h fcode payload) := inferInstanceAs (Decidable (_ ∧ _))

/-! ## Offsets read -/

namespace Ctx

variable {end_ : Nat} {c : Ctx}

@[simp] theorem readsInside_start (bytes : Int → UInt8) : (start bytes).ReadsInside end_ :=
  fun _ hi => absurd hi List.not_mem_nil

@[simp] theorem readsInside_fetch (i n : Nat) :
    (c.fetch i (n + 1)).ReadsInside end_ ↔ c.ReadsInside end_ ∧ i + n < end_ := by
  simp only [ReadsInside, fetch, List.mem_append, List.mem_range'_1]
  constructor
  · intro h
    exact ⟨fun j hj => h j (.inl hj), h (i + n) (.inr ⟨by omega, by omega⟩)⟩
  · rintro ⟨h, hlast⟩ j (hj | hj)
    · exact h j hj
    · omega

end Ctx

section

variable {w : IntWidth} {h : Header} {src : List UInt8} {end_ : Nat} {mem : RtuMemory}

theorem readN16_readsInside :
    (readN16 w h src end_ 1 (.start mem.bytes)).ctx.ReadsInside end_ := by
  by_cases hok : ReadN16Ok w h src end_
  · have hsize := hok.1
    rw [readN16_ok hok]
    show (((Ctx.start mem.bytes).fetch 1 2).fetch 3 2).ReadsInside end_
    simp
    omega
  · simp only [readN16, Nat.reduceAdd]
    split_ifs with hsize haddr hnum hend
    · simp [except]
    · exact absurd ⟨by omega, ⟨haddr.2, haddr.1⟩, hnum, hend⟩ hok
    all_goals
      simp [except]
      omega

theorem readN8_readsInside :
    (readN8 w h src end_ 1 (.start mem.bytes)).ctx.ReadsInside end_ := by
  by_cases hok : ReadN8Ok w h src end_
  · have hsize := hok.1
    rw [readN8_ok hok]
    show ((((Ctx.start mem.bytes).fetch 1 2).fetch 3 1).fetch 0 4).ReadsInside end_
    simp
    omega
  · simp only [readN8, Nat.reduceAdd]
    split_ifs with hsize haddr hnum hend
    · simp [except]
    · exact absurd ⟨by omega, ⟨haddr.2, haddr.1⟩, hnum, hend⟩ hok
    all_goals
      simp [except]
      omega

theorem write16_readsInside :
    (write16 w h src end_ 1 (.start mem.bytes)).ctx.ReadsInside end_ := by
  by_cases hok : Write16Ok h src end_
  · have hsize := hok.1
    rw [write16_ok hok]
    show ((((Ctx.start mem.bytes).fetch 1 2).fetch 3 2).fetch 0 5).ReadsInside end_
    simp
    omega
  · simp only [write16, Nat.reduceAdd]
    split_ifs with hsize haddr hdata
    · simp [except]
    case neg =>
      refine absurd ⟨by omega, haddr, ?_⟩ hok
      exact not_not.mp fun hne => hdata ((and_FF00_ne_zero_iff _).mpr hne)
    all_goals
      simp [except]
      omega

theorem writeN8_readsInside :
    (writeN8 h src end_ 1 (.start mem.bytes)).ctx.ReadsInside end_ := by
  by_cases hok : WriteN8Ok h src end_
  · have hsize := hok.1
    have hend := hok.2.2.2
    rw [writeN8_ok hok]
    intro i hi
    simp only [Ctx.start, List.nil_append, List.mem_append, List.mem_range'_1] at hi
    omega
  · simp only [writeN8, Nat.reduceAdd]
    split_ifs with hsize haddr hnum hend
    · simp [except]
    case neg => exact absurd ⟨by omega, haddr, hnum, by omega⟩ hok
    all_goals
      simp [except]
      omega

/-- The byte count is read behind a request of five bytes. -/
theorem writeN16_readsInside
    (hcount : ¬(end_ = 5 ∧ WriteN16Head h src)) :
    (writeN16 h src end_ 1 (.start mem.bytes)).ctx.ReadsInside end_ := by
  by_cases hok : WriteN16Ok h src end_
  · have hsize := hok.1
    have hdouble := hok.2.2.2.1
    have hend := hok.2.2.2.2
    intro i hi
    rcases registers_cases src (rd16 src 3).toNat with hall | ⟨j, hj, hgood, hbad⟩
    · rw [writeN16_ok hok hall] at hi
      simp only [Ctx.start, List.nil_append, List.mem_append, List.mem_range'_1] at hi
      omega
    · rw [writeN16_bad hok hj hgood hbad] at hi
      simp only [Ctx.start, List.nil_append, List.mem_append, List.mem_range'_1] at hi
      omega
  · simp only [writeN16, Nat.reduceAdd]
    split_ifs with hsize haddr hnum hdouble hend
    · simp [except]
    · have hfive : end_ ≠ 5 := fun he => hcount ⟨he, haddr, hnum⟩
      simp [except]
      omega
    · have hfive : end_ ≠ 5 := fun he => hcount ⟨he, haddr, hnum⟩
      simp [except]
      omega
    · have hshift := shiftLeft_one_toNat (UInt16.lt_trans hnum.2 (by decide))
      exact absurd ⟨by omega, haddr, hnum, by omega, by omega⟩ hok
    all_goals
      simp [except]
      omega

end

/-! ## The callback -/

/-- Whatever is behind the request, it is not read. -/
def ReadsNothingBehind (w : IntWidth) (mem : RtuMemory) (fcode : UInt8) (payload : List UInt8) :
    Prop :=
  ∀ tail, (callWith w mem fcode payload tail).ctx.ReadsInside payload.length

/-- Whatever is behind the request, the reply and the memory are the same. -/
def IgnoresBehind (w : IntWidth) (mem : RtuMemory) (fcode : UInt8) (payload : List UInt8) : Prop :=
  ∀ tail tail',
    (callWith w mem fcode payload tail).reply = (callWith w mem fcode payload tail').reply ∧
      (callWith w mem fcode payload tail).ctx.bytes = (callWith w mem fcode payload tail').ctx.bytes

section

variable (w : IntWidth) {mem : RtuMemory} {fcode : UInt8} {payload : List UInt8}

/-- The fields of a payload of five bytes are in front of what is behind it. -/
theorem lacksByteCount_append (hlack : ¬LacksByteCount mem.header fcodeWrRegisters payload)
    (tail : List UInt8) :
    ¬(payload.length = 5 ∧ WriteN16Head mem.header (payload ++ tail)) := by
  rintro ⟨hlen, hhead⟩
  have hsame := agreeBefore_append payload tail []
  rw [List.append_nil] at hsame
  rw [WriteN16Head, hsame.word (i := 1) (by omega), hsame.word (i := 3) (by omega)] at hhead
  exact hlack ⟨rfl, hlen, hhead⟩

theorem callWith_readsInside (hlack : ¬LacksByteCount mem.header fcode payload)
    (tail : List UInt8) : (callWith w mem fcode payload tail).ctx.ReadsInside payload.length := by
  rcases fcode_cases fcode with rfl | rfl | rfl | rfl | rfl | hunsup
  · exact readN16_readsInside
  · exact write16_readsInside
  · exact writeN16_readsInside (lacksByteCount_append hlack tail)
  · exact readN8_readsInside
  · exact writeN8_readsInside
  · rw [callWith, pduCb_unsupported w mem _ _ 1 hunsup]
    exact Ctx.readsInside_start _

theorem callWith_congr (hlack : ¬LacksByteCount mem.header fcode payload)
    (tail tail' : List UInt8) :
    callWith w mem fcode payload tail = callWith w mem fcode payload tail' := by
  have hsame := agreeBefore_append payload tail tail'
  rcases fcode_cases fcode with rfl | rfl | rfl | rfl | rfl | hunsup
  · exact readN16_congr hsame
  · exact write16_congr hsame
  · exact writeN16_congr hsame (lacksByteCount_append hlack tail)
  · exact readN8_congr hsame
  · exact writeN8_congr hsame
  · rw [callWith, callWith, pduCb_unsupported w mem _ _ 1 hunsup,
      pduCb_unsupported w mem _ _ 1 hunsup]

/-- The byte behind the request decides which exception it gets. -/
theorem lacksByteCount_reply (hlack : LacksByteCount mem.header fcode payload) (b : UInt8) :
    (callWith w mem fcode payload [b]).ctx.fetched = [1, 2, 3, 4, 5] ∧
      (callWith w mem fcode payload [b]).reply =
        [fcodeWrRegisters + 0x80,
          if b.toNat = 2 * (rd16 payload 3).toNat then ecodeFormatError
          else ecodeIllegalDataValue] := by
  obtain ⟨rfl, hlen, haddr, hnum⟩ := hlack
  have hsame := agreeBefore_append payload [b] []
  rw [List.append_nil] at hsame
  have hbyte : rd8 (payload ++ [b]) 5 = b := by
    rw [rd8, ← hlen, List.getD_append_right _ _ _ _ (Nat.le_refl _), Nat.sub_self]
    rfl
  have hshift := shiftLeft_one_toNat (UInt16.lt_trans hnum.2 (by decide))
  rw [callWith, pduCb_wrRegisters]
  simp only [writeN16, Nat.reduceAdd]
  rw [hsame.word (i := 1) (by omega), hsame.word (i := 3) (by omega), hbyte, hlen,
    if_neg (by omega), if_neg (not_not.mpr haddr), if_neg (not_not.mpr hnum), hshift]
  by_cases hdouble : b.toNat = 2 * (rd16 payload 3).toNat
  · rw [if_neg (not_not.mpr hdouble), if_pos (by omega), if_pos hdouble]
    exact ⟨rfl, rfl⟩
  · rw [if_pos hdouble, if_neg hdouble]
    exact ⟨rfl, rfl⟩

end

/-- For every function code and payload: the handler reads nothing behind the
request, and its answer does not depend on what is there, exactly unless the
request is a register write without a byte count whose other checks pass. -/
theorem reads_only_request_iff (w : IntWidth) (mem : RtuMemory) (fcode : UInt8)
    (payload : List UInt8) :
    (ReadsNothingBehind w mem fcode payload ↔ ¬LacksByteCount mem.header fcode payload) ∧
      (IgnoresBehind w mem fcode payload ↔ ¬LacksByteCount mem.header fcode payload) := by
  refine ⟨⟨?_, callWith_readsInside w⟩, ⟨?_, ?_⟩⟩
  · intro h hlack
    have hfetched := (lacksByteCount_reply w hlack 0).1
    have hread := h [0] 5 (by rw [hfetched]; simp)
    rw [hlack.2.1] at hread
    exact absurd hread (Nat.lt_irrefl 5)
  · intro h hlack
    have hlt : (rd16 payload 3).toNat < 124 := UInt16.lt_iff_toNat_lt.mp hlack.2.2.2.2
    -- the right byte count, and an odd one
    have hright : (UInt8.ofNat (2 * (rd16 payload 3).toNat)).toNat =
        2 * (rd16 payload 3).toNat := by
      rw [UInt8.toNat_ofNat', Nat.mod_eq_of_lt (by omega)]
    have hodd : (1 : UInt8).toNat ≠ 2 * (rd16 payload 3).toNat := by
      show 1 ≠ _
      omega
    have heq := (h [.ofNat (2 * (rd16 payload 3).toNat)] [1]).1
    rw [(lacksByteCount_reply w hlack _).2, (lacksByteCount_reply w hlack _).2, if_pos hright,
      if_neg hodd] at heq
    exact absurd heq (by decide)
  · intro hlack tail tail'
    rw [callWith_congr w hlack tail tail']
    exact ⟨rfl, rfl⟩

/-- One register to be written, and then the end of the request: the byte behind
it is read, and decides between two exceptions. -/
theorem missing_byte_count_read :
    let mem : RtuMemory := { header := ⟨0x1000, 0x1400⟩, bytes := fun _ => 0 }
    let payload : List UInt8 := [0x10, 0x10, 0, 0, 1]
    ¬ReadsNothingBehind .int32 mem fcodeWrRegisters payload ∧
      ¬IgnoresBehind .int32 mem fcodeWrRegisters payload := by
  intro mem payload
  constructor
  · intro h
    exact absurd (h [2] 5 (by decide)) (by decide)
  · intro h
    exact absurd (h [2] [0]).1 (by decide)

end ModbusRtu
