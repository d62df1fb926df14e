import ModbusRtu.Base.Scatter
import ModbusRtu.Logic.Words

/-!
# What the request handlers do

Each handler is a list of checks and then one loop. The checks of a handler
are collected in one condition (`ReadN16Ok`, …); a request that fails it is
`Refused`: an exception reply of two bytes, no cell accessed. A request that
passes is described by one equation per handler:

* reads (`readN16_ok`, `readN8_ok`): the addressed cells, in order;
* writes (`write16_ok`, `writeN8_ok`): the addressed cells updated, the head
  of the request echoed;
* the register write checks each register between its stores, so it has two
  outcomes (`writeN16_ok`, `writeN16_bad`).

Everything is about `curr = begin + 1`, as the callback is called.
-/

namespace ModbusRtu

open Base

/-! ## Cells -/

/-- The cell of round `k` of a loop that starts at `addr`: a wrapped offset. -/
def cellAt (h : Header) (addr : UInt16) (k : Nat) : Int :=
  ((addr - h.addrBegin) + UInt16.ofNat k).toNat

/-- The cells of the first `n` rounds. -/
def cells (h : Header) (addr : UInt16) (n : Nat) : List Int := (List.range n).map (cellAt h addr)

theorem cellAt_eq (h : Header) (addr : UInt16) (k : Nat) :
    cellAt h addr k = ((65536 + addr.toNat - h.addrBegin.toNat + k) % 65536 : Nat) := by
  have ha : addr.toNat < 65536 := addr.toNat_lt
  have hb : h.addrBegin.toNat < 65536 := h.addrBegin.toNat_lt
  rw [cellAt, UInt16.toNat_add, UInt16.toNat_sub, UInt16.toNat_ofNat']
  omega

/-- A loop of fewer than 2^16 rounds meets no cell twice. -/
theorem cellAt_inj {h : Header} {addr : UInt16} {n : Nat} (hn : n ≤ 65536) :
    ∀ k < n, ∀ j < n, cellAt h addr k = cellAt h addr j → k = j := by
  intro k hk j hj heq
  have ha : addr.toNat < 65536 := addr.toNat_lt
  have hb : h.addrBegin.toNat < 65536 := h.addrBegin.toNat_lt
  rw [cellAt_eq, cellAt_eq] at heq
  omega

theorem mem_cells {h : Header} {addr : UInt16} {n : Nat} {i : Int} :
    i ∈ cells h addr n ↔ ∃ k < n, cellAt h addr k = i := by
  simp [cells]

/-- The cell lies in the window. -/
def Header.InWindow (h : Header) (i : Int) : Prop := 0 ≤ i ∧ i < h.size

instance (h : Header) (i : Int) : Decidable (h.InWindow i) := inferInstanceAs (Decidable (_ ∧ _))

/-- Some of the `n` addresses from `addr` on is outside the window. -/
def Header.Outside (h : Header) (addr : UInt16) (n : Nat) : Prop :=
  addr < h.addrBegin ∨ h.addrEnd.toNat < addr.toNat + n

instance (h : Header) (addr : UInt16) (n : Nat) : Decidable (h.Outside addr n) :=
  inferInstanceAs (Decidable (_ ∨ _))

/-- A range inside the window is accessed cell by cell, without wrapping. -/
theorem cellAt_of_not_outside {h : Header} {addr : UInt16} {n k : Nat} (hin : ¬h.Outside addr n)
    (hk : k < n) : cellAt h addr k = (addr.toNat - h.addrBegin.toNat + k : Nat) := by
  have ha : addr.toNat < 65536 := addr.toNat_lt
  have he : h.addrEnd.toNat < 65536 := h.addrEnd.toNat_lt
  rw [Header.Outside, UInt16.lt_iff_toNat_lt] at hin
  rw [cellAt_eq]
  omega

theorem inWindow_cellAt {h : Header} {addr : UInt16} {n k : Nat} (hin : ¬h.Outside addr n)
    (hk : k < n) : h.InWindow (cellAt h addr k) := by
  rw [cellAt_of_not_outside hin hk, Header.InWindow, Header.size]
  rw [Header.Outside, UInt16.lt_iff_toNat_lt] at hin
  omega

/-- A range that starts below `addr_end` and is not inside the window is
accessed outside it: the wrapped offsets of the addresses below the window and
the offset of `addr_end` itself both lie behind the last cell. -/
theorem exists_cellAt_of_outside {h : Header} {addr : UInt16} {n : Nat} (hout : h.Outside addr n)
    (hn : 0 < n) (haddr : addr < h.addrEnd) : ∃ k < n, ¬h.InWindow (cellAt h addr k) := by
  have ha : addr.toNat < 65536 := addr.toNat_lt
  have he : h.addrEnd.toNat < 65536 := h.addrEnd.toNat_lt
  rw [UInt16.lt_iff_toNat_lt] at haddr
  by_cases hlow : addr < h.addrBegin
  · -- below the window, already the first offset wraps behind the last cell
    refine ⟨0, hn, ?_⟩
    rw [UInt16.lt_iff_toNat_lt] at hlow
    rw [cellAt_eq, Header.InWindow, Header.size]
    omega
  · -- else the loop comes to `addr_end` itself
    have hhigh : h.addrEnd.toNat < addr.toNat + n := hout.resolve_left hlow
    refine ⟨h.addrEnd.toNat - addr.toNat, by omega, ?_⟩
    rw [UInt16.lt_iff_toNat_lt] at hlow
    rw [cellAt_eq, Header.InWindow, Header.size]
    omega

/-- All accessed cells are in the window exactly if the addressed range is. -/
theorem cells_inWindow_iff {h : Header} {addr : UInt16} {n : Nat} (hn : 0 < n)
    (haddr : addr < h.addrEnd) :
    (∀ i ∈ cells h addr n, h.InWindow i) ↔ ¬h.Outside addr n := by
  constructor
  · intro hall hout
    obtain ⟨k, hk, hbad⟩ := exists_cellAt_of_outside hout hn haddr
    exact hbad (hall _ (mem_cells.mpr ⟨k, hk, rfl⟩))
  · intro hin i hi
    obtain ⟨k, hk, rfl⟩ := mem_cells.mp hi
    exact inWindow_cellAt hin hk

/-! ## Refused requests -/

/-- The request was answered with an exception before any cell was accessed. -/
structure Refused (c : Ctx) (outcome : Outcome) : Prop where
  exception : outcome.exception = true
  bytes : outcome.ctx.bytes = c.bytes
  touched : outcome.ctx.touched = c.touched
  reply : ∃ fcode ecode, outcome.reply = [fcode + 0x80, ecode]

/-- The handler for `fcode`, whose shortest request has `size` bytes, ends in
`except` before it accesses a cell. -/
def ExceptsAs (fcode : UInt8) (size end_ : Nat) (c : Ctx) (outcome : Outcome) : Prop :=
  ∃ c' ecode, ecode ≠ 0 ∧ c'.bytes = c.bytes ∧ c'.touched = c.touched ∧
    outcome = except c' (if end_ < size then fcodeWrBytes else fcode) ecode

section

variable {fcode ecode : UInt8} {size end_ : Nat} {c c' : Ctx} {outcome : Outcome}

/-- All handlers answer a request that is too short as `write_n8` does. -/
theorem exceptsAs_short (hshort : end_ < size) (hb : c'.bytes = c.bytes)
    (ht : c'.touched = c.touched) :
    ExceptsAs fcode size end_ c (except c' fcodeWrBytes ecodeFormatError) :=
  ⟨c', ecodeFormatError, by decide, hb, ht, by rw [if_pos hshort]⟩

theorem exceptsAs_other (hsize : ¬end_ < size) (hb : c'.bytes = c.bytes)
    (ht : c'.touched = c.touched) (hecode : ecode ≠ 0 := by decide) :
    ExceptsAs fcode size end_ c (except c' fcode ecode) :=
  ⟨c', ecode, hecode, hb, ht, by rw [if_neg hsize]⟩

theorem ExceptsAs.refused (h : ExceptsAs fcode size end_ c outcome) : Refused c outcome := by
  obtain ⟨c', ecode, -, hb, ht, rfl⟩ := h
  exact ⟨rfl, hb, ht, _, ecode, rfl⟩

end

/-! ## The loops -/

/-- A loop from `i` to `i + n` makes `n` rounds. -/
theorem add_sub_self (i n : UInt16) : i + n - i = n := by
  rw [UInt16.add_comm, UInt16.add_sub_cancel]

/-- A read loop appends what it makes of each cell to the reply. -/
theorem foldl_read (cell : Nat → Int) (f : UInt8 → List UInt8) (n : Nat) (c : Ctx)
    (out : List UInt8) :
    (List.range n).foldl
        (fun (st : Ctx × List UInt8) k => (st.1.touch (cell k), st.2 ++ f (st.1.bytes (cell k))))
        (c, out) =
      ({ c with touched := c.touched ++ (List.range n).map cell },
        out ++ (List.range n).flatMap fun k => f (c.bytes (cell k))) := by
  induction n with
  | zero => simp
  | succ n ih =>
      rw [List.range_succ, List.foldl_append, ih]
      simp [Ctx.touch]

/-- The state of a write loop after `n` rounds of `width` request bytes each. -/
def wrote (cell : Nat → Int) (width : Nat) (val : Nat → UInt8) (c : Ctx) (curr n : Nat) :
    Ctx × Nat :=
  ({ bytes := scatter c.bytes cell (fun k => val (curr + width * k)) n
     touched := c.touched ++ (List.range n).map cell
     fetched := c.fetched ++ List.range' curr (width * n) }, curr + width * n)

section WriteLoop

variable (cell : Nat → Int) (width : Nat) (val : Nat → UInt8) (c : Ctx) (curr : Nat)

theorem wrote_zero : wrote cell width val c curr 0 = (c, curr) := by simp [wrote]

/-- One more round. -/
theorem wrote_succ (n : Nat) :
    wrote cell width val c curr (n + 1) =
      (((wrote cell width val c curr n).1.fetch (curr + width * n) width).store (cell n)
          (val (curr + width * n)),
        curr + width * n + width) := by
  simp only [wrote, List.range_succ, scatter_succ, Ctx.fetch, Ctx.store, Ctx.touch,
    List.map_append, List.map_cons, List.map_nil, List.append_assoc, Nat.mul_succ, Nat.add_assoc]
  rw [← List.range'_append_1]

/-- A write loop without checks. -/
theorem foldl_write (n : Nat) :
    (List.range n).foldl
        (fun (st : Ctx × Nat) k =>
          ((st.1.fetch st.2 width).store (cell k) (val st.2), st.2 + width)) (c, curr) =
      wrote cell width val c curr n := by
  induction n with
  | zero => rw [wrote_zero]; rfl
  | succ n ih =>
      rw [List.range_succ, List.foldl_append, ih, wrote_succ]
      rfl

variable (bad : Nat → Prop) [DecidablePred bad] (fail : Ctx → Outcome)

/-- The body of a write loop that checks each element before it stores it. -/
def checkedWrite (st : Ctx × Nat) (k : Nat) : Except Outcome (Ctx × Nat) :=
  let c := st.1.fetch st.2 width
  if bad st.2 then .error (fail c) else .ok (c.store (cell k) (val st.2), st.2 + width)

theorem checkedWrite_wrote_ok {n : Nat} (hgood : ¬bad (curr + width * n)) :
    checkedWrite cell width val bad fail (wrote cell width val c curr n) n =
      .ok (wrote cell width val c curr (n + 1)) := by
  rw [wrote_succ]
  exact if_neg hgood

theorem checkedWrite_wrote_error {n : Nat} (hbad : bad (curr + width * n)) :
    checkedWrite cell width val bad fail (wrote cell width val c curr n) n =
      .error (fail ((wrote cell width val c curr n).1.fetch (curr + width * n) width)) :=
  if_pos hbad

/-- As long as every element passes, the checks change nothing. -/
theorem foldlM_checkedWrite_ok {n : Nat} (hgood : ∀ k < n, ¬bad (curr + width * k)) :
    (List.range n).foldlM (checkedWrite cell width val bad fail) (c, curr) =
      .ok (wrote cell width val c curr n) := by
  induction n with
  | zero => rw [wrote_zero]; rfl
  | succ n ih =>
      have hstep := checkedWrite_wrote_ok cell width val c curr bad fail (hgood n (by omega))
      rw [List.range_succ, List.foldlM_append, ih fun k hk => hgood k (by omega)]
      show (checkedWrite cell width val bad fail _ n >>= pure) = _
      rw [hstep]
      rfl

/-- The first element that fails ends the loop; what came before it is stored. -/
theorem foldlM_checkedWrite_error {n j : Nat} (hj : j < n)
    (hgood : ∀ k < j, ¬bad (curr + width * k)) (hbad : bad (curr + width * j)) :
    (List.range n).foldlM (checkedWrite cell width val bad fail) (c, curr) =
      .error (fail ((wrote cell width val c curr j).1.fetch (curr + width * j) width)) := by
  -- the rounds before `j`, round `j`, and the `m` rounds that are not reached
  obtain ⟨m, rfl⟩ : ∃ m, n = j + (m + 1) := ⟨n - j - 1, by omega⟩
  have hstep := checkedWrite_wrote_error cell width val c curr bad fail hbad
  rw [List.range_add, List.range_succ_eq_map, List.map_cons, List.foldlM_append,
    foldlM_checkedWrite_ok cell width val c curr bad fail hgood]
  show (checkedWrite cell width val bad fail _ j >>= _) = _
  rw [hstep]
  rfl

end WriteLoop

/-! ## The checks, one condition a handler -/

/-- How a handler ends that answers the request: with what its last step left. -/
def answered (st : Ctx × List UInt8) : Outcome := { ctx := st.1, exception := false, reply := st.2 }

section

variable (w : IntWidth) (h : Header) (src : List UInt8) (end_ : Nat)

/-- The checks of `read_n16`. -/
def ReadN16Ok : Prop :=
  5 ≤ end_ ∧ (h.addrBegin ≤ rd16 src 1 ∧ rd16 src 1 < h.addrEnd) ∧
    (0 < rd16 src 3 ∧ rd16 src 3 < 0x7E) ∧ w.add (rd16 src 1) (rd16 src 3) ≤ h.addrEnd.toNat

instance : Decidable (ReadN16Ok w h src end_) := inferInstanceAs (Decidable (_ ∧ _))

variable {w h src end_}

theorem readN16_ok (hok : ReadN16Ok w h src end_) (c : Ctx) :
    readN16 w h src end_ 1 c =
      { ctx :=
          { c with
            touched := c.touched ++ cells h (rd16 src 1) (rd16 src 3).toNat
            fetched := c.fetched ++ List.range' 1 2 ++ List.range' 3 2 }
        exception := false
        reply := [fcodeRdHoldingRegisters, (rd16 src 3 <<< 1).toUInt8] ++
          (List.range (rd16 src 3).toNat).flatMap fun k =>
            wr16 (c.bytes (cellAt h (rd16 src 1) k)).toUInt16 } := by
  obtain ⟨hsize, haddr, hnum, hend⟩ := hok
  have hloop := foldl_read (cellAt h (rd16 src 1)) (fun x => wr16 x.toUInt16) (rd16 src 3).toNat
    ((c.fetch 1 2).fetch 3 2) [fcodeRdHoldingRegisters, (rd16 src 3 <<< 1).toUInt8]
  simp only [readN16, Nat.reduceAdd]
  rw [if_neg (by omega), if_neg (not_not.mpr ⟨haddr.2, haddr.1⟩), if_neg (not_not.mpr hnum),
    if_neg (not_not.mpr hend), forU16_id, add_sub_self]
  exact congrArg answered hloop

theorem readN16_exceptsAs (hbad : ¬ReadN16Ok w h src end_) (c : Ctx) :
    ExceptsAs fcodeRdHoldingRegisters 5 end_ c (readN16 w h src end_ 1 c) := by
  simp only [readN16, Nat.reduceAdd]
  split_ifs with hsize haddr hnum hend
  · exact exceptsAs_short hsize rfl rfl
  · exact absurd ⟨by omega, ⟨haddr.2, haddr.1⟩, hnum, hend⟩ hbad
  all_goals exact exceptsAs_other hsize rfl rfl

theorem readN16_refused (hbad : ¬ReadN16Ok w h src end_) (c : Ctx) :
    Refused c (readN16 w h src end_ 1 c) :=
  (readN16_exceptsAs hbad c).refused

/-! ### `read_n8` -/

variable (w h src end_) in
/-- The checks of `read_n8`. -/
def ReadN8Ok : Prop :=
  4 ≤ end_ ∧ (h.addrBegin ≤ rd16 src 1 ∧ rd16 src 1 < h.addrEnd) ∧
    (0 < rd8 src 3 ∧ rd8 src 3 < 250) ∧
    w.add (rd16 src 1) (rd8 src 3).toUInt16 ≤ h.addrEnd.toNat

instance : Decidable (ReadN8Ok w h src end_) := inferInstanceAs (Decidable (_ ∧ _))

theorem readN8_ok (hok : ReadN8Ok w h src end_) (c : Ctx) :
    readN8 w h src end_ 1 c =
      { ctx :=
          { c with
            touched := c.touched ++ cells h (rd16 src 1) (rd8 src 3).toNat
            fetched := c.fetched ++ List.range' 1 2 ++ List.range' 3 1 ++ List.range' 0 4 }
        exception := false
        reply := (List.range 4).map (rd8 src) ++
          (List.range (rd8 src 3).toNat).map fun k => c.bytes (cellAt h (rd16 src 1) k) } := by
  obtain ⟨hsize, haddr, hnum, hend⟩ := hok
  have hloop := foldl_read (cellAt h (rd16 src 1)) (fun x => [x]) (rd8 src 3).toNat
    (((c.fetch 1 2).fetch 3 1).fetch 0 4) ((List.range 4).map (rd8 src))
  rw [← List.map_eq_flatMap] at hloop
  simp only [readN8, Nat.reduceAdd]
  rw [if_neg (by omega), if_neg (not_not.mpr ⟨haddr.2, haddr.1⟩), if_neg (not_not.mpr hnum),
    if_neg (not_not.mpr hend), forU16_id, add_sub_self]
  exact congrArg answered hloop

theorem readN8_exceptsAs (hbad : ¬ReadN8Ok w h src end_) (c : Ctx) :
    ExceptsAs fcodeRdBytes 4 end_ c (readN8 w h src end_ 1 c) := by
  simp only [readN8, Nat.reduceAdd]
  split_ifs with hsize haddr hnum hend
  · exact exceptsAs_short hsize rfl rfl
  · exact absurd ⟨by omega, ⟨haddr.2, haddr.1⟩, hnum, hend⟩ hbad
  all_goals exact exceptsAs_other hsize rfl rfl

theorem readN8_refused (hbad : ¬ReadN8Ok w h src end_) (c : Ctx) :
    Refused c (readN8 w h src end_ 1 c) :=
  (readN8_exceptsAs hbad c).refused

/-- Reads store nothing. -/
theorem readN16_bytes (c : Ctx) : (readN16 w h src end_ 1 c).ctx.bytes = c.bytes := by
  by_cases hok : ReadN16Ok w h src end_
  · rw [readN16_ok hok]
  · exact (readN16_refused hok c).bytes

theorem readN8_bytes (c : Ctx) : (readN8 w h src end_ 1 c).ctx.bytes = c.bytes := by
  by_cases hok : ReadN8Ok w h src end_
  · rw [readN8_ok hok]
  · exact (readN8_refused hok c).bytes

/-! ### `write_16` -/

variable (h src end_) in
/-- The checks of `write_16`. -/
def Write16Ok : Prop :=
  5 ≤ end_ ∧ rd16 src 1 < h.addrEnd ∧ highByte (rd16 src 3) = 0

instance : Decidable (Write16Ok h src end_) := inferInstanceAs (Decidable (_ ∧ _))

/-- On a 16-bit target the index of a store below the window wraps. -/
def write16Cell (w : IntWidth) (h : Header) (src : List UInt8) : Int :=
  w.sub (rd16 src 1) h.addrBegin

theorem write16_ok (hok : Write16Ok h src end_) (c : Ctx) :
    write16 w h src end_ 1 c =
      { ctx :=
          { bytes := Function.update c.bytes (write16Cell w h src) (lowByte (rd16 src 3))
            touched := c.touched ++ [write16Cell w h src]
            fetched := c.fetched ++ List.range' 1 2 ++ List.range' 3 2 ++ List.range' 0 5 }
        exception := false
        reply := (List.range 5).map (rd8 src) } := by
  obtain ⟨hsize, haddr, hdata⟩ := hok
  simp only [write16, Nat.reduceAdd]
  rw [if_neg (by omega), if_neg (not_not.mpr haddr),
    if_neg (fun hbad => (and_FF00_ne_zero_iff _).mp hbad hdata), toUInt8_eq_lowByte]
  rfl

theorem write16_exceptsAs (hbad : ¬Write16Ok h src end_) (c : Ctx) :
    ExceptsAs fcodeWrRegister 5 end_ c (write16 w h src end_ 1 c) := by
  simp only [write16, Nat.reduceAdd]
  split_ifs with hsize haddr hdata
  · exact exceptsAs_short hsize rfl rfl
  case neg =>
    refine absurd ⟨by omega, haddr, ?_⟩ hbad
    exact not_not.mp fun hne => hdata ((and_FF00_ne_zero_iff _).mpr hne)
  all_goals exact exceptsAs_other hsize rfl rfl

theorem write16_refused (hbad : ¬Write16Ok h src end_) (c : Ctx) :
    Refused c (write16 w h src end_ 1 c) :=
  (write16_exceptsAs hbad c).refused

/-! ### `write_n8` -/

variable (h src end_) in
/-- The checks of `write_n8`. -/
def WriteN8Ok : Prop :=
  4 ≤ end_ ∧ rd16 src 1 < h.addrEnd ∧ (0 < rd8 src 3 ∧ rd8 src 3 < 250) ∧
    (rd8 src 3).toNat + 4 = end_

instance : Decidable (WriteN8Ok h src end_) := inferInstanceAs (Decidable (_ ∧ _))

theorem writeN8_ok (hok : WriteN8Ok h src end_) (c : Ctx) :
    writeN8 h src end_ 1 c =
      { ctx :=
          { bytes := scatter c.bytes (cellAt h (rd16 src 1)) (fun k => rd8 src (4 + k))
              (rd8 src 3).toNat
            touched := c.touched ++ cells h (rd16 src 1) (rd8 src 3).toNat
            fetched := c.fetched ++ List.range' 1 2 ++ List.range' 3 1 ++
              List.range' 4 (rd8 src 3).toNat ++ List.range' 0 4 }
        exception := false
        reply := (List.range 4).map (rd8 src) } := by
  obtain ⟨hsize, haddr, hnum, hend⟩ := hok
  have hloop := foldl_write (cellAt h (rd16 src 1)) 1 (rd8 src)
    ((c.fetch 1 2).fetch 3 1) 4 (rd8 src 3).toNat
  simp only [wrote, Nat.one_mul] at hloop
  simp only [writeN8, Nat.reduceAdd]
  rw [if_neg (by omega), if_neg (not_not.mpr haddr), if_neg (not_not.mpr hnum),
    if_neg (by push_cast; omega), forU16_id, add_sub_self]
  exact congrArg (fun st : Ctx × Nat => answered (echo st.1 src 4)) hloop

theorem writeN8_exceptsAs (hbad : ¬WriteN8Ok h src end_) (c : Ctx) :
    ExceptsAs fcodeWrBytes 4 end_ c (writeN8 h src end_ 1 c) := by
  simp only [writeN8, Nat.reduceAdd]
  split_ifs with hsize haddr hnum hend
  · exact exceptsAs_short hsize rfl rfl
  case neg =>
    exact absurd ⟨by omega, haddr, hnum, by omega⟩ hbad
  all_goals exact exceptsAs_other hsize rfl rfl

theorem writeN8_refused (hbad : ¬WriteN8Ok h src end_) (c : Ctx) :
    Refused c (writeN8 h src end_ 1 c) :=
  (writeN8_exceptsAs hbad c).refused

/-! ### `write_n16` -/

variable (h src end_) in
/-- The checks of `write_n16` before its loop. -/
def WriteN16Ok : Prop :=
  5 ≤ end_ ∧ rd16 src 1 < h.addrEnd ∧ (0 < rd16 src 3 ∧ rd16 src 3 < 0x7C) ∧
    (rd8 src 5).toNat = 2 * (rd16 src 3).toNat ∧ (rd8 src 5).toNat + 6 = end_

instance : Decidable (WriteN16Ok h src end_) := inferInstanceAs (Decidable (_ ∧ _))

/-- The high byte of register `k` of a register write is zero. -/
def RegisterOk (src : List UInt8) (k : Nat) : Prop := highByte (rd16 src (6 + 2 * k)) = 0

instance (src : List UInt8) (k : Nat) : Decidable (RegisterOk src k) :=
  inferInstanceAs (Decidable (_ = _))

/-- The memory after the first `n` registers of a register write. -/
def registersWritten (h : Header) (src : List UInt8) (bytes : Int → UInt8) (n : Nat) :
    Int → UInt8 :=
  scatter bytes (cellAt h (rd16 src 1)) (fun k => lowByte (rd16 src (6 + 2 * k))) n

/-- The body of the loop of `write_n16`. -/
def writeN16Body (h : Header) (src : List UInt8) : Ctx × Nat → Nat → Except Outcome (Ctx × Nat) :=
  checkedWrite (cellAt h (rd16 src 1)) 2 (fun i => lowByte (rd16 src i))
    (fun i => 0xFF00 &&& rd16 src i ≠ 0) (fun c => except c fcodeWrRegisters ecodeIllegalDataValue)

/-- How the loop of `write_n16` ends the call. -/
def writeN16End (src : List UInt8) : Except Outcome (Ctx × Nat) → Outcome
  | .error outcome => outcome
  | .ok (c, _) => answered (echo c src 5)

/-- A byte count is twice the register count. -/
theorem shiftLeft_one_toNat {num : UInt16} (hnum : num < 0x7E) :
    (num <<< 1).toNat = 2 * num.toNat := by
  have hlt : num.toNat < 126 := UInt16.lt_iff_toNat_lt.mp hnum
  rw [UInt16.toNat_shiftLeft, Nat.shiftLeft_eq, show (1 : UInt16).toNat % 16 = 1 from rfl,
    Nat.pow_one, Nat.mod_eq_of_lt (by omega), Nat.mul_comm]

/-- Once its checks have passed, `write_n16` is its loop. -/
theorem writeN16_loop (hok : WriteN16Ok h src end_) (c : Ctx) :
    writeN16 h src end_ 1 c =
      writeN16End src ((List.range (rd16 src 3).toNat).foldlM (writeN16Body h src)
        (((c.fetch 1 2).fetch 3 2).fetch 5 1, 6)) := by
  obtain ⟨hsize, haddr, hnum, hcount, hend⟩ := hok
  have hshift := shiftLeft_one_toNat (UInt16.lt_trans hnum.2 (by decide))
  simp only [writeN16, Nat.reduceAdd]
  rw [if_neg (by omega), if_neg (not_not.mpr haddr), if_neg (not_not.mpr hnum),
    if_neg (by omega), if_neg (by push_cast; omega), forU16_eq_foldlM, add_sub_self]
  simp only [toUInt8_eq_lowByte]
  rfl

/-- All registers have a zero high byte: all are stored. -/
theorem writeN16_ok (hok : WriteN16Ok h src end_)
    (hgood : ∀ k < (rd16 src 3).toNat, RegisterOk src k) (c : Ctx) :
    writeN16 h src end_ 1 c =
      { ctx :=
          { bytes := registersWritten h src c.bytes (rd16 src 3).toNat
            touched := c.touched ++ cells h (rd16 src 1) (rd16 src 3).toNat
            fetched := c.fetched ++ List.range' 1 2 ++ List.range' 3 2 ++ List.range' 5 1 ++
              List.range' 6 (2 * (rd16 src 3).toNat) ++ List.range' 0 5 }
        exception := false
        reply := (List.range 5).map (rd8 src) } := by
  rw [writeN16_loop hok, writeN16Body, foldlM_checkedWrite_ok]
  · rfl
  · exact fun k hk hbad => (and_FF00_ne_zero_iff _).mp hbad (hgood k hk)

/-- Register `j` is the first with a non-zero high byte: the registers before
it are stored, then the call ends with an exception. -/
theorem writeN16_bad (hok : WriteN16Ok h src end_) {j : Nat} (hj : j < (rd16 src 3).toNat)
    (hgood : ∀ k < j, RegisterOk src k) (hbad : ¬RegisterOk src j) (c : Ctx) :
    writeN16 h src end_ 1 c =
      { ctx :=
          { bytes := registersWritten h src c.bytes j
            touched := c.touched ++ cells h (rd16 src 1) j
            fetched := c.fetched ++ List.range' 1 2 ++ List.range' 3 2 ++ List.range' 5 1 ++
              List.range' 6 (2 * j) ++ List.range' (6 + 2 * j) 2 }
        exception := true
        reply := [fcodeWrRegisters + 0x80, ecodeIllegalDataValue] } := by
  rw [writeN16_loop hok, writeN16Body, foldlM_checkedWrite_error _ _ _ _ _ _ _ hj]
  · rfl
  · exact fun k hk hbad => (and_FF00_ne_zero_iff _).mp hbad (hgood k hk)
  · exact (and_FF00_ne_zero_iff _).mpr hbad

theorem writeN16_exceptsAs (hbad : ¬WriteN16Ok h src end_) (c : Ctx) :
    ExceptsAs fcodeWrRegisters 5 end_ c (writeN16 h src end_ 1 c) := by
  simp only [writeN16, Nat.reduceAdd]
  split_ifs with hsize haddr hnum hcount hend
  · exact exceptsAs_short hsize rfl rfl
  case neg =>
    have hshift := shiftLeft_one_toNat (UInt16.lt_trans hnum.2 (by decide))
    exact absurd ⟨by omega, haddr, hnum, by omega, by omega⟩ hbad
  all_goals exact exceptsAs_other hsize rfl rfl

theorem writeN16_refused (hbad : ¬WriteN16Ok h src end_) (c : Ctx) :
    Refused c (writeN16 h src end_ 1 c) :=
  (writeN16_exceptsAs hbad c).refused

/-- Either every one of `n` registers has a zero high byte, or there is a first that has not. -/
theorem registers_cases (src : List UInt8) (n : Nat) :
    (∀ k < n, RegisterOk src k) ∨
      ∃ j < n, (∀ k < j, RegisterOk src k) ∧ ¬RegisterOk src j := by
  by_cases hall : ∀ k < n, RegisterOk src k
  · exact .inl hall
  · push Not at hall
    have hex : ∃ k, k < n ∧ ¬RegisterOk src k := hall
    refine .inr ⟨Nat.find hex, (Nat.find_spec hex).1, ?_, (Nat.find_spec hex).2⟩
    intro k hk
    by_contra hk'
    exact Nat.find_min hex hk ⟨by have := (Nat.find_spec hex).1; omega, hk'⟩

end

/-! ## Dispatch -/

/-- A function code the handler does not know. -/
def Unsupported (fcode : UInt8) : Prop :=
  fcode ≠ fcodeRdHoldingRegisters ∧ fcode ≠ fcodeWrRegister ∧ fcode ≠ fcodeWrRegisters ∧
    fcode ≠ fcodeRdBytes ∧ fcode ≠ fcodeWrBytes

instance (fcode : UInt8) : Decidable (Unsupported fcode) := inferInstanceAs (Decidable (_ ∧ _))

section

variable (w : IntWidth) (mem : RtuMemory) (src : List UInt8) (end_ curr : Nat)

theorem pduCb_rdHoldingRegisters :
    rtuMemoryPduCb w mem fcodeRdHoldingRegisters src end_ curr =
      readN16 w mem.header src end_ curr (.start mem.bytes) := rfl

theorem pduCb_wrRegister :
    rtuMemoryPduCb w mem fcodeWrRegister src end_ curr =
      write16 w mem.header src end_ curr (.start mem.bytes) := rfl

theorem pduCb_wrRegisters :
    rtuMemoryPduCb w mem fcodeWrRegisters src end_ curr =
      writeN16 mem.header src end_ curr (.start mem.bytes) := rfl

theorem pduCb_rdBytes :
    rtuMemoryPduCb w mem fcodeRdBytes src end_ curr =
      readN8 w mem.header src end_ curr (.start mem.bytes) := rfl

theorem pduCb_wrBytes :
    rtuMemoryPduCb w mem fcodeWrBytes src end_ curr =
      writeN8 mem.header src end_ curr (.start mem.bytes) := rfl

theorem pduCb_unsupported {fcode : UInt8} (h : Unsupported fcode) :
    rtuMemoryPduCb w mem fcode src end_ curr =
      except (.start mem.bytes) fcode ecodeIllegalFunction := by
  obtain ⟨h3, h6, h16, h65, h66⟩ := h
  rw [rtuMemoryPduCb, if_neg h3.symm, if_neg h6.symm, if_neg h16.symm, if_neg h65.symm,
    if_neg h66.symm]

end

/-- Every function code is one of the five or unsupported. -/
theorem fcode_cases (fcode : UInt8) :
    fcode = fcodeRdHoldingRegisters ∨ fcode = fcodeWrRegister ∨ fcode = fcodeWrRegisters ∨
      fcode = fcodeRdBytes ∨ fcode = fcodeWrBytes ∨ Unsupported fcode := by
  unfold Unsupported
  tauto

end ModbusRtu
