import ModbusRtu.Logic.Handlers
import ModbusRtu.Spec.Requests

/-!
# Executing a documented request

`executes`: on a documented request with a legal quantity whose range lies in
the window, the handler does what the request means, whatever bytes follow the
request in the buffer: it answers as `Request.reply` says for the map the
memory represents, afterwards the memory represents the map with
`Request.writes` applied, and no cell but the addressed ones has changed.
`length_reply_le` bounds the reply to any call, documented or not.
-/

namespace ModbusRtu

open Base

/-! ## Reading the fields back -/

theorem toNat_ofNat_u16 {n : Nat} (h : n < 65536) : (UInt16.ofNat n).toNat = n := by
  rw [UInt16.toNat_ofNat', Nat.mod_eq_of_lt (by omega)]

theorem toNat_ofNat_u8 {n : Nat} (h : n < 256) : (UInt8.ofNat n).toNat = n := by
  rw [UInt8.toNat_ofNat', Nat.mod_eq_of_lt (by omega)]

/-- The word at the front of a field is the one whose bytes were put there. -/
theorem rd16_word (pre : List UInt8) (word : UInt16) (rest : List UInt8) :
    rd16 (pre ++ highByte word :: lowByte word :: rest) pre.length = word := by
  rw [rd16_eq_makeWord]
  simp [rd8]

/-- A register value reads back as its zero-extended byte. -/
theorem wr16_toUInt16 (value : UInt8) : wr16 value.toUInt16 = Request.register value := by
  have hv : value.toNat < 256 := value.toNat_lt
  have hhigh : (value.toUInt16 >>> 8).toUInt8 = 0 := by
    show highByte value.toUInt16 = 0
    rw [← UInt8.toNat_inj, highByte_toNat, UInt8.toNat_toUInt16]
    simp
    omega
  have hlow : (value.toUInt16 &&& 0xFF).toUInt8 = value := by
    show lowByte value.toUInt16 = value
    rw [← UInt8.toNat_inj, lowByte_toNat, UInt8.toNat_toUInt16]
    omega
  rw [wr16, hhigh, hlow, Request.register]

/-- Register `k` of a list of registers on the wire. -/
theorem rd8_registers (values rest : List UInt8) {k : Nat} (hk : k < values.length) :
    rd8 (values.flatMap Request.register ++ rest) (2 * k) = 0 ∧
      rd8 (values.flatMap Request.register ++ rest) (2 * k + 1) = values.getD k 0 := by
  induction values generalizing k with
  | nil => simp at hk
  | cons v values ih =>
      cases k with
      | zero => exact ⟨rfl, rfl⟩
      | succ k =>
          rw [List.length_cons] at hk
          exact ih (by omega)

theorem length_registers (values : List UInt8) :
    (values.flatMap Request.register).length = 2 * values.length := by
  induction values with
  | nil => rfl
  | cons v values ih =>
      rw [List.flatMap_cons, List.length_append, ih, List.length_cons]
      show 2 + _ = _
      omega

/-! ## Request lengths -/

theorem Request.length_encode (r : Request) :
    r.encode.length = match r with
      | .rdHoldingRegisters .. | .wrRegister .. => 5
      | .wrRegisters _ values => 6 + 2 * values.length
      | .rdBytes .. => 4
      | .wrBytes _ values => 4 + values.length := by
  cases r with
  | wrRegisters addr values =>
      rw [Request.encode, List.length_append, length_registers]
      rfl
  | wrBytes addr values =>
      rw [Request.encode, List.length_append]
      rfl
  | _ => rfl

theorem Request.length_encode_le {r : Request} (hlegal : r.Legal) : r.encode.length ≤ 253 := by
  rw [r.length_encode]
  cases r <;> simp only [Request.Legal, Request.count, Request.limit] at hlegal ⊢ <;> omega

/-! ## Ranges inside the window -/

theorem Request.Within.not_outside {h : Header} {r : Request} (hwithin : r.Within h) :
    ¬h.Outside r.addr r.count := by
  obtain ⟨hlow, hhigh⟩ := hwithin
  rw [Header.Outside, UInt16.lt_iff_toNat_lt]
  omega

theorem Request.Within.bounds {h : Header} {r : Request} (hwithin : r.Within h)
    (hcount : 1 ≤ r.count) : h.addrBegin ≤ r.addr ∧ r.addr < h.addrEnd := by
  obtain ⟨hlow, hhigh⟩ := hwithin
  rw [UInt16.le_iff_toNat_le, UInt16.lt_iff_toNat_lt]
  omega

/-- Inside the window `addr + num` does not wrap, whatever the width of `int`. -/
theorem IntWidth.add_le {w : IntWidth} {addr num addrEnd : UInt16}
    (h : addr.toNat + num.toNat ≤ addrEnd.toNat) : w.add addr num ≤ addrEnd.toNat := by
  have he : addrEnd.toNat < 65536 := addrEnd.toNat_lt
  cases w with
  | int16 =>
      rw [IntWidth.add, UInt16.toNat_add]
      omega
  | int32 => exact h

section

variable {mem : RtuMemory} {m : Nat → UInt8} {addr : UInt16} {n : Nat}

/-- The cells of a range in the window hold what the map says. -/
theorem RtuMemory.Represents.cell (hrep : mem.Represents m) (hin : ¬mem.header.Outside addr n)
    {k : Nat} (hk : k < n) : mem.bytes (cellAt mem.header addr k) = m (addr.toNat + k) := by
  rw [cellAt_of_not_outside hin hk]
  rw [Header.Outside, UInt16.lt_iff_toNat_lt] at hin
  rw [← hrep (addr.toNat + k) (by omega) (by omega)]
  congr 1
  omega

/-- A write loop over a range in the window is the same loop over the map. -/
theorem RtuMemory.Represents.scatter (hrep : mem.Represents m)
    (hin : ¬mem.header.Outside addr n) (val : Nat → UInt8) :
    RtuMemory.Represents
      { mem with bytes := Base.scatter mem.bytes (cellAt mem.header addr) val n }
      (Base.scatter m (fun k => addr.toNat + k) val n) := by
  intro a hlow hhigh
  have hcell : ∀ k < n, cellAt mem.header addr k =
      (addr.toNat - mem.header.addrBegin.toNat + k : Nat) := fun k hk =>
    cellAt_of_not_outside hin hk
  rw [Header.Outside, UInt16.lt_iff_toNat_lt] at hin
  show Base.scatter mem.bytes (cellAt mem.header addr) val n (a - mem.header.addrBegin.toNat) = _
  -- in the range both loops end with the value of round `k`, elsewhere both do nothing
  by_cases hmem : ∃ k < n, a = addr.toNat + k
  · obtain ⟨k, hk, rfl⟩ := hmem
    have hidx : ((addr.toNat + k : Nat) : Int) - mem.header.addrBegin.toNat =
        cellAt mem.header addr k := by
      rw [hcell k hk]
      omega
    have hinj : ∀ i < n, ∀ j < n, addr.toNat + i = addr.toNat + j → i = j := by
      intros
      omega
    have hinj' : ∀ i < n, ∀ j < n, cellAt mem.header addr i = cellAt mem.header addr j → i = j := by
      intro i hi j hj heq
      rw [hcell i hi, hcell j hj] at heq
      omega
    rw [hidx, scatter_apply _ hinj' hk, scatter_apply (addr.toNat + ·) hinj hk]
  · rw [scatter_of_not_mem, scatter_of_not_mem]
    · exact hrep a hlow hhigh
    · exact fun k hk hc => hmem ⟨k, hk, hc.symm⟩
    · intro k hk hc
      rw [hcell k hk] at hc
      exact hmem ⟨k, hk, by omega⟩

/-- The same, with the loop over the map as a log of writes. -/
theorem RtuMemory.Represents.replay (hrep : mem.Represents m)
    (hin : ¬mem.header.Outside addr n) (val : Nat → UInt8) :
    RtuMemory.Represents
      { mem with bytes := Base.scatter mem.bytes (cellAt mem.header addr) val n }
      (Base.replay m ((List.range n).map fun k => (addr.toNat + k, val k))) := by
  rw [replay_range]
  exact hrep.scatter hin val

/-- A loop over a range in the window changes no other cell. -/
theorem scatter_frame {h : Header} {bytes : Int → UInt8} {val : Nat → UInt8} {i : Int}
    (hin : ¬h.Outside addr n)
    (hi : ∀ k < n, i ≠ ((addr.toNat + k : Nat) : Int) - h.addrBegin.toNat) :
    Base.scatter bytes (cellAt h addr) val n i = bytes i := by
  apply scatter_of_not_mem
  intro k hk hc
  rw [cellAt_of_not_outside hin hk] at hc
  rw [Header.Outside, UInt16.lt_iff_toNat_lt] at hin
  exact hi k hk (by omega)

end

/-! ## The fields of an encoded request -/

section Fields

variable {w : IntWidth} {h : Header} {addr : UInt16} {num : Nat} {value : UInt8}
  {values : List UInt8} (tail : List UInt8)

/-- Every request has its address behind the function code. -/
theorem Request.rd16_addr (r : Request) : rd16 (r.encode ++ tail) 1 = r.addr := by
  cases r with
  | rdHoldingRegisters addr num => exact rd16_word [fcodeRdHoldingRegisters] addr _
  | wrRegister addr value => exact rd16_word [fcodeWrRegister] addr _
  | wrRegisters addr values => exact rd16_word [fcodeWrRegisters] addr _
  | rdBytes addr num => exact rd16_word [fcodeRdBytes] addr _
  | wrBytes addr values => exact rd16_word [fcodeWrBytes] addr _

theorem rd16_rdHoldingRegisters_num :
    rd16 ((Request.rdHoldingRegisters addr num).encode ++ tail) 3 = .ofNat num :=
  rd16_word [fcodeRdHoldingRegisters, highByte addr, lowByte addr] (.ofNat num) _

theorem rd16_wrRegister_value :
    rd16 ((Request.wrRegister addr value).encode ++ tail) 3 = makeWord value 0 := by
  rw [rd16_eq_makeWord]
  rfl

theorem rd16_wrRegisters_num :
    rd16 ((Request.wrRegisters addr values).encode ++ tail) 3 = .ofNat values.length :=
  rd16_word [fcodeWrRegisters, highByte addr, lowByte addr] (.ofNat values.length) _

/-- Register `k` of a register write. -/
theorem rd16_wrRegisters_value {k : Nat} (hk : k < values.length) :
    rd16 ((Request.wrRegisters addr values).encode ++ tail) (6 + 2 * k) =
      makeWord (values.getD k 0) 0 := by
  obtain ⟨hhigh, hlow⟩ := rd8_registers values tail hk
  rw [rd16_eq_makeWord, show 6 + 2 * k = 2 * k + 6 by omega]
  exact congrArg₂ makeWord hlow hhigh

theorem rd8_rdBytes_num : rd8 ((Request.rdBytes addr num).encode ++ tail) 3 = .ofNat num := rfl

theorem rd8_wrBytes_num :
    rd8 ((Request.wrBytes addr values).encode ++ tail) 3 = .ofNat values.length := rfl

theorem rd8_wrBytes_value {k : Nat} (hk : k < values.length) :
    rd8 ((Request.wrBytes addr values).encode ++ tail) (4 + k) = values.getD k 0 := by
  rw [Nat.add_comm]
  show (values ++ tail).getD k 0 = _
  rw [List.getD_eq_getElem?_getD, List.getD_eq_getElem?_getD, List.getElem?_append_left hk]

/-- The check of a register quantity, against the limit of a handler. -/
theorem ofNat_u16_bounds {n : Nat} (limit : Nat) (hlimit : limit < 65536) (hn : n < 65536) :
    (0 : UInt16) < .ofNat n ∧ (.ofNat n : UInt16) < .ofNat limit ↔ 1 ≤ n ∧ n < limit := by
  rw [UInt16.lt_iff_toNat_lt, UInt16.lt_iff_toNat_lt, toNat_ofNat_u16 hlimit, toNat_ofNat_u16 hn]
  exact Iff.rfl

theorem ofNat_u8_bounds {n : Nat} (limit : Nat) (hlimit : limit < 256) (hn : n < 256) :
    (0 : UInt8) < .ofNat n ∧ (.ofNat n : UInt8) < .ofNat limit ↔ 1 ≤ n ∧ n < limit := by
  rw [UInt8.lt_iff_toNat_lt, UInt8.lt_iff_toNat_lt, toNat_ofNat_u8 hlimit, toNat_ofNat_u8 hn]
  exact Iff.rfl

/-! On a request with a legal quantity only the address is left to check. -/

theorem readN16Ok_encode (hlegal : (Request.rdHoldingRegisters addr num).Legal) :
    ReadN16Ok w h ((Request.rdHoldingRegisters addr num).encode ++ tail) 5 ↔
      (h.addrBegin ≤ addr ∧ addr < h.addrEnd) ∧ w.add addr (.ofNat num) ≤ h.addrEnd.toNat := by
  obtain ⟨hpos, hmax⟩ : 1 ≤ num ∧ num ≤ 125 := hlegal
  have hnum := (ofNat_u16_bounds 126 (by omega) (by omega)).mpr ⟨hpos, Nat.lt_succ_of_le hmax⟩
  rw [ReadN16Ok, Request.rd16_addr, rd16_rdHoldingRegisters_num]
  exact ⟨fun hok => ⟨hok.2.1, hok.2.2.2⟩, fun hin => ⟨Nat.le_refl 5, hin.1, hnum, hin.2⟩⟩

theorem readN8Ok_encode (hlegal : (Request.rdBytes addr num).Legal) :
    ReadN8Ok w h ((Request.rdBytes addr num).encode ++ tail) 4 ↔
      (h.addrBegin ≤ addr ∧ addr < h.addrEnd) ∧ w.add addr (.ofNat num) ≤ h.addrEnd.toNat := by
  obtain ⟨hpos, hmax⟩ : 1 ≤ num ∧ num ≤ 249 := hlegal
  have hnum := (ofNat_u8_bounds 250 (by omega) (by omega)).mpr ⟨hpos, Nat.lt_succ_of_le hmax⟩
  have hwide : (UInt8.ofNat num).toUInt16 = .ofNat num := by
    rw [← UInt16.toNat_inj, UInt8.toNat_toUInt16, toNat_ofNat_u8 (by omega),
      toNat_ofNat_u16 (by omega)]
  rw [ReadN8Ok, Request.rd16_addr, rd8_rdBytes_num, hwide]
  exact ⟨fun hok => ⟨hok.2.1, hok.2.2.2⟩, fun hin => ⟨Nat.le_refl 4, hin.1, hnum, hin.2⟩⟩

theorem write16Ok_encode :
    Write16Ok h ((Request.wrRegister addr value).encode ++ tail) 5 ↔ addr < h.addrEnd := by
  rw [Write16Ok, Request.rd16_addr, rd16_wrRegister_value, highByte_makeWord]
  exact ⟨fun hok => hok.2.1, fun hin => ⟨Nat.le_refl 5, hin, rfl⟩⟩

theorem writeN8Ok_encode (hlegal : (Request.wrBytes addr values).Legal) :
    WriteN8Ok h ((Request.wrBytes addr values).encode ++ tail) (4 + values.length) ↔
      addr < h.addrEnd := by
  obtain ⟨hpos, hmax⟩ : 1 ≤ values.length ∧ values.length ≤ 249 := hlegal
  have hnum := (ofNat_u8_bounds 250 (by omega) (by omega)).mpr ⟨hpos, Nat.lt_succ_of_le hmax⟩
  rw [WriteN8Ok, Request.rd16_addr, rd8_wrBytes_num, toNat_ofNat_u8 (by omega)]
  exact ⟨fun hok => hok.2.1, fun hin => ⟨by omega, hin, hnum, by omega⟩⟩

theorem writeN16Ok_encode (hlegal : (Request.wrRegisters addr values).Legal) :
    WriteN16Ok h ((Request.wrRegisters addr values).encode ++ tail) (6 + 2 * values.length) ↔
      addr < h.addrEnd := by
  obtain ⟨hpos, hmax⟩ : 1 ≤ values.length ∧ values.length ≤ 123 := hlegal
  have hnum := (ofNat_u16_bounds 124 (by omega) (by omega)).mpr ⟨hpos, Nat.lt_succ_of_le hmax⟩
  have hcount : (rd8 ((Request.wrRegisters addr values).encode ++ tail) 5).toNat =
      2 * values.length := toNat_ofNat_u8 (by omega)
  rw [WriteN16Ok, Request.rd16_addr, rd16_wrRegisters_num, hcount, toNat_ofNat_u16 (by omega)]
  exact ⟨fun hok => hok.2.1, fun hin => ⟨by omega, hin, hnum, rfl, by omega⟩⟩

/-- A zero-extended register passes the check of its high byte. -/
theorem registerOk_encode (hlegal : (Request.wrRegisters addr values).Legal) :
    ∀ k < (rd16 ((Request.wrRegisters addr values).encode ++ tail) 3).toNat,
      RegisterOk ((Request.wrRegisters addr values).encode ++ tail) k := by
  obtain ⟨hpos, hmax⟩ : 1 ≤ values.length ∧ values.length ≤ 123 := hlegal
  intro k hk
  rw [rd16_wrRegisters_num, toNat_ofNat_u16 (by omega)] at hk
  rw [RegisterOk, rd16_wrRegisters_value tail hk, highByte_makeWord]

end Fields

/-! ## Request by request -/

/-- The handler did with `mem`, which represents the map `m`, what the request means. -/
structure Executed (mem : RtuMemory) (m : Nat → UInt8) (r : Request) (outcome : Outcome) :
    Prop where
  exception : outcome.exception = false
  reply : outcome.reply = r.reply m
  represents :
    RtuMemory.Represents { mem with bytes := outcome.ctx.bytes } (replay m r.writes)
  frame : ∀ i : Int, (∀ write ∈ r.writes, i ≠ write.1 - mem.header.addrBegin.toNat) →
    outcome.ctx.bytes i = mem.bytes i

section

variable {w : IntWidth} {mem : RtuMemory} {m : Nat → UInt8} {addr : UInt16} (tail : List UInt8)

theorem executes_rdHoldingRegisters {num : Nat} (hrep : mem.Represents m)
    (hlegal : (Request.rdHoldingRegisters addr num).Legal)
    (hwithin : (Request.rdHoldingRegisters addr num).Within mem.header) :
    Executed mem m (.rdHoldingRegisters addr num)
      (readN16 w mem.header ((Request.rdHoldingRegisters addr num).encode ++ tail) 5 1
        (.start mem.bytes)) := by
  have hquantity : 1 ≤ num ∧ num ≤ 125 := hlegal
  obtain ⟨hpos, hmax⟩ := hquantity
  have hnat : (UInt16.ofNat num).toNat = num := toNat_ofNat_u16 (by omega)
  have hout : ¬mem.header.Outside addr num := hwithin.not_outside
  have hok : ReadN16Ok w mem.header ((Request.rdHoldingRegisters addr num).encode ++ tail) 5 :=
    (readN16Ok_encode tail hlegal).mpr
      ⟨hwithin.bounds hpos, IntWidth.add_le (by rw [hnat]; exact hwithin.2)⟩
  rw [readN16_ok hok, Request.rd16_addr, rd16_rdHoldingRegisters_num, hnat]
  refine ⟨rfl, ?_, hrep, fun _ _ => rfl⟩
  rw [byteCount_eq, hnat]
  refine congrArg ([fcodeRdHoldingRegisters, .ofNat (2 * num)] ++ ·)
    (List.flatMap_congr ?_)
  intro k hk
  rw [wr16_toUInt16]
  exact congrArg Request.register (hrep.cell hout (List.mem_range.mp hk))

theorem executes_rdBytes {num : Nat} (hrep : mem.Represents m)
    (hlegal : (Request.rdBytes addr num).Legal)
    (hwithin : (Request.rdBytes addr num).Within mem.header) :
    Executed mem m (.rdBytes addr num)
      (readN8 w mem.header ((Request.rdBytes addr num).encode ++ tail) 4 1
        (.start mem.bytes)) := by
  have hquantity : 1 ≤ num ∧ num ≤ 249 := hlegal
  obtain ⟨hpos, hmax⟩ := hquantity
  have hnat : (UInt8.ofNat num).toNat = num := toNat_ofNat_u8 (by omega)
  have hout : ¬mem.header.Outside addr num := hwithin.not_outside
  have hok : ReadN8Ok w mem.header ((Request.rdBytes addr num).encode ++ tail) 4 := by
    refine (readN8Ok_encode tail hlegal).mpr ⟨hwithin.bounds hpos, IntWidth.add_le ?_⟩
    rw [toNat_ofNat_u16 (by omega)]
    exact hwithin.2
  rw [readN8_ok hok, Request.rd16_addr, rd8_rdBytes_num, hnat]
  refine ⟨rfl, ?_, hrep, fun _ _ => rfl⟩
  refine congrArg ((Request.rdBytes addr num).encode ++ ·) (List.map_congr_left ?_)
  intro k hk
  exact hrep.cell hout (List.mem_range.mp hk)

/-- In the window the store of a single register write is a loop of one round. -/
theorem write16Cell_eq {h : Header} {src : List UInt8} (haddr : rd16 src 1 = addr)
    (hlow : h.addrBegin.toNat ≤ addr.toNat) : write16Cell w h src = cellAt h addr 0 := by
  have ha : addr.toNat < 65536 := addr.toNat_lt
  rw [write16Cell, haddr, cellAt_eq]
  cases w with
  | int16 =>
      rw [IntWidth.sub, UInt16.toNat_sub]
      omega
  | int32 =>
      rw [IntWidth.sub]
      omega

theorem executes_wrRegister {value : UInt8} (hrep : mem.Represents m)
    (hwithin : (Request.wrRegister addr value).Within mem.header) :
    Executed mem m (.wrRegister addr value)
      (write16 w mem.header ((Request.wrRegister addr value).encode ++ tail) 5 1
        (.start mem.bytes)) := by
  have haddr : rd16 ((Request.wrRegister addr value).encode ++ tail) 1 = addr :=
    Request.rd16_addr tail _
  have hout : ¬mem.header.Outside addr 1 := hwithin.not_outside
  have hok : Write16Ok mem.header ((Request.wrRegister addr value).encode ++ tail) 5 :=
    (write16Ok_encode tail).mpr (hwithin.bounds (Nat.le_refl 1)).2
  have hstore : ∀ bytes : Int → UInt8,
      Function.update bytes
          (write16Cell w mem.header ((Request.wrRegister addr value).encode ++ tail)) value =
        scatter bytes (cellAt mem.header addr) (fun _ => value) 1 := by
    intro bytes
    rw [write16Cell_eq haddr hwithin.1, scatter_succ, scatter_zero]
  rw [write16_ok hok, rd16_wrRegister_value, lowByte_makeWord, hstore]
  refine ⟨rfl, rfl, hrep.scatter hout (fun _ => value), fun i hi => scatter_frame hout ?_⟩
  intro k hk
  obtain rfl : k = 0 := by omega
  exact hi (addr.toNat, value) (List.mem_singleton_self _)

theorem executes_wrBytes {values : List UInt8} (hrep : mem.Represents m)
    (hlegal : (Request.wrBytes addr values).Legal)
    (hwithin : (Request.wrBytes addr values).Within mem.header) :
    Executed mem m (.wrBytes addr values)
      (writeN8 mem.header ((Request.wrBytes addr values).encode ++ tail) (4 + values.length) 1
        (.start mem.bytes)) := by
  have hquantity : 1 ≤ values.length ∧ values.length ≤ 249 := hlegal
  obtain ⟨hpos, hmax⟩ := hquantity
  have hnat : (UInt8.ofNat values.length).toNat = values.length := toNat_ofNat_u8 (by omega)
  have hout : ¬mem.header.Outside addr values.length := hwithin.not_outside
  have hok : WriteN8Ok mem.header ((Request.wrBytes addr values).encode ++ tail)
      (4 + values.length) := (writeN8Ok_encode tail hlegal).mpr (hwithin.bounds hpos).2
  have hval : ∀ k < values.length,
      rd8 ((Request.wrBytes addr values).encode ++ tail) (4 + k) = values.getD k 0 :=
    fun k hk => rd8_wrBytes_value tail hk
  rw [writeN8_ok hok, Request.rd16_addr, rd8_wrBytes_num, hnat, scatter_congr hval]
  refine ⟨rfl, rfl, hrep.replay hout (fun k => values.getD k 0),
    fun i hi => scatter_frame hout ?_⟩
  intro k hk
  exact hi (addr.toNat + k, values.getD k 0) (List.mem_map.mpr ⟨k, List.mem_range.mpr hk, rfl⟩)

theorem executes_wrRegisters {values : List UInt8} (hrep : mem.Represents m)
    (hlegal : (Request.wrRegisters addr values).Legal)
    (hwithin : (Request.wrRegisters addr values).Within mem.header) :
    Executed mem m (.wrRegisters addr values)
      (writeN16 mem.header ((Request.wrRegisters addr values).encode ++ tail)
        (6 + 2 * values.length) 1 (.start mem.bytes)) := by
  have hquantity : 1 ≤ values.length ∧ values.length ≤ 123 := hlegal
  obtain ⟨hpos, hmax⟩ := hquantity
  have hnat : (UInt16.ofNat values.length).toNat = values.length := toNat_ofNat_u16 (by omega)
  have hout : ¬mem.header.Outside addr values.length := hwithin.not_outside
  have hok : WriteN16Ok mem.header ((Request.wrRegisters addr values).encode ++ tail)
      (6 + 2 * values.length) := (writeN16Ok_encode tail hlegal).mpr (hwithin.bounds hpos).2
  have hval : ∀ k < values.length,
      lowByte (rd16 ((Request.wrRegisters addr values).encode ++ tail) (6 + 2 * k)) =
        values.getD k 0 := by
    intro k hk
    rw [rd16_wrRegisters_value tail hk, lowByte_makeWord]
  rw [writeN16_ok hok (registerOk_encode tail hlegal), registersWritten, Request.rd16_addr,
    rd16_wrRegisters_num, hnat, scatter_congr hval]
  refine ⟨rfl, rfl, hrep.replay hout (fun k => values.getD k 0),
    fun i hi => scatter_frame hout ?_⟩
  intro k hk
  exact hi (addr.toNat + k, values.getD k 0) (List.mem_map.mpr ⟨k, List.mem_range.mpr hk, rfl⟩)

/-- A documented request with a legal quantity, in the window, is executed. -/
theorem executes {r : Request} (hrep : mem.Represents m) (hlegal : r.Legal)
    (hwithin : r.Within mem.header) :
    Executed mem m r
      (rtuMemoryPduCb w mem r.fcode (r.encode ++ tail) r.encode.length 1) := by
  cases r with
  | rdHoldingRegisters addr num => exact executes_rdHoldingRegisters tail hrep hlegal hwithin
  | wrRegister addr value => exact executes_wrRegister tail hrep hwithin
  | rdBytes addr num => exact executes_rdBytes tail hrep hlegal hwithin
  | wrRegisters addr values =>
      rw [Request.length_encode]
      exact executes_wrRegisters tail hrep hlegal hwithin
  | wrBytes addr values =>
      rw [Request.length_encode]
      exact executes_wrBytes tail hrep hlegal hwithin

end

/-! ## The bytes behind the request do not matter -/

/-- Every memory represents a map. -/
theorem represents_self (mem : RtuMemory) : mem.Represents mem.cell := fun _ _ _ => rfl

/-- The writes of a request go to the addresses of its range. -/
theorem Request.mem_range_of_write {r : Request} {write : Nat × UInt8} (hw : write ∈ r.writes) :
    r.addr.toNat ≤ write.1 ∧ write.1 < r.addr.toNat + r.count := by
  cases r with
  | rdHoldingRegisters addr num => exact absurd hw List.not_mem_nil
  | rdBytes addr num => exact absurd hw List.not_mem_nil
  | wrRegister addr value =>
      rw [List.mem_singleton.mp hw]
      exact ⟨Nat.le_refl _, Nat.lt_succ_self _⟩
  | wrRegisters addr values | wrBytes addr values =>
      obtain ⟨k, hk, rfl⟩ := List.mem_map.mp hw
      rw [List.mem_range] at hk
      exact ⟨Nat.le_add_right _ _, Nat.add_lt_add_left hk _⟩

/-- The written range, read back. -/
theorem replay_range_apply (m : Nat → UInt8) (addr : Nat) (val : Nat → UInt8) {n k : Nat}
    (hk : k < n) :
    Base.replay m ((List.range n).map fun k => (addr + k, val k)) (addr + k) = val k := by
  rw [replay_range]
  exact scatter_apply (addr + ·) (fun i _ j _ hij => by omega) hk

/-- Every write of a request is still there when the request is done. -/
theorem Request.replay_writes (m : Nat → UInt8) {r : Request} {write : Nat × UInt8}
    (hw : write ∈ r.writes) : Base.replay m r.writes write.1 = write.2 := by
  cases r with
  | rdHoldingRegisters addr num => exact absurd hw List.not_mem_nil
  | rdBytes addr num => exact absurd hw List.not_mem_nil
  | wrRegister addr value =>
      rw [List.mem_singleton.mp hw]
      exact Function.update_self _ _ _
  | wrRegisters addr values | wrBytes addr values =>
      obtain ⟨k, hk, rfl⟩ := List.mem_map.mp hw
      exact replay_range_apply m addr.toNat (values.getD · 0) (List.mem_range.mp hk)

/-- Two executions of one request leave the same memory. -/
theorem Executed.bytes_unique {mem : RtuMemory} {m : Nat → UInt8} {r : Request}
    {o₁ o₂ : Outcome} (h₁ : Executed mem m r o₁) (h₂ : Executed mem m r o₂)
    (hwithin : r.Within mem.header) : o₁.ctx.bytes = o₂.ctx.bytes := by
  funext i
  -- an addressed cell represents the same map, the others are as before the call
  by_cases hi : ∃ write ∈ r.writes, i = write.1 - mem.header.addrBegin.toNat
  · obtain ⟨write, hw, rfl⟩ := hi
    obtain ⟨hlow, hhigh⟩ := Request.mem_range_of_write hw
    have hbegin : mem.header.addrBegin.toNat ≤ write.1 := Nat.le_trans hwithin.1 hlow
    have hend : write.1 < mem.header.addrEnd.toNat := Nat.lt_of_lt_of_le hhigh hwithin.2
    exact (h₁.represents write.1 hbegin hend).trans (h₂.represents write.1 hbegin hend).symm
  · push Not at hi
    rw [h₁.frame i hi, h₂.frame i hi]

/-! ## The longest reply -/

theorem Refused.length_reply {c : Ctx} {outcome : Outcome} (h : Refused c outcome) :
    outcome.reply.length = 2 := by
  obtain ⟨fcode, ecode, hreply⟩ := h.reply
  rw [hreply]
  rfl

section

variable {w : IntWidth} {h : Header} {src : List UInt8} {end_ : Nat} {c : Ctx}

theorem readN16_length_reply_le : (readN16 w h src end_ 1 c).reply.length ≤ 253 := by
  by_cases hok : ReadN16Ok w h src end_
  · have hnum : (rd16 src 3).toNat < 126 := UInt16.lt_iff_toNat_lt.mp hok.2.2.1.2
    rw [readN16_ok hok]
    simp only [wr16_toUInt16]
    rw [← List.flatMap_map, List.length_append, length_registers, List.length_map,
      List.length_range]
    show 2 + _ ≤ 253
    omega
  · rw [(readN16_refused hok c).length_reply]
    omega

theorem readN8_length_reply_le : (readN8 w h src end_ 1 c).reply.length ≤ 253 := by
  by_cases hok : ReadN8Ok w h src end_
  · have hnum : (rd8 src 3).toNat < 250 := UInt8.lt_iff_toNat_lt.mp hok.2.2.1.2
    rw [readN8_ok hok, List.length_append, List.length_map, List.length_map, List.length_range,
      List.length_range]
    omega
  · rw [(readN8_refused hok c).length_reply]
    omega

theorem write16_length_reply_le : (write16 w h src end_ 1 c).reply.length ≤ 253 := by
  by_cases hok : Write16Ok h src end_
  · rw [write16_ok hok, List.length_map, List.length_range]
    omega
  · rw [(write16_refused hok c).length_reply]
    omega

theorem writeN8_length_reply_le : (writeN8 h src end_ 1 c).reply.length ≤ 253 := by
  by_cases hok : WriteN8Ok h src end_
  · rw [writeN8_ok hok, List.length_map, List.length_range]
    omega
  · rw [(writeN8_refused hok c).length_reply]
    omega

theorem writeN16_length_reply_le : (writeN16 h src end_ 1 c).reply.length ≤ 253 := by
  by_cases hok : WriteN16Ok h src end_
  · rcases registers_cases src (rd16 src 3).toNat with hall | ⟨j, hj, hgood, hbad⟩
    · rw [writeN16_ok hok hall, List.length_map, List.length_range]
      omega
    · rw [writeN16_bad hok hj hgood hbad]
      show 2 ≤ 253
      omega
  · rw [(writeN16_refused hok c).length_reply]
    omega

end

/-- The reply to any call leaves room for the slave address and the CRC. -/
theorem length_reply_le (w : IntWidth) (mem : RtuMemory) (fcode : UInt8) (src : List UInt8)
    (end_ : Nat) : (rtuMemoryPduCb w mem fcode src end_ 1).reply.length ≤ 253 := by
  rcases fcode_cases fcode with rfl | rfl | rfl | rfl | rfl | hunsup
  · exact readN16_length_reply_le
  · exact write16_length_reply_le
  · exact writeN16_length_reply_le
  · exact readN8_length_reply_le
  · exact writeN8_length_reply_le
  · rw [pduCb_unsupported w mem src end_ 1 hunsup]
    show 2 ≤ 253
    omega

end ModbusRtu
