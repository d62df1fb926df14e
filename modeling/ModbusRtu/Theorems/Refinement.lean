import ModbusRtu.Logic.Execution

/-!
# The memory handler refines a byte map

A sequence of documented requests, with refused requests in between, is served
as by a map from addresses to bytes: a register write, a multiple register
write and a byte write all write to the one map, and both reads read it. One
call keeps `Represents` (`represents_serve`), so every sequence does
(`represents_serveAll`), and the map after a sequence is the log of its writes
(`replay_apply`).
-/

namespace ModbusRtu

open Base

/-! ## Serving a sequence of calls -/

/-- The arguments of one call of `rtu_memory_pdu_cb`, with `curr` behind the function code. -/
structure PduRequest where
  fcode : UInt8
  src : List UInt8
  end_ : Nat

def RtuMemory.answer (w : IntWidth) (mem : RtuMemory) (c : PduRequest) : Outcome :=
  rtuMemoryPduCb w mem c.fcode c.src c.end_ 1

/-- The memory after the call. -/
def RtuMemory.serve (w : IntWidth) (mem : RtuMemory) (c : PduRequest) : RtuMemory :=
  { mem with bytes := (mem.answer w c).ctx.bytes }

/-- The memory after the calls, in order. -/
def RtuMemory.serveAll (w : IntWidth) (mem : RtuMemory) (cs : List PduRequest) : RtuMemory :=
  cs.foldl (serve w) mem

/-- An element of a sequence: a documented request, with whatever bytes follow
it in the buffer, or a call of another kind. -/
inductive Item
  | documented (r : Request) (tail : List UInt8)
  | other (c : PduRequest)

namespace Item

def call : Item → PduRequest
  | documented r tail => ⟨r.fcode, r.encode ++ tail, r.encode.length⟩
  | other c => c

/-- The writes the element stands for. -/
def writes : Item → List (Nat × UInt8)
  | documented r _ => r.writes
  | other _ => []

/-- Documented requests have a legal quantity and a range in the window; other
calls are reads, refused or not, and calls with an unsupported function code. -/
def Ok (h : Header) : Item → Prop
  | documented r _ => r.Legal ∧ r.Within h
  | other c => Unsupported c.fcode ∨ c.fcode = fcodeRdHoldingRegisters ∨ c.fcode = fcodeRdBytes

instance (h : Header) : ∀ item : Item, Decidable (item.Ok h)
  | documented _ _ => inferInstanceAs (Decidable (_ ∧ _))
  | other _ => inferInstanceAs (Decidable (_ ∨ _))

end Item

/-! ## One call -/

variable {w : IntWidth} {mem : RtuMemory} {m : Nat → UInt8} {item : Item}

theorem bytes_answer_other {c : PduRequest} (hok : (Item.other c).Ok mem.header) :
    (mem.answer w c).ctx.bytes = mem.bytes := by
  obtain ⟨fcode, src, end_⟩ := c
  rcases hok with hunsup | rfl | rfl
  · rw [RtuMemory.answer, pduCb_unsupported w mem src end_ 1 hunsup]
    rfl
  · exact readN16_bytes _
  · exact readN8_bytes _

/-- The memory goes on representing the map, with the writes of the call. -/
theorem represents_serve (hrep : mem.Represents m) (hok : item.Ok mem.header) :
    (mem.serve w item.call).Represents (replay m item.writes) := by
  cases item with
  | documented r tail => exact (executes tail hrep hok.1 hok.2).represents
  | other c =>
      rw [RtuMemory.serve, Item.call, bytes_answer_other hok]
      exact hrep

/-- What a call does when the memory represents the map `value`. -/
structure ServedAs (w : IntWidth) (mem : RtuMemory) (value : Nat → UInt8) (item : Item) :
    Prop where
  reply : ∀ r tail, item = .documented r tail →
    (mem.answer w item.call).exception = false ∧ (mem.answer w item.call).reply = r.reply value
  written : ∀ write ∈ item.writes, (mem.serve w item.call).cell write.1 = write.2
  unchanged : ∀ i : Int, (∀ write ∈ item.writes, i ≠ write.1 - mem.header.addrBegin.toNat) →
    (mem.serve w item.call).bytes i = mem.bytes i

theorem servedAs (hrep : mem.Represents m) (hok : item.Ok mem.header) :
    ServedAs w mem m item := by
  cases item with
  | documented r tail =>
      have hexec := executes (w := w) tail hrep hok.1 hok.2
      refine ⟨?_, ?_, hexec.frame⟩
      · rintro _ _ ⟨⟩
        exact ⟨hexec.exception, hexec.reply⟩
      · intro write hw
        obtain ⟨hlow, hhigh⟩ := Request.mem_range_of_write hw
        rw [← Request.replay_writes m hw]
        exact hexec.represents write.1 (Nat.le_trans hok.2.1 hlow)
          (Nat.lt_of_lt_of_le hhigh hok.2.2)
  | other c =>
      refine ⟨fun _ _ hitem => (Item.noConfusion hitem), fun _ hw => absurd hw List.not_mem_nil,
        ?_⟩
      intro i _
      rw [RtuMemory.serve, Item.call, bytes_answer_other hok]

/-! ## Sequences of calls -/

theorem header_serveAll (w : IntWidth) (mem : RtuMemory) (cs : List PduRequest) :
    (mem.serveAll w cs).header = mem.header := by
  induction cs generalizing mem with
  | nil => rfl
  | cons c cs ih => exact ih (mem.serve w c)

/-- After a sequence the memory represents the map with all its writes. -/
theorem represents_serveAll {items : List Item} (hrep : mem.Represents m)
    (hok : ∀ item ∈ items, item.Ok mem.header) :
    (mem.serveAll w (items.map Item.call)).Represents (replay m (items.flatMap Item.writes)) := by
  induction items generalizing mem m with
  | nil => exact hrep
  | cons item items ih =>
      -- the map is carried along: after the first call it has its writes
      have hstep := represents_serve (w := w) hrep (hok item List.mem_cons_self)
      have hrest := ih hstep fun i hi => hok i (List.mem_cons_of_mem _ hi)
      rw [List.flatMap_cons, replay_append]
      exact hrest

/-- Wherever an element stands in a sequence: each address of the window has
the value last written to it, by whichever request, or its initial one; a
documented request is answered with the reply for these values; and an element
changes the cells it addresses, as it says, and no others. -/
theorem refines_byte_map (w : IntWidth) (mem : RtuMemory) (before : List Item) (item : Item)
    (hbefore : ∀ i ∈ before, i.Ok mem.header) (hok : item.Ok mem.header) :
    let now := mem.serveAll w (before.map Item.call)
    let value := fun a => (lastWrite a (before.flatMap Item.writes)).getD (mem.cell a)
    now.Represents value ∧ ServedAs w now value item := by
  intro now value
  have hvalue : replay mem.cell (before.flatMap Item.writes) = value := by
    funext a
    exact replay_apply _ _ a
  have hrep : now.Represents value := by
    rw [← hvalue]
    exact represents_serveAll (represents_self mem) hbefore
  refine ⟨hrep, servedAs hrep ?_⟩
  rw [header_serveAll]
  exact hok

/-- Three bytes written, one of them overwritten as a register, all read as registers. -/
theorem refines_byte_map_mixed_writes :
    let mem : RtuMemory := { header := ⟨0x1000, 0x1400⟩, bytes := fun _ => 0 }
    let before : List Item :=
      [.documented (.wrBytes 0x1000 [1, 2, 3]) [], .other ⟨1, [1, 0x10, 0, 0, 8], 5⟩,
        .documented (.wrRegister 0x1001 9) []]
    let now := mem.serveAll .int32 (before.map Item.call)
    (now.answer .int32 ⟨3, [3, 0x10, 0, 0, 3], 5⟩).reply = [3, 6, 0, 1, 0, 9, 0, 3] := by
  intro mem before now
  have hserved := (refines_byte_map .int32 mem before
    (.documented (.rdHoldingRegisters 0x1000 3) []) (by decide) (by decide)).2
  exact (hserved.reply _ _ rfl).2.trans (by decide)

end ModbusRtu
