import ModbusRtu.Theorems.Transactions

/-!
# The receive buffer of the master

The read transactions ask for a reply of the size that goes with the count they
are given, into a local buffer of `ADU_CAPACITY` bytes. They build their request
themselves, without the limit the request builders put on the count; and a
`read` that is interrupted moves the pointer of `tty_read` back.
`reads_stay_inside_iff` says when the bytes of the reply stay inside the buffer.

Where the calls of `read` store follows from what they bring (`storedFrom`);
`Stores` keeps track of it through the loop of `tty_read`. What they bring
follows from what the rounds of the loop get from the system (`brought_of_goesOn`),
so that the condition is one on the line (`SerialLine.NeverBehind`).
-/

namespace ModbusRtu

/-! ## Where `read` stores -/

/-- The offsets at which calls of `read` store, from the pointer `curr` on. -/
def storedFrom : Int → List (Option (List UInt8)) → List Int
  | _, [] => []
  | curr, none :: calls => storedFrom (curr - 1) calls
  | curr, some data :: calls =>
      (List.range data.length).map (fun k : Nat => curr + k) ++
        storedFrom (curr + data.length) calls

/-- The pointer behind the calls. -/
def pointerAfter (curr : Int) (calls : List (Option (List UInt8))) : Int :=
  curr + (moved calls).length - calls.count none

/-- No call brings bytes when more calls have been interrupted than bytes were brought. -/
def BringsAhead (calls : List (Option (List UInt8))) : Prop :=
  ∀ before data, before ++ [some data] <+: calls → before.count none ≤ (moved before).length

section

variable {curr : Int} {calls : List (Option (List UInt8))} {i : Int}

theorem pointerAfter_none : pointerAfter curr (none :: calls) = pointerAfter (curr - 1) calls := by
  simp only [pointerAfter, moved, List.filterMap_cons, id, List.count_cons_self]
  omega

theorem pointerAfter_some (data : List UInt8) :
    pointerAfter curr (some data :: calls) = pointerAfter (curr + data.length) calls := by
  have hcount : (some data :: calls).count none = calls.count none :=
    List.count_cons_of_ne (Option.some_ne_none data)
  simp only [pointerAfter, hcount, moved, List.filterMap_cons, id, List.flatten_cons,
    List.length_append]
  omega

theorem storedFrom_append (more : List (Option (List UInt8))) :
    storedFrom curr (calls ++ more) =
      storedFrom curr calls ++ storedFrom (pointerAfter curr calls) more := by
  induction calls generalizing curr with
  | nil => simp [storedFrom, pointerAfter, moved]
  | cons call calls ih =>
      cases call with
      | none => rw [List.cons_append, storedFrom, ih, storedFrom, pointerAfter_none]
      | some data =>
          rw [List.cons_append, storedFrom, ih, storedFrom, pointerAfter_some, List.append_assoc]

/-- A call stores from the pointer on that the calls in front of it have left. -/
theorem mem_storedFrom_iff :
    i ∈ storedFrom curr calls ↔ ∃ before data after, calls = before ++ some data :: after ∧
      pointerAfter curr before ≤ i ∧ i < pointerAfter curr before + data.length := by
  have hrange : ∀ (c : Int) (n : Nat), i ∈ (List.range n).map (fun k : Nat => c + k) ↔
      c ≤ i ∧ i < c + n := by
    intro c n
    simp only [List.mem_map, List.mem_range]
    constructor
    · rintro ⟨k, hk, rfl⟩
      omega
    · rintro ⟨hle, hlt⟩
      exact ⟨(i - c).toNat, by omega, by omega⟩
  constructor
  · intro hmem
    induction calls generalizing curr with
    | nil => exact absurd hmem List.not_mem_nil
    | cons call calls ih =>
        cases call with
        | none =>
            obtain ⟨before, data, after, rfl, hbounds⟩ := ih hmem
            exact ⟨none :: before, data, after, rfl, by rwa [pointerAfter_none]⟩
        | some data =>
            rcases List.mem_append.mp hmem with hmem | hmem
            · refine ⟨[], data, calls, rfl, ?_⟩
              have hstart : pointerAfter curr [] = curr := by simp [pointerAfter, moved]
              rw [hstart]
              exact (hrange _ _).mp hmem
            · obtain ⟨before, data', after, rfl, hbounds⟩ := ih hmem
              exact ⟨some data :: before, data', after, rfl, by rwa [pointerAfter_some]⟩
  · rintro ⟨before, data, after, rfl, hbounds⟩
    rw [storedFrom_append, storedFrom]
    exact List.mem_append_right _ (List.mem_append_left _ ((hrange _ _).mpr hbounds))

theorem bringsAhead_append_none : BringsAhead (calls ++ [none]) ↔ BringsAhead calls := by
  refine forall_congr' fun before => forall_congr' fun data => ?_
  rw [List.prefix_concat_iff, List.append_singleton_inj]
  simp

theorem bringsAhead_append_some (data : List UInt8) :
    BringsAhead (calls ++ [some data]) ↔
      BringsAhead calls ∧ calls.count none ≤ (moved calls).length := by
  constructor
  · intro hahead
    refine ⟨fun before d hle => hahead before d ?_, hahead calls data List.prefix_rfl⟩
    exact hle.trans (List.prefix_append _ _)
  · rintro ⟨hahead, hnow⟩ before d hle
    rcases List.prefix_concat_iff.mp hle with heq | hle
    · obtain ⟨rfl, -⟩ := List.append_singleton_inj.mp heq
      exact hnow
    · exact hahead before d hle

/-- Without an interrupted call the bytes go one behind the other. -/
theorem mem_storedFrom_of_none (hnone : none ∉ calls) :
    i ∈ storedFrom curr calls ↔ curr ≤ i ∧ i < curr + (moved calls).length := by
  induction calls generalizing curr with
  | nil =>
      simp only [storedFrom, moved, List.filterMap_nil, List.flatten_nil, List.length_nil]
      exact iff_of_false List.not_mem_nil (by omega)
  | cons call calls ih =>
      cases call with
      | none => exact absurd List.mem_cons_self hnone
      | some data =>
          have hrest : i ∈ storedFrom (curr + data.length) calls ↔ curr + data.length ≤ i ∧
              i < curr + data.length + (moved calls).length :=
            ih fun hmem => hnone (List.mem_cons_of_mem _ hmem)
          rw [storedFrom, List.mem_append, hrest]
          simp only [List.mem_map, List.mem_range, moved, List.filterMap_cons, id,
            List.flatten_cons, List.length_append]
          constructor
          · rintro (⟨k, hk, rfl⟩ | hbounds) <;> omega
          · intro hbounds
            by_cases hin : i < curr + data.length
            · exact .inl ⟨(i - curr).toNat, by omega, by omega⟩
            · exact .inr (by omega)

end

/-! ## Through the loop -/

/-- What the loop of `tty_read` keeps of its stores: they end in front of `end`,
each call has brought something, and nothing else has changed. -/
structure Stores (size : Nat) (buf : Int → UInt8) (s : TtyState) : Prop where
  le : s.curr ≤ size
  pointer : s.curr = pointerAfter 0 s.calls
  brought : ∀ data, some data ∈ s.calls → data ≠ []
  inFront : ∀ i ∈ storedFrom 0 s.calls, i < size
  kept : ∀ i, i ∉ storedFrom 0 s.calls → s.buf i = buf i

section

variable {size : Nat} {timeout : Int} {once : Bool} {buf : Int → UInt8} {s : TtyState}
  {round : TtyRound { arrived : List UInt8 // arrived ≠ [] }}
  {rounds : List (TtyRound { arrived : List UInt8 // arrived ≠ [] })}

theorem stores_start (size : Nat) (buf : Int → UInt8) : Stores size buf (.start buf) where
  le := Int.natCast_nonneg size
  pointer := rfl
  brought _ hmem := absurd hmem List.not_mem_nil
  inFront _ hmem := absurd hmem List.not_mem_nil
  kept _ _ := rfl

theorem Stores.step (hs : Stores size buf s) (hroom : s.curr ≠ size) :
    Stores size buf (ttyRound (fun arrived => readCall arrived.val) size once round s) := by
  rcases ttyRound_cases (fun arrived => readCall arrived.val) size once round s with
    ⟨-, hcore⟩ | ⟨-, hcore⟩ | ⟨-, x, hcore⟩
  · obtain ⟨hcurr, hbuf, hcalls⟩ := TtyState.core_eq_iff.mp hcore
    obtain ⟨hle, hpointer, hbrought, hfront, hkept⟩ := hs
    constructor
    · rwa [hcurr]
    · rwa [hcurr, hcalls]
    · rwa [hcalls]
    · rwa [hcalls]
    · rwa [hcalls, hbuf]
  · -- the pointer goes back, and nothing is stored
    obtain ⟨hcurr, hbuf, hcalls⟩ := TtyState.core_eq_iff.mp hcore
    have hstored : storedFrom 0 (s.calls ++ [none]) = storedFrom 0 s.calls := by
      rw [storedFrom_append, storedFrom, storedFrom, List.append_nil]
    constructor
    · have hle := hs.le
      omega
    · rw [hcurr, hcalls, hs.pointer]
      simp only [pointerAfter, moved_append_none, List.count_append, List.count_singleton_self]
      omega
    · intro data hmem
      rw [hcalls] at hmem
      rcases List.mem_append.mp hmem with hmem | hmem
      · exact hs.brought data hmem
      · cases List.mem_singleton.mp hmem
    · rw [hcalls, hstored]
      exact hs.inFront
    · rw [hcalls, hstored, hbuf]
      exact hs.kept
  · obtain ⟨hcurr, hbuf, hcalls⟩ := TtyState.core_eq_iff.mp hcore
    have hle := hs.le
    have hlen : (x.val.take (size - s.curr).toNat).length ≤ (size - s.curr).toNat :=
      List.length_take_le _ _
    simp only [readCall] at hcurr hbuf hcalls
    generalize hdata : x.val.take (size - s.curr).toNat = data at hcurr hbuf hcalls hlen
    have hstored : storedFrom 0 (s.calls ++ [some data]) =
        storedFrom 0 s.calls ++ (List.range data.length).map (fun k : Nat => s.curr + k) := by
      rw [storedFrom_append, ← hs.pointer, storedFrom, storedFrom, List.append_nil]
    constructor
    · omega
    · have hcount : (s.calls ++ [some data]).count none = s.calls.count none := by
        rw [List.count_append]
        rfl
      rw [hcurr, hcalls, hs.pointer]
      simp only [pointerAfter, moved_append_some, hcount, List.length_append]
      omega
    · intro d hmem
      rw [hcalls] at hmem
      rcases List.mem_append.mp hmem with hmem | hmem
      · exact hs.brought d hmem
      · obtain rfl := Option.some_inj.mp (List.mem_singleton.mp hmem)
        rw [← hdata]
        have hpos : 0 < (size - s.curr).toNat := by omega
        have hx : 0 < x.val.length := List.length_pos_iff.mpr x.property
        rw [← List.length_pos_iff, List.length_take]
        omega
    · intro i hmem
      rw [hcalls, hstored] at hmem
      rcases List.mem_append.mp hmem with hmem | hmem
      · exact hs.inFront i hmem
      · obtain ⟨k, hk, rfl⟩ := List.mem_map.mp hmem
        rw [List.mem_range] at hk
        omega
    · intro i hmem
      rw [hcalls, hstored, List.mem_append, not_or] at hmem
      have hout : ¬(s.curr ≤ i ∧ i < s.curr + data.length) := by
        intro hin
        refine hmem.2 (List.mem_map.mpr ⟨(i - s.curr).toNat, ?_, ?_⟩)
        · rw [List.mem_range]
          omega
        · omega
      rw [hbuf]
      exact (if_neg hout).trans (hs.kept i hmem.1)

theorem Stores.run (hs : Stores size buf s) :
    Stores size buf
      (ttyLoop (fun arrived => readCall arrived.val) size timeout once rounds s) := by
  induction rounds generalizing s with
  | nil => exact hs
  | cons round rounds ih =>
      rw [ttyLoop]
      by_cases hreturned : s.returned size timeout = true
      · rw [if_pos hreturned]
        exact hs
      · rw [if_neg hreturned]
        refine ih (hs.step ?_)
        intro hend
        simp [TtyState.returned, hend] at hreturned

/-- Rounds without an interrupted call leave none behind. -/
theorem none_not_mem_run (hnone : none ∉ s.calls) (hcalls : ∀ round ∈ rounds, ¬round.Interrupted) :
    none ∉ (ttyLoop (fun arrived => readCall arrived.val) size timeout once rounds s).calls := by
  induction rounds generalizing s with
  | nil => exact hnone
  | cons round rounds ih =>
      rw [ttyLoop]
      split
      · exact hnone
      · refine ih ?_ fun r hr => hcalls r (List.mem_cons_of_mem _ hr)
        rcases ttyRound_cases (fun arrived => readCall arrived.val) size once round s with
          ⟨-, hcore⟩ | ⟨hround, -⟩ | ⟨-, x, hcore⟩
        · rwa [(TtyState.core_eq_iff.mp hcore).2.2]
        · exact absurd hround (hcalls round List.mem_cons_self)
        · rw [(TtyState.core_eq_iff.mp hcore).2.2]
          simp [hnone]

end

/-! ## What the system brings -/

section

variable {line : SerialLine} {size : Nat}
  {rounds : List (TtyRound { arrived : List UInt8 // arrived ≠ [] })}
  {round : TtyRound { arrived : List UInt8 // arrived ≠ [] }}

/-- `tty_read` behind some rounds. -/
def SerialLine.behind (line : SerialLine) (size : Nat)
    (rounds : List (TtyRound { arrived : List UInt8 // arrived ≠ [] })) : TtyState :=
  ttyReadLoop size (line.tmaxMs size) line.found rounds

/-- `tty_read` has not returned behind these rounds. -/
def SerialLine.GoesOn (line : SerialLine) (size : Nat)
    (rounds : List (TtyRound { arrived : List UInt8 // arrived ≠ [] })) : Prop :=
  (line.behind size rounds).returned size (line.tmaxMs size) = false

/-- As long as `tty_read` goes on, no round brings it bytes when more of the
rounds before have interrupted a `read` than bytes have arrived in them. -/
def SerialLine.NeverBehind (line : SerialLine) (size : Nat)
    (rounds : List (TtyRound { arrived : List UInt8 // arrived ≠ [] })) : Prop :=
  ∀ before round, before ++ [round] <+: rounds → line.GoesOn size before → round.arrived ≠ [] →
    before.countP (·.Interrupted) ≤ (before.flatMap TtyRound.arrived).length

theorem stores_behind (line : SerialLine) (size : Nat)
    (rounds : List (TtyRound { arrived : List UInt8 // arrived ≠ [] })) :
    Stores size line.found (line.behind size rounds) := (stores_start size line.found).run

theorem SerialLine.behind_concat :
    line.behind size (rounds ++ [round]) =
      if (line.behind size rounds).returned size (line.tmaxMs size) then line.behind size rounds
      else ttyRound (fun arrived => readCall arrived.val) size (0 > line.tmaxMs size) round
        (line.behind size rounds) := ttyLoop_concat

theorem SerialLine.GoesOn.before (hgoes : line.GoesOn size (rounds ++ [round])) :
    line.GoesOn size rounds := by
  rw [GoesOn, behind_concat] at hgoes
  by_cases hreturned : (line.behind size rounds).returned size (line.tmaxMs size) = true
  · rw [if_pos hreturned, hreturned] at hgoes
    cases hgoes
  · exact Bool.eq_false_iff.mpr hreturned

theorem SerialLine.GoesOn.concat (hgoes : line.GoesOn size rounds)
    (round : TtyRound { arrived : List UInt8 // arrived ≠ [] }) :
    line.behind size (rounds ++ [round]) =
      ttyRound (fun arrived => readCall arrived.val) size (0 > line.tmaxMs size) round
        (line.behind size rounds) := by
  rw [GoesOn] at hgoes
  rw [behind_concat, hgoes]
  rfl

/-- As long as `tty_read` goes on it has brought all that has arrived: a `read`
that leaves something behind fills the buffer. -/
theorem brought_of_goesOn (hgoes : line.GoesOn size rounds) :
    (line.behind size rounds).calls.count none = rounds.countP (·.Interrupted) ∧
      (moved (line.behind size rounds).calls).length =
        (rounds.flatMap TtyRound.arrived).length := by
  induction rounds using List.reverseRecOn with
  | nil => exact ⟨rfl, rfl⟩
  | append_singleton rounds round ih =>
      obtain ⟨hnone, hlen⟩ := ih hgoes.before
      have hround := hgoes.before.concat round
      rw [List.countP_append, List.flatMap_append, List.length_append, ← hnone, ← hlen, hround]
      rcases ttyRound_arrived size (0 > line.tmaxMs size) round (line.behind size rounds) with
        ⟨hinterrupted, harrived, hcalls⟩ | ⟨hquiet, harrived, hcalls⟩ |
        ⟨hquiet, -, hcalls, hcurr⟩
      · rw [hcalls, moved_append_none, List.count_append]
        simp [hinterrupted, harrived]
      · rw [hcalls]
        simp [hquiet, harrived]
      · -- the pointer is not at the end, so there was room for all of it
        have hroom : (line.behind size (rounds ++ [round])).curr ≠ size := by
          intro hend
          rw [SerialLine.GoesOn, TtyState.returned, hend] at hgoes
          simp at hgoes
        rw [hround, hcurr, List.length_take] at hroom
        have hle := (stores_behind line size rounds).le
        have hall : round.arrived.take (size - (line.behind size rounds).curr).toNat =
            round.arrived := List.take_of_length_le (by omega)
        rw [hcalls, hall, moved_append_some, List.count_append, List.length_append]
        simp [hquiet]

theorem SerialLine.neverBehind_concat :
    line.NeverBehind size (rounds ++ [round]) ↔ line.NeverBehind size rounds ∧
      (line.GoesOn size rounds → round.arrived ≠ [] →
        rounds.countP (·.Interrupted) ≤ (rounds.flatMap TtyRound.arrived).length) := by
  constructor
  · intro hnever
    refine ⟨fun before r hle => hnever before r ?_, hnever rounds round List.prefix_rfl⟩
    exact hle.trans (List.prefix_append _ _)
  · rintro ⟨hnever, hnow⟩ before r hle
    rcases List.prefix_concat_iff.mp hle with heq | hle
    · obtain ⟨rfl, rfl⟩ := List.append_singleton_inj.mp heq
      exact hnow
    · exact hnever before r hle

/-- The calls of `read` bring what the rounds do. -/
theorem bringsAhead_iff :
    BringsAhead (line.behind size rounds).calls ↔ line.NeverBehind size rounds := by
  induction rounds using List.reverseRecOn with
  | nil =>
      have hnil : ∀ {α : Type} (before : List α) (a : α), ¬before ++ [a] <+: [] := by simp
      exact iff_of_true (fun before data hle => absurd hle (hnil before _))
        fun before round hle => absurd hle (hnil before round)
  | append_singleton rounds round ih =>
      rw [SerialLine.neverBehind_concat, ← ih]
      by_cases hgoes : line.GoesOn size rounds
      · obtain ⟨hnone, hlen⟩ := brought_of_goesOn hgoes
        rw [hgoes.concat round, ← hnone, ← hlen]
        rcases ttyRound_arrived size (0 > line.tmaxMs size) round (line.behind size rounds) with
          ⟨-, harrived, hcalls⟩ | ⟨-, harrived, hcalls⟩ | ⟨-, harrived, hcalls, -⟩
        · rw [hcalls, bringsAhead_append_none]
          simp [harrived]
        · rw [hcalls]
          simp [harrived]
        · rw [hcalls, bringsAhead_append_some]
          simp [harrived, hgoes]
      · have hreturned : (line.behind size rounds).returned size (line.tmaxMs size) = true :=
          Bool.of_not_eq_false hgoes
        rw [SerialLine.behind_concat, if_pos hreturned]
        simp [hgoes]

end

/-! ## The buffer of the read transactions -/

section

variable {α : Type} {line : SerialLine} {t : Transaction α} {size : Nat}

/-- The range given to `read_impl`, and on to `tty_read`, lies in `rx_buf`. -/
def RangeInside (t : Transaction α) : Prop := ∀ size, t.readSize = some size → size ≤ aduCapacity

/-- What the calls of `read` give in a transaction, one after the other. -/
def reads (line : SerialLine) (t : Transaction α) : List (Option (List UInt8)) :=
  match t.readSize with
  | none => []
  | some size => (line.read size).calls

/-- Every byte is stored in `rx_buf`. -/
def StoresInside (line : SerialLine) (t : Transaction α) : Prop :=
  ∀ i ∈ storedFrom 0 (reads line t), 0 ≤ i ∧ i < aduCapacity

theorem stores_read (line : SerialLine) (size : Nat) :
    Stores size line.found (line.read size) := stores_behind line size line.rounds

/-- Whatever else lies around the buffer stays as it is. -/
theorem read_leaves {i : Int} (hout : i ∉ storedFrom 0 (line.read size).calls) :
    (line.read size).buf i = line.found i := (stores_read line size).kept i hout

theorem transact_readSize (line : SerialLine) (request : List UInt8) (size : Nat)
    (finish : List UInt8 → Option (Nat × List α)) :
    (transact line request size finish).readSize = if line.writes then some size else none := by
  unfold transact writeImpl
  cases line.writes <;> rfl

theorem rangeInside_iff (ht : t.readSize = if line.writes then some size else none) :
    RangeInside t ↔ (line.writes = true → size ≤ aduCapacity) := by
  rw [RangeInside, ht]
  cases line.writes <;> simp

/-- In front of the buffer a byte is stored if a call brings bytes while the pointer is behind. -/
theorem nonneg_iff_neverBehind (line : SerialLine) (size : Nat) :
    (∀ i ∈ storedFrom 0 (line.read size).calls, 0 ≤ i) ↔ line.NeverBehind size line.rounds := by
  refine Iff.trans ?_ bringsAhead_iff
  constructor
  · rintro hall before data ⟨after, hcalls⟩
    rw [List.append_assoc, List.singleton_append] at hcalls
    replace hcalls : (line.read size).calls = before ++ some data :: after := hcalls.symm
    have hne : data ≠ [] := by
      refine (stores_read line size).brought data ?_
      rw [hcalls]
      exact List.mem_append_right _ List.mem_cons_self
    have hpos : 0 < data.length := List.length_pos_iff.mpr hne
    have hfirst := hall (pointerAfter 0 before)
      (mem_storedFrom_iff.mpr ⟨before, data, after, hcalls, Int.le_refl _, by omega⟩)
    unfold pointerAfter at hfirst
    omega
  · intro hahead i hmem
    obtain ⟨before, data, after, hcalls, hle, -⟩ := mem_storedFrom_iff.mp hmem
    have hnow := hahead before data ⟨after, by
      rw [List.append_assoc, List.singleton_append]
      exact hcalls.symm⟩
    unfold pointerAfter at hle
    omega

/-- A transaction keeps to its buffer if it asks for no more than fits, and its
pointer is never behind when bytes come. -/
theorem keeps_inside_iff (ht : t.readSize = if line.writes then some size else none) :
    RangeInside t ∧ StoresInside line t ↔
      (line.writes = true → size ≤ aduCapacity ∧ line.NeverBehind size line.rounds) := by
  rw [rangeInside_iff ht, StoresInside, reads, ht]
  cases line.writes with
  | false =>
      exact iff_of_true ⟨nofun, fun i hi => absurd hi List.not_mem_nil⟩ nofun
  | true =>
      simp only [if_true, forall_const]
      refine and_congr_right fun hsize => ?_
      rw [← nonneg_iff_neverBehind]
      have hfront := (stores_read line size).inFront
      constructor
      · exact fun hall i hi => (hall i hi).1
      · intro hall i hi
        have hlt := hfront i hi
        exact ⟨hall i hi, by omega⟩

theorem reads_length (ht : t.readSize = if line.writes then some size else none)
    (hwrites : line.writes = true) (hsmooth : Smooth (line.tmaxMs size) line.rounds) :
    (moved (reads line t)).length = min size (line.rounds.flatMap TtyRound.arrived).length := by
  rw [reads, ht, hwrites, if_pos rfl]
  show (moved (ttyReadLoop _ _ _ _).calls).length = _
  rw [moved_ttyReadLoop line.found hsmooth, List.length_take]

/-- Without an interrupted `read` only the size counts, and a byte is stored
outside if more bytes than fit are brought. -/
theorem uninterrupted_inside_iff (ht : t.readSize = if line.writes then some size else none)
    (hcalls : ∀ round ∈ line.rounds, ¬round.Interrupted) :
    (RangeInside t ∧ StoresInside line t ↔ (line.writes = true → size ≤ aduCapacity)) ∧
      (StoresInside line t ↔
        (line.writes = true →
          size ≤ aduCapacity ∨ (moved (reads line t)).length ≤ aduCapacity)) := by
  have hnone : none ∉ reads line t := by
    rw [reads, ht]
    cases line.writes with
    | false => exact List.not_mem_nil
    | true => exact none_not_mem_run List.not_mem_nil hcalls
  refine ⟨?_, ?_⟩
  · rw [keeps_inside_iff ht]
    refine forall_congr' fun _ => and_iff_left ?_
    intro before round hle _ _
    have hbefore : before.countP (·.Interrupted) = 0 := by
      refine List.countP_eq_zero.mpr fun r hr => ?_
      simpa using hcalls r (hle.subset (List.mem_append_left _ hr))
    rw [hbefore]
    exact Nat.zero_le _
  · have hmem : ∀ i, i ∈ storedFrom 0 (reads line t) ↔
        0 ≤ i ∧ i < 0 + ((moved (reads line t)).length : Int) :=
      fun i => mem_storedFrom_of_none hnone
    simp only [StoresInside, hmem]
    constructor
    · intro hall _
      refine .inr ?_
      by_contra hbig
      have hlast := hall aduCapacity ⟨Int.natCast_nonneg _, by omega⟩
      omega
    · intro hsmall i hi
      refine ⟨hi.1, ?_⟩
      cases hwrites : line.writes with
      | false =>
          have hnothing : reads line t = [] := by rw [reads, ht, hwrites]; rfl
          rw [hnothing] at hi
          simp only [moved, List.filterMap_nil, List.flatten_nil, List.length_nil] at hi
          omega
      | true =>
          rcases hsmall hwrites with hsize | hlen
          · have hreads : reads line t = (line.read size).calls := by rw [reads, ht, hwrites]; rfl
            have hlt := (stores_read line size).inFront i (by rw [← hreads]; exact (hmem i).mpr hi)
            omega
          · omega

end

/-- For every slave and memory address, every count, and whatever the system
does: a read transaction keeps to `rx_buf` exactly if its request is not
written, or its count is at most 125 registers or 249 bytes and no round of
`tty_read` has bytes for it when more of the rounds before have interrupted a
`read` than bytes have arrived in them. Without an interrupted `read` it is the
count alone, and with a larger count a byte is stored outside exactly if more
than 256 bytes are brought. -/
theorem reads_stay_inside_iff (line : SerialLine) (addr : UInt8) (memAddr : Data16) :
    (∀ count : Data16, ∃ t, rtuMasterRdHoldingRegisters line addr memAddr count = some t ∧
      (RangeInside t ∧ StoresInside line t ↔
        (line.writes = true → count.toWord.toNat ≤ 125 ∧
          line.NeverBehind (3 + count.toWord.toNat * 2 + 2) line.rounds)) ∧
      ((∀ round ∈ line.rounds, ¬round.Interrupted) →
        (RangeInside t ∧ StoresInside line t ↔ (line.writes = true → count.toWord.toNat ≤ 125)) ∧
        (StoresInside line t ↔ (line.writes = true →
          count.toWord.toNat ≤ 125 ∨ (moved (reads line t)).length ≤ 256)))) ∧
    (∀ count : UInt8, ∃ t, rtuMasterRdBytes line addr memAddr count = some t ∧
      (RangeInside t ∧ StoresInside line t ↔
        (line.writes = true → count.toNat ≤ 249 ∧
          line.NeverBehind (5 + count.toNat + 2) line.rounds)) ∧
      ((∀ round ∈ line.rounds, ¬round.Interrupted) →
        (RangeInside t ∧ StoresInside line t ↔ (line.writes = true → count.toNat ≤ 249)) ∧
        (StoresInside line t ↔ (line.writes = true →
          count.toNat ≤ 249 ∨ (moved (reads line t)).length ≤ 256)))) := by
  constructor
  · intro count
    obtain ⟨request, hcall⟩ := rtuMasterRdHoldingRegisters_eq line addr memAddr count
    have hsize := transact_readSize line request (3 + count.toWord.toNat * 2 + 2)
      fun rxBuf => (parseReplyRdHoldingRegisters rxBuf).map fun rep =>
        (count.toWord.toNat, rep.data.take count.toWord.toNat)
    have hlimit : 3 + count.toWord.toNat * 2 + 2 ≤ aduCapacity ↔ count.toWord.toNat ≤ 125 := by
      rw [aduCapacity]
      omega
    refine ⟨_, hcall, ?_, fun hcalls => ?_⟩
    · rw [keeps_inside_iff hsize, hlimit]
    · have hinside := uninterrupted_inside_iff hsize hcalls
      rwa [hlimit] at hinside
  · intro count
    obtain ⟨request, hcall⟩ := rtuMasterRdBytes_eq line addr memAddr count
    have hsize := transact_readSize line request (5 + count.toNat + 2)
      fun rxBuf => (parseReplyRdBytes rxBuf).map fun rep =>
        (count.toNat, rep.bytes.take count.toNat)
    have hlimit : 5 + count.toNat + 2 ≤ aduCapacity ↔ count.toNat ≤ 249 := by
      rw [aduCapacity]
      omega
    refine ⟨_, hcall, ?_, fun hcalls => ?_⟩
    · rw [keeps_inside_iff hsize, hlimit]
    · have hinside := uninterrupted_inside_iff hsize hcalls
      rwa [hlimit] at hinside

/-- A line on which the first `read` is interrupted, and a byte comes behind it. -/
def interruptedLine : SerialLine where
  rate := .b19200
  timeoutExecMs := 0
  writes := true
  rounds :=
    [{ poll := .ready, device := true, aux := false, elapsedMs := 1, transfer := none },
      { poll := .ready, device := true, aux := false, elapsedMs := 2
        transfer := some ⟨[0x11], by decide⟩ }]
  found := fun _ => 0

/-- 126 registers, and 257 bytes that arrive at once: the last byte is stored
behind `rx_buf`. One register, and an interrupted `read`: the first byte is
stored in front of it. -/
theorem reads_leave_buffer :
    (∃ t, rtuMasterRdHoldingRegisters (.bringing (List.replicate 257 0)) 0x11 (.ofWord 0x1000)
        (.ofWord 126) = some t ∧
      ¬RangeInside t ∧ ¬StoresInside (.bringing (List.replicate 257 0)) t) ∧
    (∃ t, rtuMasterRdHoldingRegisters interruptedLine 0x11 (.ofWord 0x1000) (.ofWord 1) = some t ∧
      RangeInside t ∧ ¬StoresInside interruptedLine t) := by
  constructor
  · obtain ⟨request, hcall⟩ := rtuMasterRdHoldingRegisters_eq
      (.bringing (List.replicate 257 0)) 0x11 (.ofWord 0x1000) (.ofWord 126)
    have hsize := transact_readSize (.bringing (List.replicate 257 0)) request 257
      fun rxBuf => (parseReplyRdHoldingRegisters rxBuf).map fun rep => (126, rep.data.take 126)
    have hsmooth := SerialLine.smooth_bringing (List.replicate 257 0) 257
    have hreads := reads_length hsize rfl hsmooth
    rw [SerialLine.arrived_bringing, List.length_replicate] at hreads
    have hinside := (uninterrupted_inside_iff hsize hsmooth.calls).2
    refine ⟨_, hcall, ?_, ?_⟩
    · intro hrange
      exact absurd ((rangeInside_iff hsize).mp hrange rfl) (by decide)
    · intro hstores
      rcases hinside.mp hstores rfl with hbig | hbig
      · exact absurd hbig (by decide)
      · rw [hreads] at hbig
        exact absurd hbig (by decide)
  · obtain ⟨request, hcall⟩ := rtuMasterRdHoldingRegisters_eq interruptedLine 0x11
      (.ofWord 0x1000) (.ofWord 1)
    have hsize := transact_readSize interruptedLine request 7
      fun rxBuf => (parseReplyRdHoldingRegisters rxBuf).map fun rep => (1, rep.data.take 1)
    refine ⟨_, hcall, (rangeInside_iff hsize).mpr fun _ => by decide, ?_⟩
    intro hstores
    have hfirst : (-1 : Int) ∈ storedFrom 0 [none, some [0x11]] := by decide
    exact absurd (hstores (-1) hfirst).1 (by decide)

end ModbusRtu
