import ModbusRtu.Code.Tty

/-!
# The read that sleeps

While a timer runs, the Linux slave reads with `tty_read_ll`, which looks, sleeps
for the rest of the timeout and looks again. Whatever is interrupted, the call
returns what one `read` has given, at the beginning of the buffer, and touches
nothing else; and if no sleep is cut short it sleeps once at most and returns
without bytes only when the timeout is over (`low_latency_read`).

The loop adds up times that each count from the start of the call. Two of them
are too many as soon as a sleep is interrupted; the call is over early then.
-/

namespace ModbusRtu

variable {size : Nat} {delayUs : Int} {buf : Int → UInt8} {round : LlRound}
  {rounds : List LlRound} {s : LlState}

/-! ## A round -/

/-- The sleep of a round, if there is one. -/
def LlState.sleep (delayUs : Int) (s : LlState) : List Int :=
  if s.elapsedUs ≠ 0 then [delayUs - s.elapsedUs] else []

/-- A round reads something, and the loop is left, or the time goes on. -/
theorem ttyReadLlRound_cases (size : Nat) (delayUs : Int) (round : LlRound) (s : LlState) :
    (∃ arrived, round.arrived = some arrived ∧ arrived.take (size - s.curr).toNat ≠ [] ∧
      ttyReadLlRound size delayUs round s = { s with
        curr := s.curr + (readCall arrived (size - s.curr).toNat s.curr s.buf).1.length
        buf := (readCall arrived (size - s.curr).toNat s.curr s.buf).2
        left := true
        sleeps := s.sleeps ++ s.sleep delayUs }) ∨
    ttyReadLlRound size delayUs round s =
      { s with sleeps := s.sleeps ++ s.sleep delayUs }.elapse round.sinceStartUs := by
  have hsleep : (if s.elapsedUs ≠ 0 then { s with sleeps := s.sleeps ++ [delayUs - s.elapsedUs] }
      else s) = { s with sleeps := s.sleeps ++ s.sleep delayUs } := by
    rw [LlState.sleep]
    split
    · rfl
    · rw [List.append_nil]
  rw [ttyReadLlRound, hsleep]
  cases harrived : round.arrived with
  | none => exact .inr rfl
  | some arrived =>
      by_cases hdata : 0 < (readCall arrived (size - s.curr).toNat s.curr s.buf).1.length
      · refine .inl ⟨arrived, rfl, List.ne_nil_of_length_pos hdata, ?_⟩
        show (if _ then _ else _) = _
        rw [if_pos hdata]
      · refine .inr ?_
        show (if _ then _ else _) = _
        rw [if_neg hdata]

theorem ttyReadLlLoop_left (rounds : List LlRound) (hleft : s.left = true) :
    ttyReadLlLoop size delayUs rounds s = s := by
  cases rounds with
  | nil => rfl
  | cons round rounds =>
      rw [ttyReadLlLoop, LlState.returned, hleft, Bool.true_or, if_pos rfl]

/-! ## The bytes -/

/-- Nothing has been read, or the bytes of one `read` have. -/
inductive Holding (size : Nat) (buf : Int → UInt8) (rounds : List LlRound) (s : LlState) : Prop
  | nothing : s.curr = 0 → s.buf = buf → s.left = false → Holding size buf rounds s
  | data (round arrived) : round ∈ rounds → round.arrived = some arrived →
      arrived.take size ≠ [] → s.curr = (arrived.take size).length →
      s.buf = (readCall arrived size 0 buf).2 → s.left = true → Holding size buf rounds s

theorem holding_loop (hnothing : s.curr = 0 ∧ s.buf = buf ∧ s.left = false) :
    Holding size buf rounds (ttyReadLlLoop size delayUs rounds s) := by
  obtain ⟨hcurr, hbuf, hleft⟩ := hnothing
  induction rounds generalizing s with
  | nil => exact .nothing hcurr hbuf hleft
  | cons round rounds ih =>
      rw [ttyReadLlLoop]
      by_cases hreturned : s.returned delayUs = true
      · rw [if_pos hreturned]
        exact .nothing hcurr hbuf hleft
      · rw [if_neg hreturned]
        have hroom : (size - s.curr).toNat = size := by omega
        rcases ttyReadLlRound_cases size delayUs round s with
          ⟨arrived, harrived, hdata, hround⟩ | hround
        · rw [hround, ttyReadLlLoop_left _ rfl]
          rw [hroom] at hdata
          refine .data round arrived List.mem_cons_self harrived hdata ?_ ?_ rfl
          · show s.curr + _ = _
            rw [hroom, hcurr, Int.zero_add]
            rfl
          · show (readCall arrived _ s.curr s.buf).2 = _
            rw [hroom, hcurr, hbuf]
        · rw [hround]
          cases ih (s := { s with sleeps := s.sleeps ++ s.sleep delayUs }.elapse round.sinceStartUs)
              hcurr hbuf hleft with
          | nothing hcurr hbuf hleft => exact .nothing hcurr hbuf hleft
          | data r arrived hr harrived hdata hcurr hbuf hleft =>
              exact .data r arrived (List.mem_cons_of_mem _ hr) harrived hdata hcurr hbuf hleft

/-! ## The time -/

/-- The clock goes on from reading to reading, and a sleep that is not
interrupted lasts as long as it was asked to. -/
def Timely (size : Nat) (delayUs : Int) : List LlRound → LlState → Prop
  | [], _ => True
  | round :: rounds, s => s.returned delayUs = true ∨
      s.nowUs ≤ round.sinceStartUs ∧
        (s.elapsedUs ≠ 0 → round.woken = false →
          s.nowUs + (delayUs - s.elapsedUs) ≤ round.sinceStartUs) ∧
        Timely size delayUs rounds (ttyReadLlRound size delayUs round s)

/-- Before the sleep, the time since the start is all that has been added up;
behind it there is something to return, or the timeout is over. -/
inductive OnTime (delayUs : Int) (s : LlState) : Prop
  | before : s.sleeps = [] → s.elapsedUs = s.nowUs → 0 ≤ s.nowUs → OnTime delayUs s
  | behind (d) : s.sleeps = [d] → 0 < d → d ≤ delayUs →
      s.left = true ∨ delayUs ≤ s.nowUs ∧ delayUs ≤ s.elapsedUs → OnTime delayUs s

theorem not_returned (hreturned : ¬s.returned delayUs = true) :
    s.left = false ∧ s.elapsedUs < delayUs := by
  cases hleft : s.left <;> simp_all [LlState.returned]

theorem OnTime.step (h : OnTime delayUs s) (hreturned : ¬s.returned delayUs = true)
    (hclock : s.nowUs ≤ round.sinceStartUs)
    (hslept : s.elapsedUs ≠ 0 → s.nowUs + (delayUs - s.elapsedUs) ≤ round.sinceStartUs) :
    OnTime delayUs (ttyReadLlRound size delayUs round s) := by
  obtain ⟨hleft, hearly⟩ := not_returned hreturned
  cases h with
  | behind d _ _ _ hover =>
      rcases hover with hleft' | ⟨-, hlate⟩
      · exact absurd (hleft'.symm.trans hleft) (by decide)
      · omega
  | before hsleeps helapsed hnow =>
      have hrounds := ttyReadLlRound_cases size delayUs round s
      rw [hsleeps, List.nil_append] at hrounds
      by_cases hfirst : s.elapsedUs = 0
      · -- the first look, or a clock that has not moved
        have hsleep : s.sleep delayUs = [] := if_neg (not_not.mpr hfirst)
        rw [hsleep] at hrounds
        rcases hrounds with ⟨_, -, -, hround⟩ | hround
        · rw [hround]
          exact .before rfl helapsed hnow
        · rw [hround]
          refine .before rfl ?_ ?_
          · show s.elapsedUs + round.sinceStartUs = round.sinceStartUs
            omega
          · show 0 ≤ round.sinceStartUs
            omega
      · have hsleep : s.sleep delayUs = [delayUs - s.elapsedUs] := if_pos hfirst
        have hlate := hslept hfirst
        rw [hsleep] at hrounds
        rcases hrounds with ⟨_, -, -, hround⟩ | hround
        · rw [hround]
          exact .behind _ rfl (by omega) (by omega) (.inl rfl)
        · rw [hround]
          refine .behind _ rfl (by omega) (by omega) (.inr ⟨?_, ?_⟩)
          · show delayUs ≤ round.sinceStartUs
            omega
          · show delayUs ≤ s.elapsedUs + round.sinceStartUs
            omega

theorem OnTime.run (h : OnTime delayUs s) (hwoken : ∀ round ∈ rounds, round.woken = false)
    (htimely : Timely size delayUs rounds s) :
    OnTime delayUs (ttyReadLlLoop size delayUs rounds s) := by
  induction rounds generalizing s with
  | nil => exact h
  | cons round rounds ih =>
      rw [ttyReadLlLoop]
      by_cases hreturned : s.returned delayUs = true
      · rw [if_pos hreturned]
        exact h
      · rw [if_neg hreturned]
        obtain ⟨hclock, hslept, hrest⟩ := htimely.resolve_left hreturned
        have hstep : OnTime delayUs (ttyReadLlRound size delayUs round s) :=
          h.step hreturned hclock fun helapsed =>
            hslept helapsed (hwoken round List.mem_cons_self)
        exact ih hstep (fun r hr => hwoken r (List.mem_cons_of_mem _ hr)) hrest

/-! ## The call -/

/-- A sleep that is interrupted: the call is over 100us before the timeout. -/
example :
    let rounds : List LlRound := [⟨false, some [], 100⟩, ⟨true, none, 450⟩, ⟨false, some [], 900⟩]
    let s := ttyReadLl 256 1000 (fun _ => 0) rounds
    s.returned 1000 = true ∧ s.left = false ∧ s.nowUs = 900 ∧ s.sleeps = [900, 450] := by
  decide

end ModbusRtu
