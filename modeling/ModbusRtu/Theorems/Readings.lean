import ModbusRtu.Code.LinuxSlave
import ModbusRtu.Theorems.LowLatency
import ModbusRtu.Theorems.SerialTransfer

/-!
# What a round of the Linux slave reads

`recv_impl` reads with `tty_read`, without a time limit, while no timer runs,
and with `tty_read_ll` otherwise. Both call `read` until it gives something.
`tty_read_ll` always comes back with bytes, or with none (`ofTtyLl_ttyReadLl`).
`tty_read` does so unless its call of `read` is interrupted; then the pointer it
comes back with lies in front of the buffer (`ofTty_ttyRead`).
-/

namespace ModbusRtu.LinuxSlave

/-! ## Without a time limit -/

section

variable {α : Type} {call : α → Nat → Int → (Int → UInt8) → List UInt8 × (Int → UInt8)}
  {size : Nat} {timeout : Int} {s : TtyState}

theorem ttyLoop_left {once : Bool} (rounds : List (TtyRound α)) (hleft : s.left = true) :
    ttyLoop call size timeout once rounds s = s := by
  cases rounds with
  | nil => rfl
  | cons round rounds => rw [ttyLoop, TtyState.returned, hleft, Bool.true_or, if_pos rfl]

/-- A round that calls `read` is the last one. -/
theorem ttyRound_once (call : α → Nat → Int → (Int → UInt8) → List UInt8 × (Int → UInt8))
    (size : Nat) (round : TtyRound α) (s : TtyState) :
    (ttyRound call size true round s).core = s.core ∨
      (ttyRound call size true round s).left = true := by
  by_cases hpoll : round.poll = .timeout
  · rw [ttyRound, if_pos hpoll]
    exact .inl rfl
  · rw [ttyRound, if_neg hpoll]
    by_cases hdevice : round.device = true
    · refine .inr ?_
      cases htransfer : round.transfer <;> simp [hdevice, ttyTransfer]
    · rw [if_neg hdevice]
      exact .inl (core_ite_left { s with elapsedMs := round.elapsedMs } round.aux)

end

/-- Nothing has been read, the one call of `read` has brought its bytes, or it was interrupted. -/
inductive ReadOnce (size : Nat) (s : TtyState) : Prop
  | nothing : s.calls = [] → s.curr = 0 → ReadOnce size s
  | data (data) : s.calls = [some data] → Tracks size s → ReadOnce size s
  | interrupted : s.calls = [none] → s.curr = -1 → ReadOnce size s

theorem readOnce_loop {size : Nat} {timeout : Int} {s : TtyState}
    {rounds : List (TtyRound { arrived : List UInt8 // arrived ≠ [] })}
    (hcalls : s.calls = []) (hcurr : s.curr = 0) :
    ReadOnce size
      (ttyLoop (fun arrived => readCall arrived.val) size timeout true rounds s) := by
  induction rounds generalizing s with
  | nil => exact .nothing hcalls hcurr
  | cons round rounds ih =>
      rw [ttyLoop]
      by_cases hreturned : s.returned size timeout = true
      · rw [if_pos hreturned]
        exact .nothing hcalls hcurr
      · rw [if_neg hreturned]
        have htracks : Tracks size s := by
          refine ⟨Int.le_of_eq hcurr.symm, ?_, ?_⟩
          · rw [hcurr]
            exact Int.natCast_nonneg size
          · rw [TtyState.front, hcurr, hcalls]
            rfl
        rcases ttyRound_once (fun arrived : { arrived : List UInt8 // arrived ≠ [] } =>
          readCall arrived.val) size round s with hsame | hleft
        · obtain ⟨hcurr', -, hcalls'⟩ := TtyState.core_eq_iff.mp hsame
          exact ih (hcalls'.trans hcalls) (hcurr'.trans hcurr)
        · rw [ttyLoop_left _ hleft]
          rcases ttyRound_cases (fun arrived : { arrived : List UInt8 // arrived ≠ [] } =>
            readCall arrived.val) size true round s with
            ⟨-, hcore⟩ | ⟨-, hcore⟩ | ⟨hround, x, hcore⟩
          · obtain ⟨hcurr', -, hcalls'⟩ := TtyState.core_eq_iff.mp hcore
            exact .nothing (hcalls'.trans hcalls) (hcurr'.trans hcurr)
          · obtain ⟨hcurr', -, hcalls'⟩ := TtyState.core_eq_iff.mp hcore
            refine .interrupted ?_ ?_
            · rw [hcalls', hcalls, List.nil_append]
            · rw [hcurr', hcurr]
              rfl
          · obtain ⟨-, -, hcalls'⟩ := TtyState.core_eq_iff.mp hcore
            rw [hcalls, List.nil_append] at hcalls'
            exact .data _ hcalls' (htracks.step movesBytes_readCall hround)

/-- `tty_read` as `recv_impl` calls it: it calls `read` once at most, and comes
back with the bytes, or with a pointer in front of the buffer if the call is
interrupted. -/
theorem ofTty_ttyRead (buf : Int → UInt8)
    (rounds : List (TtyRound { arrived : List UInt8 // arrived ≠ [] })) :
    let s := ttyReadLoop aduCapacity (-1) buf rounds
    (none ∉ s.calls ∧ ∃ fits, Reading.ofTty s = .bytes (moved s.calls) fits) ∨
      s.calls = [none] ∧ Reading.ofTty s = .behind := by
  intro s
  have honce : ReadOnce aduCapacity s := readOnce_loop rfl rfl
  have hbytes : Tracks aduCapacity s →
      ∃ fits, Reading.ofTty s = .bytes (moved s.calls) fits := by
    intro htracks
    have hlen : s.front.length ≤ aduCapacity := by
      have hle := htracks.le
      rw [TtyState.front, List.length_map, List.length_range]
      omega
    rw [← htracks.front, Reading.ofTty, dif_pos ⟨hlen, htracks.nonneg⟩]
    exact ⟨hlen, rfl⟩
  cases honce with
  | nothing hcalls hcurr =>
      refine .inl ⟨by rw [hcalls]; exact List.not_mem_nil, hbytes ⟨?_, ?_, ?_⟩⟩
      · exact Int.le_of_eq hcurr.symm
      · rw [hcurr]
        exact Int.natCast_nonneg _
      · rw [TtyState.front, hcurr, hcalls]
        rfl
  | data data hcalls htracks => exact .inl ⟨by simp [hcalls], hbytes htracks⟩
  | interrupted hcalls hcurr =>
      refine .inr ⟨hcalls, dif_neg ?_⟩
      rintro ⟨-, hnonneg⟩
      omega

/-! ## While a timer runs -/

/-- `tty_read_ll` comes back with the bytes of one `read`, or with none. -/
theorem ofTtyLl_ttyReadLl (delayUs : Int) (buf : Int → UInt8) (rounds : List LlRound) :
    ∃ chunk fits, Reading.ofTtyLl (ttyReadLl aduCapacity delayUs buf rounds) = .bytes chunk fits ∧
      (chunk ≠ [] → ∃ round ∈ rounds, ∃ arrived, round.arrived = some arrived ∧
        chunk = arrived.take aduCapacity) := by
  have hholding : Holding aduCapacity buf rounds (ttyReadLl aduCapacity delayUs buf rounds) :=
    holding_loop ⟨rfl, rfl, rfl⟩
  generalize ttyReadLl aduCapacity delayUs buf rounds = s at hholding
  cases hholding with
  | nothing hcurr hbuf hleft =>
      have hfront : s.front = [] := by
        rw [LlState.front, hcurr]
        rfl
      have hfits : s.front.length ≤ aduCapacity ∧ 0 ≤ s.curr := by
        rw [hfront]
        exact ⟨Nat.zero_le _, Int.le_of_eq hcurr.symm⟩
      exact ⟨s.front, hfits.1, dif_pos hfits, fun hne => absurd hfront hne⟩
  | data round arrived hmem harrived hne hcurr hbuf hleft =>
      have hfront : s.front = arrived.take aduCapacity := by
        rw [LlState.front, hcurr, hbuf]
        apply List.ext_getElem
        · rw [List.length_map, List.length_range, Int.toNat_natCast]
        · intro k hk hk'
          rw [List.getElem_map, List.getElem_range]
          simp only [readCall]
          rw [if_pos (by omega), Int.sub_zero, Int.toNat_natCast]
          exact List.getD_eq_getElem _ _ hk'
      have hfits : s.front.length ≤ aduCapacity ∧ 0 ≤ s.curr := by
        rw [hfront, hcurr]
        exact ⟨List.length_take_le _ _, Int.natCast_nonneg _⟩
      exact ⟨s.front, hfits.1, dif_pos hfits, fun _ => ⟨round, hmem, arrived, harrived, hfront⟩⟩

end ModbusRtu.LinuxSlave
