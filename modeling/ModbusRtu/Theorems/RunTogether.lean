import ModbusRtu.Logic.Residue
import ModbusRtu.Theorems.ErrorDetection
import ModbusRtu.Theorems.Losses

/-!
# Frames that are not kept apart

A frame is told from the next by silence alone. Where the silence is missed, two
frames are taken for one, and where noise is heard before or after a frame, its
bytes are taken for the frame's. The CRC notices: two valid frames never make a
valid one, a stray byte in front of a frame is noticed, and of stray bytes
behind it all but zeros (`misframed_rejected`). The slave then loses both frames
and one more (`run_together_costs_three`).
-/

namespace ModbusRtu

open Base

variable {U : Type} {cfg : Config U} {x y : List UInt8}

/-! ## The register behind a frame -/

/-- A frame that one of the ends accepts leaves the register at zero. -/
theorem residue_of_valid (s : State cfg) (h : (aduCheck s x).1 = true ∨ validCrc x ≠ none) :
    crcTables.fold crcStart x = (0, 0) := by
  obtain ⟨bytes, rfl⟩ := exists_withCrc s h
  exact fold_withCrc bytes

/-- A frame that does not, is accepted by neither. -/
theorem rejected_of_residue (s : State cfg) (h : crcTables.fold crcStart x ≠ (0, 0)) :
    (aduCheck s x).1 = false ∧ validCrc x = none := by
  have hnone : ¬((aduCheck s x).1 = true ∨ validCrc x ≠ none) := fun hx =>
    h (residue_of_valid s hx)
  rw [not_or, Bool.not_eq_true, not_not] at hnone
  exact hnone

/-! ## Framing damage -/

/-- Whichever ends accept the frames `x` and `y`: both ends reject the two run
together, and `x` with a stray byte in front, and `x` with one or two stray
bytes behind unless they are zeros. -/
theorem misframed_rejected (s s' : State cfg) (hx : (aduCheck s x).1 = true ∨ validCrc x ≠ none)
    (hy : (aduCheck s y).1 = true ∨ validCrc y ≠ none) :
    ((aduCheck s' (x ++ y)).1 = false ∧ validCrc (x ++ y) = none) ∧
      (∀ b, (aduCheck s' (b :: x)).1 = false ∧ validCrc (b :: x) = none) ∧
      ∀ tail : List UInt8, tail.length ≤ 2 → (∃ b ∈ tail, b ≠ 0) →
        (aduCheck s' (x ++ tail)).1 = false ∧ validCrc (x ++ tail) = none := by
  have hzero : crcTables.fold crcStart x = (0, 0) := residue_of_valid s hx
  have hzero' : crcTables.fold crcStart y = (0, 0) := residue_of_valid s hy
  refine ⟨?_, ?_, ?_⟩
  · apply rejected_of_residue s'
    rw [CrcTables.fold_append, hzero]
    exact fold_zero_ne hzero'
  · intro b
    apply rejected_of_residue s'
    intro h
    refine fold_start_single b (CrcTables.fold_injective crcTables_high_injective x ?_)
    show crcTables.fold (crcTables.fold crcStart [b]) x = crcTables.fold crcStart x
    rw [← CrcTables.fold_append, hzero]
    exact h
  · rintro tail hlen ⟨b, hb, hne⟩
    apply rejected_of_residue s'
    rw [CrcTables.fold_append, hzero]
    intro h
    exact hne ((fold_zero_short hlen).mp h b hb)

theorem misframed_rejected_two_requests :
    let s := modbusRtuInit listener ()
    ((aduCheck s (withCrc [1, 3] ++ withCrc [1, 4])).1 = false ∧
      validCrc (withCrc [1, 3] ++ withCrc [1, 4]) = none) ∧
      (aduCheck s (7 :: withCrc [1, 3])).1 = false := by
  intro s
  have hx : ∀ bytes : List UInt8, 2 ≤ bytes.length →
      (aduCheck s (withCrc bytes)).1 = true ∨ validCrc (withCrc bytes) ≠ none := fun bytes hlen =>
    .inl ((aduCheck_iff s _).mpr (accepted_withCrc hlen))
  obtain ⟨htwo, hfront, -⟩ :=
    misframed_rejected s s (hx [1, 3] (by decide)) (hx [1, 4] (by decide))
  exact ⟨htwo, (hfront 7).1⟩

/-- What is behind a frame goes unnoticed exactly if it is zeros, up to two bytes. -/
theorem zeros_behind_accepted (hacc : Accepted x) {tail : List UInt8} (hlen : tail.length ≤ 2) :
    Accepted (x ++ tail) ↔ ∀ b ∈ tail, b = 0 := by
  rw [accepted_append_iff hacc, fold_zero_short hlen]

/-! ## At the slave -/

variable {s : State cfg} {f g h k : List UInt8}

/-- Two requests without silence between them, and two more that are kept apart:
the slave takes the last one only. -/
theorem run_together_costs_three (hreach : (rtuSystem cfg).Reachable s)
    (hidle : s.status.curr = .idle) (hup : s.status.updated = false) (hf : Accepted f)
    (hg : Accepted g) (hh : h ≠ []) (hk : Accepted k) (hcap : (f ++ g).length ≤ cfg.rxbufCapacity)
    (hcapk : k.length ≤ cfg.rxbufCapacity) :
    (∃ s', Traffic s [f ++ g, h, k] s') ∧ ∀ s', Traffic s [f ++ g, h, k] s' →
      (pduCalls (callsSince s s')).map PduArgs.frame = [k] := by
  have hquiet : Quiet s := ⟨wf_invariant.holds hreach, hidle, hup⟩
  have hrej : ¬Accepted (f ++ g) := by
    rw [accepted_append_iff hf]
    exact fold_zero_ne (accepted_iff_residue.mp hg).2
  have hlen : 4 ≤ f.length := hf.1
  have hlenk : 4 ≤ k.length := hk.1
  have hne : ∀ m ∈ [f ++ g, h, k], m ≠ [] := by
    intro m hm
    simp only [List.mem_cons, List.not_mem_nil, or_false] at hm
    rcases hm with rfl | rfl | rfl
    · exact List.append_ne_nil_of_left_ne_nil (List.length_pos_iff.mp (by omega)) g
    · exact hh
    · exact List.length_pos_iff.mp (by omega)
  refine ⟨exists_traffic_hearing hquiet.atRest hne, ?_⟩
  intro s' htraffic
  have hbad : (frameHearing cfg.rxbufCapacity).good (f ++ g) = false :=
    decide_eq_false fun hgood => hrej hgood.1
  have hdeafens : (frameHearing cfg.rxbufCapacity).deafens (f ++ g) = true := by
    refine decide_eq_true ⟨?_, hcap, hrej⟩
    rw [List.length_append]
    omega
  have hgood : (frameHearing cfg.rxbufCapacity).good k = true := decide_eq_true ⟨hk, hcapk⟩
  rw [htraffic.delivered hquiet.atRest hne, Hearing.survivors_cons, Hearing.survivors_cons,
    Hearing.survivors_cons]
  simp only [Hearing.taken, Hearing.after, hbad, hdeafens, hgood, Bool.not_false, Bool.true_and,
    Bool.false_eq_true, if_false, Bool.not_true, Bool.false_and, if_true, List.nil_append]
  rfl

theorem run_together_costs_three_listener :
    ∃ s', Traffic idleListener
        [withCrc [1, 3] ++ withCrc [1, 4], withCrc [1, 5], withCrc [1, 6]] s' ∧
      (pduCalls (callsSince idleListener s')).map PduArgs.frame = [withCrc [1, 6]] := by
  obtain ⟨⟨s', htraffic⟩, hall⟩ :=
    run_together_costs_three (f := withCrc [1, 3]) (g := withCrc [1, 4]) (h := withCrc [1, 5])
      (k := withCrc [1, 6]) idleListener_reachable rfl rfl (accepted_withCrc (by decide))
      (accepted_withCrc (by decide)) (by simp [withCrc]) (accepted_withCrc (by decide))
      (by decide) (by decide)
  exact ⟨s', htraffic, hall s' htraffic⟩

end ModbusRtu
