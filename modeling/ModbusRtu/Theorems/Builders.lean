import ModbusRtu.Logic.MasterFrames
import ModbusRtu.Logic.RequestCalls

/-!
# What a request builder returns

For all seven builders: `request_documented` says when a request is built and
what stands behind the pointer then; `failed_build_leaves_iff` says when a
builder that returns `NULL` has left the destination as it was. The builders for
coils copy the six bytes of the body before they find out that the CRC does not
fit, so they have not if the room is six or seven bytes.
-/

namespace ModbusRtu

open Base

namespace RequestCall

/-! ## The request -/

/-- The builder returns `NULL` exactly for a refused argument or too little room, otherwise the
pointer behind the documented request, which both CRC checks accept; and it stores nothing at
`dst + max_size` or behind. -/
def Documented (call : RequestCall) (cells : Nat → UInt8) (maxSize : Nat) : Prop :=
  ∃ result dst, call.make { cells := cells, stored := [] } maxSize = some (result, dst) ∧
    (result = none ↔ call.Refused ∨ maxSize < call.adu.length) ∧
    (∀ n, result = some n →
      n = call.adu.length ∧ n ≤ maxSize ∧ dst.read n = call.adu ∧
        validCrc (dst.read n) = some (n - 2) ∧
        ∀ {U : Type} (cfg : Config U) (s : State cfg), aduCheck s (dst.read n) = (true, s)) ∧
    ∀ i ∈ dst.stored, i < maxSize

/-- Both checks accept the request a builder has completed. -/
theorem validCrc_adu (call : RequestCall) : validCrc call.adu = some (call.adu.length - 2) := by
  have hne : call.body ≠ [] := by cases call <;> simp [body]
  rw [adu, validCrc_withCrc_eq hne, length_withCrc, Nat.add_sub_cancel]

theorem aduCheck_adu (call : RequestCall) {U : Type} {cfg : Config U} (s : State cfg) :
    aduCheck s call.adu = (true, s) := by
  have hlen : 2 ≤ call.body.length := by cases call <;> simp [body]
  obtain ⟨hmin, hmatches⟩ := accepted_withCrc hlen
  rw [adu, aduCheck, if_neg (Nat.not_lt.mpr hmin), hmatches]
  rfl

theorem request_documented (call : RequestCall) (cells : Nat → UInt8) (maxSize : Nat) :
    call.Documented cells maxSize := by
  obtain ⟨hbody, hchecked⟩ := length_body_le_checkedSize call
  rcases make_cases call { cells := cells, stored := [] } maxSize with
    ⟨hrefused, hmake⟩ | ⟨hlegal, hroom, hfits, hmake⟩ | ⟨hlegal, hfits, hmake⟩
  · refine ⟨_, _, hmake, iff_of_true rfl (hrefused.imp_right fun h => by omega), ?_, ?_⟩
    · intro n hn
      exact absurd hn (by simp)
    · intro i hi
      exact absurd hi (by simp)
  · -- the body is there, and the CRC has no room
    refine ⟨_, _, hmake, iff_of_true rfl (.inr hfits), ?_, ?_⟩
    · intro n hn
      exact absurd hn (by simp)
    · intro i hi
      have hlt := RawMemory.mem_stored_memcpy.mp hi
      omega
  · refine ⟨_, _, hmake, iff_of_false (by simp) (not_or.mpr ⟨hlegal, by omega⟩), ?_, ?_⟩
    · rintro n ⟨⟩
      rw [RawMemory.read_memcpy]
      exact ⟨rfl, hfits, rfl, validCrc_adu call, fun _ s => aduCheck_adu call s⟩
    · intro i hi
      have hlt := RawMemory.mem_stored_memcpy.mp hi
      omega

/-! ## The destination of a failed build -/

/-- If the builder returns `NULL`, no byte behind `dst` has changed. -/
def LeavesBuffer (call : RequestCall) (cells : Nat → UInt8) (maxSize : Nat) : Prop :=
  ∀ dst, call.make { cells := cells, stored := [] } maxSize = some (none, dst) →
    dst.cells = cells

/-- The requests for coils, whose builders check for the body first and for the CRC later. -/
def ForCoils : RequestCall → Prop
  | rdCoils _ _ _ => True
  | wrCoil _ _ _ => True
  | _ => False

theorem ForCoils.length_body {call : RequestCall} (h : call.ForCoils) :
    call.body.length = 6 := by
  cases call with
  | rdCoils _ _ _ => rfl
  | wrCoil _ _ _ => rfl
  | _ => exact h.elim

/-- The check in front of the first copy lets a build pass that fails later. -/
theorem checkedSize_le_iff (call : RequestCall) (maxSize : Nat) :
    call.checkedSize ≤ maxSize ∧ maxSize < call.adu.length ↔
      call.ForCoils ∧ 6 ≤ maxSize ∧ maxSize < 8 := by
  cases call <;> simp [ForCoils, checkedSize, body]

/-- A failed build has changed the destination exactly if it was a request for coils, legal, with
room for the body and not for the CRC, and the body was not there before. -/
theorem failed_build_leaves_iff (call : RequestCall) (cells : Nat → UInt8) (maxSize : Nat) :
    call.LeavesBuffer cells maxSize ↔
      ¬(call.ForCoils ∧ ¬call.Refused ∧ 6 ≤ maxSize ∧ maxSize < 8 ∧
        (List.range 6).map cells ≠ call.body) := by
  have hcoils := checkedSize_le_iff call maxSize
  rcases make_cases call { cells := cells, stored := [] } maxSize with
    ⟨hrefused, hmake⟩ | ⟨hlegal, hroom, hfits, hmake⟩ | ⟨hlegal, hfits, hmake⟩
  · -- nothing has been copied yet
    refine iff_of_true ?_ ?_
    · intro dst hdst
      rw [hmake] at hdst
      obtain rfl := (Prod.mk.inj (Option.some.inj hdst)).2
      rfl
    · rintro ⟨hcoil, hlegal, hge, hlt, -⟩
      have hroom := (hcoils.mpr ⟨hcoil, hge, hlt⟩).1
      rcases hrefused with h | h
      · exact hlegal h
      · omega
  · -- the body has been copied
    obtain ⟨hcoil, hge, hlt⟩ := hcoils.mp ⟨hroom, hfits⟩
    have hlen := hcoil.length_body
    have hsame := RawMemory.cells_memcpy_eq_iff (m := { cells := cells, stored := [] })
      (l := call.body)
    rw [hlen] at hsame
    constructor
    · rintro hleaves ⟨-, -, -, -, hdiffers⟩
      exact hdiffers (hsame.mp (hleaves _ hmake))
    · intro hcond dst hdst
      rw [hmake] at hdst
      obtain rfl := (Prod.mk.inj (Option.some.inj hdst)).2
      refine hsame.mpr ?_
      by_contra hdiffers
      exact hcond ⟨hcoil, hlegal, hge, hlt, hdiffers⟩
  · refine iff_of_true ?_ ?_
    · intro dst hdst
      rw [hmake] at hdst
      exact absurd hdst (by simp)
    · rintro ⟨hcoil, -, hge, hlt, -⟩
      have hfails := (hcoils.mpr ⟨hcoil, hge, hlt⟩).2
      omega

/-- A read of one coil, with room for the body: `NULL`, and the body is there. -/
theorem failed_build_changes_buffer :
    ¬(rdCoils 1 { high := 0, low := 0 } 1).LeavesBuffer (fun _ => 0) 6 := by
  intro hleaves
  have hcells := hleaves _ rfl
  exact absurd (congrFun hcells 0) (by decide)

end RequestCall

end ModbusRtu
