import Mathlib.Tactic.Common

/-!
Journals: entries that are applied in order to a state, each recorded with the offset at which
it was applied, where an entry advances the offset by its size.
-/

namespace Lib

variable {σ ε : Type} (apply : σ → ε → Option σ) (size : ε → Nat)

/-- The state and the offset after the entries, if each was recorded where the one before it
ended and can be applied there. -/
def playback : σ × Nat → List (Nat × ε) → Option (σ × Nat)
  | start, [] => some start
  | (state, offset), (recorded, entry) :: rest =>
    if recorded = offset then
      match apply state entry with
      | none => none
      | some next => playback (next, offset + size entry) rest
    else none

variable {apply size}

lemma playback_cons : playback apply size (state, offset) ((recorded, entry) :: rest) = some final ↔
      recorded = offset ∧ ∃ next, apply state entry = some next ∧
        playback apply size (next, offset + size entry) rest = some final := by
  rw [playback]
  by_cases same : recorded = offset
  · cases applied : apply state entry with
    | none | some next => simp [same]
  · simp [same]

lemma playback_append : playback apply size start (left ++ right) = some final ↔
      ∃ between, playback apply size start left = some between ∧
        playback apply size between right = some final := by
  induction left generalizing start with
  | nil => simp [playback]
  | cons first rest ih =>
    obtain ⟨state, offset⟩ := start
    obtain ⟨recorded, entry⟩ := first
    rw [List.cons_append, playback_cons]
    constructor
    · rintro ⟨same, next, applied, played⟩
      obtain ⟨between, front, behind⟩ := ih.mp played
      exact ⟨between, playback_cons.mpr ⟨same, next, applied, front⟩, behind⟩
    · rintro ⟨between, front, behind⟩
      obtain ⟨same, next, applied, played⟩ := playback_cons.mp front
      exact ⟨same, next, applied, ih.mpr ⟨between, played, behind⟩⟩

lemma playback_le (played : playback apply size start entries = some final) :
    start.2 ≤ final.2 := by
  induction entries generalizing start with
  | nil =>
    simp only [playback] at played
    cases played
    exact Nat.le_refl _
  | cons first rest ih =>
    obtain ⟨-, next, -, later⟩ := playback_cons.mp played
    have further := ih later
    simp only at further
    omega

lemma playback_recorded_le (played : playback apply size start entries = some final) :
    ∀ entry ∈ entries, entry.1 ≤ final.2 := by
  induction entries generalizing start with
  | nil => simp
  | cons first rest ih =>
    obtain ⟨same, next, -, later⟩ := playback_cons.mp played
    intro entry member
    rcases List.mem_cons.mp member with rfl | behind
    · have further := playback_le later
      simp only at further
      omega
    · exact ih later entry behind

end Lib
