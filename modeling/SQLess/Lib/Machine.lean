import Mathlib.Data.Option.Basic

/-!
Machines whose steps may be impossible, their runs, and invariants of the runs in which every
event is allowed.
-/

namespace Lib

open List

variable {σ ε : Type}

def run (step : σ → ε → Option σ) : List ε → σ → Option σ
  | [], s => some s
  | event :: rest, s =>
    match step s event with
    | none => none
    | some s => run step rest s

def Always (step : σ → ε → Option σ) (allowed : σ → ε → Prop) : List ε → σ → Prop
  | [], _ => True
  | event :: rest, s => allowed s event ∧ ∀ s' ∈ step s event, Always step allowed rest s'

instance decidableAlways (step : σ → ε → Option σ) (allowed : σ → ε → Prop)
    [∀ s event, Decidable (allowed s event)] :
    (events : List ε) → (s : σ) → Decidable (Always step allowed events s)
  | [], _ => .isTrue trivial
  | event :: rest, s =>
    have _later : DecidablePred (Always step allowed rest) := decidableAlways step allowed rest
    inferInstanceAs (Decidable (_ ∧ ∀ s' ∈ step s event, Always step allowed rest s'))

variable {step : σ → ε → Option σ} {allowed : σ → ε → Prop}

lemma always_of_forall (all : ∀ s event, allowed s event) (events) (s : σ) :
    Always step allowed events s := by
  induction events generalizing s with
  | nil => trivial
  | cons event rest ih => exact ⟨all s event, fun s' _ => ih s'⟩

lemma run_invariant (invariant : σ → Prop)
    (kept : ∀ s event s', invariant s → allowed s event → step s event = some s' → invariant s')
    (holds : invariant s) (always : Always step allowed events s)
    (ran : run step events s = some s') : invariant s' := by
  induction events generalizing s with
  | nil =>
    cases ran
    exact holds
  | cons event rest ih =>
    obtain ⟨now, later⟩ := always
    rw [run] at ran
    cases stepped : step s event with
    | none =>
      rw [stepped] at ran
      cases ran
    | some between =>
      rw [stepped] at ran
      exact ih (kept s event between holds now stepped) (later between stepped) ran

lemma run_some (step : σ → ε → σ) (events) (s : σ) :
    run (fun s event => some (step s event)) events s = some (events.foldl step s) := by
  induction events generalizing s with
  | nil => rfl
  | cons event rest ih => exact ih (step s event)

def Throughout (step : σ → ε → Option σ) (P : σ → Prop) (events : List ε) (s : σ) : Prop :=
  ∀ before s', before <+: events → run step before s = some s' → P s'

lemma throughout_cons : Throughout step P (event :: rest) s ↔
      P s ∧ ∀ s', step s event = some s' → Throughout step P rest s' := by
  constructor
  · intro all
    refine ⟨all [] s nil_prefix rfl, ?_⟩
    intro s' stepped before final front ran
    refine all (event :: before) final (cons_prefix_cons.mpr ⟨rfl, front⟩) ?_
    rw [run, stepped]
    exact ran
  · rintro ⟨now, later⟩ before final front ran
    cases before with
    | nil =>
      cases ran
      exact now
    | cons first before =>
      obtain ⟨rfl, shorter⟩ := cons_prefix_cons.mp front
      rw [run] at ran
      cases stepped : step s first with
      | none =>
        rw [stepped] at ran
        cases ran
      | some between =>
        rw [stepped] at ran
        exact later between stepped before final shorter ran

/-- Where a step keeps a property exactly if it is allowed, the property holds throughout a run
exactly if every step of it is allowed. -/
lemma throughout_iff_always {I P : σ → Prop}
    (kept : ∀ s event s', I s → step s event = some s' → I s')
    (exact : ∀ s event s', I s → P s → step s event = some s' → (P s' ↔ allowed s event))
    (stuck : ∀ s event, I s → P s → step s event = none → allowed s event) (inside : I s)
    (holds : P s) : Throughout step P events s ↔ Always step allowed events s := by
  induction events generalizing s with
  | nil =>
    refine iff_of_true ?_ trivial
    intro before s' front ran
    cases prefix_nil.mp front
    cases ran
    exact holds
  | cons event rest ih =>
    rw [throughout_cons, Always, and_iff_right holds]
    cases stepped : step s event with
    | none => simp [stuck s event inside holds stepped]
    | some between =>
      have inside' := kept s event between inside stepped
      have step_iff := exact s event between inside holds stepped
      simp only [Option.mem_some_iff, Option.some.injEq, forall_eq']
      constructor
      · intro later
        have holds' : P between := later [] between nil_prefix rfl
        exact ⟨step_iff.mp holds', (ih inside' holds').mp later⟩
      · rintro ⟨now, later⟩
        exact (ih inside' (step_iff.mpr now)).mpr later

end Lib
