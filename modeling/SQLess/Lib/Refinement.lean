import SQLess.Lib.Program

/-! Refinement of programs by an abstraction function. -/

namespace Lib

open List

namespace Program

variable {σ τ ε α β : Type}

def Implemented (good : σ → Prop) (view : σ → τ) : Outcome σ ε α → Outcome τ ε α → Prop
  | .error reason, .error reason' => reason = reason'
  | .ok (result, after), .ok (result', after') =>
    result = result' ∧ view after = after' ∧ good after
  | _, _ => False

def Implements (good : σ → Prop) (view : σ → τ) (concrete : Program σ ε α)
    (abstract : Program τ ε α) : Prop :=
  ∀ state, good state → Implemented good view (concrete state) (abstract (view state))

section

variable {good : σ → Prop} {view : σ → τ}

lemma Implemented.eq_ok {result : Except ε α} {after}
    (implemented : Implemented good view concrete abstract) (ran : concrete = .ok (result, after)) :
    abstract = .ok (result, view after) ∧ good after := by
  subst ran
  rcases abstract with reason | ⟨result', after'⟩
  · exact absurd implemented not_false
  · obtain ⟨rfl, rfl, holds⟩ := implemented
    exact ⟨rfl, holds⟩

lemma Implemented.of_eq_ok {result : Except ε α} {after}
    (implemented : Implemented good view concrete abstract) (ran : abstract = .ok (result, after)) :
    ∃ state, concrete = .ok (result, state) ∧ view state = after ∧ good state := by
  subst ran
  rcases concrete with reason | ⟨result', state⟩
  · exact absurd implemented not_false
  · obtain ⟨rfl, same, holds⟩ := implemented
    exact ⟨state, rfl, same, holds⟩

lemma Implements.pure (value : α) :
    Implements good view (Pure.pure value : Program σ ε α) (Pure.pure value) :=
  fun _ holds => ⟨rfl, rfl, holds⟩

lemma Implements.fail (error : ε) :
    Implements good view (fail error : Program σ ε α) (Program.fail error) :=
  fun _ holds => ⟨rfl, rfl, holds⟩

lemma Implements.orFail (result) :
    Implements good view (orFail result : Program σ ε α) (Program.orFail result) := by
  cases result with
  | error error => exact .fail error
  | ok value => exact .pure value

lemma Implements.orPanic (value) :
    Implements good view (orPanic value : Program σ ε α) (Program.orPanic value) := by
  cases value with
  | none => exact fun _ _ => rfl
  | some value => exact .pure value

variable {next : α → Program σ ε β} {next' : α → Program τ ε β}

lemma Implements.bind (head : Implements good view concrete abstract)
    (tail : ∀ value, Implements good view (next value) (next' value)) :
    Implements good view (concrete >>= next) (abstract >>= next') := by
  intro state holds
  have started := head state holds
  rw [bind_run, bind_run]
  rcases ran : concrete state with reason | ⟨result, after⟩
  · rcases ran' : abstract (view state) with reason' | ⟨result', after'⟩
    · rw [ran, ran'] at started
      exact started
    · rw [ran, ran'] at started
      exact absurd started not_false
  · obtain ⟨ran', kept⟩ := started.eq_ok ran
    rw [ran']
    cases result with
    | error => exact ⟨rfl, rfl, kept⟩
    | ok value => exact tail value after kept

lemma Implemented.pure (holds : good state) (same : view state = state')
    (value : α) : Implemented good view ((Pure.pure value : Program σ ε α) state)
      ((Pure.pure value : Program τ ε α) state') :=
  ⟨rfl, same, holds⟩

lemma Implemented.fail (holds : good state) (same : view state = state')
    (error : ε) : Implemented good view ((Program.fail error : Program σ ε α) state)
      ((Program.fail error : Program τ ε α) state') :=
  ⟨rfl, same, holds⟩

lemma Implemented.orPanic_bind
    (tail : ∀ found, value = some found → Implemented good view (next found state)
      (next' found state')) : Implemented good view ((Program.orPanic value >>= next) state)
      ((Program.orPanic value >>= next') state') := by
  cases value with
  | none => exact rfl
  | some found => exact tail found rfl

lemma Implemented.orFail_bind (holds : good state) (same : view state = state')
    (tail : ∀ value, Implemented good view (next value state) (next' value state')) :
    Implemented good view ((Program.orFail result >>= next) state)
      ((Program.orFail result >>= next') state') := by
  cases result with
  | error => exact ⟨rfl, same, holds⟩
  | ok value => exact tail value

lemma Implements.get {next} {next' : τ → Program τ ε α}
    (tail : ∀ state, good state → Implemented good view (next state state)
      (next' (view state) (view state))) :
    Implements good view (Program.get >>= next) (Program.get >>= next') :=
  tail

lemma Implements.modify (kept : ∀ state, good state → good (update state) ∧ view (update state) =
      update' (view state)) :
    Implements good view (modify update : Program σ ε Unit) (Program.modify update') :=
  fun state holds => ⟨rfl, (kept state holds).2, (kept state holds).1⟩

lemma Implements.ite {condition} [Decidable condition] {yes no} {yes' no' : Program τ ε α}
    (first : Implements good view yes yes') (second : Implements good view no no') :
    Implements good view (if condition then yes else no) (if condition then yes' else no') := by
  by_cases holds : condition
  · simpa only [if_pos holds] using first
  · simpa only [if_neg holds] using second

lemma Implements.handle {first' second' : Program τ ε α} (handled : ε → Bool)
    (head : Implements good view first first') (tail : Implements good view second second') :
    Implements good view (first.handle handled second) (first'.handle handled second') := by
  intro state holds
  have started := head state holds
  unfold Program.handle
  rcases ran : first state with reason | ⟨result, after⟩
  · rcases ran' : first' (view state) with reason' | ⟨result', after'⟩
    · rw [ran, ran'] at started
      exact started
    · rw [ran, ran'] at started
      exact absurd started not_false
  · obtain ⟨ran', kept⟩ := started.eq_ok ran
    rw [ran']
    cases result with
    | ok => exact ⟨rfl, rfl, kept⟩
    | error error =>
      by_cases caught : handled error = true
      · simp only [caught, if_true]
        exact tail after kept
      · simp only [caught]
        exact ⟨rfl, rfl, kept⟩

end

section

variable {ι : Type} {run : ι → Program σ ε α} {run' : ι → Program τ ε α} {view : σ → τ}
  {clear : ι → σ → Prop} {probe : ι → Prop}

def responses (run : ι → Program σ ε α) : List ι → σ → List (Except Halt (Except ε α))
  | [], _ => []
  | call :: rest, state =>
    match run call state with
    | .error reason => [.error reason]
    | .ok (result, after) => .ok result :: responses run rest after

def Along (run : ι → Program σ ε α) (clear : ι → σ → Prop) : List ι → σ → Prop
  | [], _ => True
  | call :: rest, state =>
    clear call state ∧
      ∀ result after, run call state = .ok (result, after) → Along run clear rest after

lemma along_of_forall (calls) (state : σ) (always : ∀ call ∈ calls, ∀ state, clear call state) :
    Along run clear calls state := by
  induction calls generalizing state with
  | nil => exact trivial
  | cons call rest ih =>
    refine ⟨always call mem_cons_self state, ?_⟩
    intro result after _
    exact ih after fun other member => always other (mem_cons_of_mem _ member)

lemma Along.append (initial : first <+: calls)
    (along : Along run clear calls state) (always : ∀ call ∈ probes, ∀ state, clear call state) :
    Along run clear (first ++ probes) state := by
  induction first generalizing calls state with
  | nil => exact along_of_forall probes state always
  | cons call rest ih =>
    obtain ⟨tail, rfl⟩ := initial
    refine ⟨along.1, ?_⟩
    intro result after ran
    exact ih (prefix_append rest tail) (along.2 result after ran)

lemma Along.responses_eq (step : ∀ call state, clear call state → Implemented (fun _ =>
      True) view (run call state) (run' call (view state))) (along : Along run clear calls state) :
    responses run calls state = responses run' calls (view state) := by
  induction calls generalizing state with
  | nil => rfl
  | cons call rest ih =>
    have implemented := step call state along.1
    rcases ran : run call state with reason | ⟨result, after⟩
    · rcases ran' : run' call (view state) with reason' | ⟨result', after'⟩
      · rw [ran, ran'] at implemented
        obtain rfl : reason = reason' := implemented
        simp only [responses, ran, ran']
      · rw [ran, ran'] at implemented
        exact absurd implemented not_false
    · have ran' := (implemented.eq_ok ran).1
      simp only [responses, ran, ran', ih (along.2 result after ran)]

/-- A call is implemented if the answers to it and to all probes after it are the same, where
probes are always implemented and tell abstract states apart. -/
lemma implemented_of_responses (probing : ∀ call state, probe call → Implemented (fun _ =>
      True) view (run call state) (run' call (view state)))
    (apart : ∀ left right, (∀ probes : List ι, (∀ call ∈ probes, probe call) →
      responses run' probes left = responses run' probes right) → left = right)
    (agree : ∀ probes : List ι, (∀ call ∈ probes, probe call) →
      responses run (call :: probes) state = responses run' (call :: probes) (view state)) :
    Implemented (fun _ => True) view (run call state) (run' call (view state)) := by
  have alone := agree [] (by simp)
  rcases ran : run call state with reason | ⟨result, after⟩
  · rcases ran' : run' call (view state) with reason' | ⟨result', after'⟩
    · simp only [responses, ran, ran', List.cons.injEq, Except.error.injEq, and_true] at alone
      exact alone
    · simp [responses, ran, ran'] at alone
  · rcases ran' : run' call (view state) with reason' | ⟨result', after'⟩
    · simp [responses, ran, ran'] at alone
    · simp only [responses, ran, ran', List.cons.injEq, Except.ok.injEq, and_true] at alone
      refine ⟨alone, apart _ _ ?_, trivial⟩
      intro probes only
      have later := agree probes only
      simp only [responses, ran, ran', List.cons.injEq] at later
      have along : Along run (fun call _ => probe call) probes after :=
        along_of_forall probes after fun call member _ => only call member
      exact (along.responses_eq probing).symm.trans later.2

/-- The exact condition for a sequence of calls to be answered as the abstract one, when every
part of it may be followed by probes. -/
lemma responses_agree_iff
    (step : ∀ call state, Implemented (fun _ => True) view (run call state) (run' call (view state))
      ↔ clear call state) (probing : ∀ call state, probe call → clear call state)
    (apart : ∀ left right, (∀ probes : List ι, (∀ call ∈ probes, probe call) →
      responses run' probes left = responses run' probes right) → left = right)
    (calls) (state : σ) : (∀ first probes, first <+: calls → (∀ call ∈ probes, probe call) →
      responses run (first ++ probes) state = responses run' (first ++ probes) (view state)) ↔
    Along run clear calls state := by
  constructor
  · intro agree
    induction calls generalizing state with
    | nil => exact trivial
    | cons call rest ih =>
      have implemented := implemented_of_responses
        (fun call state probed => (step call state).mpr (probing call state probed)) apart
        fun probes only => agree [call] probes ⟨rest, rfl⟩ only
      refine ⟨(step call state).mp implemented, ?_⟩
      intro result after ran
      apply ih
      intro first probes initial only
      have later := agree (call :: first) probes (cons_prefix_cons.mpr ⟨rfl, initial⟩) only
      simp only [cons_append, responses, ran, (implemented.eq_ok ran).1, List.cons.injEq] at later
      exact later.2
  · intro along first probes initial only
    have whole : Along run clear (first ++ probes) state :=
      along.append initial fun call member state => probing call state (only call member)
    exact whole.responses_eq fun call state => (step call state).mpr

end

end Program

end Lib
