import Mathlib.Tactic.Common

/-!
Programs over a mutable state that either return a value, return an error, or halt the process.
-/

namespace Lib

variable {condition : Prop}

inductive Halt where
  | panic
  | fatal
  deriving DecidableEq

abbrev Outcome (σ ε α : Type) := Except Halt (Except ε α × σ)

def Program (σ ε α : Type) := σ → Outcome σ ε α

namespace Program

variable {σ ε α β : Type}

variable (first : Program σ ε α) (value : α) (invariant : σ → Prop) (program : Program σ ε α)
  (next : α → Program σ ε β) (state : σ)

protected def pure : Program σ ε α := fun state => .ok (.ok value, state)

protected def bind : Program σ ε β :=
  fun state =>
    match first state with
    | .error halt => .error halt
    | .ok (.error error, after) => .ok (.error error, after)
    | .ok (.ok value, after) => next value after

instance : Monad (Program σ ε) where
  pure := Program.pure
  bind := Program.bind

def fail (error : ε) : Program σ ε α := fun state => .ok (.error error, state)

def halt (reason : Halt) : Program σ ε α := fun _ => .error reason

def get : Program σ ε σ := fun state => .ok (.ok state, state)

def modify (update : σ → σ) : Program σ ε Unit := fun state => .ok (.ok (), update state)

def orPanic (value : Option α) : Program σ ε α :=
  match value with
  | some value => Program.pure value
  | none => halt .panic

def orFail (result : Except ε α) : Program σ ε α :=
  match result with
  | .ok value => Program.pure value
  | .error error => fail error

def handle (handled : ε → Bool) (second : Program σ ε α) : Program σ ε α :=
  fun state =>
    match first state with
    | .ok (.error error, after) =>
      if handled error then second after else .ok (.error error, after)
    | outcome => outcome

@[simp] lemma pure_run : (pure value : Program σ ε α) state = .ok (.ok value, state) := rfl

@[simp] lemma fail_run (error : ε) (state : σ) :
    (fail error : Program σ ε α) state = .ok (.error error, state) := rfl

@[simp] lemma halt_run (reason) (state : σ) :
    (halt reason : Program σ ε α) state = .error reason := rfl

@[simp] lemma get_run : (get : Program σ ε σ) state = .ok (.ok state, state) := rfl

@[simp] lemma modify_run (update : σ → σ) (state : σ) :
    (modify update : Program σ ε Unit) state = .ok (.ok (), update state) := rfl

@[simp] lemma orPanic_some_run :
    (orPanic (some value) : Program σ ε α) state = .ok (.ok value, state) := rfl

@[simp] lemma orPanic_none_run : (orPanic none : Program σ ε α) state = .error .panic := rfl

@[simp] lemma orFail_ok_run :
    (orFail (.ok value) : Program σ ε α) state = .ok (.ok value, state) := rfl

@[simp] lemma orFail_error_run (error : ε) (state : σ) :
    (orFail (.error error) : Program σ ε α) state = .ok (.error error, state) := rfl

lemma bind_run : (first >>= next) state =
      match first state with
      | .error halt => .error halt
      | .ok (.error error, after) => .ok (.error error, after)
      | .ok (.ok value, after) => next value after := rfl

@[simp] lemma get_bind_run (next : σ → Program σ ε β) (state : σ) :
    ((get : Program σ ε σ) >>= next) state = next state state := rfl

@[simp] lemma modify_bind_run (update : σ → σ) (next : Unit → Program σ ε β) (state : σ) :
    ((modify update : Program σ ε Unit) >>= next) state = next () (update state) := rfl

@[simp] lemma fail_bind_run (error : ε) (next : α → Program σ ε β) (state : σ) :
    ((fail error : Program σ ε α) >>= next) state = .ok (.error error, state) := rfl

@[simp] lemma halt_bind_run (reason) (next : α → Program σ ε β) (state : σ) :
    ((halt reason : Program σ ε α) >>= next) state = .error reason := rfl

@[simp] lemma pure_bind_run :
    ((pure value : Program σ ε α) >>= next) state = next value state := rfl

lemma orPanic_some_bind_run :
    ((orPanic (some value) : Program σ ε α) >>= next) state = next value state := rfl

@[simp] lemma orPanic_bind_eq_ok (value) (next : α → Program σ ε β) (state : σ) (result) :
    ((orPanic value : Program σ ε α) >>= next) state = .ok result ↔
      ∃ found, value = some found ∧ next found state = .ok result := by
  cases value with
  | none | some found => simp [bind_run]

@[simp] lemma orFail_bind_eq_ok (checked) (next : α → Program σ ε β) (state : σ) (value : β)
    (after : σ) : ((orFail checked : Program σ ε α) >>= next) state = .ok (.ok value, after) ↔
      ∃ found, checked = .ok found ∧ next found state = .ok (.ok value, after) := by
  cases checked with
  | error error | ok found => simp [bind_run]

lemma orFail_bind_eq_error (checked) (next : α → Program σ ε β) (state : σ) (error : ε)
    (after : σ) : ((orFail checked : Program σ ε α) >>= next) state = .ok (.error error, after) ↔
      (checked = .error error ∧ after = state) ∨
      ∃ found, checked = .ok found ∧ next found state = .ok (.error error, after) := by
  cases checked with
  | error => simp [bind_run, eq_comm]
  | ok => simp [bind_run]

lemma bind_eq_ok {first} {next : α → Program σ ε β} {state after value} :
    (first >>= next) state = .ok (.ok value, after) ↔
      ∃ middle between, first state = .ok (.ok middle, between) ∧
        next middle between = .ok (.ok value, after) := by
  rw [bind_run]
  rcases first state with reason | ⟨error | middle, between⟩ <;> simp

lemma seq_eq_ok {first} {next : Program σ ε β} {state after value} :
    (first >>= fun _ => next) state = .ok (.ok value, after) ↔
      ∃ between, first state = .ok (.ok (), between) ∧ next between = .ok (.ok value, after) := by
  rw [bind_eq_ok]
  constructor
  · rintro ⟨⟨⟩, between, started, finished⟩
    exact ⟨between, started, finished⟩
  · rintro ⟨between, started, finished⟩
    exact ⟨(), between, started, finished⟩

lemma bind_eq_error {first} {next : α → Program σ ε β} {state after error} :
    (first >>= next) state = .ok (.error error, after) ↔ first state = .ok (.error error, after) ∨
      ∃ middle between, first state = .ok (.ok middle, between) ∧
        next middle between = .ok (.error error, after) := by
  rw [bind_run]
  rcases first state with reason | ⟨raised | middle, between⟩ <;> simp

def after : σ :=
  match program state with
  | .ok (_, after) => after
  | .error _ => state

def returns : Bool :=
  match program state with
  | .ok _ => true
  | .error _ => false

lemma eq_after {program : Program σ ε α} {state} (returned : program.returns state = true) :
    ∃ result, program state = .ok (result, program.after state) := by
  unfold returns at returned
  unfold after
  split at returned
  · rename_i outcome finished
    exact ⟨outcome.1, by rw [finished]⟩
  · simp at returned

def succeeds : Bool :=
  match program state with
  | .ok (.ok _, _) => true
  | _ => false

lemma eq_ok_of_succeeds {program : Program σ ε α} {state}
    (succeeded : program.succeeds state = true) :
    ∃ value, program state = .ok (.ok value, program.after state) := by
  unfold succeeds at succeeded
  unfold after
  split at succeeded
  · rename_i value after finished
    exact ⟨value, by rw [finished]⟩
  · simp at succeeded

def exits (reason : Halt) (state : σ) : Bool :=
  match program state with
  | .error halt => halt = reason
  | .ok _ => false

lemma eq_error_of_exits {program : Program σ ε α} {reason state}
    (exited : program.exits reason state = true) : program state = .error reason := by
  unfold exits at exited
  split at exited
  · rename_i halt finished
    rw [finished, of_decide_eq_true exited]
  · simp at exited

/-- Two outcomes agree when both calls panic or both return the same result in related
states. -/
def Agree (relation : σ → σ → Prop) : Outcome σ ε α → Outcome σ ε α → Prop
  | .error .panic, .error .panic => True
  | .ok (left, before), .ok (right, after) => left = right ∧ relation before after
  | _, _ => False

lemma Agree.mono {left right : Outcome σ ε α}
    (agreed : Agree relation left right) (weaken : ∀ s t, relation s t → weaker s t) :
    Agree weaker left right := by
  rcases left with (_ | _) | ⟨leftResult, leftAfter⟩ <;>
    rcases right with (_ | _) | ⟨rightResult, rightAfter⟩
  all_goals first | exact agreed | exact ⟨agreed.1, weaken _ _ agreed.2⟩

def Similar (relation : σ → σ → Prop) (left right : Program σ ε α) : Prop :=
  ∀ first second, relation first second → Agree relation (left first) (right second)

section

variable {relation : σ → σ → Prop}

variable {left right left' right' : Program σ ε α} {leftNext rightNext : α → Program σ ε β}

lemma Similar.pure (value : α) :
    Similar relation (Pure.pure value : Program σ ε α) (Pure.pure value) := by
  intro first second related
  exact ⟨rfl, related⟩

lemma Similar.fail (error : ε) :
    Similar relation (fail error : Program σ ε α) (Program.fail error) := by
  intro first second related
  exact ⟨rfl, related⟩

lemma Similar.panic : Similar relation (halt .panic : Program σ ε α) (Program.halt .panic) := by
  intro first second related
  trivial

lemma Similar.modify {left right}
    (kept : ∀ first second, relation first second → relation (left first) (right second)) :
    Similar relation (modify left : Program σ ε Unit) (Program.modify right) := by
  intro first second related
  exact ⟨rfl, kept first second related⟩

lemma Agree.bind {first second} (head : Agree relation (left first) (right second))
    (tail : ∀ value before after, left first = .ok (.ok value, before) → right second =
      .ok (.ok value, after) → relation before after → Agree relation (leftNext value before)
      (rightNext value after)) :
    Agree relation ((left >>= leftNext) first) ((right >>= rightNext) second) := by
  rw [bind_run, bind_run]
  rcases leftRan : left first with (_ | _) | ⟨leftError | leftValue, leftAfter⟩ <;>
    rcases rightRan : right second with (_ | _) | ⟨rightError | rightValue, rightAfter⟩ <;>
    simp only [leftRan, rightRan, Agree, Except.ok.injEq, Except.error.injEq, reduceCtorEq,
      false_and] at head ⊢
  · exact head
  · obtain ⟨rfl, later⟩ := head
    exact tail leftValue leftAfter rightAfter leftRan rightRan later

lemma Similar.bind (head : Similar relation left right)
    (tail : ∀ value, Similar relation (leftNext value) (rightNext value)) :
    Similar relation (left >>= leftNext) (right >>= rightNext) := by
  intro first second related
  exact (head first second related).bind fun value before after _ _ later =>
    tail value before after later

lemma Similar.get {left right : σ → Program σ ε α} (tail : ∀ first second, relation first second →
      Agree relation (left first first) (right second second)) :
    Similar relation (get >>= left) (Program.get >>= right) := by
  intro first second related
  exact tail first second related

lemma Similar.orPanic (value) :
    Similar relation (orPanic value : Program σ ε α) (Program.orPanic value) := by
  cases value with
  | none => exact Similar.panic
  | some found => exact Similar.pure found

lemma Similar.orFail (result) :
    Similar relation (orFail result : Program σ ε α) (Program.orFail result) := by
  cases result with
  | error error => exact Similar.fail error
  | ok value => exact Similar.pure value

lemma Agree.ite [Decidable condition] {first second}
    (yes : Agree relation (left first) (right second))
    (no : Agree relation (left' first) (right' second)) :
    Agree relation ((if condition then left else left') first)
      ((if condition then right else right') second) := by
  split
  · exact yes
  · exact no

lemma Similar.ite [Decidable condition] (yes : Similar relation left right)
    (no : Similar relation left' right') :
    Similar relation (if condition then left else left') (if condition then right else right') := by
  intro first second related
  exact Agree.ite (yes first second related) (no first second related)

lemma Similar.handle (handled : ε → Bool)
    (head : Similar relation left right) (tail : Similar relation left' right') :
    Similar relation (left.handle handled left') (right.handle handled right') := by
  intro first second related
  have started := head first second related
  unfold Program.handle
  rcases leftRan : left first with (_ | _) | ⟨leftError | leftValue, leftAfter⟩ <;>
    rcases rightRan : right second with (_ | _) | ⟨rightError | rightValue, rightAfter⟩ <;>
    simp only [leftRan, rightRan, Agree, Except.ok.injEq, Except.error.injEq, reduceCtorEq,
      false_and] at started
  · trivial
  · obtain ⟨rfl, later⟩ := started
    by_cases caught : handled leftError = true
    · simp only [caught, if_true]
      exact tail leftAfter rightAfter later
    · simp only [caught, Bool.false_eq_true, if_false]
      exact ⟨rfl, later⟩
  · exact ⟨congrArg _ started.1, started.2⟩

end

/-- Where the program returns, it has kept the invariant; it may as well halt. -/
def Preserves : Prop :=
  ∀ state result after, invariant state → program state = .ok (result, after) → invariant after

section

variable {invariant : σ → Prop}

lemma Preserves.pure (value : α) : Preserves invariant (Pure.pure value : Program σ ε α) := by
  rintro state result after holds ⟨⟩
  exact holds

lemma Preserves.fail (error : ε) : Preserves invariant (fail error : Program σ ε α) := by
  rintro state result after holds ⟨⟩
  exact holds

lemma Preserves.orFail (checked) : Preserves invariant (orFail checked : Program σ ε α) := by
  cases checked with
  | error error => exact Preserves.fail error
  | ok value => exact Preserves.pure value

lemma Preserves.modify (kept : ∀ state, invariant state → invariant (update state)) :
    Preserves invariant (modify update : Program σ ε Unit) := by
  rintro state result after holds ⟨⟩
  exact kept state holds

lemma Preserves.bind {first} {next : α → Program σ ε β} (head : Preserves invariant first)
    (tail : ∀ value, Preserves invariant (next value)) : Preserves invariant (first >>= next) := by
  intro state result after holds ran
  rw [bind_run] at ran
  rcases started : first state with reason | ⟨error | value, between⟩
  · simp [started] at ran
  · simp only [started, Except.ok.injEq, Prod.mk.injEq] at ran
    rw [← ran.2]
    exact head state _ between holds started
  · simp only [started] at ran
    exact tail value between result after (head state _ between holds started) ran

lemma Preserves.get {next : σ → Program σ ε α}
    (tail : ∀ state, Preserves invariant (next state)) : Preserves invariant (get >>= next) :=
  fun state => tail state state

lemma Preserves.ite [Decidable condition] {left right : Program σ ε α}
    (yes : Preserves invariant left) (no : Preserves invariant right) :
    Preserves invariant (if condition then left else right) := by
  split
  · exact yes
  · exact no

end

def Survives (outcome : Outcome σ ε α) : Prop :=
  ∃ result after, outcome = .ok (result, after) ∧ invariant after

def Keeps : Prop :=
  ∀ state, invariant state → Survives invariant (program state)

section

variable {invariant : σ → Prop}

variable {first second left right : Program σ ε α} {next : α → Program σ ε β} {state : σ}

lemma Survives.bind (head : Survives invariant (first state))
    (tail : ∀ value after, first state = .ok (.ok value, after) → invariant after →
      Survives invariant (next value after)) : Survives invariant ((first >>= next) state) := by
  obtain ⟨result, after, ran, holds⟩ := head
  rw [bind_run, ran]
  cases result with
  | error => exact ⟨_, _, rfl, holds⟩
  | ok value => exact tail value after ran holds

lemma Keeps.pure (value : α) : Keeps invariant (Pure.pure value : Program σ ε α) := by
  intro state holds
  exact ⟨_, _, rfl, holds⟩

lemma Keeps.fail (error : ε) : Keeps invariant (fail error : Program σ ε α) := by
  intro state holds
  exact ⟨_, _, rfl, holds⟩

lemma Keeps.orFail (tail : ∀ value, result = .ok value → Keeps invariant (next value)) :
    Keeps invariant (orFail result >>= next) := by
  cases result with
  | error error => exact Keeps.fail error
  | ok value => exact tail value rfl

lemma Keeps.orPanic {value found} (present : value = some found)
    (tail : Keeps invariant (next found)) : Keeps invariant (orPanic value >>= next) := by
  rw [present]
  exact tail

lemma Keeps.modify (kept : ∀ state, invariant state → invariant (update state)) :
    Keeps invariant (modify update : Program σ ε Unit) := by
  intro state holds
  exact ⟨_, _, rfl, kept state holds⟩

lemma Keeps.bind (head : Keeps invariant first) (tail : ∀ value, Keeps invariant (next value)) :
    Keeps invariant (first >>= next) := by
  intro state holds
  exact (head state holds).bind fun value after _ kept => tail value after kept

lemma Keeps.get {next : σ → Program σ ε α}
    (tail : ∀ state, invariant state → Survives invariant (next state state)) :
    Keeps invariant (get >>= next) := tail

lemma Survives.ite [Decidable condition] (yes : condition → Survives invariant (left state))
    (no : ¬condition → Survives invariant (right state)) :
    Survives invariant ((if condition then left else right) state) := by
  by_cases holds : condition
  · rw [if_pos holds]
    exact yes holds
  · rw [if_neg holds]
    exact no holds

lemma Keeps.ite [Decidable condition]
    (yes : Keeps invariant left) (no : ¬condition → Keeps invariant right) :
    Keeps invariant (if condition then left else right) := by
  intro state holds
  exact Survives.ite (fun _ => yes state holds) (fun otherwise => no otherwise state holds)

lemma Survives.handle (head : Survives invariant (first state))
    (tail : ∀ error after, first state = .ok (.error error, after) → handled error = true →
      invariant after → Survives invariant (second after)) :
    Survives invariant ((first.handle handled second) state) := by
  obtain ⟨result, after, ran, holds⟩ := head
  unfold Program.handle
  rw [ran]
  cases result with
  | error error =>
    by_cases caught : handled error = true
    · simp only [caught, if_true]
      exact tail error after ran caught holds
    · simp only [caught, Bool.false_eq_true, if_false]
      exact ⟨_, _, rfl, holds⟩
  | ok => exact ⟨_, _, rfl, holds⟩

end

end Program

end Lib
