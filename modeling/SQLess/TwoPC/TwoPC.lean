import SQLess.TwoPC.TwoPCCore

/-! What a `Put` does, in one of three ways. -/

namespace SQLess.TwoPC

open List

variable {σ WriteBatch Result Err ρ : Type}

lemma firstError_eq_none {errs : List (Option Err)} :
    firstError errs = none ↔ ∀ err ∈ errs, err = none := by
  simp [firstError, List.findSome?_eq_none_iff]

lemma mem_events {workers : List σ} (order : Lib.Order workers.length)
    (event : Nat → ρ → Event Result Err) :
    e ∈ (Lib.fanOut call blank workers order.indices).trace.map (fun c => event c.1 c.2) ↔
      ∃ i n, workers[i]? = some n ∧ event i (call n).2 = e := by
  rw [mem_map]
  constructor
  · rintro ⟨⟨i, result⟩, called, rfl⟩
    obtain ⟨n, found, rfl⟩ := (Lib.mem_fanOut_trace order).mp called
    exact ⟨i, n, found, rfl⟩
  · rintro ⟨i, n, found, rfl⟩
    exact ⟨(i, (call n).2), (Lib.mem_fanOut_trace order).mpr ⟨n, found, rfl⟩, rfl⟩

section

variable (m : Worker σ WriteBatch Result Err) {workers : List σ} (wb : WriteBatch)
  (order : Lib.Order workers.length)

lemma prepare_workers : (prepare m order.indices workers wb).workers =
    workers.map fun n => (m.prepare n wb).1 :=
  Lib.fanOut_objects order

lemma prepare_err : (prepare m order.indices workers wb).err = none ↔
    ∀ n ∈ workers, (m.prepare n wb).2 = none := by
  simp only [prepare, firstError_eq_none, Lib.fanOut_slots order, forall_mem_map]

lemma rollback_workers : (rollback m order.indices workers wb).workers =
    workers.map fun n => (m.rollback n wb).1 :=
  Lib.fanOut_objects order

lemma commit_workers : (commit m order.indices workers wb).1.workers =
    workers.map fun n => (m.commit n wb).1 :=
  Lib.fanOut_objects order

lemma commit_err : (commit m order.indices workers wb).1.err = none ↔
    ∀ n ∈ workers, (m.commit n wb).2.2 = none := by
  simp only [commit, firstError_eq_none, Lib.fanOut_slots order, map_map,
    forall_mem_map, Function.comp_apply]

end

lemma callHook_err (name hook) :
    (callHook name hook : List (Event Result Err) × Option Err).2 = hook.join := by
  cases hook <;> rfl

lemma mem_callHook {e : Event Result Err} (mem : e ∈ (callHook name hook).1) :
    e = .hook name hook.join := by
  cases hook with
  | none => exact absurd mem not_mem_nil
  | some => exact mem_singleton.mp mem

section

variable (m : Worker σ WriteBatch Result Err) (opt : Options Err) (workers : List σ)
  (wb : WriteBatch)

structure Refused (out : Outcome σ Result Err) : Prop where
  states : out.workers = workers
  events : ∀ e ∈ out.events, ∃ err, e = .hook .beforePrepare err
  err : out.err ≠ none

structure RolledBack (out : Outcome σ Result Err) : Prop where
  states : out.workers = workers.map fun n => (m.rollback (m.prepare n wb).1 wb).1
  called : ∀ j < workers.length, ∃ err, .rollback j err ∈ out.events
  noCommit : ∀ i result err, .commit i result err ∉ out.events
  err : out.err ≠ none

structure Ready (events : List (Event Result Err)) : Prop where
  prepared : ∀ j < workers.length, .prepare j none ∈ events
  noCommit : ∀ i result err, .commit i result err ∉ events
  noFailure : ∀ i err, .prepare i (some err) ∉ events
  noHook : ∀ err, .hook .beforeCommit (some err) ∉ events

structure Committed (out : Outcome σ Result Err) : Prop where
  prepared : ∀ n ∈ workers, (m.prepare n wb).2 = none
  states : out.workers = workers.map fun n => (m.commit (m.prepare n wb).1 wb).1
  events : ∃ before commits after, out.events = before ++ commits ++ after ∧ Ready workers before ∧
    (∀ e, e ∈ commits ↔ ∃ i n, workers[i]? = some n ∧
      .commit i (m.commit (m.prepare n wb).1 wb).2.1 (m.commit (m.prepare n wb).1 wb).2.2 = e) ∧
    ∀ e ∈ after, e = .hook .afterCommit opt.afterCommit.join

variable {opt workers wb}

lemma putRollback_rolledBack (order : Lib.Order workers.length)
    (phase : prepared = workers.map fun n => (m.prepare n wb).1)
    (noCommit : ∀ i result err, .commit i result err ∉ events) :
    RolledBack m workers wb (putRollback m opt order.indices prepared wb events err) := by
  subst phase
  let order' : Lib.Order (workers.map fun n => (m.prepare n wb).1).length :=
    order.cast (length_map _)
  refine ⟨?_, ?_, ?_, nofun⟩
  · exact (rollback_workers m wb order').trans map_map
  · intro j bound
    refine ⟨(m.rollback (m.prepare workers[j] wb).1 wb).2, mem_append_right _ ?_⟩
    exact (mem_events order' Event.rollback).mpr
      ⟨j, (m.prepare workers[j] wb).1, by simp [bound], rfl⟩
  · intro i result err' mem
    rcases mem_append.mp mem with front | rolled
    · rcases mem_append.mp front with earlier | hook
      · exact noCommit i result err' earlier
      · exact nomatch mem_callHook hook
    · obtain ⟨k, n, -, same⟩ := (mem_events order' Event.rollback).mp rolled
      exact nomatch same

lemma putCommit_committed (order : Lib.Order workers.length)
    (ok : ∀ n ∈ workers, (m.prepare n wb).2 = none)
    (phase : prepared = workers.map fun n => (m.prepare n wb).1) (ready : Ready workers events) :
    Committed m opt workers wb (putCommit m opt order.indices prepared wb events) := by
  subst phase
  let order' : Lib.Order (workers.map fun n => (m.prepare n wb).1).length :=
    order.cast (length_map _)
  refine ⟨ok, ?_, ⟨events, _, _, rfl, ready, ?_, fun e mem => mem_callHook mem⟩⟩
  · exact (commit_workers m wb order').trans map_map
  · intro e
    refine (mem_events order' fun i (r : Option Result × Option Err) =>
      Event.commit i r.1 r.2).trans ?_
    simp only [List.getElem?_map, Option.map_eq_some_iff]
    constructor
    · rintro ⟨i, _, ⟨n, found, rfl⟩, same⟩
      exact ⟨i, n, found, same⟩
    · rintro ⟨i, n, found, same⟩
      exact ⟨i, _, ⟨n, found, rfl⟩, same⟩

variable {m} {out : Outcome σ Result Err} (committed : Committed m opt workers wb out)

include committed

lemma Committed.prepared_before {before after i result err}
    (events : out.events = before ++ .commit i result err :: after) :
    ∀ j < workers.length, .prepare j none ∈ before := by
  intro j bound
  obtain ⟨earlier, commits, later, split, ready, -⟩ := committed.events
  rw [events, append_assoc] at split
  rcases append_eq_append_iff.mp split with ⟨between, same, tail⟩ | ⟨between, same, -⟩
  · cases between with
    | nil =>
      rw [append_nil] at same
      exact same ▸ ready.prepared j bound
    | cons =>
      cases tail
      exact absurd (same ▸ mem_append_right _ mem_cons_self) (ready.noCommit i result err)
  · rw [same]
    exact mem_append_left _ (ready.prepared j bound)

lemma Committed.noFailure : (∀ i err, .prepare i (some err) ∉ out.events) ∧
    ∀ err, .hook .beforeCommit (some err) ∉ out.events := by
  obtain ⟨before, commits, after, events, ready, called, hook⟩ := committed.events
  -- after the commits there is only the hook after them
  have parts : ∀ e ∈ out.events, e ∈ before ∨ (∃ i result err, e = .commit i result err) ∨
      ∃ err, e = .hook .afterCommit err := by
    intro e mem
    rw [events] at mem
    rcases mem_append.mp mem with front | behind
    · rcases mem_append.mp front with earlier | commit
      · exact .inl earlier
      · obtain ⟨i, n, -, rfl⟩ := (called e).mp commit
        exact .inr (.inl ⟨_, _, _, rfl⟩)
    · exact .inr (.inr ⟨_, hook e behind⟩)
  constructor
  · intro i err mem
    have early : .prepare i (some err) ∈ before := by simpa using parts _ mem
    exact ready.noFailure i err early
  · intro err mem
    have early : .hook .beforeCommit (some err) ∈ before := by simpa using parts _ mem
    exact ready.noHook err early

end

lemma put_cases (m : Worker σ WriteBatch Result Err) (opt : Options Err)
    (schedule wb) : Refused workers (put m opt workers schedule wb) ∨
      RolledBack m workers wb (put m opt workers schedule wb) ∨
      Committed m opt workers wb (put m opt workers schedule wb) := by
  have calls : ∀ e, e ∈ (prepare m schedule.prepare.indices workers wb).events ↔
      ∃ i n, workers[i]? = some n ∧ .prepare i (m.prepare n wb).2 = e :=
    fun e => mem_events schedule.prepare Event.prepare
  have phase := prepare_workers m wb schedule.prepare
  unfold put
  simp only [callHook_err]
  cases first : opt.beforePrepare.join with
  | some => exact .inl ⟨rfl, fun e mem => ⟨_, mem_callHook mem⟩, nofun⟩
  | none =>
    cases failed : (prepare m schedule.prepare.indices workers wb).err with
    | some =>
      refine .inr (.inl (putRollback_rolledBack m schedule.rollback phase ?_))
      intro i result err' mem
      rcases mem_append.mp mem with hook | called
      · exact nomatch mem_callHook hook
      · obtain ⟨k, n, -, same⟩ := (calls _).mp called
        exact nomatch same
    | none =>
      have prepared := (prepare_err m wb schedule.prepare).mp failed
      -- both ways on: no commit is made yet
      have before : ∀ e, e ∈ (callHook .beforePrepare opt.beforePrepare).1 ++
          (prepare m schedule.prepare.indices workers wb).events ++
          (callHook .beforeCommit opt.beforeCommit).1 →
          (∃ err, e = .hook .beforePrepare err) ∨ (∃ i, e = .prepare i none) ∨
            e = .hook .beforeCommit opt.beforeCommit.join := by
        intro e mem
        rcases mem_append.mp mem with front | hook
        · rcases mem_append.mp front with hook | called
          · exact .inl ⟨_, mem_callHook hook⟩
          · obtain ⟨i, n, found, rfl⟩ := (calls _).mp called
            rw [prepared n (mem_of_getElem? found)]
            exact .inr (.inl ⟨i, rfl⟩)
        · exact .inr (.inr (mem_callHook hook))
      cases second : opt.beforeCommit.join with
      | some =>
        refine .inr (.inl (putRollback_rolledBack m schedule.rollback phase ?_))
        intro i result err' mem
        simpa using before _ mem
      | none =>
        refine .inr (.inr (putCommit_committed m schedule.commit prepared phase ?_))
        refine ⟨?_, ?_, ?_, ?_⟩
        · intro j bound
          refine mem_append_left _ (mem_append_right _ ((calls _).mpr ?_))
          exact ⟨j, workers[j], List.getElem?_eq_getElem bound,
            by rw [prepared _ (getElem_mem bound)]⟩
        · intro i result err mem
          simpa using before _ mem
        · intro i err mem
          simpa using before _ mem
        · intro err mem
          simpa [second] using before _ mem

lemma put_err_eq_none (m : Worker σ WriteBatch Result Err) (opt : Options Err)
    (schedule wb) : (put m opt workers schedule wb).err = none ↔
      opt.beforePrepare.join = none ∧ (∀ n ∈ workers, (m.prepare n wb).2 = none) ∧
      opt.beforeCommit.join = none ∧ opt.afterCommit.join = none ∧
      (opt.afterCommit = none → ∀ n ∈ workers, (m.commit (m.prepare n wb).1 wb).2.2 = none) := by
  rw [← prepare_err m wb schedule.prepare]
  have phase := prepare_workers m wb schedule.prepare
  unfold put
  simp only [callHook_err]
  cases opt.beforePrepare.join with
  | some => simp
  | none =>
    cases (prepare m schedule.prepare.indices workers wb).err with
    | some => simp [putRollback]
    | none =>
      cases opt.beforeCommit.join with
      | some => simp [putRollback]
      | none =>
        cases hook : opt.afterCommit with
        | some => simp [putCommit, hook, callHook]
        | none =>
          let order : Lib.Order (workers.map fun n => (m.prepare n wb).1).length :=
            schedule.commit.cast (length_map _)
          have committed := commit_err m wb order
          rw [show order.indices = schedule.commit.indices from rfl] at committed
          simp [putCommit, hook, phase, committed]

end SQLess.TwoPC
