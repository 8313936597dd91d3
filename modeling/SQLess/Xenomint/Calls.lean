import SQLess.Xenomint.Failure

/-! Sequences of calls on a state at read uncommitted. -/

namespace SQLess.Xenomint

open State

open Lib (Always Throughout throughout_iff_always run_invariant)

variable {DB Query Pattern Value : Type}

def Call.Spoils (e : Engine DB Query Pattern Value) (s : State DB Query) : Call Query → Prop
  | .query req _ =>
    req.queryType = .writeQuery ∧ ∃ halt, halts e s.content req.queries = some halt ∧
      halt.executed.any (changesSchema e) = true
  | .replay req resp =>
    req.queryType = .writeQuery ∧ resp.logOffset = s.current ∧
      ∃ halt, halts e s.content req.queries = some halt ∧ halt.executed.any (changesSchema e) = true
  | .replayBlock block =>
    ∃ halt, blockHalts e s.content s.current block.queryTxs = some halt ∧
      halt.executed.any (changesSchema e) = true
  | .commitEx _ _ => False

structure Marked (s s' : State DB Query) (spoiled : Prop) : Prop where
  uncommitted : s'.Uncommitted
  mark : s.hasSchemaChange = false → (s'.hasSchemaChange = false ↔ ¬ spoiled)

section

variable {e : Engine DB Query Pattern Value} {s s' : State DB Query}

lemma Marked.unchanged (uncommitted : s'.Uncommitted)
    (same : s'.hasSchemaChange = s.hasSchemaChange) (harmless : ¬ spoiled) : Marked s s' spoiled :=
  ⟨uncommitted, fun clear => by rw [same, clear]; exact iff_of_true rfl harmless⟩

lemma Marked.cleared (uncommitted : s'.Uncommitted) (clear : s'.hasSchemaChange = false)
    (harmless : ¬ spoiled) : Marked s s' spoiled :=
  ⟨uncommitted, fun _ => iff_of_true clear harmless⟩

lemma Marked.stopped {executed : List Query} (uncommitted : s'.Uncommitted)
    (mark : s'.hasSchemaChange = (executed.any (changesSchema e) || s.hasSchemaChange))
    (exact : spoiled ↔ executed.any (changesSchema e) = true) : Marked s s' spoiled := by
  refine ⟨uncommitted, fun clear => ?_⟩
  rw [mark, clear, Bool.or_false, exact, Bool.not_eq_true]

lemma step_run {call : Call Query} (stepped : call.step e s = some s') : (call.run e s).1 = s' := by
  unfold Call.step at stepped
  rcases ran : call.run e s with ⟨after, _ | err | _ | _⟩
  · simpa [ran] using stepped
  · simpa [ran] using stepped
  · simp [ran] at stepped
  · simp [ran] at stepped

lemma readTx_clear (e : Engine DB Query Pattern Value) (req) (clear : s.hasSchemaChange = false) :
    ∃ pool, s.readTx e req = (s.setPool pool, (s.readTx e req).2) ∧
      (s.readTx e req).2 ≠ .deadlock := by
  have reads : ¬ (s.level = .readUncommitted ∧ s.hasSchemaChange = true) := by
    rintro ⟨-, marked⟩
    rw [clear] at marked
    cases marked
  rw [readTx, if_neg reads]
  cases (readAll e s.reader 0 ⟨[], [], []⟩ req.queries).2 with
  | error err | ok payload => exact ⟨_, rfl, by simp⟩

lemma readTx_marked (e : Engine DB Query Pattern Value) (req) (level : s.level = .readUncommitted)
    (marked : s.hasSchemaChange = true) : (s.readTx e req).2 = .deadlock := by
  rw [readTx, if_pos ⟨level, marked⟩]

lemma query_marked (uncommitted : s.Uncommitted)
    (stepped : (Call.query req isLeader).step e s = some s') :
    Marked s s' ((Call.query req isLeader).Spoils e s) := by
  have after := step_run stepped
  rw [Call.run, query] at after
  rw [Call.Spoils]
  cases type : req.queryType with
  | readQuery =>
    simp only [type] at after
    have clear : s.hasSchemaChange = false := by
      by_contra marked
      have deadlock := readTx_marked e req uncommitted.1 (by simpa using marked)
      simp [Call.step, Call.run, query, type, deadlock, Outcome.map] at stepped
    obtain ⟨pool, ran, -⟩ := readTx_clear e req clear
    rw [ran] at after
    subst after
    exact .unchanged uncommitted rfl (by simp)
  | writeQuery =>
    simp only [type] at after
    simp only [true_and]
    cases halted : halts e s.content req.queries with
    | none =>
      obtain ⟨ended, response, ran, answered⟩ := write_runs isLeader uncommitted halted
      rw [ran] at after
      subst after
      exact .cleared answered.uncommitted answered.schema (by simp)
    | some =>
      obtain ⟨ended, err, ran, failed⟩ := write_halts isLeader uncommitted halted
      rw [ran] at after
      subst after
      exact .stopped failed.uncommitted failed.schema (by simp)
  | other =>
    simp only [type] at after
    subst after
    exact .unchanged uncommitted rfl (by simp)

lemma replay_marked (uncommitted : s.Uncommitted)
    (stepped : (Call.replay req resp).step e s = some s') :
    Marked s s' ((Call.replay req resp).Spoils e s) := by
  have after := step_run stepped
  rw [Call.run, replayWithContext] at after
  rw [Call.Spoils]
  cases type : req.queryType with
  | readQuery | other code =>
    simp only [type] at after
    subst after
    exact .unchanged uncommitted rfl (by simp)
  | writeQuery =>
    simp only [type, replay] at after
    by_cases conflict : resp.logOffset ≠ s.current
    · rw [if_pos conflict] at after
      subst after
      exact .unchanged uncommitted rfl (by simp [conflict])
    · rw [if_neg conflict, replayAll_eq s 0 ⟨0, 0⟩] at after
      have here : resp.logOffset = s.current := by simpa using conflict
      simp only [here, true_and]
      cases halted : halts e s.content req.queries with
      | none =>
        obtain ⟨total, ran⟩ := writeAll_runs 0 ⟨0, 0⟩ (execAll_of_halts halted)
        rw [ran] at after
        simp only [Except.map] at after
        subst after
        obtain ⟨settled, -, clear⟩ := tryCommit_settled (advance_uncommitted (e := e)
          req.queries (req.queries.foldl (remains e) s.content) uncommitted)
        exact .cleared settled clear (by simp)
      | some halt =>
        rw [writeAll_halts halted] at after
        simp only [Except.map] at after
        subst after
        exact .stopped (advance_uncommitted halt.executed halt.content uncommitted) rfl (by simp)

lemma replayBlock_marked (uncommitted : s.Uncommitted)
    (stepped : (Call.replayBlock block).step e s = some s') :
    Marked s s' ((Call.replayBlock block).Spoils e s) := by
  have after := step_run stepped
  rw [Call.run, replayBlock] at after
  rw [Call.Spoils]
  cases halted : blockHalts e s.content s.current block.queryTxs with
  | none =>
    obtain ⟨pooled, db, last, ran, -⟩ := (replayQueries_cases _ s 0 0).2 halted
    have between := advance_uncommitted (e := e) (pooled.flatMap fun q => q.req.queries) db
      uncommitted
    rw [ran] at after
    dsimp only at after
    split at after
    · subst after
      exact .cleared (openHandler_uncommitted between.1) rfl (by simp)
    · subst after
      exact .cleared (openHandler_uncommitted between.1) rfl (by simp)
  | some halt =>
    obtain ⟨err, ran⟩ := (replayQueries_cases _ s 0 0).1 halt halted
    rw [ran] at after
    subst after
    exact .stopped (advance_uncommitted (e := e) halt.executed halt.content uncommitted) rfl
      (by simp)

lemma commitEx_marked (failedOrder readOrder) (uncommitted : s.Uncommitted) :
    Marked s (s.commitEx failedOrder readOrder).1
      ((Call.commitEx failedOrder readOrder).Spoils e s) :=
  .cleared (openHandler_uncommitted uncommitted.1) rfl id

lemma step_marked {call : Call Query} (uncommitted : s.Uncommitted)
    (stepped : call.step e s = some s') : Marked s s' (call.Spoils e s) := by
  cases call with
  | query => exact query_marked uncommitted stepped
  | replay => exact replay_marked uncommitted stepped
  | replayBlock => exact replayBlock_marked uncommitted stepped
  | commitEx failedOrder readOrder =>
    have after := step_run stepped
    subst after
    exact commitEx_marked failedOrder readOrder uncommitted

lemma not_spoils_of_stuck {call : Call Query} (uncommitted : s.Uncommitted)
    (stuck : call.step e s = none) : ¬ call.Spoils e s := by
  cases call with
  | query req isLeader =>
    rintro ⟨type, halt, halted, -⟩
    obtain ⟨after, err, ran, -⟩ := write_halts isLeader uncommitted halted
    simp [Call.step, Call.run, query, type, ran, Outcome.map] at stuck
  | replay =>
    rintro ⟨type, here, halt, halted, -⟩
    simp [Call.step, Call.run, replayWithContext, type, replay, here,
      replayAll_eq s 0 ⟨0, 0⟩, writeAll_halts halted, Except.map] at stuck
  | replayBlock =>
    rintro ⟨halt, halted, -⟩
    obtain ⟨err, ran⟩ := (replayQueries_cases _ s 0 0).1 halt halted
    simp [Call.step, Call.run, replayBlock, ran] at stuck
  | commitEx => exact id

/-- The mark of a schema change is clear between the calls of a sequence exactly if none of them
fails after it has executed such a change. -/
theorem mark_clear_iff (e : Engine DB Query Pattern Value) (s : State DB Query)
    (uncommitted : s.Uncommitted) (clear : s.hasSchemaChange = false) (calls : List (Call Query)) :
    (Throughout (Call.step e) (fun s => s.hasSchemaChange = false) calls s ↔
      Always (Call.step e) (fun s call => ¬ call.Spoils e s) calls s) ∧
    ∀ s', Lib.run (Call.step e) calls s = some s' → ∀ req : Request Query,
      (s'.hasSchemaChange = false → (s'.readTx e req).2 ≠ .deadlock ∧
        (s'.readTx e req).1.content = s'.content ∧ (s'.readTx e req).1.strg = s'.strg) ∧
      (s'.hasSchemaChange = true → (s'.readTx e req).2 = .deadlock) := by
  refine ⟨throughout_iff_always (I := State.Uncommitted) ?_ ?_ ?_ uncommitted clear, ?_⟩
  · intro s call s' uncommitted stepped
    exact (step_marked uncommitted stepped).uncommitted
  · intro s call s' uncommitted clear stepped
    exact (step_marked uncommitted stepped).mark clear
  · intro s call uncommitted _ stuck
    exact not_spoils_of_stuck uncommitted stuck
  · intro s' ran req
    have reached : s'.Uncommitted := run_invariant State.Uncommitted
      (fun s call s' uncommitted _ stepped => (step_marked uncommitted stepped).uncommitted)
      uncommitted (Lib.always_of_forall (fun _ _ => trivial) calls s) ran
    constructor
    · intro clear
      obtain ⟨pool, read, returns⟩ := readTx_clear e req clear
      refine ⟨returns, ?_⟩
      rw [read]
      exact ⟨rfl, rfl⟩
    · exact readTx_marked e req reached.1

def brokenChange : Call Nat := .query ⟨1, .writeQuery, [100, 0]⟩ true

theorem mark_clear_iff_broken :
    ¬ Throughout (Call.step sampleEngine) (fun s => s.hasSchemaChange = false) [brokenChange]
      (State.newState .readUncommitted 0) := by
  have settled := (mark_clear_iff sampleEngine (State.newState .readUncommitted 0)
    ⟨rfl, by simp [State.newState, State.openHandler]⟩ rfl [brokenChange]).1
  rw [settled]
  rintro ⟨harmless, -⟩
  exact harmless ⟨rfl, ⟨[100], 100⟩, rfl, rfl⟩

/-- After a failed change of the schema a read does not return. -/
theorem mark_stays_set : ∃ s : State Nat Nat, Lib.run (Call.step sampleEngine) [brokenChange]
        (State.newState .readUncommitted 0) = some s ∧ s.hasSchemaChange = true ∧
      s.content = 0 ∧ (s.readTx sampleEngine ⟨2, .readQuery, [7]⟩).2 = .deadlock :=
  ⟨_, rfl, rfl, rfl, rfl⟩

end

end SQLess.Xenomint
