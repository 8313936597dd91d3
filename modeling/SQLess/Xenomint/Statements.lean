import SQLess.Xenomint.StateCore

/-! What a batch of statements does to a state. -/

namespace SQLess.Xenomint

open List State

variable {DB Query Pattern Value : Type}

variable (e : Engine DB Query Pattern Value) (s : State DB Query)

def execOne (db : DB) (q : Query) : Option DB :=
  match e.convertQueryAndBuildArgs q with
  | none => none
  | some (_, pattern) =>
    match e.exec db pattern with
    | (_, none) => none
    | (db, some _) => some db

def execAll (e : Engine DB Query Pattern Value) (db : DB) : List Query → Option DB
  | [] => some db
  | q :: rest =>
    match execOne e db q with
    | none => none
    | some db => execAll e db rest

def changesSchema (q : Query) : Bool :=
  match e.convertQueryAndBuildArgs q with
  | none => false
  | some (containsDDL, _) => containsDDL

def remains (db : DB) (q : Query) : DB :=
  match e.convertQueryAndBuildArgs q with
  | none => db
  | some (_, pattern) => (e.exec db pattern).1

structure Halt (DB Query : Type) where
  executed : List Query
  content : DB

def halts (e : Engine DB Query Pattern Value) (db : DB) : List Query → Option (Halt DB Query)
  | [] => none
  | q :: rest =>
    match execOne e db q with
    | none => some ⟨[], remains e db q⟩
    | some db => (halts e db rest).map fun halt => ⟨q :: halt.executed, halt.content⟩

def State.advance (executed : List Query) (db : DB) : State DB Query :=
  { s.setContent db with
    hasSchemaChange := executed.any (changesSchema e) || s.hasSchemaChange
    current := s.current + executed.length }

def State.setPool (pool : Pool Query) : State DB Query :=
  { s with pool := pool }

structure Advanced (s s' : State DB Query) (db : DB) (count : Nat) : Prop where
  content : s'.content = db
  current : s'.current = s.current + count
  pool : s'.pool = s.pool
  savepoints : s'.handler.savepoints = s.handler.savepoints

section

variable {e : Engine DB Query Pattern Value} {s s' : State DB Query} {q : Query}
  {queries : List Query} {db : DB} {halt : Halt DB Query}

lemma Advanced.refl (s : State DB Query) : Advanced s s s.content 0 :=
  ⟨rfl, rfl, rfl, rfl⟩

lemma setContent_advanced (s : State DB Query) (db) : Advanced s (s.setContent db) db 0 := by
  unfold setContent
  cases stage : s.handler with
  | writer => exact ⟨by simp [content], rfl, rfl, by simp [stage]⟩
  | transaction =>
    exact ⟨rfl, rfl, rfl, by simp [Handler.savepoints, stage]⟩

lemma setContent_content (s : State DB Query) : s.setContent s.content = s := by
  obtain ⟨_, _, handler, _⟩ := s
  cases handler with
  | writer => rfl
  | transaction => rfl

lemma deferredRollback_eq (s : State DB Query) (nested) :
    s.deferredRollback e nested = if nested then s.rollbackTo else s := by
  rw [deferredRollback, e.rollback_eq, setContent_content, ite_self]

lemma advance_content (s : State DB Query) (db) : s.advance e [] db = s.setContent db := by
  obtain ⟨_, _, handler, _⟩ := s
  cases handler with
  | writer => rfl
  | transaction => rfl

lemma advance_nil (s : State DB Query) : s.advance e [] s.content = s := by
  rw [advance_content, setContent_content]

lemma advance_advanced (s : State DB Query) (executed db) :
    Advanced s (s.advance e executed db) db executed.length := by
  obtain ⟨content, -, pool, savepoints⟩ := setContent_advanced s db
  exact ⟨content, rfl, pool, savepoints⟩

lemma advance_append (s : State DB Query) (first second db db') :
    (s.advance e first db).advance e second db' = s.advance e (first ++ second) db' := by
  obtain ⟨_, _, handler, _⟩ := s
  cases handler with
  | writer => simp [advance, setContent, Nat.add_assoc, Bool.or_left_comm,
    Bool.or_assoc]
  | transaction =>
    simp [advance, setContent, Nat.add_assoc, Bool.or_left_comm, Bool.or_assoc]

lemma advance_setPool (s : State DB Query) (pool executed db) :
    (s.setPool pool).advance e executed db = (s.advance e executed db).setPool pool := by
  obtain ⟨_, _, handler, _⟩ := s
  cases handler with
  | writer => rfl
  | transaction => rfl

lemma setPool_frame (s : State DB Query) (pool) :
    (s.setPool pool).content = s.content ∧ (s.setPool pool).current = s.current :=
  ⟨rfl, rfl⟩

lemma writeSingle_fails (failing : execOne e s.content q = none) :
    s.writeSingle e q = (s.advance e [] (remains e s.content q), none) := by
  unfold execOne at failing
  unfold writeSingle
  cases converted : e.convertQueryAndBuildArgs q with
  | none => simp [remains, converted, advance_nil]
  | some parsed =>
    obtain ⟨containsDDL, pattern⟩ := parsed
    simp only [converted] at failing
    rcases ran : e.exec s.content pattern with ⟨db, _ | res⟩
    · simp only [remains, converted, ran]
      rw [← advance_content]
    · simp [ran] at failing

lemma writeSingle_executes (executed : execOne e s.content q = some db) :
    ∃ res, s.writeSingle e q = (s.advance e [q] db, some res) := by
  unfold execOne at executed
  unfold writeSingle
  cases converted : e.convertQueryAndBuildArgs q with
  | none => simp [converted] at executed
  | some parsed =>
    obtain ⟨containsDDL, pattern⟩ := parsed
    simp only [converted] at executed
    rcases ran : e.exec s.content pattern with ⟨after, _ | res⟩
    · simp [ran] at executed
    · simp only [ran] at executed
      cases executed
      exact ⟨res, by simp [ran, advance, changesSchema, converted]⟩

lemma remains_of_exec (executed : execOne e db q = some db') : remains e db q = db' := by
  unfold execOne at executed
  unfold remains
  cases converted : e.convertQueryAndBuildArgs q with
  | none => simp [converted] at executed
  | some parsed =>
    simp only [converted] at executed
    rcases ran : e.exec db parsed.2 with ⟨after, _ | res⟩
    · simp [ran] at executed
    · simpa [ran] using executed

lemma execAll_of_halts (complete : halts e db queries = none) :
    execAll e db queries = some (queries.foldl (remains e) db) := by
  induction queries generalizing db with
  | nil => rfl
  | cons q rest ih =>
    rw [halts] at complete
    rw [execAll]
    cases first : execOne e db q with
    | none => simp [first] at complete
    | some =>
      simp only [first, Option.map_eq_none_iff] at complete
      rw [foldl_cons, remains_of_exec first]
      exact ih complete

lemma writeAll_halts (halted : halts e s.content queries = some halt) :
    s.writeAll e i total queries = (s.advance e halt.executed halt.content,
      .error (.wrapped ("execute at #" ++ toString (i + halt.executed.length) ++ " failed")
        .sql)) := by
  induction queries generalizing s i total halt with
  | nil => cases halted
  | cons q rest ih =>
    rw [halts] at halted
    rw [writeAll]
    cases first : execOne e s.content q with
    | none =>
      simp only [first] at halted
      cases halted
      rw [writeSingle_fails first]
      rfl
    | some db =>
      simp only [first, Option.map_eq_some_iff] at halted
      obtain ⟨later, halted, rfl⟩ := halted
      obtain ⟨res, wrote⟩ := writeSingle_executes first
      have content := (advance_advanced (e := e) s [q] db).content
      rw [wrote]
      simp only
      rw [ih (content.symm ▸ halted), advance_append, singleton_append,
        length_cons, Nat.add_assoc, Nat.add_comm 1]

lemma writeAll_runs (i : Nat) (total) (executed : execAll e s.content queries = some db) :
    ∃ result, s.writeAll e i total queries = (s.advance e queries db, .ok result) := by
  induction queries generalizing s i total with
  | nil =>
    simp only [execAll, Option.some.injEq] at executed
    exact ⟨total, by rw [← executed, advance_nil]; rfl⟩
  | cons q rest ih =>
    rw [execAll] at executed
    cases first : execOne e s.content q with
    | none => simp [first] at executed
    | some next =>
      simp only [first] at executed
      obtain ⟨res, wrote⟩ := writeSingle_executes first
      have content := (advance_advanced (e := e) s [q] next).content
      obtain ⟨result, runs⟩ := ih (i + 1)
        ⟨total.rowsAffected + res.rowsAffected, res.lastInsertId⟩ (content.symm ▸ executed)
      refine ⟨result, ?_⟩
      rw [writeAll, wrote]
      simp only
      rw [runs, advance_append, singleton_append]

lemma replayAll_eq (s : State DB Query) (i total queries) :
    s.replayAll e i queries = ((s.writeAll e i total queries).1,
      (s.writeAll e i total queries).2.map fun _ => ()) := by
  induction queries generalizing s i total with
  | nil => rfl
  | cons q rest ih =>
    rw [replayAll, writeAll]
    rcases s.writeSingle e q with ⟨between, _ | res⟩
    · rfl
    · exact ih between (i + 1) _

lemma replayStatements_writeAll (queries) (s : State DB Query) (i j k total) :
    (s.replayStatements e .writeQuery i j queries).1 = (s.writeAll e k total queries).1 ∧
      ((s.replayStatements e .writeQuery i j queries).2 = .ok () ↔
        ∃ result, (s.writeAll e k total queries).2 = .ok result) := by
  induction queries generalizing s j k total with
  | nil => simp [replayStatements, writeAll]
  | cons q rest ih =>
    rw [replayStatements, writeAll, if_neg (by simp)]
    rcases s.writeSingle e q with ⟨between, _ | res⟩
    · simp
    · exact ih between (j + 1) (k + 1) _

lemma replayStatements_halts (i j : Nat) (halted : halts e s.content queries = some halt) :
    ∃ err, s.replayStatements e .writeQuery i j queries =
      (s.advance e halt.executed halt.content, .error err) := by
  obtain ⟨same, ok⟩ := replayStatements_writeAll (e := e) queries s i j 0 ⟨0, 0⟩
  rw [writeAll_halts halted] at same ok
  rcases ran : s.replayStatements e .writeQuery i j queries with ⟨after, err | _⟩
  · rw [ran] at same
    exact ⟨err, Prod.ext same rfl⟩
  · rw [ran] at ok
    obtain ⟨result, impossible⟩ := ok.mp rfl
    cases impossible

lemma replayStatements_runs (i j : Nat) (executed : execAll e s.content queries = some db) :
    s.replayStatements e .writeQuery i j queries = (s.advance e queries db, .ok ()) := by
  obtain ⟨same, ok⟩ := replayStatements_writeAll (e := e) queries s i j 0 ⟨0, 0⟩
  obtain ⟨result, runs⟩ := writeAll_runs 0 ⟨0, 0⟩ executed
  rw [runs] at same ok
  exact Prod.ext same (ok.mpr ⟨result, rfl⟩)

lemma replayStatements_type (i) (type : ¬ (queryType ≠ .writeQuery ∧ queries ≠ [])) :
    s.replayStatements e queryType i 0 queries = s.replayStatements e .writeQuery i 0 queries := by
  cases queries with
  | nil => rfl
  | cons =>
    have write : queryType = .writeQuery := by simpa using type
    rw [write]

lemma replayStatements_other (s : State DB Query) (i)
    (other : queryType ≠ .writeQuery) (nonempty : queries ≠ []) :
    ∃ err, s.replayStatements e queryType i 0 queries = (s, .error err) := by
  obtain ⟨statement, statements, rfl⟩ := exists_cons_of_ne_nil nonempty
  rw [replayStatements, if_pos other]
  exact ⟨_, rfl⟩

end

def State.Opened : Prop :=
  s.level = .readUncommitted → s.handler ≠ .writer

def State.nested (req : Request Query) : Bool :=
  decide (1 < req.queries.length ∧ s.level = .readUncommitted)

def State.answer (req : Request Query) (header : ResponseHeader)
    (isLeader : Bool) : State DB Query :=
  s.tryCommit.setPool (if isLeader then s.tryCommit.pool.enqueue header.logOffset ⟨req, header⟩
    else s.tryCommit.pool)

section

variable {e : Engine DB Query Pattern Value} {s s' : State DB Query} {req : Request Query}
  {db : DB} {halt : Halt DB Query}

lemma writeBody_halts (req isLeader nested) (halted : halts e s.content req.queries = some halt) :
    ∃ err, s.writeBody e req isLeader nested =
      ((s.advance e halt.executed halt.content).setPool (s.pool.setFailed req), .error err) := by
  have pool := (advance_advanced (e := e) s halt.executed halt.content).pool
  simp only [writeBody, writeAll_halts halted, pool]
  exact ⟨_, rfl⟩

lemma writeBody_runs (isLeader nested) (executed : execAll e s.content req.queries = some db)
    (release : (if nested then (s.advance e req.queries db).releaseSavepoint else some
      (s.advance e req.queries db)) = some released) :
    ∃ header : ResponseHeader, header.logOffset = s.current ∧
      s.writeBody e req isLeader nested = (released.answer req header isLeader, .ok header) := by
  obtain ⟨total, ran⟩ := writeAll_runs 0 ⟨0, 0⟩ executed
  simp only [writeBody, ran, release]
  refine ⟨_, rfl, Prod.ext ?_ rfl⟩
  cases isLeader with
  | true => rfl
  | false => rfl

lemma savepoint_frame (s : State DB Query) :
    s.savepoint.content = s.content ∧ s.savepoint.current = s.current ∧
      s.savepoint.pool = s.pool := by
  obtain ⟨_, _, handler, _⟩ := s
  cases handler with
  | writer | transaction content savepoints => exact ⟨rfl, rfl, rfl⟩

lemma savepoint_release (transaction : s.handler ≠ .writer) (queries db) :
    (s.savepoint.advance e queries db).releaseSavepoint = some (s.advance e queries db) := by
  obtain ⟨_, _, handler, _⟩ := s
  cases handler with
  | writer => exact absurd rfl transaction
  | transaction => rfl

lemma write_stops (isLeader : Bool) (halted : halts e s.content req.queries = some halt) :
    ∃ err, s.write e req isLeader =
      (if s.nested req then ((s.savepoint.advance e halt.executed halt.content).setPool
          (s.pool.setFailed req)).rollbackTo
        else (s.advance e halt.executed halt.content).setPool (s.pool.setFailed req),
        .error err) := by
  obtain ⟨content, -, pool⟩ := savepoint_frame s
  cases nested : s.nested req with
  | true =>
    obtain ⟨err, ran⟩ := writeBody_halts req isLeader true (content.symm ▸ halted)
    rw [State.nested] at nested
    simp only [State.write, deferredRollback_eq, nested, if_true, ran, pool]
    exact ⟨err, rfl⟩
  | false =>
    obtain ⟨err, ran⟩ := writeBody_halts req isLeader false halted
    rw [State.nested] at nested
    simp only [State.write, deferredRollback_eq, nested, Bool.false_eq_true, if_false, ran]
    exact ⟨err, rfl⟩

lemma write_completes (isLeader : Bool) (opened : s.nested req = true → s.handler ≠ .writer)
    (executed : execAll e s.content req.queries = some db) :
    ∃ header : ResponseHeader, header.logOffset = s.current ∧ s.write e req isLeader =
      (if s.nested req then ((s.advance e req.queries db).answer req header isLeader).rollbackTo
        else (s.advance e req.queries db).answer req header isLeader,
        .ok ⟨header, ⟨[], [], []⟩⟩) := by
  obtain ⟨content, current, -⟩ := savepoint_frame s
  cases nested : s.nested req with
  | true =>
    obtain ⟨header, offset, ran⟩ := writeBody_runs isLeader true (content.symm ▸ executed)
      (savepoint_release (e := e) (opened nested) req.queries db)
    rw [State.nested] at nested
    simp only [State.write, deferredRollback_eq, nested, if_true, ran]
    exact ⟨header, offset.trans current, rfl⟩
  | false =>
    obtain ⟨header, offset, ran⟩ := writeBody_runs isLeader false executed rfl
    rw [State.nested] at nested
    simp only [State.write, deferredRollback_eq, nested, Bool.false_eq_true, if_false, ran]
    exact ⟨header, offset, rfl⟩

lemma write_ok (ran : s.write e req isLeader = (s', .ok response)) :
    ∃ db header, execAll e s.content req.queries = some db ∧ header.logOffset = s.current ∧
      s' = if s.nested req then ((s.advance e req.queries db).answer req header isLeader).rollbackTo
        else (s.advance e req.queries db).answer req header isLeader := by
  cases halted : halts e s.content req.queries with
  | some =>
    obtain ⟨err, failed⟩ := write_stops isLeader halted
    rw [failed] at ran
    cases ran
  | none =>
    have executed := execAll_of_halts halted
    have opened : s.nested req = true → s.handler ≠ .writer := by
      intro nested writer
      -- the writer has no savepoint to release
      obtain ⟨total, wrote⟩ := writeAll_runs (s := s) 0 ⟨0, 0⟩ executed
      have same : s.savepoint = s := by simp [State.savepoint, writer]
      have none : (s.advance e req.queries
          (req.queries.foldl (remains e) s.content)).releaseSavepoint = none := by
        simp [State.releaseSavepoint, State.advance, State.setContent, writer]
      rw [State.nested] at nested
      simp only [State.write, nested, if_true, State.writeBody, same, wrote, none] at ran
      cases ran
    obtain ⟨header, offset, wrote⟩ := write_completes isLeader opened executed
    rw [wrote] at ran
    cases ran
    exact ⟨_, header, executed, offset, rfl⟩

end

section

variable {e : Engine DB Query Pattern Value} {s : State DB Query}

lemma openHandler_content (s : State DB Query) :
    s.openHandler.content = s.strg ∧ s.openHandler.handler.savepoints = [] := by
  unfold openHandler
  by_cases uncommitted : s.level = .readUncommitted <;>
    simp [uncommitted, content, Handler.savepoints]

section

variable (calm : s.handler.savepoints = [])
include calm

lemma flushHandler_advanced : Advanced s s.flushHandler s.content 0 := by
  obtain ⟨content, savepoints⟩ := openHandler_content s.commitHandler
  exact ⟨content, rfl, rfl, savepoints.trans calm.symm⟩

lemma tryCommit_advanced : Advanced s s.tryCommit s.content 0 := by
  unfold tryCommit
  split
  · exact flushHandler_advanced calm
  · exact .refl s

lemma rollbackTo_calm : s.rollbackTo = s := by
  unfold rollbackTo
  split
  · rename_i stage
    simp [Handler.savepoints, stage] at calm
  · rfl

lemma answer_calm (req db header) (isLeader nested : Bool) :
    ∃ after : State DB Query, after = (s.advance e req.queries db).answer req header isLeader ∧
      (if nested then after.rollbackTo else after) = after ∧ after.content = db ∧
      after.current = s.current + req.queries.length ∧ after.handler.savepoints = [] ∧
      after.pool = if isLeader then s.pool.enqueue header.logOffset ⟨req, header⟩ else s.pool := by
  have advanced := advance_advanced (e := e) s req.queries db
  have still := advanced.savepoints.trans calm
  have committed := tryCommit_advanced still
  have closed : ((s.advance e req.queries db).answer req header isLeader).handler.savepoints = [] :=
    committed.savepoints.trans still
  refine ⟨_, rfl, ?_, committed.content.trans advanced.content,
    committed.current.trans advanced.current, closed, ?_⟩
  · rw [rollbackTo_calm closed, ite_self]
  · rw [answer, committed.pool.trans advanced.pool]
    rfl

end

end

end SQLess.Xenomint
