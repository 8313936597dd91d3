import SQLess.Xenomint.FollowerCore
import SQLess.Xenomint.Statements

/-!
Contents that are mapped by a function that commutes with the engine: every operation of a state
commutes with the map.
-/

namespace SQLess.Xenomint

open State

variable {DB DB' Query Pattern Value : Type}

structure EngineMap (f : DB → DB') (e : Engine DB Query Pattern Value)
    (e' : Engine DB' Query Pattern Value) : Prop where
  sameConvert : e'.convertQueryAndBuildArgs = e.convertQueryAndBuildArgs
  sameExec : ∀ db pattern, e'.exec (f db) pattern = (f (e.exec db pattern).1, (e.exec db pattern).2)
  sameQuery : ∀ db pattern,
    e'.query (f db) pattern = (f (e.query db pattern).1, (e.query db pattern).2)

variable (e : Engine DB Query Pattern Value)

lemma traced_map : EngineMap Prod.fst e.traced e := by
  refine ⟨rfl, ?_, fun _ _ => rfl⟩
  rintro ⟨db, trace⟩ pattern
  simp only [Engine.traced]
  rcases e.exec db pattern with ⟨after, _ | res⟩ <;> rfl

lemma traced_exec_none {e : Engine DB Query Pattern Value}
    (failed : e.exec db.1 pattern = (after, none)) :
    e.traced.exec db pattern = ((after, db.2), none) := by
  simp only [Engine.traced, failed]

lemma traced_exec_some {e : Engine DB Query Pattern Value}
    (executed : e.exec db.1 pattern = (after, some res)) :
    e.traced.exec db pattern = ((after, db.2 ++ [pattern]), some res) := by
  simp only [Engine.traced, executed]

section

variable (f : DB → DB') (s : State DB Query)

@[simp] lemma map_content : (s.map f).content = f s.content := by
  rcases s with ⟨_, _, _ | _, _⟩ <;> rfl

@[simp] lemma map_setContent (db) : (s.map f).setContent (f db) = (s.setContent db).map f := by
  rcases s with ⟨_, _, _ | _, _⟩ <;> rfl

@[simp] lemma map_openHandler : (s.map f).openHandler = s.openHandler.map f := by
  by_cases uncommitted : s.level = .readUncommitted <;>
    simp [openHandler, map, uncommitted, Handler.map]

@[simp] lemma map_commitHandler : (s.map f).commitHandler = s.commitHandler.map f := by
  simp only [commitHandler, map_content]
  rfl

@[simp] lemma map_flushHandler : (s.map f).flushHandler = s.flushHandler.map f := by
  simp only [flushHandler, map_commitHandler, map_openHandler]

@[simp] lemma map_savepoint : (s.map f).savepoint = s.savepoint.map f := by
  rcases s with ⟨_, _, _ | _, _⟩ <;> rfl

@[simp] lemma map_releaseSavepoint :
    (s.map f).releaseSavepoint = s.releaseSavepoint.map (State.map f) := by
  rcases s with ⟨_, _, _ | ⟨_, _ | _⟩, _⟩ <;> rfl

@[simp] lemma map_rollbackTo : (s.map f).rollbackTo = s.rollbackTo.map f := by
  rcases s with ⟨_, _, _ | ⟨_, _ | _⟩, _⟩ <;> rfl

@[simp] lemma map_tryCommit : (s.map f).tryCommit = s.tryCommit.map f := by
  simp only [tryCommit, map_flushHandler]
  split <;> rename_i full
  · rw [if_pos (show s.maxTx < s.current - s.lastCommitPoint ∨ s.hasSchemaChange = true from full)]
  · rw [if_neg (show ¬(s.maxTx < s.current - s.lastCommitPoint ∨ s.hasSchemaChange = true)
      from full)]

end

section

variable {f : DB → DB'} {e : Engine DB Query Pattern Value} {e' : Engine DB' Query Pattern Value}

section

variable (hom : EngineMap f e e')
include hom

lemma EngineMap.writeSingle (s : State DB Query) (q) :
    (s.map f).writeSingle e' q = ((s.writeSingle e q).1.map f, (s.writeSingle e q).2) := by
  simp only [State.writeSingle, hom.sameConvert, map_content, hom.sameExec]
  rcases e.convertQueryAndBuildArgs q with _ | ⟨containsDDL, pattern⟩
  · rfl
  · rcases ran : e.exec s.content pattern with ⟨db, _ | res⟩
    · simp only [ran, map_setContent]
    · simp only [ran, map_setContent]
      rfl

lemma EngineMap.writeAll (s : State DB Query) (i total queries) :
    (s.map f).writeAll e' i total queries =
      ((s.writeAll e i total queries).1.map f, (s.writeAll e i total queries).2) := by
  induction queries generalizing s i total with
  | nil => rfl
  | cons q rest ih =>
    simp only [State.writeAll, hom.writeSingle]
    rcases s.writeSingle e q with ⟨after, _ | res⟩
    · rfl
    · exact ih after _ _

lemma EngineMap.replayStatements (queryType : QueryType) (i j) (s : State DB Query) (queries) :
    (s.map f).replayStatements e' queryType i j queries =
      ((s.replayStatements e queryType i j queries).1.map f,
        (s.replayStatements e queryType i j queries).2) := by
  induction queries generalizing s j with
  | nil => rfl
  | cons q rest ih =>
    simp only [State.replayStatements, hom.writeSingle]
    by_cases write : queryType = .writeQuery
    · rw [if_neg (by simp [write]), if_neg (by simp [write])]
      rcases s.writeSingle e q with ⟨after, _ | res⟩
      · rfl
      · exact ih (j + 1) after
    · rw [if_pos write, if_pos write]

lemma EngineMap.readSingle (db q) : State.readSingle e' (f db) q =
      (f (State.readSingle e db q).1, (State.readSingle e db q).2) := by
  simp only [State.readSingle, hom.sameConvert]
  rcases e.convertQueryAndBuildArgs q with _ | ⟨containsDDL, pattern⟩
  · rfl
  · exact hom.sameQuery db pattern

lemma EngineMap.readAll (db i payload queries) : State.readAll e' (f db) i payload queries =
      (f (State.readAll e db i payload queries).1, (State.readAll e db i payload queries).2) := by
  induction queries generalizing db i payload with
  | nil => rfl
  | cons q rest ih =>
    simp only [State.readAll, hom.readSingle]
    rcases State.readSingle e db q with ⟨after, _ | found⟩
    · rfl
    · exact ih after _ _

end

end

section

variable {f : DB → DB'} {e : Engine DB Query Pattern Value} {e' : Engine DB' Query Pattern Value}

section

variable (hom : EngineMap f e e')
include hom

lemma EngineMap.readTx (s : State DB Query) (req) :
    (s.map f).readTx e' req = ((s.readTx e req).1.map f, (s.readTx e req).2) := by
  have reader : (s.map f).reader = f s.reader := by
    simp only [reader, map_content]
    split <;> rename_i uncommitted
    · rw [if_pos (show s.level = .readUncommitted from uncommitted)]
    · rw [if_neg (show ¬s.level = .readUncommitted from uncommitted)]
      rfl
  unfold State.readTx
  rw [show (s.map f).level = s.level from rfl,
    show (s.map f).hasSchemaChange = s.hasSchemaChange from rfl]
  by_cases locked : s.level = .readUncommitted ∧ s.hasSchemaChange = true
  · rw [if_pos locked, if_pos locked]
    simp only [map_content, hom.readAll, map_setContent]
  · rw [if_neg locked, if_neg locked, reader, hom.readAll]
    rcases (State.readAll e s.reader 0 ⟨[], [], []⟩ req.queries).2 with err | payload <;> rfl

lemma EngineMap.writeBody (s : State DB Query) (req isLeader nested) :
    (s.map f).writeBody e' req isLeader nested =
      ((s.writeBody e req isLeader nested).1.map f, (s.writeBody e req isLeader nested).2) := by
  simp only [State.writeBody, hom.writeAll]
  rcases s.writeAll e 0 ⟨0, 0⟩ req.queries with ⟨after, err | total⟩
  · rfl
  · simp only
    have closed : (if nested then (after.map f).releaseSavepoint else some (after.map f)) =
        (if nested then after.releaseSavepoint else some after).map (State.map f) := by
      cases nested <;> simp
    rw [closed]
    rcases (if nested then after.releaseSavepoint else some after) with _ | released
    · rfl
    · simp only [Option.map_some, map_tryCommit]
      cases isLeader <;> rfl

lemma EngineMap.write (s : State DB Query) (req isLeader) : (s.map f).write e' req isLeader =
      ((s.write e req isLeader).1.map f, (s.write e req isLeader).2) := by
  unfold State.write
  rw [show (s.map f).level = s.level from rfl]
  generalize decide (1 < req.queries.length ∧ s.level = .readUncommitted) = nested
  have begun : (if nested then (s.map f).savepoint else s.map f) =
      (if nested then s.savepoint else s).map f := by
    cases nested <;> simp
  simp only [begun, hom.writeBody, deferredRollback_eq]
  rcases (if nested then s.savepoint else s).writeBody e req isLeader nested with
    ⟨after, err | header⟩
  · cases nested <;> simp
  · cases nested <;> simp

lemma EngineMap.query (s : State DB Query) (req isLeader) : (s.map f).query e' req isLeader =
      ((s.query e req isLeader).1.map f, (s.query e req isLeader).2) := by
  unfold State.query
  cases req.queryType with
  | readQuery => exact hom.readTx s req
  | writeQuery => exact hom.write s req isLeader
  | other => rfl

lemma EngineMap.replayQueries (i lastsp) (s : State DB Query) (txs : List (QueryAsTx Query)) :
    (s.map f).replayQueries e' i lastsp txs =
      ((s.replayQueries e i lastsp txs).1.map f, (s.replayQueries e i lastsp txs).2) := by
  induction txs generalizing i lastsp s with
  | nil => rfl
  | cons q rest ih =>
    rw [State.replayQueries, State.replayQueries]
    simp only [show (s.map f).current = s.current from rfl]
    by_cases read : q.request.queryType = .readQuery
    · rw [if_pos read, if_pos read]
      exact ih _ _ s
    · rw [if_neg read, if_neg read]
      by_cases early : s.current < q.response.logOffset
      · rw [if_pos early, if_pos early]
      · rw [if_neg early, if_neg early]
        by_cases old : q.response.logOffset < s.current
        · rw [if_pos old, if_pos old]
          exact ih _ _ s
        · rw [if_neg old, if_neg old, hom.replayStatements]
          rcases s.replayStatements e q.request.queryType i 0 q.request.queries with
            ⟨after, err | done⟩
          · rfl
          · exact ih _ _ { after with pool := after.pool.enqueue s.current ⟨q.request, q.response⟩ }

lemma EngineMap.replayBlock (s : State DB Query) (block : Block Query) :
    (s.map f).replayBlock e' block =
      ((s.replayBlock e block).1.map f, (s.replayBlock e block).2) := by
  unfold State.replayBlock
  rw [hom.replayQueries]
  rcases s.replayQueries e 0 0 block.queryTxs with ⟨after, err | lastsp⟩
  · rfl
  · simp only [map_flushHandler]
    rw [show (after.flushHandler.map f).pool = after.flushHandler.pool from rfl]
    rcases (block.failedReqs.foldl Pool.removeFailed after.flushHandler.pool).truncate lastsp with
      _ | pool <;> rfl

end

end

lemma newState_map {f : DB → DB'} (level db) :
    (State.newState level db : State DB Query).map f = .newState level (f db) := by
  unfold newState
  rw [← map_openHandler]
  rfl

lemma leaderRun_traced (ops : List (Op Query)) (s) : leaderRun e ops (s.map Prod.fst) =
      (leaderRun e.traced ops s).map fun (s, blocks) => (s.map Prod.fst, blocks) := by
  induction ops generalizing s with
  | nil => rfl
  | cons op rest ih =>
    cases op with
    | query req =>
      simp only [leaderRun, (traced_map e).query]
      rcases s.query e.traced req true with ⟨after, response | err | _ | _⟩
      · exact ih after
      · rfl
      · rfl
      · rfl
    | commitEx failedOrder readOrder =>
      have cut : (s.map Prod.fst).commitEx failedOrder readOrder =
          ((s.commitEx failedOrder readOrder).1.map Prod.fst,
            (s.commitEx failedOrder readOrder).2) := by
        simp only [commitEx, map_flushHandler]
        rfl
      simp only [leaderRun, cut, ih, Option.map_map]
      rfl

lemma followerRun_traced (ds : List (Delivery Query)) (s) :
    followerRun e ds (s.map Prod.fst) = (followerRun e.traced ds s).map (State.map Prod.fst) := by
  induction ds generalizing s with
  | nil => rfl
  | cons d rest ih =>
    cases d with
    | commit req =>
      simp only [followerRun, (traced_map e).query]
      rcases s.query e.traced req false with ⟨after, response | err | _ | _⟩
      · exact ih after
      · rfl
      · rfl
      · rfl
    | block block =>
      simp only [followerRun, (traced_map e).replayBlock]
      rcases s.replayBlock e.traced block with ⟨after, response | err | _ | _⟩
      · exact ih after
      · rfl
      · rfl
      · rfl

end SQLess.Xenomint
