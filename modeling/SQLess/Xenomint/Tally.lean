import SQLess.Xenomint.Replay
import SQLess.Xenomint.Trace

/-! The sequence number counts the statements whose effects the handler sees. -/

namespace SQLess.Xenomint

open List Option State

open Lib (FiniteMap)

variable {DB Query Pattern Value : Type}

def State.Even (s : State (DB × List Pattern) Query) : Prop :=
  s.content.2.length = s.current ∧ s.strg.2.length ≤ s.current

structure Moved (s s' : State (DB × List Pattern) Query) : Prop where
  even : s.Even → s'.Even ∧ s.strg.2.length ≤ s'.strg.2.length
  current : s.current ≤ s'.current
  pool : s'.pool = s.pool
  savepoints : s'.handler.savepoints = s.handler.savepoints

section

variable {e : Engine DB Query Pattern Value} {s s' : State (DB × List Pattern) Query}

lemma Moved.refl (s : State (DB × List Pattern) Query) : Moved s s :=
  ⟨fun even => ⟨even, Nat.le_refl _⟩, Nat.le_refl _, rfl, rfl⟩

lemma setContent_moved (count) (ddl : Bool) (longer : db.2.length = s.content.2.length + count) :
    Moved s { s.setContent db with hasSchemaChange := ddl, current := s.current + count } := by
  rcases stage : s.handler with _ | ⟨content, savepoints⟩
  · simp only [setContent, content, stage] at longer ⊢
    refine ⟨?_, Nat.le_add_right _ _, rfl, by rw [stage]⟩
    rintro ⟨even, -⟩
    simp only [content, stage] at even
    simp only [State.Even, content]
    omega
  · simp only [setContent, State.content, stage] at longer ⊢
    refine ⟨?_, Nat.le_add_right _ _, rfl, by rw [stage]; rfl⟩
    rintro ⟨even, stored⟩
    simp only [State.content, stage] at even
    simp only [State.Even, State.content]
    omega

lemma exec_traced_trace (db pattern) : (e.traced.exec db pattern).1.2.length =
      db.2.length + if (e.traced.exec db pattern).2.isSome then 1 else 0 := by
  rcases ran : e.exec db.1 pattern with ⟨after, _ | res⟩
  · simp [traced_exec_none ran]
  · simp [traced_exec_some ran]

lemma remains_traced (db q) : (remains e.traced db q).2.length =
      db.2.length + if (execOne e.traced db q).isSome then 1 else 0 := by
  unfold remains execOne
  cases e.traced.convertQueryAndBuildArgs q with
  | none => rfl
  | some parsed =>
    have longer := exec_traced_trace (e := e) db parsed.2
    rcases ran : e.traced.exec db parsed.2 with ⟨after, _ | res⟩ <;> simpa [ran] using longer

lemma halts_traced (queries db) : (∀ halt, halts e.traced db queries = some halt →
        halt.content.2.length = db.2.length + halt.executed.length) ∧
      (halts e.traced db queries = none →
        (queries.foldl (remains e.traced) db).2.length = db.2.length + queries.length) := by
  induction queries generalizing db with
  | nil => exact ⟨by simp [halts], fun _ => rfl⟩
  | cons q rest ih =>
    have longer := remains_traced (e := e) db q
    rw [halts]
    cases first : execOne e.traced db q with
    | none =>
      rw [first] at longer
      simpa using longer
    | some next =>
      rw [first, remains_of_exec first] at longer
      simp only [isSome_some, if_true] at longer
      obtain ⟨stopped, ended⟩ := ih next
      simp only [map_eq_some_iff, map_eq_none_iff, foldl_cons, remains_of_exec first, length_cons]
      constructor
      · rintro _ ⟨halt, halted, rfl⟩
        have later := stopped halt halted
        simp only [length_cons]
        omega
      · intro complete
        have later := ended complete
        omega

lemma advance_moved (longer : db.2.length = s.content.2.length + executed.length) :
    Moved s (s.advance e.traced executed db) :=
  setContent_moved executed.length _ longer

lemma replayStatements_moved (queryType queries s i) :
    Moved s (s.replayStatements e.traced queryType i 0 queries).1 ∧
      ((s.replayStatements e.traced queryType i 0 queries).2 = .ok () →
        (s.replayStatements e.traced queryType i 0 queries).1.current =
          s.current + queries.length) := by
  by_cases type : queryType ≠ .writeQuery ∧ queries ≠ []
  · obtain ⟨err, ran⟩ := replayStatements_other (e := e.traced) s i type.1 type.2
    rw [ran]
    exact ⟨.refl s, by simp⟩
  rw [replayStatements_type i type]
  obtain ⟨stopped, ended⟩ := halts_traced (e := e) queries s.content
  cases halted : halts e.traced s.content queries with
  | some halt =>
    obtain ⟨err, ran⟩ := replayStatements_halts i 0 halted
    rw [ran]
    exact ⟨advance_moved (stopped halt halted), by simp⟩
  | none =>
    rw [replayStatements_runs i 0 (execAll_of_halts halted)]
    exact ⟨advance_moved (ended halted), fun _ => rfl⟩

lemma flushHandler_moved (calm : s.handler.savepoints = []) : Moved s s.flushHandler := by
  have flushed := flushHandler_advanced calm
  refine ⟨?_, flushed.current.ge, flushed.pool, flushed.savepoints⟩
  rintro ⟨even, stored⟩
  have strg : s.flushHandler.strg = s.content := rfl
  have content := flushed.content
  have current := flushed.current
  simp only [State.Even, strg, content]
  omega

lemma tryCommit_moved (calm : s.handler.savepoints = []) : Moved s s.tryCommit := by
  unfold tryCommit
  by_cases due : s.maxTx < s.current - s.lastCommitPoint ∨ s.hasSchemaChange = true
  · rw [if_pos due]
    exact flushHandler_moved calm
  · rw [if_neg due]
    exact .refl s

end

structure Tallied (s : State (DB × List Pattern) Query) : Prop where
  even : s.Even
  calm : s.handler.savepoints = []
  pooled : ∀ q ∈ s.pool.queries, q.resp.logOffset + q.req.queries.length ≤ s.current
  reads : ∀ hash q, s.pool.reads.get hash = some q → q.req.queryType = .readQuery

structure Tallies (s s' : State (DB × List Pattern) Query) : Prop where
  tallied : Tallied s'
  strg : s.strg.2.length ≤ s'.strg.2.length

section

variable {e : Engine DB Query Pattern Value} {s s' : State (DB × List Pattern) Query}

lemma newState_tallied (level strg) :
    Tallied ({ State.newState level strg with current := strg.2.length } :
      State (DB × List Pattern) Query) := by
  obtain ⟨content, calm⟩ := openHandler_content
    (⟨level, strg, .writer, .newPool, 100, 0, 0, false⟩ : State (DB × List Pattern) Query)
  refine ⟨⟨?_, Nat.le_refl _⟩, calm, by simp [newState, openHandler, Pool.newPool],
    by simp [newState, openHandler, Pool.newPool]⟩
  exact congrArg (fun db => db.2.length) content

lemma Tallied.moved (tallied : Tallied s) (moved : Moved s s') : Tallies s s' := by
  obtain ⟨even, grown⟩ := moved.even tallied.even
  refine ⟨⟨even, moved.savepoints.trans tallied.calm, ?_, ?_⟩, grown⟩
  · rw [moved.pool]
    exact fun q member => (tallied.pooled q member).trans moved.current
  · rw [moved.pool]
    exact tallied.reads

lemma Tallied.pool {pool : Pool Query} (tallied : Tallied s)
    (pooled : ∀ q ∈ pool.queries, q.resp.logOffset + q.req.queries.length ≤ s.current)
    (reads : ∀ hash q, pool.reads.get hash = some q → q.req.queryType = .readQuery) :
    Tallied { s with pool := pool } :=
  ⟨tallied.even, tallied.calm, pooled, reads⟩

lemma Tallied.enqueue (tallied : Tallied s) (sp : Nat)
    (executed : q.resp.logOffset + q.req.queries.length ≤ s.current) :
    Tallied { s with pool := s.pool.enqueue sp q } := by
  refine tallied.pool ?_ tallied.reads
  intro found member
  rcases mem_append.mp member with old | new
  · exact tallied.pooled found old
  · rw [mem_singleton] at new
    exact new ▸ executed

lemma readAll_traced (queries db i payload) :
    (State.readAll e.traced db i payload queries).1.2 = db.2 := by
  induction queries generalizing db i payload with
  | nil => rfl
  | cons q rest ih =>
    have single : (readSingle e.traced db q).1.2 = db.2 := by
      unfold readSingle
      cases e.traced.convertQueryAndBuildArgs q <;> rfl
    rw [readAll]
    rcases read : readSingle e.traced db q with ⟨after, _ | payload⟩
    · rw [read] at single
      exact single
    · rw [read] at single
      exact (ih after (i + 1) payload).trans single

section

variable (tallied : Tallied s)
include tallied

lemma Tallied.readTx (type : req.queryType = .readQuery) : Tallies s (s.readTx e.traced req).1 := by
  unfold State.readTx
  by_cases locked : s.level = .readUncommitted ∧ s.hasSchemaChange = true
  · rw [if_pos locked]
    have trace := readAll_traced (e := e) req.queries s.content 0 ⟨[], [], []⟩
    have moved := setContent_moved 0 s.hasSchemaChange (congrArg List.length trace)
    have same : { s.setContent (readAll e.traced s.content 0 ⟨[], [], []⟩ req.queries).1
        with hasSchemaChange := s.hasSchemaChange, current := s.current + 0 } =
          s.setContent (readAll e.traced s.content 0 ⟨[], [], []⟩ req.queries).1 := by
      unfold setContent
      cases s.handler <;> rfl
    rw [same] at moved
    exact tallied.moved moved
  · rw [if_neg locked]
    rcases (readAll e.traced s.reader 0 ⟨[], [], []⟩ req.queries).2 with err | payload
    · exact ⟨tallied.pool tallied.pooled tallied.reads, Nat.le_refl _⟩
    · refine ⟨tallied.pool tallied.pooled ?_, Nat.le_refl _⟩
      intro hash q found
      simp only [Pool.enqueueRead, FiniteMap.get_insert] at found
      by_cases same : hash = req.hash
      · rw [if_pos same, Option.some.injEq] at found
        exact found ▸ type
      · rw [if_neg same] at found
        exact tallied.reads hash q found

lemma Tallied.answer (req header) (executed : header.logOffset + req.queries.length ≤ s.current)
    (isLeader) : Tallies s (s.answer req header isLeader) := by
  have moved := tryCommit_moved tallied.calm
  obtain ⟨after, grown⟩ := tallied.moved moved
  cases isLeader with
  | false => exact ⟨after.pool after.pooled after.reads, grown⟩
  | true => exact ⟨after.enqueue header.logOffset (executed.trans moved.current), grown⟩

lemma Tallied.write (isLeader)
    (complete : 1 < req.queries.length → s.level = .readUncommitted → ∃ response,
      (s.write e.traced req isLeader).2 = .ok response) :
    Tallies s (s.write e.traced req isLeader).1 := by
  obtain ⟨stopped, ended⟩ := halts_traced (e := e) req.queries s.content
  cases halted : halts e.traced s.content req.queries with
  | some halt =>
    obtain ⟨err, ran⟩ := write_stops isLeader halted
    have plain : ¬ s.nested req = true := by
      intro nested
      obtain ⟨several, uncommitted⟩ := of_decide_eq_true nested
      obtain ⟨response, ok⟩ := complete several uncommitted
      rw [ran] at ok
      cases ok
    rw [ran, if_neg plain]
    have moved := advance_moved (e := e) (stopped halt halted)
    obtain ⟨after, grown⟩ := tallied.moved moved
    exact ⟨after.pool (fun q member => (tallied.pooled q member).trans moved.current)
      tallied.reads, grown⟩
  | none =>
    have executed := execAll_of_halts halted
    have wrote : ∃ db header, execAll e.traced s.content req.queries = some db ∧
        header.logOffset = s.current ∧ (s.write e.traced req isLeader).1 = if s.nested req then
          ((s.advance e.traced req.queries db).answer req header isLeader).rollbackTo
            else (s.advance e.traced req.queries db).answer req header isLeader := by
      by_cases nested : s.nested req = true
      · obtain ⟨several, uncommitted⟩ := of_decide_eq_true nested
        obtain ⟨response, ok⟩ := complete several uncommitted
        exact write_ok (Prod.ext rfl ok)
      · obtain ⟨header, offset, ran⟩ :=
          write_completes isLeader (fun inside => absurd inside nested) executed
        exact ⟨_, header, executed, offset, congrArg Prod.fst ran⟩
    obtain ⟨db, header, same, offset, after⟩ := wrote
    cases executed.symm.trans same
    obtain ⟨between, grown⟩ := tallied.moved (advance_moved (e := e) (ended halted))
    obtain ⟨final, further⟩ := between.answer req header (offset ▸ Nat.le_refl _) isLeader
    rw [after, rollbackTo_calm final.calm, ite_self]
    exact ⟨final, grown.trans further⟩

lemma Tallied.query (isLeader)
    (complete : req.queryType = .writeQuery → 1 < req.queries.length → s.level = .readUncommitted →
      ∃ response, (s.query e.traced req isLeader).2 = .ok response) :
    Tallies s (s.query e.traced req isLeader).1 := by
  unfold State.query at complete ⊢
  cases type : req.queryType with
  | readQuery => exact tallied.readTx type
  | writeQuery =>
    simp only [type] at complete
    exact tallied.write isLeader (complete trivial)
  | other => exact ⟨tallied, Nat.le_refl _⟩

lemma Tallied.commitEx (failedOrder readOrder) : Tallies s (s.commitEx failedOrder readOrder).1 ∧
      (s.commitEx failedOrder readOrder).1.strg.2.length = s.current := by
  obtain ⟨flushed, grown⟩ := tallied.moved (flushHandler_moved tallied.calm)
  refine ⟨⟨flushed.pool ?_ ?_, grown⟩, tallied.even.1⟩ <;> simp [Pool.newPool]

end

lemma Tallied.replayQueries (txs i lastsp) (tallied : Tallied s) :
    Tallies s (s.replayQueries e.traced i lastsp txs).1 := by
  induction txs generalizing s i lastsp with
  | nil => exact ⟨tallied, Nat.le_refl _⟩
  | cons q rest ih =>
    rw [replayQueries]
    by_cases read : q.request.queryType = .readQuery
    · rw [if_pos read]
      exact ih _ _ tallied
    · rw [if_neg read]
      by_cases missing : s.current < q.response.logOffset
      · rw [if_pos missing]
        exact ⟨tallied, Nat.le_refl _⟩
      · rw [if_neg missing]
        by_cases old : q.response.logOffset < s.current
        · rw [if_pos old]
          exact ih _ _ tallied
        · rw [if_neg old]
          obtain ⟨moved, counted⟩ := replayStatements_moved (e := e) q.request.queryType
            q.request.queries s i
          rcases ran : s.replayStatements e.traced q.request.queryType i 0 q.request.queries
            with ⟨after, err | _⟩
          · rw [ran] at moved
            exact tallied.moved moved
          · rw [ran] at moved counted
            obtain ⟨between, grown⟩ := tallied.moved moved
            have ends : q.response.logOffset + q.request.queries.length ≤ after.current := by
              have now : after.current = s.current + q.request.queries.length := counted rfl
              omega
            obtain ⟨final, further⟩ := ih (i + 1) s.current
              (between.enqueue (q := ⟨q.request, q.response⟩) s.current ends)
            exact ⟨final, grown.trans further⟩

lemma Pool.truncate_frame {p pool : Pool Query} (truncated : p.truncate sp = some pool) :
    (∀ q ∈ pool.queries, q ∈ p.queries) ∧ pool.reads = p.reads := by
  unfold Pool.truncate at truncated
  cases found : p.index.get sp with
  | none =>
    simp only [found] at truncated
    cases truncated
    exact ⟨fun _ member => member, rfl⟩
  | some pos =>
    simp only [found] at truncated
    by_cases within : 0 ≤ pos + 1 ∧ pos + 1 ≤ p.queries.length
    · rw [if_pos within, Option.some.injEq] at truncated
      subst truncated
      exact ⟨fun _ member => mem_of_mem_drop member, rfl⟩
    · rw [if_neg within] at truncated
      cases truncated

lemma Tallied.replayBlock (block) (tallied : Tallied s) :
    Tallies s (s.replayBlock e.traced block).1 ∧ ((s.replayBlock e.traced block).2 = .ok () →
        (s.replayBlock e.traced block).1.strg.2.length =
          (s.replayBlock e.traced block).1.current) := by
  obtain ⟨replayed, grown⟩ := tallied.replayQueries (e := e) block.queryTxs 0 0
  unfold State.replayBlock
  rcases ran : s.replayQueries e.traced 0 0 block.queryTxs with ⟨after, err | lastsp⟩
  · rw [ran] at replayed grown
    exact ⟨⟨replayed, grown⟩, by simp⟩
  · rw [ran] at replayed grown
    obtain ⟨flushed, further⟩ := replayed.moved (flushHandler_moved replayed.calm)
    obtain ⟨queries, reads, -⟩ :=
      Pool.removeFailed_frame block.failedReqs after.flushHandler.pool
    dsimp only
    cases truncated : (block.failedReqs.foldl Pool.removeFailed after.flushHandler.pool).truncate
        lastsp with
    | none => exact ⟨⟨flushed, grown.trans further⟩, by simp⟩
    | some =>
      obtain ⟨kept, sameReads⟩ := Pool.truncate_frame truncated
      refine ⟨⟨flushed.pool ?_ ?_, grown.trans further⟩, fun _ => replayed.even.1⟩
      · intro q member
        exact flushed.pooled q (queries ▸ kept q member)
      · rw [sameReads, reads]
        exact flushed.reads

end

end SQLess.Xenomint
