import SQLess.Lib.Journal
import SQLess.Xenomint.Statements

/-! Blocks reproduce the database. -/

namespace SQLess.Xenomint

open List

open Lib (FiniteMap playback playback_append playback_cons playback_recorded_le)

variable {DB Query Pattern Value : Type}

variable {queries : List (QueryTracker Query)} {i : Nat} {s : State DB Query}

def QueryTracker.entry (q : QueryTracker Query) : Nat × List Query :=
  (q.resp.logOffset, q.req.queries)

lemma execAll_append {e : Engine DB Query Pattern Value} (db first second) :
    execAll e db (first ++ second) = (execAll e db first).bind fun db => execAll e db second := by
  induction first generalizing db with
  | nil => rfl
  | cons q rest ih =>
    simp only [cons_append, execAll]
    cases execOne e db q with
    | none => rfl
    | some db => exact ih db

structure Recorded (e : Engine DB Query Pattern Value) (start : DB × Nat) (s : State DB Query) :
    Prop where
  journal : playback (execAll e) List.length start (s.pool.queries.map QueryTracker.entry) =
    some (s.content, s.current)
  writes : ∀ q ∈ s.pool.queries, q.req.queryType = .writeQuery
  reads : ∀ hash q, s.pool.reads.get hash = some q → q.req.queryType = .readQuery
  calm : s.handler.savepoints = []

section

variable {e : Engine DB Query Pattern Value} {start : DB × Nat} {s s' : State DB Query}
  {req : Request Query}

lemma newState_recorded (e : Engine DB Query Pattern Value) (level db) :
    Recorded e (db, 0) (State.newState level db) := by
  obtain ⟨content, calm⟩ :=
    openHandler_content (⟨level, db, .writer, .newPool, 100, 0, 0, false⟩ : State DB Query)
  refine ⟨?_, ?_, ?_, calm⟩
  · change some (db, 0) = some (State.content (State.openHandler _), 0)
    rw [content]
  · simp [State.newState, State.openHandler, Pool.newPool]
  · simp [State.newState, State.openHandler, Pool.newPool]

variable {response : Response Value}

lemma Recorded.readTx (recorded : Recorded e start s)
    (read : req.queryType = .readQuery) (ran : s.readTx e req = (s', .ok response)) :
    Recorded e start s' := by
  unfold State.readTx at ran
  split at ran
  · simp at ran
  · split at ran
    · simp at ran
    · rename_i payload _
      simp only [Prod.mk.injEq] at ran
      rw [← ran.1]
      refine ⟨recorded.journal, recorded.writes, ?_, recorded.calm⟩
      intro hash q found
      simp only [Pool.enqueueRead, FiniteMap.get_insert] at found
      by_cases same : hash = req.hash
      · rw [if_pos same, Option.some.injEq] at found
        rw [← found]
        exact read
      · rw [if_neg same] at found
        exact recorded.reads hash q found

structure Wrote (e : Engine DB Query Pattern Value) (s s' : State DB Query) (req : Request Query) :
    Prop where
  executed : execAll e s.content req.queries = some s'.content
  current : s'.current = s.current + req.queries.length
  pooled : ∃ header, header.logOffset = s.current ∧ s'.pool = s.pool.enqueue s.current ⟨req, header⟩
  calm : s'.handler.savepoints = []

lemma wrote_of_write (calm : s.handler.savepoints = [])
    (ran : s.write e req true = (s', .ok response)) : Wrote e s s' req := by
  obtain ⟨db, header, executed, offset, rfl⟩ := write_ok ran
  obtain ⟨after, rfl, quiet, content, current, closed, pool⟩ :=
    answer_calm (e := e) calm req db header true (s.nested req)
  rw [quiet]
  exact ⟨executed.trans (congrArg some content.symm), current, ⟨header, offset, offset ▸ pool⟩,
    closed⟩

lemma Recorded.write (recorded : Recorded e start s)
    (type : req.queryType = .writeQuery) (ran : s.write e req true = (s', .ok response)) :
    Recorded e start s' := by
  have wrote := wrote_of_write recorded.calm ran
  obtain ⟨header, offset, pool⟩ := wrote.pooled
  refine ⟨?_, ?_, ?_, wrote.calm⟩
  · rw [pool]
    simp only [Pool.enqueue, map_append, map_singleton]
    refine playback_append.mpr ⟨_, recorded.journal, ?_⟩
    refine playback_cons.mpr ⟨offset, s'.content, wrote.executed, ?_⟩
    rw [wrote.current]
    rfl
  · rw [pool]
    intro q member
    rcases mem_append.mp member with earlier | new
    · exact recorded.writes q earlier
    · rw [mem_singleton.mp new]
      exact type
  · rw [pool]
    exact recorded.reads

lemma Recorded.query (recorded : Recorded e start s)
    (ran : s.query e req true = (s', .ok response)) : Recorded e start s' := by
  unfold State.query at ran
  split at ran
  · rename_i type
    exact recorded.readTx type ran
  · rename_i type
    exact recorded.write type ran
  · simp at ran

end

section

def Pool.record (p : Pool Query) (queries : List (QueryTracker Query)) : Pool Query :=
  queries.foldl (fun p q => p.enqueue q.resp.logOffset q) p

lemma Pool.record_concat (p : Pool Query) (queries q) :
    p.record (queries ++ [q]) = (p.record queries).enqueue q.resp.logOffset q := by
  simp [Pool.record]

lemma Pool.record_frame (p : Pool Query) (queries) :
    (p.record queries).failed = p.failed ∧ (p.record queries).reads = p.reads ∧
      (p.record queries).queries = p.queries ++ queries := by
  induction queries generalizing p with
  | nil => exact ⟨rfl, rfl, by simp [Pool.record]⟩
  | cons q rest ih =>
    obtain ⟨failed, reads, listed⟩ := ih (p.enqueue q.resp.logOffset q)
    exact ⟨failed, reads, by simpa [Pool.record, Pool.enqueue] using listed⟩

lemma Pool.record_index {p : Pool Query} (found : ((p.record queries).index.get sp).isSome) :
    (p.index.get sp).isSome ∨ ∃ q ∈ queries, q.resp.logOffset = sp := by
  induction queries generalizing p with
  | nil => exact .inl found
  | cons q rest ih =>
    rcases ih (p := p.enqueue q.resp.logOffset q) found with before | ⟨other, member, same⟩
    · simp only [Pool.enqueue, FiniteMap.get_insert] at before
      by_cases same : sp = q.resp.logOffset
      · exact .inr ⟨q, mem_cons_self, same.symm⟩
      · rw [if_neg same] at before
        exact .inl before
    · exact .inr ⟨other, mem_cons_of_mem _ member, same⟩

lemma Pool.truncate_record (ordered : ∀ q ∈ queries, q.resp.logOffset ≤ last.resp.logOffset) :
    (Pool.newPool.record (queries ++ [last])).truncate last.resp.logOffset = some Pool.newPool := by
  obtain ⟨failed, reads, listed⟩ := Pool.newPool.record_frame queries
  have count : (Pool.newPool.record queries).queries = queries := by
    simpa [Pool.newPool] using listed
  rw [Pool.record_concat]
  have position : ((Pool.newPool.record queries).enqueue last.resp.logOffset last).index.get
      last.resp.logOffset = some (queries.length : Int) := by
    simp [Pool.enqueue, count]
  unfold Pool.truncate
  rw [position]
  simp only [Pool.enqueue, count, length_append, length_singleton]
  rw [if_pos (by omega)]
  have index : Pool.rebuildIndex
      ((Pool.newPool.record queries).index.insert last.resp.logOffset queries.length)
      last.resp.logOffset queries.length = ∅ := by
    ext1 sp
    simp only [Pool.rebuildIndex, FiniteMap.get_insert, FiniteMap.get_empty]
    by_cases later : last.resp.logOffset < sp
    · have other : sp ≠ last.resp.logOffset := by omega
      rw [if_pos later, if_neg other, Option.map_eq_none_iff]
      by_contra present
      rcases Pool.record_index (Option.isSome_iff_ne_none.mpr present) with
        empty | ⟨q, member, same⟩
      · simp [Pool.newPool] at empty
      · have bound := ordered q member
        omega
    · rw [if_neg later]
  have position' : ((queries.length : Int) + 1).toNat = queries.length + 1 := by omega
  rw [index, position', drop_of_length_le (by simp)]
  rw [failed, reads]
  rfl

lemma Pool.removeFailed_frame (failed : List (Request Query)) (p) :
    (failed.foldl Pool.removeFailed p).queries = p.queries ∧
      (failed.foldl Pool.removeFailed p).reads = p.reads ∧
      (failed.foldl Pool.removeFailed p).index = p.index := by
  induction failed generalizing p with
  | nil => exact ⟨rfl, rfl, rfl⟩
  | cons req rest ih => exact ih (p.removeFailed req)

lemma Pool.removeFailed_none (none : p.failed = ∅) (failed : List (Request Query)) :
    failed.foldl Pool.removeFailed p = p := by
  induction failed with
  | nil => rfl
  | cons req rest ih =>
    have same : p.removeFailed req = p := by
      have erased : p.failed.erase req.hash = p.failed := by
        ext1 hash
        simp [none]
      simp [Pool.removeFailed, erased]
    rw [foldl_cons, same, ih]

end

/-- Where a block stops: the statements executed and the queries pooled before the failing
statement, and the content that it leaves. -/
structure BlockHalt (DB Query : Type) extends Halt DB Query where
  pooled : List (QueryTracker Query)

def blockHalts (e : Engine DB Query Pattern Value) (db : DB) (current : Nat) :
    List (QueryAsTx Query) → Option (BlockHalt DB Query)
  | [] => none
  | q :: rest =>
    if q.request.queryType = .readQuery then blockHalts e db current rest
    else if current < q.response.logOffset then some ⟨⟨[], db⟩, []⟩
    else if q.response.logOffset < current then blockHalts e db current rest
    else if q.request.queryType ≠ .writeQuery ∧ q.request.queries ≠ [] then
      some ⟨⟨[], db⟩, []⟩
    else
      match halts e db q.request.queries with
      | some halt => some ⟨halt, []⟩
      | none =>
        (blockHalts e (q.request.queries.foldl (remains e) db)
          (current + q.request.queries.length) rest).map fun halt =>
            ⟨⟨q.request.queries ++ halt.executed, halt.content⟩,
              ⟨q.request, q.response⟩ :: halt.pooled⟩

def Consecutive : Nat → List (QueryTracker Query) → Prop
  | _, [] => True
  | current, q :: rest =>
    q.resp.logOffset = current ∧ Consecutive (current + q.req.queries.length) rest

structure Synced (place : DB × Nat) (s : State DB Query) : Prop where
  content : s.content = place.1
  current : s.current = place.2
  pool : s.pool = .newPool

section

variable {e : Engine DB Query Pattern Value} {start final : DB × Nat} {s s' : State DB Query}

lemma replayQueries_reads (reads : ∀ q ∈ txs, q.request.queryType = .readQuery) (i lastsp) :
    s.replayQueries e i lastsp txs = (s, .ok lastsp) := by
  induction txs generalizing i with
  | nil => rfl
  | cons q rest ih =>
    rw [State.replayQueries, if_pos (reads q mem_cons_self)]
    exact ih (fun other member => reads other (mem_cons_of_mem _ member)) (i + 1)

lemma replayQueries_writes (writes : ∀ q ∈ queries, q.req.queryType = .writeQuery)
    (played : playback (execAll e) List.length (s.content,
      s.current) (queries.map QueryTracker.entry) = some final)
    (i lastsp tail) : ∃ s' : State DB Query,
      s.replayQueries e i lastsp ((queries.map fun q => ⟨q.req, q.resp⟩) ++ tail) =
        s'.replayQueries e (i + queries.length)
          (queries.foldl (fun _ q => q.resp.logOffset) lastsp) tail ∧
      s'.content = final.1 ∧ s'.current = final.2 ∧ s'.pool = s.pool.record queries := by
  induction queries generalizing s i lastsp with
  | nil =>
    simp only [map_nil, playback] at played
    cases played
    exact ⟨s, rfl, rfl, rfl, rfl⟩
  | cons q rest ih =>
    obtain ⟨offset, next, executed, later⟩ := playback_cons.mp played
    change q.resp.logOffset = s.current at offset
    have type := writes q mem_cons_self
    have replayed := replayStatements_runs i 0 executed
    have advanced := advance_advanced (e := e) s q.req.queries next
    generalize s.advance e q.req.queries next = between at replayed advanced
    have further : playback (execAll e) List.length
        (State.content { between with pool := between.pool.enqueue s.current q },
          between.current) (rest.map QueryTracker.entry) = some final := by
      rw [advanced.current]
      change playback _ _ (between.content, _) _ = _
      rw [advanced.content]
      exact later
    obtain ⟨s', goes, content, current, pool⟩ :=
      ih (s := { between with pool := between.pool.enqueue s.current q })
        (fun other member => writes other (mem_cons_of_mem _ member)) further
        (i + 1) s.current
    refine ⟨s', ?_, content, current, ?_⟩
    · have write : ¬q.req.queryType = .readQuery := by simp [type]
      have here : ¬s.current < q.resp.logOffset := by omega
      have unskipped : ¬q.resp.logOffset < s.current := by omega
      rw [map_cons, cons_append, State.replayQueries, if_neg write, if_neg here,
        if_neg unskipped, type]
      rw [replayed]
      simp only [foldl_cons, length_cons, offset]
      rw [goes]
      congr 1
      omega
    · rw [pool, advanced.pool]
      simp only [Pool.record, foldl_cons]
      rw [offset]

lemma replayQueries_cases (txs) (s : State DB Query) (i lastsp) :
    (∀ halt, blockHalts e s.content s.current txs = some halt →
      ∃ err, s.replayQueries e i lastsp txs =
        ((s.advance e halt.executed halt.content).setPool (s.pool.record halt.pooled),
          .error err)) ∧ (blockHalts e s.content s.current txs = none →
      ∃ pooled db last, s.replayQueries e i lastsp txs =
          ((s.advance e (pooled.flatMap fun q => q.req.queries) db).setPool (s.pool.record pooled),
            .ok last) ∧ execAll e s.content (pooled.flatMap fun q => q.req.queries) = some db ∧
        Consecutive s.current pooled ∧ (pooled.map fun q => ⟨q.req, q.resp⟩).Sublist txs) := by
  induction txs generalizing s i lastsp with
  | nil =>
    refine ⟨by simp [blockHalts], fun _ => ⟨[], s.content, lastsp, ?_, rfl, trivial, .slnil⟩⟩
    rw [flatMap_nil, advance_nil]
    rfl
  | cons q rest ih =>
    rw [blockHalts, State.replayQueries]
    by_cases read : q.request.queryType = .readQuery
    · simp only [if_pos read]
      refine ⟨(ih s _ _).1, fun complete => ?_⟩
      obtain ⟨pooled, db, last, ran, executed, offsets, inside⟩ := (ih s _ _).2 complete
      exact ⟨pooled, db, last, ran, executed, offsets, inside.cons q⟩
    by_cases missing : s.current < q.response.logOffset
    · simp only [if_neg read, if_pos missing]
      refine ⟨?_, by simp⟩
      rintro _ ⟨⟩
      rw [advance_nil]
      exact ⟨_, rfl⟩
    by_cases old : q.response.logOffset < s.current
    · simp only [if_neg read, if_neg missing, if_pos old]
      refine ⟨(ih s _ _).1, fun complete => ?_⟩
      obtain ⟨pooled, db, last, ran, executed, offsets, inside⟩ := (ih s _ _).2 complete
      exact ⟨pooled, db, last, ran, executed, offsets, inside.cons q⟩
    simp only [if_neg read, if_neg missing, if_neg old]
    by_cases type : q.request.queryType ≠ .writeQuery ∧ q.request.queries ≠ []
    · obtain ⟨err, failed⟩ := replayStatements_other (e := e) s i type.1 type.2
      simp only [if_pos type, failed]
      refine ⟨?_, by simp⟩
      rintro _ ⟨⟩
      rw [advance_nil]
      exact ⟨err, rfl⟩
    rw [if_neg type, replayStatements_type i type]
    cases inner : halts e s.content q.request.queries with
    | some stop =>
      obtain ⟨err, ran⟩ := replayStatements_halts i 0 inner
      simp only [ran]
      refine ⟨?_, by simp⟩
      rintro _ ⟨⟩
      exact ⟨err, Prod.ext (advance_setPool s s.pool stop.executed stop.content) rfl⟩
    | none =>
      have executed := execAll_of_halts inner
      rw [replayStatements_runs i 0 executed]
      have advanced := advance_advanced (e := e) s q.request.queries
        (q.request.queries.foldl (remains e) s.content)
      have here : q.response.logOffset = s.current := by omega
      obtain ⟨stops, runs⟩ := ih ((s.advance e q.request.queries
        (q.request.queries.foldl (remains e) s.content)).setPool
          (s.pool.enqueue s.current ⟨q.request, q.response⟩)) (i + 1) s.current
      simp only [setPool_frame, advanced.content, advanced.current, advance_setPool,
        advance_append] at stops runs
      simp only [Option.map_eq_some_iff, Option.map_eq_none_iff, advanced.pool]
      constructor
      · rintro _ ⟨later, halted, rfl⟩
        obtain ⟨err, ran⟩ := stops later halted
        refine ⟨err, Eq.trans rfl (ran.trans ?_)⟩
        simp only [State.setPool, Pool.record, foldl_cons, here]
      · intro complete
        obtain ⟨pooled, db, last, ran, later, offsets, inside⟩ := runs complete
        refine ⟨⟨q.request, q.response⟩ :: pooled, db, last, Eq.trans rfl (ran.trans ?_), ?_,
          ⟨here, offsets⟩, inside.cons_cons q⟩
        · simp only [State.setPool, Pool.record, foldl_cons, flatMap_cons, here]
        · rw [flatMap_cons, execAll_append, executed]
          exact later

lemma replayBlock_of_queries (goes : s.replayQueries e 0 0 block.queryTxs = (between, .ok lastsp))
    (unfailed : between.pool.failed = ∅) (truncated : between.pool.truncate lastsp = some pool) :
    s.replayBlock e block = ({ between.flushHandler with pool := pool }, .ok ()) := by
  have removed : (block.failedReqs.foldl Pool.removeFailed between.flushHandler.pool).truncate
      lastsp = some pool := by
    change (block.failedReqs.foldl Pool.removeFailed between.pool).truncate lastsp = some pool
    rw [Pool.removeFailed_none unfailed, truncated]
  unfold State.replayBlock
  rw [goes]
  simp only [removed]

lemma replayBlock_recorded (synced : Synced start s)
    (writes : ∀ q ∈ queries, q.req.queryType = .writeQuery)
    (skipped : ∀ q ∈ reads, q.req.queryType = .readQuery)
    (played : playback (execAll e) List.length start (queries.map QueryTracker.entry) = some final)
    (failed : List (Request Query)) :
    ∃ s', s.replayBlock e (Block.cut failed (queries ++ reads)) = (s', .ok ()) ∧
      Synced final s' ∧ s'.strg = final.1 := by
  rw [show start = (s.content, s.current) from Prod.ext synced.content.symm synced.current.symm]
    at played
  obtain ⟨between, goes, content, current, pool⟩ :=
    replayQueries_writes writes played 0 0 (reads.map fun q => ⟨q.req, q.resp⟩)
  have txs : (Block.cut failed (queries ++ reads)).queryTxs =
      (queries.map fun q => ⟨q.req, q.resp⟩) ++ reads.map fun q => ⟨q.req, q.resp⟩ := by
    simp [Block.cut]
  have ends : ∀ q ∈ reads.map fun q : QueryTracker Query => (⟨q.req, q.resp⟩ : QueryAsTx Query),
      q.request.queryType = .readQuery := by
    simpa using skipped
  rw [← txs, replayQueries_reads (s := between) ends] at goes
  rw [synced.pool] at pool
  have truncated : between.pool.truncate
      (queries.foldl (fun _ q => q.resp.logOffset) 0) = some Pool.newPool := by
    rw [pool]
    rcases eq_nil_or_concat queries with none | ⟨front, last, snoc⟩
    · rw [none]
      rfl
    · rw [concat_eq_append] at snoc
      rw [snoc, foldl_append]
      refine Pool.truncate_record ?_
      intro q member
      rw [snoc, map_append] at played
      obtain ⟨before, first, second⟩ := playback_append.mp played
      obtain ⟨offset, -⟩ := playback_cons.mp second
      have bound := playback_recorded_le first q.entry (mem_map_of_mem member)
      exact offset ▸ bound
  have unfailed : between.pool.failed = ∅ := by
    rw [pool]
    exact (Pool.newPool.record_frame queries).1
  refine ⟨{ between.flushHandler with pool := .newPool },
    replayBlock_of_queries goes unfailed truncated, ⟨?_, current, rfl⟩, content⟩
  change between.flushHandler.content = final.1
  rw [← content]
  exact (openHandler_content between.commitHandler).1

end

section

variable {e : Engine DB Query Pattern Value} {start : DB × Nat} {s s' r : State DB Query}

lemma Recorded.cut (recorded : Recorded e start s) (failedOrder readOrder) :
    Recorded e (s.content, s.current) (s.commitEx failedOrder readOrder).1 ∧
      ∀ q ∈ readOrder.filterMap s.pool.reads.get, q.req.queryType = .readQuery := by
  obtain ⟨content, calm⟩ := openHandler_content s.commitHandler
  refine ⟨⟨?_, ?_, ?_, calm⟩, ?_⟩
  · change some (s.content, s.current) = some (s.flushHandler.content, s.current)
    rw [show s.flushHandler.content = s.content from content]
  · simp [State.commitEx, Pool.newPool]
  · simp [State.commitEx, Pool.newPool]
  · intro q member
    obtain ⟨hash, -, found⟩ := mem_filterMap.mp member
    exact recorded.reads hash q found

lemma Recorded.commitEx (recorded : Recorded e start s) (synced : Synced start r)
    (failedOrder readOrder) :
    Recorded e (s.content, s.current) (s.commitEx failedOrder readOrder).1 ∧
      ∃ r', r.replayBlock e (Block.cut (s.commitEx failedOrder readOrder).2.1
          (s.commitEx failedOrder readOrder).2.2) = (r', .ok ()) ∧
        Synced (s.content, s.current) r' ∧ r'.strg = (s.commitEx failedOrder readOrder).1.strg := by
  obtain ⟨next, reads⟩ := recorded.cut failedOrder readOrder
  exact ⟨next, replayBlock_recorded synced recorded.writes reads recorded.journal _⟩

lemma leaderRun_replays (recorded : Recorded e start s) (synced : Synced start r)
    (ran : leaderRun e (ops ++ [.commitEx failedOrder readOrder]) s = some (s', blocks)) :
    ∃ r', replayBlocks e blocks r = some r' ∧ r'.strg = s'.strg ∧ r'.current = s'.current ∧
      r'.pool = .newPool := by
  induction ops generalizing s r start blocks with
  | nil =>
    obtain ⟨-, r', replayed, after, content⟩ :=
      recorded.commitEx synced failedOrder readOrder
    simp only [nil_append, leaderRun, Option.map_some] at ran
    cases ran
    refine ⟨r', ?_, content, after.current, after.pool⟩
    simp only [replayBlocks, replayed]
  | cons op rest ih =>
    cases op with
    | query =>
      simp only [cons_append, leaderRun] at ran
      split at ran
      · rename_i next response answered
        exact ih (recorded.query answered) synced ran
      · simp at ran
    | commitEx failedOrder' readOrder' =>
      obtain ⟨next, r', replayed, after, -⟩ :=
        recorded.commitEx synced failedOrder' readOrder'
      simp only [cons_append, leaderRun, Option.map_eq_some_iff, Prod.mk.injEq] at ran
      obtain ⟨⟨final, later⟩, ran, rfl, rfl⟩ := ran
      obtain ⟨r'', followed, facts⟩ := ih next after ran
      refine ⟨r'', ?_, facts⟩
      simp only [replayBlocks, replayed, followed]

/-- The blocks that a leader cuts, replayed on a new state over the same content, give the leader's
content and sequence number. -/
theorem blocks_reproduce (e : Engine DB Query Pattern Value) (level level' : IsolationLevel)
    (empty : DB) (ops : List (Op Query)) (failedOrder readOrder : List Hash)
    {blocks : List (Block Query)}
    (ran : leaderRun e (ops ++ [.commitEx failedOrder readOrder]) (.newState level empty) =
      some (s, blocks)) :
    ∃ r, replayBlocks e blocks (.newState level' empty) = some r ∧ r.strg = s.strg ∧
      r.current = s.current ∧ r.pool = .newPool := by
  have synced : Synced (empty, 0) (State.newState level' empty : State DB Query) :=
    ⟨(openHandler_content _).1, rfl, rfl⟩
  exact leaderRun_replays (newState_recorded e level empty) synced ran

end

/-! A counter as the database: a statement adds to it, adding 0 fails, and 100 counts as a change
of the schema. -/

def sampleEngine : Engine Nat Nat Nat Nat where
  convertQueryAndBuildArgs q := some (q = 100, q)
  exec db q := if q = 0 then (db, none) else (db + q, some ⟨1, db⟩)
  query db q := (db, some ⟨["total"], ["INT"], [[db, q]]⟩)

def sampleOps : List (Op Nat) :=
  [.query ⟨1, .writeQuery, [5]⟩, .query ⟨2, .readQuery, [0]⟩, .query ⟨3, .writeQuery, []⟩,
    .query ⟨4, .writeQuery, [1, 100, 2]⟩, .commitEx [] [2], .query ⟨5, .readQuery, []⟩,
    .query ⟨6, .writeQuery, []⟩, .query ⟨7, .writeQuery, [3, 3]⟩]

theorem blocks_reproduce_sample : ∃ s r : State Nat Nat, ∃ blocks : List (Block Nat),
    leaderRun sampleEngine (sampleOps ++ [.commitEx [] [5]]) (.newState .readUncommitted 0) =
      some (s, blocks) ∧ blocks.length = 2 ∧
      replayBlocks sampleEngine blocks (.newState .readUncommitted 0) = some r ∧
      r.strg = 114 ∧ r.current = 6 ∧ r.pool = .newPool := by
  have ran : leaderRun sampleEngine (sampleOps ++ [.commitEx [] [5]])
      (.newState .readUncommitted 0) = some (_, _) := rfl
  obtain ⟨r, replayed, content, current, pool⟩ :=
    blocks_reproduce sampleEngine .readUncommitted .readUncommitted 0 sampleOps [] [5] ran
  exact ⟨_, r, _, ran, rfl, replayed, content, current, pool⟩

end SQLess.Xenomint
