import SQLess.Xenomint.Replay
import SQLess.Xenomint.Trace

/-!
A follower executes every write request once, if no block overtakes the commits of the requests in
it.
-/

namespace SQLess.Xenomint

open List Option State

open Lib (FiniteMap playback playback_append playback_cons playback_le playback_recorded_le)

variable {DB Query Pattern Value : Type}

variable {req : Request Query} {place : DB × Nat}

def SameKind (s s' : State DB Query) : Prop :=
  s'.level = s.level ∧ (s'.handler = .writer ↔ s.handler = .writer)

section

variable {e : Engine DB Query Pattern Value} {s s' : State DB Query}

lemma SameKind.opened (same : SameKind s s') (opened : s.Opened) : s'.Opened := by
  intro uncommitted writer
  exact opened (same.1 ▸ uncommitted) (same.2.mp writer)

lemma advance_sameKind (s executed db) : SameKind s (s.advance e executed db) := by
  unfold advance setContent
  cases stage : s.handler with
  | writer | transaction content savepoints => exact ⟨rfl, by simp [stage]⟩

lemma openHandler_opened (s : State DB Query) : s.openHandler.Opened := by
  intro uncommitted
  have level : s.level = .readUncommitted := uncommitted
  simp [openHandler, level]

lemma tryCommit_opened (opened : s.Opened) : s.tryCommit.Opened := by
  unfold tryCommit
  split
  · exact openHandler_opened s.commitHandler
  · exact opened

structure Executed (e : Engine DB Query Pattern Value) (s s' : State DB Query)
    (queries : List Query) : Prop where
  executed : execAll e s.content queries = some s'.content
  current : s'.current = s.current + queries.length
  pool : s'.pool = s.pool
  calm : s'.handler.savepoints = []
  opened : s'.Opened

lemma commit_of_exec (type : req.queryType = .writeQuery) (calm : s.handler.savepoints = [])
    (opened : s.Opened) (executed : execAll e s.content req.queries = some db) :
    ∃ s' response, s.query e req false = (s', .ok response) ∧ Executed e s s' req.queries := by
  obtain ⟨header, -, ran⟩ := write_completes false
    (fun nested => opened (of_decide_eq_true nested).2) executed
  obtain ⟨after, same, quiet, content, current, closed, pool⟩ :=
    answer_calm (e := e) calm req db header false (s.nested req)
  rw [← same, quiet] at ran
  refine ⟨after, _, by rw [query, type]; exact ran, ?_, current, pool, closed, ?_⟩
  · rw [executed, content]
  · rw [same]
    exact tryCommit_opened ((advance_sameKind s req.queries db).opened opened)

end

section

variable {e : Engine DB Query Pattern Value} {s s' : State DB Query}

lemma replayQueries_old (writes : ∀ q ∈ queries, q.req.queryType = .writeQuery)
    (old : ∀ q ∈ queries, q.resp.logOffset + q.req.queries.length ≤ s.current) (i lastsp tail) :
    s.replayQueries e i lastsp ((queries.map fun q => ⟨q.req, q.resp⟩) ++ tail) =
      State.replayQueries e (i + queries.length) (if queries = [] then lastsp else s.current)
        { s with pool := s.pool.record (queries.filter fun q => q.resp.logOffset = s.current) }
        tail := by
  induction queries generalizing s i lastsp with
  | nil => rfl
  | cons q rest ih =>
    have type := writes q mem_cons_self
    have bound := old q mem_cons_self
    have write : ¬q.req.queryType = .readQuery := by simp [type]
    have here : ¬s.current < q.resp.logOffset := by omega
    have length : i + 1 + rest.length = i + (q :: rest).length := by
      simp only [length_cons]
      omega
    have later : ∀ pool : Pool Query, replayQueries e (i + 1) s.current
        { s with pool := pool } ((rest.map fun q => ⟨q.req, q.resp⟩) ++ tail) =
          replayQueries e (i + (q :: rest).length) s.current
            { s with pool := pool.record (rest.filter fun q => q.resp.logOffset = s.current) }
            tail := by
      intro pool
      have further := ih (s := { s with pool := pool })
        (fun other member => writes other (mem_cons_of_mem _ member))
        (fun other member => old other (mem_cons_of_mem _ member)) (i + 1) s.current
      rw [further, length]
      simp only [ite_self]
    rw [map_cons, cons_append, replayQueries, if_neg write, if_neg here]
    by_cases before : q.resp.logOffset < s.current
    · have other : ¬q.resp.logOffset = s.current := by omega
      rw [if_pos before, filter_cons_of_neg (by simpa using other)]
      exact later s.pool
    · have same : q.resp.logOffset = s.current := by omega
      have empty : q.req.queries = [] := eq_nil_of_length_eq_zero (by omega)
      rw [if_neg before, filter_cons_of_pos (by simpa using same), type, empty]
      simp only [replayStatements, if_neg (cons_ne_nil q rest)]
      rw [later]
      simp only [Pool.record, foldl_cons, same]

structure Follows (place : DB × Nat) (s : State DB Query) : Prop where
  synced : Synced place s
  calm : s.handler.savepoints = []
  opened : s.Opened

lemma replayBlock_old (follows : Follows place s)
    (writes : ∀ q ∈ queries, q.req.queryType = .writeQuery)
    (skipped : ∀ q ∈ reads, q.req.queryType = .readQuery)
    (old : ∀ q ∈ queries, q.resp.logOffset + q.req.queries.length ≤ s.current)
    (failed : List (Request Query)) :
    ∃ s', s.replayBlock e (Block.cut failed (queries ++ reads)) = (s', .ok ()) ∧
      Follows place s' ∧ s'.strg = s'.content := by
  obtain ⟨content, current, pool⟩ := follows.synced
  have txs : (Block.cut failed (queries ++ reads)).queryTxs =
      (queries.map fun q => ⟨q.req, q.resp⟩) ++ reads.map fun q => ⟨q.req, q.resp⟩ := by
    simp [Block.cut]
  have ends : ∀ q ∈ reads.map fun q : QueryTracker Query => (⟨q.req, q.resp⟩ : QueryAsTx Query),
      q.request.queryType = .readQuery := by
    simpa using skipped
  have goes := replayQueries_old (e := e) writes old 0 0 (reads.map fun q => ⟨q.req, q.resp⟩)
  rw [← txs, replayQueries_reads ends, pool] at goes
  have truncated : (Pool.newPool.record
        (queries.filter fun q => q.resp.logOffset = s.current)).truncate
      (if queries = [] then 0 else s.current) = some Pool.newPool := by
    rcases eq_nil_or_concat (queries.filter fun q => q.resp.logOffset = s.current) with
      none | ⟨front, last, snoc⟩
    · rw [none]
      rfl
    · rw [concat_eq_append] at snoc
      have here : ∀ q ∈ front ++ [last], q.resp.logOffset = s.current := by
        intro q member
        rw [← snoc] at member
        simpa using (mem_filter.mp member).2
      have some_ : queries ≠ [] := by
        rintro rfl
        simp at snoc
      rw [snoc, if_neg some_, ← here last (by simp)]
      refine Pool.truncate_record ?_
      intro q member
      rw [here q (by simp [member]), here last (by simp)]
  have unfailed := (Pool.newPool.record_frame
    (queries.filter fun q => q.resp.logOffset = s.current)).1
  obtain ⟨flushed, none⟩ := openHandler_content s.commitHandler
  exact ⟨_, replayBlock_of_queries goes unfailed truncated,
    ⟨⟨flushed.trans content, current, rfl⟩, none, openHandler_opened s.commitHandler⟩,
    flushed.symm⟩

end

inductive Cuts : List (QueryTracker Query) → List (Block Query) → Prop
  | nil : Cuts [] []
  | cons {queries reads later : List (QueryTracker Query)} {blocks : List (Block Query)}
      (failed : List (Request Query)) (writes : ∀ q ∈ queries, q.req.queryType = .writeQuery)
      (skipped : ∀ q ∈ reads, q.req.queryType = .readQuery) (cuts : Cuts later blocks) :
      Cuts (queries ++ later) (Block.cut failed (queries ++ reads) :: blocks)

section

variable {e : Engine DB Query Pattern Value} {start : DB × Nat} {s s' : State DB Query}

lemma cut_writeCount (writes : ∀ q ∈ queries, q.req.queryType = .writeQuery)
    (skipped : ∀ q ∈ reads, q.req.queryType = .readQuery) (failed : List (Request Query)) :
    (Block.cut failed (queries ++ reads)).writeCount = queries.length := by
  have none : reads.countP (fun q => q.req.queryType = .writeQuery) = 0 := by
    rw [countP_eq_zero]
    intro q member
    simp [skipped q member]
  have all : queries.countP (fun q => q.req.queryType = .writeQuery) = queries.length := by
    rw [countP_eq_length]
    intro q member
    simp [writes q member]
  rw [Block.writeCount, Block.cut, countP_map, countP_append]
  exact (congrArg₂ (· + ·) all none)

lemma query_pooled (calm : s.handler.savepoints = [])
    (ran : s.query e req true = (s', .ok response)) : s'.pool.queries.map QueryTracker.req =
      s.pool.queries.map QueryTracker.req ++ writes [.query req] := by
  unfold query at ran
  cases type : req.queryType with
  | readQuery =>
    simp only [type, readTx] at ran
    split at ran
    · simp at ran
    · split at ran
      · simp at ran
      · simp only [Prod.mk.injEq] at ran
        rw [← ran.1]
        simp [Pool.enqueueRead, writes, type]
  | writeQuery =>
    simp only [type] at ran
    obtain ⟨header, -, pool⟩ := (wrote_of_write calm ran).pooled
    simp [pool, Pool.enqueue, writes, type]
  | other => simp [type] at ran

lemma leaderRun_journal (recorded : Recorded e start s)
    (ran : leaderRun e (ops ++ [.commitEx failedOrder readOrder]) s = some (s', blocks)) :
    ∃ journal : List (QueryTracker Query), Cuts journal blocks ∧
      journal.map QueryTracker.req = s.pool.queries.map QueryTracker.req ++ writes ops ∧
      playback (execAll e) List.length start (journal.map QueryTracker.entry) =
        some (s'.strg, s'.current) := by
  induction ops generalizing s start blocks with
  | nil =>
    obtain ⟨-, reads⟩ := recorded.cut failedOrder readOrder
    simp only [nil_append, leaderRun, map_some] at ran
    cases ran
    refine ⟨s.pool.queries, ?_, by simp [writes], recorded.journal⟩
    have cuts := Cuts.cons (s.pool.failedList failedOrder) recorded.writes reads Cuts.nil
    rw [append_nil] at cuts
    exact cuts
  | cons op rest ih =>
    cases op with
    | query req =>
      simp only [cons_append, leaderRun] at ran
      split at ran
      · rename_i next response answered
        obtain ⟨journal, cuts, listed, played⟩ := ih (recorded.query answered) ran
        refine ⟨journal, cuts, ?_, played⟩
        rw [listed, query_pooled recorded.calm answered, append_assoc]
        by_cases type : req.queryType = .writeQuery <;> simp [writes, type]
      · simp at ran
    | commitEx failedOrder' readOrder' =>
      simp only [cons_append, leaderRun, map_eq_some_iff, Prod.mk.injEq] at ran
      obtain ⟨⟨final, later⟩, ran, rfl, rfl⟩ := ran
      obtain ⟨next, reads⟩ := recorded.cut failedOrder' readOrder'
      obtain ⟨journal, cuts, listed, played⟩ := ih next ran
      refine ⟨s.pool.queries ++ journal, .cons _ recorded.writes reads cuts, ?_, ?_⟩
      · rw [map_append, listed]
        simp [commitEx, Pool.newPool, writes]
      · rw [map_append]
        exact playback_append.mpr ⟨_, recorded.journal, played⟩

end

section

variable {e : Engine DB Query Pattern Value} {start : DB × Nat} {s : State DB Query}

lemma Cuts.writes {blocks : List (Block Query)} (cuts : Cuts journal blocks) :
    ∀ q ∈ journal, q.req.queryType = .writeQuery := by
  induction cuts with
  | nil => simp
  | cons _ writes _ _ ih =>
    intro q member
    rcases mem_append.mp member with here | later
    · exact writes q here
    · exact ih q later

lemma playback_ends_le {entries : List (QueryTracker Query)}
    (played : playback (execAll e) List.length start (entries.map QueryTracker.entry) =
      some final) : ∀ q ∈ entries, q.resp.logOffset + q.req.queries.length ≤ final.2 := by
  induction entries generalizing start with
  | nil => simp
  | cons q rest ih =>
    obtain ⟨offset, next, -, later⟩ := playback_cons.mp played
    intro other member
    rcases mem_cons.mp member with rfl | behind
    · have further := playback_le later
      simp only at further
      have here : other.resp.logOffset = start.2 := offset
      omega
    · exact ih later other behind

lemma Follows.commit {next} (follows : Follows place s) (type : req.queryType = .writeQuery)
    (executed : execAll e place.1 req.queries = some next) :
    ∃ after response, s.query e req false = (after, .ok response) ∧
      Follows (next, place.2 + req.queries.length) after := by
  have executed' : execAll e s.content req.queries = some next := by
    rw [follows.synced.content]
    exact executed
  obtain ⟨after, response, answered, done⟩ :=
    commit_of_exec type follows.calm follows.opened executed'
  have reached : next = after.content := by
    rw [done.executed] at executed'
    exact (Option.some.inj executed').symm
  refine ⟨after, response, answered, ⟨reached.symm, ?_, done.pool.trans follows.synced.pool⟩,
    done.calm, done.opened⟩
  rw [done.current, follows.synced.current]

lemma Follows.block (follows : Follows place s)
    (writes : ∀ q ∈ queries, q.req.queryType = .writeQuery)
    (skipped : ∀ q ∈ reads, q.req.queryType = .readQuery)
    (played : playback (execAll e) List.length start ((queries ++ ahead).map QueryTracker.entry) =
      some place) (failed) :
    ∃ between after, s.replayBlock e (Block.cut failed (queries ++ reads)) = (after, .ok ()) ∧
      Follows place after ∧ after.strg = after.content ∧
      playback (execAll e) List.length between (ahead.map QueryTracker.entry) = some place := by
  rw [map_append] at played
  obtain ⟨between, covered, played⟩ := playback_append.mp played
  have old : ∀ q ∈ queries, q.resp.logOffset + q.req.queries.length ≤ s.current := by
    intro q member
    have bound := playback_ends_le covered q member
    have further := playback_le played
    rw [follows.synced.current]
    omega
  obtain ⟨after, replayed, place', flushed⟩ :=
    replayBlock_old (e := e) follows writes skipped old failed
  exact ⟨between, after, replayed, place', flushed, played⟩

lemma followerRun_follows (follows : Follows place s) (cuts : Cuts (ahead ++ future) blocks)
    (played : playback (execAll e) List.length start (ahead.map QueryTracker.entry) = some place)
    (whole : playback (execAll e) List.length place (future.map QueryTracker.entry) = some final)
    (stored : ahead = [] → s.strg = s.content)
    (commits : committed ds <+: future.map QueryTracker.req) (order : delivered ds <+: blocks)
    (onTime : OnTime ahead.length ds) :
    ∃ s' done rest, followerRun e ds s = some s' ∧ future = done ++ rest ∧
      done.map QueryTracker.req = committed ds ∧
      playback (execAll e) List.length place (done.map QueryTracker.entry) =
        some (s'.content, s'.current) ∧
      (rest = [] → delivered ds = blocks → s'.strg = s'.content) := by
  induction ds generalizing s ahead future blocks place start with
  | nil =>
    refine ⟨s, [], future, rfl, rfl, rfl, ?_, ?_⟩
    · rw [follows.synced.content, follows.synced.current]
      rfl
    · rintro rfl rfl
      refine stored ?_
      generalize entries : ahead ++ [] = journal at cuts
      cases cuts
      simpa using entries
  | cons d ds ih =>
    cases d with
    | commit =>
      rcases future with _ | ⟨q, future⟩
      · simp [committed] at commits
      · simp only [committed, map_cons, cons_prefix_cons] at commits
        obtain ⟨rfl, commits⟩ := commits
        obtain ⟨offset, next, executed, later⟩ := playback_cons.mp whole
        obtain ⟨after, response, answered, place'⟩ :=
          follows.commit (cuts.writes q (by simp)) executed
        have played' : playback (execAll e) List.length start
            ((ahead ++ [q]).map QueryTracker.entry) =
              some (next, place.2 + q.req.queries.length) := by
          rw [map_append]
          refine playback_append.mpr ⟨place, played, ?_⟩
          exact playback_cons.mpr ⟨offset, next, executed, rfl⟩
        have onTime' : OnTime (ahead ++ [q]).length ds := by simpa [OnTime] using onTime
        obtain ⟨s', done', rest, ran, split, listed, playedTo, closed⟩ :=
          ih place' (by simpa using cuts) played' later (by simp) commits order onTime'
        refine ⟨s', q :: done', rest, ?_, by simp [split], by simp [committed, listed], ?_, closed⟩
        · simp only [followerRun, answered, ran]
        · exact playback_cons.mpr ⟨offset, next, executed, playedTo⟩
    | block block =>
      rcases blocks with _ | ⟨first, blocks⟩
      · simp [delivered] at order
      · simp only [delivered, cons_prefix_cons] at order
        obtain ⟨rfl, order⟩ := order
        generalize entries : ahead ++ future = journal at cuts
        cases cuts with
        | @cons queries reads later _ failed writes skipped cuts =>
          obtain ⟨enough, onTime⟩ := onTime
          rw [cut_writeCount writes skipped] at enough onTime
          -- the entries of the block are the first of those that are ahead
          obtain ⟨ahead', rfl⟩ : queries <+: ahead :=
            prefix_of_prefix_length_le ⟨later, rfl⟩ ⟨future, entries⟩ enough
          rw [append_assoc, append_cancel_left_eq] at entries
          obtain ⟨between, after, replayed, place', flushed, played⟩ :=
            follows.block writes skipped played failed
          obtain ⟨s', done, rest, ran, split, listed, playedTo, closed⟩ :=
            ih place' (entries ▸ cuts) played whole (fun _ => flushed) commits order
              (by simpa using onTime)
          refine ⟨s', done, rest, ?_, split, listed, playedTo, ?_⟩
          · simp only [followerRun, replayed, ran]
          · intro none same
            simp only [delivered, List.cons.injEq, true_and] at same
            exact closed none same

lemma execAll_traced (executed : execAll e.traced db queries = some db') :
    db'.2 = db.2 ++ e.patterns queries := by
  induction queries generalizing db with
  | nil =>
    simp only [execAll, Option.some.injEq] at executed
    simp [← executed, Engine.patterns]
  | cons q rest ih =>
    cases converted : e.convertQueryAndBuildArgs q with
    | none =>
      have same : e.traced.convertQueryAndBuildArgs q = none := converted
      simp [execAll, execOne, same] at executed
    | some parsed =>
      obtain ⟨containsDDL, pattern⟩ := parsed
      have same : e.traced.convertQueryAndBuildArgs q = some (containsDDL, pattern) := converted
      rcases ran : e.exec db.1 pattern with ⟨after, _ | res⟩
      · simp [execAll, execOne, same, traced_exec_none ran] at executed
      · simp only [execAll, execOne, same, traced_exec_some ran] at executed
        rw [ih executed]
        simp [Engine.patterns, converted]

lemma playback_traced {start final} {entries : List (QueryTracker Query)}
    (played : playback (execAll e.traced) List.length start (entries.map QueryTracker.entry) =
      some final) :
    final.1.2 = start.1.2 ++ e.patterns ((entries.map QueryTracker.req).flatMap Request.queries) ∧
      final.2 = start.2 + ((entries.map QueryTracker.req).flatMap Request.queries).length := by
  induction entries generalizing start with
  | nil =>
    simp only [map_nil, playback, Option.some.injEq] at played
    simp [← played, Engine.patterns]
  | cons q rest ih =>
    obtain ⟨-, next, executed, later⟩ := playback_cons.mp played
    obtain ⟨trace, count⟩ := ih later
    have extended := execAll_traced executed
    simp only at trace count
    refine ⟨?_, ?_⟩
    · rw [trace, extended]
      simp [Engine.patterns]
    · rw [count]
      simp only [map_cons, flatMap_cons, length_append]
      omega

end

/-- No write request is executed twice on a follower that gets no block before the commits of the
write requests in it. -/
theorem follower_executes_once (e : Engine DB Query Pattern Value) (level level' : IsolationLevel)
    (empty : DB) (ops : List (Op Query)) (failedOrder readOrder : List Hash)
    {leader : State DB Query} {blocks : List (Block Query)}
    (ran : leaderRun e (ops ++ [.commitEx failedOrder readOrder]) (.newState level empty) =
      some (leader, blocks))
    {ds : List (Delivery Query)} (commits : committed ds <+: writes ops)
    (order : delivered ds <+: blocks) (onTime : OnTime 0 ds) :
    ∃ follower : State (DB × List Pattern) Query,
      followerRun e.traced ds (.newState level' (empty, [])) = some follower ∧
      followerRun e ds (.newState level' empty) = some (follower.map Prod.fst) ∧
      follower.content.2 = e.patterns ((committed ds).flatMap Request.queries) ∧
      follower.current = ((committed ds).flatMap Request.queries).length ∧
      (committed ds = writes ops → delivered ds = blocks →
        follower.strg.1 = leader.strg ∧ follower.current = leader.current) := by
  have traced := leaderRun_traced e (ops ++ [.commitEx failedOrder readOrder])
    (.newState level (empty, []))
  rw [newState_map, ran] at traced
  obtain ⟨⟨recorder, blocks'⟩, ran', same⟩ := map_eq_some_iff.mp traced.symm
  simp only [Prod.mk.injEq] at same
  obtain ⟨rfl, rfl⟩ := same
  obtain ⟨journal, cuts, listed, played⟩ :=
    leaderRun_journal (newState_recorded e.traced level (empty, [])) ran'
  have listed' : journal.map QueryTracker.req = writes ops := by
    simpa [State.newState, State.openHandler, Pool.newPool] using listed
  have follows : Follows ((empty, []), 0)
      (State.newState level' (empty, []) : State (DB × List Pattern) Query) := by
    obtain ⟨content, calm⟩ := openHandler_content
      (⟨level', (empty, []), .writer, .newPool, 100, 0, 0, false⟩ : State (DB × List Pattern) Query)
    exact ⟨⟨content, rfl, rfl⟩, calm, openHandler_opened _⟩
  have start : playback (execAll e.traced) List.length ((empty, []), 0)
      (([] : List (QueryTracker Query)).map QueryTracker.entry) = some ((empty, []), 0) := rfl
  obtain ⟨follower, done, rest, goes, split, taken, playedTo, closed⟩ :=
    followerRun_follows follows (show Cuts ([] ++ journal) blocks' from cuts) start played
      (fun _ => follows.synced.content.symm) (listed' ▸ commits) order onTime
  obtain ⟨trace, count⟩ := playback_traced playedTo
  rw [taken] at trace count
  refine ⟨follower, goes, ?_, by simpa using trace, by simpa using count, ?_⟩
  · have plain := followerRun_traced e ds (.newState level' (empty, []))
    rw [newState_map, goes] at plain
    exact plain
  · intro all whole
    have none : rest = [] := by
      have lengths := congrArg List.length split
      have same := congrArg List.length (taken.trans (all.trans listed'.symm))
      simp only [length_map, length_append] at lengths same
      exact eq_nil_of_length_eq_zero (by omega)
    rw [split, none, append_nil, playedTo, Option.some.injEq, Prod.mk.injEq] at played
    obtain ⟨content, current⟩ := played
    exact ⟨congrArg Prod.fst ((closed none whole).trans content), current⟩

theorem follower_executes_once_sample :
    ∃ (blocks : List (Block Nat)) (follower : State (Nat × List Nat) Nat),
      (leaderRun sampleEngine (sampleOps ++ [.commitEx [] [5]])
        (.newState .readUncommitted 0)).map Prod.snd = some blocks ∧
      (∃ first second, blocks = [first, second] ∧ followerRun sampleEngine.traced
          [.commit ⟨1, .writeQuery, [5]⟩, .commit ⟨3, .writeQuery, []⟩,
            .commit ⟨4, .writeQuery, [1, 100, 2]⟩, .commit ⟨6, .writeQuery, []⟩, .block first,
            .commit ⟨7, .writeQuery, [3, 3]⟩, .block second]
          (.newState .readUncommitted (0, [])) = some follower) ∧
      follower.content.2 = [5, 1, 100, 2, 3, 3] ∧ follower.strg.1 = 114 ∧
      follower.current = 6 := by
  have ran : leaderRun sampleEngine (sampleOps ++ [.commitEx [] [5]])
      (.newState .readUncommitted 0) = some (_, [_, _]) := rfl
  obtain ⟨follower, goes, -, trace, -, done⟩ :=
    follower_executes_once sampleEngine .readUncommitted .readUncommitted 0 sampleOps [] [5] ran
      (show committed [.commit ⟨1, .writeQuery, [5]⟩, .commit ⟨3, .writeQuery, []⟩,
        .commit ⟨4, .writeQuery, [1, 100, 2]⟩, .commit ⟨6, .writeQuery, []⟩, .block _,
        .commit ⟨7, .writeQuery, [3, 3]⟩, .block _] <+: writes sampleOps from prefix_rfl)
      (prefix_refl [_, _]) ⟨by decide, by decide, trivial⟩
  obtain ⟨same, sameSeq⟩ := done rfl rfl
  exact ⟨_, follower, rfl, ⟨_, _, rfl, goes⟩, trace, same, sameSeq⟩

/-- A block that arrives before the commit of its request: `write`, which compares no offset,
executes the statements again. -/
theorem follower_executes_twice :
    ∃ (leader : State Nat Nat) (block : Block Nat) (follower : State (Nat × List Nat) Nat),
      leaderRun sampleEngine [.query ⟨1, .writeQuery, [5]⟩, .commitEx [] []]
        (.newState .readUncommitted 0) = some (leader, [block]) ∧
      leader.strg = 5 ∧ leader.current = 1 ∧
      followerRun sampleEngine.traced [.block block, .commit ⟨1, .writeQuery, [5]⟩]
        (.newState .readUncommitted (0, [])) = some follower ∧
      follower.content = (10, [5, 5]) ∧ follower.current = 2 := by
  refine ⟨_, _, _, rfl, ?_, ?_, rfl, ?_, ?_⟩ <;> rfl

end SQLess.Xenomint
