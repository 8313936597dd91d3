import SQLess.Lib.PositionIndex
import SQLess.Xenomint.Calls

/-! The pool of write queries and what a replayed block removes from it. -/

namespace SQLess.Xenomint

open List

open Lib (FiniteMap Indexes drop_eq_filter_iff run_invariant)

variable {DB Query Pattern Value : Type}

def QueryTracker.offset (q : QueryTracker Query) : Nat := q.resp.logOffset

structure Pool.Kept (p : Pool Query) (current : Nat) : Prop where
  ordered : p.queries.Pairwise fun first second => first.offset ≤ second.offset
  indexes : Indexes QueryTracker.offset p.queries p.index.get
  below : ∀ q ∈ p.queries, q.offset ≤ current

namespace Pool.Kept

variable {p p' : Pool Query} {current later : Nat}

lemma new (current) : (Pool.newPool : Pool Query).Kept current where
  ordered := List.Pairwise.nil
  indexes := by
    intro sp position
    simp [Pool.newPool, Lib.LastAt]
  below := by simp [Pool.newPool]

section

variable (kept : p.Kept current)
include kept

lemma frame (queries : p'.queries = p.queries)
    (index : p'.index = p.index) (grown : current ≤ later) : p'.Kept later where
  ordered := queries ▸ kept.ordered
  indexes := by rw [queries, index]; exact kept.indexes
  below := fun q member => (kept.below q (queries ▸ member)).trans grown

lemma enqueue (here : q.offset = current) (grown : current ≤ later) :
    (p.enqueue current q).Kept later where
  ordered := by
    refine pairwise_append.mpr ⟨kept.ordered, pairwise_singleton _ _, ?_⟩
    intro first member second last
    rw [mem_singleton.mp last, here]
    exact kept.below first member
  indexes := by
    have appended := kept.indexes.append q
    rw [here] at appended
    intro sp position
    simp only [Pool.enqueue, FiniteMap.get_insert]
    exact appended sp position
  below := by
    intro found member
    rcases mem_append.mp member with old | new
    · exact (kept.below found old).trans grown
    · rw [mem_singleton.mp new, here]
      exact grown

lemma record {queries} (consecutive : Consecutive current queries) :
    (p.record queries).Kept (current + (queries.flatMap fun q => q.req.queries).length) := by
  induction queries generalizing p current with
  | nil => exact kept
  | cons q rest ih =>
    obtain ⟨here, following⟩ := consecutive
    have next := ih (kept.enqueue here (Nat.le_add_right current q.req.queries.length)) following
    rw [flatMap_cons, length_append, ← Nat.add_assoc]
    rw [← here] at next ⊢
    exact next

lemma truncate (sp) :
    ∃ pool cut, p.truncate sp = some pool ∧ pool.Kept current ∧ pool.queries = p.queries.drop cut ∧
      ∀ i, i < cut ↔ ∃ j q, i ≤ j ∧ p.queries[j]? = some q ∧ q.offset = sp := by
  unfold Pool.truncate
  cases found : p.index.get sp with
  | none =>
    refine ⟨p, 0, rfl, kept, rfl, fun i => ?_⟩
    rw [← kept.indexes.le_found_iff]
    simp [found]
  | some position =>
    obtain ⟨n, rfl, ⟨q, here, -⟩, -⟩ := (kept.indexes sp position).mp found
    have inside : n < p.queries.length := (List.getElem?_eq_some_iff.mp here).1
    have cut : ((n : Int) + 1).toNat = n + 1 := by omega
    simp only [cut]
    rw [if_pos (by omega)]
    refine ⟨_, n + 1, rfl, ⟨?_, ?_, ?_⟩, rfl, fun i => ?_⟩
    · exact kept.ordered.sublist (drop_sublist _ _)
    · exact kept.indexes.drop kept.ordered found
    · exact fun q member => kept.below q (mem_of_mem_drop member)
    · rw [← kept.indexes.le_found_iff]
      simp only [found, Option.some.injEq, exists_eq_left']
      omega

end

end Pool.Kept

def State.Kept (s : State DB Query) : Prop := s.pool.Kept s.current

section

variable {e : Engine DB Query Pattern Value} {s s' : State DB Query}

lemma tryCommit_frame (s : State DB Query) :
    s.tryCommit.current = s.current ∧ s.tryCommit.pool = s.pool := by
  unfold State.tryCommit
  split <;> exact ⟨rfl, rfl⟩

lemma releaseSavepoint_frame (released : s.releaseSavepoint = some s') :
    s'.current = s.current ∧ s'.pool = s.pool := by
  unfold State.releaseSavepoint at released
  split at released
  · cases released
    exact ⟨rfl, rfl⟩
  · cases released

lemma State.Kept.of_frame (kept : s.Kept) (current : s'.current = s.current)
    (pool : s'.pool = s.pool) : s'.Kept := by
  rw [State.Kept, current, pool]
  exact kept

lemma State.Kept.advance (kept : s.Kept) (executed db) : (s.advance e executed db).Kept := by
  have advanced := advance_advanced (e := e) s executed db
  rw [State.Kept, advanced.current, advanced.pool]
  exact Pool.Kept.frame kept rfl rfl (Nat.le_add_right _ _)

lemma State.Kept.enqueue (kept : s.Kept) (here : q.offset = s.current)
    (grown : s.current ≤ s'.current) (pool : s'.pool = s.pool) :
    (s'.setPool (s'.pool.enqueue s.current q)).Kept := by
  have enqueued := Pool.Kept.enqueue kept here grown
  rw [← pool] at enqueued
  exact enqueued

section

variable (req : Request Query)
include req

lemma readTx_kept (kept : s.Kept) : (s.readTx e req).1.Kept := by
  unfold State.readTx
  split
  · obtain ⟨-, current, pool, -⟩ := setContent_advanced s
      (State.readAll e s.content 0 ⟨[], [], []⟩ req.queries).1
    exact kept.of_frame current pool
  · split <;> exact Pool.Kept.frame kept rfl rfl (Nat.le_refl _)

lemma writeBody_kept (isLeader nested : Bool) (kept : s.Kept) :
    (s.writeBody e req isLeader nested).1.Kept := by
  cases halted : halts e s.content req.queries with
  | some =>
    obtain ⟨err, ran⟩ := writeBody_halts req isLeader nested halted
    rw [ran]
    exact Pool.Kept.frame kept rfl rfl (Nat.le_add_right _ _)
  | none =>
    obtain ⟨total, ran⟩ := writeAll_runs 0 ⟨0, 0⟩ (execAll_of_halts halted)
    have advanced := advance_advanced (e := e) s req.queries
      (req.queries.foldl (remains e) s.content)
    simp only [State.writeBody, ran]
    split
    · exact kept.advance _ _
    · rename_i released release
      have frame : released.current = s.current + req.queries.length ∧ released.pool = s.pool := by
        cases nested with
        | true =>
          obtain ⟨current, pool⟩ := releaseSavepoint_frame release
          exact ⟨current.trans advanced.current, pool.trans advanced.pool⟩
        | false =>
          cases release
          exact ⟨advanced.current, advanced.pool⟩
      obtain ⟨current, pool⟩ := tryCommit_frame released
      have grown : s.current ≤ released.tryCommit.current := by omega
      have same := pool.trans frame.2
      cases isLeader with
      | true => exact kept.enqueue rfl grown same
      | false => exact Pool.Kept.frame kept (congrArg _ same) (congrArg _ same) grown

lemma write_kept (isLeader) (kept : s.Kept) : (s.write e req isLeader).1.Kept := by
  unfold State.write
  generalize decide (1 < req.queries.length ∧ s.level = .readUncommitted) = nested
  simp only [deferredRollback_eq]
  have opened : (if nested then s.savepoint else s).Kept := by
    cases nested with
    | true => exact kept.of_frame (savepoint_frame s).2.1 (savepoint_frame s).2.2
    | false => exact kept
  have ended := writeBody_kept (e := e) req isLeader nested opened
  generalize (if nested then s.savepoint else s).writeBody e req isLeader nested = result at ended ⊢
  obtain ⟨after, outcome⟩ := result
  have rolled : (if nested then after.rollbackTo else after).Kept := by
    obtain ⟨-, current, -, pool⟩ := rollbackTo_frame after
    cases nested with
    | true => exact State.Kept.of_frame ended current pool
    | false => exact ended
  cases outcome with
  | error err | ok header => exact rolled

lemma replay_kept (resp : ResponseHeader) (kept : s.Kept) :
    (s.replayWithContext e req resp).1.Kept := by
  unfold State.replayWithContext
  cases req.queryType with
  | readQuery | other code => exact kept
  | writeQuery =>
    simp only [State.replay]
    by_cases conflict : resp.logOffset ≠ s.current
    · rw [if_pos conflict]
      exact kept
    · rw [if_neg conflict, replayAll_eq s 0 ⟨0, 0⟩]
      cases halted : halts e s.content req.queries with
      | some =>
        rw [writeAll_halts halted]
        exact kept.advance _ _
      | none =>
        obtain ⟨total, ran⟩ := writeAll_runs 0 ⟨0, 0⟩ (execAll_of_halts halted)
        have advanced := advance_advanced (e := e) s req.queries
          (req.queries.foldl (remains e) s.content)
        obtain ⟨current, pool⟩ := tryCommit_frame (s.advance e req.queries
          (req.queries.foldl (remains e) s.content))
        rw [ran]
        refine kept.enqueue (not_not.mp conflict) ?_ (pool.trans advanced.pool)
        rw [current, advanced.current]
        exact Nat.le_add_right _ _

end

lemma blockHalts_pooled (halted : blockHalts e db current txs = some halt) :
    Consecutive current halt.pooled ∧
      (halt.pooled.flatMap fun q => q.req.queries).length ≤ halt.executed.length := by
  induction txs generalizing db current halt with
  | nil => cases halted
  | cons q rest ih =>
    rw [blockHalts] at halted
    split at halted
    · exact ih halted
    split at halted
    · cases halted
      exact ⟨trivial, Nat.le_refl _⟩
    split at halted
    · exact ih halted
    split at halted
    · cases halted
      exact ⟨trivial, Nat.le_refl _⟩
    cases inner : halts e db q.request.queries with
    | some =>
      simp only [inner] at halted
      cases halted
      exact ⟨trivial, Nat.zero_le _⟩
    | none =>
      simp only [inner, Option.map_eq_some_iff] at halted
      obtain ⟨later, halted, rfl⟩ := halted
      obtain ⟨consecutive, counted⟩ := ih halted
      have here : q.response.logOffset = current := by omega
      refine ⟨⟨here, consecutive⟩, ?_⟩
      simp only [flatMap_cons, length_append]
      omega

lemma replayBlock_pool (kept : s.Kept)
    (complete : blockHalts e s.content s.current block.queryTxs = none) :
    ∃ between lastsp pooled s' cut, s.replayQueries e 0 0 block.queryTxs = (between, .ok lastsp) ∧
      between.pool.queries = s.pool.queries ++ pooled ∧
      (∀ q ∈ pooled, ⟨q.req, q.resp⟩ ∈ block.queryTxs) ∧
      s.replayBlock e block = (s', .ok ()) ∧ s'.Kept ∧
      s'.pool.queries = between.pool.queries.drop cut ∧
      ∀ i, i < cut ↔ ∃ j q, i ≤ j ∧ between.pool.queries[j]? = some q ∧ q.offset = lastsp := by
  obtain ⟨pooled, db, lastsp, ran, -, consecutive, inside⟩ :=
    (replayQueries_cases _ s 0 0).2 complete
  obtain ⟨between, after⟩ : ∃ between, between =
      (s.advance e (pooled.flatMap fun q => q.req.queries) db).setPool (s.pool.record pooled) :=
    ⟨_, rfl⟩
  have recorded : between.Kept := after ▸ Pool.Kept.record kept consecutive
  have appended : between.pool.queries = s.pool.queries ++ pooled :=
    after ▸ (s.pool.record_frame pooled).2.2
  rw [← after] at ran
  obtain ⟨queries, -, index⟩ :=
    Pool.removeFailed_frame block.failedReqs between.flushHandler.pool
  have unfailed : (block.failedReqs.foldl Pool.removeFailed between.flushHandler.pool).Kept
      between.current := Pool.Kept.frame recorded queries index (Nat.le_refl _)
  obtain ⟨pool, cut, truncated, keeps, dropped, front⟩ := unfailed.truncate lastsp
  rw [queries] at dropped front
  refine ⟨between, lastsp, pooled, between.flushHandler.setPool pool, cut, ran, appended,
    fun q member => inside.subset (mem_map_of_mem member), ?_, keeps, dropped, front⟩
  simp only [State.replayBlock, ran, truncated]
  rfl

lemma step_kept {call : Call Query} (kept : s.Kept) (stepped : call.step e s = some s') :
    s'.Kept := by
  have after := step_run stepped
  subst after
  cases call with
  | query req isLeader =>
    simp only [Call.run, State.query]
    cases req.queryType with
    | readQuery => exact readTx_kept req kept
    | writeQuery => exact write_kept req isLeader kept
    | other => exact kept
  | replay req resp => exact replay_kept req resp kept
  | replayBlock block =>
    simp only [Call.run]
    cases halted : blockHalts e s.content s.current block.queryTxs with
    | none =>
      obtain ⟨_, _, _, s', _, -, -, -, ran, keeps, -⟩ := replayBlock_pool kept halted
      rw [ran]
      exact keeps
    | some halt =>
      obtain ⟨err, ran⟩ := (replayQueries_cases _ s 0 0).1 halt halted
      obtain ⟨consecutive, counted⟩ := blockHalts_pooled halted
      rw [State.replayBlock, ran]
      exact Pool.Kept.frame (Pool.Kept.record kept consecutive) rfl rfl
        (Nat.add_le_add_left counted s.current)
  | commitEx => exact Pool.Kept.new s.current

end

def Block.holds (block : Block Query) (q : QueryTracker Query) : Bool :=
  block.queryTxs.any fun tx => tx.request.hash = q.req.hash

/-- The queries of a block that are not reads with the sequence numbers that they find, from
`current` on. -/
def turns (current : Nat) : List (QueryAsTx Query) → List (Nat × QueryAsTx Query)
  | [] => []
  | q :: rest =>
    if q.request.queryType = .readQuery then turns current rest
    else (current, q) :: turns (if q.response.logOffset = current then
      current + q.request.queries.length else current) rest

def isNew (turn : Nat × QueryAsTx Query) : Bool := turn.2.response.logOffset = turn.1

def newQueries (current : Nat) (txs : List (QueryAsTx Query)) : List (QueryTracker Query) :=
  ((turns current txs).filter isNew).map fun turn => ⟨turn.2.request, turn.2.response⟩

def lastFound (current : Nat) (txs : List (QueryAsTx Query)) (default : Nat) : Nat :=
  ((turns current txs).getLast?.map Prod.fst).getD default

section

variable {e : Engine DB Query Pattern Value} {s s' : State DB Query}

lemma replayStatements_frame
    (done : State.replayStatements e type i 0 s queries = (s', .ok ())) :
    s'.current = s.current + queries.length ∧ s'.pool = s.pool := by
  by_cases other : type ≠ .writeQuery ∧ queries ≠ []
  · obtain ⟨err, failed⟩ := replayStatements_other (e := e) s i other.1 other.2
    rw [failed] at done
    cases done
  · rw [replayStatements_type i other] at done
    cases halted : halts e s.content queries with
    | some =>
      obtain ⟨err, failed⟩ := replayStatements_halts i 0 halted
      rw [failed] at done
      cases done
    | none =>
      rw [replayStatements_runs i 0 (execAll_of_halts halted)] at done
      cases done
      have advanced := advance_advanced (e := e) s queries (queries.foldl (remains e) s.content)
      exact ⟨advanced.current, advanced.pool⟩

lemma replayQueries_turns (ran : s.replayQueries e i lastsp txs = (between, .ok last)) :
    last = lastFound s.current txs lastsp ∧
      between.pool.queries = s.pool.queries ++ newQueries s.current txs := by
  induction txs generalizing s i lastsp with
  | nil =>
    cases ran
    simp [lastFound, newQueries, turns]
  | cons q rest ih =>
    rw [State.replayQueries] at ran
    by_cases read : q.request.queryType = .readQuery
    · rw [if_pos read] at ran
      rw [lastFound, newQueries, turns, if_pos read]
      exact ih ran
    have front (later : Nat) : ((s.current, q) :: turns later rest).getLast?.map Prod.fst =
        some (lastFound later rest s.current) := by
      rw [lastFound, getLast?_cons]
      cases (turns later rest).getLast? <;> rfl
    rw [lastFound, newQueries, turns, if_neg read, front, Option.getD_some]
    rw [if_neg read] at ran
    by_cases missing : s.current < q.response.logOffset
    · rw [if_pos missing] at ran
      cases ran
    rw [if_neg missing] at ran
    by_cases old : q.response.logOffset < s.current
    · rw [if_pos old] at ran
      rw [if_neg old.ne, filter_cons_of_neg (by simpa [isNew] using old.ne)]
      exact ih ran
    · have here : q.response.logOffset = s.current := by omega
      rw [if_neg old] at ran
      rcases done : State.replayStatements e q.request.queryType i 0 s q.request.queries with
        ⟨s', err | _⟩
      · simp only [done] at ran
        cases ran
      · simp only [done] at ran
        obtain ⟨current, pool⟩ := replayStatements_frame done
        obtain ⟨found, queries⟩ := ih ran
        simp only [current, pool, Pool.enqueue] at found queries
        rw [if_pos here, filter_cons_of_pos (by simpa [isNew] using here), map_cons]
        refine ⟨found, ?_⟩
        rw [queries, append_assoc]
        rfl

lemma replayBlock_executes (ran : s.replayBlock e block = (s', .ok ())) :
    execAll e s.content ((newQueries s.current block.queryTxs).flatMap fun q => q.req.queries) =
      some s'.content := by
  simp only [State.replayBlock] at ran
  obtain ⟨stops, runs⟩ := replayQueries_cases (e := e) block.queryTxs s 0 0
  cases halted : blockHalts e s.content s.current block.queryTxs with
  | some halt =>
    obtain ⟨err, failed⟩ := stops halt halted
    simp [failed] at ran
  | none =>
    obtain ⟨pooled, db, last, replayed, executed, -, -⟩ := runs halted
    have queries := (replayQueries_turns replayed).2
    rw [show ∀ t : State DB Query, (t.setPool (s.pool.record pooled)).pool.queries =
      s.pool.queries ++ pooled from fun _ => (s.pool.record_frame pooled).2.2] at queries
    rw [← append_cancel_left queries, executed]
    simp only [replayed] at ran
    split at ran
    · cases ran
    · simp only [Prod.mk.injEq, and_true] at ran
      rw [← ran]
      change _ = some (State.flushHandler _).content
      rw [State.flushHandler, (openHandler_content _).1]
      exact congrArg some (advance_advanced (e := e) s (pooled.flatMap fun q => q.req.queries)
        db).content.symm

lemma turns_le (current) (txs : List (QueryAsTx Query)) :
    (∀ turn ∈ turns current txs, current ≤ turn.1) ∧
      (turns current txs).Pairwise fun first second => first.1 ≤ second.1 := by
  induction txs generalizing current with
  | nil => simp [turns]
  | cons q rest ih =>
    rw [turns]
    split
    · exact ih current
    · obtain ⟨above, ordered⟩ := ih (if q.response.logOffset = current then
        current + q.request.queries.length else current)
      have more : ∀ turn ∈ turns (if q.response.logOffset = current then
          current + q.request.queries.length else current) rest, current ≤ turn.1 := by
        intro turn member
        have := above turn member
        split at this <;> omega
      exact ⟨forall_mem_cons.mpr ⟨Nat.le_refl _, more⟩, pairwise_cons.mpr ⟨more, ordered⟩⟩

lemma turns_old (none : ∀ turn ∈ turns current txs, isNew turn = false) :
    ∀ turn ∈ turns current txs, turn.1 = current := by
  induction txs with
  | nil => simp [turns]
  | cons q rest ih =>
    rw [turns] at none ⊢
    split at none
    · rw [if_pos (by assumption)]
      exact ih none
    · rename_i write
      have old := none _ mem_cons_self
      rw [isNew, decide_eq_false_iff_not] at old
      rw [if_neg write]
      simp only [if_neg old] at none ⊢
      exact forall_mem_cons.mpr ⟨rfl, ih fun turn member => none turn (mem_cons_of_mem _ member)⟩

lemma lastFound_old (none : newQueries current txs = []) :
    lastFound current txs 0 = if turns current txs = [] then 0 else current := by
  have old := turns_old fun turn member => by
    simpa using filter_eq_nil_iff.mp (map_eq_nil_iff.mp none) turn member
  rw [lastFound]
  split
  · rename_i empty
    rw [empty]
    rfl
  · rename_i some
    rw [getLast?_eq_some_getLast some]
    exact old _ (getLast_mem some)

lemma le_getLast {turns : List (Nat × QueryAsTx Query)}
    (ordered : turns.Pairwise fun first second => first.1 ≤ second.1) (member : turn ∈ turns)
    (some : turns ≠ []) : turn.1 ≤ (turns.getLast some).1 := by
  rw [← dropLast_append_getLast some, pairwise_append] at ordered
  rw [← dropLast_append_getLast some, mem_append, mem_singleton] at member
  rcases member with front | rfl
  · exact ordered.2.2 turn front _ (mem_singleton_self _)
  · exact Nat.le_refl _

lemma lastFound_le (member : turn ∈ turns current txs) : turn.1 ≤ lastFound current txs 0 := by
  have some := ne_nil_of_mem member
  rw [lastFound, getLast?_eq_some_getLast some]
  exact le_getLast (turns_le current txs).2 member some

lemma forall_held_iff {old new : List (QueryTracker Query)} {block : Block Query} {sp : Nat}
    (some : new ≠ []) (held : ∀ q ∈ new, block.holds q = true) :
    (∀ (i : Nat) (q : QueryTracker Query), (old ++ new)[i]? = Option.some q →
        (block.holds q = true ↔ ∃ (j : Nat) (r : QueryTracker Query), i ≤ j ∧
          (old ++ new)[j]? = Option.some r ∧ r.resp.logOffset = sp)) ↔
      (∀ q ∈ old, block.holds q = true) ∧
        ∃ q, new.getLast? = Option.some q ∧ q.resp.logOffset = sp := by
  have last : (old ++ new)[(old ++ new).length - 1]? = Option.some (new.getLast some) := by
    rw [← getLast?_eq_getElem?, getLast?_append_of_ne_nil _ some, getLast?_eq_some_getLast some]
  rw [getLast?_eq_some_getLast some]
  simp only [Option.some.injEq, exists_eq_left']
  constructor
  · intro all
    obtain ⟨j, r, later, found, offset⟩ := (all _ _ last).mp (held _ (getLast_mem some))
    have inside := (List.getElem?_eq_some_iff.mp found).1
    obtain rfl : j = (old ++ new).length - 1 := by omega
    obtain rfl := Option.some.inj (last.symm.trans found)
    refine ⟨fun q member => ?_, offset⟩
    obtain ⟨i, bound, here⟩ := getElem_of_mem (mem_append_left new member)
    refine (all i q (List.getElem?_eq_some_iff.mpr ⟨bound, here⟩)).mpr ⟨_, _, ?_, last, offset⟩
    omega
  · rintro ⟨pooled, offset⟩ i q found
    have inside := (List.getElem?_eq_some_iff.mp found).1
    refine iff_of_true ?_ ⟨_, _, by omega, last, offset⟩
    rcases mem_append.mp (mem_of_getElem? found) with front | back
    · exact pooled q front
    · exact held q back

lemma lastFound_new (some : newQueries current txs ≠ []) :
    (∃ q, (newQueries current txs).getLast? = Option.some q ∧
        q.resp.logOffset = lastFound current txs 0) ↔
      ∃ turn ∈ turns current txs, isNew turn = true ∧ turn.1 = lastFound current txs 0 := by
  have ordered := (turns_le current txs).2
  rw [newQueries, ne_eq, map_eq_nil_iff] at some
  rw [newQueries, getLast?_map, getLast?_eq_some_getLast some]
  simp only [Option.map_some, Option.some.injEq, exists_eq_left']
  have last := mem_filter.mp (getLast_mem some)
  have found := of_decide_eq_true last.2
  constructor
  · intro same
    exact ⟨_, last.1, last.2, found.symm.trans same⟩
  · rintro ⟨turn, member, fresh, same⟩
    rw [found]
    refine Nat.le_antisymm (lastFound_le last.1) ?_
    rw [← same]
    exact le_getLast (ordered.sublist filter_sublist) (mem_filter.mpr ⟨member, fresh⟩) some

/-- An accepted block without new queries removes exactly its own if and only if these are the
pooled ones at or before one pooled at the state's sequence number, or at zero if the block only
has reads. One with new queries does if and only if it has all the pooled ones and its last query
finds the sequence number of a new one. -/
theorem replayBlock_pool_iff (e : Engine DB Query Pattern Value) (level : IsolationLevel)
    (strg : DB) (start : Nat) (calls : List (Call Query)) (s : State DB Query)
    (ran : Lib.run (Call.step e) calls { State.newState level strg with current := start } =
      some s) (block : Block Query) (s' : State DB Query)
    (accepted : s.replayBlock e block = (s', .ok ())) :
    (newQueries s.current block.queryTxs = [] →
      (s'.pool.queries = s.pool.queries.filter (fun q => !block.holds q) ↔
        ∀ (i : Nat) (q : QueryTracker Query), s.pool.queries[i]? = some q →
          (block.holds q = true ↔ ∃ (j : Nat) (r : QueryTracker Query), i ≤ j ∧
            s.pool.queries[j]? = some r ∧ r.resp.logOffset =
              if turns s.current block.queryTxs = [] then 0 else s.current))) ∧
    (newQueries s.current block.queryTxs ≠ [] →
      (s'.pool.queries = s.pool.queries.filter (fun q => !block.holds q) ↔
        (∀ q ∈ s.pool.queries, block.holds q = true) ∧
          ∃ turn ∈ turns s.current block.queryTxs,
            isNew turn = true ∧ turn.1 = lastFound s.current block.queryTxs 0)) := by
  have started : State.Kept { (State.newState level strg : State DB Query) with
      current := start } := Pool.Kept.new start
  have kept : s.Kept := run_invariant State.Kept
    (fun s call s' kept _ stepped => step_kept kept stepped) started
    (Lib.always_of_forall (fun _ _ => trivial) calls _) ran
  have complete : blockHalts e s.content s.current block.queryTxs = none := by
    cases halted : blockHalts e s.content s.current block.queryTxs with
    | none => rfl
    | some halt =>
      obtain ⟨err, stopped⟩ := (replayQueries_cases _ s 0 0).1 halt halted
      rw [State.replayBlock, stopped] at accepted
      cases accepted
  obtain ⟨between, lastsp, pooled, after, cut, replayed, appended, inside, ended, -, dropped,
    front⟩ := replayBlock_pool kept complete
  rw [accepted] at ended
  cases ended
  obtain ⟨rfl, new⟩ := replayQueries_turns replayed
  obtain rfl := append_cancel_left (appended.symm.trans new)
  have held : ∀ q ∈ newQueries s.current block.queryTxs, block.holds q = true :=
    fun q member => any_eq_true.mpr ⟨_, inside q member, by simp⟩
  have removed : (newQueries s.current block.queryTxs).filter (fun q => !block.holds q) = [] :=
    filter_eq_nil_iff.mpr fun q member => by simp [held q member]
  have exact_iff : s'.pool.queries = s.pool.queries.filter (fun q => !block.holds q) ↔
      ∀ (i : Nat) (q : QueryTracker Query),
        (s.pool.queries ++ newQueries s.current block.queryTxs)[i]? = some q →
        (block.holds q = true ↔ ∃ (j : Nat) (r : QueryTracker Query), i ≤ j ∧
          (s.pool.queries ++ newQueries s.current block.queryTxs)[j]? = some r ∧
          r.resp.logOffset = lastFound s.current block.queryTxs 0) := by
    have whole : s.pool.queries.filter (fun q => !block.holds q) =
        between.pool.queries.filter fun q => !block.holds q := by
      rw [appended, filter_append, removed, append_nil]
    rw [dropped, whole, drop_eq_filter_iff, ← appended]
    refine forall_congr' fun i => forall_congr' fun q => imp_congr_right fun _ => ?_
    rw [Bool.not_eq_true', ← Bool.not_eq_true, ← Nat.not_lt, not_iff_not, front i]
    rfl
  rw [exact_iff]
  constructor
  · intro none
    rw [none, append_nil, lastFound_old none]
  · intro some
    rw [← lastFound_new some, forall_held_iff some held]

end

def pooledCalls : List (Call Nat) :=
  [.query ⟨1, .writeQuery, [5]⟩ true, .query ⟨2, .writeQuery, [7]⟩ true]

def writeBlock (hash : Hash) (logOffset : Nat) (queries : List Nat) : Block Nat :=
  ⟨[], [⟨⟨hash, .writeQuery, queries⟩, ⟨hash, 0, logOffset, 0, 0⟩⟩]⟩

theorem replayBlock_pool_iff_pooled : ∃ s s' : State Nat Nat,
    Lib.run (Call.step sampleEngine) [.replay ⟨1, .writeQuery, [5]⟩ ⟨1, 0, 0, 0, 0⟩]
        { State.newState .readUncommitted 0 with current := 0 } = some s ∧
      s.replayBlock sampleEngine ⟨[], [⟨⟨1, .writeQuery, [5]⟩, ⟨1, 0, 0, 0, 0⟩⟩,
        ⟨⟨2, .writeQuery, [7]⟩, ⟨2, 0, 1, 0, 0⟩⟩]⟩ = (s', .ok ()) ∧
      s.pool.queries.length = 1 ∧ s'.pool.queries = [] := by
  refine ⟨_, _, rfl, rfl, rfl, ?_⟩
  refine ((replayBlock_pool_iff sampleEngine .readUncommitted 0 0
    [.replay ⟨1, .writeQuery, [5]⟩ ⟨1, 0, 0, 0, 0⟩] _ rfl ⟨[], [⟨⟨1, .writeQuery, [5]⟩,
      ⟨1, 0, 0, 0, 0⟩⟩, ⟨⟨2, .writeQuery, [7]⟩, ⟨2, 0, 1, 0, 0⟩⟩]⟩ _ rfl).2 (by decide)).mpr ?_
  exact ⟨by decide, by decide⟩

/-- With queries 1 and 2 in the pool, a block with query 1 removes nothing, and one without queries
removes query 1. -/
theorem replayBlock_pool_wrong : ∃ s : State Nat Nat, Lib.run (Call.step sampleEngine) pooledCalls
        (State.newState .readUncommitted 0) = some s ∧
      s.pool.queries.map (fun q => q.req.hash) = [1, 2] ∧
      (∃ s', s.replayBlock sampleEngine (writeBlock 1 0 [5]) = (s', .ok ()) ∧
        s'.pool.queries.map (fun q => q.req.hash) = [1, 2]) ∧
      (∃ s', s.replayBlock sampleEngine ⟨[], []⟩ = (s', .ok ()) ∧
        s'.pool.queries.map (fun q => q.req.hash) = [2]) ∧
      ∃ s', s.replayBlock sampleEngine (writeBlock 3 2 [1]) = (s', .ok ()) ∧
        s'.pool.queries.map (fun q => q.req.hash) = [] :=
  ⟨_, rfl, rfl, ⟨_, rfl, rfl⟩, ⟨_, rfl, rfl⟩, _, rfl, rfl⟩

end SQLess.Xenomint
