import Mathlib.Data.List.Chain
import SQLess.Xenomint.Replay

/-! Requests and blocks that fail. -/

namespace SQLess.Xenomint

open List Option

open Lib (FiniteMap)

variable {DB Query Pattern Value : Type}

variable {q : Query} {queries : List Query}

def State.Uncommitted (s : State DB Query) : Prop :=
  s.level = .readUncommitted ∧ s.handler ≠ .writer

/-- A write request failed: only the savepoint of a request with several statements takes the
content back, and nothing takes back the count. -/
structure WriteFailed (e : Engine DB Query Pattern Value) (s s' : State DB Query)
    (req : Request Query) (halt : Halt DB Query) : Prop where
  uncommitted : s'.Uncommitted
  content : s'.content = if 1 < req.queries.length then s.content else halt.content
  current : s'.current = s.current + halt.executed.length
  schema : s'.hasSchemaChange = (halt.executed.any (changesSchema e) || s.hasSchemaChange)
  pool : s'.pool = s.pool.setFailed req
  savepoints : s'.handler.savepoints =
    if 1 < req.queries.length then s.content :: s.handler.savepoints else s.handler.savepoints

structure WriteAnswered (s s' : State DB Query) (req : Request Query) (header : ResponseHeader) :
    Prop where
  uncommitted : s'.Uncommitted
  offset : header.logOffset = s.current
  current : s'.current = s.current + req.queries.length
  schema : s'.hasSchemaChange = false

section

variable {e : Engine DB Query Pattern Value} {s : State DB Query} {req : Request Query}

lemma openHandler_uncommitted (level : s.level = .readUncommitted) : s.openHandler.Uncommitted := by
  simp [State.Uncommitted, State.openHandler, level]

lemma tryCommit_settled (uncommitted : s.Uncommitted) :
    s.tryCommit.Uncommitted ∧ s.tryCommit.current = s.current ∧
      s.tryCommit.hasSchemaChange = false := by
  unfold State.tryCommit
  split
  · exact ⟨openHandler_uncommitted uncommitted.1, rfl, rfl⟩
  · rename_i unchanged
    refine ⟨uncommitted, rfl, ?_⟩
    simpa using fun changed => unchanged (.inr changed)

lemma rollbackTo_frame (s : State DB Query) :
    (s.Uncommitted → s.rollbackTo.Uncommitted) ∧ s.rollbackTo.current = s.current ∧
      s.rollbackTo.hasSchemaChange = s.hasSchemaChange ∧ s.rollbackTo.pool = s.pool := by
  unfold State.rollbackTo
  split
  · exact ⟨fun uncommitted => ⟨uncommitted.1, by simp⟩, rfl, rfl, rfl⟩
  · exact ⟨id, rfl, rfl, rfl⟩

lemma advance_uncommitted (executed db) (uncommitted : s.Uncommitted) :
    (s.advance e executed db).Uncommitted := by
  obtain ⟨level, strg, handler, pool, maxTx, point, current, schema⟩ := s
  obtain ⟨rfl, transaction⟩ := uncommitted
  cases handler with
  | writer => exact absurd rfl transaction
  | transaction => exact ⟨rfl, by simp [State.advance, State.setContent]⟩

lemma write_halts (isLeader) (uncommitted : s.Uncommitted)
    (halted : halts e s.content req.queries = some halt) :
    ∃ s' err, s.write e req isLeader = (s', .error err) ∧ WriteFailed e s s' req halt := by
  obtain ⟨err, ran⟩ := write_stops isLeader halted
  refine ⟨_, err, ran, ?_⟩
  obtain ⟨level, strg, handler, pool, maxTx, point, current, schema⟩ := s
  obtain ⟨rfl, transaction⟩ := uncommitted
  cases handler with
  | writer => exact absurd rfl transaction
  | transaction =>
    by_cases several : 1 < req.queries.length
    · rw [if_pos (by simp [State.nested, several])]
      exact ⟨⟨rfl, fun writer => by cases writer⟩, (if_pos several).symm, rfl, rfl, rfl,
        (if_pos several).symm⟩
    · rw [if_neg (by simp [State.nested, several])]
      exact ⟨⟨rfl, fun writer => by cases writer⟩, (if_neg several).symm, rfl, rfl, rfl,
        (if_neg several).symm⟩

lemma write_runs (isLeader : Bool) (uncommitted : s.Uncommitted)
    (complete : halts e s.content req.queries = none) :
    ∃ s' response, s.write e req isLeader = (s', .ok response) ∧
      WriteAnswered s s' req response.header := by
  obtain ⟨header, offset, ran⟩ :=
    write_completes isLeader (fun _ => uncommitted.2) (execAll_of_halts complete)
  refine ⟨_, _, ran, ?_⟩
  obtain ⟨settled, current, clear⟩ := tryCommit_settled (advance_uncommitted (e := e) req.queries
    (req.queries.foldl (remains e) s.content) uncommitted)
  obtain ⟨stays, same, unmarked, -⟩ := rollbackTo_frame ((s.advance e req.queries
    (req.queries.foldl (remains e) s.content)).answer req header isLeader)
  split
  · exact ⟨stays settled, offset, same.trans current, unmarked.trans clear⟩
  · exact ⟨settled, offset, current, clear⟩

end

def State.writes (e : Engine DB Query Pattern Value) (s : State DB Query)
    (requests : List (Request Query × Bool)) : State DB Query :=
  requests.foldl (fun s (req, isLeader) => (s.write e req isLeader).1) s

def answers (e : Engine DB Query Pattern Value) :
    List (Request Query × Bool) → State DB Query → List (Nat × Nat)
  | [], _ => []
  | (req, isLeader) :: rest, s =>
    match s.write e req isLeader with
    | (s, .ok response) => (response.header.logOffset, req.queries.length) :: answers e rest s
    | (s, _) => answers e rest s

def Contiguous (offsets : List (Nat × Nat)) : Prop :=
  offsets.IsChain fun before after => after.1 = before.1 + before.2

instance (offsets : List (Nat × Nat)) : Decidable (Contiguous offsets) :=
  inferInstanceAs (Decidable (List.IsChain _ _))

def FailsLate (e : Engine DB Query Pattern Value) (s : State DB Query) (req : Request Query) :
    Prop :=
  ∃ halt, halts e s.content req.queries = some halt ∧ halt.executed ≠ []

section

variable {e : Engine DB Query Pattern Value} {s : State DB Query}

lemma answers_cons (s request rest) : answers e (request :: rest) s =
      answers e [request] s ++ answers e rest (s.writes e [request]) := by
  obtain ⟨req, isLeader⟩ := request
  change answers e ((req, isLeader) :: rest) s =
    answers e [(req, isLeader)] s ++ answers e rest (s.write e req isLeader).1
  simp only [answers]
  rcases s.write e req isLeader with ⟨after, response | err | _ | _⟩ <;> rfl

lemma answers_single (request) (uncommitted : s.Uncommitted) : (s.writes e [request]).Uncommitted ∧
      ((answers e [request] s = [(s.current, request.1.queries.length)] ∧
          (s.writes e [request]).current = s.current + request.1.queries.length ∧
          ¬ FailsLate e s request.1) ∨
        (answers e [request] s = [] ∧ s.current ≤ (s.writes e [request]).current ∧
          (FailsLate e s request.1 ↔ s.current < (s.writes e [request]).current))) := by
  obtain ⟨req, isLeader⟩ := request
  simp only [answers, State.writes, foldl_cons, foldl_nil]
  cases halted : halts e s.content req.queries with
  | none =>
    obtain ⟨s', response, wrote, answered⟩ := write_runs isLeader uncommitted halted
    rw [wrote]
    refine ⟨answered.uncommitted, .inl ⟨?_, answered.current, ?_⟩⟩
    · exact congrArg (fun offset => [(offset, _)]) answered.offset
    · rintro ⟨halt, some, -⟩
      cases halted.symm.trans some
  | some halt =>
    obtain ⟨s', err, wrote, failed⟩ := write_halts isLeader uncommitted halted
    have current : s'.current = s.current + halt.executed.length := failed.current
    have late : FailsLate e s req ↔ halt.executed ≠ [] := by
      simp [FailsLate, halted]
    rw [wrote, late, ← length_pos_iff]
    refine ⟨failed.uncommitted, .inr ⟨rfl, ?_⟩⟩
    change s.current ≤ s'.current ∧ (0 < halt.executed.length ↔ s.current < s'.current)
    omega

variable {requests : List (Request Query × Bool)}

lemma le_answers (uncommitted : s.Uncommitted) (member : answer ∈ answers e requests s) :
    s.current ≤ answer.1 := by
  induction requests generalizing s with
  | nil => cases member
  | cons request rest ih =>
    rw [answers_cons, mem_append] at member
    obtain ⟨stays, ⟨now, current, -⟩ | ⟨now, current, -⟩⟩ :=
      answers_single (e := e) request uncommitted
    · rw [now, mem_singleton] at member
      rcases member with rfl | later
      · exact Nat.le_refl _
      · have := ih stays later
        omega
    · rw [now, or_iff_right not_mem_nil] at member
      exact current.trans (ih stays member)

lemma forall_split_cons {P : List α → α → List α → Prop} :
    (∀ before x after, first :: rest = before ++ x :: after → P before x after) ↔
      P [] first rest ∧ ∀ before x after, rest = before ++ x :: after →
        P (first :: before) x after := by
  constructor
  · intro all
    refine ⟨all [] first rest rfl, ?_⟩
    rintro before x after rfl
    exact all (first :: before) x after rfl
  · rintro ⟨now, later⟩ before x after split
    cases before with
    | nil =>
      cases split
      exact now
    | cons y before =>
      cases split
      exact later before x after rfl

lemma contiguous_cons (offset count rest) :
    Contiguous ((offset, count) :: rest) ↔ Contiguous ((offset + count, 0) :: rest) := by
  cases rest with
  | nil | cons next rest => simp [Contiguous]

lemma contiguous_after (uncommitted : s.Uncommitted) :
    Contiguous ((s.current, 0) :: answers e requests s) ↔
      ∀ before request after, requests = before ++ request :: after →
        FailsLate e (s.writes e before) request.1 →
          answers e after (s.writes e (before ++ [request])) = [] := by
  induction requests generalizing s with
  | nil => simp [Contiguous, answers]
  | cons request rest ih =>
    rw [forall_split_cons, answers_cons]
    obtain ⟨stays, ⟨now, current, early⟩ | ⟨now, current, late⟩⟩ :=
      answers_single (e := e) request uncommitted
    · refine Iff.trans ?_ ((ih stays).trans
        (iff_and_self.mpr fun _ failing => absurd failing early))
      rw [now, current, ← contiguous_cons]
      simp [Contiguous]
    · rw [now, nil_append]
      by_cases failing : FailsLate e s request.1
      · have advanced := late.mp failing
        -- an answer after the failure stands above the one before it
        have none : Contiguous ((s.current, 0) :: answers e rest (s.writes e [request])) ↔
            answers e rest (s.writes e [request]) = [] := by
          cases later : answers e rest (s.writes e [request]) with
          | nil => simp [Contiguous]
          | cons =>
            have above := le_answers (e := e) stays (later ▸ mem_cons_self)
            rw [Contiguous, isChain_cons_cons]
            constructor
            · rintro ⟨here, -⟩
              omega
            · intro empty
              cases empty
        rw [none]
        constructor
        · intro empty
          refine ⟨fun _ => empty, (ih stays).mp ?_⟩
          rw [empty]
          simp [Contiguous]
        · rintro ⟨empty, -⟩
          exact empty failing
      · have same : (s.writes e [request]).current = s.current :=
          Nat.le_antisymm (Nat.not_lt.mp fun advanced => failing (late.mpr advanced)) current
        rw [← same]
        exact (ih stays).trans (iff_and_self.mpr fun _ now => absurd now failing)

lemma contiguous_iff (uncommitted : s.Uncommitted) : Contiguous (answers e requests s) ↔
      ∀ before request after, requests = before ++ request :: after →
        FailsLate e (s.writes e before) request.1 →
          answers e before s = [] ∨ answers e after (s.writes e (before ++ [request])) = [] := by
  induction requests generalizing s with
  | nil => simp [Contiguous, answers]
  | cons request rest ih =>
    rw [forall_split_cons, and_iff_right fun _ => .inl rfl]
    obtain ⟨stays, ⟨now, current, -⟩ | ⟨now, -, -⟩⟩ :=
      answers_single (e := e) request uncommitted
    · -- from the first answer on there is an answer before every request
      have front (requests : List (Request Query × Bool)) : answers e (request :: requests) s =
          (s.current, request.1.queries.length) :: answers e requests (s.writes e [request]) := by
        rw [answers_cons, now, singleton_append]
      simp only [front, cons_ne_nil, false_or]
      rw [contiguous_cons, ← current]
      exact contiguous_after stays
    · have front (requests : List (Request Query × Bool)) : answers e (request :: requests) s =
          answers e requests (s.writes e [request]) := by
        rw [answers_cons, now, nil_append]
      simp only [front]
      exact ih stays

/-- A failed write request leaves the content, the count and the savepoints exactly if it has one
statement and that has no effect: the savepoint of a request with several ones stays open. -/
theorem write_failed_iff (e : Engine DB Query Pattern Value) (s : State DB Query)
    (uncommitted : s.Uncommitted) :
    (∀ req isLeader err, (s.write e req isLeader).2 = .error err →
      ((s.write e req isLeader).1.content = s.content ∧
          (s.write e req isLeader).1.current = s.current ∧
          (s.write e req isLeader).1.handler.savepoints = s.handler.savepoints ↔
        ∃ q, req.queries = [q] ∧ remains e s.content q = s.content)) ∧
    ∀ requests, Contiguous (answers e requests s) ↔
      ∀ before request after, requests = before ++ request :: after →
        FailsLate e (s.writes e before) request.1 →
          answers e before s = [] ∨ answers e after (s.writes e (before ++ [request])) = [] := by
  refine ⟨?_, fun requests => contiguous_iff uncommitted⟩
  intro req isLeader err failed
  cases halted : halts e s.content req.queries with
  | none =>
    obtain ⟨s', response, wrote, -⟩ := write_runs isLeader uncommitted halted
    rw [wrote] at failed
    cases failed
  | some =>
    obtain ⟨s', err', wrote, after⟩ := write_halts isLeader uncommitted halted
    rw [wrote, after.content, after.current, after.savepoints]
    cases queries : req.queries with
    | nil =>
      rw [queries] at halted
      cases halted
    | cons q rest =>
      rw [queries, halts] at halted
      cases first : execOne e s.content q with
      | none =>
        simp only [first] at halted
        cases halted
        cases rest with
        | nil | cons next rest => simp
      | some =>
        simp only [first, map_eq_some_iff] at halted
        obtain ⟨later, stops, rfl⟩ := halted
        -- the statement that fails is a later one
        cases rest with
        | nil => cases stops
        | cons next rest => simp

def lateRequests : List (Request Nat × Bool) :=
  [(⟨1, .writeQuery, [1]⟩, true), (⟨2, .writeQuery, [5, 0]⟩, true), (⟨3, .writeQuery, [2]⟩, true)]

def spoiltRequests : List (Request Nat × Bool) :=
  [(⟨1, .writeQuery, [0, 5]⟩, true), (⟨2, .writeQuery, [5, 7]⟩, true)]

theorem write_failed_iff_late : (State.newState .readUncommitted 0 : State Nat Nat).Uncommitted ∧
      ¬ Contiguous (answers sampleEngine lateRequests (State.newState .readUncommitted 0)) ∧
      ¬ ∀ before request after, lateRequests = before ++ request :: after →
        FailsLate sampleEngine ((State.newState .readUncommitted 0).writes sampleEngine before)
          request.1 →
        answers sampleEngine before (State.newState .readUncommitted 0) = [] ∨
          answers sampleEngine after ((State.newState .readUncommitted 0).writes sampleEngine
            (before ++ [request])) = [] := by
  have opened : (State.newState .readUncommitted 0 : State Nat Nat).Uncommitted :=
    ⟨rfl, by simp [State.newState, State.openHandler]⟩
  have broken : ¬ Contiguous (answers sampleEngine lateRequests
      (State.newState .readUncommitted 0)) := by decide
  refine ⟨opened, broken, ?_⟩
  rw [← (write_failed_iff sampleEngine _ opened).2]
  exact broken

/-- The failed request has counted a statement, and the next answer shows it. The savepoint of
another one takes back the request that is answered after it. -/
theorem write_failed_counts :
    ∃ s : State Nat Nat, s = State.newState .readUncommitted 0 ∧ s.Uncommitted ∧
      (s.write sampleEngine ⟨2, .writeQuery, [5, 0]⟩ true).2 =
        .error (.wrapped "execute at #1 failed" .sql) ∧
      (s.write sampleEngine ⟨2, .writeQuery, [5, 0]⟩ true).1.current = s.current + 1 ∧
      answers sampleEngine lateRequests s = [(0, 1), (2, 1)] ∧
      answers sampleEngine spoiltRequests s = [(0, 2)] ∧
      (s.writes sampleEngine spoiltRequests).content = s.content := by
  refine ⟨_, rfl, ⟨rfl, by simp [State.newState, State.openHandler]⟩, rfl, rfl, rfl, rfl, rfl⟩

end

def Skips (s : State DB Query) (q : QueryAsTx Query) : Prop :=
  q.request.queryType = .readQuery ∨ q.response.logOffset < s.current

def StopsAtOnce (e : Engine DB Query Pattern Value) (s : State DB Query) (q : QueryAsTx Query) :
    Prop :=
  q.request.queryType ≠ .readQuery ∧ (s.current < q.response.logOffset ∨
      q.response.logOffset = s.current ∧ ∃ statement rest, q.request.queries = statement :: rest ∧
          (q.request.queryType ≠ .writeQuery ∨
            execOne e s.content statement = none ∧ remains e s.content statement = s.content))

section

variable {e : Engine DB Query Pattern Value} {s : State DB Query}

lemma exists_split_cons {S T : α → Prop} :
    (∃ before x after, first :: rest = before ++ x :: after ∧ (∀ y ∈ before, S y) ∧ T x) ↔
      T first ∨ S first ∧
        ∃ before x after, rest = before ++ x :: after ∧ (∀ y ∈ before, S y) ∧ T x := by
  constructor
  · rintro ⟨before, x, after, split, skipped, stops⟩
    cases before with
    | nil =>
      cases split
      exact .inl stops
    | cons y before =>
      cases split
      exact .inr ⟨skipped _ mem_cons_self, before, x, after, rfl,
        fun y member => skipped y (mem_cons_of_mem _ member), stops⟩
  · rintro (stops | ⟨skip, before, x, after, rfl, skipped, stops⟩)
    · exact ⟨[], first, rest, rfl, by simp, stops⟩
    · exact ⟨first :: before, x, after, rfl, by simpa using ⟨skip, skipped⟩, stops⟩

lemma blockHalts_unmoved_iff (halted : blockHalts e s.content s.current txs = some halt) :
    (halt.executed = [] ∧ halt.content = s.content ∧ halt.pooled = []) ↔
      ∃ before q after, txs = before ++ q :: after ∧ (∀ p ∈ before, Skips s p) ∧
        StopsAtOnce e s q := by
  induction txs with
  | nil => cases halted
  | cons q rest ih =>
    rw [exists_split_cons]
    rw [blockHalts] at halted
    by_cases read : q.request.queryType = .readQuery
    · rw [if_pos read] at halted
      simp [ih halted, Skips, StopsAtOnce, read]
    rw [if_neg read] at halted
    by_cases missing : s.current < q.response.logOffset
    · rw [if_pos missing, Option.some.injEq] at halted
      subst halted
      simp [StopsAtOnce, read, missing]
    rw [if_neg missing] at halted
    by_cases old : q.response.logOffset < s.current
    · rw [if_pos old] at halted
      simp [ih halted, Skips, StopsAtOnce, missing, old, old.ne]
    rw [if_neg old] at halted
    have here : q.response.logOffset = s.current := by omega
    by_cases type : q.request.queryType ≠ .writeQuery ∧ q.request.queries ≠ []
    · rw [if_pos type, Option.some.injEq] at halted
      subst halted
      obtain ⟨statement, statements, queries⟩ := exists_cons_of_ne_nil type.2
      simp [StopsAtOnce, read, here, queries, type.1]
    rw [if_neg type] at halted
    have stays : ¬ Skips s q := by
      rintro (reads | older)
      · exact read reads
      · exact old older
    simp only [stays, false_and, or_false]
    cases queries : q.request.queries with
    | nil =>
      simp only [queries, halts, map_eq_some_iff] at halted
      obtain ⟨later, -, rfl⟩ := halted
      simp [StopsAtOnce, queries, here]
    | cons statement statements =>
      have write : q.request.queryType = .writeQuery := by simpa [queries] using type
      rw [queries, halts] at halted
      cases first : execOne e s.content statement with
      | none =>
        simp only [first] at halted
        cases halted
        simp [StopsAtOnce, write, queries, here, first]
      | some db =>
        have unmoved : ¬ StopsAtOnce e s q := by
          simp [StopsAtOnce, write, queries, here, first]
        simp only [first] at halted
        cases later : halts e db statements with
        | none =>
          simp only [later, map_none, map_eq_some_iff] at halted
          obtain ⟨further, -, rfl⟩ := halted
          simp [unmoved]
        | some =>
          simp only [later, map_some] at halted
          cases halted
          simp [unmoved]

lemma Pool.record_eq_self {p : Pool Query} {queries} : p.record queries = p ↔ queries = [] := by
  constructor
  · intro same
    have appended := (p.record_frame queries).2.2
    rw [same] at appended
    exact self_eq_append_right.mp appended
  · rintro rfl
    rfl

/-- A block that fails leaves the state exactly if all queries before the failing one are skipped
and that one fails before anything of it is executed. -/
theorem replayBlock_failed_iff (e : Engine DB Query Pattern Value) (s : State DB Query)
    (block : Block Query) (err : Err) (failed : (s.replayBlock e block).2 = .error err) :
    ((s.replayBlock e block).1.content = s.content ∧ (s.replayBlock e block).1.current = s.current ∧
        (s.replayBlock e block).1.pool = s.pool ↔
      ∃ before q after, block.queryTxs = before ++ q :: after ∧
        (∀ p ∈ before, Skips s p) ∧ StopsAtOnce e s q) ∧
    ((s.replayBlock e block).1.content = s.content → (s.replayBlock e block).1.current = s.current →
        (s.replayBlock e block).1.pool = s.pool → (s.replayBlock e block).1 = s) := by
  cases halted : blockHalts e s.content s.current block.queryTxs with
  | none =>
    obtain ⟨pooled, db, last, ran, -⟩ := (replayQueries_cases _ s 0 0).2 halted
    simp only [State.replayBlock, ran] at failed
    split at failed <;> cases failed
  | some halt =>
    obtain ⟨err', ran⟩ := (replayQueries_cases _ s 0 0).1 halt halted
    have advanced := advance_advanced (e := e) s halt.executed halt.content
    have after : (s.replayBlock e block).1 =
        (s.advance e halt.executed halt.content).setPool (s.pool.record halt.pooled) := by
      rw [State.replayBlock, ran]
    have content : (s.replayBlock e block).1.content = halt.content := by
      rw [after]
      exact advanced.content
    have current : (s.replayBlock e block).1.current = s.current + halt.executed.length := by
      rw [after]
      exact advanced.current
    have pool : (s.replayBlock e block).1.pool = s.pool.record halt.pooled := by
      rw [after]
      rfl
    rw [content, current, pool, Pool.record_eq_self, Nat.add_eq_left,
      length_eq_zero_iff, ← blockHalts_unmoved_iff halted]
    refine ⟨by tauto, ?_⟩
    intro sameContent sameCurrent samePool
    rw [after, sameContent, sameCurrent, samePool, advance_nil]
    rfl

def sampleBlock (first second : Nat) : Block Nat :=
  ⟨[], [⟨⟨1, .writeQuery, [first, second]⟩, ⟨1, 0, 0, 0, 0⟩⟩]⟩

theorem replayBlock_failed_iff_first :
    ((State.newState .readUncommitted 0).replayBlock sampleEngine (sampleBlock 0 5)).2 =
        .error (.wrapped "execute at 0:0 failed" .sql) ∧
      ((State.newState .readUncommitted 0).replayBlock sampleEngine (sampleBlock 0 5)).1 =
        State.newState .readUncommitted 0 := by
  refine ⟨rfl, ?_⟩
  have settled := replayBlock_failed_iff sampleEngine (State.newState .readUncommitted 0)
    (sampleBlock 0 5) _ rfl
  exact settled.2 rfl rfl rfl

/-- A block fails at its second statement. -/
theorem replayBlock_failed_skips :
    let s : State Nat Nat := State.newState .readUncommitted 0
    let failed := s.replayBlock sampleEngine (sampleBlock 5 0)
    let retried := failed.1.replayBlock sampleEngine (sampleBlock 5 7)
    failed.2 = .error (.wrapped "execute at 0:1 failed" .sql) ∧
      failed.1.content = 5 ∧ failed.1.current = 1 ∧
      retried.2 = .ok () ∧ retried.1.content = 5 ∧
      (s.replayBlock sampleEngine (sampleBlock 5 7)).1.content = 12 :=
  ⟨rfl, rfl, rfl, rfl, rfl, rfl⟩

end

end SQLess.Xenomint
