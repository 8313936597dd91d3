import SQLess.Lib.FiniteMap
import SQLess.Lib.Machine
import SQLess.Types.TypesCore

/-! The state of a database over an SQL engine, with its pool and its blocks (`xenomint/state.go`
and `xenomint/pool.go`). -/

namespace SQLess.Xenomint

open Lib (FiniteMap)

variable {DB Query Pattern Value : Type}

inductive Err where
  | sql
  | missingParent
  | invalidRequest
  | queryConflict
  | wrapped (context : String) (cause : Err)
  deriving DecidableEq

inductive Outcome (α : Type) where
  | ok (value : α)
  | error (err : Err)
  | deadlock
  | panic

def Outcome.map {α β : Type} (f : α → β) : Outcome α → Outcome β
  | .ok value => .ok (f value)
  | .error err => .error err
  | .deadlock => .deadlock
  | .panic => .panic

inductive QueryType where
  | readQuery
  | writeQuery
  | other (code : Int)
  deriving DecidableEq

structure Request (Query : Type) where
  hash : Hash
  queryType : QueryType
  queries : List Query
  deriving DecidableEq

structure ResponseHeader where
  requestHash : Hash
  rowCount : Nat
  logOffset : Nat
  lastInsertID : Int
  affectedRows : Int
  deriving DecidableEq

structure ResponsePayload (Value : Type) where
  columns : List String
  declTypes : List String
  rows : List (List Value)

structure Response (Value : Type) where
  header : ResponseHeader
  payload : ResponsePayload Value

structure QueryTracker (Query : Type) where
  req : Request Query
  resp : ResponseHeader
  deriving DecidableEq

structure QueryAsTx (Query : Type) where
  request : Request Query
  response : ResponseHeader
  deriving DecidableEq

structure Block (Query : Type) where
  failedReqs : List (Request Query)
  queryTxs : List (QueryAsTx Query)

structure ExecResult where
  rowsAffected : Int
  lastInsertId : Int

/-- A pattern is executed on a content. Where one of its parts fails, those before it may have had
their effect. No pattern is a `BEGIN`, `COMMIT`, `ROLLBACK`, `SAVEPOINT` or `RELEASE`, so that a
`ROLLBACK` outside of the state's own transaction finds none. -/
structure Engine (DB Query Pattern Value : Type) where
  convertQueryAndBuildArgs : Query → Option (Bool × Pattern)
  exec : DB → Pattern → DB × Option ExecResult
  query : DB → Pattern → DB × Option (ResponsePayload Value)
  rollback : DB → DB := id
  rollback_eq : ∀ db, rollback db = db := by intro db; rfl

inductive IsolationLevel where
  | default
  | readUncommitted
  | readCommitted
  | writeCommitted
  | repeatableRead
  | snapshot
  | serializable
  | linearizable
  deriving DecidableEq

/-- The writer of the storage, or a transaction on it: what it sees, and what it saw at its
open savepoints, the last one first.  All savepoints have the same name. -/
inductive Handler (DB : Type) where
  | writer
  | transaction (content : DB) (savepoints : List DB)

def Handler.savepoints : Handler DB → List DB
  | .writer => []
  | .transaction _ savepoints => savepoints

structure Pool (Query : Type) where
  failed : FiniteMap Hash (Request Query)
  reads : FiniteMap Hash (QueryTracker Query)
  queries : List (QueryTracker Query)
  index : FiniteMap Nat Int

namespace Pool

def newPool : Pool Query := ⟨∅, ∅, [], ∅⟩

variable (p : Pool Query)

def enqueue (sp : Nat) (q : QueryTracker Query) : Pool Query :=
  { p with queries := p.queries ++ [q], index := p.index.insert sp p.queries.length }

def enqueueRead (q : QueryTracker Query) : Pool Query :=
  { p with reads := p.reads.insert q.req.hash q }

def setFailed (req : Request Query) : Pool Query :=
  { p with failed := p.failed.insert req.hash req }

def failedList (order : List Hash) : List (Request Query) :=
  order.filterMap p.failed.get

def removeFailed (req : Request Query) : Pool Query :=
  { p with failed := p.failed.erase req.hash }

def rebuildIndex (index : FiniteMap Nat Int) (sp : Nat) (pos : Int) : FiniteMap Nat Int where
  get k := if sp < k then (index.get k).map fun v => v - (pos + 1) else none
  keys := index.keys.filter fun k => sp < k
  mem_keys := by
    intro k
    by_cases later : sp < k
    · simp [later, index.mem_keys]
    · simp [later]

/-- `none` is a slice out of bounds. -/
def truncate (sp : Nat) : Option (Pool Query) :=
  match p.index.get sp with
  | none => some p
  | some pos =>
    if 0 ≤ pos + 1 ∧ pos + 1 ≤ p.queries.length then
      some { p with
        index := rebuildIndex p.index sp pos
        queries := p.queries.drop (pos + 1).toNat }
    else none

end Pool

structure State (DB Query : Type) where
  level : IsolationLevel
  strg : DB
  handler : Handler DB
  pool : Pool Query
  maxTx : Nat
  lastCommitPoint : Nat
  current : Nat
  hasSchemaChange : Bool

namespace State

def content (s : State DB Query) : DB :=
  match s.handler with
  | .writer => s.strg
  | .transaction content _ => content

variable (e : Engine DB Query Pattern Value) (s : State DB Query) (req : Request Query)

def setContent (db : DB) : State DB Query :=
  match s.handler with
  | .writer => { s with strg := db }
  | .transaction _ savepoints => { s with handler := .transaction db savepoints }

def openHandler : State DB Query :=
  { s with handler := if s.level = .readUncommitted then .transaction s.strg [] else .writer }

def commitHandler : State DB Query :=
  { s with strg := s.content, hasSchemaChange := false, lastCommitPoint := s.current }

def flushHandler : State DB Query := s.commitHandler.openHandler

def newState (level : IsolationLevel) (strg : DB) : State DB Query :=
  openHandler ⟨level, strg, .writer, .newPool, 100, 0, 0, false⟩

def savepoint : State DB Query :=
  match s.handler with
  | .writer => s
  | .transaction content savepoints =>
    { s with handler := .transaction content (content :: savepoints) }

def releaseSavepoint : Option (State DB Query) :=
  match s.handler with
  | .transaction content (_ :: savepoints) =>
    some { s with handler := .transaction content savepoints }
  | _ => none

/-- `ROLLBACK TO`, whose error is ignored.  It does not remove the savepoint. -/
def rollbackTo : State DB Query :=
  match s.handler with
  | .transaction _ (saved :: savepoints) =>
    { s with handler := .transaction saved (saved :: savepoints) }
  | _ => s

def readSingle (db : DB) (q : Query) : DB × Option (ResponsePayload Value) :=
  match e.convertQueryAndBuildArgs q with
  | none => (db, none)
  | some (_, pattern) => e.query db pattern

def readAll (e : Engine DB Query Pattern Value) (db : DB) (i : Nat)
    (payload : ResponsePayload Value) : List Query → DB × Except Err (ResponsePayload Value)
  | [] => (db, .ok payload)
  | q :: rest =>
    match readSingle e db q with
    | (db, none) => (db, .error (.wrapped ("query at #" ++ toString i ++ " failed") .sql))
    | (db, some payload) => readAll e db (i + 1) payload rest

def reader : DB :=
  if s.level = .readUncommitted then s.content else s.strg

def readTx : State DB Query × Outcome (Response Value) :=
  if s.level = .readUncommitted ∧ s.hasSchemaChange = true then
    -- the handler is read under the lock, which is taken again to update the pool
    (s.setContent (readAll e s.content 0 ⟨[], [], []⟩ req.queries).1, .deadlock)
  else
    match (readAll e s.reader 0 ⟨[], [], []⟩ req.queries).2 with
    | .error err => ({ s with pool := s.pool.setFailed req }, .error err)
    | .ok payload =>
      let header := ⟨req.hash, payload.rows.length, s.current, 0, 0⟩
      ({ s with pool := s.pool.enqueueRead ⟨req, header⟩ }, .ok ⟨header, payload⟩)

def writeSingle (q : Query) : State DB Query × Option ExecResult :=
  match e.convertQueryAndBuildArgs q with
  | none => (s, none)
  | some (containsDDL, pattern) =>
    match e.exec s.content pattern with
    | (db, none) => (s.setContent db, none)
    | (db, some res) =>
      ({ s.setContent db with
        hasSchemaChange := containsDDL || s.hasSchemaChange
        current := s.current + 1 }, some res)

def writeAll (e : Engine DB Query Pattern Value) (s : State DB Query) (i : Nat)
    (total : ExecResult) : List Query → State DB Query × Except Err ExecResult
  | [] => (s, .ok total)
  | q :: rest =>
    match s.writeSingle e q with
    | (s, none) => (s, .error (.wrapped ("execute at #" ++ toString i ++ " failed") .sql))
    | (s, some res) =>
      writeAll e s (i + 1) ⟨total.rowsAffected + res.rowsAffected, res.lastInsertId⟩ rest

def tryCommit : State DB Query :=
  if s.maxTx < s.current - s.lastCommitPoint ∨ s.hasSchemaChange = true then s.flushHandler
  else s

/-- The part of `write` before its deferred rollback, where `nested` says that a savepoint was
set. -/
def writeBody (isLeader nested : Bool) : State DB Query × Except Err ResponseHeader :=
  let lastSeq := s.current
  match s.writeAll e 0 ⟨0, 0⟩ req.queries with
  | (s, .error err) => ({ s with pool := s.pool.setFailed req }, .error err)
  | (s, .ok total) =>
    match (if nested then s.releaseSavepoint else some s) with
    | none =>
      (s, .error (.wrapped ("failed to release savepoint " ++ toString lastSeq) .sql))
    | some s =>
      let header := ⟨req.hash, 0, lastSeq, total.lastInsertId, total.rowsAffected⟩
      let s := s.tryCommit
      (if isLeader then { s with pool := s.pool.enqueue lastSeq ⟨req, header⟩ } else s, .ok header)

def deferredRollback (nested : Bool) : State DB Query :=
  if nested then s.rollbackTo
  else if s.level = .readUncommitted then s
  else s.setContent (e.rollback s.content)

def write (isLeader : Bool) : State DB Query × Outcome (Response Value) :=
  let nested := decide (1 < req.queries.length ∧ s.level = .readUncommitted)
  let (s, result) := (if nested then s.savepoint else s).writeBody e req isLeader nested
  let s := s.deferredRollback e nested
  match result with
  | .error err => (s, .error err)
  | .ok header => (s, .ok ⟨header, ⟨[], [], []⟩⟩)

def query (isLeader : Bool) : State DB Query × Outcome (Response Value) :=
  match req.queryType with
  | .readQuery => s.readTx e req
  | .writeQuery => s.write e req isLeader
  | .other _ => (s, .error .invalidRequest)

def replayAll (e : Engine DB Query Pattern Value) (s : State DB Query) (i : Nat) :
    List Query → State DB Query × Except Err Unit
  | [] => (s, .ok ())
  | q :: rest =>
    match s.writeSingle e q with
    | (s, none) => (s, .error (.wrapped ("execute at #" ++ toString i ++ " failed") .sql))
    | (s, some _) => replayAll e s (i + 1) rest

def replay (resp : ResponseHeader) : State DB Query × Outcome Unit :=
  let lastSeq := s.current
  if resp.logOffset ≠ lastSeq then
    (s, .error (.wrapped ("local id " ++ toString lastSeq ++ " vs replaying id " ++
      toString resp.logOffset) .queryConflict))
  else
    match s.replayAll e 0 req.queries with
    | (s, .error err) => (s, .error err)
    | (s, .ok _) =>
      let s := s.tryCommit
      ({ s with pool := s.pool.enqueue lastSeq ⟨req, resp⟩ }, .ok ())

def replayWithContext (resp : ResponseHeader) : State DB Query × Outcome Unit :=
  match req.queryType with
  | .readQuery => (s, .ok ())
  | .writeQuery => s.replay e req resp
  | .other _ => (s, .error .invalidRequest)

/-- `CommitEx`, where the two lists are the orders in which the maps of failed and of read
requests are iterated. -/
def commitEx (failedOrder readOrder : List Hash) :
    State DB Query × List (Request Query) × List (QueryTracker Query) :=
  let s := s.flushHandler
  ({ s with pool := .newPool }, s.pool.failedList failedOrder,
    s.pool.queries ++ readOrder.filterMap s.pool.reads.get)

def replayStatements (e : Engine DB Query Pattern Value) (queryType : QueryType) (i j : Nat)
    (s : State DB Query) : List Query → State DB Query × Except Err Unit
  | [] => (s, .ok ())
  | q :: rest =>
    if queryType ≠ .writeQuery then
      (s, .error (.wrapped ("replay block at " ++ toString i ++ ":" ++ toString j) .invalidRequest))
    else
      match s.writeSingle e q with
      | (s, none) =>
        (s, .error (.wrapped ("execute at " ++ toString i ++ ":" ++ toString j ++ " failed") .sql))
      | (s, some _) => replayStatements e queryType i (j + 1) s rest

/-- The queries of a block from query `i` on.  The result is the sequence number before the
last of them that is not a read. -/
def replayQueries (e : Engine DB Query Pattern Value) (i lastsp : Nat) (s : State DB Query) :
    List (QueryAsTx Query) → State DB Query × Except Err Nat
  | [] => (s, .ok lastsp)
  | q :: rest =>
    if q.request.queryType = .readQuery then replayQueries e (i + 1) lastsp s rest
    else if s.current < q.response.logOffset then (s, .error .missingParent)
    else if q.response.logOffset < s.current then replayQueries e (i + 1) s.current s rest
    else
      match replayStatements e q.request.queryType i 0 s q.request.queries with
      | (s', .error err) => (s', .error err)
      | (s', .ok _) =>
        replayQueries e (i + 1) s.current
          { s' with pool := s'.pool.enqueue s.current ⟨q.request, q.response⟩ } rest

def replayBlock (block : Block Query) : State DB Query × Outcome Unit :=
  match s.replayQueries e 0 0 block.queryTxs with
  | (s, .error err) => (s, .error err)
  | (s, .ok lastsp) =>
    let s := s.flushHandler
    match (block.failedReqs.foldl Pool.removeFailed s.pool).truncate lastsp with
    | none => (s, .panic)
    | some pool => ({ s with pool := pool }, .ok ())

end State

inductive Call (Query : Type) where
  | query (req : Request Query) (isLeader : Bool)
  | replay (req : Request Query) (resp : ResponseHeader)
  | replayBlock (block : Block Query)
  | commitEx (failedOrder readOrder : List Hash)

def Call.run (e : Engine DB Query Pattern Value) (s : State DB Query) :
    Call Query → State DB Query × Outcome Unit
  | .query req isLeader =>
    let (s, outcome) := s.query e req isLeader
    (s, outcome.map fun _ => ())
  | .replay req resp => s.replayWithContext e req resp
  | .replayBlock block => s.replayBlock e block
  | .commitEx failedOrder readOrder => ((s.commitEx failedOrder readOrder).1, .ok ())

def Call.step (e : Engine DB Query Pattern Value) (s : State DB Query) (call : Call Query) :
    Option (State DB Query) :=
  match call.run e s with
  | (s, .ok _) => some s
  | (s, .error _) => some s
  | (_, .deadlock) => none
  | (_, .panic) => none

def Block.cut (failed : List (Request Query)) (queries : List (QueryTracker Query)) : Block Query :=
  ⟨failed, queries.map fun q => ⟨q.req, q.resp⟩⟩

inductive Op (Query : Type) where
  | query (req : Request Query)
  | commitEx (failedOrder readOrder : List Hash)

def leaderRun (e : Engine DB Query Pattern Value) :
    List (Op Query) → State DB Query → Option (State DB Query × List (Block Query))
  | [], s => some (s, [])
  | .query req :: rest, s =>
    match s.query e req true with
    | (s, .ok _) => leaderRun e rest s
    | _ => none
  | .commitEx failedOrder readOrder :: rest, s =>
    let (s, failed, queries) := s.commitEx failedOrder readOrder
    (leaderRun e rest s).map fun (s, blocks) => (s, Block.cut failed queries :: blocks)

def replayBlocks (e : Engine DB Query Pattern Value) :
    List (Block Query) → State DB Query → Option (State DB Query)
  | [], s => some s
  | block :: rest, s =>
    match s.replayBlock e block with
    | (s, .ok _) => replayBlocks e rest s
    | _ => none

end SQLess.Xenomint
