import SQLess.TwoPC.TwoPCCore

/-! The storage of `storage/storage.go` as a worker of the coordinator. What its database answers is
given; a transaction is the content that it would commit. -/

namespace SQLess

variable {DB Query E : Type}

namespace Storage

structure TxID where
  connectionID : UInt64
  seqNo : UInt64
  timestamp : Int64
  deriving DecidableEq

structure ExecLog (Query : Type) where
  connectionID : UInt64
  seqNo : UInt64
  timestamp : Int64
  queries : List Query
  deriving DecidableEq

def ExecLog.id (el : ExecLog Query) : TxID := ⟨el.connectionID, el.seqNo, el.timestamp⟩

inductive WriteBatch (Query : Type) where
  | execLog (el : ExecLog Query)
  | other
  deriving DecidableEq

structure ExecResult where
  lastInsertID : Int64
  rowsAffected : Int64
  deriving DecidableEq

inductive Err (E : Type) where
  | new (text : String)
  | foreign (err : E)
  deriving DecidableEq

def unexpectedType : Err E := .new "unexpected WriteBatch type"

def inconsistentState (id : TxID) : Err E :=
  .new ("twopc: inconsistent state, currently in tx: conn = " ++ toString id.connectionID ++
    ", seq = " ++ toString id.seqNo ++ ", time = " ++ toString id.timestamp)

def notPrepared : Err E := .new "twopc: tx not prepared"

/-- What the database answers in one batch: to `BeginTx`, to the statements, numbered in the
order of the batch, and to `Commit`, which takes effect where it returns no error. -/
structure SQL (DB Query E : Type) where
  beginTx : Option E
  exec : Nat → DB → Query → Except E (DB × ExecResult)
  commit : DB → Option E

end Storage

structure Storage (DB Query E : Type) where
  sql : Storage.SQL DB Query E
  db : DB
  tx : Option DB
  id : Storage.TxID
  queries : List Query

namespace Storage

def prepare (s : Storage DB Query E) : WriteBatch Query → Storage DB Query E × Option (Err E)
  | .other => (s, some unexpectedType)
  | .execLog el =>
    match s.tx with
    | some _ =>
      if s.id = el.id then ({ s with queries := el.queries }, none)
      else (s, some (inconsistentState s.id))
    | none =>
      match s.sql.beginTx with
      | some err => (s, some (.foreign err))
      | none => ({ s with tx := some s.db, id := el.id, queries := el.queries }, none)

def execFrom (sql : SQL DB Query E) (i : Nat) (tx : DB) (result : ExecResult) :
    List Query → Except E (DB × ExecResult)
  | [] => .ok (tx, result)
  | q :: rest =>
    match sql.exec i tx q with
    | .error err => .error err
    | .ok (tx, res) =>
      execFrom sql (i + 1) tx ⟨res.lastInsertID, result.rowsAffected + res.rowsAffected⟩ rest

def execAll (sql : SQL DB Query E) (tx : DB) (queries : List Query) : Except E (DB × ExecResult) :=
  execFrom sql 0 tx ⟨0, 0⟩ queries

def commit (s : Storage DB Query E) :
    WriteBatch Query → Storage DB Query E × Option ExecResult × Option (Err E)
  | .other => (s, none, some unexpectedType)
  | .execLog el =>
    match s.tx with
    | none => (s, none, some notPrepared)
    | some tx =>
      if s.id = el.id then
        match execAll s.sql tx s.queries with
        | .error err =>
          ({ s with tx := none, queries := [] }, none, some (.foreign err))
        | .ok (tx, result) =>
          -- the error of the transaction's `Commit` is dropped
          let db := if (s.sql.commit tx).isNone then tx else s.db
          ({ s with db := db, tx := none, queries := [] }, some result, none)
      else (s, none, some (inconsistentState s.id))

/-- The id is compared also where no transaction is open. -/
def rollback (s : Storage DB Query E) : WriteBatch Query → Storage DB Query E × Option (Err E)
  | .other => (s, some unexpectedType)
  | .execLog el =>
    if s.id = el.id then
      match s.tx with
      | some _ => ({ s with tx := none, queries := [] }, none)
      | none => (s, none)
    else (s, some (inconsistentState s.id))

def worker : TwoPC.Worker (Storage DB Query E) (WriteBatch Query) ExecResult (Err E) :=
  ⟨prepare, commit, rollback⟩

end Storage

end SQLess
