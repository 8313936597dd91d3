import SQLess.Xenomint.StateCore

/-! A follower of a database. It gets every write request twice: as a committed log
(`worker/db_storage.go`) and in a block (`sqlchain/chain.go`). -/

namespace SQLess.Xenomint

variable {DB Query Pattern Value : Type}

inductive Delivery (Query : Type) where
  | commit (req : Request Query)
  | block (block : Block Query)

def followerRun (e : Engine DB Query Pattern Value) :
    List (Delivery Query) → State DB Query → Option (State DB Query)
  | [], s => some s
  | .commit req :: rest, s =>
    match s.query e req false with
    | (s, .ok _) => followerRun e rest s
    | _ => none
  | .block block :: rest, s =>
    match s.replayBlock e block with
    | (s, .ok _) => followerRun e rest s
    | _ => none

def committed : List (Delivery Query) → List (Request Query)
  | [] => []
  | .commit req :: rest => req :: committed rest
  | .block _ :: rest => committed rest

def delivered : List (Delivery Query) → List (Block Query)
  | [] => []
  | .commit _ :: rest => delivered rest
  | .block block :: rest => block :: delivered rest

def writes : List (Op Query) → List (Request Query)
  | [] => []
  | .query req :: rest => if req.queryType = .writeQuery then req :: writes rest else writes rest
  | .commitEx _ _ :: rest => writes rest

def Block.writeCount (block : Block Query) : Nat :=
  block.queryTxs.countP fun q => q.request.queryType = .writeQuery

/-- Every block comes after the commits of the write requests in it, where `ahead` requests
have been committed and not been in a block yet. -/
def OnTime : Nat → List (Delivery Query) → Prop
  | _, [] => True
  | ahead, .commit _ :: rest => OnTime (ahead + 1) rest
  | ahead, .block block :: rest =>
    block.writeCount ≤ ahead ∧ OnTime (ahead - block.writeCount) rest

def Engine.traced (e : Engine DB Query Pattern Value) :
    Engine (DB × List Pattern) Query Pattern Value where
  convertQueryAndBuildArgs := e.convertQueryAndBuildArgs
  exec := fun (db, trace) pattern =>
    match e.exec db pattern with
    | (db, none) => ((db, trace), none)
    | (db, some res) => ((db, trace ++ [pattern]), some res)
  query := fun (db, trace) pattern => (((e.query db pattern).1, trace), (e.query db pattern).2)

def Engine.patterns (e : Engine DB Query Pattern Value) (queries : List Query) : List Pattern :=
  queries.filterMap fun q => (e.convertQueryAndBuildArgs q).map Prod.snd

def Handler.map {DB' : Type} (f : DB → DB') : Handler DB → Handler DB'
  | .writer => .writer
  | .transaction content savepoints => .transaction (f content) (savepoints.map f)

def State.map {DB' : Type} (f : DB → DB') (s : State DB Query) : State DB' Query where
  level := s.level
  strg := f s.strg
  handler := s.handler.map f
  pool := s.pool
  maxTx := s.maxTx
  lastCommitPoint := s.lastCommitPoint
  current := s.current
  hasSchemaChange := s.hasSchemaChange

end SQLess.Xenomint
