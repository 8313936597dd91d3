import SQLess.Lib.Pool
import SQLess.Types.QueryCore

/-! The check of a request of `worker/db_storage.go`, called by any number of goroutines at once;
single accesses to the map of sequences are atomic. -/

namespace SQLess.Worker

open Lib (FiniteMap Pool)
open SQLess.Types (Crypto Request)

variable {Query : Type}

inductive Err where
  | invalidRequest (context : String)
  | types (err : SQLess.Err)
  | invalidRequestSeq
  deriving DecidableEq

structure Database where
  maxWriteTimeGap : Int
  connSeqs : FiniteMap UInt64 UInt64

namespace Database

def recordSequence (db : Database) (connID seqNo : UInt64) : Database :=
  { db with connSeqs := db.connSeqs.insert connID seqNo }

def verifySequence (db : Database) (connID seqNo : UInt64) : Except Err Unit :=
  match db.connSeqs.get connID with
  | some lastSeq => if seqNo ≤ lastSeq then .error .invalidRequestSeq else .ok ()
  | none => .ok ()

def verifyRequest (crypto : Crypto Query) (db : Database) (nowTime : Time) :
    Option (Request Query) → Except Err (Request Query)
  | none => .error (.invalidRequest "invalid request payload")
  | some req =>
    match req.verify crypto with
    | .error err => .error (.types err)
    | .ok () =>
      let minTime := nowTime - db.maxWriteTimeGap
      let maxTime := nowTime + db.maxWriteTimeGap
      if req.header.timestamp < minTime ∨ maxTime < req.header.timestamp then
        .error (.invalidRequest "invalid request time")
      else .ok req

def check (crypto : Crypto Query) (db : Database) (nowTime : Time)
    (rawReq : Option (Request Query)) : Database × Except Err Unit :=
  match db.verifyRequest crypto nowTime rawReq with
  | .error err => (db, .error err)
  | .ok req =>
    match db.verifySequence req.header.connectionID req.header.seqNo with
    | .error err => (db, .error err)
    | .ok () => (db.recordSequence req.header.connectionID req.header.seqNo, .ok ())

end Database

inductive Call (Query : Type) where
  | called (rawReq : Option (Request Query))
  | verifying (req : Request Query)
  | recording (req : Request Query)
  | returned (rawReq : Option (Request Query)) (result : Except Err Unit)

structure Shared where
  db : Database
  recorded : List (UInt64 × UInt64)

def sequence (req : Request Query) : UInt64 × UInt64 :=
  (req.header.connectionID, req.header.seqNo)

def Call.action (crypto : Crypto Query) (nowTime : Time) (s : Shared) :
    Call Query → Option (Shared × List (Call Query))
  | .called rawReq =>
    match s.db.verifyRequest crypto nowTime rawReq with
    | .error err => some (s, [.returned rawReq (.error err)])
    | .ok req => some (s, [.verifying req])
  | .verifying req =>
    match s.db.verifySequence req.header.connectionID req.header.seqNo with
    | .error err => some (s, [.returned (some req) (.error err)])
    | .ok () => some (s, [.recording req])
  | .recording req =>
    some (⟨s.db.recordSequence req.header.connectionID req.header.seqNo,
      s.recorded ++ [sequence req]⟩, [.returned (some req) (.ok ())])
  | .returned _ _ => none

inductive Event (Query : Type) where
  | check (rawReq : Option (Request Query))
  | step (i : Nat) (nowTime : Time)

def step (crypto : Crypto Query) (pool : Pool Shared (Call Query)) :
    Event Query → Option (Pool Shared (Call Query))
  | .check rawReq => some (pool.start (pool.shared, [.called rawReq]))
  | .step i nowTime => pool.move (Call.action crypto nowTime) i

def Call.succeeded : Call Query → Option (UInt64 × UInt64)
  | .returned (some req) (.ok ()) => some (sequence req)
  | _ => none

def accepted (pool : Pool Shared (Call Query)) : List (UInt64 × UInt64) :=
  pool.threads.filterMap Call.succeeded

def idle (db : Database) : Pool Shared (Call Query) := ⟨⟨db, []⟩, []⟩

def Call.between (connID : UInt64) : Call Query → Bool
  | .recording req => req.header.connectionID = connID
  | _ => false

/-- No sequence of a connection is verified while another one is to be recorded. -/
def exclusive (pool : Pool Shared (Call Query)) : Event Query → Bool
  | .check _ => true
  | .step i _ =>
    match pool.threads[i]? with
    | some (.verifying req) =>
      pool.threads.all fun call => !call.between req.header.connectionID
    | _ => true

end SQLess.Worker
