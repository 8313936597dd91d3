import SQLess.Kayak.LogCore
import SQLess.Lib.BigEndian
import SQLess.Lib.OrderedStore

/-! The write-ahead log on leveldb with its keys and values as bytes (`kayak/wal/leveldb_wal.go`),
and reading it back (`readLogs` in `kayak/log.go`). -/

namespace SQLess.Kayak.LevelDB

open Lib (OrderedStore bigEndian ofBigEndian)

abbrev Bytes := List (Fin 256)

abbrev DB := OrderedStore Bytes Bytes

inductive Err where
  | walClosed
  | invalidLog
  | alreadyExists
  | notExists
  | eof
  | notFound
  | codec
  | wrapped (context : String) (cause : Err)
  deriving DecidableEq

structure LogHeader where
  index : UInt64
  version : UInt64
  type : UInt16
  producer : String
  dataLength : UInt64
  deriving DecidableEq

structure Log extends LogHeader where
  data : Bytes
  deriving DecidableEq

def logPrepare : UInt16 := 0
def logRollback : UInt16 := 1
def logCommit : UInt16 := 2

def typeString (type : UInt16) : String :=
  if type = 0 then "LogPrepare"
  else if type = 1 then "LogRollback"
  else if type = 2 then "LogCommit"
  else if type = 3 then "LogCheckpoint"
  else if type = 4 then "LogBarrier"
  else if type = 5 then "LogNoop"
  else "Unknown"

structure Codec where
  encodeData : Bytes → Option Bytes
  decodeData : Bytes → Option Bytes
  encodeHeader : LogHeader → Option Bytes
  decodeHeader : Bytes → Option LogHeader
  decode_data : ∀ data bytes, encodeData data = some bytes → decodeData bytes = some data
  decode_header : ∀ header bytes, encodeHeader header = some bytes →
    decodeHeader bytes = some header

def logHeaderKeyPrefix : Bytes := [76, 72]

def logDataKeyPrefix : Bytes := [76, 68]

def uint64ToBytes (o : UInt64) : Bytes := bigEndian 8 o.toNat

def headerKey (index : UInt64) : Bytes := logHeaderKeyPrefix ++ uint64ToBytes index

def dataKey (index : UInt64) : Bytes := logDataKeyPrefix ++ uint64ToBytes index

variable (c : Codec) (db : DB)

def headers : List Bytes :=
  (db.entries.filter fun entry => logHeaderKeyPrefix.isPrefixOf entry.1).map Prod.snd

def load (logHeader : Bytes) : Except Err Log :=
  match c.decodeHeader logHeader with
  | none => .error (.wrapped "decode log header failed" .codec)
  | some header =>
    match db.get (dataKey header.index) with
    | none => .error (.wrapped "get log data failed" .notFound)
    | some encData =>
      match c.decodeData encData with
      | none => .error (.wrapped "decode log data failed" .codec)
      | some data => .ok ⟨header, data⟩

def Log.withDataLength (l : Log) (encoded : Bytes) : Log :=
  { l with dataLength := UInt64.ofNat encoded.length }

def writePuts (l : Log) : List (Bytes × Bytes) × Except Err Unit :=
  match db.get (headerKey l.index) with
  | some _ => ([], .error .alreadyExists)
  | none =>
    match c.encodeData l.data with
    | none => ([], .error (.wrapped "encode log data failed" .codec))
    | some data =>
      match c.encodeHeader (l.withDataLength data).toLogHeader with
      | none =>
        ([(dataKey l.index, data)], .error (.wrapped "encode log header failed" .codec))
      | some header => ([(dataKey l.index, data), (headerKey l.index, header)], .ok ())

def putAll (puts : List (Bytes × Bytes)) : DB :=
  puts.foldl (fun db put => db.put put.1 put.2) db

structure LevelDBWal where
  db : DB
  it : Option (List Bytes)
  closed : Bool
  alreadyRead : Bool

namespace LevelDBWal

def newLevelDBWal (db : DB) : LevelDBWal := ⟨db, none, false, false⟩

def write (c : Codec) (p : LevelDBWal) (l : Option Log) : LevelDBWal × Except Err Unit :=
  if p.closed then (p, .error .walClosed)
  else
    let p := { p with alreadyRead := true }
    match l with
    | none => (p, .error .invalidLog)
    | some l =>
      let (puts, result) := writePuts c p.db l
      ({ p with db := putAll p.db puts }, result)

def read (c : Codec) (p : LevelDBWal) : LevelDBWal × Except Err Log :=
  if p.closed then (p, .error .walClosed)
  else if p.alreadyRead then (p, .error .eof)
  else
    match p.it.getD (headers p.db) with
    | value :: rest => ({ p with it := some rest }, load c p.db value)
    | [] => ({ p with it := none, alreadyRead := true }, .error .eof)

def get (c : Codec) (p : LevelDBWal) (i : UInt64) : Except Err Log :=
  if p.closed then .error .walClosed
  else
    match p.db.get (headerKey i) with
    | none => .error .notExists
    | some headerData => load c p.db headerData

def reads (c : Codec) (p : LevelDBWal) : Nat → List (Except Err Log)
  | 0 => []
  | n + 1 => (p.read c).2 :: reads c (p.read c).1 n

end LevelDBWal

structure Attempt where
  log : Option Log
  puts : Nat

def Attempt.apply (attempt : Attempt) : DB :=
  match attempt.log with
  | none => db
  | some l => putAll db ((writePuts c db l).1.take attempt.puts)

/-- The database after calls of `Write`, each of them cut short or not, between which the
write-ahead log may have been reopened. -/
def afterAttempts (history : List Attempt) : DB :=
  history.foldl (Attempt.apply c) .empty

structure Runtime where
  nextIndex : UInt64
  lastCommit : UInt64
  pendingPrepares : Finset UInt64

namespace Runtime

def updateNextIndex (r : Runtime) (l : Log) : Runtime :=
  if r.nextIndex < l.index + 1 then { r with nextIndex := l.index + 1 } else r

end Runtime

def bytesToUint64 (b : Bytes) : Option UInt64 :=
  if b.length < 8 then none else some (UInt64.ofNat (ofBigEndian (b.take 8)))

inductive Waiting (α : Type) where
  | done (value : α)
  | blocked (index : UInt64)
  | failed (error : Err)
  deriving DecidableEq

/-- `waitForLog` before the node is started: a log that cannot be read is fetched from the leader
again and again, and what is fetched is refused. -/
def waitForLog (p : LevelDBWal) (index : UInt64) : Waiting Log :=
  match p.get c index with
  | .ok l => .done l
  | .error _ => .blocked index

def getPrepareLog (p : LevelDBWal) (l : Log) : Waiting (UInt64 × Log) :=
  match bytesToUint64 l.data with
  | none => .failed (.wrapped "log does not contain valid prepare index" .invalidLog)
  | some prepareIndex =>
    match waitForLog c p prepareIndex with
    | .blocked index => .blocked index
    | .failed error => .failed (.wrapped "wait for prepare log failed" error)
    | .done pl =>
      match bytesToUint64 (l.data.drop 8) with
      | none => .done (0, pl)
      | some lastCommitIndex =>
        match waitForLog c p lastCommitIndex with
        | .blocked index => .blocked index
        | .failed error => .failed (.wrapped "wait for last commit log failed" error)
        | .done _ => .done (lastCommitIndex, pl)

inductive ReadResult where
  | finished (r : Runtime)
  | stopped (r : Runtime)
  | failed (error : Err)
  | blocked (index : UInt64)

/-- The loop of `readLogs` over the headers that the iterator still returns.  The error of a commit
log whose last commit does not match wraps a nil error, which is nil. -/
def readLogs (c : Codec) (p : LevelDBWal) (r : Runtime) : List Bytes → ReadResult
  | [] => .finished r
  | value :: rest =>
    match load c p.db value with
    | .error error => .failed (.wrapped "load previous logs in wal failed" error)
    | .ok l =>
      if l.type = logPrepare then
        readLogs c p ({ r with
          pendingPrepares := insert l.index r.pendingPrepares }.updateNextIndex l) rest
      else if l.type = logCommit then
        match getPrepareLog c p l with
        | .blocked index => .blocked index
        | .failed error => .failed
            (.wrapped "previous prepare does not exists, node need full recovery" error)
        | .done (lastCommit, prepareLog) =>
          if lastCommit ≠ r.lastCommit then .stopped r
          else if prepareLog.index ∉ r.pendingPrepares then
            .failed (.wrapped "previous prepare already committed/rollback" .invalidLog)
          else
            readLogs c p ({ r with
              lastCommit := l.index
              pendingPrepares := r.pendingPrepares.erase prepareLog.index
              }.updateNextIndex l) rest
      else if l.type = logRollback then
        match getPrepareLog c p l with
        | .blocked index => .blocked index
        | .failed error => .failed
            (.wrapped "previous prepare does not exists, node need full recovery" error)
        | .done (_, prepareLog) =>
          if prepareLog.index ∉ r.pendingPrepares then
            .failed (.wrapped "previous prepare already committed/rollback" .invalidLog)
          else
            readLogs c p ({ r with
              pendingPrepares := r.pendingPrepares.erase prepareLog.index
              }.updateNextIndex l) rest
      else .failed (.wrapped ("invalid log type: " ++ typeString l.type) .invalidLog)

def recoverLogs : ReadResult :=
  readLogs c (.newLevelDBWal db) ⟨0, 0, ∅⟩ (headers db)

end SQLess.Kayak.LevelDB
