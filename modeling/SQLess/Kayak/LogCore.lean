import SQLess.Lib.FiniteMap
import Mathlib.Data.List.Sort

/-! Logs, the write-ahead log and the indexes of a kayak node (`kayak/types/log.go`,
`kayak/log.go`). -/

namespace SQLess.Kayak

open Lib List

inductive Err where
  | invalidLog
  | prepareTimeout
  | prepareFailed
  | wrapped (context : String) (cause : Err)
  deriving DecidableEq

inductive LogType where
  | prepare
  | rollback
  | commit
  | checkpoint
  | barrier
  | noop
  deriving DecidableEq

def LogType.string : LogType → String
  | .prepare => "LogPrepare"
  | .rollback => "LogRollback"
  | .commit => "LogCommit"
  | .checkpoint => "LogCheckpoint"
  | .barrier => "LogBarrier"
  | .noop => "LogNoop"

/-- `Log.Data`: an encoded payload, or indexes of eight bytes each. -/
inductive LogData (Data : Type) where
  | payload (data : Data)
  | words (indexes : List Nat)
  deriving DecidableEq

def LogData.word {Data : Type} (data : LogData Data) (offset : Nat) : Option Nat :=
  match data with
  | .payload _ => none
  | .words indexes => indexes[offset]?

structure Log (Data : Type) where
  index : Nat
  type : LogType
  data : LogData Data
  deriving DecidableEq

structure Handler (Req Data : Type) where
  encodePayload : Req → Option Data
  decodePayload : Data → Option Req
  decode_encode : ∀ req data, encodePayload req = some data → decodePayload data = some req

def Handler.doDecodePayload {Req Data : Type} (h : Handler Req Data) : LogData Data → Option Req
  | .payload data => h.decodePayload data
  | .words _ => none

variable {Req Data : Type}

structure Wal (Data : Type) where
  logs : List (Log Data)
  distinct : (logs.map Log.index).Nodup

namespace Wal

def empty : Wal Data := ⟨[], by simp⟩

def get (w : Wal Data) (index : Nat) : Option (Log Data) :=
  w.logs.find? fun l => l.index = index

def put (w : Wal Data) (l : Log Data) : Wal Data where
  logs :=
    if (w.get l.index).isSome then w.logs.map fun old => if old.index = l.index then l else old
    else w.logs ++ [l]
  distinct := by
    split
    · have same : (w.logs.map fun old => if old.index = l.index then l else old).map Log.index =
          w.logs.map Log.index := by
        rw [map_map]
        apply map_congr_left
        intro old _
        by_cases equal : old.index = l.index <;> simp [equal]
      rw [same]
      exact w.distinct
    · rename_i absent
      rw [map_append, nodup_append]
      refine ⟨w.distinct, by simp, ?_⟩
      intro index member other new same
      obtain ⟨old, present, named⟩ := mem_map.mp member
      apply absent
      rw [map_singleton, mem_singleton] at new
      rw [get, List.find?_isSome]
      exact ⟨old, present, by simp [named, same, new]⟩

def read (w : Wal Data) : List (Log Data) :=
  w.logs.insertionSort fun left right => left.index ≤ right.index

end Wal

structure Runtime (Data : Type) where
  nextIndex : Nat
  lastCommit : Nat
  pendingPrepares : Finset Nat
  wal : Wal Data

namespace Runtime

variable (r : Runtime Data)

def updateNextIndex (l : Log Data) : Runtime Data :=
  if r.nextIndex < l.index + 1 then { r with nextIndex := l.index + 1 } else r

def checkIfPrepareFinished (index : Nat) : Bool :=
  index ∉ r.pendingPrepares

def markPendingPrepare (index : Nat) : Runtime Data :=
  { r with pendingPrepares := insert index r.pendingPrepares }

def markPrepareFinished (index : Nat) : Runtime Data :=
  { r with pendingPrepares := r.pendingPrepares.erase index }

def putLog (l : Log Data) : Runtime Data := { r with wal := r.wal.put l }

def newLog (type : LogType) (data : LogData Data) : Log Data × Runtime Data :=
  (⟨r.nextIndex, type, data⟩, { r with nextIndex := r.nextIndex + 1 })

end Runtime

inductive Waiting (α : Type) where
  | done (value : α)
  | blocked (index : Nat)
  | failed (error : Err)

def getPrepareLog (w : Wal Data) (l : Log Data) : Waiting (Nat × Log Data) :=
  match l.data.word 0 with
  | none => .failed (.wrapped "log does not contain valid prepare index" .invalidLog)
  | some prepareIndex =>
    match w.get prepareIndex with
    | none => .blocked prepareIndex
    | some pl =>
      match l.data.word 1 with
      | none => .done (0, pl)
      | some lastCommitIndex =>
        match w.get lastCommitIndex with
        | none => .blocked lastCommitIndex
        | some _ => .done (lastCommitIndex, pl)

inductive ReadResult (Data : Type) where
  | finished (r : Runtime Data)
  | stopped (r : Runtime Data) (unread : List (Log Data))
  | failed (error : Err)
  | blocked (index : Nat)

/-- The loop of `readLogs`.  The error of a commit log whose last commit does not match wraps a
nil error, which is nil. -/
def readLogs (r : Runtime Data) : List (Log Data) → ReadResult Data
  | [] => .finished r
  | l :: rest =>
    match l.type with
    | .prepare => readLogs ((r.markPendingPrepare l.index).updateNextIndex l) rest
    | .commit =>
      match getPrepareLog r.wal l with
      | .blocked index => .blocked index
      | .failed error => .failed
          (.wrapped "previous prepare does not exists, node need full recovery" error)
      | .done (lastCommit, prepareLog) =>
        if lastCommit ≠ r.lastCommit then .stopped r (l :: rest)
        else if r.checkIfPrepareFinished prepareLog.index then
          .failed (.wrapped "previous prepare already committed/rollback" .invalidLog)
        else
          let r := { r with lastCommit := l.index }
          readLogs ((r.markPrepareFinished prepareLog.index).updateNextIndex l) rest
    | .rollback =>
      match getPrepareLog r.wal l with
      | .blocked index => .blocked index
      | .failed error => .failed
          (.wrapped "previous prepare does not exists, node need full recovery" error)
      | .done (_, prepareLog) =>
        if r.checkIfPrepareFinished prepareLog.index then
          .failed (.wrapped "previous prepare already committed/rollback" .invalidLog)
        else readLogs ((r.markPrepareFinished prepareLog.index).updateNextIndex l) rest
    | other => .failed (.wrapped ("invalid log type: " ++ other.string) .invalidLog)

def recoverLogs (w : Wal Data) : ReadResult Data := readLogs ⟨0, 0, ∅, w⟩ w.read

def newRuntime (w : Wal Data) : Option (Runtime Data) :=
  match recoverLogs w with
  | .finished r => some r
  | .stopped r _ => some r
  | .failed _ => none
  | .blocked _ => none

end SQLess.Kayak
