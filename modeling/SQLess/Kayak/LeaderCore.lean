import SQLess.Kayak.LogCore
import SQLess.Lib.Pool
import SQLess.Types.TypesCore

/-! The leader: calls of `Apply` as threads, and the commit cycle (`kayak/processes.go`,
`kayak/tracker.go` and `kayak/commit.go`). -/

namespace SQLess.Kayak

open Lib

variable {Req Data : Type}

structure Config where
  leader : NodeID
  servers : List NodeID
  distinct : servers.Nodup
  minPreparedFollowers : Int

def Config.followers (config : Config) : List NodeID :=
  config.servers.filter fun v => v ≠ config.leader

abbrev Replies := FiniteMap NodeID (Option Err)

structure Tracker where
  calls : List NodeID
  minCount : Nat
  errors : Replies
  complete : Nat
  done : Bool

namespace Tracker

def send (nodes : List NodeID) (minCount : Int) : Tracker :=
  let minCount := if (nodes.length : Int) < minCount then (nodes.length : Int) else minCount
  let minCount := if minCount < 0 then 0 else minCount.toNat
  ⟨nodes, minCount, ∅, 0, minCount = 0⟩

def callSingle (t : Tracker) (node : NodeID) (err : Option Err) : Tracker where
  calls := t.calls.erase node
  minCount := t.minCount
  errors := t.errors.insert node err
  complete := t.complete + 1
  done := t.done || decide (t.minCount ≤ t.complete + 1)

end Tracker

def errorSummary (errs : Replies) : Option Err :=
  if ∃ node ∈ errs.keys, (errs.get node).join ≠ none then some .prepareFailed else none

inductive ApplyCall (Req Data : Type) where
  | check (req : Req)
  | logPrepare (req : Req) (data : Data)
  | writePrepare (req : Req) (l : Log Data)
  | markPending (req : Req) (l : Log Data)
  | applyRPC (req : Req) (l : Log Data)
  | poll (req : Req) (l : Log Data) (t : Tracker)
  | select (req : Req) (l : Log Data) (t : Tracker) (meets : Bool)
  | collect (req : Req) (l : Log Data) (t : Tracker) (meets : Bool)
  | enqueue (req : Req) (l : Log Data) (replies : Replies)
  | waitCommit (l : Log Data)
  | logRollback (l : Log Data)
  | writeRollback (l rollbackLog : Log Data)
  | sendRollback (l rollbackLog : Log Data)
  | finish (l : Log Data)

/-- Where `leaderDoCommit` stands.  The replies of the prepare rpc travel with the request as
a history. -/
inductive LeaderCycle (Req Data : Type) where
  | idle
  | received (req : Req) (index : Nat) (replies : Replies)
  | write (req : Req) (index : Nat) (replies : Replies) (l : Log Data)
  | execute (req : Req) (l : Log Data)
  | store (l : Log Data)
  | send (l : Log Data)

/-- What the calls share.  `sent` holds the logs given to `applyRPC`, `executed` the calls of
the handler's `Commit` with the index of their commit log, and `quorums` the replies that led
to each commit log. -/
structure LeaderState (Req Data : Type) where
  rt : Runtime Data
  cycle : LeaderCycle Req Data
  sent : List (Log Data)
  executed : List (Nat × Req)
  quorums : List (Nat × Replies)

abbrev Leader (Req Data : Type) := Pool (LeaderState Req Data) (ApplyCall Req Data)

/-- One action of a call. `go` says what it finds where the code has a choice: whether the handler
accepts the request, and whether the tracker or the commit channel comes before the context. -/
def ApplyCall.step (h : Handler Req Data) (config : Config) (go : Bool) (s : LeaderState Req Data) :
    ApplyCall Req Data → Option (LeaderState Req Data × List (ApplyCall Req Data))
  | .check req =>
    match go, h.encodePayload req with
    | true, some data => some (s, [.logPrepare req data])
    | _, _ => some (s, [])
  | .logPrepare req data =>
    let (l, rt) := s.rt.newLog .prepare (.payload data)
    some ({ s with rt := rt }, [.writePrepare req l])
  | .writePrepare req l =>
    -- a log that exists already ends the process
    if (s.rt.wal.get l.index).isSome then none
    else some ({ s with rt := s.rt.putLog l }, [.markPending req l])
  | .markPending req l =>
    some ({ s with rt := s.rt.markPendingPrepare l.index }, [.applyRPC req l])
  | .applyRPC req l =>
    some ({ s with sent := s.sent ++ [l] },
      [.poll req l (.send config.followers config.minPreparedFollowers)])
  | .poll req l t => some (s, [.select req l t t.done])
  | .select req l t meets =>
    if go then if t.done then some (s, [.collect req l t true]) else none
    else some (s, [.collect req l t meets])
  | .collect req l t meets =>
    let meets := meets || decide (t.minCount ≤ t.errors.keys.card)
    let err := if !meets then some .prepareTimeout else errorSummary t.errors
    match err with
    | none => some (s, [.enqueue req l t.errors])
    | some _ => some (s, [.logRollback l])
  | .enqueue req l replies =>
    if go then
      match s.cycle with
      | .idle => some ({ s with cycle := .received req l.index replies }, [.waitCommit l])
      | _ => none
    else some (s, [.finish l])
  | .waitCommit l => some (s, [.finish l])
  | .logRollback l =>
    let (rollbackLog, rt) := s.rt.newLog .rollback (.words [l.index])
    some ({ s with rt := rt }, [.writeRollback l rollbackLog])
  | .writeRollback l rollbackLog =>
    if (s.rt.wal.get rollbackLog.index).isSome then none
    else some ({ s with rt := s.rt.putLog rollbackLog }, [.sendRollback l rollbackLog])
  | .sendRollback l rollbackLog =>
    some ({ s with sent := s.sent ++ [rollbackLog] }, [.finish l])
  | .finish l => some ({ s with rt := s.rt.markPrepareFinished l.index }, [])

def ApplyCall.reply (node : NodeID) (err : Option Err) :
    ApplyCall Req Data → Option (ApplyCall Req Data)
  | .poll req l t => if node ∈ t.calls then some (.poll req l (t.callSingle node err)) else none
  | .select req l t meets =>
    if node ∈ t.calls then some (.select req l (t.callSingle node err) meets) else none
  | .collect req l t meets =>
    if node ∈ t.calls then some (.collect req l (t.callSingle node err) meets) else none
  | _ => none

def ApplyCall.tracked : ApplyCall Req Data → Option (Log Data)
  | .poll _ l _ => some l
  | .select _ l _ _ => some l
  | .collect _ l _ _ => some l
  | _ => none

def LeaderState.commitCycle (s : LeaderState Req Data) : Option (LeaderState Req Data) :=
  match s.cycle with
  | .idle => none
  | .received req index replies =>
    let (l, rt) := s.rt.newLog .commit (.words [index, s.rt.lastCommit])
    some { s with rt := rt, cycle := .write req index replies l }
  | .write req _ replies l =>
    if (s.rt.wal.get l.index).isSome then none
    else some { s with
      rt := s.rt.putLog l
      cycle := .execute req l
      quorums := s.quorums ++ [(l.index, replies)] }
  | .execute req l =>
    some { s with cycle := .store l, executed := s.executed ++ [(l.index, req)] }
  | .store l => some { s with rt := { s.rt with lastCommit := l.index }, cycle := .send l }
  | .send l => some { s with cycle := .idle, sent := s.sent ++ [l] }

def LeaderState.init : LeaderState Req Data := ⟨⟨0, 0, ∅, .empty⟩, .idle, [], [], []⟩

def LeaderState.restart (s : LeaderState Req Data) : Option (LeaderState Req Data) :=
  (newRuntime s.rt.wal).map fun rt => { s with rt := rt, cycle := .idle }

def LeaderState.executing (s : LeaderState Req Data) : Bool :=
  match s.cycle with
  | .execute _ _ => true
  | _ => false

inductive LeaderAction (Req : Type) where
  | apply (req : Req)
  | call (i : Nat) (go : Bool)
  | reply (i : Nat) (node : NodeID) (err : Option Err)
  | commitCycle
  | restart

def Leader.act (h : Handler Req Data) (config : Config) (accepted : NodeID → Finset Nat)
    (l : Leader Req Data) : LeaderAction Req → Option (Leader Req Data)
  | .apply req => some (l.start (l.shared, [.check req]))
  | .call i go => l.move (ApplyCall.step h config go) i
  | .reply i node err =>
    l.move (fun s call =>
      match call.tracked, call.reply node err with
      | some log, some next =>
        if err = none ∧ log.index ∉ accepted node then none else some (s, [next])
      | _, _ => none) i
  | .commitCycle => l.shared.commitCycle.map fun s => ⟨s, l.threads⟩
  | .restart => l.shared.restart.map fun s => ⟨s, []⟩

end SQLess.Kayak
