import SQLess.Kayak.LogCore
import SQLess.Lib.Pool

/-! A follower: calls of `followerApply` as threads, and the commit cycle that they hand their
requests to (`kayak/processes.go`, `kayak/commit.go` and `kayak/waiter.go`). -/

namespace SQLess.Kayak

open Lib

variable {Req Data : Type}

structure CommitReq (Req Data : Type) where
  data : Req
  index : Nat
  lastCommit : Nat
  log : Log Data

inductive CommitCycle (Req Data : Type) where
  | idle
  | received (req : CommitReq Req Data)
  | put (req : CommitReq Req Data)
  | execute (req : CommitReq Req Data)
  | store (req : CommitReq Req Data)

/-- Where a call of `followerApply` stands, together with its request once it is handed to the
commit cycle: the call then waits for the result and does nothing else. -/
inductive Task (Req Data : Type) where
  | followerApply (l : Log Data) (checkPrepare : Bool)
  | writePrepare (l : Log Data) (checkPrepare : Bool)
  | putPrepare (l : Log Data) (checkPrepare : Bool)
  | markPending (l : Log Data) (checkPrepare : Bool)
  | getPrepareLog (l : Log Data)
  | checkFinished (l prepareLog : Log Data) (lastCommit : Nat)
  | writeRollback (l prepareLog : Log Data)
  | putRollback (l prepareLog : Log Data)
  | commitResult (l prepareLog : Log Data) (lastCommit : Nat)
  | enqueue (req : CommitReq Req Data)
  | waitForLastCommit (req : CommitReq Req Data)
  | markFinished (l : Log Data) (prepareIndex : Nat)
  | finish (l : Log Data) (checkPrepare : Bool)

/-- What the calls share.  `waitLogMap` holds the indexes that calls wait for, `executed` the
calls of the handler's `Commit` with the index of their commit log, and `accepted` the prepare
logs for which `FollowerApply` has returned nil to the leader. -/
structure FollowerState (Req Data : Type) where
  rt : Runtime Data
  waitLogMap : Finset Nat
  cycle : CommitCycle Req Data
  executed : List (Nat × Req)
  accepted : Finset Nat

abbrev Follower (Req Data : Type) := Pool (FollowerState Req Data) (Task Req Data)

/-- One action of a call, where `go` says whether the handler's `Check` accepts the request.
A write looks the header up first and stores the log in a later action. -/
def Task.step (h : Handler Req Data) (go : Bool) (s : FollowerState Req Data) :
    Task Req Data → Option (FollowerState Req Data × List (Task Req Data))
  | .followerApply l checkPrepare =>
    match l.type with
    | .prepare =>
      match h.doDecodePayload l.data with
      | none => some (s, [])
      | some _ =>
        if checkPrepare && !go then some (s, [])
        else some (s, [.writePrepare l checkPrepare])
    | .rollback => some (s, [.getPrepareLog l])
    | .commit => some (s, [.getPrepareLog l])
    | _ => some (s, [.finish l false])
  | .writePrepare l checkPrepare =>
    if (s.rt.wal.get l.index).isSome then some (s, [])
    else some (s, [.putPrepare l checkPrepare])
  | .putPrepare l checkPrepare =>
    some ({ s with rt := s.rt.putLog l }, [.markPending l checkPrepare])
  | .markPending l checkPrepare =>
    some ({ s with rt := s.rt.markPendingPrepare l.index }, [.finish l checkPrepare])
  | .getPrepareLog l =>
    match Kayak.getPrepareLog s.rt.wal l with
    | .failed _ => some (s, [])
    | .blocked index =>
      some ({ s with waitLogMap := insert index s.waitLogMap }, [.getPrepareLog l])
    | .done (lastCommit, prepareLog) => some (s, [.checkFinished l prepareLog lastCommit])
  | .checkFinished l prepareLog lastCommit =>
    if s.rt.checkIfPrepareFinished prepareLog.index then some (s, [])
    else if l.type = .rollback then some (s, [.writeRollback l prepareLog])
    else some (s, [.commitResult l prepareLog lastCommit])
  | .writeRollback l prepareLog =>
    if (s.rt.wal.get l.index).isSome then some (s, [])
    else some (s, [.putRollback l prepareLog])
  | .putRollback l prepareLog =>
    some ({ s with rt := s.rt.putLog l }, [.markFinished l prepareLog.index])
  | .commitResult l prepareLog lastCommit =>
    if lastCommit < s.rt.lastCommit then some (s, [])
    else
      match h.doDecodePayload prepareLog.data with
      | none => some (s, [])
      | some data => some (s, [.enqueue ⟨data, prepareLog.index, lastCommit, l⟩])
  | .enqueue req =>
    match s.cycle with
    | .idle => some ({ s with cycle := .received req }, [])
    | _ => none
  | .waitForLastCommit req =>
    if (s.rt.wal.get req.lastCommit).isSome then some (s, [.enqueue req])
    else some ({ s with waitLogMap := insert req.lastCommit s.waitLogMap },
      [.waitForLastCommit req])
  | .markFinished l prepareIndex =>
    some ({ s with rt := s.rt.markPrepareFinished prepareIndex }, [.finish l false])
  | .finish l checkPrepare =>
    some ({ s with
      rt := s.rt.updateNextIndex l
      accepted := if checkPrepare then insert l.index s.accepted else s.accepted }, [])

/-- One action of the commit cycle.  A request whose last commit is not the node's is queued
again by a goroutine, and after a failed write its call waits forever. -/
def FollowerState.commitCycle (s : FollowerState Req Data) :
    Option (FollowerState Req Data × List (Task Req Data)) :=
  match s.cycle with
  | .idle => none
  | .received req =>
    if req.lastCommit ≠ s.rt.lastCommit then
      some ({ s with cycle := .idle }, [.waitForLastCommit req])
    else if (s.rt.wal.get req.log.index).isSome then some ({ s with cycle := .idle }, [])
    else some ({ s with cycle := .put req }, [])
  | .put req => some ({ s with rt := s.rt.putLog req.log, cycle := .execute req }, [])
  | .execute req =>
    some ({ s with
      cycle := .store req
      executed := s.executed ++ [(req.log.index, req.data)] }, [])
  | .store req =>
    some ({ s with rt := { s.rt with lastCommit := req.log.index }, cycle := .idle },
      [.markFinished req.log req.index])

def FollowerState.init : FollowerState Req Data := ⟨⟨0, 0, ∅, .empty⟩, ∅, .idle, [], ∅⟩

def FollowerState.restart (s : FollowerState Req Data) : Option (FollowerState Req Data) :=
  (newRuntime s.rt.wal).map fun rt => { s with rt := rt, waitLogMap := ∅, cycle := .idle }

def FollowerState.executing (s : FollowerState Req Data) : Bool :=
  match s.cycle with
  | .execute _ => true
  | _ => false

inductive FollowerAction where
  | task (i : Nat) (go : Bool)
  | commitCycle
  | deliver (k : Nat)
  | fetch (index : Nat)
  | restart

def Follower.act (h : Handler Req Data) (sent : List (Log Data)) (wal : Wal Data)
    (f : Follower Req Data) : FollowerAction → Option (Follower Req Data)
  | .task i go => f.move (Task.step h go) i
  | .commitCycle => f.shared.commitCycle.map f.start
  | .deliver k => sent[k]?.map fun l => f.start (f.shared, [.followerApply l true])
  | .fetch index =>
    if index ∈ f.shared.waitLogMap then
      (wal.get index).map fun l => f.start (f.shared, [.followerApply l false])
    else none
  | .restart => f.shared.restart.map fun s => ⟨s, []⟩

/-- The call at a position is about to store a prepare log that another one has stored since
it looked the log up. -/
def Follower.overwrites (f : Follower Req Data) (i : Nat) : Bool :=
  match f.threads[i]? with
  | some (.putPrepare l _) => (f.shared.rt.wal.get l.index).isSome
  | _ => false

end SQLess.Kayak
