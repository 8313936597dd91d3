import SQLess.Lib.FanOut

/-! The coordinator of `twopc/twopc.go` over any workers. The deadline of the context shows only in
what the calls return. -/

namespace SQLess.TwoPC

variable {σ WriteBatch Result Err : Type}

structure Worker (σ WriteBatch Result Err : Type) where
  prepare : σ → WriteBatch → σ × Option Err
  commit : σ → WriteBatch → σ × Option Result × Option Err
  rollback : σ → WriteBatch → σ × Option Err

structure Options (Err : Type) where
  beforePrepare : Option (Option Err)
  beforeCommit : Option (Option Err)
  beforeRollback : Option (Option Err)
  afterCommit : Option (Option Err)

inductive HookName where
  | beforePrepare
  | beforeCommit
  | beforeRollback
  | afterCommit
  deriving DecidableEq

inductive Event (Result Err : Type) where
  | hook (name : HookName) (err : Option Err)
  | prepare (worker : Nat) (err : Option Err)
  | commit (worker : Nat) (result : Option Result) (err : Option Err)
  | rollback (worker : Nat) (err : Option Err)
  deriving DecidableEq

def callHook (name : HookName) : Option (Option Err) → List (Event Result Err) × Option Err
  | none => ([], none)
  | some err => ([.hook name err], err)

structure Phase (σ Result Err : Type) where
  workers : List σ
  events : List (Event Result Err)
  err : Option Err

def firstError (errs : List (Option Err)) : Option Err := errs.findSome? id

variable (m : Worker σ WriteBatch Result Err) (order : List Nat) (workers : List σ)
  (wb : WriteBatch)

def prepare : Phase σ Result Err :=
  let calls := Lib.fanOut (fun n => m.prepare n wb) none workers order
  ⟨calls.objects, calls.trace.map fun call => .prepare call.1 call.2, firstError calls.slots⟩

def rollback : Phase σ Result Err :=
  let calls := Lib.fanOut (fun n => m.rollback n wb) none workers order
  ⟨calls.objects, calls.trace.map fun call => .rollback call.1 call.2, firstError calls.slots⟩

def commit : Phase σ Result Err × Option Result :=
  let calls := Lib.fanOut (fun n => m.commit n wb) (none, none) workers order
  (⟨calls.objects, calls.trace.map fun call => .commit call.1 call.2.1 call.2.2,
    firstError (calls.slots.map Prod.snd)⟩, calls.slots.head?.bind Prod.fst)

structure Schedule (n : Nat) where
  prepare : Lib.Order n
  commit : Lib.Order n
  rollback : Lib.Order n

structure Outcome (σ Result Err : Type) where
  workers : List σ
  events : List (Event Result Err)
  result : Option Result
  err : Option Err

def putRollback (opt : Options Err) (order : List Nat)
    (workers : List σ) (wb : WriteBatch) (events : List (Event Result Err)) (err : Err) :
    Outcome σ Result Err :=
  -- the errors of the hook and of the workers are ignored
  let hook := callHook .beforeRollback opt.beforeRollback
  let rolled := rollback m order workers wb
  ⟨rolled.workers, events ++ hook.1 ++ rolled.events, none, some err⟩

def putCommit (opt : Options Err) (order : List Nat)
    (workers : List σ) (wb : WriteBatch) (events : List (Event Result Err)) :
    Outcome σ Result Err :=
  let committed := commit m order workers wb
  let hook := callHook .afterCommit opt.afterCommit
  -- the hook assigns its error to the variable that holds the error of the commits
  let err := if opt.afterCommit.isSome then hook.2 else committed.1.err
  ⟨committed.1.workers, events ++ committed.1.events ++ hook.1, committed.2, err⟩

def put (opt : Options Err) (workers : List σ)
    (schedule : Schedule workers.length) (wb : WriteBatch) : Outcome σ Result Err :=
  let before := callHook .beforePrepare opt.beforePrepare
  match before.2 with
  | some err => ⟨workers, before.1, none, some err⟩
  | none =>
    let prepared := prepare m schedule.prepare.indices workers wb
    match prepared.err with
    | some err => putRollback m opt schedule.rollback.indices prepared.workers wb
        (before.1 ++ prepared.events) err
    | none =>
      let hook := callHook .beforeCommit opt.beforeCommit
      match hook.2 with
      | some err => putRollback m opt schedule.rollback.indices prepared.workers wb
          (before.1 ++ prepared.events ++ hook.1) err
      | none => putCommit m opt schedule.commit.indices prepared.workers wb
          (before.1 ++ prepared.events ++ hook.1)

end SQLess.TwoPC
