import Mathlib.Data.List.Nodup
import Mathlib.Tactic.Common
import SQLess.Lib.Machine

/-! The pool of connections of `rpc/pool.go`. -/

namespace SQLess.Rpc

variable {NodeID : Type} [DecidableEq NodeID]

def maxRPCPoolPhysicalConnection : Nat := 1024

structure PooledClient (NodeID : Type) where
  client : Nat
  freelist : Option NodeID
  lastErr : Bool
  opened : Bool

structure ClientPool (NodeID : Type) where
  freeCh : NodeID → List Nat
  handles : Nat → Option (PooledClient NodeID)
  handed : Nat
  dialed : Nat
  closed : Nat → Bool

inductive Event (NodeID : Type) where
  | get (id : NodeID) (dials : Bool)
  | call (handle : Nat) (fails : Bool)
  | close (handle : Nat)

namespace ClientPool

def new : ClientPool NodeID := ⟨fun _ => [], fun _ => none, 0, 0, fun _ => false⟩

variable (pool : ClientPool NodeID) (events : List (Event NodeID))

def setHandle (handle : Nat) (c : PooledClient NodeID) : ClientPool NodeID :=
  { pool with handles := Function.update pool.handles handle (some c) }

def setFree (id : NodeID) (free : List Nat) : ClientPool NodeID :=
  { pool with freeCh := Function.update pool.freeCh id free }

def closeClient (client : Nat) : ClientPool NodeID :=
  { pool with closed := Function.update pool.closed client true }

def put (id : NodeID) (client : Nat) : ClientPool NodeID :=
  if (pool.freeCh id).length < maxRPCPoolPhysicalConnection then
    pool.setFree id (pool.freeCh id ++ [client])
  else pool.closeClient client

def wrap (id : NodeID) (client : Nat) : ClientPool NodeID :=
  { pool.setHandle pool.handed ⟨client, some id, false, true⟩ with handed := pool.handed + 1 }

def get (id : NodeID) (dials : Bool) : ClientPool NodeID :=
  match pool.freeCh id with
  | client :: free => (pool.setFree id free).wrap id client
  | [] => if dials then { pool with dialed := pool.dialed + 1 }.wrap id pool.dialed else pool

def close (handle : Nat) (c : PooledClient NodeID) : ClientPool NodeID :=
  match c.freelist, c.lastErr with
  | some id, false =>
    (pool.put id c.client).setHandle handle { c with freelist := none, opened := false }
  | _, _ => (pool.closeClient c.client).setHandle handle { c with opened := false }

def step : Event NodeID → ClientPool NodeID
  | .get id dials => pool.get id dials
  | .call handle fails =>
    match pool.handles handle with
    | some c => if fails then pool.setHandle handle { c with lastErr := true } else pool
    | none => pool
  | .close handle =>
    match pool.handles handle with
    | some c => pool.close handle c
    | none => pool

def run : ClientPool NodeID := events.foldl step new

structure OneUser (pool : ClientPool NodeID) : Prop where
  handle : ∀ h h' c c', pool.handles h = some c → pool.handles h' = some c' → c.opened = true →
    c'.opened = true → c.client = c'.client → h = h'
  free : ∀ h c id, pool.handles h = some c → c.opened = true → c.client ∉ pool.freeCh id
  nodup : ∀ id, (pool.freeCh id).Nodup

def FreeOpen : Prop :=
  ∀ id, ∀ client ∈ pool.freeCh id, pool.closed client = false

def ReturnedOnce : Prop :=
  Lib.Always (fun (pool : ClientPool NodeID) event => some (pool.step event))
    (fun pool event => ∀ h c, event = .close h → pool.handles h = some c → c.freelist ≠ none)
    events new

structure Owned (pool : ClientPool NodeID) : Prop extends OneUser pool where
  fresh : ∀ h, pool.handed ≤ h → pool.handles h = none
  dialed_handle : ∀ h c, pool.handles h = some c → c.client < pool.dialed
  dialed_free : ∀ id, ∀ client ∈ pool.freeCh id, client < pool.dialed
  apart : ∀ id id' client, client ∈ pool.freeCh id → client ∈ pool.freeCh id' → id = id'
  returns : ∀ h c, pool.handles h = some c → c.freelist ≠ none → c.lastErr = false → c.opened = true

structure Guarded (pool : ClientPool NodeID) : Prop where
  closed_lt : ∀ client, pool.closed client = true → client < pool.dialed
  closed_free : FreeOpen pool
  closed_handle : ∀ h c, pool.handles h = some c → c.opened = true → pool.closed c.client = false
  kept : ∀ h c, pool.handles h = some c → c.opened = false → c.freelist ≠ none →
    pool.closed c.client = true

omit [DecidableEq NodeID] in
lemma Owned.wrap {pool} (owned : Owned pool) (id : NodeID) (known : client < pool.dialed)
    (listed : ∀ id, client ∉ pool.freeCh id)
    (held : ∀ h c, pool.handles h = some c → c.opened = true → c.client ≠ client) :
    Owned (pool.wrap id client) := by
  obtain ⟨⟨handle, free, nodup⟩, fresh, dialedHandle, dialedFree, apart, returns⟩ := owned
  refine ⟨⟨?_, ?_, ?_⟩, ?_, ?_, ?_, ?_, ?_⟩ <;>
    simp only [ClientPool.wrap, setHandle, Function.update_apply] <;> grind

lemma Owned.setFree_tail {pool} (owned : Owned pool) {id : NodeID}
    (listed : pool.freeCh id = client :: rest) : Owned (pool.setFree id rest) := by
  obtain ⟨⟨handle, free, nodup⟩, fresh, dialedHandle, dialedFree, apart, returns⟩ := owned
  refine ⟨⟨?_, ?_, ?_⟩, ?_, ?_, ?_, ?_, ?_⟩ <;>
    simp only [setFree, Function.update_apply] <;> grind

lemma Owned.get {pool : ClientPool NodeID} (owned : Owned pool) (id dials) :
    Owned (pool.get id dials) := by
  simp only [ClientPool.get]
  split
  next client rest listed =>
    have nodup := owned.nodup id
    rw [listed] at nodup
    refine (owned.setFree_tail listed).wrap id ?_ ?_ ?_
    · exact owned.dialed_free id client (by simp [listed])
    · intro other
      simp only [setFree, Function.update_apply]
      split
      · exact (List.nodup_cons.1 nodup).1
      · intro mem
        exact absurd (owned.apart _ _ _ mem (by simp [listed] : client ∈ pool.freeCh id))
          (by assumption)
    · intro h c found opened same
      exact owned.free h c id found opened (by simp [listed, same])
  next =>
    split
    · have grown : Owned { pool with dialed := pool.dialed + 1 } :=
        { owned with
          dialed_handle := fun h c found => Nat.lt_succ_of_lt (owned.dialed_handle h c found)
          dialed_free := fun id client mem => Nat.lt_succ_of_lt (owned.dialed_free id client mem) }
      refine grown.wrap id (Nat.lt_succ_self _) ?_ ?_
      · intro other mem
        exact Nat.lt_irrefl _ (owned.dialed_free _ _ mem)
      · intro h c found _
        exact Nat.ne_of_lt (owned.dialed_handle h c found)
    · exact owned

omit [DecidableEq NodeID] in
lemma Owned.setHandle {pool} (owned : Owned pool) {c c' : PooledClient NodeID}
    (found : pool.handles h = some c) (same : c'.client = c.client)
    (opened : c'.opened = true → c.opened = true)
    (returns : c'.freelist ≠ none → c'.lastErr = false → c'.opened = true) :
    Owned (pool.setHandle h c') := by
  obtain ⟨⟨handle, free, nodup⟩, fresh, dialedHandle, dialedFree, apart, returned⟩ := owned
  refine ⟨⟨?_, ?_, ?_⟩, ?_, ?_, ?_, ?_, ?_⟩ <;>
    simp only [ClientPool.setHandle, Function.update_apply] <;> grind

lemma Owned.setFree_append {pool} (owned : Owned pool) (id : NodeID)
    (known : client < pool.dialed) (listed : ∀ id, client ∉ pool.freeCh id)
    (held : ∀ h c, pool.handles h = some c → c.opened = true → c.client ≠ client) :
    Owned (pool.setFree id (pool.freeCh id ++ [client])) := by
  obtain ⟨⟨handle, free, nodup⟩, fresh, dialedHandle, dialedFree, apart, returns⟩ := owned
  refine ⟨⟨?_, ?_, ?_⟩, ?_, ?_, ?_, ?_, ?_⟩ <;>
    simp only [setFree, Function.update_apply] <;> grind

lemma Owned.close {pool} (owned : Owned pool) {c : PooledClient NodeID}
    (found : pool.handles h = some c) : Owned (pool.close h c) := by
  simp only [ClientPool.close]
  split
  next id listed healthy =>
    have opened := owned.returns h c found (by simp [listed]) healthy
    have shut : Owned (pool.setHandle h { c with freelist := none, opened := false }) :=
      owned.setHandle found rfl (by simp) (by simp)
    simp only [put]
    split
    · refine shut.setFree_append id (owned.dialed_handle h c found)
        (fun other => owned.free h c other found opened) ?_
      intro h' c' found' opened' same
      simp only [ClientPool.setHandle, Function.update_apply] at found'
      have := owned.handle h' h c' c
      grind
    · exact { shut with }
  next other =>
    have shut : Owned (pool.setHandle h { c with opened := false }) := by
      refine owned.setHandle found rfl (by simp) ?_
      intro listed healthy
      obtain ⟨id, listed⟩ := Option.ne_none_iff_exists'.1 listed
      exact absurd healthy (other id listed)
    exact { shut with }

lemma Owned.step {pool : ClientPool NodeID} (owned : Owned pool) (event) :
    Owned (pool.step event) := by
  cases event with
  | get id dials => exact owned.get id dials
  | call =>
    simp only [ClientPool.step]
    split
    next c found =>
      split
      · exact owned.setHandle found rfl id (by simp)
      · exact owned
    next => exact owned
  | close =>
    simp only [ClientPool.step]
    split
    next c found => exact owned.close found
    next => exact owned

lemma Guarded.step {pool} (guarded : Guarded pool) (owned : Owned pool) {event : Event NodeID}
    (once : ∀ h c, event = .close h → pool.handles h = some c → c.freelist ≠ none) :
    Guarded (pool.step event) := by
  obtain ⟨⟨handle, free, nodup⟩, fresh, dialedHandle, dialedFree, apart, returns⟩ := owned
  obtain ⟨closedLt, closedFree, closedHandle, kept⟩ := guarded
  simp only [FreeOpen] at closedFree
  have unchanged : Guarded pool := ⟨closedLt, closedFree, closedHandle, kept⟩
  cases event with
  | get =>
    simp only [ClientPool.step, ClientPool.get]
    split
    · refine ⟨?_, ?_, ?_, ?_⟩ <;> simp only [FreeOpen, ClientPool.wrap, ClientPool.setHandle,
        setFree, Function.update_apply] <;> grind
    · split
      · refine ⟨?_, ?_, ?_, ?_⟩ <;> simp only [FreeOpen, ClientPool.wrap, ClientPool.setHandle,
          Function.update_apply] <;> grind
      · exact unchanged
  | call =>
    simp only [ClientPool.step]
    split
    · split
      · refine ⟨?_, ?_, ?_, ?_⟩ <;> simp only [FreeOpen, ClientPool.setHandle,
          Function.update_apply] <;> grind
      · exact unchanged
    · exact unchanged
  | close h =>
    simp only [ClientPool.step]
    split
    next c found =>
      have listed := once h c rfl found
      simp only [ClientPool.close]
      split
      · simp only [put]
        split <;> refine ⟨?_, ?_, ?_, ?_⟩ <;> simp only [FreeOpen, ClientPool.setHandle, setFree,
          closeClient, Function.update_apply] <;> grind
      · refine ⟨?_, ?_, ?_, ?_⟩ <;> simp only [FreeOpen, ClientPool.setHandle, closeClient,
          Function.update_apply] <;> grind
    next => exact unchanged

omit [DecidableEq NodeID] in
lemma new_owned : Owned (new : ClientPool NodeID) := by
  refine ⟨⟨?_, ?_, ?_⟩, ?_, ?_, ?_, ?_, ?_⟩ <;> simp [new]

omit [DecidableEq NodeID] in
lemma new_guarded : Guarded (new : ClientPool NodeID) := by
  refine ⟨?_, ?_, ?_, ?_⟩ <;> simp [new, FreeOpen]

/-- No connection has two users in any run; and none in a free list is closed, unless a handle has
been closed again after it gave its connection back. -/
theorem pooled_connections :
    OneUser (run events) ∧ (ReturnedOnce events → FreeOpen (run events)) := by
  constructor
  · have owned : Owned (run events) :=
      List.foldlRecOn events step new_owned fun _ owned event _ => owned.step event
    exact owned.toOneUser
  · intro once
    have kept := Lib.run_invariant (fun pool => Owned pool ∧ Guarded pool)
      (fun _ event _ sound rule stepped => by
        cases stepped
        exact ⟨sound.1.step event, sound.2.step sound.1 rule⟩)
      ⟨new_owned, new_guarded⟩ once (Lib.run_some step events new)
    exact kept.2.closed_free

theorem pooled_connections_reused :
    (run [.get 7 true, .close 0] : ClientPool Nat).freeCh 7 = [0] ∧
      FreeOpen (run [.get 7 true, .close 0] : ClientPool Nat) := by
  refine ⟨by decide, (pooled_connections _).2 ⟨nofun, ?_⟩⟩
  rintro _ ⟨⟩
  refine ⟨?_, fun _ _ => trivial⟩
  rintro h c ⟨⟩ found
  cases found
  nofun

theorem closed_connection_free :
    (run [.get 7 true, .close 0, .close 0] : ClientPool Nat).freeCh 7 = [0] ∧
      (run [.get 7 true, .close 0, .close 0] : ClientPool Nat).closed 0 = true := by
  decide

end ClientPool

end SQLess.Rpc
