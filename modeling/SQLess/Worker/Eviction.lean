import SQLess.Lib.PositionIndex
import SQLess.Worker.Check

/-!
How many connections the database remembers: the requests that pass the check, and the goroutine
that evicts sequences.
-/

namespace SQLess.Worker

open List

open Lib (FiniteMap LastAt)
open SQLess.Types (Crypto Request)

variable {Query : Type}

def maxRecordedConnectionSequences : Nat := 1000

/-- The identifiers of the accepted requests are kept for the statements only. The evictor is its
list, the last used first; it is `none` after `evictSequences` has returned. -/
structure Recorder where
  db : Database
  accepted : List UInt64
  connSeqEvictCh : List UInt64
  evictor : Option (List UInt64)

namespace Recorder

def new (maxWriteTimeGap : Int) : Recorder := ⟨⟨maxWriteTimeGap, ∅⟩, [], [], some []⟩

def evictSequence (s : Recorder) (l : List UInt64) (connSeq : UInt64) : Recorder :=
  if connSeq ∈ l then { s with evictor := none }
  else if maxRecordedConnectionSequences < (connSeq :: l).length then
    let evictSeq := (connSeq :: l).getLast (cons_ne_nil connSeq l)
    { s with
      db := { s.db with connSeqs := s.db.connSeqs.erase evictSeq }
      evictor := some (connSeq :: l).dropLast }
  else { s with evictor := some (connSeq :: l) }

inductive Event (Query : Type) where
  | check (nowTime : Time) (rawReq : Option (Request Query))
  | evict

def step (crypto : Crypto Query) (s : Recorder) : Event Query → Recorder
  | .check nowTime rawReq =>
    match s.db.check crypto nowTime rawReq with
    | (db, .error _) => { s with db := db }
    | (db, .ok ()) =>
      { s with
        db := db
        accepted := s.accepted ++ (rawReq.map fun req => req.header.connectionID).toList }
  | .evict =>
    match s.connSeqEvictCh, s.evictor with
    | connSeq :: rest, some l => evictSequence { s with connSeqEvictCh := rest } l connSeq
    | _, _ => s

def remembered (s : Recorder) : Finset UInt64 := s.db.connSeqs.keys

def ForgetsOldest (s : Recorder) : Prop :=
  ∀ i j id other, LastAt (fun id => id) s.accepted id i → LastAt (fun id => id) s.accepted other j →
    id ∉ s.remembered → other ∈ s.remembered → i < j

lemma check_cases (crypto : Crypto Query) (db : Database) (nowTime : Time)
    (rawReq : Option (Request Query)) : (∃ err, db.check crypto nowTime rawReq = (db, .error err)) ∨
      ∃ req, rawReq = some req ∧ db.check crypto nowTime rawReq =
        (db.recordSequence req.header.connectionID req.header.seqNo, .ok ()) := by
  unfold Database.check
  cases verified : db.verifyRequest crypto nowTime rawReq with
  | error err => exact .inl ⟨err, rfl⟩
  | ok req =>
    have given : rawReq = some req := by
      unfold Database.verifyRequest at verified
      grind
    cases sequenced : db.verifySequence req.header.connectionID req.header.seqNo with
    | error err => exact .inl ⟨err, by simp [sequenced]⟩
    | ok => exact .inr ⟨req, given, by simp [sequenced]⟩

structure RemembersAll (s : Recorder) : Prop where
  waiting : s.connSeqEvictCh = []
  remembered : s.remembered = s.accepted.toFinset

namespace RemembersAll

variable {s : Recorder}

lemma step (crypto : Crypto Query) (all : s.RemembersAll) (event : Event Query) :
    (s.step crypto event).RemembersAll := by
  cases event with
  | evict =>
    simp only [Recorder.step, all.waiting]
    exact all
  | check nowTime rawReq =>
    rcases check_cases crypto s.db nowTime rawReq with ⟨err, refused⟩ | ⟨req, rfl, passed⟩
    · simp only [Recorder.step, refused]
      exact all
    · simp only [Recorder.step, passed]
      refine ⟨all.waiting, ?_⟩
      have recorded : insert req.header.connectionID s.remembered =
          (s.accepted ++ [req.header.connectionID]).toFinset := by
        rw [all.remembered]
        ext id
        simp
      exact recorded

lemma run (crypto : Crypto Query) (all : s.RemembersAll) (events : List (Event Query)) :
    (events.foldl (Recorder.step crypto) s).RemembersAll := by
  induction events generalizing s with
  | nil => exact all
  | cons event rest ih => exact ih (all.step crypto event)

lemma forgetsOldest (all : s.RemembersAll) : s.ForgetsOldest := by
  intro i j id other last _ forgotten _
  obtain ⟨⟨x, here, rfl⟩, -⟩ := last
  rw [all.remembered, mem_toFinset] at forgotten
  exact absurd (mem_of_getElem? here) forgotten

end RemembersAll

lemma new_remembersAll (maxWriteTimeGap : Int) : (new maxWriteTimeGap).RemembersAll := ⟨rfl, rfl⟩

/-- No eviction is ever pending, and nothing is forgotten: the table is bounded exactly while there
are few enough connections. -/
theorem remembered_bounded_iff (crypto : Crypto Query) (maxWriteTimeGap : Int)
    (events : List (Event Query)) :
    let s := events.foldl (step crypto) (new maxWriteTimeGap)
    s.connSeqEvictCh = [] ∧
      (s.remembered.card ≤ maxRecordedConnectionSequences ∧ s.ForgetsOldest ↔
        s.accepted.toFinset.card ≤ maxRecordedConnectionSequences) := by
  intro s
  have all : s.RemembersAll := (new_remembersAll maxWriteTimeGap).run crypto events
  rw [← all.remembered]
  exact ⟨all.waiting, and_iff_left all.forgetsOldest⟩

def numbered (connID : Nat) : Request Nat :=
  let req := SQLChain.Sample.request 1 5 .writeQuery [5]
  { req with header := { req.header with connectionID := .ofNat connID } }

def visits (n : Nat) : List (Event Nat) := (range n).map fun connID =>
    .check 5 (some (numbered connID))

lemma ofNat_inj {i j : Nat} (first : i < 2 ^ 64) (second : j < 2 ^ 64)
    (same : UInt64.ofNat i = UInt64.ofNat j) : i = j := by
  have numbers := congrArg UInt64.toNat same
  rw [UInt64.toNat_ofNat', UInt64.toNat_ofNat'] at numbers
  omega

lemma visits_accepted (bound : n ≤ 2 ^ 64) :
    let s := (visits n).foldl (step SQLChain.Sample.crypto) (new 0)
    s.accepted = (range n).map UInt64.ofNat ∧ s.db.maxWriteTimeGap = 0 := by
  induction n with
  | zero => exact ⟨rfl, rfl⟩
  | succ n ih =>
    obtain ⟨accepted, gap⟩ := ih (by omega)
    have all := (new_remembersAll 0).run SQLChain.Sample.crypto (visits n)
    rw [visits, range_succ, map_append, foldl_append, ← visits]
    generalize (visits n).foldl (step SQLChain.Sample.crypto) (new 0) = s at accepted gap all
    have fresh : s.db.connSeqs.get (.ofNat n) = none := by
      rw [← Option.not_isSome_iff_eq_none, ← s.db.connSeqs.mem_keys]
      change UInt64.ofNat n ∉ s.remembered
      rw [all.remembered, mem_toFinset, accepted, mem_map]
      rintro ⟨m, below, same⟩
      rw [mem_range] at below
      have := ofNat_inj (by omega) (by omega) same
      omega
    have passed : s.db.check SQLChain.Sample.crypto 5 (some (numbered n)) =
        (s.db.recordSequence (.ofNat n) 1, .ok ()) := by
      have verified : s.db.verifyRequest SQLChain.Sample.crypto 5 (some (numbered n)) =
          .ok (numbered n) := by
        simp only [Database.verifyRequest, gap]
        rfl
      simp only [Database.check, verified, Database.verifySequence]
      rw [show (numbered n).header.connectionID = .ofNat n from rfl, fresh]
      rfl
    simp only [map_singleton, foldl_cons, foldl_nil, step, passed]
    rw [accepted, map_append]
    exact ⟨rfl, gap⟩

theorem remembered_unbounded :
    maxRecordedConnectionSequences <
      ((visits 1001).foldl (step SQLChain.Sample.crypto) (new 0)).remembered.card := by
  have all := (new_remembersAll 0).run SQLChain.Sample.crypto (visits 1001)
  obtain ⟨accepted, -⟩ := visits_accepted (n := 1001) (by omega)
  have distinct : ((range 1001).map UInt64.ofNat).Nodup := by
    refine nodup_range.map_on fun i first j second same => ?_
    rw [mem_range] at first second
    exact ofNat_inj (by omega) (by omega) same
  rw [all.remembered, accepted, toFinset_card_of_nodup distinct]
  simp [maxRecordedConnectionSequences]

end Recorder

end SQLess.Worker
