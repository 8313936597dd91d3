import Mathlib.Data.Int.Init
import SQLess.Lib.PositionIndex
import SQLess.Xenomint.StateCore

/-! The pool of `xenomint/pool.go` with its counter, over calls of `enqueue` and `truncate`. -/

namespace SQLess.Xenomint

open List

open Lib (FiniteMap Indexes LastAt run exists_lastAt drop_eq_filter_iff pairwise_getElem?)

variable {Query : Type}

namespace Pool

def matchRequest (p : Pool Query) (sp : Nat) (req : Request Query) : Option Bool :=
  match p.index.get sp with
  | none => some false
  | some pos =>
    if 0 ≤ pos then (p.queries[pos.toNat]?).map fun q => q.req.hash = req.hash else none

def matchLast (p : Pool Query) (sp : Nat) : Bool :=
  match p.index.get sp with
  | none => false
  | some pos => pos = p.queries.length - 1

end Pool

structure CountedPool (Query : Type) extends Pool Query where
  trackerCount : Int32

namespace CountedPool

def newPool : CountedPool Query := ⟨Pool.newPool, 0⟩

def store (pool : Pool Query) : CountedPool Query := ⟨pool, .ofNat pool.queries.length⟩

def enqueue (p : CountedPool Query) (sp : Nat) (q : QueryTracker Query) : CountedPool Query :=
  store (p.toPool.enqueue sp q)

def truncate (p : CountedPool Query) (sp : Nat) : Option (CountedPool Query) :=
  if (p.index.get sp).isNone then some p else (p.toPool.truncate sp).map store

end CountedPool

inductive PoolCall (Query : Type) where
  | enqueue (sp : Nat) (q : QueryTracker Query)
  | truncate (sp : Nat)

namespace PoolCall

def point : PoolCall Query → Option Nat
  | .enqueue sp _ => some sp
  | .truncate _ => none

def step (p : CountedPool Query) : PoolCall Query → Option (CountedPool Query)
  | .enqueue sp q => some (p.enqueue sp q)
  | .truncate sp => p.truncate sp

def hold (held : List (Nat × QueryTracker Query)) : PoolCall Query → List (Nat × QueryTracker Query)
  | .enqueue sp q => held ++ [(sp, q)]
  | .truncate sp => if sp ∈ held.map Prod.fst then held.filter (sp < ·.1) else held

end PoolCall

structure Tracks (p : CountedPool Query) (held : List (Nat × QueryTracker Query)) : Prop where
  queries : p.queries = held.map Prod.snd
  indexes : Indexes Prod.fst held p.index.get
  ordered : held.Pairwise (·.1 ≤ ·.1)
  trackerCount : p.trackerCount = .ofNat held.length

namespace Tracks

variable {p : CountedPool Query} {held : List (Nat × QueryTracker Query)} {sp n : Nat}

lemma new : Tracks (CountedPool.newPool : CountedPool Query) [] where
  queries := rfl
  indexes := by
    intro sp position
    simp [CountedPool.newPool, Pool.newPool, LastAt]
  ordered := .nil
  trackerCount := rfl

variable (tracks : Tracks p held)
include tracks

lemma enqueue (q) (above : ∀ x ∈ held, x.1 ≤ sp) :
    Tracks (p.enqueue sp q) (held ++ [(sp, q)]) where
  queries := by simp [CountedPool.enqueue, CountedPool.store, Pool.enqueue, tracks.queries]
  indexes := by
    intro k position
    have appended := tracks.indexes.append (sp, q) k position
    simpa [CountedPool.enqueue, CountedPool.store, Pool.enqueue, FiniteMap.get_insert,
      tracks.queries] using appended
  ordered := by
    refine pairwise_append.mpr ⟨tracks.ordered, pairwise_singleton _ _, ?_⟩
    intro x member y last
    rw [mem_singleton.mp last]
    exact above x member
  trackerCount := by
    simp [CountedPool.enqueue, CountedPool.store, Pool.enqueue, tracks.queries]

lemma found_iff : (∃ position, p.index.get sp = some position) ↔ sp ∈ held.map Prod.fst := by
  constructor
  · rintro ⟨position, found⟩
    obtain ⟨n, -, ⟨x, here, rfl⟩, -⟩ := (tracks.indexes sp position).mp found
    exact mem_map_of_mem (mem_of_getElem? here)
  · intro known
    obtain ⟨x, member, rfl⟩ := mem_map.mp known
    obtain ⟨n, last⟩ := exists_lastAt Prod.fst member
    exact ⟨n, (tracks.indexes x.1 n).mpr ⟨n, rfl, last⟩⟩

lemma lt_iff_behind (last : LastAt Prod.fst held sp n) (here : held[i]? = some x) :
    sp < x.1 ↔ n + 1 ≤ i := by
  obtain ⟨⟨y, there, rfl⟩, none_behind⟩ := last
  constructor
  · intro larger
    by_contra front
    rcases Nat.lt_or_eq_of_le (Nat.lt_succ_iff.mp (Nat.not_le.mp front)) with before | rfl
    · have := pairwise_getElem? tracks.ordered before here there
      omega
    · cases here.symm.trans there
      omega
  · intro behind
    have above := pairwise_getElem? tracks.ordered behind there here
    have other := none_behind i x behind here
    omega

lemma truncate (sp) :
    ∃ p', p.truncate sp = some p' ∧ Tracks p' (PoolCall.hold held (.truncate sp)) := by
  simp only [CountedPool.truncate, PoolCall.hold]
  cases found : p.index.get sp with
  | none =>
    have absent : sp ∉ held.map Prod.fst := by
      rw [← tracks.found_iff, found]
      simp
    refine ⟨p, by simp, ?_⟩
    rwa [if_neg absent]
  | some position =>
    obtain ⟨n, rfl, last⟩ := (tracks.indexes sp position).mp found
    obtain ⟨x, here, -⟩ := last.1
    have inside : n < held.length := (List.getElem?_eq_some_iff.mp here).1
    have cut : ((n : Int) + 1).toNat = n + 1 := by omega
    have rest : held.drop (n + 1) = held.filter (sp < ·.1) :=
      drop_eq_filter_iff.mpr fun i x here => by simpa using tracks.lt_iff_behind last here
    rw [if_pos (tracks.found_iff.mp ⟨_, found⟩), ← rest]
    simp only [Pool.truncate, found, Option.isNone_some, Bool.false_eq_true, if_false, cut,
      tracks.queries, length_map]
    rw [if_pos (by omega)]
    refine ⟨_, rfl, ?_, ?_, ?_, ?_⟩
    · simp [CountedPool.store]
    · exact tracks.indexes.drop tracks.ordered found
    · exact tracks.ordered.sublist (drop_sublist _ _)
    · simp [CountedPool.store]

lemma run (rising : (calls.filterMap PoolCall.point).Pairwise (· ≤ ·))
    (above : ∀ x ∈ held, ∀ sp ∈ calls.filterMap PoolCall.point, x.1 ≤ sp) :
    ∃ p', Lib.run PoolCall.step calls p = some p' ∧ Tracks p' (calls.foldl PoolCall.hold held) := by
  induction calls generalizing p held with
  | nil => exact ⟨p, rfl, tracks⟩
  | cons call calls ih =>
    cases call with
    | enqueue sp q =>
      simp only [PoolCall.point, filterMap_cons, pairwise_cons] at rising above
      refine ih (tracks.enqueue q fun x member => above x member sp mem_cons_self) rising.2 ?_
      intro x member later known
      rcases mem_append.mp member with old | new
      · exact above x old later (mem_cons_of_mem sp known)
      · rw [mem_singleton.mp new]
        exact rising.1 later known
    | truncate sp =>
      obtain ⟨p', truncated, kept⟩ := tracks.truncate sp
      obtain ⟨after, ran, final⟩ := ih kept rising fun x member => above x (by
        simp only [PoolCall.hold] at member
        split at member
        · exact mem_of_mem_filter member
        · exact member)
      refine ⟨after, ?_, final⟩
      rw [Lib.run, PoolCall.step, truncated]
      exact ran

lemma matchRequest (sp) (req) : ∃ answer, p.matchRequest sp req = some answer ∧ (answer = true ↔
      ∃ n x, LastAt Prod.fst held sp n ∧ held[n]? = some x ∧ x.2.req.hash = req.hash) := by
  unfold Pool.matchRequest
  cases found : p.index.get sp with
  | none =>
    refine ⟨false, rfl, iff_of_false (by simp) ?_⟩
    rintro ⟨n, x, last, -⟩
    rw [(tracks.indexes sp n).mpr ⟨n, rfl, last⟩] at found
    cases found
  | some position =>
    obtain ⟨n, rfl, last⟩ := (tracks.indexes sp position).mp found
    obtain ⟨x, here, -⟩ := last.1
    simp only [tracks.queries, getElem?_map, here, Option.map_some, Int.toNat_natCast]
    refine ⟨_, if_pos (by omega), ?_⟩
    rw [decide_eq_true_eq]
    constructor
    · exact fun same => ⟨n, x, last, here, same⟩
    · rintro ⟨m, y, other, there, same⟩
      have position := (tracks.indexes sp m).mpr ⟨m, rfl, other⟩
      rw [found] at position
      obtain rfl : n = m := by simpa using position
      cases here.symm.trans there
      exact same

lemma matchLast (sp) : p.matchLast sp = true ↔ ∃ x, held.getLast? = some x ∧ x.1 = sp := by
  rw [Pool.matchLast, getLast?_eq_getElem?]
  constructor
  · intro matched
    cases found : p.index.get sp with
    | none => simp [found] at matched
    | some position =>
      obtain ⟨n, rfl, ⟨x, here, same⟩, -⟩ := (tracks.indexes sp position).mp found
      simp only [found, tracks.queries, length_map, decide_eq_true_eq] at matched
      refine ⟨x, ?_, same⟩
      rw [show held.length - 1 = n by omega, here]
  · rintro ⟨x, here, rfl⟩
    have inside : held.length - 1 < held.length := (List.getElem?_eq_some_iff.mp here).1
    have last : LastAt Prod.fst held x.1 (held.length - 1) := by
      refine ⟨⟨x, here, rfl⟩, fun m y behind there => ?_⟩
      have := (List.getElem?_eq_some_iff.mp there).1
      omega
    rw [(tracks.indexes x.1 _).mpr ⟨_, rfl, last⟩]
    simp only [tracks.queries, length_map, decide_eq_true_eq]
    omega

lemma trackerCount_eq_iff : p.trackerCount.toInt = held.length ↔ held.length < 2 ^ 31 := by
  rw [tracks.trackerCount, Int32.toInt_ofNat', Int.bmod_def]
  simp only [Int32.size]
  split <;> omega

end Tracks

/-- Index, matches and counter follow the held queries. -/
theorem pool_tracks (calls : List (PoolCall Query))
    (rising : (calls.filterMap PoolCall.point).Pairwise (· ≤ ·)) :
    ∃ (p : CountedPool Query) (held : List (Nat × QueryTracker Query)),
      run PoolCall.step calls CountedPool.newPool = some p ∧
      held = calls.foldl PoolCall.hold [] ∧ p.queries = held.map Prod.snd ∧
      (∀ sp position, p.index.get sp = some position ↔
        ∃ n : Nat, position = n ∧ LastAt Prod.fst held sp n) ∧
      (∀ sp req, ∃ answer, p.matchRequest sp req = some answer ∧ (answer = true ↔
        ∃ n x, LastAt Prod.fst held sp n ∧ held[n]? = some x ∧ x.2.req.hash = req.hash)) ∧
      (∀ sp, p.matchLast sp = true ↔ ∃ x, held.getLast? = some x ∧ x.1 = sp) ∧
      (p.trackerCount.toInt = held.length ↔ held.length < 2 ^ 31) := by
  obtain ⟨p, ran, tracks⟩ := Tracks.new.run rising nofun
  exact ⟨p, _, ran, rfl, tracks.queries, tracks.indexes, tracks.matchRequest, tracks.matchLast,
    tracks.trackerCount_eq_iff⟩

def tracker : QueryTracker Nat := ⟨⟨0, .writeQuery, [0]⟩, ⟨0, 0, 0, 0, 0⟩⟩

theorem pool_tracks_truncated :
    ∃ p : CountedPool Nat, run PoolCall.step [.enqueue 1 tracker, .enqueue 1 tracker,
        .enqueue 2 tracker, .truncate 1] CountedPool.newPool = some p ∧
      p.queries = [tracker] ∧ p.trackerCount.toInt = 1 := by
  obtain ⟨p, held, ran, rfl, queries, -, -, -, counted⟩ := pool_tracks [.enqueue 1 tracker,
    .enqueue 1 tracker, .enqueue 2 tracker, .truncate 1] (by decide)
  exact ⟨p, ran, queries, counted.mpr (by decide)⟩

lemma foldl_hold_replicate (sp n : Nat) (q : QueryTracker Query)
    (held : List (Nat × QueryTracker Query)) :
    (replicate n (.enqueue sp q)).foldl PoolCall.hold held = held ++ replicate n (sp, q) := by
  induction n generalizing held with
  | zero => simp
  | succ n ih => simp [replicate_succ, PoolCall.hold, ih]

theorem pool_count_wraps :
    ∃ p : CountedPool Nat, run PoolCall.step (replicate (2 ^ 31) (.enqueue 0 tracker))
        CountedPool.newPool = some p ∧
      p.queries.length = 2 ^ 31 ∧ p.trackerCount.toInt ≠ p.queries.length := by
  have level : ((replicate (2 ^ 31) (PoolCall.enqueue 0 tracker)).filterMap
      PoolCall.point).Pairwise (· ≤ ·) := by
    rw [filterMap_replicate_of_some (f := PoolCall.point) (b := 0) rfl]
    exact pairwise_replicate.mpr (.inr le_rfl)
  obtain ⟨p, ran, tracks⟩ := Tracks.new.run level nofun
  rw [foldl_hold_replicate, nil_append] at tracks
  have size : p.queries.length = 2 ^ 31 := by
    rw [tracks.queries, length_map, length_replicate]
  refine ⟨p, ran, size, fun same => ?_⟩
  have fits := tracks.trackerCount_eq_iff.mp (by rw [same, tracks.queries, length_map])
  rw [length_replicate] at fits
  exact absurd fits (Nat.lt_irrefl _)

end SQLess.Xenomint
