import Mathlib.Data.List.Basic
import Mathlib.Tactic.Common

/-! Pools of threads over a shared state. -/

namespace Lib

open List

variable {σ τ : Type}

variable {i : Nat}

structure Pool (σ τ : Type) where
  shared : σ
  threads : List τ

def resume (threads : List τ) (i : Nat) (next : List τ) : List τ :=
  threads.take i ++ next ++ threads.drop (i + 1)

lemma mem_resume_next {threads next} {t : τ} (member : t ∈ next) : t ∈ resume threads i next :=
  mem_append_left _ (mem_append_right _ member)

lemma mem_resume {threads next} {t : τ} (member : t ∈ resume threads i next) :
    t ∈ next ∨ t ∈ threads := by
  rcases mem_append.mp member with front | behind
  · rcases mem_append.mp front with before | new
    · exact .inr (mem_of_mem_take before)
    · exact .inl new
  · exact .inr (mem_of_mem_drop behind)

lemma threads_split {t : τ} (found : threads[i]? = some t) :
    threads = threads.take i ++ t :: threads.drop (i + 1) := by
  obtain ⟨bound, rfl⟩ := List.getElem?_eq_some_iff.mp found
  rw [getElem_cons_drop, take_append_drop]

lemma mem_resume_of_ne (next : List τ) (found : threads[i]? = some t)
    (member : other ∈ threads) (different : other ≠ t) : other ∈ resume threads i next := by
  rw [threads_split found] at member
  rcases mem_append.mp member with before | behind
  · exact mem_append_left _ (mem_append_left _ before)
  · rcases mem_cons.mp behind with same | after
    · exact absurd same different
    · exact mem_append_right _ after

lemma resume_perm (next : List τ) (found : threads[i]? = some t) :
    (resume threads i next ++ [t]).Perm (threads ++ next) := by
  have last : (next ++ (threads.drop (i + 1) ++ [t])).Perm (t :: threads.drop (i + 1) ++ next) :=
    (perm_append_comm.append_left next).trans perm_append_comm
  have front := last.append_left (threads.take i)
  rw [← append_assoc, ← append_assoc, ← append_assoc, ← threads_split found]
    at front
  exact front

lemma countP_resume (next : List τ) (test : τ → Bool) (found : threads[i]? = some t) :
    (resume threads i next).countP test + [t].countP test =
      threads.countP test + next.countP test := by
  rw [← countP_append, ← countP_append]
  exact (resume_perm next found).countP_eq test

namespace Pool

def move (action : σ → τ → Option (σ × List τ)) (i : Nat) (pool : Pool σ τ) : Option (Pool σ τ) :=
  match pool.threads[i]? with
  | none => none
  | some t =>
    match action pool.shared t with
    | none => none
    | some (shared, next) => some ⟨shared, resume pool.threads i next⟩

def start (result : σ × List τ) (pool : Pool σ τ) : Pool σ τ :=
  ⟨result.1, pool.threads ++ result.2⟩

lemma move_eq_some {pool pool' : Pool σ τ} (moved : pool.move action i = some pool') :
    ∃ t next, pool.threads[i]? = some t ∧ action pool.shared t = some (pool'.shared, next) ∧
      pool'.threads = resume pool.threads i next := by
  unfold move at moved
  split at moved
  · simp at moved
  · rename_i t found
    split at moved
    · simp at moved
    · rename_i shared next acted
      rw [← Option.some.inj moved]
      exact ⟨t, next, found, acted, rfl⟩

structure Holds (invariant : σ → Prop) (assertion : σ → τ → Prop) (pool : Pool σ τ) : Prop where
  shared : invariant pool.shared
  each : ∀ t ∈ pool.threads, assertion pool.shared t

namespace Holds

variable {invariant : σ → Prop} {assertion : σ → τ → Prop} {pool : Pool σ τ}

lemma resume {next : List τ} (holds : Holds invariant assertion pool) (shared : invariant s)
    (new : ∀ t ∈ next, assertion s t) (stable : ∀ t, assertion pool.shared t → assertion s t) :
    Holds invariant assertion ⟨s, Lib.resume pool.threads i next⟩ := by
  refine ⟨shared, ?_⟩
  intro t member
  rcases mem_resume member with started | kept
  · exact new t started
  · exact stable t (holds.each t kept)

lemma start (holds : Holds invariant assertion pool) (shared : invariant result.1)
    (new : ∀ t ∈ result.2, assertion result.1 t)
    (stable : ∀ t, assertion pool.shared t → assertion result.1 t) :
    Holds invariant assertion (pool.start result) := by
  refine ⟨shared, ?_⟩
  intro t member
  rcases mem_append.mp member with kept | started
  · exact stable t (holds.each t kept)
  · exact new t started

end Holds

end Pool

end Lib
