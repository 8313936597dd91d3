import Mathlib.Data.List.Infix
import Mathlib.Tactic.Common

/-! Records that each name the key of the record before, with growing keys. -/

namespace Lib

open List

variable {α : Type} (key previous : α → Nat)

variable {last : Nat}

def Chained : Nat → List α → Prop
  | _, [] => True
  | last, record :: rest =>
    previous record = last ∧ last < key record ∧ Chained (key record) rest

def tip : Nat → List α → Nat
  | last, [] => last
  | _, record :: rest => tip (key record) rest

@[simp] lemma tip_nil (last) : tip key last [] = last := rfl

lemma tip_append (last left right) :
    tip key last (left ++ right) = tip key (tip key last left) right := by
  induction left generalizing last with
  | nil => rfl
  | cons record rest ih => exact ih (key record)

@[simp] lemma tip_concat (last records) (record : α) :
    tip key last (records ++ [record]) = key record := by
  rw [tip_append]
  rfl

variable {key previous}

lemma chained_append : Chained key previous last (left ++ right) ↔
      Chained key previous last left ∧ Chained key previous (tip key last left) right := by
  induction left generalizing last with
  | nil => simp [Chained]
  | cons record rest ih => simp [Chained, tip, ih, and_assoc]

lemma tip_lt (start : last < bound)
    (below : ∀ record ∈ records, key record < bound) : tip key last records < bound := by
  induction records generalizing last with
  | nil => exact start
  | cons record rest ih =>
    exact ih (below record mem_cons_self) fun other member =>
      below other (mem_cons_of_mem _ member)

lemma Chained.last_le_tip (chained : Chained key previous last records) :
    last ≤ tip key last records := by
  induction records generalizing last with
  | nil => exact Nat.le_refl last
  | cons record rest ih =>
    obtain ⟨-, above, chained⟩ := chained
    have further := ih chained
    simp only [tip]
    omega

lemma Chained.of_mem (chained : Chained key previous last records) (member : record ∈ records) :
    last < key record ∧ previous record < key record ∧ key record ≤ tip key last records := by
  induction records generalizing last with
  | nil => simp at member
  | cons first rest ih =>
    obtain ⟨named, above, chained⟩ := chained
    rcases mem_cons.mp member with rfl | later
    · exact ⟨above, named ▸ above, chained.last_le_tip⟩
    · obtain ⟨higher, own, bound⟩ := ih chained later
      exact ⟨by omega, own, bound⟩

lemma Chained.pairwise (chained : Chained key previous last records) :
    records.Pairwise fun left right => key left < key right := by
  induction records generalizing last with
  | nil => exact .nil
  | cons first rest ih =>
    obtain ⟨-, -, chained⟩ := chained
    exact .cons (fun record later => (chained.of_mem later).1) (ih chained)

lemma Chained.leading (chained : Chained key previous last whole)
    (leading : part <+: whole) : Chained key previous last part := by
  obtain ⟨rest, rfl⟩ := leading
  exact (chained_append.mp chained).1

lemma Chained.next_leading (chained : Chained key previous last whole)
    (leading : part <+: whole) (member : record ∈ whole)
    (named : previous record = tip key last part) : part ++ [record] <+: whole := by
  obtain ⟨rest, rfl⟩ := leading
  obtain ⟨before, after⟩ := chained_append.mp chained
  rcases mem_append.mp member with early | late
  · obtain ⟨-, own, bound⟩ := before.of_mem early
    omega
  · obtain ⟨between, tail, rfl⟩ := append_of_mem late
    obtain ⟨skipped, named', -, -⟩ := chained_append.mp after
    rcases between with _ | ⟨first, more⟩
    · exact ⟨tail, by simp⟩
    · have above := (skipped.of_mem mem_cons_self).1
      have further := (skipped.of_mem mem_cons_self).2.2
      omega

end Lib
