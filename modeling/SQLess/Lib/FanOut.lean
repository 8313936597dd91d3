import Mathlib.Data.List.Range
import Mathlib.Tactic.Common

/-!
Calls in parallel, one on each of some objects that share nothing, with a slot for each result.
-/

namespace Lib

open List

variable {α ρ : Type}

structure Calls (α ρ : Type) where
  objects : List α
  slots : List ρ
  trace : List (Nat × ρ)

def Calls.step (call : α → α × ρ) (s : Calls α ρ) (i : Nat) : Calls α ρ :=
  match s.objects[i]? with
  | none => s
  | some x =>
    { objects := s.objects.set i (call x).1
      slots := s.slots.set i (call x).2
      trace := s.trace ++ [(i, (call x).2)] }

structure Order (n : Nat) where
  indices : List Nat
  all : indices.Perm (List.range n)

lemma Order.nodup (order : Order n) : order.indices.Nodup :=
  order.all.nodup_iff.mpr nodup_range

lemma Order.mem_iff (order : Order n) : i ∈ order.indices ↔ i < n := by
  rw [order.all.mem_iff, mem_range]

def Order.cast {n k : Nat} (order : Order n) (same : k = n) : Order k :=
  ⟨order.indices, same ▸ order.all⟩

def Order.listed (n : Nat) : Order n := ⟨List.range n, .refl _⟩

def fanOut (call : α → α × ρ) (blank : ρ) (objects : List α) (order : List Nat) : Calls α ρ :=
  order.foldl (Calls.step call) ⟨objects, List.replicate objects.length blank, []⟩

section

variable {call : α → α × ρ}

variable (s : Calls α ρ)

lemma Calls.step_length (i) : (s.step call i).objects.length = s.objects.length ∧
      (s.step call i).slots.length = s.slots.length := by
  unfold step
  cases s.objects[i]? with
  | none => exact ⟨rfl, rfl⟩
  | some => simp

lemma Calls.step_other (other : j ≠ i) :
    (s.step call i).objects[j]? = s.objects[j]? ∧ (s.step call i).slots[j]? = s.slots[j]? := by
  unfold step
  cases s.objects[i]? with
  | none => exact ⟨rfl, rfl⟩
  | some => simp [List.getElem?_set_ne (Ne.symm other)]

lemma Calls.step_here (sized : s.slots.length = s.objects.length) (i) :
    (s.step call i).objects[i]? = s.objects[i]?.map (fun x => (call x).1) ∧
      (s.step call i).slots[i]? = s.objects[i]?.map fun x => (call x).2 := by
  unfold step
  cases found : s.objects[i]? with
  | none =>
    have past : s.slots.length ≤ i := by
      rw [sized]
      exact List.getElem?_eq_none_iff.mp found
    simp [found, past]
  | some =>
    have inside : i < s.objects.length := (List.getElem?_eq_some_iff.mp found).choose
    simp [inside, sized]

lemma Calls.foldl_step (sized : s.slots.length = s.objects.length) {order : List Nat}
    (once : order.Nodup) (j) : (order.foldl (step call) s).objects[j]? =
        (if j ∈ order then s.objects[j]?.map fun x => (call x).1 else s.objects[j]?) ∧
      (order.foldl (step call) s).slots[j]? =
        (if j ∈ order then s.objects[j]?.map fun x => (call x).2 else s.slots[j]?) := by
  induction order generalizing s with
  | nil => simp
  | cons i rest ih =>
    obtain ⟨new, once⟩ := nodup_cons.mp once
    have later := ih (s.step call i)
      ((step_length s i).2.trans (sized.trans (step_length s i).1.symm)) once
    rw [foldl_cons, later.1, later.2]
    by_cases here : j = i
    · subst here
      simp [new, step_here s sized]
    · simp [here, step_other s here]

lemma Calls.trace_step {order : List Nat} (once : order.Nodup) : (order.foldl (step call) s).trace =
      s.trace ++ order.filterMap fun i => s.objects[i]?.map fun x => (i, (call x).2) := by
  induction order generalizing s with
  | nil => simp
  | cons i rest ih =>
    obtain ⟨new, once⟩ := nodup_cons.mp once
    have same : ∀ j ∈ rest, (s.step call i).objects[j]? = s.objects[j]? :=
      fun j mem => (step_other s (ne_of_mem_of_not_mem mem new)).1
    rw [foldl_cons, ih (s.step call i) once]
    have later : (rest.filterMap fun j => (s.step call i).objects[j]?.map
        fun x => (j, (call x).2)) =
        rest.filterMap fun j => s.objects[j]?.map fun x => (j, (call x).2) :=
      filterMap_congr fun j mem => by rw [same j mem]
    rw [later]
    unfold step
    cases found : s.objects[i]? with
    | none | some x => simp [found]

variable {objects : List α} {blank : ρ} (order : Order objects.length)

lemma fanOut_objects : (fanOut call blank objects order.indices).objects =
    objects.map fun x => (call x).1 := by
  refine ext_getElem? fun j => ?_
  rw [fanOut, (Calls.foldl_step _ (by simp) order.nodup j).1, List.getElem?_map]
  by_cases inside : j < objects.length
  · rw [if_pos (order.mem_iff.mpr inside)]
  · rw [if_neg fun mem => inside (order.mem_iff.mp mem)]
    simp [not_lt.mp inside]

lemma fanOut_slots : (fanOut call blank objects order.indices).slots =
    objects.map fun x => (call x).2 := by
  refine ext_getElem? fun j => ?_
  rw [fanOut, (Calls.foldl_step _ (by simp) order.nodup j).2, List.getElem?_map]
  by_cases inside : j < objects.length
  · rw [if_pos (order.mem_iff.mpr inside)]
  · rw [if_neg fun mem => inside (order.mem_iff.mp mem)]
    simp [not_lt.mp inside]

lemma mem_fanOut_trace : (i, result) ∈ (fanOut call blank objects order.indices).trace ↔
      ∃ x, objects[i]? = some x ∧ (call x).2 = result := by
  rw [fanOut, Calls.trace_step _ order.nodup, nil_append, mem_filterMap]
  constructor
  · rintro ⟨j, -, called⟩
    obtain ⟨x, found, same⟩ := Option.map_eq_some_iff.mp called
    cases same
    exact ⟨x, found, rfl⟩
  · rintro ⟨x, found, rfl⟩
    have inside : i < objects.length := (List.getElem?_eq_some_iff.mp found).choose
    exact ⟨i, order.mem_iff.mpr inside, by simp [found]⟩

end

end Lib
