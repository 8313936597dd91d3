import Mathlib.Data.List.Induction
import Mathlib.Order.Lattice
import Mathlib.Tactic.Common

/-!
Lists with an index that gives for every key the last position at which it stands, and lists that
are cut at a position.
-/

namespace Lib

open List

variable {α κ : Type} (key : α → κ)

def LastAt (items : List α) (k : κ) (n : Nat) : Prop :=
  (∃ x, items[n]? = some x ∧ key x = k) ∧ ∀ m x, n < m → items[m]? = some x → key x ≠ k

def Indexes (items : List α) (lookup : κ → Option Int) : Prop :=
  ∀ k position, lookup k = some position ↔ ∃ n : Nat, position = n ∧ LastAt key items k n

variable {key}

variable {items : List α} {lookup : κ → Option Int}

lemma lastAt_append_self : LastAt key (items ++ [x]) (key x) n ↔ n = items.length := by
  constructor
  · rintro ⟨⟨y, here, -⟩, last⟩
    have below : n < (items ++ [x]).length := (List.getElem?_eq_some_iff.mp here).1
    rw [length_append, length_singleton] at below
    by_contra differs
    exact last items.length x (by omega) (by simp) rfl
  · rintro rfl
    refine ⟨⟨x, by simp, rfl⟩, ?_⟩
    intro m y behind found
    have below : m < (items ++ [x]).length := (List.getElem?_eq_some_iff.mp found).1
    rw [length_append, length_singleton] at below
    omega

lemma lastAt_append_of_ne (other : key x ≠ k) :
    LastAt key (items ++ [x]) k n ↔ LastAt key items k n := by
  -- the new item has another key, so it is neither the last one nor behind it
  have old {m : Nat} {y : α} (found : (items ++ [x])[m]? = some y) (same : key y = k) :
      items[m]? = some y := by
    rcases Nat.lt_or_ge m items.length with inside | behind
    · rwa [List.getElem?_append_left inside] at found
    · rw [List.getElem?_append_right behind, List.getElem?_singleton] at found
      split at found
      · cases found
        exact absurd same other
      · cases found
  have kept {m : Nat} {y : α} (found : items[m]? = some y) : (items ++ [x])[m]? = some y := by
    rw [List.getElem?_append_left (List.getElem?_eq_some_iff.mp found).1, found]
  constructor
  · rintro ⟨⟨y, here, same⟩, last⟩
    exact ⟨⟨y, old here same, same⟩, fun m z behind found => last m z behind (kept found)⟩
  · rintro ⟨⟨y, here, same⟩, last⟩
    exact ⟨⟨y, kept here, same⟩,
      fun m z behind found equal => last m z behind (old found equal) equal⟩

lemma exists_lastAt (key : α → κ) (member : x ∈ items) : ∃ n, LastAt key items (key x) n := by
  induction items using List.reverseRecOn with
  | nil => cases member
  | append_singleton items y ih =>
    by_cases same : key y = key x
    · exact ⟨items.length, same ▸ lastAt_append_self.mpr rfl⟩
    · rw [mem_append, mem_singleton] at member
      rcases member with old | rfl
      · obtain ⟨n, last⟩ := ih old
        exact ⟨n, (lastAt_append_of_ne same).mpr last⟩
      · exact absurd rfl same

lemma Indexes.append [DecidableEq κ] (indexes : Indexes key items lookup) (x : α) :
    Indexes key (items ++ [x]) fun k => if k = key x then some items.length else lookup k := by
  intro k position
  by_cases same : k = key x
  · subst same
    simp [lastAt_append_self, eq_comm]
  · simp only [same, if_false, lastAt_append_of_ne (Ne.symm same)]
    exact indexes k position

lemma Indexes.le_found_iff {i : Nat} (indexes : Indexes key items lookup) :
    (∃ position, lookup k = some position ∧ (i : Int) ≤ position) ↔
      ∃ j x, i ≤ j ∧ items[j]? = some x ∧ key x = k := by
  constructor
  · rintro ⟨position, found, before⟩
    obtain ⟨n, rfl, ⟨x, here, same⟩, -⟩ := (indexes k position).mp found
    exact ⟨n, x, by omega, here, same⟩
  · rintro ⟨j, x, before, here, rfl⟩
    obtain ⟨n, last⟩ := exists_lastAt key (mem_of_getElem? here)
    refine ⟨n, (indexes (key x) n).mpr ⟨n, rfl, last⟩, ?_⟩
    by_contra behind
    exact last.2 j x (by omega) here rfl

lemma lastAt_drop : LastAt key (items.drop n) k m ↔ LastAt key items k (n + m) := by
  simp only [LastAt, List.getElem?_drop]
  refine and_congr_right fun _ => ⟨fun last j x behind found => ?_, fun last j x behind found => ?_⟩
  · have same : n + (j - n) = j := by omega
    exact last (j - n) x (by omega) (same.symm ▸ found)
  · exact last (n + j) x (by omega) found

lemma pairwise_getElem? (ordered : items.Pairwise R) {i j : Nat} (before : i < j)
    (first : items[i]? = some x) (second : items[j]? = some y) : R x y := by
  obtain ⟨inside, rfl⟩ := List.getElem?_eq_some_iff.mp first
  obtain ⟨inside', rfl⟩ := List.getElem?_eq_some_iff.mp second
  exact pairwise_iff_getElem.mp ordered i j inside inside' before

lemma Indexes.drop [LinearOrder κ] {k} {n : Nat} (indexes : Indexes key items lookup)
    (ordered : items.Pairwise fun x y => key x ≤ key y) (found : lookup k = some (n : Int)) :
    Indexes key (items.drop (n + 1)) fun k' =>
      if k < k' then (lookup k').map fun position => position - (n + 1) else none := by
  obtain ⟨n', same, ⟨x, here, at_n⟩, last⟩ := (indexes k n).mp found
  obtain rfl : n = n' := by omega
  intro k' position
  simp only [lastAt_drop]
  by_cases later : k < k'
  · rw [if_pos later, Option.map_eq_some_iff]
    constructor
    · rintro ⟨old, found', rfl⟩
      obtain ⟨m, rfl, lastAt⟩ := (indexes k' old).mp found'
      obtain ⟨y, there, at_m⟩ := lastAt.1
      -- an item in front of the cut has a key that is not larger
      have behind : n < m := by
        by_contra front
        rcases Nat.lt_or_eq_of_le (Nat.not_lt.mp front) with before | equal
        · have := pairwise_getElem? ordered before there here
          rw [at_n, at_m] at this
          exact absurd later (not_lt.mpr this)
        · subst equal
          rw [there] at here
          cases here
          exact absurd later (at_n.symm.trans at_m ▸ lt_irrefl k)
      refine ⟨m - (n + 1), by omega, ?_⟩
      rwa [Nat.add_sub_cancel' behind]
    · rintro ⟨m, rfl, lastAt⟩
      refine ⟨((n + 1 + m : Nat) : Int), (indexes k' _).mpr ⟨n + 1 + m, rfl, lastAt⟩, ?_⟩
      push_cast
      omega
  · rw [if_neg later]
    refine iff_of_false (by simp) ?_
    rintro ⟨m, -, ⟨y, there, at_m⟩, -⟩
    have above := pairwise_getElem? ordered (by omega : n < n + 1 + m) here there
    rw [at_n, at_m] at above
    have equal : k' = k := le_antisymm (not_lt.mp later) above
    exact last (n + 1 + m) y (by omega) there (at_m.trans equal)

lemma drop_eq_filter_iff : items.drop n = items.filter p ↔
      ∀ i x, items[i]? = some x → (p x = true ↔ n ≤ i) := by
  have split : items.filter p = (items.take n).filter p ++ (items.drop n).filter p := by
    rw [← filter_append, take_append_drop]
  constructor
  · intro same i x found
    have kept : (items.drop n).filter p = items.drop n :=
      filter_eq_self.mpr fun y member => (mem_filter.mp (same ▸ member)).2
    have dropped : (items.take n).filter p = [] := by
      rw [split, kept] at same
      exact self_eq_append_left.mp same
    rcases Nat.lt_or_ge i n with front | behind
    · have member : x ∈ items.take n :=
        mem_of_getElem? ((List.getElem?_take_of_lt front).trans found)
      have fails := filter_eq_nil_iff.mp dropped x member
      exact iff_of_false fails (by omega)
    · have member : x ∈ items.drop n := by
        refine mem_of_getElem? (i := i - n) ?_
        rw [List.getElem?_drop, Nat.add_sub_cancel' behind, found]
      exact iff_of_true (filter_eq_self.mp kept x member) behind
  · intro all
    have dropped : (items.take n).filter p = [] := by
      refine filter_eq_nil_iff.mpr fun x member holds => ?_
      obtain ⟨i, found⟩ := mem_iff_getElem?.mp member
      have front : i < n := by
        by_contra behind
        rw [List.getElem?_take_eq_none (Nat.not_lt.mp behind)] at found
        cases found
      rw [List.getElem?_take_of_lt front] at found
      have := (all i x found).mp holds
      omega
    have kept : (items.drop n).filter p = items.drop n := by
      refine filter_eq_self.mpr fun x member => ?_
      obtain ⟨i, found⟩ := mem_iff_getElem?.mp member
      rw [List.getElem?_drop] at found
      exact (all (n + i) x found).mpr (Nat.le_add_right n i)
    rw [split, dropped, kept, nil_append]

end Lib
