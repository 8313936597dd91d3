import Mathlib.Data.List.Basic
import Mathlib.Order.Lattice
import Mathlib.Tactic.Common

/-! Key-value stores that are iterated in the order of their keys. -/

namespace Lib

open List

variable {K V : Type} [LinearOrder K]

variable {key : K} {value : V}

def putEntry (key : K) (value : V) : List (K × V) → List (K × V)
  | [] => [(key, value)]
  | entry :: rest =>
    if key < entry.1 then (key, value) :: entry :: rest
    else if key = entry.1 then (key, value) :: rest
    else entry :: putEntry key value rest

variable {entries : List (K × V)}

lemma mem_putEntry (member : entry ∈ putEntry key value entries) :
    entry = (key, value) ∨ entry ∈ entries := by
  induction entries with
  | nil =>
    rw [putEntry, mem_singleton] at member
    exact .inl member
  | cons first rest ih =>
    rw [putEntry] at member
    by_cases before : key < first.1
    · rw [if_pos before] at member
      exact mem_cons.mp member
    · rw [if_neg before] at member
      by_cases same : key = first.1
      · rw [if_pos same] at member
        exact (mem_cons.mp member).imp_right (mem_cons_of_mem first)
      · rw [if_neg same] at member
        rcases mem_cons.mp member with rfl | behind
        · exact .inr mem_cons_self
        · exact (ih behind).imp_right (mem_cons_of_mem first)

lemma putEntry_ascending (ascending : entries.Pairwise fun left right => left.1 < right.1) :
    (putEntry key value entries).Pairwise fun left right => left.1 < right.1 := by
  induction entries with
  | nil => exact pairwise_singleton _ _
  | cons first rest ih =>
    obtain ⟨least, later⟩ := pairwise_cons.mp ascending
    rw [putEntry]
    by_cases before : key < first.1
    · rw [if_pos before]
      refine pairwise_cons.mpr ⟨?_, ascending⟩
      intro entry member
      rcases mem_cons.mp member with rfl | behind
      · exact before
      · exact before.trans (least entry behind)
    · rw [if_neg before]
      by_cases same : key = first.1
      · rw [if_pos same]
        exact pairwise_cons.mpr ⟨fun entry member => same ▸ least entry member, later⟩
      · rw [if_neg same]
        refine pairwise_cons.mpr ⟨?_, ih later⟩
        intro entry member
        rcases mem_putEntry member with rfl | old
        · exact lt_of_le_of_ne (not_lt.mp before) (Ne.symm same)
        · exact least entry old

lemma putEntry_last (greatest : ∀ entry ∈ entries, entry.1 < key) :
    putEntry key value entries = entries ++ [(key, value)] := by
  induction entries with
  | nil => rfl
  | cons first rest ih =>
    have behind := greatest first mem_cons_self
    rw [putEntry, if_neg behind.le.not_gt, if_neg behind.ne',
      ih fun entry member => greatest entry (mem_cons_of_mem first member)]
    rfl

def findEntry (key : K) (entries : List (K × V)) : Option V :=
  (entries.find? fun entry => entry.1 = key).map Prod.snd

lemma findEntry_putEntry (key other value) (entries : List (K × V)) :
    findEntry other (putEntry key value entries) =
      if other = key then some value else findEntry other entries := by
  induction entries with
  | nil =>
    by_cases same : other = key
    · simp [putEntry, findEntry, same]
    · simp [putEntry, findEntry, same, Ne.symm same]
  | cons first rest ih =>
    rw [putEntry]
    by_cases before : key < first.1
    · by_cases same : other = key
      · simp [findEntry, before, same]
      · simp [findEntry, before, same, Ne.symm same]
    · rw [if_neg before]
      by_cases replaced : key = first.1
      · by_cases same : other = key
        · simp [findEntry, ← replaced, same]
        · simp [findEntry, ← replaced, same, Ne.symm same]
      · rw [if_neg replaced]
        by_cases here : first.1 = other
        · simp [findEntry, here, Ne.symm (here ▸ replaced)]
        · simp only [findEntry, List.find?_cons, here, decide_false] at ih ⊢
          exact ih

lemma findEntry_eq_some (ascending : entries.Pairwise fun left right => left.1 < right.1) :
    findEntry key entries = some value ↔ (key, value) ∈ entries := by
  induction entries with
  | nil => simp [findEntry]
  | cons first rest ih =>
    obtain ⟨least, later⟩ := pairwise_cons.mp ascending
    by_cases here : first.1 = key
    · have behind : (key, value) ∉ rest := fun member => (least _ member).ne here
      simp [findEntry, here, behind, Prod.ext_iff, eq_comm]
    · have other : (key, value) ≠ first := fun same => here (same ▸ rfl)
      simp only [findEntry, List.find?_cons, here, decide_false] at ih ⊢
      rw [ih later, mem_cons, or_iff_right other]

structure OrderedStore (K V : Type) [LinearOrder K] where
  entries : List (K × V)
  ascending : entries.Pairwise fun left right => left.1 < right.1

namespace OrderedStore

def empty : OrderedStore K V := ⟨[], List.Pairwise.nil⟩

variable (store : OrderedStore K V)

def put (key : K) (value : V) : OrderedStore K V :=
  ⟨putEntry key value store.entries, putEntry_ascending store.ascending⟩

def get (key : K) : Option V := findEntry key store.entries

lemma get_put (key other value) :
    (store.put key value).get other = if other = key then some value else store.get other :=
  findEntry_putEntry key other value store.entries

lemma get_eq_some {store : OrderedStore K V} :
    store.get key = some value ↔ (key, value) ∈ store.entries :=
  findEntry_eq_some store.ascending

def values : List V := store.entries.map Prod.snd

lemma mem_values_put {store : OrderedStore K V}
    (member : found ∈ (store.put key value).values) : found = value ∨ found ∈ store.values := by
  obtain ⟨entry, inside, rfl⟩ := mem_map.mp member
  rcases mem_putEntry inside with rfl | old
  · exact .inl rfl
  · exact .inr (mem_map_of_mem old)

end OrderedStore

end Lib
