import Mathlib.Algebra.BigOperators.Group.Finset.Basic
import Mathlib.Data.Finset.Basic
import Mathlib.Tactic.Linarith

/-! Finite maps with extensional equality: a lookup function with the finite set of its keys. -/

namespace Lib

open Finset

structure FiniteMap (K V : Type) where
  get : K → Option V
  keys : Finset K
  mem_keys : ∀ key, key ∈ keys ↔ (get key).isSome

namespace FiniteMap

variable {K V : Type}

@[ext] lemma ext {left right : FiniteMap K V}
    (same : ∀ key, left.get key = right.get key) : left = right := by
  obtain ⟨leftGet, leftKeys, leftMem⟩ := left
  obtain ⟨rightGet, rightKeys, rightMem⟩ := right
  have getEq : leftGet = rightGet := funext same
  subst getEq
  have keysEq : leftKeys = rightKeys := by
    apply Finset.ext
    intro key
    rw [leftMem, rightMem]
  subst keysEq
  rfl

lemma mem_keys_of_get {map : FiniteMap K V} (found : map.get key = some value) :
    key ∈ map.keys := by
  rw [map.mem_keys, found]
  rfl

def empty : FiniteMap K V where
  get _ := none
  keys := ∅
  mem_keys := by simp

instance : EmptyCollection (FiniteMap K V) := ⟨empty⟩

@[simp] lemma get_empty (key) : (∅ : FiniteMap K V).get key = none := rfl

@[simp] lemma keys_empty : (∅ : FiniteMap K V).keys = ∅ := rfl

def filter (map : FiniteMap K V) (keep : K → V → Bool) : FiniteMap K V where
  get query := (map.get query).filter (keep query)
  keys := map.keys.filter fun key => ((map.get key).filter (keep key)).isSome
  mem_keys := by
    intro query
    rw [Finset.mem_filter, map.mem_keys]
    cases found : map.get query <;> simp

@[simp] lemma get_filter (map : FiniteMap K V) (keep query) :
    (map.filter keep).get query = (map.get query).filter (keep query) := rfl

def map {W : Type} (map : FiniteMap K V) (change : V → W) : FiniteMap K W where
  get query := (map.get query).map change
  keys := map.keys
  mem_keys := by simp [map.mem_keys]

@[simp] lemma get_map (entries : FiniteMap K V) (change : V → W) (query) :
    (entries.map change).get query = (entries.get query).map change := rfl

def values (map : FiniteMap K V) : Multiset V :=
  map.keys.val.filterMap map.get

lemma mem_values {map : FiniteMap K V} : value ∈ map.values ↔ ∃ key, map.get key = some value := by
  simp only [values, Multiset.mem_filterMap]
  constructor
  · rintro ⟨key, _, found⟩
    exact ⟨key, found⟩
  · rintro ⟨key, found⟩
    exact ⟨key, mem_keys_of_get found, found⟩

lemma values_nodup {map : FiniteMap K V}
    (injective : ∀ left right value, map.get left = some value → map.get right = some value →
      left = right) : map.values.Nodup :=
  Multiset.Nodup.filterMap map.get injective map.keys.nodup

def sum (map : FiniteMap K V) (measure : V → Nat) : Nat :=
  ∑ key ∈ map.keys, (map.get key).elim 0 measure

lemma sum_eq_of_subset (map : FiniteMap K V) (measure) {keys} (covered : map.keys ⊆ keys) :
    map.sum measure = ∑ key ∈ keys, (map.get key).elim 0 measure := by
  apply sum_subset covered
  intro key _ missing
  have absent : map.get key = none := by
    rw [map.mem_keys] at missing
    simpa using missing
  simp [absent]

variable [DecidableEq K]

def insert (map : FiniteMap K V) (key : K) (value : V) : FiniteMap K V where
  get query := if query = key then some value else map.get query
  keys := Insert.insert key map.keys
  mem_keys := by
    intro query
    by_cases same : query = key
    · simp [same]
    · simp [same, map.mem_keys]

def erase (map : FiniteMap K V) (key : K) : FiniteMap K V where
  get query := if query = key then none else map.get query
  keys := map.keys.erase key
  mem_keys := by
    intro query
    by_cases same : query = key
    · simp [same]
    · simp [same, map.mem_keys]

def eraseAll (map : FiniteMap K V) (keys : List K) : FiniteMap K V :=
  keys.foldl erase map

variable (top : FiniteMap K (Option V)) (base : FiniteMap K V)

def overlay : FiniteMap K V where
  get query :=
    match top.get query with
    | some entry => entry
    | none => base.get query
  keys := (top.keys ∪ base.keys).filter fun key =>
    (match top.get key with
    | some entry => entry
    | none => base.get key).isSome
  mem_keys := by
    intro query
    rw [Finset.mem_filter, Finset.mem_union, top.mem_keys, base.mem_keys]
    cases top.get query <;> simp

def peek (query : K) : Option V :=
  match top.get query with
  | some (some value) => some value
  | _ => base.get query

def Hides (query : K) : Prop :=
  top.get query = some none ∧ base.get query ≠ none

@[simp] lemma get_insert (map : FiniteMap K V) (key query value) :
    (map.insert key value).get query = if query = key then some value else map.get query := rfl

lemma map_insert (entries : FiniteMap K V) (change : V → W) (key value) :
    (entries.insert key value).map change = (entries.map change).insert key (change value) := by
  apply ext
  intro query
  by_cases same : query = key <;> simp [same]

lemma insert_of_get {map : FiniteMap K V} (found : map.get key = some value) :
    map.insert key value = map := by
  apply ext
  intro query
  by_cases same : query = key
  · simp [same, found]
  · simp [same]

lemma insert_shadow (map : FiniteMap K V) (key other value between later) :
    ((map.insert key value).insert other between).insert key later =
      (map.insert other between).insert key later := by
  apply ext
  intro query
  by_cases same : query = key <;> simp [same]

lemma values_singleton (key value) : ((∅ : FiniteMap K V).insert key value).values = {value} := by
  simp only [values, insert, keys_empty, insert_empty_eq, singleton_val, get_empty]
  have listed : (if key = key then some value else none) = some value := if_pos rfl
  exact Multiset.filterMap_cons_some _ key 0 listed

@[simp] lemma get_erase (map : FiniteMap K V) (key query) :
    (map.erase key).get query = if query = key then none else map.get query := rfl

lemma get_overlay (query) :
    (overlay top base).get query = ((top.get query).elim (base.get query) id) := by
  simp only [overlay]
  cases top.get query <;> rfl

lemma peek_eq_overlay_iff {top} {base : FiniteMap K V} :
    peek top base query = (overlay top base).get query ↔ ¬Hides top base query := by
  rw [get_overlay, peek, Hides]
  rcases top.get query with _ | _ | value <;> simp

lemma get_eraseAll (map : FiniteMap K V) (keys query) :
    (map.eraseAll keys).get query = if query ∈ keys then none else map.get query := by
  induction keys generalizing map with
  | nil => simp [eraseAll]
  | cons key rest ih =>
    have tail := ih (map.erase key)
    simp only [eraseAll, List.foldl_cons] at tail ⊢
    rw [tail]
    by_cases later : query ∈ rest
    · simp [later]
    · by_cases same : query = key <;> simp [later, same]

@[simp] lemma overlay_empty : overlay ∅ base = base := by
  apply ext
  intro key
  simp [get_overlay]

lemma overlay_insert (key : K) (value) :
    overlay (top.insert key (some value)) base = (overlay top base).insert key value := by
  apply ext
  intro query
  by_cases same : query = key <;> simp [get_overlay, same]

lemma overlay_insert_base {top base} {key : K} {value : V} (absent : top.get key = none) :
    overlay top (base.insert key value) = (overlay top base).insert key value := by
  apply ext
  intro query
  by_cases same : query = key
  · simp [get_overlay, same, absent]
  · simp [get_overlay, same]

lemma overlay_delete (key : K) :
    overlay (top.insert key none) base = (overlay top base).erase key := by
  apply ext
  intro query
  by_cases same : query = key <;> simp [get_overlay, same]

lemma card_insert {map : FiniteMap K V} (value) (absent : map.get key = none) :
    (map.insert key value).keys.card = map.keys.card + 1 := by
  apply card_insert_of_notMem
  rw [map.mem_keys, absent]
  simp

lemma card_erase {map : FiniteMap K V} (found : map.get key = some value) :
    (map.erase key).keys.card + 1 = map.keys.card :=
  card_erase_add_one (mem_keys_of_get found)

lemma sum_insert (map : FiniteMap K V) (measure key value) :
    (map.insert key value).sum measure + (map.get key).elim 0 measure =
      map.sum measure + measure value := by
  have after := sum_eq_of_subset (map.insert key value) measure
    (Finset.Subset.refl (Insert.insert key map.keys))
  have before := sum_eq_of_subset map measure (subset_insert key map.keys)
  have member : key ∈ Insert.insert key map.keys := mem_insert_self key map.keys
  rw [after, before, ← add_sum_erase _ _ member, ← add_sum_erase _ _ member]
  have rest : ∑ query ∈ (Insert.insert key map.keys).erase key,
        ((map.insert key value).get query).elim 0 measure =
      ∑ query ∈ (Insert.insert key map.keys).erase key, (map.get query).elim 0 measure := by
    apply sum_congr rfl
    intro query member
    simp [ne_of_mem_erase member]
  rw [rest]
  simp
  omega

lemma sum_erase (map : FiniteMap K V) (measure key) :
    (map.erase key).sum measure + (map.get key).elim 0 measure = map.sum measure := by
  by_cases member : key ∈ map.keys
  · have before := add_sum_erase map.keys
      (fun query => (map.get query).elim 0 measure) member
    have rest : (map.erase key).sum measure =
        ∑ query ∈ map.keys.erase key, (map.get query).elim 0 measure := by
      apply sum_congr rfl
      intro query inside
      simp [ne_of_mem_erase inside]
    rw [rest]
    simp only [sum]
    omega
  · have absent : map.get key = none := by
      rw [map.mem_keys] at member
      simpa using member
    have same : map.erase key = map := by
      apply ext
      intro query
      by_cases equal : query = key <;> simp [equal, absent]
    simp [same, absent]

lemma sum_eraseAll (map : FiniteMap K V) (measure keys) :
    (map.eraseAll keys).sum measure + ∑ key ∈ keys.toFinset, (map.get key).elim 0 measure =
      map.sum measure := by
  induction keys with
  | nil =>
    have same : map.eraseAll [] = map := by
      apply ext
      simp [get_eraseAll]
    simp [same]
  | cons key rest ih =>
    by_cases later : key ∈ rest
    · have same : map.eraseAll (key :: rest) = map.eraseAll rest := by
        apply ext
        intro query
        by_cases equal : query = key <;> simp [get_eraseAll, equal, later]
      rw [same, List.toFinset_cons, insert_eq_of_mem (List.mem_toFinset.mpr later), ih]
    · have same : map.eraseAll (key :: rest) = (map.eraseAll rest).erase key := by
        apply ext
        intro query
        by_cases equal : query = key <;> simp [get_eraseAll, equal]
      have once := sum_erase (map.eraseAll rest) measure key
      rw [get_eraseAll, if_neg later] at once
      rw [same, List.toFinset_cons, Finset.sum_insert (by simpa using later)]
      omega

end FiniteMap

end Lib
