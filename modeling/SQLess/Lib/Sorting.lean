import Mathlib.Data.Multiset.Filter
import Mathlib.Order.Basic

/-! Lists that a sort by a key leaves, with equal keys in any order. -/

namespace Lib

open List Option

variable {α β : Type} [LinearOrder β]

def Arranged (key : α → β) (list : List α) : Prop :=
  list.Pairwise fun left right => ¬key right < key left

namespace Arranged

variable {key : α → β} {list list' : List α}

lemma map_eq (perm : list.Perm list') (arranged : Arranged key list)
    (arranged' : Arranged key list') : list.map key = list'.map key := by
  have sorted : (list.map key).Pairwise (· ≤ ·) := pairwise_map.mpr (arranged.imp not_lt.mp)
  have sorted' : (list'.map key).Pairwise (· ≤ ·) :=
    pairwise_map.mpr (arranged'.imp not_lt.mp)
  exact (perm.map key).eq_of_pairwise (fun _ _ _ _ => le_antisymm) sorted sorted'

lemma smaller_length (arranged : Arranged key list) (placed : list[index]? = some value) :
    (list.filter fun other => key other < key value).length ≤ index := by
  have split := take_append_drop index list
  have behind : (list.drop index).filter (fun other => key other < key value) = [] := by
    rw [filter_eq_nil_iff]
    intro other member
    obtain ⟨offset, found⟩ := mem_iff_getElem?.mp member
    rw [List.getElem?_drop] at found
    simp only [decide_eq_true_eq]
    rcases Nat.eq_zero_or_pos offset with rfl | later
    · rw [Nat.add_zero, placed, Option.some.injEq] at found
      exact found ▸ lt_irrefl _
    · obtain ⟨inside, rfl⟩ := List.getElem?_eq_some_iff.mp placed
      obtain ⟨inside', rfl⟩ := List.getElem?_eq_some_iff.mp found
      exact pairwise_iff_getElem.mp arranged index (index + offset) inside inside' (by omega)
  rw [← split, filter_append, behind, append_nil]
  exact (length_filter_le _ _).trans (length_take_le index list)

lemma take_eq (perm : list.Perm list') (arranged : Arranged key list)
    (arranged' : Arranged key list') {count}
    (behind : ∀ left ∈ list, ∀ right ∈ list, key left = key right → left ≠ right → count ≤
      (list.filter fun other => key other < key left).length) :
    list.take count = list'.take count := by
  apply ext_getElem?
  intro index
  rw [List.getElem?_take, List.getElem?_take]
  split
  · rename_i early
    have keys := congrArg (fun keys => keys[index]?) (map_eq perm arranged arranged')
    simp only [List.getElem?_map] at keys
    rcases here : list[index]? with _ | left
    · rw [here, map_none, eq_comm, map_eq_none_iff] at keys
      rw [keys]
    · rw [here, map_some, eq_comm, map_eq_some_iff] at keys
      obtain ⟨right, there, same⟩ := keys
      rw [there, Option.some.injEq]
      by_contra different
      have member := mem_of_getElem? here
      have member' := perm.mem_iff.mpr (mem_of_getElem? there)
      have before := behind left member right member' same.symm different
      have bound := smaller_length arranged here
      omega
  · rfl

end Arranged

section

variable [DecidableEq α]

def preferring (key : α → β) (first left right : α) : Bool :=
  key left < key right || (key left = key right && (right ≠ first || left = first))

variable {key : α → β} {first : α}

lemma preferring_iff : preferring key first left right = true ↔
      key left < key right ∨ (key left = key right ∧ (right ≠ first ∨ left = first)) := by
  simp [preferring]

lemma not_lt_of_preferring (ordered : preferring key first left right = true) :
    ¬key right < key left := by
  rcases preferring_iff.mp ordered with less | ⟨same, -⟩
  · exact not_lt.mpr less.le
  · exact not_lt.mpr same.le

lemma preferring_sorted (list : List α) :
    (list.mergeSort (preferring key first)).Pairwise fun left right =>
      preferring key first left right = true := by
  apply pairwise_mergeSort
  · intro left middle right before after
    rw [preferring_iff] at before after ⊢
    rcases before with before | ⟨before, kept⟩
    · rcases after with after | ⟨after, -⟩
      · exact .inl (before.trans after)
      · exact .inl (after ▸ before)
    · rcases after with after | ⟨after, kept'⟩
      · exact .inl (before ▸ after)
      · refine .inr ⟨before.trans after, ?_⟩
        rcases kept' with other | rfl
        · exact .inl other
        · rcases kept with other | same
          · exact absurd rfl other
          · exact .inr same
  · intro left right
    rw [Bool.or_eq_true, preferring_iff, preferring_iff]
    rcases lt_trichotomy (key left) (key right) with less | same | greater
    · exact .inl (.inl less)
    · by_cases chosen : right = first
      · exact .inr (.inr ⟨same.symm, .inr chosen⟩)
      · exact .inl (.inr ⟨same, .inl chosen⟩)
    · exact .inr (.inl greater)

lemma preferring_arranged (list : List α) : Arranged key (list.mergeSort (preferring key first)) :=
  (preferring_sorted list).imp not_lt_of_preferring

lemma preferring_place {list : List α} (member : first ∈ list)
    (sorted : list.Pairwise fun left right => preferring key first left right = true) :
    list[(list.filter fun other => key other < key first).length]? = some first := by
  induction list with
  | nil => simp at member
  | cons head tail ih =>
    obtain ⟨ahead, rest⟩ := pairwise_cons.mp sorted
    by_cases smaller : key head < key first
    · have later : first ∈ tail := by
        rcases mem_cons.mp member with rfl | later
        · exact absurd smaller (lt_irrefl _)
        · exact later
      rw [filter_cons_of_pos (by simpa using smaller), length_cons,
        List.getElem?_cons_succ]
      exact ih later rest
    · have here : head = first := by
        rcases mem_cons.mp member with same | later
        · exact same.symm
        · rcases preferring_iff.mp (ahead first later) with less | ⟨-, other | same⟩
          · exact absurd less smaller
          · exact absurd rfl other
          · exact same
      subst here
      have none : (head :: tail).filter (fun other => key other < key head) = [] := by
        rw [filter_eq_nil_iff]
        intro other listed
        simp only [decide_eq_true_eq]
        rcases mem_cons.mp listed with rfl | listed
        · exact lt_irrefl _
        · exact not_lt_of_preferring (ahead other listed)
      rw [none]
      rfl

end

/-- All arrangements of the elements have the same first `count` entries exactly if no two of
these could be exchanged: elements with equal keys have at least `count` elements before them. -/
lemma arrangements_agree_iff [DecidableEq α] {key : α → β} {elements count} :
    (∀ list list' : List α, (list : Multiset α) = elements → (list' : Multiset α) = elements →
      Arranged key list → Arranged key list' → list.take count = list'.take count) ↔
    ∀ left ∈ elements, ∀ right ∈ elements, key left = key right → left ≠ right →
      count ≤ (elements.filter fun other => key other < key left).card := by
  constructor
  · intro agree left member right member' same different
    by_contra early
    obtain ⟨list, rfl⟩ := Quotient.exists_rep elements
    have perm : ∀ first, (list.mergeSort (preferring key first)).Perm list :=
      fun first => mergeSort_perm list _
    have place : ∀ first ∈ list, (list.mergeSort (preferring key first))[
        (list.filter fun other => key other < key first).length]? = some first := by
      intro first member
      have placed := preferring_place ((perm first).mem_iff.mpr member) (preferring_sorted list)
      rw [((perm first).filter _).length_eq] at placed
      exact placed
    have equal := congrArg
      (fun sorted => sorted[(list.filter fun other => key other < key left).length]?)
      (agree _ _ (Multiset.coe_eq_coe.mpr (perm left)) (Multiset.coe_eq_coe.mpr (perm right))
        (preferring_arranged list) (preferring_arranged list))
    have inside : (list.filter fun other => key other < key left).length < count :=
      Nat.not_le.mp early
    simp only [List.getElem?_take, inside, if_true, place left member] at equal
    rw [same, place right member'] at equal
    exact different (Option.some.inj equal)
  · rintro behind list list' rfl listed arranged arranged'
    refine Arranged.take_eq (Multiset.coe_eq_coe.mp listed.symm) arranged arranged' ?_
    intro left member right member' same different
    have bound := behind left member right member' same different
    rw [Multiset.filter_coe, Multiset.coe_card] at bound
    exact bound

end Lib
