import Mathlib.Algebra.Ring.Nat
import Mathlib.Data.List.Induction
import Mathlib.Data.List.Nodup

/-!
Trees in which neighbours are merged level by level, the last one with itself if it has no
neighbour.
-/

namespace Lib

open List

variable {α : Type}

def couples : List α → List (α × α)
  | [] => []
  | [last] => [(last, last)]
  | left :: right :: rest => (left, right) :: couples rest

def level (merge : α → α → α) (nodes : List α) : List α :=
  (couples nodes).map fun p => merge p.1 p.2

def levels (merge : α → α → α) : Nat → List α → List α
  | 0, leaves => leaves
  | height + 1, leaves => level merge (levels merge height leaves)

def merged (merge : α → α → α) : Nat → List α → List (α × α)
  | 0, _ => []
  | height + 1, leaves => merged merge height leaves ++ couples (levels merge height leaves)

def CollisionFree (merge : α → α → α) (pairs : List (α × α)) : Prop :=
  ∀ p ∈ pairs, ∀ q ∈ pairs, merge p.1 p.2 = merge q.1 q.2 → p = q

lemma CollisionFree.mono {merge} {pairs some : List (α × α)} (free : CollisionFree merge pairs)
    (sub : some ⊆ pairs) : CollisionFree merge some :=
  fun p mem q mem' => free p (sub mem) q (sub mem')

lemma map_eq_of_map_eq {f : α → β} {g : α → γ} {left right : List α}
    (determines : ∀ x ∈ left, ∀ y ∈ right, f x = f y → g x = g y)
    (same : left.map f = right.map f) : left.map g = right.map g := by
  induction left generalizing right with
  | nil => rw [map_eq_nil_iff.mp same.symm]
  | cons x rest ih =>
    obtain ⟨y, rest', rfl, value, tail⟩ := map_eq_cons_iff.mp same.symm
    have head : g x = g y := determines x (by simp) y (by simp) value.symm
    have later : rest.map g = rest'.map g :=
      ih (fun x mem y mem' => determines x (by simp [mem]) y (by simp [mem'])) tail.symm
    rw [map_cons, map_cons, head, later]

lemma couples_subset (nodes : List α) : ∀ p ∈ couples nodes, p.1 ∈ nodes ∧ p.2 ∈ nodes := by
  induction nodes using List.twoStepInduction with
  | nil => simp [couples]
  | singleton => simp [couples]
  | cons_cons left right rest ih =>
    intro p member
    rcases mem_cons.mp member with rfl | later
    · simp
    · simp [ih p later]

section

variable {merge : α → α → α} {leaves leaves' : List α}

lemma length_level (merge : α → α → α) (nodes) :
    (level merge nodes).length = (nodes.length + 1) / 2 := by
  induction nodes using List.twoStepInduction with
  | nil | singleton last => simp [level, couples]
  | cons_cons left right rest ih =>
    simp only [level, couples, map_cons, length_cons, length_map] at ih ⊢
    omega

lemma levels_level (merge : α → α → α) (height nodes) :
    levels merge height (level merge nodes) = levels merge (height + 1) nodes := by
  induction height with
  | zero => rfl
  | succ height ih => rw [levels, ih, ← levels]

lemma couples_map (f : α → β) (nodes) :
    couples (nodes.map f) = (couples nodes).map (Prod.map f f) := by
  induction nodes using List.twoStepInduction with
  | nil | singleton last => rfl
  | cons_cons left right rest ih => simp only [map_cons, couples, ih, Prod.map]

lemma levels_map (merge' : β → β → β) {f : α → β}
    (natural : ∀ x y, f (merge x y) = merge' (f x) (f y)) :
    levels merge' height (leaves.map f) = (levels merge height leaves).map f := by
  induction height with
  | zero => rfl
  | succ height ih => simp [levels, level, ih, couples_map, natural, Function.comp_def]

/-- The leaves below each node of a level, those of a node without a neighbour twice. -/
def nodeLeaves (height : Nat) (leaves : List α) : List (List α) :=
  levels (· ++ ·) height (leaves.map fun leaf => [leaf])

def covering (merge : α → α → α) (height : Nat) (leaves : List α) : List (α × List α) :=
  levels (fun p q => (merge p.1 q.1, p.2 ++ q.2)) height (leaves.map fun leaf => (leaf, [leaf]))

lemma covering_fst (merge : α → α → α) (height leaves) :
    (covering merge height leaves).map Prod.fst = levels merge height leaves := by
  rw [covering, ← levels_map merge fun _ _ => rfl]
  simp [Function.comp_def]

lemma covering_snd (merge : α → α → α) (height leaves) :
    (covering merge height leaves).map Prod.snd = nodeLeaves height leaves := by
  rw [covering, ← levels_map (· ++ ·) fun _ _ => rfl, nodeLeaves]
  simp [Function.comp_def]

lemma mem_covering_succ (member : node ∈ covering merge (height + 1) leaves) :
    ∃ p q, p ∈ covering merge height leaves ∧ q ∈ covering merge height leaves ∧
      (p.1, q.1) ∈ merged merge (height + 1) leaves ∧ node = (merge p.1 q.1, p.2 ++ q.2) := by
  obtain ⟨⟨p, q⟩, couple, rfl⟩ := mem_map.mp member
  have inside := couples_subset (covering merge height leaves) _ couple
  refine ⟨p, q, inside.1, inside.2, mem_append_right _ ?_, rfl⟩
  rw [← covering_fst, couples_map]
  exact mem_map.mpr ⟨_, couple, rfl⟩

lemma covering_length (member : node ∈ covering merge height leaves) :
    node.2.length = 2 ^ height := by
  induction height generalizing node with
  | zero =>
    obtain ⟨leaf, -, rfl⟩ := mem_map.mp member
    rfl
  | succ height ih =>
    obtain ⟨p, q, left, right, -, rfl⟩ := mem_covering_succ member
    rw [length_append, ih left, ih right, Nat.pow_succ]
    omega

lemma covering_eq_iff
    (free : CollisionFree merge (merged merge height leaves ++ merged merge height leaves'))
    (member : node ∈ covering merge height leaves)
    (member' : node' ∈ covering merge height leaves') : node.1 = node'.1 ↔ node.2 = node'.2 := by
  induction height generalizing node node' with
  | zero =>
    obtain ⟨leaf, -, rfl⟩ := mem_map.mp member
    obtain ⟨leaf', -, rfl⟩ := mem_map.mp member'
    simp
  | succ height ih =>
    obtain ⟨p, q, left, right, pair, rfl⟩ := mem_covering_succ member
    obtain ⟨p', q', left', right', pair', rfl⟩ := mem_covering_succ member'
    have below : CollisionFree merge (merged merge height leaves ++ merged merge height leaves') :=
      free.mono (append_subset.mpr ⟨fun p mem => by simp [merged, mem],
        fun p mem => by simp [merged, mem]⟩)
    have lengths : p.2.length = p'.2.length := by rw [covering_length left, covering_length left']
    have halves : p.2 ++ q.2 = p'.2 ++ q'.2 ↔ p.2 = p'.2 ∧ q.2 = q'.2 :=
      ⟨fun same => append_inj same lengths, fun same => by rw [same.1, same.2]⟩
    rw [halves, ← ih below left left', ← ih below right right']
    constructor
    · intro same
      have pairs := free _ (mem_append_left _ pair) _ (mem_append_right _ pair') same
      exact Prod.mk.inj pairs
    · rintro ⟨first, second⟩
      rw [first, second]

lemma covering_fst_ne (free : CollisionFree merge (merged merge height leaves ++
      merged merge (extra + 1 + height) leaves'))
    (apart : ∀ leaf ∈ leaves, ∀ p ∈ merged merge (extra + 1 + height) leaves',
      leaf ≠ merge p.1 p.2)
    (member : node ∈ covering merge height leaves)
    (member' : node' ∈ covering merge (extra + 1 + height) leaves') : node.1 ≠ node'.1 := by
  induction height generalizing node node' with
  | zero =>
    obtain ⟨leaf, inside, rfl⟩ := mem_map.mp member
    obtain ⟨p', q', -, -, pair', rfl⟩ := mem_covering_succ member'
    exact apart leaf inside _ pair'
  | succ height ih =>
    obtain ⟨p, q, left, -, pair, rfl⟩ := mem_covering_succ member
    obtain ⟨p', q', left', -, pair', rfl⟩ := mem_covering_succ member'
    intro same
    have pairs := free _ (mem_append_left _ pair) _ (mem_append_right _ pair') same
    refine ih (free.mono ?_) ?_ left left' (Prod.mk.inj pairs).1
    · exact append_subset.mpr ⟨fun p mem => by simp [merged, mem],
        fun p mem => mem_append_right _ (mem_append_left _ mem)⟩
    · exact fun leaf inside p mem => apart leaf inside p (mem_append_left _ mem)

lemma covering_lower (lower : height < height')
    (free : CollisionFree merge (merged merge height leaves ++ merged merge height' leaves'))
    (apart : ∀ leaf ∈ leaves, ∀ p ∈ merged merge height' leaves', leaf ≠ merge p.1 p.2)
    (member : node ∈ covering merge height leaves)
    (member' : node' ∈ covering merge height' leaves') :
    node.1 ≠ node'.1 ∧ node.2 ≠ node'.2 := by
  constructor
  · obtain ⟨extra, rfl⟩ := Nat.exists_eq_add_of_le' lower
    rw [show extra + (height + 1) = extra + 1 + height by omega] at *
    exact covering_fst_ne free apart member member'
  · intro same
    have lengths : 2 ^ height = 2 ^ height' := by
      rw [← covering_length member, same, covering_length member']
    exact Nat.ne_of_lt lower ((Nat.pow_right_inj (by omega)).mp lengths)

lemma top_eq_iff
    (free : CollisionFree merge (merged merge height leaves ++ merged merge height' leaves'))
    (apart : ∀ leaf ∈ leaves, ∀ p ∈ merged merge height' leaves', leaf ≠ merge p.1 p.2)
    (apart' : ∀ leaf ∈ leaves', ∀ p ∈ merged merge height leaves, leaf ≠ merge p.1 p.2)
    (reached : levels merge height leaves = [top])
    (reached' : levels merge height' leaves' = [top']) :
    top = top' ↔ nodeLeaves height leaves = nodeLeaves height' leaves' := by
  obtain ⟨node, covered, rfl⟩ := map_eq_singleton_iff.mp ((covering_fst merge _ _).trans reached)
  obtain ⟨node', covered', rfl⟩ :=
    map_eq_singleton_iff.mp ((covering_fst merge _ _).trans reached')
  have member : node ∈ covering merge height leaves := by simp [covered]
  have member' : node' ∈ covering merge height' leaves' := by simp [covered']
  rw [← covering_snd merge, ← covering_snd merge height', covered, covered', map_singleton,
    map_singleton, singleton_inj]
  rcases Nat.lt_trichotomy height height' with lower | rfl | higher
  · have differ := covering_lower lower free apart member member'
    exact iff_of_false differ.1 differ.2
  · exact covering_eq_iff free member member'
  · have swapped :
        CollisionFree merge (merged merge height' leaves' ++ merged merge height leaves) :=
      free.mono fun p mem => mem_append.mpr (mem_append.mp mem).symm
    have differ := covering_lower higher swapped apart' member' member
    exact iff_of_false differ.1.symm differ.2.symm

end

end Lib
