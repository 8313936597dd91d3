import Mathlib.Data.Nat.Size
import SQLess.Lib.HashTree
import SQLess.Merkle.MerkleCore

/-! The array holds the levels of a hash tree one after the other, padded to powers of two. -/

namespace SQLess.Merkle

open Lib (CollisionFree couples level levels merged length_level levels_level
  nodeLeaves top_eq_iff)

def Window (m width : Nat) (word : UInt64) : Prop :=
  ∀ i, word.toNat.testBit i = true ↔ ∃ j < width, m.testBit (i + j) = true

lemma Window.shift (window : Window m width word) (amount)
    (same : amount.toNat % 64 = width) : Window m (width + width) (word ||| word >>> amount) := by
  intro i
  rw [UInt64.toNat_or, UInt64.toNat_shiftRight, same, Nat.testBit_or, Bool.or_eq_true,
    Nat.testBit_shiftRight, window, window]
  constructor
  · rintro (⟨j, bound, bit⟩ | ⟨j, bound, bit⟩)
    · exact ⟨j, by omega, bit⟩
    · refine ⟨width + j, by omega, ?_⟩
      rw [show i + (width + j) = width + i + j by omega]
      exact bit
  · rintro ⟨j, bound, bit⟩
    by_cases first : j < width
    · exact .inl ⟨j, first, bit⟩
    · refine .inr ⟨j - width, by omega, ?_⟩
      rw [show width + i + (j - width) = i + j by omega]
      exact bit

lemma Window.toNat (bound : m < 2 ^ 64) (window : Window m 64 word) :
    word.toNat = 2 ^ m.size - 1 := by
  apply Nat.eq_of_testBit_eq
  intro i
  rw [Nat.testBit_two_pow_sub_one, Bool.eq_iff_iff, window, decide_eq_true_iff]
  constructor
  · rintro ⟨j, -, bit⟩
    have reached : 2 ^ (i + j) ≤ m := Nat.ge_two_pow_of_testBit bit
    exact Nat.lt_size.mpr ((Nat.pow_le_pow_right (by omega) (by omega)).trans reached)
  · intro lower
    obtain ⟨j, above, bit⟩ := Nat.exists_ge_and_testBit_of_ge_two_pow (Nat.lt_size.mp lower)
    have reached : 2 ^ j < 2 ^ 64 := (Nat.ge_two_pow_of_testBit bit).trans_lt bound
    have small : j < 64 := (Nat.pow_lt_pow_iff_right (by omega)).mp reached
    refine ⟨j - i, by omega, ?_⟩
    rw [Nat.add_sub_cancel' above]
    exact bit

lemma toNat_sub_one {n : UInt64} (positive : 0 < n.toNat) : (n - 1).toNat = n.toNat - 1 :=
  UInt64.toNat_sub_of_le n 1 (UInt64.le_iff_toNat_le.mpr positive)

lemma upperPowOfTwo_toNat (positive : 0 < n.toNat) (bound : n.toNat ≤ 2 ^ 63) :
    (upperPowOfTwo n).toNat = 2 ^ (n.toNat - 1).size := by
  have pred := toNat_sub_one positive
  have whole : Window (n.toNat - 1) 1 (n - 1) := by
    intro i
    simp [pred]
  have smeared := Window.toNat (by omega) ((((((whole.shift 1 rfl).shift 2 rfl).shift 4 rfl).shift
    8 rfl).shift 16 rfl).shift 32 rfl)
  have fits : 2 ^ (n.toNat - 1).size ≤ 2 ^ 63 :=
    Nat.pow_le_pow_right (by omega) (Nat.size_le.mpr (by omega))
  have some : 0 < 2 ^ (n.toNat - 1).size := Nat.two_pow_pos _
  simp only [upperPowOfTwo]
  rw [UInt64.toNat_add, smeared]
  change (2 ^ (n.toNat - 1).size - 1 + 1) % 2 ^ 64 = _
  omega

def upperPowOfTwoUnbounded (n : Nat) : Nat :=
  let n := n - 1
  let n := n ||| (n >>> 1)
  let n := n ||| (n >>> 2)
  let n := n ||| (n >>> 4)
  let n := n ||| (n >>> 8)
  let n := n ||| (n >>> 16)
  let n := n ||| (n >>> 32)
  n + 1

theorem upperPowOfTwo_rounds_up (n : UInt64) (positive : 1 ≤ n.toNat) (bound : n.toNat ≤ 2 ^ 63) :
    (∃ k, (upperPowOfTwo n).toNat = 2 ^ k) ∧ n.toNat ≤ (upperPowOfTwo n).toNat ∧
      (upperPowOfTwo n).toNat < 2 * n.toNat ∧
      (upperPowOfTwo n).toNat = upperPowOfTwoUnbounded n.toNat := by
  have value := upperPowOfTwo_toNat positive bound
  have above : n.toNat - 1 < (upperPowOfTwo n).toNat := value ▸ Nat.lt_size_self _
  have below : (upperPowOfTwo n).toNat < 2 * n.toNat := by
    rw [value]
    cases size : (n.toNat - 1).size with
    | zero => omega
    | succ k =>
      have reached : 2 ^ k ≤ n.toNat - 1 := Nat.lt_size.mp (by omega)
      rw [Nat.pow_succ]
      omega
  refine ⟨⟨_, value⟩, by omega, below, ?_⟩
  have pred := toNat_sub_one positive
  have steps : upperPowOfTwoUnbounded n.toNat = (upperPowOfTwo n - 1).toNat + 1 := by
    simp [upperPowOfTwo, upperPowOfTwoUnbounded, pred]
  have last := toNat_sub_one (n := upperPowOfTwo n) (by omega)
  omega

theorem upperPowOfTwo_rounds_up_five : (∃ k, (upperPowOfTwo 5).toNat = 2 ^ k) ∧
    5 ≤ (upperPowOfTwo 5).toNat ∧ (upperPowOfTwo 5).toNat < 2 * 5 ∧
    (upperPowOfTwo 5).toNat = upperPowOfTwoUnbounded 5 :=
  upperPowOfTwo_rounds_up 5 (by decide) (by decide)

section

variable (merge : Hash → Hash → Hash)

def pairUp (merge : Hash → Hash → Hash) : List (Option Hash) → List (Option Hash)
  | left :: right :: rest => mergeNodes merge left right :: pairUp merge rest
  | _ => []

lemma fillFrom_step (fuel index offset read queue free left right) (start : index = read.length)
    (finish : offset = index + (queue.length + 2)) :
    fillFrom merge (fuel + 1) index offset (read ++ (left :: right :: queue) ++ none :: free) =
      fillFrom merge fuel (index + 2) (offset + 1)
        ((read ++ [left, right]) ++ (queue ++ [mergeNodes merge left right]) ++ free) := by
  subst start finish
  have first : (read ++ (left :: right :: queue) ++ none :: free)[read.length]? = some left := by
    simp
  have second : (read ++ (left :: right :: queue) ++ none :: free)[read.length + 1]? =
      some right := by
    rw [List.append_assoc, List.getElem?_append_right (by omega)]
    simp
  have inside : read.length + (queue.length + 2) <
      (read ++ (left :: right :: queue) ++ none :: free).length := by
    simp
  have written : (read ++ (left :: right :: queue) ++ none :: free).set
      (read.length + (queue.length + 2)) (mergeNodes merge left right) =
        (read ++ [left, right]) ++ (queue ++ [mergeNodes merge left right]) ++ free := by
    rw [List.set_append_right _ _ (by simp)]
    simp
  simp only [fillFrom, first, second]
  rw [if_pos inside, written]

lemma fillFrom_level (fuel index offset read nodes rest) (start : index = read.length)
    (finish : offset = index + (nodes ++ rest).length) (even : nodes.length = 2 * count) :
    fillFrom merge (count + fuel) index offset
        (read ++ (nodes ++ rest) ++ List.replicate (count + fuel) none) =
      fillFrom merge fuel (index + nodes.length) (offset + count)
        ((read ++ nodes) ++ (rest ++ pairUp merge nodes) ++ List.replicate fuel none) := by
  induction count generalizing index offset read nodes rest with
  | zero =>
    have empty : nodes = [] := List.length_eq_zero_iff.mp even
    simp [empty, pairUp]
  | succ count ih =>
    match nodes, even with
    | left :: right :: nodes, even =>
      simp only [List.length_cons, List.length_append] at even finish
      have next := ih (index + 2) (offset + 1) (read ++ [left, right]) nodes
        (rest ++ [mergeNodes merge left right]) (by simp [start]) (by simp; omega) (by omega)
      have step := fillFrom_step merge (count + fuel) index offset read (nodes ++ rest)
        (List.replicate (count + fuel) none) left right start (by simp; omega)
      rw [show count + 1 + fuel = count + fuel + 1 by omega, List.replicate_succ]
      simp only [List.append_assoc, List.cons_append, List.nil_append, pairUp,
        List.length_cons] at next step ⊢
      rw [step, next]
      congr 1 <;> omega

lemma length_pairUp (nodes) : (pairUp merge nodes).length = nodes.length / 2 := by
  induction nodes using List.twoStepInduction with
  | nil => rfl
  | singleton => simp [pairUp]
  | cons_cons left right rest ih =>
    simp only [pairUp, List.length_cons, ih]
    omega

lemma fillFrom_levels (height read nodes) (size : nodes.length = 2 ^ height) :
    ∃ read', fillFrom merge (2 ^ height - 1) read.length (read.length + 2 ^ height)
        (read ++ nodes ++ List.replicate (2 ^ height - 1) none) =
      some (read' ++ (pairUp merge)^[height] nodes) := by
  induction height generalizing read nodes with
  | zero => exact ⟨read, by simp [fillFrom]⟩
  | succ height ih =>
    have above : (pairUp merge nodes).length = 2 ^ height := by
      rw [length_pairUp, size]
      omega
    obtain ⟨read', filled⟩ := ih (read ++ nodes) (pairUp merge nodes) above
    have level := fillFrom_level merge (2 ^ height - 1) read.length _ read nodes [] rfl rfl
      (size.trans Nat.pow_succ')
    refine ⟨read', ?_⟩
    rw [Function.iterate_succ_apply, ← filled]
    simp only [List.append_nil, List.nil_append, List.length_append, size] at level ⊢
    have half : 2 ^ (height + 1) = 2 ^ height + 2 ^ height := by omega
    have positive : 0 < 2 ^ height := Nat.two_pow_pos height
    rw [show 2 ^ (height + 1) - 1 = 2 ^ height + (2 ^ height - 1) by omega, level]

lemma pairUp_missing (missing) :
    pairUp merge (List.replicate missing none) = List.replicate (missing / 2) none := by
  induction missing using Nat.twoStepInduction with
  | zero => rfl
  | one => rfl
  | more missing ih =>
    rw [List.replicate_succ, List.replicate_succ, pairUp, ih, mergeNodes,
      show (missing + 2) / 2 = missing / 2 + 1 by omega, List.replicate_succ]

lemma pairUp_padded (nodes missing) (even : (nodes.length + missing) % 2 = 0) :
    pairUp merge (nodes.map some ++ List.replicate missing none) =
      (level merge nodes).map some ++ List.replicate (missing / 2) none := by
  induction nodes using List.twoStepInduction with
  | nil => exact pairUp_missing merge missing
  | singleton last =>
    -- the neighbour of the last node is missing
    obtain ⟨others, rfl⟩ : ∃ others, missing = others + 1 :=
      ⟨missing - 1, by simp only [List.length_singleton] at even; omega⟩
    simp only [List.length_singleton] at even
    simp only [List.map_cons, List.map_nil, List.replicate_succ, List.cons_append,
      List.nil_append, pairUp, pairUp_missing, level, couples, mergeNodes]
    rw [show (others + 1) / 2 = others / 2 by omega]
  | cons_cons left right rest ih =>
    simp only [List.length_cons] at even
    have later := ih (by omega)
    simp only [List.map_cons, List.cons_append, pairUp, mergeNodes, level, couples] at later ⊢
    rw [later]

lemma pairUp_levels (height nodes missing) (some : nodes ≠ [])
    (size : nodes.length + missing = 2 ^ height) : ∃ top, levels merge height nodes = [top] ∧
      (pairUp merge)^[height] (nodes.map Option.some ++ List.replicate missing none) =
        [Option.some top] := by
  induction height generalizing nodes missing with
  | zero =>
    have positive := List.length_pos_iff.mpr some
    obtain ⟨top, rfl⟩ := List.length_eq_one_iff.mp (show nodes.length = 1 by omega)
    have none : missing = 0 := by
      simp only [List.length_singleton] at size
      omega
    exact ⟨top, rfl, by simp [none]⟩
  | succ height ih =>
    have above : (level merge nodes).length + missing / 2 = 2 ^ height := by
      rw [length_level]
      omega
    have left : level merge nodes ≠ [] := by
      have positive := List.length_pos_iff.mpr some
      rw [← List.length_pos_iff, length_level]
      omega
    obtain ⟨top, reached, final⟩ := ih (level merge nodes) (missing / 2) left above
    refine ⟨top, (levels_level merge height nodes) ▸ reached, ?_⟩
    rw [Function.iterate_succ_apply, pairUp_padded merge nodes missing (by omega)]
    exact final

end

def leavesOf (items : List Hash) : List Hash := if items.isEmpty then [0] else items

def heightOf (items : List Hash) : Nat := ((leavesOf items).length - 1).size

def merges (merge : Hash → Hash → Hash) (items : List Hash) : List (Hash × Hash) :=
  merged merge (heightOf items) (leavesOf items)

lemma leavesOf_ne_nil (items) : leavesOf items ≠ [] := by
  unfold leavesOf
  split_ifs with empty
  · simp
  · simpa using empty

lemma root_eq (merge items) (size : items.length ≤ 2 ^ 63) :
    ∃ top, levels merge (heightOf items) (leavesOf items) = [top] ∧
      root merge items = some top := by
  have positive := List.length_pos_iff.mpr (leavesOf_ne_nil items)
  have small : (leavesOf items).length ≤ 2 ^ 63 := by
    unfold leavesOf
    split_ifs
    · simp
    · exact size
  have count : (leavesOf items).length.toUInt64.toNat = (leavesOf items).length :=
    Nat.mod_eq_of_lt (by omega)
  have width : (upperPowOfTwo (leavesOf items).length.toUInt64).toNat = 2 ^ heightOf items := by
    rw [upperPowOfTwo_toNat (by omega) (by omega), count, heightOf]
  have fits : (leavesOf items).length ≤ 2 ^ heightOf items := by
    have lower : (leavesOf items).length - 1 < 2 ^ heightOf items := Nat.lt_size_self _
    omega
  obtain ⟨top, reached, final⟩ := pairUp_levels merge (heightOf items) (leavesOf items)
    (2 ^ heightOf items - (leavesOf items).length) (leavesOf_ne_nil items) (by omega)
  obtain ⟨read, filled⟩ := fillFrom_levels merge (heightOf items) [] ((leavesOf items).map some ++
      List.replicate (2 ^ heightOf items - (leavesOf items).length) none) (by simp; omega)
  have made : newMerkle merge items = some (read ++ [some top]) := by
    rw [final] at filled
    rw [← filled]
    change fillFrom merge (((upperPowOfTwo (leavesOf items).length.toUInt64).toNat * 2 - 1) / 2) 0
      (upperPowOfTwo (leavesOf items).length.toUInt64).toNat
      ((leavesOf items).map some ++ List.replicate
        ((upperPowOfTwo (leavesOf items).length.toUInt64).toNat * 2 - 1 -
          (leavesOf items).length) none) = _
    have padding : 2 ^ heightOf items * 2 - 1 - (leavesOf items).length =
        2 ^ heightOf items - (leavesOf items).length + (2 ^ heightOf items - 1) := by
      omega
    rw [width, padding, List.replicate_add,
      show (2 ^ heightOf items * 2 - 1) / 2 = 2 ^ heightOf items - 1 by omega]
    simp
  refine ⟨top, reached, ?_⟩
  rw [root, made]
  simp

def recursiveRoot (merge : Hash → Hash → Hash) : List Hash → Option Hash
  | [] => none
  | [top] => some top
  | left :: right :: rest => recursiveRoot merge (level merge (left :: right :: rest))
termination_by nodes => nodes.length
decreasing_by
  rw [length_level]
  simp only [List.length_cons]
  omega

lemma recursiveRoot_eq (fits : nodes.length ≤ 2 ^ height)
    (tight : 2 ^ height < 2 * nodes.length) (reached : levels merge height nodes = [top]) :
    recursiveRoot merge nodes = some top := by
  induction height generalizing nodes with
  | zero =>
    rw [show nodes = [top] from reached, recursiveRoot]
  | succ height ih =>
    rw [Nat.pow_succ] at fits tight
    have positive := Nat.two_pow_pos height
    match nodes with
    | left :: right :: rest =>
      rw [recursiveRoot]
      refine ih ?_ ?_ ?_
      · rw [length_level]
        omega
      · rw [length_level]
        omega
      · rw [levels_level]
        exact reached
    | [_] =>
      simp only [List.length_singleton] at tight
      omega

/-- The array is filled without an index out of range, and its last entry is the root by
levels. -/
theorem newMerkle_root_recursive (merge : Hash → Hash → Hash) {items : List Hash}
    (some : items ≠ []) (size : items.length ≤ 2 ^ 63) :
    ∃ tree top, newMerkle merge items = Option.some tree ∧
      tree.getLast? = Option.some (Option.some top) ∧
      recursiveRoot merge items = Option.some top := by
  obtain ⟨top, reached, root⟩ := root_eq merge items size
  have leaves : leavesOf items = items := by rw [leavesOf, if_neg (by simpa using some)]
  have positive := List.length_pos_iff.mpr some
  have fits : items.length - 1 < 2 ^ heightOf items := by
    rw [heightOf, leaves]
    exact Nat.lt_size_self _
  have tight : 2 ^ heightOf items < 2 * items.length := by
    rw [heightOf, leaves]
    cases height : (items.length - 1).size with
    | zero => omega
    | succ below =>
      have lower : 2 ^ below ≤ items.length - 1 := Nat.lt_size.mp (by omega)
      rw [Nat.pow_succ]
      omega
  rw [leaves] at reached
  unfold Merkle.root at root
  cases made : newMerkle merge items with
  | none => simp [made] at root
  | some tree =>
    rw [made] at root
    exact ⟨tree, top, rfl, Option.join_eq_some_iff.mp root,
      recursiveRoot_eq (by omega) tight reached⟩

theorem newMerkle_root_recursive_odd :
    ∃ tree top, newMerkle (fun left right => left + 2 * right) [1, 2, 3] = some tree ∧
      tree.getLast? = some (some top) ∧
      recursiveRoot (fun left right => left + 2 * right) [1, 2, 3] = some top :=
  newMerkle_root_recursive _ (by simp) (by decide)

lemma mem_leavesOf (member : leaf ∈ leavesOf items ∨ leaf ∈ leavesOf items') :
    leaf = 0 ∨ leaf ∈ items ∨ leaf ∈ items' := by
  unfold leavesOf at member
  grind

/-- The leaves below the root, where a node without a neighbour counts twice. -/
def selfPaired (items : List Hash) : List (List Hash) :=
  nodeLeaves (heightOf items) (leavesOf items)

lemma root_eq_iff (free : CollisionFree merge (merges merge items ++ merges merge items'))
    (apart : ∀ leaf ∈ leavesOf items ++ leavesOf items',
      ∀ p ∈ merges merge items ++ merges merge items', leaf ≠ merge p.1 p.2)
    (size : items.length ≤ 2 ^ 63) (size' : items'.length ≤ 2 ^ 63) :
    root merge items = root merge items' ↔ selfPaired items = selfPaired items' := by
  obtain ⟨top, reached, root⟩ := root_eq merge items size
  obtain ⟨top', reached', root'⟩ := root_eq merge items' size'
  rw [root, root', Option.some.injEq]
  refine top_eq_iff free ?_ ?_ reached reached'
  · intro leaf member p couple
    exact apart leaf (List.mem_append_left _ member) p (List.mem_append_right _ couple)
  · intro leaf member p couple
    exact apart leaf (List.mem_append_right _ member) p (List.mem_append_left _ couple)

/-- Under the assumptions on the hash, the root determines the list exactly for the pairs of lists
that do not become equal once lone nodes are written twice. -/
theorem root_determines_iff {merge : Hash → Hash → Hash} {items items' : List Hash}
    (free : CollisionFree merge (merges merge items ++ merges merge items'))
    (apart : ∀ leaf ∈ leavesOf items ++ leavesOf items',
      ∀ p ∈ merges merge items ++ merges merge items', leaf ≠ merge p.1 p.2)
    (size : items.length ≤ 2 ^ 63) (size' : items'.length ≤ 2 ^ 63) :
    (root merge items = root merge items' → items = items') ↔
      items = items' ∨ selfPaired items ≠ selfPaired items' := by
  rw [root_eq_iff free apart size size', imp_iff_not_or, or_comm]

namespace Sample

def mergeHashes (left right : Hash) : Hash := 10 + 5 * left + right

lemma merges_three : merges mergeHashes [1, 2, 3] = [(1, 2), (3, 3), (17, 28)] := by decide

lemma merges_four : merges mergeHashes [1, 2, 3, 3] = [(1, 2), (3, 3), (17, 28)] := by decide

lemma hashes_free : CollisionFree mergeHashes
    (merges mergeHashes [1, 2, 3] ++ merges mergeHashes [1, 2, 3, 3]) ∧
    ∀ leaf ∈ leavesOf [1, 2, 3] ++ leavesOf [1, 2, 3, 3],
      ∀ p ∈ merges mergeHashes [1, 2, 3] ++ merges mergeHashes [1, 2, 3, 3],
        leaf ≠ mergeHashes p.1 p.2 := by
  rw [merges_three, merges_four]
  constructor
  · simp [CollisionFree, mergeHashes]
  · simp [leavesOf, mergeHashes]

lemma longer_free : CollisionFree mergeHashes
    (merges mergeHashes [1, 2, 3] ++ merges mergeHashes [1, 2, 3, 4]) ∧
    ∀ leaf ∈ leavesOf [1, 2, 3] ++ leavesOf [1, 2, 3, 4],
      ∀ p ∈ merges mergeHashes [1, 2, 3] ++ merges mergeHashes [1, 2, 3, 4],
        leaf ≠ mergeHashes p.1 p.2 := by
  rw [merges_three, show merges mergeHashes [1, 2, 3, 4] = [(1, 2), (3, 4), (17, 29)] by decide]
  constructor
  · simp [CollisionFree, mergeHashes]
  · simp [leavesOf, mergeHashes]

end Sample

theorem root_determines_pair :
    selfPaired [1, 2, 3] ≠ selfPaired [1, 2, 3, 4] ∧
      (root Sample.mergeHashes [1, 2, 3] = root Sample.mergeHashes [1, 2, 3, 4] →
        ([1, 2, 3] : List Hash) = [1, 2, 3, 4]) :=
  ⟨by decide, (root_determines_iff Sample.longer_free.1 Sample.longer_free.2 (by decide)
    (by decide)).mpr (.inr (by decide))⟩

/-- The last hash of a list of odd length may be given twice. -/
theorem root_repeated_leaf : (CollisionFree Sample.mergeHashes
        (merges Sample.mergeHashes [1, 2, 3] ++ merges Sample.mergeHashes [1, 2, 3, 3]) ∧
      ∀ leaf ∈ leavesOf [1, 2, 3] ++ leavesOf [1, 2, 3, 3],
        ∀ p ∈ merges Sample.mergeHashes [1, 2, 3] ++ merges Sample.mergeHashes [1, 2, 3, 3],
          leaf ≠ Sample.mergeHashes p.1 p.2) ∧
      root Sample.mergeHashes [1, 2, 3] = root Sample.mergeHashes [1, 2, 3, 3] :=
  ⟨Sample.hashes_free, by decide⟩

end SQLess.Merkle
