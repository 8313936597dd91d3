import SQLess.BlockProducer.BlockNodeCore
import Mathlib.Data.List.Basic

/-! Paths of block nodes. -/

namespace SQLess.BlockProducer

open List

variable {n a anc m : BlockNode}

namespace BlockNode

def path : BlockNode → List BlockNode
  | .genesis h b => [.genesis h b]
  | .child p h b => p.path ++ [.child p h b]

def trail (n : BlockNode) : List Hash := n.path.map hash

def contents (n : BlockNode) : List (List (Transaction × Nat)) := n.path.map txs

@[simp] lemma path_length (n : BlockNode) : n.path.length = n.count + 1 := by
  induction n with
  | genesis => rfl
  | child p h b ih => simp [path, count, ih]

@[simp] lemma trail_length (n : BlockNode) : n.trail.length = n.count + 1 := by
  simp [trail]

@[simp] lemma contents_length (n : BlockNode) : n.contents.length = n.count + 1 := by
  simp [contents]

lemma path_ne_nil (n : BlockNode) : n.path ≠ [] := by
  intro empty
  have length := n.path_length
  simp [empty] at length

@[simp] lemma trail_child (p h b) : (BlockNode.child p h b).trail = p.trail ++ [b.blockHash] := by
  simp [trail, path, hash, load]

@[simp] lemma contents_child (p h b) :
    (BlockNode.child p h b).contents = p.contents ++ [b.transactions.map fun tx => (tx, h)] := by
  simp [contents, path, txs, load, height]

lemma fetchNodeList_eq (start) (n : BlockNode) : n.fetchNodeList start = n.path.drop start := by
  induction n with
  | genesis =>
    cases start with
    | zero | succ start => simp [fetchNodeList, path]
  | child p h b ih =>
    simp only [fetchNodeList, path]
    split
    · rw [drop_eq_nil_of_le]
      simp
      omega
    · rw [ih, drop_append_of_le_length]
      simp
      omega

lemma ancestorByCount_eq (c) (n : BlockNode) : n.ancestorByCount c = n.path[c]? := by
  induction n with
  | genesis =>
    cases c with
    | zero => rfl
    | succ => simp [ancestorByCount, path]
  | child p h b ih =>
    simp only [ancestorByCount, path]
    split
    · rw [List.getElem?_eq_none]
      simp
      omega
    · split
      · rename_i same
        rw [List.getElem?_append_right] <;> simp [← same]
      · rw [ih, List.getElem?_append_left]
        simp
        omega

lemma lastAtMost_path (bound) (n : BlockNode) :
    (n.lastAtMost bound).path = n.path.take (bound + 1) := by
  induction n with
  | genesis => simp [lastAtMost, path]
  | child p h b ih =>
    simp only [lastAtMost]
    split
    · rw [ih, path, take_append_of_le_length]
      simp
      omega
    · rw [take_of_length_le]
      simp [count]
      omega

lemma lastIrreversible_path (confirm) (n : BlockNode) :
    (n.lastIrreversible confirm).path = n.path.take (n.count - confirm + 1) := by
  rw [lastIrreversible, lastAtMost_path]
  congr 1
  split <;> omega

lemma lastIrreversible_count (confirm) (n : BlockNode) :
    (n.lastIrreversible confirm).count = n.count - confirm := by
  have length := congrArg List.length (n.lastIrreversible_path confirm)
  simp only [path_length, length_take] at length
  omega

lemma lastIrreversible_trail_prefix (confirm) (n : BlockNode) :
    (n.lastIrreversible confirm).trail <+: n.trail := by
  rw [trail, lastIrreversible_path]
  exact ( take_prefix _ _).map hash

lemma self_mem_path (n : BlockNode) : n ∈ n.path := by
  cases n <;> simp [path]

lemma lastIrreversible_mem_path (confirm) (n : BlockNode) :
    n.lastIrreversible confirm ∈ n.path := by
  have taken := take_subset (n.count - confirm + 1) n.path
  rw [← lastIrreversible_path] at taken
  exact taken (n.lastIrreversible confirm).self_mem_path

section

variable (member : a ∈ n.path)
include member

lemma path_prefix_of_mem : a.path <+: n.path := by
  induction n with
  | genesis =>
    simp only [path, mem_singleton] at member
    rw [member]
  | child p h b ih =>
    simp only [path, mem_append, mem_singleton] at member
    rcases member with below | same
    · exact (ih below).trans (prefix_append _ _)
    · rw [same]

lemma trail_prefix_of_mem : a.trail <+: n.trail :=
  (path_prefix_of_mem member).map hash

lemma mem_path_of_mem (below : b ∈ a.path) : b ∈ n.path :=
  (path_prefix_of_mem member).subset below

lemma path_getElem?_count : n.path[a.count]? = some a := by
  have last : a.path[a.count]? = some a := by
    cases a with
    | genesis => rfl
    | child =>
      rw [path, List.getElem?_append_right] <;> simp [count]
  obtain ⟨rest, whole⟩ := path_prefix_of_mem member
  rw [← whole, List.getElem?_append_left]
  · exact last
  · simp

end

lemma mem_path_of_count_le (left : a ∈ n.path) (right : b ∈ n.path)
    (below : b.count ≤ a.count) : b ∈ a.path := by
  have found := path_getElem?_count right
  obtain ⟨rest, whole⟩ := path_prefix_of_mem left
  rw [← whole, List.getElem?_append_left (by rw [path_length]; omega)] at found
  exact mem_of_getElem? found

lemma count_of_path_getElem? (found : n.path[c]? = some a) : a.count = c := by
  induction n with
  | genesis =>
    cases c with
    | zero =>
      simp only [path, List.getElem?_cons_zero] at found
      cases found
      rfl
    | succ => simp [path] at found
  | child p h b ih =>
    rw [path, List.getElem?_append] at found
    split at found
    · exact ih found
    · rename_i beyond
      rw [path_length] at beyond found
      obtain ⟨below, same⟩ := List.getElem?_eq_some_iff.mp found
      have position : c - (p.count + 1) = 0 := by
        simp only [length_cons, length_nil] at below
        omega
      simp only [position, getElem_cons_zero] at same
      rw [← same, count]
      omega

lemma hasAncestor_iff :
    n.hasAncestor anc = true ↔ ∃ m ∈ n.path, m.count = anc.count ∧ m.hash = anc.hash := by
  unfold hasAncestor
  rw [ancestorByCount_eq]
  constructor
  · intro checked
    cases found : n.path[anc.count]? with
    | none => simp [found] at checked
    | some m =>
      simp only [found, decide_eq_true_eq] at checked
      exact ⟨m, mem_of_getElem? found, count_of_path_getElem? found, checked⟩
  · rintro ⟨m, member, sameCount, sameHash⟩
    rw [← sameCount, path_getElem?_count member]
    simpa using sameHash

lemma hasAncestorWithMinCount_eq_some
    (found : n.hasAncestorWithMinCount blockHash minCount = some m) :
    m ∈ n.path ∧ m.hash = blockHash ∧ minCount ≤ m.count := by
  induction n with
  | genesis =>
    simp only [hasAncestorWithMinCount] at found
    split at found
    · rename_i matched
      simp only [Option.some.injEq] at found
      rw [← found]
      exact ⟨self_mem_path _, matched.2, matched.1 ▸ Nat.zero_le _⟩
    · simp at found
  | child p h b ih =>
    simp only [hasAncestorWithMinCount] at found
    split at found
    · simp at found
    · rename_i deep
      split at found
      · rename_i matched
        simp only [Option.some.injEq] at found
        rw [← found]
        exact ⟨self_mem_path _, matched, by simp only [count]; omega⟩
      · obtain ⟨member, matched, bound⟩ := ih found
        exact ⟨mem_append_left _ member, matched, bound⟩

def fetchNodes : Nat → Option BlockNode → Option (List BlockNode)
  | 0, _ => some []
  | _ + 1, none => none
  | i + 1, some iter => (fetchNodes i iter.parent).map (· ++ [iter])

def fetchNodeListLoop (start : Nat) (n : BlockNode) : Option (List BlockNode) :=
  if n.count < start then some [] else fetchNodes (n.count - start + 1) (some n)

lemma fetchNodes_eq (enough : i ≤ n.count + 1) :
    fetchNodes i (some n) = some (n.path.drop (n.count + 1 - i)) := by
  induction n generalizing i with
  | genesis =>
    obtain rfl | rfl : i = 0 ∨ i = 1 := by
      simp only [count] at enough
      omega
    · rfl
    · rfl
  | child p h b ih =>
    cases i with
    | zero => simp [fetchNodes]
    | succ i =>
      simp only [count] at enough
      have rest := ih (i := i) (by omega)
      simp only [fetchNodes, parent, rest, Option.map_some, path, count]
      rw [drop_append_of_le_length (by simp), show p.count + 1 + 1 - (i + 1) =
        p.count + 1 - i by omega]

lemma fetchNodeListLoop_eq (start : Nat) (n : BlockNode) :
    n.fetchNodeListLoop start = some (n.path.drop start) := by
  rw [fetchNodeListLoop]
  split
  · rw [drop_eq_nil_of_le (by simp; omega)]
  · rw [fetchNodes_eq (by omega), show n.count + 1 - (n.count - start + 1) = start by omega]

lemma path_map_count (n : BlockNode) : n.path.map count = range (n.count + 1) := by
  induction n with
  | genesis => rfl
  | child p h b ih => simp [path, count, ih, range_succ]

lemma ancestorFrom_eq_some_iff (rising : n.path.Pairwise (·.height < ·.height)) :
    n.ancestorFrom h = some a ↔ a ∈ n.path ∧ a.height = h := by
  induction n with
  | genesis =>
    simp only [ancestorFrom, path, mem_singleton]
    grind [BlockNode.height]
  | child p height b ih =>
    rw [path, pairwise_append] at rising
    obtain ⟨below, -, last⟩ := rising
    have lower : a ∈ p.path → a.height < height := fun member => last a member _ mem_cons_self
    have own : a = .child p height b → a.height = height := fun same => same ▸ rfl
    simp only [ancestorFrom, path, mem_append, mem_singleton]
    split
    · rw [ih below]
      grind
    · grind

lemma ancestor_eq_some_iff (rising : n.path.Pairwise (·.height < ·.height)) :
    n.ancestor h = some a ↔ a ∈ n.path ∧ a.height = h := by
  rw [ancestor]
  split
  · -- the node is the highest one of its path
    have highest : ∀ m ∈ n.path, m.height ≤ n.height := by
      intro m member
      cases n with
      | genesis => rw [mem_singleton.mp member]
      | child =>
        rcases mem_append.mp member with below | same
        · exact ((pairwise_append.mp rising).2.2 m below _ mem_cons_self).le
        · rw [mem_singleton.mp same]
    refine iff_of_false nofun fun ⟨member, same⟩ => ?_
    have := highest a member
    omega
  · exact ancestorFrom_eq_some_iff rising

lemma ancestorByCount_eq_some_iff : n.ancestorByCount c = some a ↔ a ∈ n.path ∧ a.count = c := by
  rw [ancestorByCount_eq]
  constructor
  · exact fun found => ⟨mem_of_getElem? found, count_of_path_getElem? found⟩
  · rintro ⟨member, rfl⟩
    exact path_getElem?_count member

lemma hasAncestorWithMinCount_eq_some_iff
    (distinct : n.trail.Nodup) : n.hasAncestorWithMinCount blockHash minCount = some m ↔
      m ∈ n.path ∧ m.hash = blockHash ∧ minCount ≤ m.count := by
  refine ⟨hasAncestorWithMinCount_eq_some, ?_⟩
  rintro ⟨member, rfl, deep⟩
  induction n with
  | genesis =>
    obtain rfl := mem_singleton.mp member
    exact if_pos ⟨Nat.le_zero.mp deep, rfl⟩
  | child p h b ih =>
    rw [trail_child, nodup_append] at distinct
    obtain ⟨below, -, last⟩ := distinct
    rw [hasAncestorWithMinCount]
    rcases mem_append.mp member with inner | same
    · have lower := (path_getElem?_count inner)
      have bound : m.count < p.count + 1 := by
        simpa using (List.getElem?_eq_some_iff.mp lower).1
      have other : b.blockHash ≠ m.hash := fun same =>
        last _ (mem_map_of_mem inner) _ mem_cons_self same.symm
      rw [if_neg (by omega), if_neg other]
      exact ih below inner
    · obtain rfl := mem_singleton.mp same
      simp only [count] at deep
      rw [if_neg (by omega)]
      exact if_pos rfl

/-- Every walk along the parents finds the nodes of the path that it is for. -/
theorem walks_find_path (n : BlockNode) (rising : n.path.Pairwise (·.height < ·.height)) :
    (∀ start, n.fetchNodeListLoop start = some (n.fetchNodeList start) ∧
      (n.fetchNodeList start).map count = range' start (n.count + 1 - start) ∧
      ∀ m ∈ n.fetchNodeList start, m ∈ n.path) ∧
    (∀ h a, n.ancestor h = some a ↔ a ∈ n.path ∧ a.height = h) ∧
    (∀ c a, n.ancestorByCount c = some a ↔ a ∈ n.path ∧ a.count = c) ∧
    (∀ confirm, n.lastIrreversible confirm ∈ n.path ∧
      (n.lastIrreversible confirm).count = n.count - confirm) ∧
    (∀ anc, (∀ m ∈ n.path, m.hash = anc.hash → m = anc) →
      (n.hasAncestor anc = true ↔ anc ∈ n.path)) ∧
    (n.trail.Nodup → ∀ blockHash minCount m,
      n.hasAncestorWithMinCount blockHash minCount = some m ↔
        m ∈ n.path ∧ m.hash = blockHash ∧ minCount ≤ m.count) := by
  refine ⟨fun start => ⟨?_, ?_, ?_⟩, fun h a => ancestor_eq_some_iff rising,
    fun c a => ancestorByCount_eq_some_iff, fun confirm =>
      ⟨n.lastIrreversible_mem_path confirm, n.lastIrreversible_count confirm⟩, ?_,
    fun distinct blockHash minCount m => hasAncestorWithMinCount_eq_some_iff distinct⟩
  · rw [fetchNodeListLoop_eq, fetchNodeList_eq]
  · rw [fetchNodeList_eq, map_drop, path_map_count, range_eq_range', drop_range']
    simp
  · rw [fetchNodeList_eq]
    exact fun m member => mem_of_mem_drop member
  · intro anc distinct
    rw [hasAncestor_iff]
    constructor
    · rintro ⟨m, member, -, same⟩
      exact distinct m member same ▸ member
    · exact fun member => ⟨anc, member, rfl, rfl⟩

def sampleNode : BlockNode :=
  .child (.genesis 0 ⟨⟨0, 0, 0, 0, 0⟩, ⟨1, none, none⟩, []⟩) 3 ⟨⟨0, 0, 0, 1, 3⟩, ⟨2, none, none⟩,
    []⟩

theorem walks_find_path_sample : sampleNode.ancestor 3 = some sampleNode :=
  ((walks_find_path sampleNode (by decide)).2.1 3 sampleNode).mpr (by decide)

inductive Linked (valid : Nat → BPBlock → Prop) : BlockNode → Prop
  | genesis {h b} : valid h b → Linked valid (.genesis h b)
  | child {p h b} : Linked valid p → valid h b → b.parentHash = p.hash →
      Linked valid (.child p h b)

variable {valid : Nat → BPBlock → Prop}

lemma Linked.block (linked : Linked valid n) : valid n.height n.load := by
  cases linked <;> assumption

lemma Linked.of_mem (linked : Linked valid n) (member : a ∈ n.path) : Linked valid a := by
  induction linked with
  | genesis ok =>
    simp only [path, mem_singleton] at member
    rw [member]
    exact .genesis ok
  | child parent ok link ih =>
    simp only [path, mem_append, mem_singleton] at member
    rcases member with below | same
    · exact ih below
    · rw [same]
      exact .child parent ok link

lemma Linked.map_eq {read : BlockNode → α} (left : Linked valid n) (right : Linked valid m)
    (unique : ∀ a b, Linked valid a → Linked valid b → a.hash = b.hash → a.load.parentHash =
      b.load.parentHash ∧ read a = read b)
    (sameCount : n.count = m.count) (sameHash : n.hash = m.hash) :
    n.path.map read = m.path.map read := by
  obtain ⟨parentHash, same⟩ := unique n m left right sameHash
  induction left generalizing m with
  | genesis =>
    cases right with
    | genesis => simp only [path, map_singleton, same]
    | child => simp [count] at sameCount
  | child parent ok link ih =>
    cases right with
    | genesis => simp [count] at sameCount
    | child parent' other link' =>
      simp only [load, link, link'] at parentHash
      obtain ⟨earlier, sameParent⟩ := unique _ _ parent parent' parentHash
      have below := ih parent' (by simpa [count] using sameCount) parentHash earlier sameParent
      simp only [path, map_append, map_singleton, below, same]

lemma Linked.map_prefix {read : BlockNode → α} (left : Linked valid anc) (right : Linked valid n)
    (unique : ∀ a b, Linked valid a → Linked valid b → a.hash = b.hash → a.load.parentHash =
      b.load.parentHash ∧ read a = read b)
    (found : n.hasAncestor anc = true) : anc.path.map read <+: n.path.map read := by
  obtain ⟨m, member, sameCount, sameHash⟩ := hasAncestor_iff.mp found
  rw [← (right.of_mem member).map_eq left unique sameCount sameHash]
  exact (path_prefix_of_mem member).map read

lemma Linked.trail_leading (left : Linked valid anc) (right : Linked valid n)
    (unique : ∀ h a k b, valid h a → valid k b → a.blockHash = b.blockHash →
      a.parentHash = b.parentHash) (found : n.hasAncestor anc = true) : anc.trail <+: n.trail := by
  refine left.map_prefix right ?_ found
  intro a b linked linked' same
  exact ⟨unique _ _ _ _ linked.block linked'.block same, same⟩

lemma hasAncestor_of_leading (leading : anc.trail <+: n.trail) : n.hasAncestor anc = true := by
  have below : anc.count < n.path.length := by
    have length := leading.length_le
    simp only [trail_length] at length
    simp only [path_length]
    omega
  have found : n.path[anc.count]? = some n.path[anc.count] := List.getElem?_eq_getElem below
  refine hasAncestor_iff.mpr ⟨n.path[anc.count], getElem_mem below,
    count_of_path_getElem? found, ?_⟩
  have hashes : anc.trail[anc.count]? = n.trail[anc.count]? := by
    obtain ⟨rest, whole⟩ := leading
    rw [← whole, List.getElem?_append_left (by simp)]
  have self : anc.path[anc.count]? = some anc := path_getElem?_count anc.self_mem_path
  simp only [trail, List.getElem?_map, self, found, Option.map_some, Option.some.injEq] at hashes
  exact hashes.symm

lemma contents_prefix_of_mem (member : a ∈ n.path) : a.contents <+: n.contents :=
  (path_prefix_of_mem member).map txs

lemma Linked.contents_eq (left : Linked valid n) (right : Linked valid m)
    (unique : ∀ h a k b, valid h a → valid k b → a.blockHash = b.blockHash →
      a.parentHash = b.parentHash ∧ h = k ∧ a.transactions = b.transactions)
    (sameCount : n.count = m.count) (sameHash : n.hash = m.hash) : n.contents = m.contents := by
  refine left.map_eq right ?_ sameCount sameHash
  intro a b linked linked' same
  obtain ⟨parentHash, height, content⟩ := unique _ _ _ _ linked.block linked'.block same
  exact ⟨parentHash, by rw [txs, txs, height, content]⟩

lemma Linked.contents_prefix (left : Linked valid anc) (right : Linked valid n)
    (unique : ∀ h a k b, valid h a → valid k b → a.blockHash = b.blockHash →
      a.parentHash = b.parentHash ∧ h = k ∧ a.transactions = b.transactions)
    (found : n.hasAncestor anc = true) : anc.contents <+: n.contents := by
  obtain ⟨m, member, sameCount, sameHash⟩ := hasAncestor_iff.mp found
  rw [← (right.of_mem member).contents_eq left unique sameCount sameHash]
  exact contents_prefix_of_mem member

end BlockNode

end SQLess.BlockProducer
