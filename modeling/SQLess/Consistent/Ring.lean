import Mathlib.Data.Finset.Sort
import SQLess.Lib.BigEndian
import SQLess.Lib.FiniteMap
import SQLess.Pow.CpuMiner
import SQLess.Types.TypesCore

/-! The hash ring of `consistent.go`. -/

namespace SQLess.Consistent

open Lib List

abbrev Byte := Fin 256

abbrev NodeKey := { hash : List Byte // hash.length = 32 }

def less : List Byte → List Byte → Bool
  | val :: k, other :: y => if val = other then less k y else val < other
  | _, _ => false

lemma less_iff_lt : ∀ {k y : List Byte}, k.length = y.length → (less k y = true ↔ k < y)
  | [], [], _ => by simp [less]
  | val :: k, other :: y, same => by
    have tail := less_iff_lt (k := k) (y := y) (by simpa using same)
    rw [less, List.cons_lt_cons_iff]
    by_cases equal : val = other
    · simp [equal, tail]
    · simp [equal]

lemma less_iff {k y : NodeKey} : less k.1 y.1 = true ↔ k < y :=
  less_iff_lt (k.2.trans y.2.symm)

inductive ServerRole
  | unknown | leader | follower | miner | client
  deriving DecidableEq

structure Node where
  id : NodeID
  role : ServerRole
  addr : String
  directAddr : String
  publicKey : Option PublicKey
  nonce : CpuMiner.Uint256
  deriving DecidableEq

inductive RingErr
  | emptyCircle
  deriving DecidableEq

structure Ring where
  circle : FiniteMap NodeKey Node
  sortedHashes : List NodeKey

def nodeKey (nodeID : NodeID) (idx : Nat) : String := toString idx ++ nodeID

lemma nodeKey_inj {id id' i j} (sized : id.length = id'.length)
    (same : nodeKey id i = nodeKey id' j) : i = j ∧ id = id' := by
  have lists := congrArg String.toList same
  simp only [nodeKey, String.toList_append] at lists
  obtain ⟨digits, ids⟩ := List.append_inj' lists (by simpa [String.length_toList] using sized)
  refine ⟨?_, String.toList_inj.mp ids⟩
  have left := congrArg (fun digits => Nat.ofDigitChars 10 digits 0) digits
  simpa [Nat.toString_eq_ofList_toDigits] using left

structure Hashing where
  hashKey : String → NodeKey
  numberOfReplicas : Nat

/-- The nodes that calls may name: ids of one length, whose replicas have hashes of their own. -/
structure CollisionFree (h : Hashing) (known : NodeID → Prop) : Prop where
  length : ∀ id id', known id → known id' → id.length = id'.length
  hash : ∀ id id', known id → known id' → ∀ i < h.numberOfReplicas, ∀ j < h.numberOfReplicas,
    h.hashKey (nodeKey id i) = h.hashKey (nodeKey id' j) → nodeKey id i = nodeKey id' j

variable (h : Hashing) {known : NodeID → Prop}

def places (id : NodeID) : List NodeKey :=
  (range h.numberOfReplicas).map fun i => h.hashKey (nodeKey id i)

namespace Ring

variable (c : Ring)

def updateSortedHashes : Ring :=
  { c with sortedHashes := c.circle.keys.sort (· ≤ ·) }

def addCache (node : Node) : Ring :=
  updateSortedHashes { c with
    circle := (places h node.id).foldl (·.insert · node) c.circle }

def removeCache (nodeID : NodeID) : Ring :=
  updateSortedHashes { c with circle := c.circle.eraseAll (places h nodeID) }

def resetCache : Ring := ⟨∅, []⟩

abbrev Sorted : Prop := c.sortedHashes = c.circle.keys.sort (· ≤ ·)

def search (key : NodeKey) : Nat :=
  let i := c.sortedHashes.findIdx (less key.1 ·.1)
  if i ≥ c.sortedHashes.length then 0 else i

def nodeAt (i : Nat) : Option Node := c.sortedHashes[i]?.bind c.circle.get

def getNeighbor (name : String) : Option (Except RingErr Node) :=
  if c.circle.keys.card = 0 then some (.error .emptyCircle)
  else (c.nodeAt (c.search (h.hashKey name))).map .ok

variable {c}

lemma get_addCache (node key) : (c.addCache h node).circle.get key =
      if key ∈ places h node.id then some node else c.circle.get key := by
  simp only [addCache, updateSortedHashes]
  generalize places h node.id = keys
  generalize c.circle = circle
  induction keys generalizing circle with
  | nil => simp
  | cons first rest ih =>
    rw [foldl_cons, ih]
    by_cases same : key = first <;> simp [same]

lemma get_removeCache (nodeID key) : (c.removeCache h nodeID).circle.get key =
      if key ∈ places h nodeID then none else c.circle.get key := by
  rw [removeCache, updateSortedHashes, FiniteMap.get_eraseAll]
  congr

end Ring

inductive Op
  | add (node : Node)
  | remove (nodeID : NodeID)
  | reset

namespace Op

def run (c : Ring) : Op → Ring
  | add node => c.addCache h node
  | remove nodeID => c.removeCache h nodeID
  | reset => Ring.resetCache

def keep (nodes : FiniteMap NodeID Node) : Op → FiniteMap NodeID Node
  | add node => nodes.insert node.id node
  | remove nodeID => nodes.erase nodeID
  | reset => ∅

def Names (known : NodeID → Prop) : Op → Prop
  | add node => known node.id
  | remove nodeID => known nodeID
  | reset => True

end Op

def run (ops : List Op) : Ring := ops.foldl (Op.run h) Ring.resetCache

def present (ops : List Op) : FiniteMap NodeID Node := ops.foldl Op.keep ∅

variable {h}

lemma places_apart (free : CollisionFree h known) {id id' key} (left : known id)
    (right : known id') (first : key ∈ places h id) (second : key ∈ places h id') : id = id' := by
  simp only [places, mem_map, mem_range] at first second
  obtain ⟨i, small, rfl⟩ := first
  obtain ⟨j, small', same⟩ := second
  exact (nodeKey_inj (free.length id id' left right)
    (free.hash id id' left right i small j small' same.symm)).2

lemma places_nodup (free : CollisionFree h known) {id} (named : known id) :
    (places h id).Nodup := by
  refine nodup_range.map_on fun i small j small' same => ?_
  rw [mem_range] at small small'
  exact (nodeKey_inj rfl (free.hash id id named named i small j small' same)).1

structure Mirrors (h : Hashing) (known : NodeID → Prop) (c : Ring)
    (nodes : FiniteMap NodeID Node) : Prop where
  sorted : c.Sorted
  circle : ∀ key node, c.circle.get key = some node ↔
    nodes.get node.id = some node ∧ key ∈ places h node.id
  named : ∀ id node, nodes.get id = some node → node.id = id ∧ known id

namespace Mirrors

variable {c : Ring} {nodes : FiniteMap NodeID Node}

lemma add (free : CollisionFree h known) (mirrors : Mirrors h known c nodes)
    (new : known node.id) : Mirrors h known (c.addCache h node) (nodes.insert node.id node) := by
  refine ⟨rfl, ?_, ?_⟩
  · intro key other
    rw [Ring.get_addCache, FiniteMap.get_insert]
    by_cases same : other.id = node.id
    · by_cases here : key ∈ places h node.id
      · simp [same, here]
      · simp [same, here, mirrors.circle]
    · by_cases here : key ∈ places h node.id
      · have apart : ¬key ∈ places h other.id ∨ nodes.get other.id ≠ some other := by
          by_contra both
          push Not at both
          exact same (places_apart free (mirrors.named _ _ both.2).2 new both.1 here)
        have differ : node ≠ other := fun equal => same (by rw [equal])
        rcases apart with away | absent
        · simp [same, here, differ, away]
        · simp [same, here, differ, absent]
      · simp [same, here, mirrors.circle]
  · intro id other found
    rw [FiniteMap.get_insert] at found
    split at found
    · rename_i same
      cases found
      exact ⟨same.symm, same ▸ new⟩
    · exact mirrors.named id other found

lemma remove (free : CollisionFree h known) (mirrors : Mirrors h known c nodes) {id}
    (old : known id) : Mirrors h known (c.removeCache h id) (nodes.erase id) := by
  refine ⟨rfl, ?_, ?_⟩
  · intro key other
    rw [Ring.get_removeCache, FiniteMap.get_erase]
    by_cases same : other.id = id
    · by_cases here : key ∈ places h id
      · simp [same, here]
      · simp [same, here, mirrors.circle]
    · by_cases here : key ∈ places h id
      · simp only [here, if_true, same, if_false, reduceCtorEq, false_iff, not_and]
        intro found away
        exact same (places_apart free (mirrors.named _ _ found).2 old away here)
      · simp [same, here, mirrors.circle]
  · intro other node found
    rw [FiniteMap.get_erase] at found
    split at found
    · simp at found
    · exact mirrors.named other node found

lemma reset : Mirrors h known Ring.resetCache ∅ := by
  constructor <;> simp [Ring.resetCache, Ring.Sorted]

lemma runFrom (free : CollisionFree h known) {ops : List Op} :
    ∀ {c : Ring} {nodes : FiniteMap NodeID Node}, Mirrors h known c nodes →
      (∀ op ∈ ops, op.Names known) → Mirrors h known
        (ops.foldl (Op.run h) c) (ops.foldl Op.keep nodes) := by
  induction ops with
  | nil => exact fun mirrors _ => mirrors
  | cons op ops ih =>
    intro c nodes mirrors named
    refine ih ?_ fun later member => named later (mem_cons_of_mem op member)
    have names := named op mem_cons_self
    cases op with
    | add => exact mirrors.add free names
    | remove => exact mirrors.remove free names
    | reset => exact .reset

lemma of_run (free : CollisionFree h known) (named : ∀ op ∈ ops, op.Names known) :
    Mirrors h known (run h ops) (present ops) :=
  runFrom free .reset named

lemma card_keys (free : CollisionFree h known) (mirrors : Mirrors h known c nodes) (id) :
    (c.circle.keys.filter fun key => (c.circle.get key).map Node.id = some id).card =
      if (nodes.get id).isSome then h.numberOfReplicas else 0 := by
  cases found : nodes.get id with
  | none =>
    rw [if_neg (by simp), Finset.card_eq_zero, Finset.filter_eq_empty_iff]
    intro key _ owned
    obtain ⟨node, stored, same⟩ := Option.map_eq_some_iff.mp owned
    simp [← same, ((mirrors.circle key node).mp stored).1] at found
  | some node =>
    obtain ⟨same, named⟩ := mirrors.named id node found
    have keys : (c.circle.keys.filter fun key => (c.circle.get key).map Node.id = some id) =
        (places h id).toFinset := by
      ext key
      rw [Finset.mem_filter, mem_toFinset, c.circle.mem_keys]
      constructor
      · rintro ⟨-, owned⟩
        obtain ⟨other, stored, equal⟩ := Option.map_eq_some_iff.mp owned
        exact equal ▸ ((mirrors.circle key other).mp stored).2
      · intro member
        have stored := (mirrors.circle key node).mpr (by rw [same]; exact ⟨found, member⟩)
        simp [stored, same]
    rw [keys, toFinset_card_of_nodup (places_nodup free named)]
    simp [places]

end Mirrors

def Next {α : Type} [LinearOrder α] (keys : Finset α) (key k : α) : Prop :=
  k ∈ keys ∧ ∀ other ∈ keys, if key < k then key < other → k ≤ other else other ≤ key ∧ k ≤ other

section

variable {α : Type} [LinearOrder α] {keys larger : Finset α} {key k k' : α}

lemma Next.mono (next : Next larger key k) (within : keys ⊆ larger) (member : k ∈ keys) :
    Next keys key k :=
  ⟨member, fun other listed => next.2 other (within listed)⟩

lemma Next.unique (left : Next keys key k) (right : Next keys key k') : k = k' := by
  have first := left.2 k' right.1
  have second := right.2 k left.1
  split at first
  · rename_i above
    split at second
    · rename_i above'
      exact le_antisymm (first above') (second above)
    · exact absurd above (not_lt.mpr second.1)
  · split at second
    · rename_i above'
      exact absurd above' (not_lt.mpr first.1)
    · exact le_antisymm first.2 second.2

end

namespace Ring

variable {c : Ring}

lemma Sorted.pairwise (sorted : c.Sorted) : c.sortedHashes.Pairwise (· < ·) := by
  rw [sorted]
  exact (Finset.sortedLT_sort _).pairwise

lemma Sorted.mem (sorted : c.Sorted) (key) : key ∈ c.sortedHashes ↔ key ∈ c.circle.keys := by
  rw [sorted, Finset.mem_sort]

lemma search_next (sorted : c.Sorted) (filled : c.circle.keys.Nonempty) (key) :
    c.search key < c.sortedHashes.length ∧
      ∃ k, c.sortedHashes[c.search key]? = some k ∧ Next c.circle.keys key k := by
  have ordered := sorted.pairwise
  have listed := sorted.mem
  have some : 0 < c.sortedHashes.length := by simpa [sorted] using filled
  simp only [search]
  split
  · rename_i beyond
    have none : ∀ k ∈ c.sortedHashes, k ≤ key := by
      intro k member
      have less := findIdx_eq_length.mp (Nat.le_antisymm findIdx_le_length beyond) k member
      rw [← not_lt, ← less_iff, less]
      exact Bool.false_ne_true
    refine ⟨some, _, getElem?_eq_getElem some, (listed _).mp (getElem_mem some), ?_⟩
    intro other member
    rw [if_neg (not_lt.mpr (none _ (getElem_mem some)))]
    refine ⟨none other ((listed other).mpr member), ?_⟩
    obtain ⟨i, inside, rfl⟩ := getElem_of_mem ((listed other).mpr member)
    rcases Nat.eq_zero_or_pos i with rfl | later
    · exact le_rfl
    · exact (pairwise_iff_getElem.mp ordered 0 i some inside later).le
  · rename_i inside
    rw [not_le] at inside
    refine ⟨inside, _, getElem?_eq_getElem inside, (listed _).mp (getElem_mem inside), ?_⟩
    intro other member
    have above := less_iff.mp (findIdx_getElem (w := inside))
    rw [if_pos above]
    intro larger
    obtain ⟨i, placed, rfl⟩ := getElem_of_mem ((listed other).mpr member)
    by_contra smaller
    rcases Nat.lt_or_ge i (c.sortedHashes.findIdx (less key.1 ·.1)) with before | after
    · exact absurd (less_iff.mpr larger) (Bool.eq_false_iff.mp (not_of_lt_findIdx before))
    · rcases Nat.eq_or_lt_of_le after with same | after
      · exact smaller (by simp only [same, le_refl])
      · exact smaller (pairwise_iff_getElem.mp ordered _ i inside placed after).le

lemma getNeighbor_of_next (sorted : c.Sorted) (next : Next c.circle.keys (h.hashKey name) k) :
    c.getNeighbor h name = (c.circle.get k).map .ok := by
  have filled : c.circle.keys.Nonempty := ⟨k, next.1⟩
  obtain ⟨-, k', found, next'⟩ := search_next sorted filled (h.hashKey name)
  rw [getNeighbor, if_neg filled.card_ne_zero, nodeAt, found, next.unique next']
  rfl

lemma getNeighbor_moves {small large : Ring} (sorted : small.Sorted) (sorted' : large.Sorted)
    (within : small.circle.keys ⊆ large.circle.keys) (name) :
    small.getNeighbor h name = large.getNeighbor h name ∨
      ∃ k node, large.circle.get k = some node ∧ small.circle.get k ≠ some node ∧
        large.getNeighbor h name = some (.ok node) := by
  rcases large.circle.keys.eq_empty_or_nonempty with empty | filled
  · have none : small.circle.keys = ∅ := Finset.subset_empty.mp (empty ▸ within)
    simp [getNeighbor, empty, none]
  · obtain ⟨-, k, -, next⟩ := search_next sorted' filled (h.hashKey name)
    obtain ⟨node, stored⟩ := Option.isSome_iff_exists.mp ((large.circle.mem_keys k).mp next.1)
    have answer := getNeighbor_of_next sorted' next
    rw [stored] at answer
    by_cases kept : small.circle.get k = some node
    · have before := next.mono within (FiniteMap.mem_keys_of_get kept)
      rw [answer, getNeighbor_of_next sorted before, kept]
      exact .inl rfl
    · exact .inr ⟨k, node, stored, kept, answer⟩

end Ring

/-- The ring depends only on the nodes that are present, not on how they came and went. -/
theorem ring_determined (free : CollisionFree h known) {ops ops' : List Op}
    (named : ∀ op ∈ ops, op.Names known) (named' : ∀ op ∈ ops', op.Names known)
    (same : present ops = present ops') : run h ops = run h ops' := by
  have left := Mirrors.of_run free named
  have right := Mirrors.of_run free named'
  rw [← same] at right
  have circle : (run h ops).circle = (run h ops').circle := by
    ext1 key
    refine Option.ext fun node => ?_
    rw [left.circle, right.circle]
  have hashes := left.sorted
  rw [Ring.Sorted, circle, ← right.sorted] at hashes
  rw [Ring.mk.injEq]
  exact ⟨circle, hashes⟩

theorem ring_moves_least (free : CollisionFree h known) {ops : List Op}
    (named : ∀ op ∈ ops, op.Names known) {c : Ring} (built : run h ops = c) :
    (c.sortedHashes.Pairwise (· < ·) ∧ ∀ key, key ∈ c.sortedHashes ↔ key ∈ c.circle.keys) ∧
    (∀ id, (c.circle.keys.filter fun key => (c.circle.get key).map Node.id = some id).card =
      if ((present ops).get id).isSome then h.numberOfReplicas else 0) ∧
    ∀ name,
      (∀ node, known node.id → (present ops).get node.id = none →
        (c.addCache h node).getNeighbor h name ≠ c.getNeighbor h name →
        (c.addCache h node).getNeighbor h name = some (.ok node)) ∧
      (∀ id, known id → (c.removeCache h id).getNeighbor h name ≠ c.getNeighbor h name →
        ∃ node, c.getNeighbor h name = some (.ok node) ∧ node.id = id) ∧
      ∀ node, known node.id → (present ops).get node.id = none →
        ((c.addCache h node).removeCache h node.id).getNeighbor h name =
          c.getNeighbor h name := by
  have mirrors := Mirrors.of_run free named
  rw [built] at mirrors
  have sorted := mirrors.sorted
  refine ⟨⟨sorted.pairwise, sorted.mem⟩, mirrors.card_keys free, fun name => ⟨?_, ?_, ?_⟩⟩
  · intro node new _ moved
    have within : c.circle.keys ⊆ (c.addCache h node).circle.keys := by
      intro key
      simp only [FiniteMap.mem_keys, Ring.get_addCache]
      split <;> simp
    rcases Ring.getNeighbor_moves sorted rfl within name with same | ⟨k, other, at', gone, answer⟩
    · exact absurd same.symm moved
    · rw [Ring.get_addCache] at at'
      split at at'
      · rw [answer, Option.some.inj at']
      · exact absurd at' gone
  · intro id old moved
    have within : (c.removeCache h id).circle.keys ⊆ c.circle.keys := by
      intro key
      simp only [FiniteMap.mem_keys, Ring.get_removeCache]
      split <;> simp
    rcases Ring.getNeighbor_moves rfl sorted within name with same | ⟨k, node, at', gone, answer⟩
    · exact absurd same moved
    · refine ⟨node, answer, ?_⟩
      rw [Ring.get_removeCache] at gone
      obtain ⟨found, placed⟩ := (mirrors.circle k node).mp at'
      by_contra other
      have away : k ∉ places h id := fun here =>
        other (places_apart free (mirrors.named _ _ found).2 old placed here)
      exact gone (by rw [if_neg away, at'])
  · intro node new absent
    have circle : ((c.addCache h node).removeCache h
        node.id).circle = c.circle := by
      ext1 key
      rw [Ring.get_removeCache, Ring.get_addCache]
      split
      · rename_i here
        rcases stored : c.circle.get key with _ | other
        · rfl
        · obtain ⟨found, placed⟩ := (mirrors.circle key other).mp stored
          rw [places_apart free (mirrors.named _ _ found).2 new placed here, absent] at found
          simp at found
      · rfl
    have same : (c.addCache h node).removeCache h node.id = c := by
      rcases c with ⟨circle', hashes⟩
      simp only [Ring.removeCache, Ring.updateSortedHashes] at circle ⊢
      rw [circle, ← sorted]
    rw [same]

namespace Sample

def hashing : Hashing where
  hashKey name := ⟨replicate 31 0 ++ [Fin.ofNat 256 (Nat.ofDigitChars 10 name.toList 0)], by simp⟩
  numberOfReplicas := 20

def miner : Node := ⟨"0", .miner, "host", "", none, ⟨0, 0, 0, 0⟩⟩

def client : Node := ⟨"1", .client, "host", "", none, ⟨0, 0, 0, 0⟩⟩

lemma free : CollisionFree hashing (· ∈ ["0", "1"]) := by
  have hashes : ∀ id ∈ ["0", "1"], ∀ id' ∈ ["0", "1"], id.length = id'.length ∧
      ∀ i < 20, ∀ j < 20, hashing.hashKey (nodeKey id i) = hashing.hashKey (nodeKey id' j) →
        nodeKey id i = nodeKey id' j := by decide +kernel
  exact ⟨fun id id' left right => (hashes id left id' right).1,
    fun id id' left right => (hashes id left id' right).2⟩

lemma names : ∀ op ∈ [Op.add miner], op.Names (· ∈ ["0", "1"]) := by simp [Op.Names, miner]

end Sample

open Sample

theorem ring_determined_readded :
    run hashing [.add miner, .remove "0", .add miner] = run hashing [.add miner] :=
  ring_determined free (by simp [Op.Names, miner]) names (by
    ext1 id
    by_cases same : id = "0" <;> simp [present, Op.keep, miner, same])

theorem ring_moves_least_added :
    (((run hashing [.add miner]).addCache hashing client).removeCache hashing "1").getNeighbor
      hashing "7" = (run hashing [.add miner]).getNeighbor hashing "7" :=
  ((ring_moves_least free names rfl).2.2 "7").2.2 client (by simp [client])
    (by simp [present, Op.keep, miner, client])

end SQLess.Consistent
