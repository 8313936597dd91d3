import SQLess.SQLChain.Steps

/-! Opening a chain again. -/

namespace SQLess.SQLChain

open List BlockNode

open Lib (FiniteMap OrderedStore putEntry_last mem_putEntry run_invariant always_of_forall)
open SQLess.Types

variable {DB Query Pattern Value : Type}

namespace BlockNode

def clear : BlockNode Query → BlockNode Query
  | .root hash height _ => .root hash height none
  | .child parent hash height _ => .child parent.clear hash height none

def Ascending : BlockNode Query → Prop
  | .root _ _ _ => True
  | .child parent hash height block =>
    parent.indexKey < (child parent hash height block).indexKey ∧ parent.Ascending

instance decidableAscending : (n : BlockNode Query) → Decidable n.Ascending
  | .root _ _ _ => .isTrue trivial
  | .child parent _ _ _ =>
    have := decidableAscending parent
    inferInstanceAs (Decidable (_ ∧ _))

@[simp] lemma clear_hash (n : BlockNode Query) : n.clear.hash = n.hash := by
  cases n <;> rfl

@[simp] lemma clear_height (n : BlockNode Query) : n.clear.height = n.height := by
  cases n <;> rfl

lemma clear_count (n : BlockNode Query) : n.clear.count = n.count := by
  induction n with
  | root => rfl
  | child parent hash height block ih => exact congrArg (· + 1) ih

end BlockNode

def Head.clear (head : Head Query) : Head Query :=
  { head with node := head.node.map BlockNode.clear }

inductive Grown (crypto : Crypto Query) (height : Time → Int) (genesis : Block Query) :
    BlockNode Query → FiniteMap Hash (BlockNode Query) → OrderedStore Nat (Block Query) → Prop
  | genesis {node : BlockNode Query}
      (made : node = newBlockNode (height genesis.timestamp) genesis none) :
      Grown crypto height genesis node (FiniteMap.insert ∅ node.hash node)
        (OrderedStore.empty.put node.indexKey genesis)
  | push {parent node : BlockNode Query} {bi : FiniteMap Hash (BlockNode Query)}
      {store : OrderedStore Nat (Block Query)} (b : Block Query)
      (grown : Grown crypto height genesis parent bi store) (follows : b.parentHash = parent.hash)
      (verified : b.verify crypto = some (.ok ()))
      (made : node = newBlockNode (height b.timestamp) b (some parent)) :
      Grown crypto height genesis node (bi.insert node.hash node) (store.put node.indexKey b)

section

variable {crypto : Crypto Query} {height : Time → Int} {genesis : Block Query}
  {node : BlockNode Query} {bi : FiniteMap Hash (BlockNode Query)}
  {store : OrderedStore Nat (Block Query)}

lemma Grown.entries_le (grown : Grown crypto height genesis node bi store)
    (ascending : node.Ascending) : ∀ entry ∈ store.entries, entry.1 ≤ node.indexKey := by
  induction grown with
  | genesis =>
    intro entry member
    rcases mem_putEntry member with rfl | old
    · exact Nat.le_refl _
    · cases old
  | push b grown follows verified made ih =>
    subst made
    obtain ⟨further, before⟩ := ascending
    intro entry member
    rcases mem_putEntry member with rfl | old
    · exact Nat.le_refl _
    · exact (ih before entry old).trans further.le

lemma loadBlocks_concat (blocks b) (loaded : Chain.loadBlocks crypto blocks l = .ok l') :
    Chain.loadBlocks crypto (blocks ++ [b]) l = l'.next crypto b := by
  induction blocks generalizing l with
  | nil =>
    cases loaded
    rw [nil_append, Chain.loadBlocks]
    cases Chain.Loading.next crypto l' b <;> rfl
  | cons first rest ih =>
    rw [cons_append, Chain.loadBlocks]
    rw [Chain.loadBlocks] at loaded
    cases advanced : l.next crypto first with
    | error =>
      rw [advanced] at loaded
      cases loaded
    | ok =>
      rw [advanced] at loaded
      exact ih loaded

structure Read (rt : Runtime Query) (node : BlockNode Query)
    (bi : FiniteMap Hash (BlockNode Query)) (l : Chain.Loading Query) : Prop where
  rt : l.rt = rt
  last : l.last = some node.clear
  bi : ∀ hash, l.bi.get hash = (bi.get hash).map BlockNode.clear

lemma Read.add {rt} {l : Chain.Loading Query} (same : l.rt = rt)
    (indexed : ∀ hash, l.bi.get hash = (bi.get hash).map BlockNode.clear) (b parent) :
    Read rt (newBlockNode (rt.getHeightFromTime b.timestamp) b parent)
      (bi.insert b.blockHash (newBlockNode (rt.getHeightFromTime b.timestamp) b parent))
      (l.add b (parent.map BlockNode.clear)) := by
  subst same
  have cleared : newBlockNodeEx (l.rt.getHeightFromTime b.timestamp) b.blockHash none
      (parent.map BlockNode.clear) =
        (newBlockNode (l.rt.getHeightFromTime b.timestamp) b parent).clear := by
    cases parent <;> rfl
  have named : (newBlockNode (l.rt.getHeightFromTime b.timestamp) b parent).hash = b.blockHash := by
    cases parent <;> rfl
  refine ⟨rfl, congrArg some cleared, ?_⟩
  intro hash
  simp only [Chain.Loading.add, cleared, clear_hash, named, FiniteMap.get_insert]
  by_cases same : hash = b.blockHash
  · simp [same]
  · simp [same, indexed]

lemma Grown.loadBlocks (grown : Grown crypto height genesis node bi store)
    (ascending : node.Ascending) (rt : Runtime Query)
    (heights : (rt.setGenesis genesis).getHeightFromTime = height)
    (verified : genesis.verifyAsGenesis crypto = .ok ()) :
    ∃ l, Chain.loadBlocks crypto store.values ⟨rt, ∅, none, 0⟩ = .ok l ∧
      Read (rt.setGenesis genesis) node bi l := by
  subst heights
  induction grown with
  | genesis made =>
    subst made
    have started : Chain.Loading.next crypto ⟨rt, ∅, none, 0⟩ genesis =
        .ok (Chain.Loading.add ⟨rt.setGenesis genesis, ∅, none, 0⟩ genesis none) := by
      simp only [Chain.Loading.next, verified]
    have blank : ∀ hash, (∅ : FiniteMap Hash (BlockNode Query)).get hash =
        ((∅ : FiniteMap Hash (BlockNode Query)).get hash).map BlockNode.clear := fun _ => rfl
    have read := Read.add (l := ⟨rt.setGenesis genesis, ∅, none, 0⟩) rfl blank genesis none
    refine ⟨_, ?_, read⟩
    exact (loadBlocks_concat [] genesis rfl).trans started
  | @push parent _ bi store b grown follows checked made ih =>
    subst made
    obtain ⟨further, before⟩ := ascending
    obtain ⟨l, loaded, read⟩ := ih before
    have further : parent.indexKey < (newBlockNode
        ((rt.setGenesis genesis).getHeightFromTime b.timestamp) b (some parent)).indexKey :=
      further
    -- the key is greater than all others, so the block is read last
    have last : (store.put (newBlockNode ((rt.setGenesis genesis).getHeightFromTime b.timestamp)
        b (some parent)).indexKey b).values = store.values ++ [b] := by
      simp only [OrderedStore.values, OrderedStore.put]
      rw [putEntry_last fun entry member =>
        (grown.entries_le before entry member).trans_lt further, map_append]
      rfl
    have next : l.next crypto b = .ok (l.add b (some parent.clear)) := by
      simp only [Chain.Loading.next, read.last, follows, clear_hash, if_true, checked]
    refine ⟨l.add b (some parent.clear), ?_, Read.add read.rt read.bi b (some parent)⟩
    rw [last, loadBlocks_concat _ b loaded, next]

lemma newChain_loaded (config) (strg : DB)
    (loaded : Chain.loadBlocks crypto store.values ⟨.newRunTime config, ∅, none, 0⟩ = .ok l)
    (read : l.last = some last) (positive : 0 ≤ last.height) :
    Chain.newChain crypto config strg store = .ok ⟨l.bi, newAckIndex,
        { Xenomint.State.newState config.isolationLevel strg with current := l.id },
        { l.rt with head := ⟨some last, last.hash, last.height⟩ }, store⟩ := by
  simp only [Chain.newChain, loaded, read, if_neg (Int.not_lt.mpr positive)]

end

structure Linked (crypto : Crypto Query) (config : Config Query) (genesis : Block Query)
    (c : Chain DB Query) : Prop where
  verified : genesis.verifyAsGenesis crypto = .ok ()
  chainInitTime : c.rt.chainInitTime = genesis.timestamp
  period : c.rt.period = config.period
  grown : ∃ node, c.rt.head = ⟨some node, node.hash, node.height⟩ ∧
    Grown crypto c.rt.getHeightFromTime genesis node c.bi c.blkDB

section

variable {crypto : Crypto Query} {config : Config Query} {genesis : Block Query}
  {c c' : Chain DB Query}

lemma newRunTime_genesis (genesis) (given : config.genesis = some genesis) :
    ∃ r, Runtime.newRunTime config = Runtime.setGenesis r genesis ∧ r.period = config.period := by
  unfold Runtime.newRunTime
  rw [given]
  exact ⟨_, rfl, rfl⟩

lemma newChain_linked (opened : Chain.newChain crypto config strg .empty = .ok c) :
    ∃ genesis, Linked crypto config genesis c := by
  simp only [Chain.newChain, OrderedStore.values, OrderedStore.empty, map_nil,
    Chain.loadBlocks] at opened
  cases given : config.genesis with
  | none => simp [given] at opened
  | some genesis =>
    simp only [given] at opened
    cases verified : genesis.verifyAsGenesis crypto with
    | error => simp [verified] at opened
    | ok =>
      simp only [verified, Chain.pushBlock_eq] at opened
      split at opened
      · cases opened
      rename_i pushed
      cases opened
      obtain ⟨r, made, period⟩ := newRunTime_genesis genesis given
      rw [made] at pushed
      obtain ⟨rfl, -⟩ := Prod.mk.inj pushed
      exact ⟨genesis, verified, rfl, period, _, rfl, .genesis rfl⟩

lemma Linked.same (linked : Linked crypto config genesis c) (same : Chain.SameBlocks c c') :
    Linked crypto config genesis c' := by
  obtain ⟨node, head, grown⟩ := linked.grown
  refine ⟨linked.verified, same.chainInitTime.trans linked.chainInitTime,
    same.period.trans linked.period, node, same.head.trans head, ?_⟩
  rw [same.height, same.bi, same.blkDB]
  exact grown

lemma Linked.accepted {e : Xenomint.Engine DB Query Pattern Value}
    (linked : Linked crypto config genesis c) (accepted : Chain.Accepted crypto e c c' b st) :
    Linked crypto config genesis c' := by
  obtain ⟨node, head, grown⟩ := linked.grown
  have follows : b.parentHash = node.hash := by rw [accepted.parent, head]
  rw [accepted.chain]
  refine ⟨linked.verified, linked.chainInitTime, linked.period, _, rfl, ?_⟩
  exact .push b grown follows accepted.verified (by rw [head]; rfl)

lemma Linked.run [DecidableEq Query] {env : Setting DB Query Pattern Value} {n n' : Node DB Query}
    {events} (linked : Linked env.crypto config genesis n.chain) (ran : n.run env events =
      some n') : Linked env.crypto config genesis n'.chain := by
  refine run_invariant (fun n => Linked env.crypto config genesis n.chain) ?_ linked
    (always_of_forall (fun _ _ => trivial) events n) ran
  intro n event n' linked _ stepped
  rcases Node.step_blocks stepped with same | ⟨b, st, accepted⟩
  · exact linked.same same
  · exact linked.accepted accepted

end

/-- A chain whose keys ascend to a head of no negative height is opened again with the same head, at
the same height and count, and with the same nodes in its index. -/
theorem reopen_same_head [DecidableEq Query] (env : Setting DB Query Pattern Value)
    (config : Config Query) (strg strg' : DB) {start : Chain DB Query} {n : Node DB Query}
    {events : List (Event Query)}
    (opened : Chain.newChain env.crypto config strg .empty = .ok start)
    (ran : Node.run env events ⟨start, []⟩ = some n) {node : BlockNode Query}
    (head : n.chain.rt.head.node = some node) (ascending : node.Ascending)
    (positive : 0 ≤ node.height) :
    ∃ c : Chain DB Query, Chain.newChain env.crypto config strg' n.chain.blkDB = .ok c ∧
      c.rt.head = n.chain.rt.head.clear ∧ node.clear.count = node.count ∧
      ∀ hash, c.bi.get hash = (n.chain.bi.get hash).map BlockNode.clear := by
  obtain ⟨genesis, linked⟩ := newChain_linked opened
  have linked := linked.run ran
  obtain ⟨node', head', grown⟩ := linked.grown
  obtain rfl : node' = node := by
    rw [head', Option.some.injEq] at head
    exact head
  have heights : ((Runtime.newRunTime config).setGenesis genesis).getHeightFromTime =
      n.chain.rt.getHeightFromTime := by
    funext t
    have period : ((Runtime.newRunTime config).setGenesis genesis).period = config.period := by
      unfold Runtime.newRunTime
      cases config.genesis <;> rfl
    have time : ((Runtime.newRunTime config).setGenesis genesis).chainInitTime =
        genesis.timestamp := rfl
    rw [Runtime.getHeightFromTime, Runtime.getHeightFromTime, period, time, linked.chainInitTime,
      linked.period]
  obtain ⟨l, loaded, read⟩ :=
    grown.loadBlocks ascending (.newRunTime config) heights linked.verified
  refine ⟨_, newChain_loaded config strg' loaded read.last
    (by rwa [clear_height]), ?_, node'.clear_count, read.bi⟩
  simp only [clear_hash, clear_height, Head.clear, head', Option.map_some]

theorem reopen_same_head_sample : ∃ (n : Node Nat Nat) (c : Chain Nat Nat), Node.run Sample.setting
        [.endTurn, .check (Sample.block "BBBBBBBB" 9000 10 [] []) true, .endTurn, .endTurn,
          .check (Sample.block "BBBBBBBB" 8990 35 [] []) true] ⟨Sample.chain 0, []⟩ = some n ∧
      Chain.newChain Sample.crypto Sample.config 0 n.chain.blkDB = .ok c ∧
      c.rt.head = n.chain.rt.head.clear ∧ n.chain.rt.head.height = 3 := by
  have ran : Node.run Sample.setting
      [.endTurn, .check (Sample.block "BBBBBBBB" 9000 10 [] []) true, .endTurn, .endTurn,
        .check (Sample.block "BBBBBBBB" 8990 35 [] []) true] ⟨Sample.chain 0, []⟩ = some _ := rfl
  obtain ⟨c, opened, same, -⟩ := reopen_same_head Sample.setting Sample.config 0 0
    (Sample.newChain_sample 0) ran rfl (by decide) (by decide)
  exact ⟨_, c, ran, opened, same, rfl⟩

/-- A peer sends two blocks in its turn. -/
theorem reopen_fails : ∃ n : Node Nat Nat, Node.run Sample.setting
        [.endTurn, .check (Sample.block "BBBBBBBB" 9000 10 [] []) true,
          .check (Sample.block "BBBBBBBB" 8990 12 [] []) true] ⟨Sample.chain 0, []⟩ = some n ∧
      n.chain.rt.head.node.map BlockNode.count = some 2 ∧
      Chain.newChain Sample.crypto Sample.config 0 n.chain.blkDB = .error .parentNotFound := by
  exact ⟨_, rfl, rfl, rfl⟩

end SQLess.SQLChain
