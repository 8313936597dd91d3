import SQLess.BlockProducer.ChainRun

/-! Irreversibility. -/

namespace SQLess.BlockProducer

open Lib List BlockNode Branch

variable {v br origin : Branch} {bl : BPBlock} {c c' : Chain} {i : Nat}

def CollisionFree (env : Env) (known : BPBlock → Prop) : Prop :=
  ∀ a b hash, known a → known b → env.bpHeaderHash a.header = some hash →
    env.bpHeaderHash b.header = some hash → a.header = b.header

structure ValidNode (env : Env) (known : BPBlock → Prop) (config : Config) (h : Nat)
    (b : BPBlock) : Prop where
  seen : known b
  hashed : env.bpHeaderHash b.header = some b.blockHash
  height : h = config.heightOfTime b.timestamp

def SameTransactions (known : BPBlock → Prop) : Prop :=
  ∀ a b, known a → known b → a.blockHash = b.blockHash → a.transactions = b.transactions

structure Anchored (env : Env) (known : BPBlock → Prop) (c : Chain) : Prop where
  irreLinked : c.lastIrre.Linked (ValidNode env known c.config)
  linked : ∀ b ∈ c.branches, b.head.Linked (ValidNode env known c.config)
  rooted : ∀ b ∈ c.branches, c.lastIrre.trail <+: b.head.trail
  maximal : ∀ b ∈ c.branches, b.head.count ≤ c.headBranch.head.count
  applied : c.storage.applied.map BlockNode.hash = c.lastIrre.trail
  contents : SameTransactions known → c.storage.applied.map BlockNode.txs = c.lastIrre.contents

def Chain.Deep (c : Chain) : Prop :=
  c.lastIrre.count ≤ c.headBranch.head.count + 1 - c.config.confirms

variable {env : Env} {known : BPBlock → Prop} {producing : Prop} {config : Config}

lemma CollisionFree.header_eq (free : CollisionFree env known) (h a k b)
    (left : ValidNode env known config h a) (right : ValidNode env known config k b)
    (same : a.blockHash = b.blockHash) : a.header = b.header :=
  free a b a.blockHash left.seen right.seen left.hashed (same ▸ right.hashed)

lemma CollisionFree.parentHash_eq (free : CollisionFree env known) (h a k b)
    (left : ValidNode env known config h a) (right : ValidNode env known config k b)
    (same : a.blockHash = b.blockHash) : a.parentHash = b.parentHash := by
  rw [BPBlock.parentHash, free.header_eq h a k b left right same, BPBlock.parentHash]

lemma SameTransactions.node_eq (content : SameTransactions known) (free : CollisionFree env known)
    (h a k b) (left : ValidNode env known config h a) (right : ValidNode env known config k b)
    (same : a.blockHash = b.blockHash) :
    a.parentHash = b.parentHash ∧ h = k ∧ a.transactions = b.transactions := by
  refine ⟨free.parentHash_eq h a k b left right same, ?_, content a b left.seen right.seen same⟩
  rw [left.height, right.height, BPBlock.timestamp, free.header_eq h a k b left right same]
  rfl

lemma heightOfTime_genesis (config : Config) :
    config.heightOfTime config.genesis.timestamp = 0 := by
  simp [Config.heightOfTime, timeSub]

lemma genesisChain_anchored
    (hashed : env.bpHeaderHash config.genesis.header = some config.genesis.blockHash)
    (seen : known config.genesis) (genesis : GenesisStorage config st) :
    Anchored env known (genesisChain config st) := by
  have valid : ValidNode env known config 0 config.genesis :=
    ⟨seen, hashed, (heightOfTime_genesis config).symm⟩
  have linked : config.genesisNode.Linked (ValidNode env known config) := .genesis valid
  refine ⟨linked, ?_, ?_, ?_, ?_, ?_⟩
  · intro b member
    simp only [genesisChain, mem_singleton] at member
    rw [member]
    exact linked
  · intro b member
    simp only [genesisChain, mem_singleton] at member
    rw [member]
    exact prefix_rfl
  · intro b member
    simp only [genesisChain, mem_singleton] at member
    rw [member]
    exact Nat.le_refl _
  · simp only [genesisChain, genesis.applied]
    rfl
  · intro _
    simp only [genesisChain, genesis.applied]
    rfl

lemma Attempt.linked
    (attempt : Attempt env known producing config v (.ok (br, bl)) origin) (seen : known bl)
    (linked : v.head.Linked (ValidNode env known config)) :
    br.head.Linked (ValidNode env known config) := by
  obtain ⟨head, link, hashed⟩ := attempt.extends
  rw [head]
  exact .child linked ⟨seen, hashed, rfl⟩ link

lemma trail_prefix_newNode (bl parent) : parent.trail <+: (config.newNode bl parent).trail := by
  simp [Config.newNode, newBlockNode]

lemma Attempt.trail_prefix (attempt : Attempt env known producing config v (.ok (br, bl)) origin) :
    v.head.trail <+: br.head.trail := by
  rw [attempt.extends.1]
  exact trail_prefix_newNode bl v.head

lemma newBranch_head {orders base head state pool}
    (ran : newBranch env orders base head state pool = .ok (.ok br)) : br.head = head := by
  obtain ⟨inst, packed, rfl⟩ := newBranch_eq_ok ran
  have kept := (packBlocks_pools packed).1
  exact kept

lemma findParent_spec {parent} (found : c.findParent bl = some parent)
    (noHead : ∀ v ∈ c.branches, v.head.hash ≠ bl.parentHash) :
    ∃ v ∈ c.branches, parent ∈ v.head.path ∧ parent.hash = bl.parentHash ∧
      c.lastIrre.count ≤ parent.count ∧ parent.count < v.head.count := by
  obtain ⟨v, member, located⟩ := exists_of_findSome?_eq_some found
  obtain ⟨onPath, sameHash, above⟩ := hasAncestorWithMinCount_eq_some located
  refine ⟨v, member, onPath, sameHash, above, ?_⟩
  have leading := (trail_prefix_of_mem onPath).length_le
  simp only [trail_length] at leading
  rcases Nat.lt_or_eq_of_le (Nat.le_of_succ_le_succ leading) with below | equal
  · exact below
  · have last := path_getElem?_count onPath
    rw [equal, path_getElem?_count v.head.self_mem_path, Option.some.injEq] at last
    rw [← last] at sameHash
    exact absurd sameHash (noHead v member)

lemma setBranch_mem (found : c.branches[i]? = some v)
    (attempt : Attempt env known producing c.config v result origin)
    (member : b ∈ (c.setBranch i origin).branches) : ∃ v' ∈ c.branches, b.head = v'.head := by
  rcases mem_or_eq_of_mem_set member with kept | rfl
  · exact ⟨b, kept, rfl⟩
  · exact ⟨v, mem_of_getElem? found, attempt.origin_head⟩

structure Chain.SameHeads (c c' : Chain) : Prop where
  branches : ∀ b ∈ c'.branches, ∃ v ∈ c.branches, b.head = v.head
  headBranch : c'.headBranch.head = c.headBranch.head
  lastIrre : c'.lastIrre = c.lastIrre
  config : c'.config = c.config
  applied : c'.storage.applied = c.storage.applied
  blocks : c'.storage.blocks = c.storage.blocks
  irreversible : c'.storage.irreversible = c.storage.irreversible

lemma Chain.SameHeads.pooled (c : Chain) (tx : Transaction) : c.SameHeads { c with
      storage := { c.storage with txPool := c.storage.txPool.add tx }
      txPool := c.txPool.add tx
      branches := c.branches.map (·.addTx tx)
      headBranch := c.headBranch.addTx tx } := by
  refine ⟨?_, addTx_head _ _, rfl, rfl, rfl, rfl, rfl⟩
  intro b member
  obtain ⟨v, kept, rfl⟩ := mem_map.mp member
  exact ⟨v, kept, addTx_head _ _⟩

lemma Chain.SameHeads.setBranch (headAt : c.HeadAt) (found : c.branches[i]? = some v)
    (attempt : Attempt env known producing c.config v result origin) :
    c.SameHeads (c.setBranch i origin) :=
  ⟨fun _ member => setBranch_mem found attempt member,
    setBranch_headBranch_head headAt found result origin attempt, rfl, rfl, rfl, rfl, rfl⟩

lemma Anchored.sameHeads (anchored : Anchored env known c)
    (same : c.SameHeads c') : Anchored env known c' := by
  refine ⟨?_, ?_, ?_, ?_, ?_, ?_⟩
  · rw [same.lastIrre, same.config]
    exact anchored.irreLinked
  · intro b member
    obtain ⟨v, kept, head⟩ := same.branches b member
    rw [head, same.config]
    exact anchored.linked v kept
  · intro b member
    obtain ⟨v, kept, head⟩ := same.branches b member
    rw [head, same.lastIrre]
    exact anchored.rooted v kept
  · intro b member
    obtain ⟨v, kept, head⟩ := same.branches b member
    rw [head, same.headBranch]
    exact anchored.maximal v kept
  · rw [same.applied, same.lastIrre]
    exact anchored.applied
  · rw [same.applied, same.lastIrre]
    exact anchored.contents

lemma head_count_of_higher
    (headAt : c.HeadAt) (anchored : Anchored env known c) (found : c.branches[i]? = some v)
    (attempt : Attempt env known producing c.config v (.ok (br, bl)) origin)
    (higher : i = c.headIndex ∨ c.headBranch.head.count < br.head.count) :
    br.head.count = c.headBranch.head.count + 1 := by
  have grown := attempt.head_count
  rcases higher with same | above
  · rw [Chain.HeadAt, ← same, found, Option.some.injEq] at headAt
    rw [grown, headAt]
  · have bound := anchored.maximal v (mem_of_getElem? found)
    omega

lemma trail_of_switch (headAt : c.HeadAt) (anchored : Anchored env known c) (deep : c.Deep)
    (found : c.branches[i]? = some v)
    (attempt : Attempt env known producing c.config v (.ok (br, bl)) origin)
    (higher : i = c.headIndex ∨ c.headBranch.head.count < br.head.count) :
    c.lastIrre.trail <+: (br.head.lastIrreversible c.config.confirms).trail := by
  have old : c.lastIrre.trail <+: br.head.trail :=
    (anchored.rooted v (mem_of_getElem? found)).trans attempt.trail_prefix
  have count := head_count_of_higher headAt anchored found attempt higher
  apply prefix_of_prefix_length_le old ( lastIrreversible_trail_prefix _ _)
  rw [trail_length, trail_length, lastIrreversible_count, count]
  exact Nat.succ_le_succ deep

lemma Anchored.contents_prefix {n : BlockNode} (content : SameTransactions known)
    (free : CollisionFree env known) (anchored : Anchored env known c)
    (linked : n.Linked (ValidNode env known c.config)) (leading : c.lastIrre.trail <+: n.trail) :
    c.lastIrre.contents <+: n.contents :=
  anchored.irreLinked.contents_prefix linked (content.node_eq free)
    (hasAncestor_of_leading leading)

lemma switched_anchored (free : CollisionFree env known) (headAt : c.HeadAt)
    (anchored : Anchored env known c) (deep : c.Deep) (found : c.branches[i]? = some v)
    (seen : known bl) (attempt : Attempt env known producing c.config v (.ok (br, bl)) origin)
    (higher : i = c.headIndex ∨ c.headBranch.head.count < br.head.count)
    (prepared : c.prepareSwitch env orders br = .ok switch) : Anchored env known
      ((c.setBranch i origin).finishSwitch (c.switchStorage bl switch) i br switch) := by
  obtain ⟨irre, newIrres, -⟩ := prepareSwitch_eq_ok prepared
  have moved := trail_of_switch headAt anchored deep found attempt higher
  have onPath := lastIrreversible_mem_path c.config.confirms br.head
  rw [← irre] at moved onPath
  have linked : br.head.Linked (ValidNode env known c.config) :=
    attempt.linked seen (anchored.linked v (mem_of_getElem? found))
  have irreLinked := linked.of_mem onPath
  refine ⟨irreLinked, ?_, ?_, ?_, ?_, ?_⟩
  · intro b member
    obtain ⟨kept, rfl, rfl | ⟨live, _⟩⟩ := finishSwitch_mem member
    · rw [clearTxs_head]
      exact linked
    · obtain ⟨v', present, head⟩ := setBranch_mem found attempt live
      rw [clearTxs_head, head]
      exact anchored.linked v' present
  · intro b member
    obtain ⟨kept, rfl, rfl | ⟨live, checked⟩⟩ := finishSwitch_mem member
    · rw [clearTxs_head]
      exact trail_prefix_of_mem onPath
    · obtain ⟨v', present, head⟩ := setBranch_mem found attempt live
      rw [head] at checked
      rw [clearTxs_head, head]
      exact irreLinked.trail_leading (anchored.linked v' present) free.parentHash_eq checked
  · have count := head_count_of_higher headAt anchored found attempt higher
    intro b member
    simp only [Chain.finishSwitch, clearTxs_head]
    obtain ⟨kept, rfl, rfl | ⟨live, _⟩⟩ := finishSwitch_mem member
    · rw [clearTxs_head]
    · obtain ⟨v', present, head⟩ := setBranch_mem found attempt live
      have bound := anchored.maximal v' present
      rw [clearTxs_head, head]
      change v'.head.count ≤ br.head.count
      omega
  · change (c.storage.applied ++ switch.newIrres).map BlockNode.hash = switch.lastIrre.trail
    rw [map_append, anchored.applied, newIrres, map_drop]
    have whole := prefix_iff_eq_append.mp moved
    rwa [trail_length] at whole
  · intro content
    change (c.storage.applied ++ switch.newIrres).map BlockNode.txs = switch.lastIrre.contents
    have below := anchored.contents_prefix content free irreLinked moved
    rw [map_append, anchored.contents content, newIrres, map_drop]
    have whole := prefix_iff_eq_append.mp below
    rwa [contents_length] at whole

lemma Effect.anchored (free : CollisionFree env known) (headAt : c.HeadAt)
    (anchored : Anchored env known c) (deep : c.Deep) (effect : Effect env known producing c c') :
    Anchored env known c' ∧ c.lastIrre.trail <+: c'.lastIrre.trail := by
  cases effect with
  | unchanged => exact ⟨anchored, prefix_rfl⟩
  | pooled tx => exact ⟨anchored.sameHeads (.pooled c tx), prefix_rfl⟩
  | attempted i v result origin found attempt =>
    exact ⟨anchored.sameHeads (.setBranch headAt found attempt), prefix_rfl⟩
  | grown i v br bl origin found seen attempt lower =>
    have present := mem_of_getElem? found
    have other := grown_other headAt found attempt lower
    have headBranch : (c.setBranch i origin).headBranch = c.headBranch := if_neg other
    refine ⟨⟨anchored.irreLinked, ?_, ?_, ?_, anchored.applied, anchored.contents⟩, prefix_rfl⟩
    · intro b member
      rcases mem_or_eq_of_mem_set member with kept | rfl
      · exact anchored.linked b kept
      · exact attempt.linked seen (anchored.linked v present)
    · intro b member
      rcases mem_or_eq_of_mem_set member with kept | rfl
      · exact anchored.rooted b kept
      · exact (anchored.rooted v present).trans attempt.trail_prefix
    · intro b member
      rw [headBranch]
      rcases mem_or_eq_of_mem_set member with kept | rfl
      · exact anchored.maximal b kept
      · exact lower
  | forked orders bl parent br seen verified noHead unknown found ran =>
    obtain ⟨v, present, onPath, sameHash, above, below⟩ := findParent_spec found noHead
    have head := newBranch_head ran
    have irre : c.lastIrre.trail <+: parent.trail := by
      apply prefix_of_prefix_length_le (anchored.rooted v present)
        (trail_prefix_of_mem onPath)
      rw [trail_length, trail_length]
      omega
    refine ⟨⟨anchored.irreLinked, ?_, ?_, ?_, anchored.applied, anchored.contents⟩, prefix_rfl⟩
    · intro b member
      rcases mem_append.mp member with kept | added
      · exact anchored.linked b kept
      · rw [mem_singleton.mp added, head]
        exact .child ((anchored.linked v present).of_mem onPath)
          ⟨seen, BPBlock.hash_of_verify verified, rfl⟩ sameHash.symm
    · intro b member
      rcases mem_append.mp member with kept | added
      · exact anchored.rooted b kept
      · rw [mem_singleton.mp added, head]
        exact irre.trans (trail_prefix_newNode bl parent)
    · intro b member
      rcases mem_append.mp member with kept | added
      · exact anchored.maximal b kept
      · rw [mem_singleton.mp added, head]
        have bound := anchored.maximal v present
        change parent.count + 1 ≤ c.headBranch.head.count
        omega
  | notSwitched orders i v br bl origin switch found attempt =>
    have same := Chain.SameHeads.setBranch headAt found attempt
    exact ⟨anchored.sameHeads { same with }, prefix_rfl⟩
  | switched orders i v br bl origin switch found seen attempt higher prepared =>
    have moved := trail_of_switch headAt anchored deep found attempt higher
    rw [← (prepareSwitch_eq_ok prepared).1] at moved
    exact ⟨switched_anchored free headAt anchored deep found seen attempt higher prepared, moved⟩

def Chain.Settled (c : Chain) : Prop :=
  c.lastIrre.count = c.headBranch.head.count - c.config.confirms

lemma Chain.Settled.deep (settled : c.Settled) : c.Deep := by
  unfold Chain.Settled at settled
  unfold Chain.Deep
  omega

lemma Effect.settled (headAt : c.HeadAt) (settled : c.Settled)
    (effect : Effect env known producing c c') : c'.Settled := by
  unfold Chain.Settled at settled ⊢
  cases effect with
  | unchanged | forked orders bl parent br seen verified noHead unknown found ran => exact settled
  | pooled =>
    simp only [addTx_head]
    exact settled
  | attempted i v result origin found attempt =>
    rw [setBranch_headBranch_head headAt found result origin attempt]
    exact settled
  | grown i v br bl origin found seen attempt lower
  | notSwitched orders i v br bl origin switch found attempt =>
    have head := setBranch_headBranch_head headAt found _ origin attempt
    change c.lastIrre.count = (c.setBranch i origin).headBranch.head.count - c.config.confirms
    rw [head]
    exact settled
  | switched orders i v br bl origin switch found seen attempt higher prepared =>
    simp only [Chain.finishSwitch, clearTxs_head]
    change switch.lastIrre.count = br.head.count - c.config.confirms
    rw [(prepareSwitch_eq_ok prepared).1, lastIrreversible_count]

lemma run_anchored (free : CollisionFree env known) (headAt : c.HeadAt)
    (anchored : Anchored env known c) (settled : c.Settled) (run : Run env known producing c c') :
    c'.HeadAt ∧ Anchored env known c' ∧ c'.Settled ∧ c.lastIrre.trail <+: c'.lastIrre.trail := by
  refine Run.preserves (fun c' => Anchored env known c' ∧ c'.Settled ∧
    c.lastIrre.trail <+: c'.lastIrre.trail) run headAt ⟨anchored, settled, prefix_rfl⟩ ?_
  intro middle next headAt holds effect
  obtain ⟨kept, moved⟩ := effect.anchored free headAt holds.1 holds.2.1.deep
  exact ⟨kept, effect.settled headAt holds.2.1, holds.2.2.trans moved⟩

lemma opened_anchored (seen : known config.genesis) (opened : Opened env config c) :
    c.HeadAt ∧ Anchored env known c ∧ c.Settled := by
  obtain ⟨hashed, st, genesis, rfl⟩ := opened_eq opened
  refine ⟨rfl, genesisChain_anchored hashed seen genesis, ?_⟩
  simp [Chain.Settled, genesisChain, genesisBranch, Config.genesisNode, newBlockNode,
    BlockNode.count]

/-- Blocks are compared by their hashes, and by their transactions where equal hashes mean equal
transactions. -/
theorem run_irreversible {c₀ c c' : Chain} (free : CollisionFree env known)
    (seen : known config.genesis) (opened : Opened env config c₀)
    (before : Run env known producing c₀ c) (after : Run env known producing c c') :
    c.lastIrre.trail <+: c'.lastIrre.trail ∧
    (∀ b ∈ c'.branches, b.head.hasAncestor c'.lastIrre = true ∧
      c'.lastIrre.trail <+: b.head.trail) ∧
    c'.branches[c'.headIndex]? = some c'.headBranch ∧
    (∀ b ∈ c'.branches, b.head.count ≤ c'.headBranch.head.count) ∧
    c'.storage.applied.map BlockNode.hash = c'.lastIrre.trail ∧
    (SameTransactions known → c'.storage.applied.map BlockNode.txs = c'.lastIrre.contents) := by
  obtain ⟨headAt₀, anchored₀, settled₀⟩ := opened_anchored seen opened
  obtain ⟨headAt, anchored, settled, -⟩ := run_anchored free headAt₀ anchored₀ settled₀ before
  obtain ⟨headAt', anchored', -, moved⟩ := run_anchored free headAt anchored settled after
  refine ⟨moved, ?_, headAt', anchored'.maximal, anchored'.applied, anchored'.contents⟩
  intro b member
  have leading := anchored'.rooted b member
  exact ⟨hasAncestor_of_leading leading, leading⟩

lemma collisionFree_of_list {blocks : List BPBlock} (checked : ∀ a ∈ blocks, ∀ b ∈ blocks,
      env.bpHeaderHash a.header = env.bpHeaderHash b.header → a.header = b.header) :
    CollisionFree env (· ∈ blocks) := by
  intro a b hash left right hashed hashed'
  exact checked a left b right (hashed.trans hashed'.symm)

namespace Sample

def first : BPBlock := block 1000 1001 []
def second : BPBlock := block 1001 1002 []
def rival : BPBlock := block 1000 1003 []

noncomputable def forked : Chain := receive rival (receive first (chain [] 1))

noncomputable def pruned : Chain := receive second forked

end Sample

open Sample in
theorem run_irreversible_forked : ∃ known : BPBlock → Prop, CollisionFree Sample.env known ∧
      Opened Sample.env (Sample.config [] 1) (chain [] 1) ∧
      Run Sample.env known True (chain [] 1) forked ∧ Run Sample.env known True forked pruned ∧
      forked.branches.length = 2 ∧ pruned.branches.length = 1 ∧
      forked.lastIrre.trail <+: pruned.lastIrre.trail ∧
      pruned.storage.applied.map BlockNode.hash = [1000, 1001] := by
  have free : CollisionFree Sample.env (· ∈ [genesis [], first, rival, second]) :=
    collisionFree_of_list (by decide)
  have opened : Opened Sample.env (Sample.config [] 1) (chain [] 1) :=
    genesisChain_opened choice.immutableOrders (by decide) (by rfl)
  have start : Run Sample.env (· ∈ [genesis [], first, rival, second]) True (chain [] 1) forked :=
    run_receive (run_receive .refl first (by simp) (by decide) (by decide))
      rival (by simp) (by decide) (by decide)
  have finish : Run Sample.env (· ∈ [genesis [], first, rival, second]) True forked pruned :=
    run_receive .refl second (by simp) (by decide) (by decide)
  have holds := run_irreversible free (by simp [Sample.config]) opened start finish
  refine ⟨_, free, opened, start, finish, by decide, by decide, holds.1, ?_⟩
  rw [holds.2.2.2.2.1]
  decide

end SQLess.BlockProducer
