import SQLess.BlockProducer.Tree

/-! The stored blocks as a tree. -/

namespace SQLess.BlockProducer

open Lib List
open BlockNode (hasAncestor_of_leading count trail_prefix_of_mem mem_path_of_mem)

variable {v p m : BlockNode} {bl : BPBlock}

def BlockNode.row (n : BlockNode) : BlockRow := ⟨n.height, n.hash, n.load.parentHash, n.load⟩

lemma BlockNode.exists_child (onPath : n ∈ v.path) (differ : n ≠ v) :
    ∃ m ∈ v.path, m.parent = some n := by
  induction v with
  | genesis => exact absurd (mem_singleton.mp onPath) differ
  | child p h b ih =>
    rcases mem_append.mp onPath with below | last
    · by_cases same : n = p
      · refine ⟨.child p h b, self_mem_path _, ?_⟩
        rw [same]
        rfl
      · obtain ⟨m, above, named⟩ := ih below same
        exact ⟨m, mem_append_left _ above, named⟩
    · exact absurd (mem_singleton.mp last) differ

inductive Forest (config : Config) : List BlockNode → Prop
  | root : Forest config [config.genesisNode]
  | grow {nodes parent h b} (forest : Forest config nodes) (below : parent ∈ nodes)
      (higher : parent.height < h) (link : b.parentHash = parent.hash)
      (fresh : ∀ n ∈ nodes, n.hash ≠ b.blockHash) :
      Forest config (nodes ++ [.child parent h b])

def Leaf (nodes : List BlockNode) (n : BlockNode) : Prop := ∀ m ∈ nodes, m.parent ≠ some n

namespace Forest

variable {config : Config} {nodes : List BlockNode} {n m : BlockNode}

section

variable (forest : Forest config nodes)
include forest

lemma path_mem (member : n ∈ nodes) (onPath : m ∈ n.path) : m ∈ nodes := by
  induction forest generalizing n with
  | root =>
    rw [mem_singleton.mp member] at onPath
    exact onPath
  | @grow nodes parent h b forest below higher link fresh ih =>
    rcases mem_append.mp member with earlier | last
    · exact mem_append_left _ (ih earlier onPath)
    · rw [mem_singleton.mp last] at onPath
      rcases mem_append.mp onPath with under | self
      · exact mem_append_left _ (ih below under)
      · exact mem_append_right _ self

lemma rooted (member : n ∈ nodes) : config.genesisNode ∈ n.path := by
  induction forest generalizing n with
  | root =>
    rw [mem_singleton.mp member]
    exact BlockNode.self_mem_path _
  | @grow nodes parent h b forest below higher link fresh ih =>
    rcases mem_append.mp member with earlier | last
    · exact ih earlier
    · rw [mem_singleton.mp last]
      exact mem_append_left _ (ih below)

lemma eq_of_hash (left : n ∈ nodes) (right : m ∈ nodes) (same : n.hash = m.hash) : n = m := by
  induction forest with
  | root => rw [mem_singleton.mp left, mem_singleton.mp right]
  | @grow nodes parent h b forest below higher link fresh ih =>
    rw [mem_append, mem_singleton] at left right
    rcases left with left | rfl
    · rcases right with right | rfl
      · exact ih left right
      · exact absurd same (fresh n left)
    · rcases right with right | rfl
      · exact absurd same.symm (fresh m right)
      · rfl

lemma eq_root_or_child (member : n ∈ nodes) :
    n = config.genesisNode ∨ ∃ p h b, n = .child p h b ∧ p ∈ nodes ∧ b.parentHash = p.hash := by
  induction forest with
  | root => exact .inl (mem_singleton.mp member)
  | @grow nodes parent h b forest below higher link fresh ih =>
    rcases mem_append.mp member with earlier | last
    · rcases ih earlier with root | ⟨p, k, r, rfl, present, named⟩
      · exact .inl root
      · exact .inr ⟨p, k, r, rfl, mem_append_left _ present, named⟩
    · exact .inr ⟨parent, h, b, mem_singleton.mp last, mem_append_left _ below, link⟩

lemma parent_mem (member : n ∈ nodes) (named : n.parent = some p) : p ∈ nodes := by
  cases n with
  | genesis => simp [BlockNode.parent] at named
  | child q =>
    simp only [BlockNode.parent, Option.some.injEq] at named
    subst named
    exact forest.path_mem member (mem_append_left _ q.self_mem_path)

lemma hasAncestor_iff (member : n ∈ nodes) (above : m ∈ nodes) :
    n.hasAncestor m = true ↔ m ∈ n.path := by
  rw [BlockNode.hasAncestor_iff]
  constructor
  · rintro ⟨a, onPath, -, same⟩
    rw [← forest.eq_of_hash (forest.path_mem member onPath) above same]
    exact onPath
  · intro onPath
    exact ⟨m, onPath, rfl, rfl⟩

lemma mem_path_of_trail (member : n ∈ nodes) (above : m ∈ nodes)
    (leading : m.trail <+: n.trail) : m ∈ n.path :=
  (forest.hasAncestor_iff member above).mp (hasAncestor_of_leading leading)

end

structure Indexed (nodes : List BlockNode) (loaded : BlockIndex) : Prop where
  index : ∀ hash n, loaded.index.get hash = some n ↔ n ∈ nodes ∧ n.hash = hash
  heads : ∀ hash n, loaded.headsIndex.get hash = some n ↔ n ∈ nodes ∧ n.hash = hash ∧ Leaf nodes n

lemma leaf_grow : Leaf (nodes ++ [.child parent h b]) n ↔ Leaf nodes n ∧ n ≠ parent := by
  simp only [Leaf, mem_append, mem_singleton]
  constructor
  · intro leaf
    refine ⟨fun m member => leaf m (.inl member), ?_⟩
    rintro rfl
    exact leaf _ (.inr rfl) rfl
  · rintro ⟨leaf, other⟩ m (earlier | rfl)
    · exact leaf m earlier
    · intro named
      simp only [BlockNode.parent, Option.some.injEq] at named
      exact other named.symm

lemma leaf_new (forest : Forest config nodes) (fresh : ∀ n ∈ nodes, n.hash ≠ b.blockHash) :
    Leaf (nodes ++ [.child parent h b]) (.child parent h b) := by
  rw [leaf_grow]
  constructor
  · intro m member named
    exact fresh _ (forest.parent_mem member named) rfl
  · intro same
    have counts := congrArg count same
    simp only [BlockNode.count] at counts
    omega

lemma Indexed.grow (forest : Forest config nodes)
    (indexed : Indexed nodes loaded) (below : parent ∈ nodes) (higher : parent.height < h)
    (link : b.parentHash = parent.hash) (fresh : ∀ n ∈ nodes, n.hash ≠ b.blockHash) :
    ∃ after, loadBlockRow loaded (BlockNode.child parent h b).row = .ok after ∧
      Indexed (nodes ++ [.child parent h b]) after := by
  have located : loaded.index.get b.parentHash = some parent :=
    (indexed.index _ _).mpr ⟨below, link.symm⟩
  have high : h ≠ 0 := by omega
  refine ⟨⟨loaded.index.insert b.blockHash (.child parent h b),
    (loaded.headsIndex.erase b.parentHash).insert b.blockHash (.child parent h b)⟩, ?_, ?_, ?_⟩
  · simp only [loadBlockRow, BlockNode.row, BlockNode.height, BlockNode.hash, BlockNode.load,
      if_neg high, located]
    rfl
  · intro hash n
    rw [FiniteMap.get_insert, mem_append, mem_singleton]
    by_cases here : hash = b.blockHash
    · rw [if_pos here, Option.some.injEq]
      constructor
      · rintro rfl
        exact ⟨.inr rfl, here.symm⟩
      · rintro ⟨earlier | last, same⟩
        · exact absurd (same.trans here) (fresh n earlier)
        · exact last.symm
    · rw [if_neg here, indexed.index]
      constructor
      · rintro ⟨member, same⟩
        exact ⟨.inl member, same⟩
      · rintro ⟨earlier | rfl, same⟩
        · exact ⟨earlier, same⟩
        · exact absurd same.symm here
  · intro hash n
    rw [FiniteMap.get_insert, mem_append, mem_singleton]
    by_cases here : hash = b.blockHash
    · rw [if_pos here, Option.some.injEq]
      constructor
      · rintro rfl
        exact ⟨.inr rfl, here.symm, leaf_new forest fresh⟩
      · rintro ⟨earlier | last, same, -⟩
        · exact absurd (same.trans here) (fresh n earlier)
        · exact last.symm
    · rw [if_neg here, FiniteMap.get_erase, leaf_grow]
      by_cases covered : hash = b.parentHash
      · rw [if_pos covered]
        refine iff_of_false (by simp) ?_
        rintro ⟨earlier | rfl, same, -, other⟩
        · exact other (forest.eq_of_hash earlier below (by rw [same, covered, link]))
        · exact here same.symm
      · rw [if_neg covered, indexed.heads]
        constructor
        · rintro ⟨member, same, leaf⟩
          refine ⟨.inl member, same, leaf, ?_⟩
          rintro rfl
          exact covered (by rw [← same, link])
        · rintro ⟨earlier | rfl, same, leaf, -⟩
          · exact ⟨earlier, same, leaf⟩
          · exact absurd same.symm here

lemma load (forest : Forest config nodes) :
    ∃ loaded, (nodes.map BlockNode.row).foldlM loadBlockRow ⟨∅, ∅⟩ = .ok loaded ∧
      Indexed nodes loaded := by
  induction forest with
  | root =>
    have single : ∀ (hash : Hash) (n : BlockNode),
        ((∅ : FiniteMap Hash BlockNode).insert config.genesis.blockHash
          config.genesisNode).get hash = some n ↔
        n = config.genesisNode ∧ n.hash = hash := by
      intro hash n
      rw [FiniteMap.get_insert]
      by_cases here : hash = config.genesis.blockHash
      · rw [if_pos here, Option.some.injEq]
        constructor
        · rintro rfl
          exact ⟨rfl, here.symm⟩
        · intro found
          exact found.1.symm
      · rw [if_neg here]
        refine iff_of_false (by simp) ?_
        rintro ⟨rfl, same⟩
        exact here same.symm
    refine ⟨⟨(∅ : FiniteMap Hash BlockNode).insert config.genesis.blockHash config.genesisNode,
      (∅ : FiniteMap Hash BlockNode).insert config.genesis.blockHash config.genesisNode⟩,
      rfl, ?_, ?_⟩
    · intro hash n
      rw [single, mem_singleton]
    · intro hash n
      rw [single, mem_singleton]
      constructor
      · rintro ⟨rfl, same⟩
        refine ⟨rfl, same, ?_⟩
        intro m member
        rw [mem_singleton.mp member]
        simp [Config.genesisNode, newBlockNode, BlockNode.parent]
      · rintro ⟨root, same, -⟩
        exact ⟨root, same⟩
  | @grow nodes parent h b forest below higher link fresh ih =>
    obtain ⟨loaded, ran, indexed⟩ := ih
    obtain ⟨after, last, grown⟩ := Indexed.grow forest indexed below higher link fresh
    refine ⟨after, ?_, grown⟩
    rw [map_append, foldlM_append, ran]
    simp [Bind.bind, Except.bind, Pure.pure, Except.pure, last]

end Forest

/-- The rows of the storage are those of `nodes`, which hold the last irreversible block and the
live branches; every node above the last irreversible block is on a live branch. -/
structure Shelved (env : Env) (known : BPBlock → Prop) (c : Chain) (nodes : List BlockNode) :
    Prop where
  forest : Forest c.config nodes
  rows : c.storage.blocks = nodes.map BlockNode.row
  linked : ∀ n ∈ nodes, n.Linked (ValidNode env known c.config)
  heads : ∀ v ∈ c.heads, v ∈ nodes
  lastIrre : c.lastIrre ∈ nodes
  live : ∀ n ∈ nodes, c.lastIrre ∈ n.path → ∃ v ∈ c.heads, n ∈ v.path

section

variable {env : Env} {known : BPBlock → Prop} {config : Config} {c c' : Chain}
  {nodes : List BlockNode}

lemma genesisChain_shelved
    (hashed : env.bpHeaderHash config.genesis.header = some config.genesis.blockHash)
    (seen : known config.genesis) (genesis : GenesisStorage config st) :
    Shelved env known (genesisChain config st) [config.genesisNode] := by
  refine ⟨.root, genesis.blocks, ?_, ?_, mem_singleton_self _, ?_⟩
  · intro n member
    rw [mem_singleton.mp member]
    exact .genesis ⟨seen, hashed, (heightOfTime_genesis config).symm⟩
  · intro v member
    exact member
  · intro n member onPath
    exact ⟨n, member, n.self_mem_path⟩

lemma Shelved.lastIrre_mem_path (shelved : Shelved env known c nodes)
    (anchored : Anchored env known c) (member : v ∈ c.heads) : c.lastIrre ∈ v.path := by
  obtain ⟨b, present, rfl⟩ := mem_map.mp member
  exact shelved.forest.mem_path_of_trail (shelved.heads _ member) shelved.lastIrre
    (anchored.rooted b present)

lemma Treelike.eq_of_mem_path (treelike : Treelike c) (left : v ∈ c.heads)
    (right : w ∈ c.heads) (onPath : v ∈ w.path) : v = w :=
  treelike.eq_of_prefix left right (trail_prefix_of_mem onPath)

lemma Shelved.parent_of_hash (shelved : Shelved env known c nodes) (free : CollisionFree env known)
    (valid : ValidNode env known c.config (c.config.heightOfTime bl.timestamp) bl)
    (below : parent ∈ nodes) (link : bl.parentHash = parent.hash)
    (higher : parent.height < c.config.heightOfTime bl.timestamp) (member : m ∈ nodes)
    (same : m.hash = bl.blockHash) : m.parent = some parent := by
  have linked := (shelved.linked m member).block
  have header : m.load.header = bl.header := free.header_eq _ _ _ _ linked valid same
  rcases shelved.forest.eq_root_or_child member with rfl | ⟨p, h, b, rfl, present, named⟩
  · have level : c.config.heightOfTime bl.timestamp = 0 := by
      rw [BPBlock.timestamp, ← header]
      exact heightOfTime_genesis c.config
    omega
  · have sameParent : p.hash = parent.hash := by
      rw [← named, ← link, BPBlock.parentHash, BPBlock.parentHash, ← header]
      rfl
    rw [BlockNode.parent, shelved.forest.eq_of_hash present below sameParent]

lemma mem_path_of_parent (named : m.parent = some p) : p ∈ m.path ∧ m.count = p.count + 1 := by
  cases m with
  | genesis => simp [BlockNode.parent] at named
  | child q =>
    simp only [BlockNode.parent, Option.some.injEq] at named
    subst named
    exact ⟨mem_append_left _ q.self_mem_path, rfl⟩

lemma not_mem_path_of_parent (named : m.parent = some p) : m ∉ p.path := by
  intro onPath
  have bound := (trail_prefix_of_mem onPath).length_le
  have above := (mem_path_of_parent named).2
  simp only [BlockNode.trail_length] at bound
  omega

lemma Shelved.head_leaf (shelved : Shelved env known c nodes) (anchored : Anchored env known c)
    (treelike : Treelike c) (member : v ∈ c.heads) : Leaf nodes v := by
  intro m present named
  have below := (mem_path_of_parent named).1
  have irre := mem_path_of_mem below (shelved.lastIrre_mem_path anchored member)
  obtain ⟨w, live, onPath⟩ := shelved.live m present irre
  obtain rfl := treelike.eq_of_mem_path member live (mem_path_of_mem onPath below)
  exact not_mem_path_of_parent named onPath

lemma Shelved.insertBlock {st : Storage}
    (rows : st.blocks = nodes.map BlockNode.row) (fresh : ∀ n ∈ nodes, n.hash ≠ bl.blockHash) :
    (st.insertBlock height bl).blocks =
      (nodes ++ [BlockNode.child parent height bl]).map BlockNode.row := by
  have kept : st.blocks.filter (fun row => row.hash ≠ bl.blockHash) = st.blocks := by
    rw [filter_eq_self]
    intro row member
    rw [rows] at member
    obtain ⟨n, present, rfl⟩ := mem_map.mp member
    exact decide_eq_true (fresh n present)
  rw [map_append, ← rows]
  exact congrArg (· ++ _) kept

lemma Shelved.linked_grow (shelved : Shelved env known c nodes) (below : parent ∈ nodes)
    (valid : ValidNode env known c.config (c.config.heightOfTime bl.timestamp) bl)
    (link : bl.parentHash = parent.hash) :
    ∀ n ∈ nodes ++ [c.config.newNode bl parent], n.Linked (ValidNode env known c.config) := by
  intro n member
  rcases mem_append.mp member with earlier | last
  · exact shelved.linked n earlier
  · rw [mem_singleton.mp last]
    exact .child (shelved.linked parent below) valid link

lemma mem_set_of_mem {values : List α} (new : α) (found : values[i]? = some old)
    (member : value ∈ values) : value = old ∨ value ∈ values.set i new := by
  obtain ⟨j, located⟩ := mem_iff_getElem?.mp member
  by_cases same : i = j
  · subst same
    rw [found, Option.some.injEq] at located
    exact .inl located.symm
  · refine .inr (mem_iff_getElem?.mpr ⟨j, ?_⟩)
    rw [List.getElem?_set_ne same]
    exact located

lemma Shelved.extended (shelved : Shelved env known c nodes) (free : CollisionFree env known)
    (anchored : Anchored env known c) (treelike : Treelike c) (sameConfig : c'.config = c.config)
    (ascending : c'.Ascending) (found : c.heads[i]? = some v)
    (valid : ValidNode env known c.config (c.config.heightOfTime bl.timestamp) bl)
    (link : bl.parentHash = v.hash) (moved : c.lastIrre.trail <+: c'.lastIrre.trail)
    (onPath : c'.lastIrre = c.lastIrre ∨ c'.lastIrre ∈ (c.config.newNode bl v).path)
    (heads : c'.heads = (c.heads.set i (c.config.newNode bl v)).filter
      fun n => n.hasAncestor c'.lastIrre) (blocks : c'.storage.blocks =
      (c.storage.insertBlock (c.config.heightOfTime bl.timestamp) bl).blocks) :
    Shelved env known c' (nodes ++ [c.config.newNode bl v]) := by
  have member := mem_of_getElem? found
  have below := shelved.heads v member
  have irreOnHead := shelved.lastIrre_mem_path anchored member
  have irreOnNew : c'.lastIrre ∈ (c.config.newNode bl v).path := by
    rcases onPath with same | new
    · rw [same]
      exact mem_append_left _ irreOnHead
    · exact new
  have isHead : c.config.newNode bl v ∈ c'.heads := by
    rw [heads, mem_filter]
    refine ⟨mem_set (List.getElem?_eq_some_iff.mp found).1 _, ?_⟩
    exact hasAncestor_of_leading (trail_prefix_of_mem irreOnNew)
  have higher : v.height < c.config.heightOfTime bl.timestamp := (ascending _ isHead).2
  have fresh : ∀ n ∈ nodes, n.hash ≠ bl.blockHash := by
    intro n present same
    have named := shelved.parent_of_hash free valid below link higher present same
    exact shelved.head_leaf anchored treelike member n present named
  have forest : Forest c.config (nodes ++ [c.config.newNode bl v]) :=
    .grow shelved.forest below higher link fresh
  have placed : c.config.newNode bl v ∈ nodes ++ [c.config.newNode bl v] := by simp
  have irre : c'.lastIrre ∈ nodes ++ [c.config.newNode bl v] := forest.path_mem placed irreOnNew
  refine ⟨sameConfig ▸ forest, ?_, ?_, ?_, irre, ?_⟩
  · rw [blocks]
    exact Shelved.insertBlock shelved.rows fresh
  · rw [sameConfig]
    exact shelved.linked_grow below valid link
  · intro w live
    rw [heads] at live
    rcases mem_or_eq_of_mem_set (mem_of_mem_filter live) with kept | rfl
    · exact mem_append_left _ (shelved.heads w kept)
    · exact placed
  · intro n present irreOnPath
    rcases mem_append.mp present with earlier | last
    · have oldIrre : c.lastIrre ∈ c'.lastIrre.path :=
        forest.mem_path_of_trail irre (mem_append_left _ shelved.lastIrre) moved
      obtain ⟨w, live, onLive⟩ := shelved.live n earlier
        (mem_path_of_mem irreOnPath oldIrre)
      rcases mem_set_of_mem (c.config.newNode bl v) found live with rfl | kept
      · exact ⟨_, isHead, mem_append_left _ onLive⟩
      · refine ⟨w, ?_, onLive⟩
        rw [heads, mem_filter]
        refine ⟨kept, hasAncestor_of_leading (trail_prefix_of_mem ?_)⟩
        exact mem_path_of_mem onLive irreOnPath
    · rw [mem_singleton.mp last]
      exact ⟨_, isHead, BlockNode.self_mem_path _⟩

lemma Shelved.forked (shelved : Shelved env known c nodes) (free : CollisionFree env known)
    (anchored : Anchored env known c) (treelike : Treelike c) (sameConfig : c'.config = c.config)
    (ascending : c'.Ascending)
    (valid : ValidNode env known c.config (c.config.heightOfTime bl.timestamp) bl)
    (noHead : ∀ v ∈ c.heads, v.hash ≠ bl.parentHash) (unknown : c.knownBlock bl = false)
    (found : c.findParent bl = some parent) (lastIrre : c'.lastIrre = c.lastIrre)
    (heads : c'.heads = c.heads ++ [c.config.newNode bl parent]) (blocks : c'.storage.blocks =
      (c.storage.insertBlock (c.config.heightOfTime bl.timestamp) bl).blocks) :
    Shelved env known c' (nodes ++ [c.config.newNode bl parent]) := by
  obtain ⟨v, member, onHead, sameHash, high, -⟩ := findParent_heads found noHead
  have below := shelved.forest.path_mem (shelved.heads v member) onHead
  have isHead : c.config.newNode bl parent ∈ c'.heads := by
    rw [heads]
    simp
  have higher : parent.height < c.config.heightOfTime bl.timestamp := (ascending _ isHead).2
  have irreBelow : c.lastIrre ∈ parent.path :=
    BlockNode.mem_path_of_count_le onHead (shelved.lastIrre_mem_path anchored member) high
  have fresh : ∀ n ∈ nodes, n.hash ≠ bl.blockHash := by
    intro n present same
    have named := shelved.parent_of_hash free valid below sameHash.symm higher present same
    obtain ⟨w, live, onPath⟩ := shelved.live n present
      (mem_path_of_mem (mem_path_of_parent named).1 irreBelow)
    rw [knownBlock_of_mem free anchored treelike.ascending valid live onPath same] at unknown
    simp at unknown
  have forest : Forest c.config (nodes ++ [c.config.newNode bl parent]) :=
    .grow shelved.forest below higher sameHash.symm fresh
  refine ⟨sameConfig ▸ forest, ?_, ?_, ?_, ?_, ?_⟩
  · rw [blocks]
    exact Shelved.insertBlock shelved.rows fresh
  · rw [sameConfig]
    exact shelved.linked_grow below valid sameHash.symm
  · intro w live
    rw [heads] at live
    rcases mem_append.mp live with kept | last
    · exact mem_append_left _ (shelved.heads w kept)
    · exact mem_append_right _ last
  · rw [lastIrre]
    exact mem_append_left _ shelved.lastIrre
  · intro n present irreOnPath
    rw [lastIrre] at irreOnPath
    rcases mem_append.mp present with earlier | last
    · obtain ⟨w, live, onLive⟩ := shelved.live n earlier irreOnPath
      refine ⟨w, ?_, onLive⟩
      rw [heads]
      exact mem_append_left _ live
    · rw [mem_singleton.mp last]
      exact ⟨_, isHead, BlockNode.self_mem_path _⟩

lemma TreeStep.shelved (free : CollisionFree env known) (anchored : Anchored env known c)
    (treelike : Treelike c) (sameConfig : c'.config = c.config) (ascending : c'.Ascending)
    (shelved : Shelved env known c nodes) (step : TreeStep env known c c') :
    ∃ nodes', Shelved env known c' nodes' := by
  cases step with
  | kept heads lastIrre blocks =>
    refine ⟨nodes, ?_, ?_, ?_, ?_, ?_, ?_⟩
    · rw [sameConfig]
      exact shelved.forest
    · rw [blocks]
      exact shelved.rows
    · rw [sameConfig]
      exact shelved.linked
    · rw [heads]
      exact shelved.heads
    · rw [lastIrre]
      exact shelved.lastIrre
    · rw [heads, lastIrre]
      exact shelved.live
  | extended i v bl found valid link moved onPath heads blocks =>
    exact ⟨_, shelved.extended free anchored treelike sameConfig ascending found valid link moved
      onPath heads blocks⟩
  | forked bl parent valid noHead unknown found lastIrre heads blocks =>
    exact ⟨_, shelved.forked free anchored treelike sameConfig ascending valid noHead unknown
      found lastIrre heads blocks⟩

lemma Shelved.loadBlocks (shelved : Shelved env known c nodes) (anchored : Anchored env known c)
    (treelike : Treelike c) :
    ∃ heads, loadBlocks c.storage c.lastIrre.hash = .ok (c.lastIrre, heads) ∧
      (∀ hash n, heads.get hash = some n → n.hash = hash) ∧
      ∀ n, (∃ hash, heads.get hash = some n) ∧ n.hasAncestor c.lastIrre = true ↔ n ∈ c.heads := by
  obtain ⟨loaded, ran, indexed⟩ := shelved.forest.load
  have irreAt : loaded.index.get c.lastIrre.hash = some c.lastIrre :=
    (indexed.index _ _).mpr ⟨shelved.lastIrre, rfl⟩
  refine ⟨loaded.headsIndex, ?_, ?_, ?_⟩
  · rw [BlockProducer.loadBlocks, shelved.rows, ran]
    simp only [irreAt]
  · intro hash n found
    exact ((indexed.heads _ _).mp found).2.1
  · intro n
    constructor
    · rintro ⟨⟨hash, found⟩, rooted⟩
      obtain ⟨member, -, leaf⟩ := (indexed.heads _ _).mp found
      rw [shelved.forest.hasAncestor_iff member shelved.lastIrre] at rooted
      obtain ⟨v, live, onPath⟩ := shelved.live n member rooted
      -- A leaf on the path of a head is that head: otherwise its child on the path is stored.
      by_contra other
      have differ : n ≠ v := by
        rintro rfl
        exact other live
      obtain ⟨m, above, named⟩ := BlockNode.exists_child onPath differ
      exact leaf m (shelved.forest.path_mem (shelved.heads v live) above) named
    · intro member
      have present := shelved.heads n member
      refine ⟨⟨n.hash, (indexed.heads _ _).mpr ⟨present, rfl, ?_⟩⟩, ?_⟩
      · exact shelved.head_leaf anchored treelike member
      · rw [shelved.forest.hasAncestor_iff present shelved.lastIrre]
        exact shelved.lastIrre_mem_path anchored member

end

end SQLess.BlockProducer
