import SQLess.BlockProducer.Irreversibility
import SQLess.BlockProducer.Storage

/-! Restarts. -/

namespace SQLess.BlockProducer

open Lib List BlockNode
open BlockNode (trail path load count)

variable {st : Storage} {bl : BPBlock} {c : Chain} {rows : List BlockRow} {loaded : BlockIndex}

inductive LifeStep (env : Env) (known : BPBlock → Prop) (guard : Chain → Prop) (c c' : Chain) : Prop
  | call (guarded : guard c) (step : Step env known True c c')
  | restart (choice headOrder config) (sameGenesis : config.genesis = c.config.genesis)
      (samePeriod : config.period = c.config.period)
      (ran : newChain env choice headOrder config (some c.storage) = .ok (.ok c'))

abbrev Life (env : Env) (known : BPBlock → Prop) (guard : Chain → Prop) : Chain → Chain → Prop :=
  Relation.ReflTransGen (LifeStep env known guard)

structure Stored (env : Env) (known : BPBlock → Prop) (c : Chain) : Prop where
  rows : ∀ row ∈ c.storage.blocks, ValidRow (ValidNode env known c.config) row
  distinct : (c.storage.blocks.map BlockRow.hash).Nodup
  root : c.lastIrre.trail.head? = some c.config.genesis.blockHash
  covered : ∀ b ∈ c.branches, ∀ hash ∈ b.head.trail, hash ∈ c.storage.blocks.map BlockRow.hash
  irreversible : c.storage.irreversible = some c.lastIrre.hash

section

variable {env : Env} {known : BPBlock → Prop} {producing : Prop} {config : Config}

lemma genesisChain_stored
    (hashed : env.bpHeaderHash config.genesis.header = some config.genesis.blockHash)
    (seen : known config.genesis) (genesis : GenesisStorage config st) :
    Stored env known (genesisChain config st) := by
  refine ⟨?_, ?_, rfl, ?_, genesis.irreversible⟩
  · intro row member
    simp only [genesisChain, genesis.blocks, mem_singleton] at member
    rw [member]
    exact ⟨⟨seen, hashed, (heightOfTime_genesis config).symm⟩, rfl, rfl⟩
  · simp [genesisChain, genesis.blocks]
  · intro b member hash onTrail
    simp only [genesisChain, mem_singleton] at member
    rw [member] at onTrail
    simpa [genesisChain, genesis.blocks, genesisBranch, Config.genesisNode, newBlockNode,
      trail, path, BlockNode.hash, load] using onTrail

lemma mem_insertBlock_hashes {height hash} :
    hash ∈ (st.insertBlock height bl).blocks.map BlockRow.hash ↔
      hash ∈ st.blocks.map BlockRow.hash ∨ hash = bl.blockHash := by
  simp only [Storage.insertBlock, map_append, map_cons, map_nil, mem_append,
    mem_map, mem_filter, mem_singleton, decide_eq_true_eq]
  constructor
  · rintro (⟨row, ⟨member, -⟩, rfl⟩ | rfl)
    · exact .inl ⟨row, member, rfl⟩
    · exact .inr rfl
  · rintro (⟨row, member, rfl⟩ | rfl)
    · by_cases same : row.hash = bl.blockHash
      · exact .inr same
      · exact .inl ⟨row, ⟨member, same⟩, rfl⟩
    · exact .inr rfl

lemma insertBlock_distinct (height bl) (distinct : (st.blocks.map BlockRow.hash).Nodup) :
    ((st.insertBlock height bl).blocks.map BlockRow.hash).Nodup := by
  simp only [Storage.insertBlock, map_append, map_cons, map_nil]
  rw [nodup_append]
  refine ⟨distinct.sublist (filter_sublist.map _), nodup_singleton _, ?_⟩
  intro hash member other single same
  obtain ⟨row, kept, rfl⟩ := mem_map.mp member
  simp only [mem_filter, decide_eq_true_eq] at kept
  exact kept.2 (same.trans (mem_singleton.mp single))

lemma insertBlock_rows (seen : known bl) (hashed : env.bpHeaderHash bl.header = some bl.blockHash)
    (rows : ∀ row ∈ st.blocks, ValidRow (ValidNode env known config) row) :
    ∀ row ∈ (st.insertBlock (config.heightOfTime bl.timestamp) bl).blocks,
      ValidRow (ValidNode env known config) row := by
  intro row member
  simp only [Storage.insertBlock, mem_append, mem_filter, mem_singleton] at member
  rcases member with ⟨kept, -⟩ | rfl
  · exact rows row kept
  · exact ⟨⟨seen, hashed, rfl⟩, rfl, rfl⟩

lemma trail_mem_newNode {parent hash} (member : hash ∈ (config.newNode bl parent).trail) :
    hash ∈ parent.trail ∨ hash = bl.blockHash := by
  simpa [Config.newNode, newBlockNode] using member

lemma Stored.sameHeads (stored : Stored env known c) (same : c.SameHeads c') :
    Stored env known c' := by
  refine ⟨?_, ?_, ?_, ?_, ?_⟩
  · rw [same.blocks, same.config]
    exact stored.rows
  · rw [same.blocks]
    exact stored.distinct
  · rw [same.lastIrre, same.config]
    exact stored.root
  · intro b member
    obtain ⟨v, kept, head⟩ := same.branches b member
    rw [head, same.blocks]
    exact stored.covered v kept
  · rw [same.irreversible, same.lastIrre]
    exact stored.irreversible

lemma Effect.stored (headAt : c.HeadAt) (anchored : Anchored env known c) (deep : c.Deep)
    (stored : Stored env known c) (effect : Effect env known producing c c') :
    Stored env known c' := by
  cases effect with
  | unchanged => exact stored
  | pooled tx => exact stored.sameHeads (.pooled c tx)
  | attempted i v result origin found attempt =>
    exact stored.sameHeads (.setBranch headAt found attempt)
  | grown i v br bl origin found seen attempt =>
    obtain ⟨head, link, hashed⟩ := attempt.extends
    refine ⟨insertBlock_rows seen hashed stored.rows, insertBlock_distinct _ _ stored.distinct,
      stored.root, ?_, stored.irreversible⟩
    intro b member hash onTrail
    rw [mem_insertBlock_hashes]
    rcases mem_or_eq_of_mem_set member with kept | rfl
    · exact .inl (stored.covered b kept hash onTrail)
    · change hash ∈ br.head.trail at onTrail
      rw [head] at onTrail
      exact (trail_mem_newNode onTrail).imp (stored.covered v (mem_of_getElem? found) hash) id
  | forked orders bl parent br seen verified noHead unknown found ran =>
    obtain ⟨v, present, onPath, -, -, -⟩ := findParent_spec found noHead
    refine ⟨insertBlock_rows seen (BPBlock.hash_of_verify verified) stored.rows,
      insertBlock_distinct _ _ stored.distinct, stored.root, ?_, stored.irreversible⟩
    intro b member hash onTrail
    rw [mem_insertBlock_hashes]
    rcases mem_append.mp member with kept | added
    · exact .inl (stored.covered b kept hash onTrail)
    · rw [mem_singleton.mp added, newBranch_head ran] at onTrail
      refine (trail_mem_newNode onTrail).imp ?_ id
      intro below
      exact stored.covered v present hash ((trail_prefix_of_mem onPath).subset below)
  | notSwitched orders i v br bl origin switch found attempt =>
    have same := Chain.SameHeads.setBranch headAt found attempt
    exact stored.sameHeads { same with }
  | switched orders i v br bl origin switch found seen attempt higher prepared =>
    obtain ⟨head, link, hashed⟩ := attempt.extends
    have moved := trail_of_switch headAt anchored deep found attempt higher
    rw [← (prepareSwitch_eq_ok prepared).1] at moved
    have blocks : (c.switchStorage bl switch).blocks =
        (c.storage.insertBlock (c.config.heightOfTime bl.timestamp) bl).blocks := rfl
    refine ⟨?_, ?_, ?_, ?_, rfl⟩
    · change ∀ row ∈ (c.switchStorage bl switch).blocks, _
      rw [blocks]
      exact insertBlock_rows seen hashed stored.rows
    · change ((c.switchStorage bl switch).blocks.map BlockRow.hash).Nodup
      rw [blocks]
      exact insertBlock_distinct _ _ stored.distinct
    · change switch.lastIrre.trail.head? = some c.config.genesis.blockHash
      obtain ⟨rest, whole⟩ := moved
      rw [← whole, List.head?_append, stored.root]
      rfl
    · intro b member hash onTrail
      change hash ∈ (c.switchStorage bl switch).blocks.map BlockRow.hash
      rw [blocks, mem_insertBlock_hashes]
      obtain ⟨kept, rfl, rfl | ⟨live, _⟩⟩ := finishSwitch_mem member
      · rw [Branch.clearTxs_head] at onTrail
        change hash ∈ br.head.trail at onTrail
        rw [head] at onTrail
        exact (trail_mem_newNode onTrail).imp
          (stored.covered v (mem_of_getElem? found) hash) id
      · obtain ⟨v', present, sameHead⟩ := setBranch_mem found attempt live
        rw [Branch.clearTxs_head, sameHead] at onTrail
        exact .inl (stored.covered v' present hash onTrail)

def Rootless (known : BPBlock → Prop) (config : Config) : Prop :=
  ∀ b, known b → b.blockHash ≠ config.genesis.parentHash

lemma Loaded.root_unique (holds : Loaded valid rows loaded)
    (leftRow : left ∈ rows) (rightRow : right ∈ rows) (leftRoot : left.height = 0)
    (rightRoot : right.height = 0) : left = right := by
  have first := (holds.roots left leftRow leftRoot).1
  rw [(holds.roots right rightRow rightRoot).1, Option.some.injEq] at first
  exact first.symm

lemma loaded_trail {m : BlockNode} (holds : Loaded (ValidNode env known config) rows loaded)
    (ok : ∀ row ∈ rows, ValidRow (ValidNode env known config) row)
    (free : CollisionFree env known) (rootless : Rootless known config)
    (genesis : ValidNode env known config 0 config.genesis)
    (linked : m.Linked (ValidNode env known config))
    (root : m.trail.head? = some config.genesis.blockHash)
    (covered : ∀ hash ∈ m.trail, hash ∈ rows.map BlockRow.hash) :
    ∃ n, loaded.index.get m.hash = some n ∧ n.trail = m.trail := by
  have header : ∀ row ∈ rows, ∀ h b, ValidNode env known config h b →
      row.hash = b.blockHash → row.encoded.header = b.header := by
    intro row member h b valid same
    exact free.header_eq _ _ h b (ok row member).block valid ((ok row member).hash ▸ same)
  have genesisRow : ∃ row ∈ rows, row.hash = config.genesis.blockHash ∧ row.height = 0 := by
    have first : config.genesis.blockHash ∈ m.trail := mem_of_mem_head? root
    obtain ⟨row, member, same⟩ := mem_map.mp (covered _ first)
    refine ⟨row, member, same, ?_⟩
    rw [(ok row member).block.height, BPBlock.timestamp, header row member 0 _ genesis same]
    exact heightOfTime_genesis config
  induction linked with
  | @genesis h b =>
    have sameHash : b.blockHash = config.genesis.blockHash := by
      simpa [trail, path, BlockNode.hash, load] using root
    obtain ⟨row, member, same, low⟩ := genesisRow
    have found := (holds.roots row member low).2
    rw [same] at found
    refine ⟨_, by rw [BlockNode.hash, load, sameHash]; exact found, ?_⟩
    simp only [trail, path, BlockNode.hash, load, map_cons, map_nil]
    rw [← (ok row member).hash, same, sameHash]
  | @child p h b parent valid link ih =>
    rw [trail_child] at covered root
    have rootP : p.trail.head? = some config.genesis.blockHash := by
      rw [List.head?_append_of_ne_nil _ (by simp [trail, p.path_ne_nil])] at root
      exact root
    obtain ⟨n, located, sameTrail⟩ :=
      ih rootP (fun hash member => covered hash (by simp [member]))
    obtain ⟨row, member, same⟩ := mem_map.mp (covered b.blockHash (by simp))
    have sameHeader := header row member h b valid same
    -- A stored block of height 0 is the genesis block, which has no parent in the run.
    have high : row.height ≠ 0 := by
      intro low
      obtain ⟨first, firstMember, firstHash, firstLow⟩ := genesisRow
      rw [holds.root_unique member firstMember low firstLow] at same
      have genesisHeader := header first firstMember h b valid same
      rw [header first firstMember 0 _ genesis firstHash] at genesisHeader
      apply rootless p.load parent.block.seen
      change p.hash = _
      rw [← link, BPBlock.parentHash, ← genesisHeader, BPBlock.parentHash]
    obtain ⟨pn, parentAt, found⟩ := holds.children row member high
    rw [(ok row member).parent, BPBlock.parentHash, sameHeader] at parentAt
    change loaded.index.get b.parentHash = some pn at parentAt
    rw [link, located, Option.some.injEq] at parentAt
    rw [same] at found
    refine ⟨_, found, ?_⟩
    rw [trail_child, trail_child, ← parentAt, sameTrail, ← (ok row member).hash, same]

lemma Loaded.covered (holds : Loaded valid rows loaded) (found : loaded.index.get n.hash = some n) :
    ∀ hash ∈ n.trail, hash ∈ rows.map BlockRow.hash := by
  induction n with
  | genesis =>
    intro hash member
    obtain ⟨row, listed, same⟩ := holds.listed _ _ found
    simp only [trail, path, map_cons, map_nil, mem_singleton] at member
    rw [member, ← same]
    exact mem_map_of_mem listed
  | child p h b ih =>
    intro hash member
    obtain ⟨row, listed, same⟩ := holds.listed _ _ found
    rw [trail_child, mem_append, mem_singleton] at member
    rcases member with below | last
    · have parentAt : loaded.index.get row.parent = some p := by
        by_cases low : row.height = 0
        · have root := (holds.roots row listed low).2
          rw [same, found] at root
          simp at root
        · obtain ⟨pn, located, child⟩ := holds.children row listed low
          rw [same, found] at child
          simp only [Option.some.injEq, BlockNode.child.injEq] at child
          rw [child.1]
          exact located
      have parentHash := (holds.linked _ _ parentAt).1
      exact ih (parentHash ▸ parentAt) hash below
    · rw [last]
      exact mem_map.mpr ⟨row, listed, same⟩

lemma rebuildBranches_mem
    (ran : rebuildBranches env orders lastIrre immutable txPool nodes = .ok (.ok branches)) :
    ∀ b ∈ branches, b.head ∈ nodes ∧ b.head.hasAncestor lastIrre = true := by
  induction nodes generalizing branches with
  | nil =>
    simp only [rebuildBranches, Except.ok.injEq] at ran
    simp [← ran]
  | cons v rest ih =>
    simp only [rebuildBranches] at ran
    split at ran
    · rename_i rooted
      split at ran
      · simp at ran
      · simp at ran
      · rename_i br built
        split at ran
        · rename_i later finished
          simp only [Except.ok.injEq] at ran
          intro b member
          rw [← ran, mem_cons] at member
          rcases member with rfl | below
          · rw [newBranch_head built]
            exact ⟨mem_cons_self, rooted⟩
          · exact ⟨mem_cons_of_mem _ (ih finished b below).1, (ih finished b below).2⟩
        · rename_i failed
          exact absurd ran (failed branches)
    · intro b member
      exact ⟨mem_cons_of_mem _ (ih ran b member).1, (ih ran b member).2⟩

lemma selectHead_spec (first : best = none → done = [])
    (holds : ∀ k h, best = some (k, h) → done[k]? = some h ∧ ∀ v ∈ done, v.head.count ≤
      h.head.count) (ran : selectHead rest done.length best = some (i, b)) :
    (done ++ rest)[i]? = some b ∧ ∀ v ∈ done ++ rest, v.head.count ≤ b.head.count := by
  induction rest generalizing done best with
  | nil =>
    simp only [selectHead] at ran
    simpa using holds i b ran
  | cons v rest ih =>
    have whole : done ++ v :: rest = (done ++ [v]) ++ rest := by simp
    have length : done.length + 1 = (done ++ [v]).length := by simp
    have here : (done ++ [v])[done.length]? = some v := by simp
    rw [whole]
    rcases best with _ | ⟨k, h⟩
    · simp only [selectHead, length] at ran
      refine ih (by simp) ?_ ran
      intro k' h' same
      cases same
      refine ⟨here, ?_⟩
      simp [first rfl]
    · obtain ⟨placed, maximal⟩ := holds k h rfl
      simp only [selectHead, length] at ran
      split at ran
      · rename_i higher
        refine ih (by simp) ?_ ran
        intro k' h' same
        cases same
        refine ⟨here, ?_⟩
        intro w member
        rcases mem_append.mp member with earlier | last
        · have bound := maximal w earlier
          omega
        · rw [mem_singleton.mp last]
      · rename_i lower
        refine ih (by simp) ?_ ran
        intro k' h' same
        cases same
        refine ⟨?_, ?_⟩
        · rw [List.getElem?_append_left (List.getElem?_eq_some_iff.mp placed).1]
          exact placed
        · intro w member
          rcases mem_append.mp member with earlier | last
          · exact maximal w earlier
          · rw [mem_singleton.mp last]
            omega

lemma newChain_existing (ran : newChain env choice headOrder config (some st) = .ok (.ok c)) :
    c.config = config ∧ c.storage = st ∧ c.HeadAt ∧
      (∀ b ∈ c.branches, b.head.count ≤ c.headBranch.head.count) ∧
      ∃ irreHash heads, st.irreversible = some irreHash ∧
        loadBlocks st irreHash = .ok (c.lastIrre, heads) ∧
        ∀ b ∈ c.branches, (∃ hash, heads.get hash = some b.head) ∧
          b.head.hasAncestor c.lastIrre = true := by
  unfold newChain at ran
  split at ran
  · simp at ran
  · simp at ran
  · simp only [loadChain] at ran
    split at ran
    · simp at ran
    · rename_i irreHash stored
      split at ran
      · simp at ran
      · rename_i lastIrre heads loadedBlocks
        split at ran
        · simp at ran
        · split at ran
          · simp at ran
          · simp at ran
          · rename_i branches rebuilt
            split at ran
            · simp at ran
            · rename_i headIndex headBranch selected
              simp only [Except.ok.injEq] at ran
              have chosen := selectHead_spec (fun _ => rfl) (by simp) selected
              rw [← ran]
              refine ⟨rfl, rfl, chosen.1, chosen.2, irreHash, heads, stored, loadedBlocks, ?_⟩
              intro b member
              obtain ⟨listed, rooted⟩ := rebuildBranches_mem rebuilt b member
              refine ⟨?_, rooted⟩
              have value : b.head ∈ heads.values := by
                rw [← headOrder.perm heads]
                exact Multiset.mem_coe.mpr listed
              exact FiniteMap.mem_values.mp value

lemma validNode_congr (sameGenesis : config'.genesis = config.genesis)
    (samePeriod : config'.period = config.period) :
    ValidNode env known config' = ValidNode env known config := by
  have height : config'.heightOfTime = config.heightOfTime := by
    funext t
    rw [Config.heightOfTime, Config.heightOfTime, sameGenesis, samePeriod]
  funext h b
  apply propext
  constructor
  · rintro ⟨seen, hashed, high⟩
    exact ⟨seen, hashed, height ▸ high⟩
  · rintro ⟨seen, hashed, high⟩
    exact ⟨seen, hashed, height.symm ▸ high⟩

lemma restart_anchored (free : CollisionFree env known)
    (rootless : Rootless known c.config) (genesis : ValidNode env known c.config 0 c.config.genesis)
    (headAt : c.HeadAt) (anchored : Anchored env known c) (stored : Stored env known c)
    (sameGenesis : config.genesis = c.config.genesis) (samePeriod : config.period = c.config.period)
    (ran : newChain env choice headOrder config (some c.storage) = .ok (.ok c')) :
    c'.HeadAt ∧ Anchored env known c' ∧ Stored env known c' ∧
      c'.lastIrre.trail = c.lastIrre.trail := by
  obtain ⟨sameConfig, sameStorage, headAt', maximal, irreHash, heads, irre, blocks, live⟩ :=
    newChain_existing ran
  rw [stored.irreversible, Option.some.injEq] at irre
  obtain ⟨loaded, holds, irreAt, rfl⟩ := loadBlocks_spec stored.rows stored.distinct blocks
  have congr : ValidNode env known c'.config = ValidNode env known c.config := by
    rw [sameConfig]
    exact validNode_congr sameGenesis samePeriod
  have irreCovered : ∀ hash ∈ c.lastIrre.trail, hash ∈ c.storage.blocks.map BlockRow.hash := by
    intro hash member
    have present := mem_of_getElem? headAt
    exact stored.covered _ present hash ((anchored.rooted _ present).subset member)
  obtain ⟨n, located, sameTrail⟩ := loaded_trail holds stored.rows free rootless genesis
    anchored.irreLinked stored.root irreCovered
  rw [← irre, located, Option.some.injEq] at irreAt
  subst irreAt
  have irreLinked := (holds.linked _ _ located).2
  have headLinked : ∀ b ∈ c'.branches, loaded.index.get b.head.hash = some b.head ∧
      b.head.Linked (ValidNode env known c.config) := by
    intro b member
    obtain ⟨⟨hash, found⟩, -⟩ := live b member
    have indexed := holds.heads _ _ found
    obtain ⟨sameHash, linked⟩ := holds.linked _ _ indexed
    exact ⟨sameHash ▸ indexed, linked⟩
  refine ⟨headAt', ⟨?_, ?_, ?_, maximal, ?_, ?_⟩, ⟨?_, ?_, ?_, ?_, ?_⟩, sameTrail⟩
  · rw [congr]
    exact irreLinked
  · intro b member
    rw [congr]
    exact (headLinked b member).2
  · intro b member
    exact irreLinked.trail_leading (headLinked b member).2 free.parentHash_eq (live b member).2
  · rw [sameStorage, sameTrail]
    exact anchored.applied
  · intro content
    rw [sameStorage, anchored.contents content]
    have counts := congrArg List.length sameTrail
    simp only [trail_length] at counts
    have sameHash : c'.lastIrre.hash = c.lastIrre.hash := (holds.linked _ _ located).1
    rw [irreLinked.contents_eq anchored.irreLinked (content.node_eq free) (by omega) sameHash]
  · rw [sameStorage, congr]
    exact stored.rows
  · rw [sameStorage]
    exact stored.distinct
  · rw [sameTrail, sameConfig, sameGenesis]
    exact stored.root
  · intro b member
    rw [sameStorage]
    exact holds.covered (headLinked b member).1
  · rw [sameStorage, stored.irreversible, (holds.linked _ _ located).1]

lemma trail_nodup {n : BlockNode} (free : CollisionFree env known)
    (rootless : Rootless known config) (genesis : ValidNode env known config 0 config.genesis)
    (linked : n.Linked (ValidNode env known config))
    (root : n.trail.head? = some config.genesis.blockHash) : n.trail.Nodup := by
  induction linked with
  | genesis => simp [trail, path]
  | @child p h b parent valid link ih =>
    have rootP : p.trail.head? = some config.genesis.blockHash := by
      rw [trail_child,
        List.head?_append_of_ne_nil _ (by simp [trail, p.path_ne_nil])] at root
      exact root
    have below := ih rootP
    rw [trail_child, nodup_append]
    refine ⟨below, nodup_singleton _, ?_⟩
    intro hash member other single same
    rw [mem_singleton.mp single] at same
    obtain ⟨a, onPath, rfl⟩ := mem_map.mp member
    have linkedA := parent.of_mem onPath
    have sameParent : a.load.parentHash = b.parentHash :=
      free.parentHash_eq _ _ _ _ linkedA.block valid same
    cases a with
    | genesis k r =>
      have rootA : r.blockHash = config.genesis.blockHash := by
        obtain ⟨rest, whole⟩ := trail_prefix_of_mem onPath
        rw [← whole] at rootP
        simpa [trail, path, BlockNode.hash, load] using rootP
      have parentA : r.parentHash = config.genesis.parentHash :=
        free.parentHash_eq _ _ _ _ linkedA.block genesis rootA
      apply rootless p.load parent.block.seen
      change p.hash = _
      rw [← link, ← sameParent, ← parentA]
      rfl
    | child q =>
      cases linkedA with
      | child parentQ validQ linkQ =>
        have repeated : q.hash = p.hash := by
          rw [← linkQ, ← link]
          exact sameParent
        have qOnPath : q ∈ p.path := mem_path_of_mem onPath
          (mem_append_left _ q.self_mem_path)
        have higher : q.count < p.count := by
          have length := (trail_prefix_of_mem onPath).length_le
          simp only [trail_length, BlockNode.count] at length
          omega
        have differ := nodup_iff_getElem?_ne_getElem?.mp below q.count p.count higher (by simp)
        apply differ
        simp only [trail, List.getElem?_map, path_getElem?_count qOnPath,
          path_getElem?_count p.self_mem_path, Option.map_some, repeated]

structure Alive (env : Env) (known : BPBlock → Prop) (config : Config) (c : Chain) : Prop where
  headAt : c.HeadAt
  anchored : Anchored env known c
  stored : Stored env known c
  sameGenesis : c.config.genesis = config.genesis
  samePeriod : c.config.period = config.period

lemma opened_alive (seen : known config.genesis) (opened : Opened env config c) :
    ValidNode env known config 0 config.genesis ∧ Alive env known config c := by
  obtain ⟨headAt, anchored, -⟩ := opened_anchored seen opened
  obtain ⟨hashed, st, genesis, rfl⟩ := opened_eq opened
  refine ⟨⟨seen, hashed, (heightOfTime_genesis config).symm⟩, ?_⟩
  exact ⟨headAt, anchored, genesisChain_stored hashed seen genesis, rfl, rfl⟩

lemma LifeStep.alive (free : CollisionFree env known) (rootless : Rootless known config)
    (genesis : ValidNode env known config 0 config.genesis) (alive : Alive env known config c)
    (step : LifeStep env known Chain.Deep c c') :
    Alive env known config c' ∧ c.lastIrre.trail <+: c'.lastIrre.trail := by
  cases step with
  | call deep step =>
    have effect := step_effect alive.headAt step
    obtain ⟨anchored, moved⟩ := effect.anchored free alive.headAt alive.anchored deep
    refine ⟨⟨effect.headAt alive.headAt, anchored,
      effect.stored alive.headAt alive.anchored deep alive.stored, ?_, ?_⟩, moved⟩
    · rw [effect.config_eq, alive.sameGenesis]
    · rw [effect.config_eq, alive.samePeriod]
  | restart choice headOrder config' sameGenesis samePeriod ran =>
    have rootless' : Rootless known c.config := by
      intro b seen
      rw [alive.sameGenesis]
      exact rootless b seen
    have genesis' : ValidNode env known c.config 0 c.config.genesis := by
      rw [validNode_congr alive.sameGenesis alive.samePeriod, alive.sameGenesis]
      exact genesis
    obtain ⟨headAt, anchored, stored, same⟩ := restart_anchored free rootless' genesis'
      alive.headAt alive.anchored alive.stored sameGenesis samePeriod ran
    refine ⟨⟨headAt, anchored, stored, ?_, ?_⟩, same ▸ prefix_rfl⟩
    · rw [(newChain_existing ran).1, sameGenesis, alive.sameGenesis]
    · rw [(newChain_existing ran).1, samePeriod, alive.samePeriod]

lemma life_alive (free : CollisionFree env known) (rootless : Rootless known config)
    (genesis : ValidNode env known config 0 config.genesis) (alive : Alive env known config c)
    (life : Life env known Chain.Deep c c') :
    Alive env known config c' ∧ c.lastIrre.trail <+: c'.lastIrre.trail := by
  induction life with
  | refl => exact ⟨alive, prefix_rfl⟩
  | tail _ step ih =>
    obtain ⟨kept, moved⟩ := step.alive free rootless genesis ih.1
    exact ⟨kept, ih.2.trans moved⟩

/-- Across restarts on chains whose last irreversible block stays deep enough, that block does not
move back and no block is applied twice. -/
theorem life_irreversible {c₀ c c' : Chain} (free : CollisionFree env known)
    (seen : known config.genesis) (rootless : Rootless known config)
    (opened : Opened env config c₀) (before : Life env known Chain.Deep c₀ c)
    (after : Life env known Chain.Deep c c') :
    c.lastIrre.count ≤ c'.lastIrre.count ∧ c.lastIrre.trail <+: c'.lastIrre.trail ∧
      c.storage.irreversible = some c.lastIrre.hash ∧
      c'.storage.irreversible = some c'.lastIrre.hash ∧
      c'.storage.applied.map BlockNode.hash = c'.lastIrre.trail ∧
      (c'.storage.applied.map BlockNode.hash).Nodup := by
  obtain ⟨genesis, alive₀⟩ := opened_alive seen opened
  obtain ⟨alive, -⟩ := life_alive free rootless genesis alive₀ before
  obtain ⟨alive', moved⟩ := life_alive free rootless genesis alive after
  have counts := moved.length_le
  simp only [trail_length] at counts
  refine ⟨by omega, moved, alive.stored.irreversible, alive'.stored.irreversible,
    alive'.anchored.applied, ?_⟩
  have linked := alive'.anchored.irreLinked
  have root := alive'.stored.root
  rw [validNode_congr alive'.sameGenesis alive'.samePeriod] at linked
  rw [alive'.sameGenesis] at root
  rw [alive'.anchored.applied]
  exact trail_nodup free rootless genesis linked root

end

namespace Sample

noncomputable def headOrder (n : BlockNode) : HeadOrder where
  list heads := if heads.values = {n} then [n] else heads.values.toList
  perm heads := by
    split
    · rename_i single
      rw [single]
      rfl
    · exact Multiset.coe_toList _

noncomputable def reopen (confirms : Nat) (c : Chain) : Chain :=
  match newChain env choice (headOrder c.headBranch.head) (config [] confirms)
      (some c.storage) with
  | .ok (.ok c) => c
  | _ => c

def third : BPBlock := block 1002 1003 []

noncomputable def grown (confirms : Nat) : Chain :=
  receive second (receive first (chain [] confirms))

def blocks : List BPBlock := [genesis [], first, second, third]

lemma life_receive {guard c'} (bl) (life : Life env (· ∈ blocks) guard c c') (guarded : guard c')
    (received : bl ∈ blocks) (verified : bl.verify env = some (.ok ()))
    (returned : Program.returns (Chain.applyBlock env choice bl) c' = true) :
    Life env (· ∈ blocks) guard c (receive bl c') :=
  life.tail (.call guarded (step_applyBlock received verified returned))

lemma blocks_free : CollisionFree env (· ∈ blocks) := collisionFree_of_list (by decide)

lemma blocks_rootless (confirms) : Rootless (· ∈ blocks) (config [] confirms) := by
  have checked : ∀ b ∈ blocks, b.blockHash ≠ (genesis []).parentHash := by decide
  exact checked

end Sample

open Sample in
theorem life_irreversible_reopened :
    Life Sample.env (· ∈ blocks) Chain.Deep (chain [] 2) (grown 2) ∧
      Life Sample.env (· ∈ blocks) Chain.Deep (grown 2) (receive third (reopen 1 (grown 2))) ∧
      (grown 2).lastIrre.count ≤ (receive third (reopen 1 (grown 2))).lastIrre.count ∧
      (receive third (reopen 1 (grown 2))).storage.applied.map BlockNode.hash =
        [1000, 1001, 1002] := by
  have opened : Opened Sample.env (Sample.config [] 2) (chain [] 2) :=
    genesisChain_opened choice.immutableOrders (by decide) (by rfl)
  have started : Life Sample.env (· ∈ blocks) Chain.Deep (chain [] 2) (grown 2) :=
    life_receive second
      (life_receive first .refl (by unfold Chain.Deep; decide) (by simp [blocks]) (by decide)
        (by decide))
      (by unfold Chain.Deep; decide) (by simp [blocks]) (by decide) (by decide)
  have reopened : LifeStep Sample.env (· ∈ blocks) Chain.Deep (grown 2) (reopen 1 (grown 2)) :=
    .restart choice (headOrder (grown 2).headBranch.head) (Sample.config [] 1) rfl rfl (by rfl)
  have finished : Life Sample.env (· ∈ blocks) Chain.Deep (grown 2)
      (receive third (reopen 1 (grown 2))) :=
    life_receive third (.single reopened) (by unfold Chain.Deep; decide) (by simp [blocks])
      (by decide) (by decide)
  have holds := life_irreversible blocks_free (by simp [blocks, Sample.config])
    (blocks_rootless 2) opened started finished
  refine ⟨started, finished, holds.1, ?_⟩
  rw [holds.2.2.2.2.1]
  decide

open Sample in
/-- With one confirmation needed, two blocks make the first one irreversible. -/
theorem restart_moves_back :
    CollisionFree Sample.env (· ∈ blocks) ∧ Rootless (· ∈ blocks) (Sample.config [] 1) ∧
      Opened Sample.env (Sample.config [] 1) (chain [] 1) ∧
      Life Sample.env (· ∈ blocks) (fun _ => True) (chain [] 1) (grown 1) ∧
      Life Sample.env (· ∈ blocks) (fun _ => True) (grown 1) (receive third (reopen 3 (grown 1))) ∧
      (grown 1).lastIrre.count = 1 ∧ (receive third (reopen 3 (grown 1))).lastIrre.count = 0 ∧
      (grown 1).storage.irreversible = some 1001 ∧
      (receive third (reopen 3 (grown 1))).storage.irreversible = some 1000 := by
  have opened : Opened Sample.env (Sample.config [] 1) (chain [] 1) :=
    genesisChain_opened choice.immutableOrders (by decide) (by rfl)
  have started : Life Sample.env (· ∈ blocks) (fun _ => True) (chain [] 1) (grown 1) :=
    life_receive second
      (life_receive first .refl trivial (by simp [blocks]) (by decide) (by decide))
      trivial (by simp [blocks]) (by decide) (by decide)
  have reopened : LifeStep Sample.env (· ∈ blocks) (fun _ => True) (grown 1) (reopen 3 (grown 1)) :=
    .restart choice (headOrder (grown 1).headBranch.head) (Sample.config [] 3) rfl rfl (by rfl)
  have finished : Life Sample.env (· ∈ blocks) (fun _ => True) (grown 1)
      (receive third (reopen 3 (grown 1))) :=
    life_receive third (.single reopened) trivial (by simp [blocks]) (by decide) (by decide)
  exact ⟨blocks_free, blocks_rootless 1, opened, started, finished, by decide, by decide,
    by decide, by decide⟩

end SQLess.BlockProducer
