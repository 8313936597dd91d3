import SQLess.BlockProducer.Irreversibility
import SQLess.BlockProducer.Ledger
import SQLess.BlockProducer.Replay

/-! Previews of live branches. -/

namespace SQLess.BlockProducer

open Lib List BlockNode MetaState Branch

variable {n : BlockNode} {bl : BPBlock} {v origin br : Branch} {orders : Orders}

namespace BlockNode

def history (n : BlockNode) : List (Transaction × Nat) := (n.contents.drop 1).flatten

lemma history_child (p h b) : (child p h b).history = p.history ++ (child p h b).txs := by
  have inside : 1 ≤ p.contents.length := by simp
  rw [history, contents_child, drop_append_of_le_length inside, flatten_append, history]
  simp [txs, load, height]

lemma mem_history (member : entry ∈ (n.path.drop (start + 1)).flatMap txs) : entry ∈ n.history := by
  rw [history, contents, ← map_drop, ← flatMap_def]
  rw [Nat.add_comm, ← drop_drop] at member
  obtain ⟨m, later, here⟩ := mem_flatMap.mp member
  exact mem_flatMap.mpr ⟨m, drop_subset start _ later, here⟩

lemma history_append {anc : BlockNode} (leading : anc.contents <+: n.contents) :
    n.history = anc.history ++ (n.path.drop (anc.count + 1)).flatMap txs := by
  have whole := prefix_iff_eq_append.mp leading
  have inside : 1 ≤ anc.contents.length := by simp
  rw [history, ← whole, drop_append_of_le_length inside, flatten_append,
    contents_length, flatMap_def, map_drop]
  rfl

end BlockNode

def MetaState.Committed (s : MetaState) : Prop := s.dirty = newDirtyIndex

namespace MetaState.Committed

variable {s : MetaState}

section

variable (committed : s.Committed)
include committed

lemma eq : s = ⟨newDirtyIndex, s.readonly⟩ := by
  obtain ⟨dirty, readonly⟩ := s
  obtain rfl : dirty = newDirtyIndex := committed
  rfl

lemma view : s.view = s.readonly := by
  rw [committed.eq, view_clean]

lemma noNil : s.NoNil := by
  rw [committed.eq]
  exact noNil_clean _

lemma clean : s.clean = s := by
  rw [MetaState.clean, ← committed.eq]

end

end MetaState.Committed

/-- No replay of blocks of the run, from genesis on, passes a state in which two registered
providers share a node id. -/
def DistinctProviders (env : Env) (known : BPBlock → Prop) (config : Config)
    (base : MetaIndex) : Prop :=
  ∀ n : BlockNode, n.Linked (ValidNode env known config) → config.genesisNode ∈ n.path →
    DistinctAlong env base n.history

structure LiveBranch (env : Env) (base : MetaIndex) (config : Config) (b : Branch) : Prop where
  committed : b.preview.Committed
  preview : Replays env base b.head.history b.preview.readonly
  plain : Plain b.head.history
  rooted : config.genesisNode ∈ b.head.path

structure Replayed (env : Env) (base : MetaIndex) (c : Chain) : Prop where
  committed : c.immutable.Committed
  immutable : Replays env base c.lastIrre.history c.immutable.readonly
  live : ∀ b ∈ c.branches, LiveBranch env base c.config b

section

variable {env : Env} {known : BPBlock → Prop} {config : Config} {base : MetaIndex} {c : Chain}

lemma newNode_history (config : Config) (bl parent) : (config.newNode bl parent).history =
      parent.history ++ bl.transactions.map fun tx => (tx, config.heightOfTime bl.timestamp) :=
  history_child parent _ bl

lemma newNode_plain {parent} (plain : ∀ tx ∈ bl.transactions, tx.isBaseAccount = false)
    (before : Plain parent.history) : Plain (config.newNode bl parent).history := by
  rw [newNode_history]
  intro entry member
  rcases mem_append.mp member with earlier | here
  · exact before entry earlier
  · obtain ⟨tx, present, rfl⟩ := mem_map.mp here
    exact plain tx present

lemma newNode_rooted {parent root} (below : root ∈ parent.path) :
    root ∈ (config.newNode bl parent).path := by
  simp only [Config.newNode, newBlockNode, BlockNode.path, mem_append]
  exact .inl below

section

variable (committed : v.preview.Committed)
include committed

lemma makeArena_eq : v.makeArena = v := by
  rw [makeArena, committed.clean]

lemma applyBlock_origin (plain : ∀ tx ∈ n.load.transactions, tx.isBaseAccount = false)
    (ran : v.applyBlock env orders n = .ok (result, origin)) : origin = v := by
  have shared : ∀ {cpy : Branch}, cpy.preview.readonly = v.preview.readonly →
      v.shareReadonly cpy = v := by
    intro cpy same
    rw [shareReadonly, same]
  unfold applyBlock at ran
  split at ran
  · cases ran
    rfl
  · split at ran
    · cases ran
      rfl
    · rw [makeArena_eq committed] at ran
      split at ran
      · simp at ran
      · rename_i error cpy packed
        cases ran
        exact shared (packTxs_base plain committed.noNil packed)
      · rename_i cpy packed
        cases ran
        exact shared (packTxs_base plain committed.noNil packed)

lemma applyBlock_replays (preview : Replays env base v.head.history v.preview.readonly)
    (plain : Plain (config.newNode bl v.head).history)
    (distinct : DistinctAlong env base (config.newNode bl v.head).history)
    (ran : v.applyBlock env orders (config.newNode bl v.head) = .ok (.ok br, origin)) :
    Replays env base (config.newNode bl v.head).history br.preview.view := by
  rw [newNode_history] at plain distinct ⊢
  obtain ⟨-, -, cpy, packed, rfl, -⟩ := applyBlock_eq_ok.mp ran
  rw [makeArena_eq committed] at packed
  have replayed := packTxs_replay packed
  have grown := replays_of_run plain.right (distinct.after preview plain) committed.noNil
    committed.view replayed
  exact preview.append grown plain

end

def PlainBlocks (received : BPBlock → Prop) : Prop :=
  ∀ bl, received bl → ∀ tx ∈ bl.transactions, tx.isBaseAccount = false

lemma Attempt.seen
    (attempt : Attempt env known False config v (.ok (br, bl)) origin) : known bl := by
  rcases attempt.ok_cases with ⟨orders, seen, -⟩ | ⟨orders, txs, now, priv, allowed, -⟩
  · exact seen
  · exact allowed.elim

lemma Attempt.origin_self (plain : PlainBlocks known) (committed : v.preview.Committed)
    (attempt : Attempt env known False config v result origin) : origin = v := by
  cases attempt with
  | received seen verified ran =>
    refine applyBlock_origin committed ?_ ran
    exact plain _ seen
  | produced allowed => exact allowed.elim

lemma Attempt.replays (committed : v.preview.Committed)
    (preview : Replays env base v.head.history v.preview.readonly)
    (plain : Plain (config.newNode bl v.head).history)
    (distinct : DistinctAlong env base (config.newNode bl v.head).history)
    (attempt : Attempt env known False config v (.ok (br, bl)) origin) :
    Replays env base br.head.history br.preview.view := by
  rw [attempt.extends.1]
  rcases attempt.ok_cases with ⟨orders, -, -, ran⟩ | ⟨orders, txs, now, priv, allowed, -⟩
  · exact applyBlock_replays committed preview plain distinct ran
  · exact allowed.elim

lemma newBranch_replays {anc head s pool} (irreversible : Replays env base anc.history s.readonly)
    (leading : anc.contents <+: head.contents) (plain : Plain head.history)
    (distinct : DistinctAlong env base head.history)
    (ran : newBranch env orders anc head s pool = .ok (.ok br)) :
    br.preview.Committed ∧ Replays env base head.history br.preview.readonly := by
  rw [history_append leading] at plain distinct ⊢
  obtain ⟨inst, packed, rfl⟩ := newBranch_eq_ok ran
  rw [fetchNodeList_eq] at packed
  have replayed := packBlocks_replay packed
  have grown := replays_of_run plain.right (distinct.after irreversible plain)
    (noNil_clean s.readonly) (view_clean s.readonly) replayed
  exact ⟨rfl, irreversible.append grown plain⟩

lemma LiveBranch.clearTxs (live : LiveBranch env base config b) (nodes expired) :
    LiveBranch env base config (b.clearTxs nodes expired) := by
  obtain ⟨committed, preview, plain, rooted⟩ := live
  constructor
  · rw [clearTxs_preview]
    exact committed
  · rw [clearTxs_preview, clearTxs_head]
    exact preview
  · rw [clearTxs_head]
    exact plain
  · rw [clearTxs_head]
    exact rooted

lemma LiveBranch.addTx (live : LiveBranch env base config b) (tx) :
    LiveBranch env base config (b.addTx tx) := by
  obtain ⟨committed, preview, plain, rooted⟩ := live
  constructor
  · rw [addTx_preview]
    exact committed
  · rw [addTx_preview, addTx_head]
    exact preview
  · rw [addTx_head]
    exact plain
  · rw [addTx_head]
    exact rooted

lemma prepareSwitch_clean (committed : c.immutable.Committed) (plain : Plain br.head.history)
    (prepared : c.prepareSwitch env orders br = .ok switch) :
    switch.immutable.clean = c.immutable := by
  obtain ⟨irre, newIrres, applied, -⟩ := prepareSwitch_eq_ok prepared
  have onPath := lastIrreversible_mem_path c.config.confirms br.head
  rw [history_append (contents_prefix_of_mem onPath), ← irre] at plain
  have plain : Plain (switch.newIrres.flatMap BlockNode.txs) := by
    intro entry member
    rw [newIrres] at member
    exact plain.left entry (mem_history member)
  have kept := applyIrreversible_base plain committed.noNil applied
  rw [MetaState.clean, kept.2, ← committed.eq]

end

structure Faithful (env : Env) (known received : BPBlock → Prop) (base : MetaIndex)
    (c : Chain) : Prop where
  free : CollisionFree env known
  content : SameTransactions known
  plain : PlainBlocks received
  wide : ∀ bl, received bl → known bl
  distinct : DistinctProviders env known c.config base
  headAt : c.HeadAt
  anchored : Anchored env known c
  deep : c.Deep
  replayed : Replayed env base c

namespace Faithful

variable {env : Env} {known received : BPBlock → Prop} {base : MetaIndex} {c : Chain}
variable {v br origin : Branch} {bl : BPBlock} {i : Nat}

section

variable (faithful : Faithful env known received base c)
include faithful

lemma extended (member : v ∈ c.branches)
    (attempt : Attempt env received False c.config v (.ok (br, bl)) origin) :
    LiveBranch env base c.config br.commitPreview ∧ DistinctAlong env base br.head.history := by
  have live := faithful.replayed.live v member
  have seen := attempt.seen
  have head := attempt.extends.1
  have plainHistory : Plain (c.config.newNode bl v.head).history :=
    newNode_plain (faithful.plain bl seen) live.plain
  have rooted : c.config.genesisNode ∈ (c.config.newNode bl v.head).path :=
    newNode_rooted live.rooted
  have linked := (attempt.mono faithful.wide).linked (faithful.wide bl seen)
    (faithful.anchored.linked v member)
  rw [head] at linked
  have distinctHistory := faithful.distinct _ linked rooted
  have preview := attempt.replays live.committed live.preview plainHistory distinctHistory
  rw [← head] at plainHistory rooted distinctHistory
  exact ⟨⟨rfl, preview, plainHistory, rooted⟩, distinctHistory⟩

lemma switch_history (found : c.branches[i]? = some v)
    (attempt : Attempt env received False c.config v (.ok (br, bl)) origin)
    (higher : i = c.headIndex ∨ c.headBranch.head.count < br.head.count) :
    let irre := br.head.lastIrreversible c.config.confirms
    irre.history = c.lastIrre.history ++
        (irre.path.drop (c.lastIrre.count + 1)).flatMap BlockNode.txs ∧
      Plain irre.history ∧ DistinctAlong env base irre.history := by
  intro irre
  obtain ⟨live, distinct⟩ := faithful.extended (mem_of_getElem? found) attempt
  have plain : Plain br.head.history := live.plain
  have attempt := attempt.mono faithful.wide
  have onPath : irre ∈ br.head.path := lastIrreversible_mem_path _ _
  have linked := attempt.linked attempt.seen
    (faithful.anchored.linked v (mem_of_getElem? found))
  have moved := trail_of_switch faithful.headAt faithful.anchored faithful.deep found attempt higher
  have below := faithful.anchored.contents_prefix faithful.content faithful.free
    (linked.of_mem onPath) moved
  rw [history_append (contents_prefix_of_mem onPath)] at plain distinct
  exact ⟨history_append below, plain.left, distinct.left⟩

lemma switched (found : c.branches[i]? = some v)
    (attempt : Attempt env received False c.config v (.ok (br, bl)) origin)
    (higher : i = c.headIndex ∨ c.headBranch.head.count < br.head.count)
    (prepared : c.prepareSwitch env orders br = .ok switch) (storage) :
    Replayed env base (c.finishSwitch storage i br switch) := by
  have replayed := faithful.replayed
  obtain ⟨irre, newIrres, applied, -⟩ := prepareSwitch_eq_ok prepared
  obtain ⟨whole, plain, distinct⟩ := faithful.switch_history found attempt higher
  rw [← irre, ← newIrres] at whole
  rw [← irre, whole] at plain distinct
  refine ⟨rfl, ?_, ?_⟩
  · change Replays env base switch.lastIrre.history switch.immutable.view
    rw [whole]
    exact replayed.immutable.append (replays_of_run plain.right
      (distinct.after replayed.immutable plain) replayed.committed.noNil
      replayed.committed.view applied) plain
  · intro b member
    obtain ⟨kept, rfl, rfl | ⟨present, _⟩⟩ := finishSwitch_mem member
    · exact (faithful.extended (mem_of_getElem? found) attempt).1.clearTxs _ _
    · exact (replayed.live kept present).clearTxs _ _

lemma fork_plain {parent : BlockNode}
    (seen : received bl) (member : v ∈ c.branches) (onPath : parent ∈ v.head.path) :
    Plain (c.newNode bl parent).history := by
  have whole := (faithful.replayed.live v member).plain
  rw [history_append (contents_prefix_of_mem onPath)] at whole
  exact newNode_plain (faithful.plain bl seen) whole.left

lemma forked {parent} (seen : received bl) (verified : bl.verify env = some (.ok ()))
    (noHead : ∀ v ∈ c.branches, v.head.hash ≠ bl.parentHash) (found : c.findParent bl = some parent)
    (ran : newBranch env orders c.lastIrre (c.newNode bl parent) c.immutable c.txPool =
      .ok (.ok br)) : LiveBranch env base c.config br := by
  obtain ⟨v, present, onPath, sameHash, above, below⟩ := findParent_spec found noHead
  have anchored := faithful.anchored
  have rooted : c.config.genesisNode ∈ (c.newNode bl parent).path :=
    newNode_rooted (mem_path_of_count_le onPath
      (faithful.replayed.live v present).rooted (Nat.zero_le _))
  have linked : (c.newNode bl parent).Linked (ValidNode env known c.config) :=
    .child ((anchored.linked v present).of_mem onPath)
      ⟨faithful.wide bl seen, BPBlock.hash_of_verify verified, rfl⟩ sameHash.symm
  have plain := faithful.fork_plain seen present onPath
  have irreversible : c.lastIrre.contents <+: parent.contents := by
    refine prefix_of_prefix_length_le (anchored.contents_prefix faithful.content
      faithful.free (anchored.linked v present) (anchored.rooted v present))
      (contents_prefix_of_mem onPath) ?_
    rw [contents_length, contents_length]
    omega
  have leading : c.lastIrre.contents <+: (c.newNode bl parent).contents := by
    refine irreversible.trans ?_
    simp [Chain.newNode, Config.newNode, newBlockNode]
  obtain ⟨committed, preview⟩ := newBranch_replays faithful.replayed.immutable leading plain
    (faithful.distinct _ linked rooted) ran
  rw [← newBranch_head ran] at preview plain rooted
  exact ⟨committed, preview, plain, rooted⟩

lemma effect (effect : Effect env received False c c') : Replayed env base c' := by
  have replayed := faithful.replayed
  cases effect with
  | unchanged => exact replayed
  | pooled tx =>
    refine ⟨replayed.committed, replayed.immutable, ?_⟩
    intro b member
    obtain ⟨v, kept, rfl⟩ := mem_map.mp member
    exact (replayed.live v kept).addTx tx
  | attempted i v result origin found attempt =>
    have live := replayed.live v (mem_of_getElem? found)
    rw [attempt.origin_self faithful.plain live.committed, setBranch_self faithful.headAt found]
    exact replayed
  | grown i v br bl origin found seen attempt =>
    refine ⟨replayed.committed, replayed.immutable, ?_⟩
    intro b listed
    rcases mem_or_eq_of_mem_set listed with kept | rfl
    · exact replayed.live b kept
    · exact (faithful.extended (mem_of_getElem? found) attempt).1
  | forked orders bl parent br seen verified noHead unknown found ran =>
    refine ⟨replayed.committed, replayed.immutable, ?_⟩
    intro b member
    rcases mem_append.mp member with kept | added
    · exact replayed.live b kept
    · rw [mem_singleton.mp added]
      exact faithful.forked seen verified noHead found ran
  | notSwitched orders i v br bl origin switch found attempt prepared =>
    have member := mem_of_getElem? found
    have same := attempt.origin_self faithful.plain (replayed.live v member).committed
    obtain ⟨live, -⟩ := faithful.extended member attempt
    rw [same, setBranch_self faithful.headAt found,
      prepareSwitch_clean replayed.committed live.plain prepared]
    exact replayed
  | switched orders i v br bl origin switch found seen attempt higher prepared =>
    have live := replayed.live v (mem_of_getElem? found)
    rw [attempt.origin_self faithful.plain live.committed, setBranch_self faithful.headAt found]
    exact faithful.switched found attempt higher prepared _

end

lemma store_switch_not_fatal (stored bl switch st) :
    store stored (c.switchProcedures bl switch) st ≠ .error .fatal := by
  intro ran
  unfold store at ran
  split at ran
  · rw [Chain.switchProcedures, runProcedures_append, runProcedures_append] at ran
    simp only [store.runProcedures, compileChanges] at ran
    by_cases refused : ∃ id ∈ switch.immutable.dirty.databases.keys,
        hasNilPermission (switch.immutable.dirty.databases.get id).join = true
    · simp [refused, Except.map] at ran
    · simp [refused, addBlock, buildBlockIndex, runProcedures_deleteTxs, deleteExpiredTxs,
        updateIrreversible, recordApplied, Except.map] at ran
  · simp at ran

section

variable (faithful : Faithful env known received base c)
include faithful

lemma prepareSwitch_ok (found : c.branches[i]? = some v)
    (attempt : Attempt env received False c.config v (.ok (br, bl)) origin)
    (higher : i = c.headIndex ∨ c.headBranch.head.count < br.head.count) (orders) :
    ∃ switch, c.prepareSwitch env orders br = .ok switch := by
  obtain ⟨live, distinct⟩ := faithful.extended (mem_of_getElem? found) attempt
  have plain : Plain br.head.history := live.plain
  have preview : Replays env base br.head.history br.preview.view := live.preview
  obtain ⟨whole, plainIrre, -⟩ := faithful.switch_history found attempt higher
  have onPath := lastIrreversible_mem_path c.config.confirms br.head
  rw [history_append (contents_prefix_of_mem onPath)] at plain distinct preview
  obtain ⟨middle, before⟩ := preview.before plain distinct orders
  rw [whole] at before plainIrre
  obtain ⟨s, ran, -⟩ := (before.after faithful.replayed.immutable plainIrre).run plainIrre.right
    faithful.replayed.committed.noNil faithful.replayed.committed.view orders
  simp only [Chain.prepareSwitch, fetchNodeList_eq, ran]
  exact ⟨_, rfl⟩

lemma branch_not_fatal (seen : received bl) (member : v ∈ c.branches) :
    v.applyBlock env orders (c.newNode bl v.head) ≠ .error .fatal := by
  have live := faithful.replayed.live v member
  intro ran
  unfold applyBlock at ran
  split at ran
  · simp at ran
  · split at ran
    · simp at ran
    · rw [makeArena_eq live.committed] at ran
      split at ran
      · rename_i packing
        rw [Except.error.inj ran] at packing
        exact packTxs_not_fatal (faithful.plain bl seen) live.committed.noNil packing
      · simp at ran
      · simp at ran

lemma fork_not_fatal {parent} (seen : received bl) (found : c.findParent bl = some parent) :
    newBranch env orders c.lastIrre (c.newNode bl parent) c.immutable c.txPool ≠ .error .fatal := by
  obtain ⟨v, member, located⟩ := exists_of_findSome?_eq_some found
  obtain ⟨onPath, -, -⟩ := hasAncestorWithMinCount_eq_some located
  have plain := faithful.fork_plain seen member onPath
  intro ran
  simp only [newBranch, fetchNodeList_eq] at ran
  split at ran
  · rename_i packing
    rw [Except.error.inj ran] at packing
    refine packBlocks_not_fatal ?_ (noNil_clean c.immutable.readonly) packing
    exact fun entry later => plain entry (mem_history later)
  · simp at ran
  · simp at ran

lemma applyBlock_not_fatal (seen : received bl) (verified : bl.verify env = some (.ok ())) :
    Chain.applyBlock env choice bl c ≠ .error .fatal := by
  intro ran
  cases applyBlock_halting ran with
  | grow i v found halted =>
    exact faithful.branch_not_fatal seen (mem_of_getElem? found) halted
  | fork parent found halted => exact faithful.fork_not_fatal seen found halted
  | prepare i v br origin found tried higher halted =>
    have attempt : Attempt env received False c.config v (.ok (br, bl)) origin :=
      .received seen verified tried
    rw [setBranch_headBranch_head faithful.headAt found _ _ attempt] at higher
    obtain ⟨switch, prepared⟩ := faithful.prepareSwitch_ok found attempt (.inr higher)
      choice.immutableOrders
    simp [prepared] at halted
  | store i v br origin switch found tried prepared halted =>
    exact store_switch_not_fatal _ _ _ _ halted

end

end Faithful

section

variable {env : Env} {received : BPBlock → Prop} {config : Config}

def Known (config : Config) (received : BPBlock → Prop) (bl : BPBlock) : Prop :=
  bl = config.genesis ∨ received bl

lemma genesisChain_replayed (config st) :
    Replayed env (genesisChain config st).immutable.readonly (genesisChain config st) := by
  refine ⟨rfl, Replays.nil env _, ?_⟩
  intro b member
  rw [mem_singleton.mp member]
  have committed : (genesisBranch config st).preview =
      ⟨newDirtyIndex, (loadImmutableState st).readonly⟩ := by
    rw [genesisBranch, MetaState.commit, MetaState.makeCopy, view_clean]
  refine ⟨rfl, ?_, ?_, mem_singleton_self _⟩
  · rw [committed]
    exact Replays.nil env _
  · intro entry present
    exact absurd present (not_mem_nil)

lemma run_faithful (free : CollisionFree env (Known config received))
    (content : SameTransactions (Known config received)) (plain : PlainBlocks received)
    (opened : Opened env config c₀)
    (distinct : DistinctProviders env (Known config received) config c₀.immutable.readonly)
    (run : Run env received False c₀ c) :
    Faithful env (Known config received) received c₀.immutable.readonly c := by
  have wide : ∀ bl, received bl → Known config received bl := fun bl => .inr
  have seen : Known config received config.genesis := .inl rfl
  obtain ⟨headAt, anchored, settled⟩ := opened_anchored seen opened
  have replayed : Replayed env c₀.immutable.readonly c₀ ∧ c₀.config = config := by
    obtain ⟨-, st, -, rfl⟩ := opened_eq opened
    exact ⟨genesisChain_replayed config st, rfl⟩
  obtain ⟨headAt', sameConfig, anchored', settled', replayed'⟩ :=
    Run.preserves (fun c => c.config = config ∧ Anchored env (Known config received) c ∧
      c.Settled ∧ Replayed env c₀.immutable.readonly c) run headAt
      ⟨replayed.2, anchored, settled, replayed.1⟩ (by
        rintro c c' headAt ⟨sameConfig, anchored, settled, replayed⟩ effect
        have faithful : Faithful env (Known config received) received c₀.immutable.readonly c :=
          ⟨free, content, plain, wide, sameConfig ▸ distinct, headAt, anchored, settled.deep,
            replayed⟩
        exact ⟨effect.config_eq.trans sameConfig,
          ((effect.mono wide).anchored free headAt anchored settled.deep).1,
          effect.settled headAt settled, faithful.effect effect⟩)
  exact ⟨free, content, plain, wide, sameConfig ▸ distinct, headAt', anchored', settled'.deep,
    replayed'⟩

/-- The preview of every live branch is the replay of the blocks after the last irreversible one,
and no received block ends the process. -/
theorem run_replays {c₀ c : Chain} (free : CollisionFree env (Known config received))
    (content : SameTransactions (Known config received)) (plain : PlainBlocks received)
    (opened : Opened env config c₀)
    (distinct : DistinctProviders env (Known config received) config c₀.immutable.readonly)
    (run : Run env received False c₀ c) :
    (∀ b ∈ c.branches, ∀ orders, ∃ s, applyIrreversible env orders
        ((b.head.fetchNodeList (c.lastIrre.count + 1)).flatMap BlockNode.txs)
        c.immutable.makeCopy = .ok s ∧ s.commit = b.preview) ∧
      ∀ choice bl, received bl → bl.verify env = some (.ok ()) →
        Chain.applyBlock env choice bl c ≠ .error .fatal := by
  have faithful := run_faithful free content plain opened distinct run
  refine ⟨?_, fun choice bl seen verified => faithful.applyBlock_not_fatal seen verified⟩
  intro b member orders
  have live := faithful.replayed.live b member
  have whole := live.preview
  have plainHistory := live.plain
  have leading := faithful.anchored.contents_prefix content free
    (faithful.anchored.linked b member) (faithful.anchored.rooted b member)
  rw [history_append leading] at whole plainHistory
  obtain ⟨s, ran, viewed⟩ := whole.after faithful.replayed.immutable plainHistory orders
  rw [fetchNodeList_eq]
  exact ⟨s, ran, by rw [MetaState.commit, viewed, ← live.committed.eq]⟩

lemma distinctProviders_of_unregistered (distinct : base.DistinctNodeIDs)
    (unregistered : ∀ bl, known bl → ∀ tx ∈ bl.transactions, tx.isProvideService = false) :
    DistinctProviders env known config base := by
  have along : ∀ (orders : Orders) (part : List (Transaction × Nat)) (s s' : MetaState),
      (∀ entry ∈ part, entry.1.isProvideService = false) → s.view.DistinctNodeIDs →
      applyIrreversible env orders part s = .ok s' → s'.view.DistinctNodeIDs := by
    intro orders part
    induction part generalizing orders with
    | nil =>
      intro s s' _ distinct ran
      simp only [applyIrreversible] at ran
      cases ran
      exact distinct
    | cons entry rest ih =>
      intro s s' unregistered distinct ran
      obtain ⟨tx, height⟩ := entry
      obtain ⟨between, first, later⟩ := applyIrreversible_cons.mp ran
      exact ih _ between s' (fun entry member => unregistered entry (mem_cons_of_mem _ member))
        ((apply_applied first).distinctNodeIDs (unregistered _ mem_cons_self) distinct)
        later
  intro n linked rooted orders part s leading ran
  refine along orders part _ s ?_ ?_ ran
  · intro entry member
    have listed := leading.subset member
    rw [BlockNode.history, BlockNode.contents, ← map_drop, ← flatMap_def] at listed
    obtain ⟨m, later, here⟩ := mem_flatMap.mp listed
    obtain ⟨tx, present, rfl⟩ := mem_map.mp here
    exact unregistered _ (linked.of_mem (mem_of_mem_drop later)).block.seen tx present
  · rw [view_clean]
    exact distinct

lemma Known.mem (seen : Known config (· ∈ blocks) bl) : bl ∈ config.genesis :: blocks := by
  rcases seen with rfl | seen
  · exact mem_cons_self
  · exact mem_cons_of_mem _ seen

lemma collisionFree_known (checked : ∀ a ∈ config.genesis :: blocks, ∀ b ∈ config.genesis :: blocks,
      env.bpHeaderHash a.header = env.bpHeaderHash b.header → a.header = b.header) :
    CollisionFree env (Known config (· ∈ blocks)) := by
  intro a b hash left right hashed hashed'
  exact checked a left.mem b right.mem (hashed.trans hashed'.symm)

lemma sameTransactions_known
    (listed : ∀ a ∈ config.genesis :: blocks, ∀ b ∈ config.genesis :: blocks,
      a.blockHash = b.blockHash → a.transactions = b.transactions) :
    SameTransactions (Known config (· ∈ blocks)) :=
  fun a b left right => listed a left.mem b right.mem

lemma distinctProviders_known (distinct : base.DistinctNodeIDs)
    (checked : ∀ bl ∈ config.genesis :: blocks, ∀ tx ∈ bl.transactions, tx.isProvideService =
      false) : DistinctProviders env (Known config (· ∈ blocks)) config base :=
  distinctProviders_of_unregistered distinct fun bl seen => checked bl seen.mem

end

namespace Sample

def founder (address : AccountAddress) (particles : UInt64) : Transaction :=
  .baseAccount ⟨address, ⟨particles, 0⟩, 0⟩ ⟨transactionTypeBaseAccount, 0⟩

def payment (sender : Nat) (receiver : AccountAddress) (nonce : AccountNonce) (amount : UInt64) :
    SignedTx TransferHeader :=
  let header : TransferHeader := ⟨BitVec.ofNat 256 sender, receiver, nonce, amount, 0⟩
  let hash : Hash := BitVec.ofNat 256 (txCode (.transfer header))
  ⟨header, ⟨transactionTypeTransfer, 0⟩, ⟨hash, some ⟨sender, 0⟩, some ⟨sender, hash.toNat⟩⟩⟩

def pay (sender : Nat) (receiver : AccountAddress) (nonce : AccountNonce) (amount : UInt64) :
    Transaction :=
  .transfer (payment sender receiver nonce amount)

noncomputable def pool (tx : Transaction) (c : Chain) : Chain :=
  Program.after (Chain.storeTx true tx) c

lemma run_pool (run : Run env known producing c c') (tx)
    (returned : Program.returns (Chain.storeTx true tx) c' = true) :
    Run env known producing c (pool tx c') :=
  run.tail (step_storeTx returned)

noncomputable def funded : Chain := chain [founder 1 100] 2

lemma funded_opened : Opened env (config [founder 1 100] 2) funded :=
  genesisChain_opened choice.immutableOrders (by decide +kernel) (by rfl)

lemma funded_providers : funded.immutable.readonly.DistinctNodeIDs := by
  intro k k' po po' found
  have empty : funded.immutable.readonly.provider.get k = none := rfl
  rw [empty] at found
  simp at found

def paid : BPBlock := block 1000 1010 [pay 1 2 1 10]

def early : BPBlock := block 1010 1005 []

def other : BPBlock := block 1000 1011 [pay 1 2 1 10]

noncomputable def competing : Chain :=
  receive other (receive early (receive paid (pool (pay 1 2 1 10) funded)))

end Sample

open Sample in
theorem run_replays_competing :
    competing.branches.length = 2 ∧ ∀ b ∈ competing.branches, ∀ orders, ∃ s,
      applyIrreversible Sample.env orders
        ((b.head.fetchNodeList (competing.lastIrre.count + 1)).flatMap BlockNode.txs)
        competing.immutable.makeCopy = .ok s ∧ s.commit = b.preview := by
  have plain : PlainBlocks (· ∈ [paid, early, other]) := by
    unfold PlainBlocks
    decide +kernel
  have run : Run Sample.env (· ∈ [paid, early, other]) False funded competing :=
    run_receive (run_receive (run_receive (run_pool .refl (pay 1 2 1 10) (by decide +kernel))
      paid (by simp) (by decide +kernel) (by decide +kernel))
      early (by simp) (by decide +kernel) (by decide +kernel))
      other (by simp) (by decide +kernel) (by decide +kernel)
  exact ⟨by decide +kernel, (run_replays (collisionFree_known (by decide +kernel))
    (sameTransactions_known (by decide +kernel)) plain funded_opened
    (distinctProviders_known funded_providers (by decide +kernel)) run).1⟩

namespace Sample

def forgery : Transaction :=
  .transfer { payment 1 2 1 20 with verifier := (payment 1 2 1 10).verifier }

def forged : BPBlock := block 1000 1010 [forgery]

def later : BPBlock := block 1005 1006 []

noncomputable def twofold : Chain :=
  receive later (receive forged (receive early (receive paid (pool (pay 1 2 1 10) funded))))

def spending : BPBlock := block 1010 1007 [pay 2 3 0 15]

def level : BPBlock := block 1007 1008 []

def overtaking : BPBlock := block 1008 1009 []

noncomputable def doomed : Chain := receive level (receive spending twofold)

def twofoldBlocks : List BPBlock := [paid, early, forged, later, spending, level, overtaking]

lemma run_twofold {known : BPBlock → Prop} (seen : ∀ bl ∈ [paid, early, forged, later], known bl) :
    Run env known False funded twofold :=
  run_receive (run_receive (run_receive (run_receive
    (run_pool .refl (pay 1 2 1 10) (by decide +kernel))
    paid (seen _ (by simp)) (by decide +kernel) (by decide +kernel))
    early (seen _ (by simp)) (by decide +kernel) (by decide +kernel))
    forged (seen _ (by simp)) (by decide +kernel) (by decide +kernel))
    later (seen _ (by simp)) (by decide +kernel) (by decide +kernel)

lemma run_doomed : Run env (· ∈ twofoldBlocks) False funded doomed :=
  run_receive (run_receive (run_twofold (by simp [twofoldBlocks]))
    spending (by simp [twofoldBlocks]) (by decide +kernel) (by decide +kernel))
    level (by simp [twofoldBlocks]) (by decide +kernel) (by decide +kernel)

lemma twofold_branch : ∃ b ∈ twofold.branches,
    (b.head.fetchNodeList (twofold.lastIrre.count + 1)).flatMap BlockNode.txs = [] ∧
      (b.preview.readonly.accounts.get 2).map (fun o => o.tokenBalance.particle) = some 20 := by
  have placed : twofold.branches[1]?.map (fun b =>
      ((b.head.fetchNodeList (twofold.lastIrre.count + 1)).flatMap BlockNode.txs,
        (b.preview.readonly.accounts.get 2).map fun o => o.tokenBalance.particle)) =
      some ([], some 20) := by decide +kernel
  obtain ⟨b, found, values⟩ := Option.map_eq_some_iff.mp placed
  rw [Prod.mk.injEq] at values
  exact ⟨b, mem_of_getElem? found, values⟩

end Sample

open Sample in
theorem preview_diverges : ∃ received : BPBlock → Prop,
      CollisionFree Sample.env (Known (Sample.config [founder 1 100] 2) received) ∧
      PlainBlocks received ∧ Opened Sample.env (Sample.config [founder 1 100] 2) funded ∧
      DistinctProviders Sample.env (Known (Sample.config [founder 1 100] 2) received)
        (Sample.config [founder 1 100] 2) funded.immutable.readonly ∧
      Run Sample.env received False funded twofold ∧
      (∃ b ∈ twofold.branches, ∀ orders s, applyIrreversible Sample.env orders
        ((b.head.fetchNodeList (twofold.lastIrre.count + 1)).flatMap BlockNode.txs)
        twofold.immutable.makeCopy = .ok s → s.commit ≠ b.preview) ∧
      Run Sample.env received False funded doomed ∧
      ∃ bl, received bl ∧ bl.verify Sample.env = some (.ok ()) ∧
        Chain.applyBlock Sample.env Sample.choice bl doomed = .error .fatal := by
  refine ⟨(· ∈ twofoldBlocks), collisionFree_known (by decide +kernel), ?_, funded_opened,
    distinctProviders_known funded_providers (by decide +kernel),
    run_twofold (by simp [twofoldBlocks]), ?_, run_doomed, overtaking, by simp [twofoldBlocks],
    by decide +kernel, ?_⟩
  · unfold PlainBlocks
    decide +kernel
  · obtain ⟨b, member, nothing, balance⟩ := twofold_branch
    refine ⟨b, member, ?_⟩
    intro orders s ran same
    rw [nothing, applyIrreversible, Except.ok.injEq] at ran
    have settled : (twofold.immutable.readonly.accounts.get 2).map
        (fun o => o.tokenBalance.particle) = some 10 := by decide +kernel
    have copied : ∀ t : MetaState, t.makeCopy.commit.readonly = t.readonly :=
      fun t => view_clean t.readonly
    rw [← same, ← ran, copied] at balance
    exact absurd (settled.symm.trans balance) (by decide)
  · exact Program.eq_error_of_exits (by decide +kernel)

namespace Sample

def behind : BPBlock := block 1010 1011 []

def abreast : BPBlock := block 1011 1012 []

def ahead : BPBlock := block 1012 1013 []

noncomputable def surpassed : Chain := receive ahead (receive abreast (receive behind twofold))

def surpassedBlocks : List BPBlock :=
  [genesis [founder 1 100], paid, early, forged, later, behind, abreast, ahead]

end Sample

open Sample in
/-- The branch of the forgery takes over after the block that it copies has been applied. -/
theorem applied_off_path : ∃ known : BPBlock → Prop, CollisionFree Sample.env known ∧
      known (genesis [founder 1 100]) ∧
      Opened Sample.env (Sample.config [founder 1 100] 2) funded ∧
      Run Sample.env known False funded surpassed ∧
      surpassed.storage.applied.map (fun n => n.load.transactions) =
        [[founder 1 100], [pay 1 2 1 10], []] ∧
      surpassed.lastIrre.contents.map (map Prod.fst) = [[founder 1 100], [forgery], []] := by
  refine ⟨(· ∈ surpassedBlocks), collisionFree_of_list (by decide +kernel),
    by simp [surpassedBlocks], funded_opened, ?_, by decide +kernel, by decide +kernel⟩
  exact run_receive (run_receive (run_receive (run_twofold (by simp [surpassedBlocks]))
    behind (by simp [surpassedBlocks]) (by decide +kernel) (by decide +kernel))
    abreast (by simp [surpassedBlocks]) (by decide +kernel) (by decide +kernel))
    ahead (by simp [surpassedBlocks]) (by decide +kernel) (by decide +kernel)

end SQLess.BlockProducer
