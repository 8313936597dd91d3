import SQLess.BlockProducer.Coherence
import SQLess.BlockProducer.Forest
import SQLess.BlockProducer.Production

/-! Loading a chain again. -/

namespace SQLess.BlockProducer

open Lib List BlockNode Branch TxPool

variable {bl : BPBlock} {orders : Orders} {b br origin br' : Branch} {nodes : List BlockNode}

/-- A call of `storeTx` or `applyBlock`, or one of `produceAndStoreBlock` in which no
transaction that is tried is a base account, leaves a trace or depends on the order of a map. -/
inductive CalmStep (env : Env) (received : BPBlock → Prop) (c c' : Chain) : Prop
  | received (step : Step env received False c c')
  | produced (choice txs now priv result) (sorted : c.headBranch.SortedUnpacked env txs)
      (plain : ∀ tx ∈ txs, tx.isBaseAccount = false)
      (calm : AtTurn env (c.config.heightOfTime now) (Branch.packCount txs) (fun order v s =>
        ¬LeavesTrace env order (c.config.heightOfTime now) v s.view ∧
          Unambiguous env order (c.config.heightOfTime now) v s.view)
        choice.branchOrders txs 0 c.headBranch.makeArena.preview)
      (made : ∀ bl, result = .ok bl → received bl)
      (ran : Chain.produceAndStoreBlock env choice txs now priv c = .ok (result, c'))

abbrev CalmRun (env : Env) (received : BPBlock → Prop) : Chain → Chain → Prop :=
  Relation.ReflTransGen fun c c' => CalmStep env received c c' ∧ c'.Ascending

def SignsValidly (env : Env) : Prop :=
  ∀ key hash signature, env.signHash key hash = some signature →
    env.verifySignature signature hash (env.pubKey key) = true

section

variable {env : Env} {received known : BPBlock → Prop} {config : Config} {base : MetaIndex}
  {c c' : Chain}

variable {txs : List Transaction}

lemma packAndSign_verify (signs : SignsValidly env)
    (signed : BPBlock.packAndSign env header txs priv = some (.ok bl)) :
    bl.verify env = some (.ok ()) := by
  unfold BPBlock.packAndSign at signed
  simp only [Option.map_eq_some_iff] at signed
  obtain ⟨root, rooted, packed⟩ := signed
  split at packed
  · simp at packed
  · rename_i hash hashed
    split at packed
    · simp at packed
    · rename_i signature made
      simp only [Except.ok.injEq] at packed
      have valid : HashSignVerifier.verify env ⟨hash, some (env.pubKey priv), some signature⟩
          (env.bpHeaderHash { header with merkleRoot := root }) = .ok () :=
        (HashSignVerifier.verify_eq_ok env _ _).mpr ⟨hashed, signs _ _ _ made⟩
      rw [← packed]
      simp only [BPBlock.verify, BPBlock.verifyMerkleRoot, rooted, Option.map_some, if_true, valid]

lemma produceBlock_verify (signs : SignsValidly env)
    (ran : b.produceBlock env orders txs h ts addr signer = .ok (.ok (br, bl), origin)) :
    bl.verify env = some (.ok ()) := by
  simp only [produceBlock] at ran
  split at ran
  · simp at ran
  · split at ran
    · simp at ran
    · simp at ran
    · rename_i block signed
      simp only [Except.ok.injEq, Prod.mk.injEq] at ran
      obtain ⟨⟨-, rfl⟩, -⟩ := ran
      exact packAndSign_verify signs signed

lemma pruneBranches_congr {lastIrre origin} (same : br.commitPreview = br'.commitPreview)
    (i rest brs idx) : pruneBranches lastIrre origin br i rest brs idx =
      pruneBranches lastIrre origin br' i rest brs idx := by
  induction rest generalizing i brs idx with
  | nil => rfl
  | cons v rest ih => simp only [pruneBranches, ih, same]

lemma finishSwitch_congr (same : br.commitPreview = br'.commitPreview) :
    c.finishSwitch storage i br switch = c.finishSwitch storage i br' switch := by
  simp only [Chain.finishSwitch, pruneBranches_congr same, same]

lemma prepareSwitch_congr (same : br.head = br'.head) :
    c.prepareSwitch env orders br = c.prepareSwitch env orders br' := by
  simp only [Chain.prepareSwitch, same]

lemma plain_produced {v : Branch} (plain : ∀ tx ∈ txs, tx.isBaseAccount = false)
    (ran : v.produceBlock env orders txs h ts addr signer = .ok (.ok (br, bl), origin)) :
    ∀ tx ∈ bl.transactions, tx.isBaseAccount = false := by
  obtain ⟨cpy, packing, -⟩ := produceBlock_eq_ok ran
  obtain ⟨new, same, listed, -⟩ := packUnpacked_pools packing
  intro tx member
  rw [same, nil_append] at member
  exact plain tx (listed.subset member)

lemma produced_effect (signs : SignsValidly env) (faithful : Faithful env known received base c)
    (coherent : c.Coherent)
    (sorted : c.headBranch.SortedUnpacked env txs) (plain : ∀ tx ∈ txs, tx.isBaseAccount = false)
    (calm : AtTurn env (c.config.heightOfTime now) (Branch.packCount txs) (fun order v s =>
      ¬LeavesTrace env order (c.config.heightOfTime now) v s.view ∧
      Unambiguous env order (c.config.heightOfTime now) v s.view) choice.branchOrders txs 0
      c.headBranch.makeArena.preview) (made : ∀ bl, result = .ok bl → received bl)
    (ran : Chain.produceAndStoreBlock env choice txs now priv c = .ok (result, c')) :
    Effect env received False c c' := by
  have member := mem_of_getElem? faithful.headAt
  have live := faithful.replayed.live _ member
  have self := setBranch_self faithful.headAt faithful.headAt
  unfold Chain.produceAndStoreBlock at ran
  split at ran
  · simp at ran
  · rename_i error origin tried
    cases ran
    rw [produceBlock_origin (atTurn_unfounded plain) tried, self]
    exact .unchanged
  · rename_i br bl origin tried
    rw [produceBlock_origin (atTurn_unfounded plain) tried, self] at ran
    obtain ⟨cpy, -, shape, -, -, -, stamp⟩ := produceBlock_eq_ok tried
    have head : br.head = c.config.newNode bl c.headBranch.head := by
      rw [shape, Config.newNode, stamp]
    have plainHistory : Plain br.head.history := by
      rw [head]
      exact newNode_plain (plain_produced plain tried) live.plain
    split at ran
    · simp at ran
    · rename_i error after switching
      cases ran
      unfold Chain.replaceAndSwitchToBranch at switching
      split at switching
      · simp at switching
      · rename_i switch prepared
        split at switching
        · simp at switching
        · simp only [Except.ok.injEq, Prod.mk.injEq] at switching
          rw [← switching.2, prepareSwitch_clean faithful.replayed.committed plainHistory prepared]
          exact .unchanged
        · simp at switching
    · rename_i after switching
      simp only [Except.ok.injEq, Prod.mk.injEq] at ran
      have seen := made bl ran.1.symm
      have separate : ∀ hash, c.headBranch.unpacked.contains hash = true →
          c.headBranch.packed.contains hash = false := by
        intro hash pooled
        by_contra packed
        rw [Bool.not_eq_false] at packed
        rw [(coherent _ member).disjoint hash packed] at pooled
        simp at pooled
      obtain ⟨validated, -⟩ := (produceBlock_agrees_iff sorted separate tried).mpr calm
      obtain ⟨br', origin', accepted, view, packed, unpacked⟩ := validated choice.branchOrders
      obtain ⟨-, -, cpy', -, shape', -⟩ := applyBlock_eq_ok.mp accepted
      have head' : br.head = br'.head := by
        rw [shape, shape']
      have committed : br.commitPreview = br'.commitPreview := by
        rw [commitPreview, commitPreview, MetaState.commit, MetaState.commit, view,
          head', packed, unpacked]
      rw [← stamp] at accepted
      have attempt : Attempt env received False c.config c.headBranch (.ok (br', bl)) origin' :=
        .received seen (produceBlock_verify signs tried) accepted
      have switched : Chain.replaceAndSwitchToBranch env choice bl c.headIndex br'
          (c.setBranch c.headIndex origin') = .ok (.ok (), after) := by
        rw [attempt.origin_self faithful.plain live.committed, self, ← switching]
        simp only [Chain.replaceAndSwitchToBranch, prepareSwitch_congr head',
          finishSwitch_congr committed]
      rw [← ran.2]
      have effect := replaceAndSwitchToBranch_effect faithful.headAt (fun _ => seen) attempt
        (.inl rfl) switched
      exact effect.effect

end

structure Persisted (c : Chain) : Prop where
  irreversible : c.storage.irreversible = some c.lastIrre.hash
  txPool : c.storage.txPool = c.txPool
  immutable : loadImmutableState c.storage = c.immutable
  small : ∀ v ∈ c.heads, ∀ n ∈ v.path.drop 1, n.txCount ≤ maxTransactionsPerBlock

section

variable {env : Env} {received known : BPBlock → Prop} {config : Config} {base : MetaIndex}
  {c c' : Chain}

lemma genesisChain_persisted (genesis : GenesisStorage config st) :
    Persisted (genesisChain config st) := by
  refine ⟨genesis.irreversible, genesis.txPool, rfl, ?_⟩
  intro v member n onPath
  rw [mem_singleton.mp member] at onPath
  simp [genesisBranch, Config.genesisNode, newBlockNode, BlockNode.path] at onPath

lemma newNode_small {parent} (fits : bl.transactions.length ≤ maxTransactionsPerBlock)
    (below : ∀ n ∈ parent.path.drop 1, n.txCount ≤ maxTransactionsPerBlock) :
    ∀ n ∈ (config.newNode bl parent).path.drop 1, n.txCount ≤ maxTransactionsPerBlock := by
  intro n member
  have whole : (config.newNode bl parent).path = parent.path ++ [config.newNode bl parent] := rfl
  rw [whole, drop_append_of_le_length (by simp)] at member
  rcases mem_append.mp member with earlier | last
  · exact below n earlier
  · rw [mem_singleton.mp last]
    exact fits

lemma Attempt.small (attempt : Attempt env received False config v (.ok (br, bl)) origin) :
    bl.transactions.length ≤ maxTransactionsPerBlock := by
  rcases attempt.ok_cases with ⟨orders, -, -, ran⟩ | ⟨orders, txs, now, priv, allowed, -⟩
  · exact (applyBlock_eq_ok.mp ran).2.1
  · exact allowed.elim

lemma packBlocks_small (ran : packBlocks env orders nodes b = .ok (.ok (), b')) :
    ∀ n ∈ nodes, n.txCount ≤ maxTransactionsPerBlock := by
  induction nodes generalizing orders b with
  | nil => simp
  | cons n rest ih =>
    obtain ⟨fits, between, -, later⟩ := packBlocks_cons.mp ran
    intro m member
    rcases mem_cons.mp member with rfl | below
    · exact fits
    · exact ih later m below

lemma settled_pool (pool : TxPool) (test) :
    pool.deletePool (pool.keep test) = pool.keep fun tx => !test tx := by
  apply ext
  intro hash
  rw [get_deletePool, get_keep, TxPool.contains, get_keep]
  cases pool.get hash with
  | none => simp
  | some tx => cases tested : test tx <;> simp [tested, Option.filter]

lemma switched_persisted (persisted : Persisted c) (committed : c.immutable.Committed)
    (plain : Plain br.head.history) (prepared : c.prepareSwitch env orders br = .ok switch)
    (small : ∀ n ∈ br.head.path.drop 1, n.txCount ≤ maxTransactionsPerBlock) :
    Persisted (c.finishSwitch (c.switchStorage bl switch) i br switch) := by
  have cleaned := prepareSwitch_clean committed plain prepared
  obtain ⟨irre, -, -, result, expired⟩ := prepareSwitch_eq_ok prepared
  have readonly : switch.immutable.readonly = (loadImmutableState c.storage).readonly := by
    rw [persisted.immutable, ← cleaned]
    rfl
  refine ⟨rfl, ?_, ?_, ?_⟩
  · change (c.storage.txPool.deleteBlocks switch.newIrres).deletePool switch.expiredTxs =
      switch.resultTxPool
    rw [persisted.txPool, expired, result, settled_pool]
  · change loadImmutableState (c.switchStorage bl switch) = switch.immutable.commit
    rw [MetaState.commit, MetaState.view, readonly]
    rfl
  · intro v member
    have onPath := lastIrreversible_mem_path c.config.confirms br.head
    have kept : br.head.hasAncestor switch.lastIrre = true := by
      rw [irre]
      exact hasAncestor_of_leading (trail_prefix_of_mem onPath)
    rw [finishSwitch_heads kept] at member
    rcases mem_or_eq_of_mem_set (mem_of_mem_filter member) with earlier | rfl
    · exact persisted.small v earlier
    · exact small

lemma Effect.persisted (faithful : Faithful env known received base c) (persisted : Persisted c)
    (effect : Effect env received False c c') : Persisted c' := by
  cases effect with
  | unchanged => exact persisted
  | pooled tx =>
    refine ⟨persisted.irreversible, ?_, persisted.immutable, ?_⟩
    · change c.storage.txPool.add tx = c.txPool.add tx
      rw [persisted.txPool]
    · intro v member
      obtain ⟨b, added, rfl⟩ := mem_map.mp member
      obtain ⟨old, present, rfl⟩ := mem_map.mp added
      rw [addTx_head]
      exact persisted.small _ (mem_map_of_mem present)
  | attempted i v result origin found attempt =>
    have live := faithful.replayed.live v (mem_of_getElem? found)
    rw [attempt.origin_self faithful.plain live.committed, setBranch_self faithful.headAt found]
    exact persisted
  | grown i v br bl origin found seen attempt =>
    refine ⟨persisted.irreversible, persisted.txPool, persisted.immutable, ?_⟩
    intro n member
    obtain ⟨b, present, rfl⟩ := mem_map.mp member
    rcases mem_or_eq_of_mem_set present with old | rfl
    · exact persisted.small _ (mem_map_of_mem old)
    · change ∀ n ∈ br.head.path.drop 1, _
      rw [attempt.extends.1]
      exact newNode_small attempt.small
        (persisted.small _ (mem_map_of_mem (mem_of_getElem? found)))
  | forked orders bl parent br seen verified noHead unknown found ran =>
    obtain ⟨v, present, onPath, -, high, -⟩ := findParent_spec found noHead
    refine ⟨persisted.irreversible, persisted.txPool, persisted.immutable, ?_⟩
    intro n member
    obtain ⟨b, listed, rfl⟩ := mem_map.mp member
    rcases mem_append.mp listed with old | added
    · exact persisted.small _ (mem_map_of_mem old)
    · rw [mem_singleton.mp added, newBranch_head ran]
      obtain ⟨inst, packing, -⟩ := newBranch_eq_ok ran
      have last : c.newNode bl parent ∈
          (c.newNode bl parent).fetchNodeList (c.lastIrre.count + 1) := by
        have whole : (c.newNode bl parent).path = parent.path ++ [c.newNode bl parent] := rfl
        rw [fetchNodeList_eq, whole, drop_append_of_le_length (by rw [path_length]; omega)]
        simp
      refine newNode_small (packBlocks_small packing _ last) ?_
      intro m below
      obtain ⟨rest, split⟩ := path_prefix_of_mem onPath
      apply persisted.small _ (mem_map_of_mem present)
      rw [← split, drop_append_of_le_length (by rw [path_length]; omega)]
      exact mem_append_left _ below
  | notSwitched orders i v br bl origin switch found attempt prepared =>
    have member := mem_of_getElem? found
    have live := faithful.replayed.live v member
    have grown := (faithful.extended member attempt).1
    rw [attempt.origin_self faithful.plain live.committed, setBranch_self faithful.headAt found,
      prepareSwitch_clean faithful.replayed.committed grown.plain prepared]
    exact persisted
  | switched orders i v br bl origin switch found seen attempt higher prepared =>
    have member := mem_of_getElem? found
    have live := faithful.replayed.live v member
    have grown := (faithful.extended member attempt).1
    rw [attempt.origin_self faithful.plain live.committed, setBranch_self faithful.headAt found]
    refine switched_persisted persisted faithful.replayed.committed grown.plain prepared ?_
    rw [attempt.extends.1]
    exact newNode_small attempt.small (persisted.small _ (mem_map_of_mem member))

end

section

variable {env : Env} {orders : Orders}

lemma packTxs_of_replay {height txs s} (verified : ∀ tx ∈ txs, tx.verify env = .ok ())
    (distinct : (txs.map Transaction.hash).Nodup)
    (absent : ∀ hash ∈ txs.map Transaction.hash, b.packed.contains hash = false)
    (ran : applyIrreversible env orders (txs.map fun tx => (tx, height)) b.preview = .ok s) :
    ∃ b', packTxs env height orders txs b = .ok (.ok (), b') ∧ b'.preview = s := by
  induction txs generalizing orders b with
  | nil =>
    simp only [map_nil, applyIrreversible, Except.ok.injEq] at ran
    exact ⟨b, rfl, ran⟩
  | cons v rest ih =>
    obtain ⟨preview, applied, later⟩ := applyIrreversible_cons.mp ran
    rw [map_cons, nodup_cons] at distinct
    have packed : packTx env (orders 0) height v b = .ok (.ok (), b.pack v preview) := by
      rw [packTx_eq_ok]
      exact ⟨.inr (verified v mem_cons_self), absent _ (by simp), preview, applied, rfl⟩
    have absentRest : ∀ hash ∈ rest.map Transaction.hash,
        (b.pack v preview).packed.contains hash = false := by
      intro hash member
      rw [pack, contains_eq_false, get_add]
      have other : hash ≠ v.hash := by
        rintro rfl
        exact distinct.1 member
      rw [if_neg other, ← contains_eq_false]
      exact absent hash (by simp only [map_cons, mem_cons, member, or_true])
    obtain ⟨b', finished, final⟩ := ih (b := b.pack v preview)
      (fun tx member => verified tx (mem_cons_of_mem _ member)) distinct.2 absentRest later
    exact ⟨b', packTxs_cons.mpr ⟨_, packed, finished⟩, final⟩

lemma packBlocks_of_replay (small : ∀ n ∈ nodes, n.txCount ≤ maxTransactionsPerBlock)
    (verified : ∀ n ∈ nodes, ∀ tx ∈ n.load.transactions, tx.verify env = .ok ())
    (distinct : (nodes.flatMap fun n => n.load.getTxHashes).Nodup)
    (absent : ∀ hash ∈ nodes.flatMap fun n => n.load.getTxHashes, b.packed.contains hash = false)
    (ran : applyIrreversible env orders (nodes.flatMap BlockNode.txs) b.preview = .ok s) :
    ∃ b', packBlocks env orders nodes b = .ok (.ok (), b') := by
  induction nodes generalizing orders b with
  | nil => exact ⟨b, rfl⟩
  | cons n rest ih =>
    rw [flatMap_cons] at ran distinct absent
    rw [nodup_append] at distinct
    obtain ⟨distinctHere, distinctLater, apart⟩ := distinct
    obtain ⟨preview, first, later⟩ := applyIrreversible_append.mp ran
    obtain ⟨between, packed, rfl⟩ := packTxs_of_replay (verified n mem_cons_self)
      distinctHere (fun hash member => absent hash (mem_append_left _ member)) first
    have absentRest : ∀ hash ∈ rest.flatMap fun n => n.load.getTxHashes,
        between.packed.contains hash = false := by
      intro hash member
      rw [Bool.eq_false_iff]
      intro listed
      rw [(packTxs_pools packed).2.1, contains_addAll] at listed
      rcases listed with old | here
      · rw [absent hash (mem_append_right _ member)] at old
        simp at old
      · exact apart hash here hash member rfl
    have length : n.txs.length = n.txCount := by simp [BlockNode.txs, BlockNode.txCount]
    rw [length] at later
    obtain ⟨b', finished⟩ := ih (fun m member => small m (mem_cons_of_mem _ member))
      (fun m member => verified m (mem_cons_of_mem _ member)) distinctLater absentRest later
    exact ⟨b', packBlocks_cons.mpr ⟨small n mem_cons_self, between, packed, finished⟩⟩

lemma rebuildBranches_of_newBranch (built : ∀ v ∈ nodes, v.hasAncestor lastIrre = true → ∃ br,
      newBranch env orders lastIrre v immutable txPool = .ok (.ok br)) :
    ∃ branches, rebuildBranches env orders lastIrre immutable txPool nodes = .ok (.ok branches) ∧
      branches.map Branch.head = nodes.filter fun v => v.hasAncestor lastIrre := by
  induction nodes with
  | nil => exact ⟨[], rfl, rfl⟩
  | cons v rest ih =>
    obtain ⟨branches, ran, heads⟩ := ih fun w member => built w (mem_cons_of_mem _ member)
    by_cases rooted : v.hasAncestor lastIrre = true
    · obtain ⟨br, made⟩ := built v mem_cons_self rooted
      refine ⟨br :: branches, ?_, ?_⟩
      · simp only [rebuildBranches, rooted, if_true, made, ran]
      · simp [rooted, heads, newBranch_head made]
    · refine ⟨branches, ?_, ?_⟩
      · simp only [rebuildBranches, rooted, Bool.false_eq_true, if_false, ran]
      · simp [rooted, heads]

lemma selectHead_continues (rest i best) :
    ∃ chosen, selectHead rest i (some best) = some chosen := by
  induction rest generalizing i best with
  | nil => exact ⟨best, rfl⟩
  | cons v rest ih =>
    simp only [selectHead]
    by_cases higher : best.2.head.count < v.head.count
    · rw [if_pos higher]
      exact ih _ _
    · rw [if_neg higher]
      exact ih _ _

lemma selectHead_exists (some : branches ≠ []) :
    ∃ i b, selectHead branches 0 none = .some (i, b) := by
  cases branches with
  | nil => exact absurd rfl some
  | cons v rest =>
    obtain ⟨⟨i, b⟩, chosen⟩ := selectHead_continues rest 1 (0, v)
    exact ⟨i, b, chosen⟩

end

structure Mirrored (env : Env) (received : BPBlock → Prop) (config : Config) (base : MetaIndex)
    (c : Chain) : Prop where
  sameConfig : c.config = config
  faithful : Faithful env (Known config received) received base c
  settled : c.Settled
  coherent : c.Coherent
  treelike : Treelike c
  shelved : ∃ nodes, Shelved env (Known config received) c nodes
  persisted : Persisted c

section

variable {env : Env} {received : BPBlock → Prop} {config : Config} {base : MetaIndex} {c c' : Chain}

lemma CalmStep.effect (signs : SignsValidly env)
    (faithful : Faithful env known received base c) (coherent : c.Coherent)
    (step : CalmStep env received c c') : Effect env received False c c' := by
  cases step with
  | received step => exact step_effect faithful.headAt step
  | produced choice txs now priv result sorted plain calm made ran =>
    exact produced_effect signs faithful coherent sorted plain calm made ran

lemma opened_mirrored (free : CollisionFree env (Known config received))
    (content : SameTransactions (Known config received)) (plain : PlainBlocks received)
    (opened : Opened env config c)
    (distinct : DistinctProviders env (Known config received) config c.immutable.readonly) :
    Mirrored env received config c.immutable.readonly c := by
  have seen : Known config received config.genesis := .inl rfl
  have faithful := run_faithful free content plain opened distinct .refl
  obtain ⟨-, -, settled⟩ := opened_anchored seen opened
  obtain ⟨hashed, st, genesis, rfl⟩ := opened_eq opened
  exact ⟨rfl, faithful, settled, genesisChain_coherent st, genesisChain_treelike st,
    ⟨_, genesisChain_shelved hashed seen genesis⟩, genesisChain_persisted genesis⟩

lemma Mirrored.effect (mirrored : Mirrored env received config base c)
    (ascending : c'.Ascending) (effect : Effect env received False c c') :
    Mirrored env received config base c' := by
  obtain ⟨sameConfig, faithful, settled, coherent, treelike, ⟨nodes, shelved⟩, persisted⟩ :=
    mirrored
  have wide := effect.mono faithful.wide
  have content : SameTxHashes (Known config received) := by
    intro a b left right same
    rw [BPBlock.getTxHashes, BPBlock.getTxHashes, faithful.content a b left right same]
  have kept := effect.config_eq
  have anchored := (wide.anchored faithful.free faithful.headAt faithful.anchored faithful.deep).1
  have settled' := effect.settled faithful.headAt settled
  have step := wide.treeStep faithful.free faithful.headAt faithful.anchored faithful.deep
  refine ⟨kept.trans sameConfig, ?_, settled', ?_, ?_, ?_, effect.persisted faithful persisted⟩
  · exact ⟨faithful.free, faithful.content, faithful.plain, faithful.wide,
      kept ▸ faithful.distinct, effect.headAt faithful.headAt, anchored, settled'.deep,
      faithful.effect effect⟩
  · exact wide.coherent content faithful.free faithful.headAt faithful.anchored faithful.deep
      coherent
  · exact step.treelike faithful.free faithful.anchored treelike kept ascending
  · exact step.shelved faithful.free faithful.anchored treelike kept ascending shelved

lemma calmRun_mirrored (signs : SignsValidly env) (free : CollisionFree env (Known config received))
    (content : SameTransactions (Known config received)) (plain : PlainBlocks received)
    (opened : Opened env config c₀)
    (distinct : DistinctProviders env (Known config received) config c₀.immutable.readonly)
    (run : CalmRun env received c₀ c) : Mirrored env received config c₀.immutable.readonly c := by
  induction run with
  | refl => exact opened_mirrored free content plain opened distinct
  | tail _ step ih =>
    obtain ⟨called, ascending⟩ := step
    exact ih.effect ascending (called.effect signs ih.faithful ih.coherent)

lemma Mirrored.received_above (mirrored : Mirrored env received config base c)
    (member : v ∈ c.heads) (above : n ∈ v.fetchNodeList (c.lastIrre.count + 1)) :
    received n.load := by
  rw [fetchNodeList_eq] at above
  have onPath := mem_of_mem_drop above
  have linked := (mirrored.faithful.anchored.head_linked member).of_mem onPath
  have ascending := (mirrored.treelike.ascending v member).of_mem onPath
  rcases linked.block.seen with genesis | seen
  · exfalso
    have level : n.height = 0 := by
      rw [linked.block.height, genesis, ← mirrored.sameConfig]
      exact heightOfTime_genesis c.config
    obtain ⟨position, located⟩ := mem_iff_getElem?.mp above
    rw [List.getElem?_drop] at located
    have count := count_of_path_getElem? located
    cases n with
    | genesis =>
      simp only [BlockNode.count] at count
      omega
    | child =>
      have higher := ascending.2
      simp only [BlockNode.height] at level
      omega
  · exact seen

lemma Mirrored.newBranch (mirrored : Mirrored env received config base c)
    (verified : ∀ bl, received bl → ∀ tx ∈ bl.transactions, tx.verify env = .ok ()) (orders)
    (member : v ∈ c.heads) :
    ∃ br, newBranch env orders c.lastIrre v c.immutable c.txPool = .ok (.ok br) := by
  have faithful := mirrored.faithful
  obtain ⟨b, present, rfl⟩ := mem_map.mp member
  have live := faithful.replayed.live b present
  have whole := live.preview
  have plain := live.plain
  have leading := faithful.anchored.contents_prefix faithful.content faithful.free
    (faithful.anchored.linked b present) (faithful.anchored.rooted b present)
  rw [history_append leading] at whole plain
  obtain ⟨s, ran, -⟩ := whole.after faithful.replayed.immutable plain orders
  rw [← fetchNodeList_eq] at ran
  have distinct := (mirrored.coherent b present).distinct
  rw [hashesAbove_eq] at distinct
  have small : ∀ n ∈ b.head.fetchNodeList (c.lastIrre.count + 1),
      n.txCount ≤ maxTransactionsPerBlock := by
    intro n above
    rw [fetchNodeList_eq, Nat.add_comm, ← drop_drop] at above
    exact mirrored.persisted.small _ member n (mem_of_mem_drop above)
  obtain ⟨inst, packed⟩ := packBlocks_of_replay
    (b := ⟨b.head, c.immutable.makeCopy, .empty, c.txPool⟩) small
    (fun n above => verified _ (mirrored.received_above member above)) distinct
    (fun _ _ => rfl) ran
  refine ⟨{ inst with preview := inst.preview.commit }, ?_⟩
  simp only [BlockProducer.newBranch, packed]

lemma Treelike.heads_nodup (treelike : Treelike c) : c.heads.Nodup := by
  refine treelike.antichain.imp ?_
  rintro n m apart rfl
  exact apart.1 prefix_rfl

lemma opened_verified (opened : Opened env config c) :
    config.genesis.verifyHash env = some (.ok ()) := by
  obtain ⟨choice, headOrder, ran⟩ := opened
  unfold newChain at ran
  split at ran
  · simp at ran
  · simp at ran
  · assumption

lemma Mirrored.reload (mirrored : Mirrored env received config base c)
    (verified : ∀ bl, received bl → ∀ tx ∈ bl.transactions, tx.verify env = .ok ())
    (genesis : config.genesis.verifyHash env = some (.ok ())) (choice headOrder) :
    ∃ c', newChain env choice headOrder config (some c.storage) = .ok (.ok c') ∧
      c'.lastIrre = c.lastIrre ∧ c'.heads.Perm c.heads ∧ c'.immutable = c.immutable ∧
      c'.txPool = c.txPool ∧ c'.HeadAt ∧
      ∀ b ∈ c'.branches, b.head.count ≤ c'.headBranch.head.count := by
  obtain ⟨nodes, shelved⟩ := mirrored.shelved
  have persisted := mirrored.persisted
  obtain ⟨heads, loaded, keyed, live⟩ :=
    shelved.loadBlocks mirrored.faithful.anchored mirrored.treelike
  have listed : ∀ n, n ∈ headOrder.list heads ↔ ∃ hash, heads.get hash = some n := by
    intro n
    rw [← FiniteMap.mem_values, ← headOrder.perm heads, Multiset.mem_coe]
  have distinct : (headOrder.list heads).Nodup := by
    rw [← Multiset.coe_nodup, headOrder.perm heads]
    refine FiniteMap.values_nodup ?_
    intro left right n atLeft atRight
    rw [← keyed left n atLeft, ← keyed right n atRight]
  have built : ∀ v ∈ headOrder.list heads, v.hasAncestor c.lastIrre = true →
      ∃ br, BlockProducer.newBranch env choice.branchOrders c.lastIrre v c.immutable c.txPool =
        .ok (.ok br) := by
    intro v member rooted
    exact mirrored.newBranch verified choice.branchOrders
      ((live v).mp ⟨(listed v).mp member, rooted⟩)
  obtain ⟨branches, rebuilt, sameHeads⟩ := rebuildBranches_of_newBranch built
  have perm : (branches.map head).Perm c.heads := by
    rw [sameHeads, perm_ext_iff_of_nodup (distinct.filter _) mirrored.treelike.heads_nodup]
    intro n
    rw [mem_filter, listed, live]
  have nonempty : branches ≠ [] := by
    rintro rfl
    have none : c.heads = [] := (List.Perm.nil_eq perm).symm
    have head := heads_getElem? mirrored.faithful.headAt
    rw [none] at head
    simp at head
  obtain ⟨i, b, selected⟩ := selectHead_exists nonempty
  have chosen := selectHead_spec (fun _ => rfl) (by simp) selected
  have root : (c.lastIrre.ancestorByCount 0).map BlockNode.hash =
      some config.genesis.blockHash := by
    have first : c.lastIrre.path[0]? = some c.config.genesisNode :=
      path_getElem?_count (shelved.forest.rooted shelved.lastIrre)
    rw [ancestorByCount_eq, first, ← mirrored.sameConfig]
    rfl
  refine ⟨⟨config, c.lastIrre, c.immutable, i, b, branches, c.txPool, c.storage⟩, ?_, rfl, perm,
    rfl, rfl, chosen.1, chosen.2⟩
  simp only [newChain, genesis, loadChain, persisted.irreversible, loaded, root, ne_eq,
    not_true_eq_false, if_false, persisted.immutable, persisted.txPool, rebuilt, selected]

/-- Loading the storage after any call of a calm run gives back the chain, with a longest branch as
its head. -/
theorem calmRun_reload {c₀ : Chain} (signs : SignsValidly env)
    (free : CollisionFree env (Known config received))
    (content : SameTransactions (Known config received)) (plain : PlainBlocks received)
    (verified : ∀ bl, received bl → ∀ tx ∈ bl.transactions, tx.verify env = .ok ())
    (opened : Opened env config c₀)
    (distinct : DistinctProviders env (Known config received) config c₀.immutable.readonly)
    (run : CalmRun env received c₀ c) (choice : Choice) (headOrder : HeadOrder) :
    ∃ c', newChain env choice headOrder config (some c.storage) = .ok (.ok c') ∧
      c'.lastIrre = c.lastIrre ∧ c'.heads.Perm c.heads ∧ c'.immutable = c.immutable ∧
      c'.txPool = c.txPool ∧ c'.HeadAt ∧
      ∀ b ∈ c'.branches, b.head.count ≤ c'.headBranch.head.count :=
  (calmRun_mirrored signs free content plain opened distinct run).reload verified
    (opened_verified opened) choice headOrder

end

namespace Sample

lemma env_signsValidly : SignsValidly env := by
  intro key hash signature signed
  obtain rfl : (⟨key.d, hash.toNat⟩ : Signature) = signature := Option.some.inj signed
  simp [env]

noncomputable def mint (txs : List Transaction) (now : Time) (c : Chain) : Chain :=
  Program.after (Chain.produceAndStoreBlock env choice txs now ⟨7⟩) c

noncomputable def pending : Chain := pool (pay 1 2 1 10) funded

noncomputable def restocked : Chain :=
  pool (pay 1 2 2 5) (receive other (mint [pay 1 2 1 10] 1010 pending))

lemma pending_sorted : pending.headBranch.SortedUnpacked env [pay 1 2 1 10] :=
  sortedUnpacked_of_keys (by decide) (by decide) (by decide)
    (by decide)

lemma pending_mint :
    CalmStep env (· ∈ [paid, other]) pending (mint [pay 1 2 1 10] 1010 pending) := by
  refine .produced choice _ 1010 ⟨7⟩ (.ok paid) pending_sorted
    (by simp [pay, Transaction.isBaseAccount]) ?_ ?_ rfl
  · have applied : apply env (choice.branchOrders 0) (pay 1 2 1 10)
        (pending.config.heightOfTime 1010) pending.headBranch.makeArena.preview =
          .ok (.ok (), _) := rfl
    refine ⟨⟨(apply_applied applied).not_leavesTrace, ?_⟩, ?_⟩
    · exact unambiguous_of_unwrap (by simp [pay, Transaction.unwrap])
    · simp only [applied]
      exact .inl rfl
  · intro bl same
    rw [← Except.ok.inj same]
    simp

lemma calm_restocked : CalmRun env (· ∈ [paid, other]) funded restocked := by
  have started : CalmStep env (· ∈ [paid, other]) funded (pool (pay 1 2 1 10) funded) :=
    .received (step_storeTx (by decide))
  have forked : CalmStep env (· ∈ [paid, other]) (mint [pay 1 2 1 10] 1010 pending)
      (receive other (mint [pay 1 2 1 10] 1010 pending)) :=
    .received (step_applyBlock (by simp) (by decide) (by decide))
  have refilled : CalmStep env (· ∈ [paid, other])
      (receive other (mint [pay 1 2 1 10] 1010 pending))
      (pool (pay 1 2 2 5) (receive other (mint [pay 1 2 1 10] 1010 pending))) :=
    .received (step_storeTx (by decide))
  exact (((Relation.ReflTransGen.single ⟨started, by decide⟩).tail
    ⟨pending_mint, by decide⟩).tail ⟨forked, by decide⟩).tail
    ⟨refilled, by decide⟩

end Sample

open Sample in
theorem calmRun_reload_restocked :
    CalmRun Sample.env (· ∈ [paid, other]) funded restocked ∧ restocked.branches.length = 2 ∧
      restocked.txPool.contains (pay 1 2 2 5).hash = true ∧
      ∀ choice headOrder, ∃ c', newChain Sample.env choice headOrder
          (Sample.config [founder 1 100] 2) (some restocked.storage) = .ok (.ok c') ∧
        c'.heads.Perm restocked.heads ∧ c'.txPool = restocked.txPool := by
  have plain : PlainBlocks (· ∈ [paid, other]) := by
    unfold PlainBlocks
    decide
  have verified : ∀ bl ∈ [paid, other], ∀ tx ∈ bl.transactions,
      tx.verify Sample.env = .ok () := by decide
  refine ⟨calm_restocked, by decide, by decide, ?_⟩
  intro choice headOrder
  obtain ⟨c', loaded, -, heads, -, pools, -⟩ := calmRun_reload env_signsValidly
    (collisionFree_known (by decide)) (sameTransactions_known (by decide)) plain verified
    funded_opened (distinctProviders_known funded_providers (by decide)) calm_restocked choice
    headOrder
  exact ⟨c', loaded, heads, pools⟩

namespace Sample

noncomputable def unpayable : Chain := pool (pay 2 3 0 0) (pool (pay 1 2 1 1000) funded)

noncomputable def unloadable : Chain := mint [pay 1 2 1 1000, pay 2 3 0 0] 1010 unpayable

def ghostly : BPBlock := block 1000 1010 [pay 2 3 0 0]

lemma unpayable_sorted : unpayable.headBranch.SortedUnpacked env [pay 1 2 1 1000, pay 2 3 0 0] :=
  sortedUnpacked_of_keys (by decide) (by decide) (by decide)
    (by decide)

end Sample

open Sample in
/-- The produced block is stored, and the chain can no longer be loaded. -/
theorem reload_fails : Opened Sample.env (Sample.config [founder 1 100] 2) funded ∧
      AscendingRun Sample.env (· ∈ [genesis [founder 1 100], ghostly]) True funded unloadable ∧
      unloadable.storage.blocks.map BlockRow.hash = [1000, 1010] ∧
      ∃ error, newChain Sample.env choice (headOrder unloadable.headBranch.head)
        (Sample.config [founder 1 100] 2) (some unloadable.storage) = .ok (.error error) := by
  have stored : Step Sample.env (· ∈ [genesis [founder 1 100], ghostly]) True funded
      (pool (pay 1 2 1 1000) funded) := step_storeTx (by decide)
  have stored' : Step Sample.env (· ∈ [genesis [founder 1 100], ghostly]) True
      (pool (pay 1 2 1 1000) funded) (pool (pay 2 3 0 0) (pool (pay 1 2 1 1000) funded)) :=
    step_storeTx (by decide)
  have minted : Step Sample.env (· ∈ [genesis [founder 1 100], ghostly]) True unpayable
      unloadable := by
    refine .produceAndStoreBlock choice _ 1010 ⟨7⟩ (.ok ghostly) trivial unpayable_sorted ?_ rfl
    intro bl same
    rw [← Except.ok.inj same]
    simp
  have run : AscendingRun Sample.env (· ∈ [genesis [founder 1 100], ghostly]) True funded
      unloadable :=
    ((Relation.ReflTransGen.single ⟨stored, by decide⟩).tail
      ⟨stored', by decide⟩).tail ⟨minted, by decide⟩
  exact ⟨funded_opened, run, by decide, _, rfl⟩

end SQLess.BlockProducer
