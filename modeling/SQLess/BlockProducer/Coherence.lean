import SQLess.BlockProducer.Preview

/-! The pools of a chain and of its branches. -/

namespace SQLess.BlockProducer

open Lib List BlockNode TxPool Branch

variable {br v origin : Branch} {bl : BPBlock}

def SameTxHashes (known : BPBlock → Prop) : Prop :=
  ∀ a b, known a → known b → a.blockHash = b.blockHash → a.getTxHashes = b.getTxHashes

lemma sameTxHashes_of_list {blocks : List BPBlock} (listed : ∀ a ∈ blocks, ∀ b ∈ blocks,
      a.blockHash = b.blockHash → a.getTxHashes = b.getTxHashes) : SameTxHashes (· ∈ blocks) :=
  fun a b left right => listed a left b right

namespace BlockNode

def hashLists (n : BlockNode) : List (List Hash) := n.path.map fun m => m.load.getTxHashes

def hashesAbove (n : BlockNode) (count : Nat) : List Hash := (n.hashLists.drop (count + 1)).flatten

lemma hashLists_length (n : BlockNode) : n.hashLists.length = n.count + 1 := by
  rw [hashLists, length_map, path_length]

lemma hashesAbove_eq (n : BlockNode) (count) :
    n.hashesAbove count = (n.fetchNodeList (count + 1)).flatMap fun m => m.load.getTxHashes := by
  rw [hashesAbove, hashLists, fetchNodeList_eq, ← map_drop, flatMap_def]

lemma hashesAbove_child {p count} (below : count ≤ p.count) (h b) :
    (child p h b).hashesAbove count = p.hashesAbove count ++ b.getTxHashes := by
  have lists : (child p h b).hashLists = p.hashLists ++ [b.getTxHashes] := by
    simp [hashLists, path, load]
  have inside : count + 1 ≤ p.hashLists.length := by
    rw [hashLists_length]
    omega
  rw [hashesAbove, lists, drop_append_of_le_length inside, flatten_append]
  simp [hashesAbove]

lemma hashesAbove_split {anc n : BlockNode} {count} (leading : anc.hashLists <+: n.hashLists)
    (below : count ≤ anc.count) :
    n.hashesAbove count = anc.hashesAbove count ++ n.hashesAbove anc.count := by
  obtain ⟨rest, whole⟩ := leading
  have inside : count + 1 ≤ anc.hashLists.length := by
    rw [hashLists_length]
    omega
  simp only [hashesAbove, ← whole, drop_append_of_le_length inside, flatten_append]
  rw [← hashLists_length anc, drop_left]

end BlockNode

structure Coherent (pool : TxPool) (pending : List Hash) (b : Branch) : Prop where
  distinct : pending.Nodup
  packed : ∀ hash, b.packed.contains hash = true ↔ hash ∈ pending
  disjoint : ∀ hash, b.packed.contains hash = true → b.unpacked.contains hash = false
  pooled : ∀ hash tx, b.unpacked.get hash = some tx → pool.get hash = some tx
  covered : ∀ hash, pool.contains hash = true →
    b.packed.contains hash = true ∨ b.unpacked.contains hash = true

namespace Coherent

variable {pool : TxPool} {pending : List Hash} {b : Branch}

lemma start (packed : b.packed = .empty) (unpacked : b.unpacked = pool) : Coherent pool [] b := by
  have nothing : ∀ hash, b.packed.contains hash = false := by
    intro hash
    rw [packed]
    rfl
  refine ⟨nodup_nil, ?_, ?_, ?_, ?_⟩
  · simp [nothing]
  · simp [nothing]
  · rw [unpacked]
    exact fun _ _ found => found
  · rw [unpacked]
    exact fun _ member => .inr member

lemma addTx (coherent : Coherent pool pending b) (fresh : pool.contains tx.hash = false) :
    Coherent (pool.add tx) pending (b.addTx tx) := by
  have absent : b.unpacked.get tx.hash = none := by
    cases found : b.unpacked.get tx.hash with
    | none => rfl
    | some other =>
      have stored := coherent.pooled tx.hash other found
      simp [TxPool.contains, stored] at fresh
  have older : ∀ hash other, b.unpacked.get hash = some other →
      (pool.add tx).get hash = some other := by
    intro hash other found
    have different : hash ≠ tx.hash := by
      rintro rfl
      simp [absent] at found
    simp [different, coherent.pooled hash other found]
  by_cases known : b.packed.contains tx.hash = true
  · have same : b.addTx tx = b := by simp [Branch.addTx, known]
    rw [same]
    refine ⟨coherent.distinct, coherent.packed, coherent.disjoint, older, ?_⟩
    intro hash member
    by_cases own : hash = tx.hash
    · exact .inl (own ▸ known)
    · exact coherent.covered hash (by simpa [TxPool.contains, own] using member)
  · have added : b.addTx tx = { b with unpacked := b.unpacked.add tx } := by
      rw [Branch.addTx, if_neg known, if_neg (by simp [TxPool.contains, absent])]
    rw [added]
    refine ⟨coherent.distinct, coherent.packed, ?_, ?_, ?_⟩
    · intro hash member
      have different : hash ≠ tx.hash := by
        rintro rfl
        exact known member
      simpa [TxPool.contains, different] using coherent.disjoint hash member
    · intro hash other found
      by_cases own : hash = tx.hash
      · simpa [own] using found
      · exact older hash other (by simpa [own] using found)
    · intro hash member
      by_cases own : hash = tx.hash
      · exact .inr (by simp [TxPool.contains, own])
      · have earlier := coherent.covered hash (by simpa [TxPool.contains, own] using member)
        simpa [TxPool.contains, own] using earlier

lemma pack (coherent : Coherent pool pending b) {txs} (packed : br.packed = b.packed.addAll txs)
    (unpacked : br.unpacked = b.unpacked.deleteAll txs) (differ : (txs.map Transaction.hash).Nodup)
    (absent : ∀ hash ∈ txs.map Transaction.hash, b.packed.contains hash = false) :
    Coherent pool (pending ++ txs.map Transaction.hash) br := by
  refine ⟨?_, ?_, ?_, ?_, ?_⟩
  · rw [nodup_append]
    refine ⟨coherent.distinct, differ, ?_⟩
    rintro hash earlier _ new rfl
    have missing := absent hash new
    rw [(coherent.packed hash).mpr earlier] at missing
    simp at missing
  · intro hash
    rw [packed, contains_addAll, coherent.packed, mem_append]
  · intro hash member
    rw [packed, contains_addAll] at member
    rw [unpacked, contains_eq_false, get_deleteAll]
    by_cases new : hash ∈ txs.map Transaction.hash
    · rw [if_pos new]
    · rw [if_neg new, ← contains_eq_false]
      exact coherent.disjoint hash (member.resolve_right new)
  · intro hash tx found
    rw [unpacked, get_deleteAll] at found
    split at found
    · simp at found
    · exact coherent.pooled hash tx found
  · intro hash member
    rw [packed, unpacked, contains_addAll]
    by_cases new : hash ∈ txs.map Transaction.hash
    · exact .inl (.inr new)
    · rcases coherent.covered hash member with known | waiting
      · exact .inl (.inl known)
      · right
        rw [TxPool.contains, get_deleteAll, if_neg new]
        exact waiting

lemma settle (coherent : Coherent pool (settled ++ rest) b) (expired)
    (hashes : nodes.flatMap (fun n => n.load.getTxHashes) = settled) :
    Coherent ((pool.deleteBlocks nodes).keep fun tx => !expired tx) rest
      (b.clearTxs nodes ((pool.deleteBlocks nodes).keep expired)) := by
  obtain ⟨-, distinct, apart⟩ := nodup_append.mp coherent.distinct
  have packed : ∀ hash, (b.packed.deleteBlocks nodes).contains hash = true ↔ hash ∈ rest := by
    intro hash
    rw [TxPool.contains, get_deleteBlocks, hashes]
    by_cases done : hash ∈ settled
    · simp only [if_pos done, Option.isSome_none, Bool.false_eq_true, false_iff]
      intro later
      exact apart hash done hash later rfl
    · rw [if_neg done]
      have known := coherent.packed hash
      rw [mem_append] at known
      exact known.trans (or_iff_right done)
  -- what is unpacked is in none of the blocks, which the branch has packed
  have remaining : ∀ hash tx, b.unpacked.get hash = some tx →
      (pool.deleteBlocks nodes).get hash = some tx := by
    intro hash tx found
    rw [get_deleteBlocks, hashes, if_neg]
    · exact coherent.pooled hash tx found
    · intro done
      have known := (coherent.packed hash).mpr (mem_append_left _ done)
      have missing := coherent.disjoint hash known
      simp [TxPool.contains, found] at missing
  rw [clearTxs_eq]
  refine ⟨distinct, packed, ?_, ?_, ?_⟩
  · intro hash member
    have known := (coherent.packed hash).mpr (mem_append_right _ ((packed hash).mp member))
    have missing := coherent.disjoint hash known
    rw [contains_eq_false] at missing ⊢
    rw [get_deletePool]
    split
    · rfl
    · exact missing
  · intro hash tx found
    rw [get_deletePool] at found
    split at found
    · simp at found
    · rename_i alive
      rw [get_keep, remaining hash tx found]
      simp only [TxPool.contains, get_keep, remaining hash tx found] at alive
      cases verdict : expired tx <;> simp_all [Option.filter]
  · intro hash member
    obtain ⟨tx, found⟩ := contains_eq_true.mp member
    rw [get_keep, Option.filter_eq_some_iff] at found
    obtain ⟨stored, alive⟩ := found
    have pooled : pool.contains hash = true ∧ hash ∉ settled := by
      rw [get_deleteBlocks, hashes] at stored
      split at stored
      · simp at stored
      · rename_i other
        exact ⟨contains_eq_true.mpr ⟨tx, stored⟩, other⟩
    rcases coherent.covered hash pooled.1 with known | waiting
    · left
      rw [packed]
      rw [coherent.packed, mem_append] at known
      exact known.resolve_left pooled.2
    · right
      have unexpired : ((pool.deleteBlocks nodes).keep expired).contains hash = false := by
        rw [contains_eq_false, get_keep, stored]
        simpa [Option.filter] using alive
      rw [TxPool.contains, get_deletePool, unexpired]
      simpa [TxPool.contains] using waiting

lemma of_pools (coherent : Coherent pool pending b) (packed : b'.packed = b.packed)
    (unpacked : b'.unpacked = b.unpacked) : Coherent pool pending b' := by
  refine ⟨coherent.distinct, ?_, ?_, ?_, ?_⟩
  · rw [packed]
    exact coherent.packed
  · rw [packed, unpacked]
    exact coherent.disjoint
  · rw [unpacked]
    exact coherent.pooled
  · rw [packed, unpacked]
    exact coherent.covered

end Coherent

def Chain.Coherent (c : Chain) : Prop :=
  ∀ b ∈ c.branches, BlockProducer.Coherent c.txPool (b.head.hashesAbove c.lastIrre.count) b

section

variable {env : Env} {known : BPBlock → Prop} {producing : Prop} {config : Config} {c c' : Chain}

lemma genesisChain_coherent (st) : (genesisChain config st).Coherent := by
  intro b member
  rw [mem_singleton.mp member]
  exact .start rfl rfl

lemma sortedUnpacked_hashes {txs} (sorted : v.SortedUnpacked env txs) :
    (txs.map Transaction.hash).Nodup := by
  apply sorted.nodup.map_on
  intro left member right member' same
  have first := (sorted.mem left).mp member
  have second := (sorted.mem right).mp member'
  rw [same, second, Option.some.injEq] at first
  exact first.symm

lemma Attempt.distinct (attempt : Attempt env known producing config v (.ok (br, bl)) origin)
    (disjoint : ∀ hash, v.packed.contains hash = true → v.unpacked.contains hash = false) :
    bl.getTxHashes.Nodup ∧ ∀ hash ∈ bl.getTxHashes, v.packed.contains hash = false := by
  rcases attempt.ok_cases with ⟨orders, -, -, ran⟩ | ⟨orders, txs, now, priv, -, sorted, ran⟩
  · obtain ⟨-, -, cpy, packing, -, -⟩ := applyBlock_eq_ok.mp ran
    have distinct := packTxs_distinct packing
    exact distinct
  · obtain ⟨cpy, packing, -⟩ := produceBlock_eq_ok ran
    obtain ⟨new, same, listed, -⟩ := packUnpacked_pools packing
    rw [nil_append] at same
    rw [BPBlock.getTxHashes, same]
    refine ⟨(sortedUnpacked_hashes sorted).sublist (listed.map _), ?_⟩
    intro hash member
    obtain ⟨tx, packed, rfl⟩ := mem_map.mp member
    have waiting := (sorted.mem tx).mp (listed.subset packed)
    rw [Bool.eq_false_iff]
    intro known
    have missing := disjoint tx.hash known
    simp [TxPool.contains, waiting] at missing

lemma Chain.Coherent.extended (coherent : c.Coherent) (anchored : Anchored env known c)
    (present : v ∈ c.branches)
    (attempt : Attempt env known producing c.config v (.ok (br, bl)) origin) :
    BlockProducer.Coherent c.txPool (br.head.hashesAbove c.lastIrre.count) br := by
  have below : c.lastIrre.count ≤ v.head.count := by
    have leading := (anchored.rooted v present).length_le
    simp only [trail_length] at leading
    omega
  obtain ⟨packed, unpacked⟩ := attempt.pools
  obtain ⟨differ, absent⟩ := attempt.distinct (coherent v present).disjoint
  rw [attempt.extends.1, Config.newNode, newBlockNode, hashesAbove_child below]
  exact (coherent v present).pack packed unpacked differ absent

lemma setBranch_coherent (coherent : c.Coherent) (found : c.branches[i]? = some v)
    (attempt : Attempt env known producing c.config v result origin) :
    (c.setBranch i origin).Coherent := by
  intro b member
  rcases mem_or_eq_of_mem_set member with kept | rfl
  · exact coherent b kept
  · obtain ⟨readonly, rfl⟩ := attempt.origin_eq
    exact (coherent v (mem_of_getElem? found)).of_pools rfl rfl

lemma deleteBlocks_eq (pool : TxPool) (nodes) :
    pool.deleteBlocks nodes = pool.deleteAll (nodes.flatMap fun n => n.load.transactions) := by
  simp only [deleteBlocks, deleteAll, foldl_flatMap]

lemma newBranch_coherent {orders base head s pool}
    (ran : newBranch env orders base head s pool = .ok (.ok br)) :
    Coherent pool (head.hashesAbove base.count) br := by
  obtain ⟨inst, packing, rfl⟩ := newBranch_eq_ok ran
  obtain ⟨-, packed, unpacked⟩ := packBlocks_pools packing
  obtain ⟨differ, absent⟩ := packBlocks_distinct packing
  rw [hashesAbove_eq]
  rw [deleteBlocks_eq] at unpacked
  have whole : (head.fetchNodeList (base.count + 1)).flatMap (fun n => n.load.getTxHashes) =
      ((head.fetchNodeList (base.count + 1)).flatMap fun n => n.load.transactions).map
        Transaction.hash := by
    rw [map_flatMap]
    rfl
  rw [whole] at differ absent ⊢
  have begun : Coherent pool [] ⟨head, s.makeCopy, .empty, pool⟩ := .start rfl rfl
  have finished := begun.pack packed unpacked differ absent
  exact finished.of_pools rfl rfl

lemma SameTxHashes.unique (content : SameTxHashes known) (free : CollisionFree env known)
    (a b : BlockNode) (left : a.Linked (ValidNode env known config))
    (right : b.Linked (ValidNode env known config)) (same : a.hash = b.hash) :
    a.load.parentHash = b.load.parentHash ∧ a.load.getTxHashes = b.load.getTxHashes :=
  ⟨free.parentHash_eq _ _ _ _ left.block right.block same,
    content _ _ left.block.seen right.block.seen same⟩

lemma switched_coherent (content : SameTxHashes known)
    (free : CollisionFree env known) (headAt : c.HeadAt) (anchored : Anchored env known c)
    (deep : c.Deep) (coherent : c.Coherent) (found : c.branches[i]? = some v) (seen : known bl)
    (attempt : Attempt env known producing c.config v (.ok (br, bl)) origin)
    (higher : i = c.headIndex ∨ c.headBranch.head.count < br.head.count)
    (prepared : c.prepareSwitch env orders br = .ok switch) :
    ((c.setBranch i origin).finishSwitch (c.switchStorage bl switch) i br switch).Coherent := by
  have present := mem_of_getElem? found
  obtain ⟨irre, newIrres, -, resultTxPool, expiredTxs⟩ := prepareSwitch_eq_ok prepared
  have onPath := lastIrreversible_mem_path c.config.confirms br.head
  have moved := (trail_of_switch headAt anchored deep found attempt higher).length_le
  rw [← irre] at onPath moved
  simp only [trail_length] at moved
  have settled : switch.newIrres.flatMap (fun n => n.load.getTxHashes) =
      switch.lastIrre.hashesAbove c.lastIrre.count := by
    rw [newIrres, hashesAbove_eq, fetchNodeList_eq]
  have cleared : ∀ {kept : Branch}, switch.lastIrre.hashLists <+: kept.head.hashLists →
      BlockProducer.Coherent c.txPool (kept.head.hashesAbove c.lastIrre.count) kept →
      BlockProducer.Coherent switch.resultTxPool (kept.head.hashesAbove switch.lastIrre.count)
        (kept.clearTxs switch.newIrres switch.expiredTxs) := by
    intro kept leading holds
    rw [hashesAbove_split leading (by omega)] at holds
    rw [resultTxPool, expiredTxs]
    exact holds.settle _ settled
  intro b member
  obtain ⟨kept, rfl, rfl | ⟨live, checked⟩⟩ := finishSwitch_mem member
  · rw [clearTxs_head]
    refine cleared ?_ ((coherent.extended anchored present attempt).of_pools rfl rfl)
    exact (path_prefix_of_mem onPath).map _
  · rw [clearTxs_head]
    refine cleared ?_ (setBranch_coherent coherent found attempt kept live)
    obtain ⟨v', present', head⟩ := setBranch_mem found attempt live
    rw [head] at checked ⊢
    have linked := (attempt.linked seen (anchored.linked v present)).of_mem onPath
    exact linked.map_prefix (anchored.linked v' present') (content.unique free) checked

lemma Effect.coherent (content : SameTxHashes known) (free : CollisionFree env known)
    (headAt : c.HeadAt) (anchored : Anchored env known c) (deep : c.Deep) (coherent : c.Coherent)
    (effect : Effect env known producing c c') : c'.Coherent := by
  cases effect with
  | unchanged => exact coherent
  | pooled tx fresh =>
    intro b member
    obtain ⟨v, present, rfl⟩ := mem_map.mp member
    rw [addTx_head]
    exact (coherent v present).addTx fresh
  | attempted i v result origin found attempt => exact setBranch_coherent coherent found attempt
  | grown i v br bl origin found seen attempt =>
    intro b member
    rcases mem_or_eq_of_mem_set member with kept | rfl
    · exact coherent b kept
    · exact (coherent.extended anchored (mem_of_getElem? found) attempt).of_pools rfl rfl
  | forked orders bl parent br seen verified noHead unknown found ran =>
    intro b member
    rcases mem_append.mp member with kept | added
    · exact coherent b kept
    · rw [mem_singleton.mp added, newBranch_head ran]
      exact newBranch_coherent ran
  | notSwitched orders i v br bl origin switch found attempt =>
    exact setBranch_coherent coherent found attempt
  | switched orders i v br bl origin switch found seen attempt higher prepared =>
    exact switched_coherent content free headAt anchored deep coherent found seen attempt higher
      prepared

lemma run_coherent_chain (free : CollisionFree env known) (content : SameTxHashes known)
    (seen : known config.genesis) (opened : Opened env config c₀)
    (run : Run env known producing c₀ c) : c.HeadAt ∧ c.Coherent := by
  obtain ⟨headAt, anchored, settled⟩ := opened_anchored seen opened
  have begun : c₀.Coherent := by
    obtain ⟨-, st, -, rfl⟩ := opened_eq opened
    exact genesisChain_coherent st
  obtain ⟨headAt', -, -, coherent⟩ := Run.preserves
    (fun c => Anchored env known c ∧ c.Settled ∧ c.Coherent) run headAt ⟨anchored, settled, begun⟩
    fun middle next headAt holds effect =>
      ⟨(effect.anchored free headAt holds.1 holds.2.1.deep).1, effect.settled headAt holds.2.1,
        effect.coherent content free headAt holds.1 holds.2.1.deep holds.2.2⟩
  exact ⟨headAt', coherent⟩

theorem run_coherent {c₀ : Chain} (free : CollisionFree env known) (content : SameTxHashes known)
    (seen : known config.genesis) (opened : Opened env config c₀)
    (run : Run env known producing c₀ c) :
    ∀ b ∈ c.branches, (∀ hash, b.packed.contains hash = true ↔
        ∃ n ∈ b.head.fetchNodeList (c.lastIrre.count + 1),
          ∃ tx ∈ n.load.transactions, tx.hash = hash) ∧
      (∀ hash, ¬(b.packed.contains hash = true ∧ b.unpacked.contains hash = true)) ∧
      (∀ hash tx, b.unpacked.get hash = some tx → c.txPool.get hash = some tx) ∧
      ∀ hash tx, c.txPool.get hash = some tx →
        b.packed.contains hash = true ∨ b.unpacked.get hash = some tx := by
  obtain ⟨-, coherent⟩ := run_coherent_chain free content seen opened run
  intro b member
  have holds := coherent b member
  refine ⟨?_, ?_, holds.pooled, ?_⟩
  · intro hash
    rw [holds.packed, hashesAbove_eq, mem_flatMap]
    simp only [BPBlock.getTxHashes, mem_map]
  · rintro hash ⟨packed, unpacked⟩
    rw [holds.disjoint hash packed] at unpacked
    simp at unpacked
  · intro hash tx found
    rcases holds.covered hash (TxPool.contains_eq_true.mpr ⟨tx, found⟩) with packed | unpacked
    · exact .inl packed
    · obtain ⟨own, waiting⟩ := TxPool.contains_eq_true.mp unpacked
      rw [holds.pooled hash own waiting, Option.some.injEq] at found
      exact .inr (found ▸ waiting)

end

namespace Sample

def vacant : BPBlock := block 1000 1010 []

def twin : BPBlock := block 1000 1010 [founder 5 1]

noncomputable def stale : Chain :=
  receive later (receive twin (receive early (receive vacant funded)))

lemma run_stale : Run env (· ∈ [genesis [founder 1 100], vacant, early, twin, later]) False
    funded stale :=
  run_receive (run_receive (run_receive (run_receive .refl
    vacant (by simp) (by decide) (by decide))
    early (by simp) (by decide) (by decide))
    twin (by simp) (by decide) (by decide))
    later (by simp) (by decide) (by decide)

end Sample

open Sample in
theorem run_coherent_competing : competing.branches.length = 2 ∧ ∀ b ∈ competing.branches, ∀ hash,
      b.packed.contains hash = true ↔ ∃ n ∈ b.head.fetchNodeList (competing.lastIrre.count + 1),
          ∃ tx ∈ n.load.transactions, tx.hash = hash := by
  have run : Run Sample.env (· ∈ [genesis [founder 1 100], paid, early, other]) False funded
      competing :=
    run_receive (run_receive (run_receive (run_pool .refl (pay 1 2 1 10) (by decide))
      paid (by simp) (by decide) (by decide))
      early (by simp) (by decide) (by decide))
      other (by simp) (by decide) (by decide)
  have holds := run_coherent (collisionFree_of_list (by decide)) (sameTxHashes_of_list (by decide))
    (by simp [Sample.config]) funded_opened run
  exact ⟨by decide, fun b member => (holds b member).1⟩

open Sample in
/-- A live branch has packed a transaction, and has no block above the last irreversible
one. -/
theorem run_incoherent : Opened Sample.env (Sample.config [founder 1 100] 2) funded ∧
    Run Sample.env (· ∈ [genesis [founder 1 100], vacant, early, twin, later]) False funded stale ∧
    vacant.header = twin.header ∧ vacant.blockHash = twin.blockHash ∧
    ∃ b ∈ stale.branches, b.packed.contains (founder 5 1).hash = true ∧
      b.head.fetchNodeList (stale.lastIrre.count + 1) = [] := by
  refine ⟨funded_opened, run_stale, by decide, by decide, ?_⟩
  decide

end SQLess.BlockProducer
