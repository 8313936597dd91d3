import SQLess.BlockProducer.Coherence

/-! Answers of `queryTxState`. -/

namespace SQLess.BlockProducer

open Lib List BlockNode

variable {c : Chain} {st : Storage} {b : BPBlock}

def Chain.ConfirmedTx (c : Chain) (hash : Hash) : Prop :=
  ∃ n ∈ c.lastIrre.path, hash ∈ n.load.getTxHashes

def Chain.PackedTx (c : Chain) (hash : Hash) : Prop :=
  ∃ n ∈ c.headBranch.head.fetchNodeList (c.lastIrre.count + 1), hash ∈ n.load.getTxHashes

structure Chain.TellsTruth (c : Chain) (hash : Hash) (answer : TransactionState) : Prop where
  confirmed : answer = .confirmed ↔ c.ConfirmedTx hash
  packed : answer = .packed ↔ c.PackedTx hash
  waiting : ¬c.ConfirmedTx hash → ¬c.PackedTx hash →
    answer = if c.headBranch.unpacked.contains hash then .pending else .notFound

lemma Chain.TellsTruth.unconfirmed {hash answer} (truth : c.TellsTruth hash answer)
    (other : answer ≠ .confirmed) : ¬c.ConfirmedTx hash :=
  mt truth.confirmed.mpr other

def Indexed (rows : FiniteMap (Nat × Nat) Hash) (hash : Hash) : Prop :=
  ∃ key, rows.get key = some hash

/-- The table holds the transaction if it is irreversible, and then it is neither packed again
nor pending; any other transaction is in the table only if the head branch knows it. -/
def Chain.Indexes (c : Chain) (hash : Hash) : Prop :=
  (c.ConfirmedTx hash → Indexed c.storage.indexedTransactions hash ∧ ¬c.PackedTx hash ∧
    c.headBranch.unpacked.contains hash = false) ∧
  (¬c.ConfirmedTx hash → Indexed c.storage.indexedTransactions hash →
    c.PackedTx hash ∨ c.headBranch.unpacked.contains hash = true)

lemma Branch.queryTxState_cases (b : Branch) (hash) :
    (b.unpacked.contains hash = true ∧ b.queryTxState hash = some .pending) ∨
    (b.unpacked.contains hash = false ∧ b.packed.contains hash = true ∧
      b.queryTxState hash = some .packed) ∨
    (b.unpacked.contains hash = false ∧ b.packed.contains hash = false ∧
      b.queryTxState hash = none) := by
  unfold Branch.queryTxState
  by_cases waiting : b.unpacked.contains hash = true
  · exact .inl ⟨waiting, if_pos waiting⟩
  · rw [if_neg waiting]
    rw [Bool.not_eq_true] at waiting
    by_cases packed : b.packed.contains hash = true
    · exact .inr (.inl ⟨waiting, packed, if_pos packed⟩)
    · exact .inr (.inr ⟨waiting, by simpa using packed, if_neg packed⟩)

lemma exists_key_iff_indexed (rows hash) :
    (∃ key ∈ rows.keys, rows.get key = some hash) ↔ Indexed rows hash := by
  constructor
  · rintro ⟨key, -, found⟩
    exact ⟨key, found⟩
  · rintro ⟨key, found⟩
    exact ⟨key, FiniteMap.mem_keys_of_get found, found⟩

lemma Chain.Coherent.packedTx_iff (coherent : c.Coherent) (headAt : c.HeadAt) (hash) :
    c.headBranch.packed.contains hash = true ↔ c.PackedTx hash := by
  have member : c.headBranch ∈ c.branches := mem_of_getElem? headAt
  rw [(coherent c.headBranch member).packed, hashesAbove_eq, mem_flatMap]
  rfl

lemma Chain.Coherent.not_pending (coherent : c.Coherent) (headAt : c.HeadAt) {hash}
    (packed : c.PackedTx hash) : c.headBranch.unpacked.contains hash = false := by
  have member : c.headBranch ∈ c.branches := mem_of_getElem? headAt
  exact (coherent c.headBranch member).disjoint hash
    ((coherent.packedTx_iff headAt hash).mpr packed)

lemma queryTxState_truth_iff (coherent : c.Coherent) (headAt : c.HeadAt) (hash : Hash) :
    ∃ answer, c.queryTxState true hash = .ok answer ∧
      (c.TellsTruth hash answer ↔ c.Indexes hash) := by
  have packedTx := coherent.packedTx_iff headAt hash
  rcases c.headBranch.queryTxState_cases hash with
    ⟨waiting, answer⟩ | ⟨idle, packed, answer⟩ | ⟨idle, unpacked, answer⟩
  · refine ⟨.pending, by rw [Chain.queryTxState, answer], ?_⟩
    have later : ¬c.PackedTx hash := by
      intro packed
      rw [coherent.not_pending headAt packed] at waiting
      simp at waiting
    constructor
    · intro truth
      have unsettled := truth.unconfirmed (by simp)
      exact ⟨fun settled => absurd settled unsettled, fun _ _ => .inr waiting⟩
    · rintro ⟨whole, -⟩
      have unsettled : ¬c.ConfirmedTx hash := fun settled => by
        have idle := (whole settled).2.2
        rw [waiting] at idle
        simp at idle
      exact ⟨by simp [unsettled], by simp [later], fun _ _ => by rw [waiting, if_pos rfl]⟩
  · refine ⟨.packed, by rw [Chain.queryTxState, answer], ?_⟩
    have later : c.PackedTx hash := packedTx.mp packed
    constructor
    · intro truth
      have unsettled := truth.unconfirmed (by simp)
      exact ⟨fun settled => absurd settled unsettled, fun _ _ => .inl later⟩
    · rintro ⟨whole, -⟩
      have unsettled : ¬c.ConfirmedTx hash := fun settled => (whole settled).2.1 later
      exact ⟨by simp [unsettled], by simp [later], fun _ absent => absurd later absent⟩
  · have later : ¬c.PackedTx hash := by
      rw [← packedTx, unpacked]
      simp
    by_cases listed : Indexed c.storage.indexedTransactions hash
    · refine ⟨.confirmed, ?_, ?_⟩
      · have rows := (exists_key_iff_indexed _ _).mpr listed
        simp only [Chain.queryTxState, answer, if_true]
        rw [if_pos rows]
      constructor
      · intro truth
        have settled := truth.confirmed.mp rfl
        exact ⟨fun _ => ⟨listed, later, idle⟩, fun absent => absurd settled absent⟩
      · rintro ⟨-, known⟩
        have settled : c.ConfirmedTx hash := by
          by_contra absent
          rcases known absent listed with packed | waiting
          · exact later packed
          · rw [idle] at waiting
            simp at waiting
        exact ⟨by simp [settled], by simp [later], fun absent => absurd settled absent⟩
    · refine ⟨.notFound, ?_, ?_⟩
      · have rows := mt (exists_key_iff_indexed _ _).mp listed
        simp only [Chain.queryTxState, answer, if_true]
        rw [if_neg rows]
      constructor
      · intro truth
        have unsettled := truth.unconfirmed (by simp)
        exact ⟨fun settled => absurd settled unsettled, fun _ found => absurd found listed⟩
      · rintro ⟨whole, -⟩
        have unsettled : ¬c.ConfirmedTx hash := fun settled => listed (whole settled).1
        exact ⟨by simp [unsettled], by simp [later], fun _ _ => by rw [idle]; rfl⟩

lemma get_indexTxs (height) (txs : List Transaction) (start) (rows : FiniteMap (Nat × Nat) Hash)
    (key) : ((txs.zipIdx start).foldl
      (fun rows entry => rows.insert (height, entry.2) entry.1.hash) rows).get key =
      if key.1 = height ∧ start ≤ key.2 then
        ((txs.map Transaction.hash)[key.2 - start]?).or (rows.get key) else rows.get key := by
  induction txs generalizing start rows with
  | nil => simp
  | cons tx rest ih =>
    rw [zipIdx_cons, foldl_cons, ih]
    rw [FiniteMap.get_insert]
    by_cases own : key = (height, start)
    · rw [own, if_neg (by omega), if_pos rfl, if_pos ⟨rfl, Nat.le_refl _⟩]
      simp
    · rw [if_neg own]
      by_cases later : key.1 = height ∧ start + 1 ≤ key.2
      · have next : key.2 - start = key.2 - (start + 1) + 1 := by omega
        rw [if_pos later, if_pos ⟨later.1, by omega⟩, next]
        simp
      · have outside : ¬(key.1 = height ∧ start ≤ key.2) := by
          rintro ⟨level, above⟩
          have last : key.2 = start := by
            by_contra other
            exact later ⟨level, by omega⟩
          exact own (Prod.ext level last)
        rw [if_neg later, if_neg outside]

lemma indexed_indexBlock {height}
    (fresh : ∀ key hash, st.indexedTransactions.get key = some hash → key.1 ≠ height) (hash :
      Hash) : Indexed (st.indexBlock height b).indexedTransactions hash ↔
      Indexed st.indexedTransactions hash ∨ hash ∈ b.getTxHashes := by
  unfold Indexed Storage.indexBlock
  simp only [get_indexTxs, Nat.zero_le, and_true, Nat.sub_zero]
  constructor
  · rintro ⟨key, found⟩
    split at found
    · rcases Option.or_eq_some_iff.mp found with new | ⟨-, old⟩
      · exact .inr (mem_of_getElem? new)
      · exact .inl ⟨key, old⟩
    · exact .inl ⟨key, found⟩
  · rintro (⟨key, found⟩ | new)
    · exact ⟨key, by rw [if_neg (fresh key hash found), found]⟩
    · obtain ⟨index, found⟩ := List.getElem?_of_mem new
      refine ⟨(height, index), ?_⟩
      rw [if_pos rfl]
      exact Option.or_eq_some_iff.mpr (.inl found)

lemma indexBlock_height {height key hash}
    (found : (st.indexBlock height b).indexedTransactions.get key = some hash) :
    key.1 = height ∨ st.indexedTransactions.get key = some hash := by
  simp only [Storage.indexBlock, get_indexTxs] at found
  by_cases level : key.1 = height
  · exact .inl level
  · rw [if_neg (fun inside => level inside.1)] at found
    exact .inr found

def Chain.Follows (c c' : Chain) : Prop :=
  c'.headBranch.head = c.headBranch.head ∨ c'.headBranch.head.parent = some c.headBranch.head

abbrev StraightRun (env : Env) (known : BPBlock → Prop) (producing : Prop) : Chain → Chain → Prop :=
  Relation.ReflTransGen fun c c' => Step env known producing c c' ∧ c.Follows c'

structure Tabulated (rows : FiniteMap (Nat × Nat) Hash) (head : BlockNode) : Prop where
  hashes : ∀ hash, Indexed rows hash ↔ ∃ n ∈ head.path.drop 1, hash ∈ n.load.getTxHashes
  heights : ∀ key hash, rows.get key = some hash → key.1 ∈ head.path.map BlockNode.height

lemma Tabulated.child {p height} (table : Tabulated st.indexedTransactions p)
    (distinct : ((BlockNode.child p height b).path.map BlockNode.height).Nodup) :
    Tabulated (st.indexBlock height b).indexedTransactions (.child p height b) := by
  rw [BlockNode.path, map_append, nodup_append] at distinct
  obtain ⟨-, -, apart⟩ := distinct
  have fresh : ∀ key hash, st.indexedTransactions.get key = some hash → key.1 ≠ height := by
    intro key hash found
    exact apart _ (table.heights key hash found) height (by simp [BlockNode.height])
  have inside : 1 ≤ p.path.length := by
    rw [path_length]
    omega
  constructor
  · intro hash
    rw [indexed_indexBlock fresh, table.hashes, BlockNode.path, drop_append_of_le_length inside]
    simp only [mem_append, mem_singleton, or_and_right, exists_or, exists_eq_left]
    rfl
  · intro key hash found
    rw [BlockNode.path, map_append, mem_append]
    rcases indexBlock_height found with level | old
    · exact .inr (by simp [level, BlockNode.height])
    · exact .inl (table.heights key hash old)

section

variable {env : Env} {known : BPBlock → Prop} {producing : Prop} {config : Config} {c c' : Chain}

lemma Effect.indexes (headAt : c.HeadAt) (anchored : Anchored env known c)
    (effect : Effect env known producing c c') : (c'.headBranch.head = c.headBranch.head ∧
      c'.storage.indexedTransactions = c.storage.indexedTransactions) ∨
    ∃ p height bl, c'.headBranch.head = .child p height bl ∧ p.count = c.headBranch.head.count ∧
      c'.storage.indexedTransactions = (c.storage.indexBlock height bl).indexedTransactions := by
  cases effect with
  | unchanged | forked orders bl parent br seen verified noHead unknown found ran =>
    exact .inl ⟨rfl, rfl⟩
  | pooled => exact .inl ⟨Branch.addTx_head _ _, rfl⟩
  | attempted i v result origin found attempt =>
    exact .inl ⟨setBranch_headBranch_head headAt found result origin attempt, rfl⟩
  | grown i v br bl origin found seen attempt lower
  | notSwitched orders i v br bl origin switch found attempt =>
    exact .inl ⟨setBranch_headBranch_head headAt found _ origin attempt, rfl⟩
  | switched orders i v br bl origin switch found seen attempt higher =>
    have count := head_count_of_higher headAt anchored found attempt higher
    rw [attempt.head_count] at count
    refine .inr ⟨v.head, c.config.heightOfTime bl.timestamp, bl, ?_, by omega, rfl⟩
    simp only [Chain.finishSwitch, Branch.clearTxs_head]
    exact attempt.extends.1

lemma StraightRun.run (straight : StraightRun env known producing c c') :
    Run env known producing c c' :=
  Relation.ReflTransGen.mono (fun _ _ step => step.1) _ _ straight

lemma Chain.Follows.path_leading (follows : c.Follows c') :
    c.headBranch.head.path <+: c'.headBranch.head.path := by
  rcases follows with same | link
  · rw [same]
  · cases head : c'.headBranch.head with
    | genesis => simp [head, BlockNode.parent] at link
    | child =>
      simp only [head, BlockNode.parent, Option.some.injEq] at link
      rw [BlockNode.path, link]
      exact prefix_append _ _

lemma straightRun_tabulated (free : CollisionFree env known) (headAt : c.HeadAt)
    (anchored : Anchored env known c) (settled : c.Settled)
    (begun : Tabulated c.storage.indexedTransactions c.headBranch.head)
    (straight : StraightRun env known producing c c')
    (distinct : (c'.headBranch.head.path.map BlockNode.height).Nodup) :
    Tabulated c'.storage.indexedTransactions c'.headBranch.head := by
  induction straight with
  | refl => exact begun
  | @tail middle last before step ih =>
    obtain ⟨headAt', anchored', -, -⟩ :=
      run_anchored free headAt anchored settled (StraightRun.run before)
    obtain ⟨called, follows⟩ := step
    have table := ih (distinct.sublist (follows.path_leading.sublist.map _))
    rcases (step_effect headAt' called).indexes headAt' anchored' with
      ⟨sameHead, sameRows⟩ | ⟨p, height, bl, head, count, rows⟩
    · rw [sameHead, sameRows]
      exact table
    · have parent : p = middle.headBranch.head := by
        rcases follows with same | link
        · rw [head] at same
          rw [← same, BlockNode.count] at count
          omega
        · rw [head, BlockNode.parent, Option.some.injEq] at link
          exact link
      rw [← parent] at table
      rw [head] at distinct ⊢
      rw [rows]
      exact table.child distinct

lemma genesisChain_tabulated (init) :
    Tabulated (genesisChain config (genesisStorage config init)).storage.indexedTransactions
      config.genesisNode := by
  have nothing : ∀ key, (genesisStorage config init).indexedTransactions.get key = none :=
    fun _ => rfl
  constructor
  · intro hash
    constructor
    · rintro ⟨key, found⟩
      have absent := nothing key
      simp [genesisChain, absent] at found
    · rintro ⟨n, member, -⟩
      simp [Config.genesisNode, newBlockNode, BlockNode.path] at member
  · intro key hash found
    have absent := nothing key
    simp [genesisChain, absent] at found

lemma Chain.confirmedTx_iff (hash) : c.ConfirmedTx hash ↔ hash ∈ c.lastIrre.hashLists.flatten := by
  rw [BlockNode.hashLists, ← flatMap_def, mem_flatMap]
  rfl

lemma Chain.packedTx_iff (hash) :
    c.PackedTx hash ↔ hash ∈ c.headBranch.head.hashesAbove c.lastIrre.count := by
  rw [hashesAbove_eq, mem_flatMap]
  rfl

lemma Anchored.known_iff (content : SameTxHashes known) (free : CollisionFree env known)
    (headAt : c.HeadAt) (anchored : Anchored env known c) (hash) :
    hash ∈ c.headBranch.head.hashLists.flatten ↔ c.ConfirmedTx hash ∨ c.PackedTx hash := by
  have member : c.headBranch ∈ c.branches := mem_of_getElem? headAt
  obtain ⟨rest, whole⟩ : c.lastIrre.hashLists <+: c.headBranch.head.hashLists :=
    anchored.irreLinked.map_prefix (anchored.linked _ member) (content.unique free)
      (hasAncestor_of_leading (anchored.rooted _ member))
  have above : c.headBranch.head.hashesAbove c.lastIrre.count = rest.flatten := by
    rw [BlockNode.hashesAbove, ← whole, ← hashLists_length, drop_left]
  rw [c.confirmedTx_iff, c.packedTx_iff, above, ← whole, flatten_append, mem_append]

lemma straightRun_path_leading (straight : StraightRun env known producing c c') :
    c.headBranch.head.path <+: c'.headBranch.head.path := by
  induction straight with
  | refl => exact prefix_rfl
  | tail _ step ih => exact ih.trans step.2.path_leading

lemma straightRun_indexed (free : CollisionFree env known) (content : SameTxHashes known)
    (seen : known config.genesis) (opened : Opened env config c₀)
    (straight : StraightRun env known producing c₀ c)
    (distinct : (c.headBranch.head.path.map BlockNode.height).Nodup) {hash}
    (later : hash ∉ config.genesis.getTxHashes) :
    Indexed c.storage.indexedTransactions hash ↔ c.ConfirmedTx hash ∨ c.PackedTx hash := by
  obtain ⟨headAt₀, anchored₀, settled₀⟩ := opened_anchored seen opened
  obtain ⟨headAt, anchored, -, -⟩ := run_anchored free headAt₀ anchored₀ settled₀ straight.run
  obtain ⟨-, orders, stored, st, created, rfl⟩ := opened_storage opened
  obtain ⟨init, -, rfl⟩ := initStorage_eq_ok created
  have table := straightRun_tabulated free headAt₀ anchored₀ settled₀
    (genesisChain_tabulated init) straight distinct
  obtain ⟨rest, path⟩ : [config.genesisNode] <+: c.headBranch.head.path :=
    straightRun_path_leading straight
  have lists : c.headBranch.head.hashLists =
      config.genesis.getTxHashes :: rest.map fun n => n.load.getTxHashes := by
    rw [BlockNode.hashLists, ← path]
    rfl
  rw [← anchored.known_iff content free headAt, table.hashes, ← path, lists, flatten_cons,
    mem_append, or_iff_right later, ← flatMap_def, mem_flatMap]
  rfl

/-- What `queryTxState` answers is true exactly for the transactions about which the table is right.
-/
theorem run_queryTxState {c₀ : Chain} (free : CollisionFree env known)
    (content : SameTxHashes known) (seen : known config.genesis) (opened : Opened env config c₀)
    (run : Run env known producing c₀ c) :
    (∀ hash, ∃ answer, c.queryTxState true hash = .ok answer ∧
      (c.TellsTruth hash answer ↔ c.Indexes hash)) ∧
    (StraightRun env known producing c₀ c → (c.headBranch.head.path.map BlockNode.height).Nodup →
      ∀ hash, hash ∉ config.genesis.getTxHashes → (c.Indexes hash ↔ (c.ConfirmedTx hash →
          ¬c.PackedTx hash ∧ c.headBranch.unpacked.contains hash = false))) := by
  obtain ⟨headAt, coherent⟩ := run_coherent_chain free content seen opened run
  refine ⟨queryTxState_truth_iff coherent headAt, ?_⟩
  intro straight distinct hash later
  have indexed := straightRun_indexed free content seen opened straight distinct later
  constructor
  · intro precise settled
    exact (precise.1 settled).2
  · intro once
    refine ⟨fun settled => ⟨indexed.mpr (.inl settled), once settled⟩, ?_⟩
    intro unsettled found
    exact .inl ((indexed.mp found).resolve_left unsettled)

end

namespace Sample

noncomputable def lender : Chain := chain [founder 1 100] 1

lemma lender_opened : Opened env (config [founder 1 100] 1) lender :=
  genesisChain_opened choice.immutableOrders (by decide) (by rfl)

lemma straight_receive (straight : StraightRun env known producing c c') (bl)
    (received : known bl) (verified : bl.verify env = some (.ok ()))
    (returned : Program.returns (Chain.applyBlock env choice bl) c' = true)
    (follows : (receive bl c').headBranch.head.parent = some c'.headBranch.head) :
    StraightRun env known producing c (receive bl c') :=
  straight.tail ⟨step_applyBlock received verified returned, .inr follows⟩

def loan : BPBlock := block 1000 1001 [pay 1 2 1 10]

def rivalLoan : BPBlock := block 1000 1002 [pay 1 2 1 20]

noncomputable def lent : Chain := receive second (receive loan lender)

noncomputable def overtaken : Chain :=
  receive (block 1002 1003 []) (receive rivalLoan (receive loan lender))

end Sample

open Sample in
theorem run_queryTxState_lent :
    StraightRun Sample.env (· ∈ [genesis [founder 1 100], loan, second]) False lender lent ∧
    ∃ answer, lent.queryTxState true (pay 1 2 1 10).hash = .ok answer ∧
      lent.TellsTruth (pay 1 2 1 10).hash answer ∧ answer = .confirmed := by
  have straight : StraightRun Sample.env (· ∈ [genesis [founder 1 100], loan, second]) False
      lender lent :=
    straight_receive (straight_receive .refl
      loan (by simp) (by decide) (by decide) (by decide))
      second (by simp) (by decide) (by decide) (by decide)
  obtain ⟨answers, along⟩ := run_queryTxState (collisionFree_of_list (by decide))
    (sameTxHashes_of_list (by decide)) (by simp [Sample.config]) lender_opened straight.run
  have once : lent.ConfirmedTx (pay 1 2 1 10).hash → ¬lent.PackedTx (pay 1 2 1 10).hash ∧
      lent.headBranch.unpacked.contains (pay 1 2 1 10).hash = false := by
    unfold Chain.ConfirmedTx Chain.PackedTx
    decide
  have settled : lent.ConfirmedTx (pay 1 2 1 10).hash := by
    unfold Chain.ConfirmedTx
    decide
  have precise := (along straight (by decide) _ (by decide)).mpr once
  obtain ⟨answer, asked, truth⟩ := answers (pay 1 2 1 10).hash
  exact ⟨straight, answer, asked, truth.mpr precise, (truth.mpr precise).confirmed.mpr settled⟩

open Sample in
/-- The loan of the abandoned block is reported as confirmed, and the one that is irreversible
as not found. -/
theorem queryTxState_untrue : Opened Sample.env (Sample.config [founder 1 100] 1) lender ∧
    Run Sample.env (· ∈ [genesis [founder 1 100], loan, rivalLoan, block 1002 1003 []]) False
      lender overtaken ∧
    overtaken.queryTxState true (pay 1 2 1 10).hash = .ok .confirmed ∧
    ¬overtaken.ConfirmedTx (pay 1 2 1 10).hash ∧
    overtaken.queryTxState true (pay 1 2 1 20).hash = .ok .notFound ∧
    overtaken.ConfirmedTx (pay 1 2 1 20).hash := by
  have run : Run Sample.env
      (· ∈ [genesis [founder 1 100], loan, rivalLoan, block 1002 1003 []]) False
      lender overtaken :=
    run_receive (run_receive (run_receive .refl
      loan (by simp) (by decide) (by decide))
      rivalLoan (by simp) (by decide) (by decide))
      (block 1002 1003 []) (by simp) (by decide) (by decide)
  refine ⟨lender_opened, run, by decide, ?_, by decide, ?_⟩
  · unfold Chain.ConfirmedTx
    decide
  · unfold Chain.ConfirmedTx
    decide

end SQLess.BlockProducer
