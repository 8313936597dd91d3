import SQLess.BlockProducer.BranchCore

/-!
What the pools hold after each operation, and what a pass over the transactions of a block does
to a branch.
-/

namespace SQLess.BlockProducer

open Lib List Program

variable {b b' br : Branch} {orders : Orders} {nodes : List BlockNode} {h : Nat}

namespace TxPool

variable {txs : List Transaction} {height : Nat} {pool : TxPool}

lemma ext {left right : TxPool} (same : ∀ hash, left.get hash = right.get hash) : left = right := by
  obtain ⟨leftTxs, leftKeyed⟩ := left
  obtain ⟨rightTxs, rightKeyed⟩ := right
  obtain rfl : leftTxs = rightTxs := FiniteMap.ext same
  rfl

lemma hash_of_get {hash tx} (found : pool.get hash = some tx) :
    tx.hash = hash := pool.keyed hash tx found

lemma contains_eq_true {hash} : pool.contains hash = true ↔ ∃ tx, pool.get hash = some tx :=
  Option.isSome_iff_exists

lemma contains_eq_false {hash} : pool.contains hash = false ↔ pool.get hash = none := by
  simp [contains]

@[simp] lemma get_emptyPool (hash) : TxPool.empty.get hash = none := rfl

@[simp] lemma get_add (pool : TxPool) (tx hash) :
    (pool.add tx).get hash = if hash = tx.hash then some tx else pool.get hash := rfl

@[simp] lemma get_delete (pool : TxPool) (key hash) :
    (pool.delete key).get hash = if hash = key then none else pool.get hash := rfl

lemma get_deleteAll (pool : TxPool) (txs hash) : (pool.deleteAll txs).get hash =
      if hash ∈ txs.map Transaction.hash then none else pool.get hash := by
  induction txs generalizing pool with
  | nil => simp [deleteAll]
  | cons tx rest ih =>
    have tail := ih (pool.delete tx.hash)
    simp only [deleteAll, foldl_cons] at tail ⊢
    rw [tail, get_delete]
    by_cases later : hash ∈ rest.map Transaction.hash
    · simp [later]
    · by_cases same : hash = tx.hash <;> simp [later, same]

lemma get_deleteBlocks (pool : TxPool) (nodes hash) : (pool.deleteBlocks nodes).get hash =
      if hash ∈ nodes.flatMap (fun n => n.load.getTxHashes) then none else pool.get hash := by
  induction nodes generalizing pool with
  | nil => simp [deleteBlocks]
  | cons n rest ih =>
    have tail := ih (pool.deleteAll n.load.transactions)
    simp only [deleteBlocks, foldl_cons] at tail ⊢
    rw [tail, get_deleteAll]
    simp only [flatMap_cons, mem_append, BPBlock.getTxHashes]
    by_cases later : hash ∈ rest.flatMap fun n => n.load.transactions.map Transaction.hash
    · simp [later]
    · by_cases here : hash ∈ n.load.transactions.map Transaction.hash <;> simp [later, here]

lemma get_keep (pool : TxPool) (test hash) :
    (pool.keep test).get hash = (pool.get hash).filter test := rfl

lemma get_deletePool (pool other : TxPool) (hash) : (pool.deletePool other).get hash =
      if other.contains hash then none else pool.get hash := by
  rw [deletePool, get_keep]
  cases found : pool.get hash with
  | none => simp
  | some tx =>
    rw [hash_of_get found |>.symm]
    by_cases held : other.contains tx.hash <;> simp [Option.filter, held]

def addAll (pool : TxPool) (txs : List Transaction) : TxPool :=
  txs.foldl (fun pool tx => pool.add tx) pool

lemma contains_addAll (pool : TxPool) (txs hash) : (pool.addAll txs).contains hash = true ↔
      pool.contains hash = true ∨ hash ∈ txs.map Transaction.hash := by
  induction txs generalizing pool with
  | nil => simp [addAll]
  | cons tx rest ih =>
    have tail := ih (pool.add tx)
    simp only [addAll, foldl_cons] at tail ⊢
    rw [tail, contains, get_add, map_cons, mem_cons]
    by_cases same : hash = tx.hash
    · simp [same]
    · simp [same, contains]

lemma delete_of_not_contains {hash : Hash}
    (absent : pool.contains hash = false) : pool.delete hash = pool := by
  apply ext
  intro query
  by_cases same : query = hash
  · simp [same, contains_eq_false.mp absent]
  · simp [same]

end TxPool

variable {env : Env}

lemma Branch.addTx_head (b : Branch) (tx) : (b.addTx tx).head = b.head := by
  simp only [Branch.addTx]
  split
  · rfl
  · split <;> rfl

lemma Branch.addTx_preview (b : Branch) (tx) : (b.addTx tx).preview = b.preview := by
  simp only [Branch.addTx]
  split
  · rfl
  · split <;> rfl

lemma onPreview_eq_ok : onPreview program b = .ok (.ok (), b') ↔
      ∃ preview, program b.preview = .ok (.ok (), preview) ∧
        b' = { b with preview := preview } := by
  unfold onPreview
  rcases program b.preview with reason | ⟨error | value, preview⟩
  · simp
  · simp
  · simp [eq_comm]

lemma packTx_eq_ok : packTx env order height v b = .ok (.ok (), b') ↔
      (b.unpacked.contains v.hash = true ∨ v.verify env = .ok ()) ∧
      b.packed.contains v.hash = false ∧
      ∃ preview, apply env order v height b.preview = .ok (.ok (), preview) ∧
        b' = ⟨b.head, preview, b.packed.add v, b.unpacked.delete v.hash⟩ := by
  simp only [packTx, get_bind_run]
  by_cases pooled : b.unpacked.contains v.hash = true
  · by_cases known : b.packed.contains v.hash = true
    · simp [pooled, known]
    · simp only [pooled, if_true, modify_bind_run, get_bind_run, known,
        Bool.false_eq_true, if_false, onPreview_eq_ok, true_or, true_and]
  · simp only [pooled, Bool.false_eq_true, if_false, orFail_bind_eq_ok,
      get_bind_run, false_or]
    rw [TxPool.delete_of_not_contains (Bool.eq_false_iff.mpr pooled)]
    by_cases known : b.packed.contains v.hash = true
    · simp [known]
    · simp only [known, Bool.false_eq_true, if_false, modify_bind_run, onPreview_eq_ok,
        true_and]
      constructor
      · rintro ⟨⟨⟩, verified, rest⟩
        exact ⟨verified, rest⟩
      · rintro ⟨verified, rest⟩
        exact ⟨(), verified, rest⟩

lemma packTxs_nil : packTxs env height orders [] b = .ok (.ok (), b') ↔ b = b' := by
  simp [packTxs]

lemma packBlocks_nil : packBlocks env orders [] b = .ok (.ok (), b') ↔ b = b' := by
  simp [packBlocks]

lemma packTxs_cons : packTxs env height orders (v :: rest) b = .ok (.ok (), b') ↔
      ∃ between, packTx env (orders 0) height v b = .ok (.ok (), between) ∧
        packTxs env height (orders.drop 1) rest between = .ok (.ok (), b') := by
  rw [packTxs, seq_eq_ok]

lemma packBlocks_cons :
    packBlocks env orders (n :: rest) b = .ok (.ok (), b') ↔ n.txCount ≤ maxTransactionsPerBlock ∧
      ∃ between, packTxs env n.height orders n.load.transactions b = .ok (.ok (), between) ∧
        packBlocks env (orders.drop n.txCount) rest between = .ok (.ok (), b') := by
  simp only [packBlocks]
  by_cases large : maxTransactionsPerBlock < n.txCount
  · simp [large, Nat.not_le.mpr large]
  · simp only [large, if_false, Nat.le_of_not_lt large, true_and, seq_eq_ok]

lemma packTxs_pools (ran : packTxs env height orders txs b = .ok (.ok (), b')) :
    b'.head = b.head ∧ b'.packed = b.packed.addAll txs ∧
      b'.unpacked = b.unpacked.deleteAll txs := by
  induction txs generalizing orders b with
  | nil =>
    rw [packTxs_nil.mp ran]
    exact ⟨rfl, rfl, rfl⟩
  | cons v rest ih =>
    obtain ⟨between, first, later⟩ := packTxs_cons.mp ran
    obtain ⟨-, -, preview, -, rfl⟩ := packTx_eq_ok.mp first
    have pools := ih later
    exact pools

lemma packBlocks_pools (ran : packBlocks env orders nodes b = .ok (.ok (), b')) :
    b'.head = b.head ∧ b'.packed = b.packed.addAll (nodes.flatMap fun n => n.load.transactions) ∧
      b'.unpacked = b.unpacked.deleteBlocks nodes := by
  induction nodes generalizing orders b with
  | nil =>
    rw [packBlocks_nil.mp ran]
    exact ⟨rfl, rfl, rfl⟩
  | cons n rest ih =>
    obtain ⟨-, between, first, later⟩ := packBlocks_cons.mp ran
    obtain ⟨head, packed, unpacked⟩ := packTxs_pools first
    obtain ⟨head', packed', unpacked'⟩ := ih later
    rw [packed', unpacked', packed, unpacked]
    refine ⟨head'.trans head, ?_, rfl⟩
    simp only [TxPool.addAll, flatMap_cons, foldl_append]

lemma packTxs_distinct (ran : packTxs env height orders txs b = .ok (.ok (), b')) :
    (txs.map Transaction.hash).Nodup ∧
      ∀ hash ∈ txs.map Transaction.hash, b.packed.contains hash = false := by
  induction txs generalizing orders b with
  | nil => simp
  | cons v rest ih =>
    obtain ⟨between, first, later⟩ := packTxs_cons.mp ran
    obtain ⟨-, fresh, preview, -, rfl⟩ := packTx_eq_ok.mp first
    obtain ⟨differ, absent⟩ := ih later
    have other : ∀ hash ∈ rest.map Transaction.hash,
        hash ≠ v.hash ∧ b.packed.contains hash = false := by
      intro hash member
      have missing := absent hash member
      by_cases same : hash = v.hash
      · simp [TxPool.contains, same] at missing
      · exact ⟨same, by simpa [TxPool.contains, same] using missing⟩
    rw [map_cons, nodup_cons]
    refine ⟨⟨fun member => (other _ member).1 rfl, differ⟩, ?_⟩
    intro hash member
    rcases mem_cons.mp member with rfl | member
    · exact fresh
    · exact (other hash member).2

lemma packBlocks_distinct (ran : packBlocks env orders nodes b = .ok (.ok (), b')) :
    (nodes.flatMap fun n => n.load.getTxHashes).Nodup ∧
      ∀ hash ∈ nodes.flatMap fun n => n.load.getTxHashes, b.packed.contains hash = false := by
  induction nodes generalizing orders b with
  | nil => simp
  | cons n rest ih =>
    obtain ⟨-, between, first, later⟩ := packBlocks_cons.mp ran
    obtain ⟨differ, absent⟩ := packTxs_distinct first
    obtain ⟨differ', absent'⟩ := ih later
    have other : ∀ hash ∈ rest.flatMap fun n => n.load.getTxHashes,
        hash ∉ n.load.getTxHashes ∧ b.packed.contains hash = false := by
      intro hash member
      have missing := absent' hash member
      rw [(packTxs_pools first).2.1, Bool.eq_false_iff, ne_eq, TxPool.contains_addAll,
        not_or] at missing
      exact ⟨missing.2, by simpa using missing.1⟩
    rw [flatMap_cons, nodup_append]
    refine ⟨⟨differ, differ', ?_⟩, ?_⟩
    · rintro hash here _ there rfl
      exact (other hash there).1 here
    · intro hash member
      rcases mem_append.mp member with here | there
      · exact absent hash here
      · exact (other hash there).2

lemma packUnpacked_pools
    (ran : Branch.packUnpacked env h packCount orders txs out b = .ok (out', cpy)) :
    ∃ new, out' = out ++ new ∧ new.Sublist txs ∧ cpy.head = b.head ∧
      cpy.packed = b.packed.addAll new ∧ cpy.unpacked = b.unpacked.deleteAll new := by
  induction txs generalizing orders out b with
  | nil =>
    simp only [Branch.packUnpacked] at ran
    cases ran
    exact ⟨[], by simp, .slnil, rfl, rfl, rfl⟩
  | cons v rest ih =>
    simp only [Branch.packUnpacked] at ran
    split at ran
    · simp at ran
    · obtain ⟨new, rfl, listed, pools⟩ := ih ran
      exact ⟨new, rfl, listed.cons v, pools⟩
    · split at ran
      · cases ran
        exact ⟨[v], rfl, (nil_sublist rest).cons_cons v, rfl, rfl, rfl⟩
      · obtain ⟨new, rfl, listed, pools⟩ := ih ran
        exact ⟨v :: new, by simp, listed.cons_cons v, pools⟩

lemma packAndSign_eq_ok (signed : BPBlock.packAndSign env header txs priv = some (.ok bl)) :
    bl.transactions = txs ∧ env.bpHeaderHash bl.header = some bl.blockHash ∧
      ∃ root, BPBlock.merkleRoot env txs = some root ∧
        bl.header = { header with merkleRoot := root } := by
  unfold BPBlock.packAndSign at signed
  simp only [Option.map_eq_some_iff] at signed
  obtain ⟨root, rooted, packed⟩ := signed
  split at packed
  · simp at packed
  · rename_i hash hashed
    split at packed
    · simp at packed
    · simp only [Except.ok.injEq] at packed
      rw [← packed]
      exact ⟨rfl, hashed, root, rooted, rfl⟩

lemma Branch.applyBlock_eq_ok : b.applyBlock env orders n = .ok (.ok br, origin) ↔
      b.head.hash = n.load.parentHash ∧ n.txCount ≤ maxTransactionsPerBlock ∧
      ∃ cpy, packTxs env n.height orders n.load.transactions b.makeArena = .ok (.ok (), cpy) ∧
        br = { cpy with head := n } ∧ origin = b.shareReadonly cpy := by
  unfold Branch.applyBlock
  by_cases linked : b.head.hash = n.load.parentHash
  · by_cases small : n.txCount ≤ maxTransactionsPerBlock
    · rw [if_neg (not_not.mpr linked), if_neg (Nat.not_lt.mpr small)]
      rcases packTxs env n.height orders n.load.transactions b.makeArena with
        reason | ⟨error | value, cpy⟩
      · simp
      · simp
      · simp [linked, small, eq_comm]
    · simp [linked, small, Nat.lt_of_not_le small]
  · simp [linked]

lemma Branch.produceBlock_eq_ok
    (ran : b.produceBlock env orders txs h ts addr signer = .ok (.ok (br, bl), origin)) :
    ∃ cpy, Branch.packUnpacked env h (min maxTransactionsPerBlock txs.length) orders txs []
        b.makeArena = .ok (bl.transactions, cpy) ∧
      br = { cpy with head := newBlockNode h bl (some b.head) } ∧
      origin = b.shareReadonly cpy ∧ env.bpHeaderHash bl.header = some bl.blockHash ∧
      bl.parentHash = b.head.hash ∧ bl.timestamp = ts := by
  simp only [Branch.produceBlock] at ran
  split at ran
  · simp at ran
  · rename_i out cpy packing
    split at ran
    · simp at ran
    · simp at ran
    · rename_i block signed
      simp only [Except.ok.injEq, Prod.mk.injEq] at ran
      obtain ⟨⟨rfl, rfl⟩, rfl⟩ := ran
      obtain ⟨transactions, hashed, root, -, header⟩ := packAndSign_eq_ok signed
      obtain ⟨-, -, -, kept, -⟩ := packUnpacked_pools packing
      have head : cpy.head = b.head := kept
      refine ⟨cpy, by rw [transactions]; exact packing, by rw [head], rfl, hashed, ?_, ?_⟩
      · rw [BPBlock.parentHash, header, head]
      · rw [BPBlock.timestamp, header]

lemma newBranch_eq_ok {base head s} (ran : newBranch env orders base head s pool = .ok (.ok br)) :
    ∃ inst, packBlocks env orders (head.fetchNodeList (base.count + 1))
        ⟨head, s.makeCopy, .empty, pool⟩ = .ok (.ok (), inst) ∧
      br = { inst with preview := inst.preview.commit } := by
  simp only [newBranch] at ran
  split at ran
  · simp at ran
  · simp at ran
  · rename_i inst packed
    exact ⟨inst, packed, (Except.ok.inj (Except.ok.inj ran)).symm⟩

end SQLess.BlockProducer
