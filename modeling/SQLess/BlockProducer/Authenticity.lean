import SQLess.BlockProducer.Production

/-! What acceptance of a block guarantees. -/

namespace SQLess.BlockProducer

open Lib List

variable {p : Transaction} {received : BPBlock → Prop} {producing : Prop}

section

variable {env : Env} {choice : Choice} {c c' : Chain} {bl : BPBlock}

def Chain.grownBranch (c : Chain) (bl : BPBlock) : Option (Branch × Nat) :=
  c.branches.zipIdx.find? fun entry => entry.1.head.hash = bl.parentHash

inductive Accepted (env : Env) (c : Chain) (bl : BPBlock) (c' : Chain) : Prop
  | known (noHead : c.grownBranch bl = none) (present : c.knownBlock bl = true) (same : c' = c)
  | grown (v i orders br origin) (located : c.grownBranch bl = some (v, i))
      (ran : v.applyBlock env orders (c.newNode bl v.head) = .ok (.ok br, origin))
      (placed : ∃ b ∈ c'.branches, b.head = c.newNode bl v.head)
  | forked (parent orders br) (noHead : c.grownBranch bl = none)
      (unknown : c.knownBlock bl = false) (found : c.findParent bl = some parent)
      (ran : newBranch env orders c.lastIrre (c.newNode bl parent) c.immutable c.txPool =
        .ok (.ok br))
      (placed : br ∈ c'.branches)

variable {pool : TxPool}

lemma grownBranch_spec (located : c.grownBranch bl = some (v, i)) :
    c.branches[i]? = some v ∧ v.head.hash = bl.parentHash := by
  unfold Chain.grownBranch at located
  have linked := List.find?_some located
  exact ⟨mem_zipIdx_iff_getElem?.mp (mem_of_find?_eq_some located), of_decide_eq_true linked⟩

lemma applyBlock_head {v br origin : Branch}
    (ran : v.applyBlock env orders n = .ok (.ok br, origin)) :
    br.head = n ∧ origin.head = v.head := by
  obtain ⟨-, -, cpy, -, rfl, rfl⟩ := Branch.applyBlock_eq_ok.mp ran
  exact ⟨rfl, rfl⟩

lemma replaceAndSwitchToBranch_placed (inside : i < c.branches.length)
    (ran : Chain.replaceAndSwitchToBranch env choice bl i br c = .ok (.ok (), c')) :
    ∃ b ∈ c'.branches, b.head = br.head := by
  unfold Chain.replaceAndSwitchToBranch at ran
  split at ran
  · simp at ran
  · split at ran
    · simp at ran
    · simp at ran
    · rename_i switch prepared _ storage saved
      simp only [Except.ok.injEq, Prod.mk.injEq, true_and] at ran
      have headAt : (c.finishSwitch storage i br switch).HeadAt := finishSwitch_headAt inside
      rw [← ran]
      refine ⟨_, mem_of_getElem? headAt, ?_⟩
      simp only [Chain.finishSwitch, Branch.clearTxs_head]
      rfl

lemma growBranch_placed (found : c.branches[i]? = some v)
    (ran : Chain.growBranch env choice bl i v c = .ok (.ok (), c')) :
    ∃ br origin, v.applyBlock env choice.branchOrders (c.newNode bl v.head) = .ok (.ok br, origin) ∧
      ∃ b ∈ c'.branches, b.head = c.newNode bl v.head := by
  obtain ⟨inside, -⟩ := List.getElem?_eq_some_iff.mp found
  unfold Chain.growBranch at ran
  split at ran
  · simp at ran
  · simp at ran
  · rename_i br origin applied
    refine ⟨br, origin, applied, ?_⟩
    rw [← (applyBlock_head applied).1]
    simp only at ran
    split at ran
    · split at ran
      · simp at ran
      · simp at ran
      · cases ran
        refine ⟨br.commitPreview, mem_of_getElem? (i := i) ?_, rfl⟩
        exact List.getElem?_set_self (by simpa [Chain.setBranch] using inside)
    · exact replaceAndSwitchToBranch_placed (by simpa [Chain.setBranch] using inside) ran

lemma forkBranch_placed (ran : Chain.forkBranch env choice bl parent c = .ok (.ok (), c')) :
    ∃ br, newBranch env choice.branchOrders c.lastIrre (c.newNode bl parent) c.immutable
        c.txPool = .ok (.ok br) ∧ br ∈ c'.branches := by
  unfold Chain.forkBranch at ran
  split at ran
  · simp at ran
  · simp at ran
  · rename_i br built
    split at ran
    · simp at ran
    · simp at ran
    · cases ran
      exact ⟨br, built, by simp⟩

lemma applyBlock_accepted (ran : Chain.applyBlock env choice bl c = .ok (.ok (), c')) :
    Accepted env c bl c' := by
  unfold Chain.applyBlock at ran
  split at ran
  · rename_i v i located
    obtain ⟨found, -⟩ := grownBranch_spec located
    obtain ⟨br, origin, applied, placed⟩ := growBranch_placed found ran
    exact .grown v i _ br origin located applied placed
  · rename_i noHead
    split at ran
    · rename_i present
      simp only [Except.ok.injEq, Prod.mk.injEq, true_and] at ran
      exact .known noHead present ran.symm
    · rename_i unknown
      split at ran
      · rename_i parent found
        obtain ⟨br, built, placed⟩ := forkBranch_placed ran
        exact .forked parent _ br noHead (Bool.eq_false_iff.mpr unknown) found built placed
      · simp at ran

lemma pushBlock_accepted (ran : Chain.pushBlock env choice bl c = .ok (.ok (), c')) :
    bl.verify env = some (.ok ()) ∧ Accepted env c bl c' := by
  unfold Chain.pushBlock at ran
  split at ran
  · simp at ran
  · simp at ran
  · rename_i verified
    have returned : Chain.applyBlock env choice bl c = .ok (.ok (), c') := by
      split at ran
      · simp at ran
      · exact ran
    exact ⟨verified, applyBlock_accepted returned⟩

lemma packTxs_verified (ran : packTxs env height orders txs b = .ok (.ok (), b')) :
    (∀ v ∈ txs, b.unpacked.contains v.hash = true ∨ v.verify env = .ok ()) ∧
      ∀ hash, b'.unpacked.contains hash = true → b.unpacked.contains hash = true := by
  induction txs generalizing orders b with
  | nil =>
    rw [packTxs_nil.mp ran]
    exact ⟨by simp, fun _ kept => kept⟩
  | cons v rest ih =>
    obtain ⟨between, first, later⟩ := packTxs_cons.mp ran
    obtain ⟨checked, -, preview, -, rfl⟩ := packTx_eq_ok.mp first
    obtain ⟨verified, kept⟩ := ih later
    have shrunk : ∀ hash, (b.unpacked.delete v.hash).contains hash = true →
        b.unpacked.contains hash = true := by
      intro hash found
      rw [TxPool.contains, TxPool.get_delete] at found
      split at found
      · simp at found
      · exact found
    refine ⟨?_, fun hash found => shrunk hash (kept hash found)⟩
    intro w member
    rcases mem_cons.mp member with rfl | inside
    · exact checked
    · exact (verified w inside).imp (shrunk w.hash) id

lemma packBlocks_verified (ran : packBlocks env orders nodes b = .ok (.ok (), b')) :
    ∀ n ∈ nodes, ∀ v ∈ n.load.transactions,
      b.unpacked.contains v.hash = true ∨ v.verify env = .ok () := by
  induction nodes generalizing orders b with
  | nil => simp
  | cons n rest ih =>
    obtain ⟨-, between, first, later⟩ := packBlocks_cons.mp ran
    obtain ⟨verified, kept⟩ := packTxs_verified first
    intro m member v inside
    rcases mem_cons.mp member with rfl | further
    · exact verified v inside
    · exact (ih later m further v inside).imp (kept v.hash) id

def Chain.checkedPool (c : Chain) (bl : BPBlock) : Option TxPool :=
  match c.grownBranch bl with
  | some (v, _) => some v.unpacked
  | none => if c.knownBlock bl then none else some c.txPool

lemma Accepted.verified (accepted : Accepted env c bl c') (checked : c.checkedPool bl = some pool) :
    ∀ v ∈ bl.transactions, pool.contains v.hash = true ∨ v.verify env = .ok () := by
  cases accepted with
  | known noHead present => simp [Chain.checkedPool, noHead, present] at checked
  | grown v i orders br origin located ran =>
    simp only [Chain.checkedPool, located] at checked
    cases checked
    obtain ⟨-, -, cpy, packed, -, -⟩ := Branch.applyBlock_eq_ok.mp ran
    have verified := (packTxs_verified packed).1
    exact verified
  | forked parent orders br noHead unknown found ran =>
    simp only [Chain.checkedPool, noHead, unknown, Bool.false_eq_true, if_false] at checked
    cases checked
    obtain ⟨v, member, located⟩ := exists_of_findSome?_eq_some found
    obtain ⟨-, -, above⟩ := BlockNode.hasAncestorWithMinCount_eq_some located
    have listed : c.newNode bl parent ∈
        (c.newNode bl parent).fetchNodeList (c.lastIrre.count + 1) := by
      have inside : ¬parent.count + 1 < c.lastIrre.count + 1 := by omega
      simp [Chain.newNode, Config.newNode, newBlockNode, BlockNode.fetchNodeList, inside]
    obtain ⟨inst, packed, -⟩ := newBranch_eq_ok ran
    have verified := packBlocks_verified packed _ listed
    exact verified

lemma verify_signed {v : Transaction} (signed : v.signed = some (header, impl)) :
    v.verify env = .ok () ↔
      env.txHeaderHash header = some v.hash ∧ impl.signatureValid env = true := by
  rw [Transaction.verify, Transaction.hash, signed]
  exact HashSignVerifier.verify_eq_ok env impl _

def Copies (env : Env) (v p : Transaction) : Prop :=
  ∀ header impl, v.signed = some (header, impl) →
    impl.signatureValid env = true ∧ ∃ impl', p.signed = some (header, impl')

/-- No two headers of the given ones have the same hash, and none has the hash of a base
account. -/
structure TxCollisionFree (env : Env) (known : TxHeader → Prop) : Prop where
  injective : ∀ header header' hash, known header → known header' →
    env.txHeaderHash header = some hash → env.txHeaderHash header' = some hash → header = header'
  nonzero : ∀ header, known header → env.txHeaderHash header ≠ some 0

def HeaderIn (known : TxHeader → Prop) (v : Transaction) : Prop :=
  ∀ header impl, v.signed = some (header, impl) → known header

lemma copies_of_verified (free : TxCollisionFree env known)
    (vKnown : HeaderIn known v) (pKnown : HeaderIn known p) (same : p.hash = v.hash)
    (vVerified : v.verify env = .ok ()) (pVerified : p.verify env = .ok ()) : Copies env v p := by
  intro header impl signed
  obtain ⟨hashed, valid⟩ := (verify_signed signed).mp vVerified
  refine ⟨valid, ?_⟩
  rcases pSigned : p.signed with _ | ⟨header', impl'⟩
  · -- a base account has the zero hash
    have zero : p.hash = 0 := by rw [Transaction.hash, pSigned]
    rw [← same, zero] at hashed
    exact absurd hashed (free.nonzero header (vKnown header impl signed))
  · obtain ⟨hashed', -⟩ := (verify_signed pSigned).mp pVerified
    rw [same] at hashed'
    obtain rfl := free.injective header header' _ (vKnown header impl signed)
      (pKnown header' impl' pSigned) hashed hashed'
    exact ⟨impl', rfl⟩

lemma verified_of_copies (copies : Copies env v p) (same : p.hash = v.hash)
    (pVerified : p.verify env = .ok ()) : v.verify env = .ok () := by
  rcases signed : v.signed with _ | ⟨header, impl⟩
  · rw [Transaction.verify, signed]
  · obtain ⟨valid, impl', pSigned⟩ := copies header impl signed
    obtain ⟨hashed, -⟩ := (verify_signed pSigned).mp pVerified
    exact (verify_signed signed).mpr ⟨by rw [hashed, same], valid⟩

def TxPool.Vetted (env : Env) (pool : TxPool) : Prop :=
  ∀ hash p, pool.get hash = some p → p.verify env = .ok ()

structure Chain.Vetted (env : Env) (c : Chain) : Prop where
  txPool : c.txPool.Vetted env
  branches : ∀ b ∈ c.branches, b.unpacked.Vetted env

section

variable (vetted : pool.Vetted env)
include vetted

lemma TxPool.Vetted.deleteAll (txs) : (pool.deleteAll txs).Vetted env := by
  intro hash p found
  rw [TxPool.get_deleteAll] at found
  split at found
  · simp at found
  · exact vetted hash p found

lemma TxPool.Vetted.deleteBlocks (nodes) : (pool.deleteBlocks nodes).Vetted env := by
  intro hash p found
  rw [TxPool.get_deleteBlocks] at found
  split at found
  · simp at found
  · exact vetted hash p found

lemma TxPool.Vetted.keep (test) : (pool.keep test).Vetted env := by
  intro hash p found
  rw [TxPool.get_keep] at found
  exact vetted hash p (Option.filter_eq_some_iff.mp found).1

lemma TxPool.Vetted.add (verified : tx.verify env = .ok ()) : (pool.add tx).Vetted env := by
  intro hash p found
  rw [TxPool.get_add] at found
  split at found
  · rw [← Option.some.inj found]
    exact verified
  · exact vetted hash p found

end

lemma Effect.vetted (effect : Effect env received producing c c') (vetted : c.Vetted env)
    (pool : c'.txPool.Vetted env) : c'.Vetted env := by
  refine ⟨pool, effect.each vetted.branches ?_ ?_ ?_ ?_ ?_⟩
  · intro tx added b unpacked
    have verified : tx.verify env = .ok () := pool tx.hash tx (by simp [added])
    simp only [Branch.addTx]
    split
    · exact unpacked
    · split
      · exact unpacked
      · exact unpacked.add verified
  · intro v result origin unpacked attempt
    obtain ⟨readonly, rfl⟩ := attempt.origin_eq
    exact unpacked
  · intro v br bl origin unpacked attempt
    change br.unpacked.Vetted env
    rw [attempt.pools.2]
    exact unpacked.deleteAll bl.transactions
  · intro orders bl parent br seen found ran
    obtain ⟨inst, packed, rfl⟩ := newBranch_eq_ok ran
    simp only [(packBlocks_pools packed).2.2]
    exact vetted.txPool.deleteBlocks _
  · intro nodes expired b unpacked
    rw [Branch.clearTxs_unpacked, TxPool.deletePool]
    exact unpacked.keep _

lemma PoolShrinks.vetted (shrinks : PoolShrinks c c') (vetted : c.Vetted env) :
    c'.txPool.Vetted env :=
  fun hash p found => vetted.txPool hash p (shrinks hash p found)

lemma storeTx_vetted (verified : tx.verify env = .ok ())
    (vetted : c.Vetted env) (ran : Chain.storeTx stored tx c = .ok (result, c')) :
    c'.txPool.Vetted env := by
  unfold Chain.storeTx at ran
  split at ran
  · cases ran
    exact vetted.txPool
  · split at ran
    · simp at ran
    · cases ran
      exact vetted.txPool
    · cases ran
      exact vetted.txPool.add verified

lemma Served.vetted (headAt : c.HeadAt)
    (served : Served env received producing c c') (vetted : c.Vetted env) : c'.Vetted env := by
  cases served with
  | addTx stored tx result ran =>
    rcases processAddTxReq_cases ran with rfl | ⟨verified, result', stored⟩
    · exact vetted
    · have effect : Effect env received producing c c' := storeTx_effect stored
      exact effect.vetted vetted (storeTx_vetted verified vetted stored)
  | pushBlock choice bl result seen ran =>
    rcases pushBlock_cases ran with rfl | ⟨verified, result', applied⟩
    · exact vetted
    · obtain ⟨effect, shrinks⟩ : BlockEffect env received producing c c' :=
        applyBlock_effect headAt seen verified applied
      exact effect.vetted vetted (shrinks.vetted vetted)
  | produceBlock choice txs now priv result allowed sorted made ran =>
    obtain ⟨effect, shrinks⟩ := produceAndStoreBlock_effect headAt allowed sorted made ran
    exact effect.vetted vetted (shrinks.vetted vetted)

lemma served_vetted (opened : Opened env config c)
    (served : Relation.ReflTransGen (Served env received producing) c c') : c'.Vetted env := by
  obtain ⟨-, st, -, rfl⟩ := opened_eq opened
  have start : (genesisChain config st).HeadAt ∧ (genesisChain config st).Vetted env := by
    refine ⟨rfl, ?_, ?_⟩
    · intro hash p found
      simp [genesisChain] at found
    · intro b member hash p found
      rw [genesisChain, mem_singleton] at member
      rw [member] at found
      simp [genesisBranch] at found
  have kept : c'.HeadAt ∧ c'.Vetted env := by
    induction served with
    | refl => exact start
    | tail _ step ih =>
      exact ⟨(step.run.preserves (fun _ => True) ih.1 trivial fun _ _ _ _ _ => trivial).1,
        step.vetted ih.1 ih.2⟩
  exact kept.2

lemma Chain.Vetted.checkedPool (vetted : c.Vetted env)
    (checked : c.checkedPool bl = some pool) : pool.Vetted env := by
  simp only [Chain.checkedPool] at checked
  split at checked
  · rename_i v i located
    rw [← Option.some.inj checked]
    exact vetted.branches v (mem_of_getElem? (grownBranch_spec located).1)
  · split at checked
    · simp at checked
    · rw [← Option.some.inj checked]
      exact vetted.txPool

theorem pushBlock_authentic_iff {known : TxHeader → Prop} {pool : TxPool}
    (free : TxCollisionFree env known)
    (blockKnown : ∀ v ∈ bl.transactions, HeaderIn known v)
    (poolKnown : ∀ hash p, pool.get hash = some p → HeaderIn known p)
    (vetted : c.Vetted env) (checked : c.checkedPool bl = some pool)
    (accepted : Chain.pushBlock env choice bl c = .ok (.ok (), c')) :
    (∀ v ∈ bl.transactions, v.verify env = .ok ()) ↔
      ∀ v ∈ bl.transactions, ∀ p, pool.get v.hash = some p → Copies env v p := by
  have poolVetted := vetted.checkedPool checked
  constructor
  · intro verified v member p found
    exact copies_of_verified free (blockKnown v member) (poolKnown v.hash p found)
      (TxPool.hash_of_get found) (verified v member) (poolVetted v.hash p found)
  · intro copies v member
    rcases (pushBlock_accepted accepted).2.verified checked v member with pooled | verified
    · obtain ⟨p, found⟩ := TxPool.contains_eq_true.mp pooled
      exact verified_of_copies (copies v member p found) (TxPool.hash_of_get found)
        (poolVetted v.hash p found)
    · exact verified

lemma BPBlock.verify_eq_ok (bl : BPBlock) : bl.verify env = some (.ok ()) ↔
      BPBlock.merkleRoot env bl.transactions = some bl.header.merkleRoot ∧
      env.bpHeaderHash bl.header = some bl.blockHash ∧ bl.verifier.signatureValid env = true := by
  unfold BPBlock.verify BPBlock.verifyMerkleRoot
  rcases BPBlock.merkleRoot env bl.transactions with _ | root
  · simp
  · by_cases same : root = bl.header.merkleRoot
    · simp only [Option.map_some, same, if_true, Option.some.injEq, true_and]
      exact HashSignVerifier.verify_eq_ok env bl.verifier _
    · simp [same]

/-- An accepted block is intact and signed by the key it carries, and is the child of a block on a
live branch. -/
theorem pushBlock_intact (accepted : Chain.pushBlock env choice bl c = .ok (.ok (), c')) :
    BPBlock.merkleRoot env bl.transactions = some bl.header.merkleRoot ∧
    env.bpHeaderHash bl.header = some bl.blockHash ∧
    (∃ key signature, bl.verifier.signee = some key ∧ bl.verifier.signature = some signature ∧
      env.verifySignature signature bl.blockHash key = true) ∧
    (c.knownBlock bl = true ∧ c' = c ∨
      ∃ v ∈ c.branches, ∃ parent ∈ v.head.path, parent.hash = bl.parentHash ∧
        (parent = v.head ∨ c.lastIrre.count ≤ parent.count) ∧
        ∃ b ∈ c'.branches, b.head = c.newNode bl parent) := by
  obtain ⟨verified, placed⟩ := pushBlock_accepted accepted
  obtain ⟨root, hashed, valid⟩ := (BPBlock.verify_eq_ok bl).mp verified
  refine ⟨root, hashed, ?_, ?_⟩
  · unfold HashSignVerifier.signatureValid at valid
    split at valid
    · rename_i signature key signed carried
      exact ⟨key, signature, carried, signed, valid⟩
    · simp at valid
  · cases placed with
    | known noHead present same => exact .inl ⟨present, same⟩
    | grown v i orders br origin located ran placed =>
      obtain ⟨found, linked⟩ := grownBranch_spec located
      exact .inr ⟨v, mem_of_getElem? found, v.head, v.head.self_mem_path, linked, .inl rfl, placed⟩
    | forked parent orders br noHead unknown found ran placed =>
      obtain ⟨v, member, located⟩ := exists_of_findSome?_eq_some found
      obtain ⟨onPath, linked, above⟩ := BlockNode.hasAncestorWithMinCount_eq_some located
      exact .inr ⟨v, member, parent, onPath, linked, .inr above, br, placed, newBranch_head ran⟩

end

namespace Sample

noncomputable def requested : Chain := submit (pay 1 2 1 10) funded

lemma requested_served (received) :
    Relation.ReflTransGen (Served env received False) funded requested :=
  .single (.addTx true (pay 1 2 1 10) _ rfl)

lemma requested_vetted : requested.Vetted env :=
  served_vetted funded_opened (requested_served fun _ => False)

lemma requested_checked (parent : bl.parentHash = 1000) :
    requested.checkedPool bl = some requested.headBranch.unpacked := by
  simp only [Chain.checkedPool, Chain.grownBranch, parent]
  rfl

lemma requested_pool {hash} (found : requested.headBranch.unpacked.get hash = some p) :
    p = pay 1 2 1 10 := by
  have keys : requested.headBranch.unpacked.txs.keys = {(pay 1 2 1 10).hash} := by decide
  have read : requested.headBranch.unpacked.get (pay 1 2 1 10).hash = some (pay 1 2 1 10) := by
    decide
  have member := FiniteMap.mem_keys_of_get found
  rw [keys, Finset.mem_singleton] at member
  rw [member, read] at found
  exact (Option.some.inj found).symm

end Sample

open Sample in
theorem pushBlock_authentic_paid :
    ∃ c', Chain.pushBlock Sample.env choice paid requested = .ok (.ok (), c') ∧
      requested.headBranch.unpacked.contains (pay 1 2 1 10).hash = true ∧
      ∀ v ∈ paid.transactions, v.verify Sample.env = .ok () := by
  have accepted : Chain.pushBlock Sample.env choice paid requested = .ok (.ok (), _) := rfl
  have free : TxCollisionFree Sample.env (· = .transfer (payment 1 2 1 10).header) :=
    ⟨fun header header' hash left right _ _ => by rw [left, right],
      fun header same => by rw [same]; decide⟩
  have known : HeaderIn (· = .transfer (payment 1 2 1 10).header) (pay 1 2 1 10) := by
    rintro header impl ⟨⟩
    rfl
  refine ⟨_, accepted, by decide, ?_⟩
  refine (pushBlock_authentic_iff free ?_ ?_ requested_vetted
    (requested_checked rfl) accepted).mpr ?_
  · intro v member
    rw [mem_singleton.mp member]
    exact known
  · intro hash p found
    rw [requested_pool found]
    exact known
  · intro v member p found
    rw [mem_singleton.mp member, requested_pool found]
    rintro header impl ⟨⟩
    exact ⟨by decide, _, rfl⟩

open Sample in
/-- A block with the forgery of a pooled payment is accepted, and the forged amount is paid. -/
theorem pushBlock_forged :
    Relation.ReflTransGen (Served Sample.env (fun _ => False) False) funded requested ∧
    requested.Vetted Sample.env ∧ ∃ c',
      Chain.pushBlock Sample.env choice forged requested = .ok (.ok (), c') ∧
      forged.transactions = [forgery] ∧ forgery.verify Sample.env = .error .hashValueNotMatch ∧
      (c'.headBranch.preview.view.accounts.get 2).map (fun o => o.tokenBalance.particle) =
        some 20 :=
  ⟨requested_served _, requested_vetted, _, rfl, rfl, by decide, by decide⟩

namespace Sample

def impostor : BPBlock :=
  { block 1010 1005 [] with
    verifier := ⟨1005, some ⟨9, 0⟩, some ⟨9, 1005⟩⟩ }

end Sample

open Sample in
theorem pushBlock_intact_paid :
    ∃ c', Chain.pushBlock Sample.env choice paid requested = .ok (.ok (), c') ∧
      ∃ v ∈ requested.branches, ∃ parent ∈ v.head.path, parent.hash = 1000 ∧
        ∃ b ∈ c'.branches, b.head = requested.newNode paid parent := by
  have accepted : Chain.pushBlock Sample.env choice paid requested = .ok (.ok (), _) := rfl
  rcases (pushBlock_intact accepted).2.2.2 with
    ⟨known, -⟩ | ⟨v, member, parent, onPath, linked, -, placed⟩
  · have unknown : requested.knownBlock paid = false := by decide
    simp [unknown] at known
  · exact ⟨_, accepted, v, member, parent, onPath, linked, placed⟩

open Sample in
theorem pushBlock_impostor :
    ∃ c c', Relation.ReflTransGen (Served Sample.env (· ∈ [paid]) False) funded c ∧
      Chain.pushBlock Sample.env choice impostor c = .ok (.ok (), c') ∧
      c'.headBranch.head.load = impostor ∧
      pubKeyHash Sample.env impostor.verifier.signee = .ok 9 ∧ impostor.producer = 7 ∧
      c'.headBranch.head.height = 5 ∧ c'.headBranch.head.parent.map BlockNode.height = some 10 := by
  have pushed : Chain.pushBlock Sample.env choice paid requested = .ok (.ok (), _) := rfl
  exact ⟨_, _, (requested_served _).tail (.pushBlock choice paid _ (by simp) pushed), rfl,
    by decide, by decide, by decide, by decide, by decide⟩

end SQLess.BlockProducer
