import SQLess.BlockProducer.BlockNode
import SQLess.BlockProducer.Branch
import SQLess.BlockProducer.ChainCore
import Mathlib.Data.Multiset.Sort
import Mathlib.Logic.Relation

/-! Runs of a chain. -/

namespace SQLess.BlockProducer

open Lib List Branch

variable {st : Storage} {c : Chain} {lastIrre : BlockNode} {originBrIdx idx : Nat} {b : Branch}
  {rest brs : List Branch}

inductive Step (env : Env) (known : BPBlock → Prop) (producing : Prop) (c c' : Chain) : Prop
  | storeTx (stored tx result) (ran : Chain.storeTx stored tx c = .ok (result, c'))
  | applyBlock (choice bl result) (received : known bl)
      (verified : bl.verify env = some (.ok ()))
      (ran : Chain.applyBlock env choice bl c = .ok (result, c'))
  | produceAndStoreBlock (choice txs now priv result) (allowed : producing)
      (sorted : c.headBranch.SortedUnpacked env txs)
      (made : ∀ bl, result = .ok bl → known bl)
      (ran : Chain.produceAndStoreBlock env choice txs now priv c = .ok (result, c'))

abbrev Run (env : Env) (known : BPBlock → Prop) (producing : Prop) : Chain → Chain → Prop :=
  Relation.ReflTransGen (Step env known producing)

def Opened (env : Env) (config : Config) (c : Chain) : Prop :=
  ∃ choice headOrder, newChain env choice headOrder config none = .ok (.ok c)

inductive Attempt (env : Env) (known : BPBlock → Prop) (producing : Prop) (config : Config)
    (v : Branch) :
    Except Err (Branch × BPBlock) → Branch → Prop
  | received {orders bl result origin} (seen : known bl)
      (verified : bl.verify env = some (.ok ()))
      (ran : v.applyBlock env orders (config.newNode bl v.head) = .ok (result, origin)) :
      Attempt env known producing config v (result.map fun br => (br, bl)) origin
  | produced {orders txs now priv result origin} (allowed : producing)
      (sorted : v.SortedUnpacked env txs)
      (ran : v.produceBlock env orders txs (config.heightOfTime now) now config.address priv =
        .ok (result, origin)) :
      Attempt env known producing config v result origin

def Chain.switchStorage (c : Chain) (bl : BPBlock) (switch : Chain.Switch) : Storage :=
  let height := c.config.heightOfTime bl.timestamp
  let st := ((c.storage.mergeDirty switch.immutable.dirty).insertBlock height bl).indexBlock
    height bl
  { st with
    txPool := (st.txPool.deleteBlocks switch.newIrres).deletePool switch.expiredTxs
    irreversible := some switch.lastIrre.hash
    applied := st.applied ++ switch.newIrres }

inductive Effect (env : Env) (known : BPBlock → Prop) (producing : Prop) (c : Chain) : Chain → Prop
  | unchanged : Effect env known producing c c
  | pooled (tx) (fresh : c.txPool.contains tx.hash = false) :
      Effect env known producing c { c with
        storage := { c.storage with txPool := c.storage.txPool.add tx }
        txPool := c.txPool.add tx
        branches := c.branches.map (·.addTx tx)
        headBranch := c.headBranch.addTx tx }
  | attempted (i v result origin) (found : c.branches[i]? = some v)
      (attempt : Attempt env known producing c.config v result origin) :
      Effect env known producing c (c.setBranch i origin)
  | grown (i v br bl origin) (found : c.branches[i]? = some v) (seen : known bl)
      (attempt : Attempt env known producing c.config v (.ok (br, bl)) origin)
      (lower : br.head.count ≤ c.headBranch.head.count) :
      Effect env known producing c { c.setBranch i origin with
        storage := c.storage.insertBlock (c.config.heightOfTime bl.timestamp) bl
        branches := c.branches.set i br.commitPreview }
  | forked (orders bl parent br) (seen : known bl) (verified : bl.verify env = some (.ok ()))
      (noHead : ∀ v ∈ c.branches, v.head.hash ≠ bl.parentHash)
      (unknown : c.knownBlock bl = false) (found : c.findParent bl = some parent)
      (ran : newBranch env orders c.lastIrre (c.newNode bl parent) c.immutable c.txPool =
        .ok (.ok br)) :
      Effect env known producing c { c with
        storage := c.storage.insertBlock (c.config.heightOfTime bl.timestamp) bl
        branches := c.branches ++ [br] }
  | notSwitched (orders i v br bl origin switch) (found : c.branches[i]? = some v)
      (attempt : Attempt env known producing c.config v (.ok (br, bl)) origin)
      (prepared : c.prepareSwitch env orders br = .ok switch) :
      Effect env known producing c { c.setBranch i origin with immutable := switch.immutable.clean }
  | switched (orders i v br bl origin switch) (found : c.branches[i]? = some v) (seen : known bl)
      (attempt : Attempt env known producing c.config v (.ok (br, bl)) origin)
      (higher : i = c.headIndex ∨ c.headBranch.head.count < br.head.count)
      (prepared : c.prepareSwitch env orders br = .ok switch) :
      Effect env known producing c
        ((c.setBranch i origin).finishSwitch (c.switchStorage bl switch) i br switch)

lemma store_eq_ok (ran : store stored sps st = .ok (.ok st')) :
    store.runProcedures sps st = .ok st' := by
  unfold store at ran
  split at ran
  · cases finished : store.runProcedures sps st with
    | error => simp [finished, Except.map] at ran
    | ok => simpa [finished, Except.map] using ran
  · simp at ran

lemma runProcedures_append (left right st) : store.runProcedures (left ++ right) st =
      match store.runProcedures left st with
      | .error reason => .error reason
      | .ok st => store.runProcedures right st := by
  induction left generalizing st with
  | nil => rfl
  | cons sp rest ih =>
    simp only [cons_append, store.runProcedures]
    cases sp st with
    | error => rfl
    | ok after => exact ih after

lemma runProcedures_deleteTxs (nodes st) :
    store.runProcedures (nodes.map fun n => deleteTxs n.load.transactions) st =
      .ok { st with txPool := st.txPool.deleteBlocks nodes } := by
  induction nodes generalizing st with
  | nil => rfl
  | cons n rest ih =>
    simp only [map_cons, store.runProcedures, deleteTxs, ih]
    rfl

lemma store_switch (ran : store stored (c.switchProcedures bl switch) c.storage = .ok (.ok st)) :
    st = c.switchStorage bl switch := by
  have finished := store_eq_ok ran
  rw [Chain.switchProcedures, runProcedures_append, runProcedures_append] at finished
  simp only [store.runProcedures, compileChanges] at finished
  by_cases refused : ∃ id ∈ switch.immutable.dirty.databases.keys,
      hasNilPermission (switch.immutable.dirty.databases.get id).join = true
  · simp [refused] at finished
  · simp only [refused, if_false, addBlock, buildBlockIndex, runProcedures_deleteTxs,
      deleteExpiredTxs, updateIrreversible, recordApplied, Except.ok.injEq] at finished
    rw [← finished]
    rfl

def Chain.HeadAt (c : Chain) : Prop := c.branches[c.headIndex]? = some c.headBranch

section

variable {env : Env} {known : BPBlock → Prop} {producing : Prop}

lemma BPBlock.hash_of_verify {bl : BPBlock} (verified : bl.verify env = some (.ok ())) :
    env.bpHeaderHash bl.header = some bl.blockHash := by
  unfold BPBlock.verify at verified
  simp only [Option.map_eq_some_iff] at verified
  obtain ⟨checked, -, accepted⟩ := verified
  split at accepted
  · simp at accepted
  · exact ((HashSignVerifier.verify_eq_ok _ _ _).mp accepted).1

variable {c' : Chain} {bl : BPBlock} {config : Config} {v br origin : Branch} {i : Nat}
  {choice : Choice} {switch : Chain.Switch}

lemma Attempt.origin_eq (attempt : Attempt env known producing config v result origin) :
    ∃ readonly, origin = { v with preview := { v.preview with readonly := readonly } } := by
  cases attempt with
  | received seen verified ran =>
    unfold applyBlock at ran
    split at ran
    · cases ran
      exact ⟨v.preview.readonly, rfl⟩
    · split at ran
      · cases ran
        exact ⟨v.preview.readonly, rfl⟩
      · split at ran
        · simp at ran
        · cases ran
          exact ⟨_, rfl⟩
        · cases ran
          exact ⟨_, rfl⟩
  | produced allowed sorted ran =>
    simp only [produceBlock] at ran
    split at ran
    · simp at ran
    · split at ran
      · simp at ran
      · cases ran
        exact ⟨_, rfl⟩
      · cases ran
        exact ⟨_, rfl⟩

lemma Attempt.origin_head (attempt : Attempt env known producing config v result origin) :
    origin.head = v.head := by
  obtain ⟨readonly, rfl⟩ := attempt.origin_eq
  rfl

section

variable (attempt : Attempt env known producing config v (.ok (br, bl)) origin)
include attempt

lemma Attempt.ok_cases : (∃ orders, known bl ∧ bl.verify env = some (.ok ()) ∧
      v.applyBlock env orders (config.newNode bl v.head) = .ok (.ok br, origin)) ∨
    ∃ orders txs now priv, producing ∧ v.SortedUnpacked env txs ∧
      v.produceBlock env orders txs (config.heightOfTime now) now config.address priv =
        .ok (.ok (br, bl), origin) := by
  generalize outcome : Except.ok (br, bl) = result at attempt
  cases attempt with
  | @received orders block applied _ seen verified ran =>
    cases applied with
    | error => simp [Except.map] at outcome
    | ok =>
      simp only [Except.map] at outcome
      cases outcome
      exact .inl ⟨orders, seen, verified, ran⟩
  | @produced orders txs now priv _ _ allowed sorted ran =>
    subst outcome
    exact .inr ⟨orders, txs, now, priv, allowed, sorted, ran⟩

lemma Attempt.extends : br.head = config.newNode bl v.head ∧ bl.parentHash = v.head.hash ∧
      env.bpHeaderHash bl.header = some bl.blockHash := by
  rcases attempt.ok_cases with ⟨orders, -, verified, ran⟩ | ⟨orders, txs, now, priv, -, -, ran⟩
  · obtain ⟨linked, -, cpy, -, rfl, -⟩ := applyBlock_eq_ok.mp ran
    exact ⟨rfl, linked.symm, BPBlock.hash_of_verify verified⟩
  · obtain ⟨cpy, -, rfl, -, hashed, linked, rfl⟩ := produceBlock_eq_ok ran
    exact ⟨rfl, linked, hashed⟩

lemma Attempt.pools : br.packed = v.packed.addAll bl.transactions ∧
      br.unpacked = v.unpacked.deleteAll bl.transactions := by
  rcases attempt.ok_cases with ⟨orders, -, -, ran⟩ | ⟨orders, txs, now, priv, -, -, ran⟩
  · obtain ⟨-, -, cpy, packing, rfl, -⟩ := applyBlock_eq_ok.mp ran
    have pools := (packTxs_pools packing).2
    exact pools
  · obtain ⟨cpy, packing, rfl, -⟩ := produceBlock_eq_ok ran
    obtain ⟨new, same, -, -, pools⟩ := packUnpacked_pools packing
    rw [nil_append] at same
    rw [same]
    exact pools

end

lemma storeTx_effect (ran : Chain.storeTx stored tx c = .ok (result, c')) :
    Effect env known producing c c' := by
  unfold Chain.storeTx at ran
  split at ran
  · cases ran
    exact .unchanged
  · rename_i fresh
    split at ran
    · simp at ran
    · cases ran
      exact .unchanged
    · rename_i storage saved
      have finished := store_eq_ok saved
      simp only [store.runProcedures, addTx, Except.ok.injEq] at finished
      cases ran
      rw [← finished]
      exact .pooled tx (by simpa using fresh)

lemma prepareSwitch_eq_ok (prepared : c.prepareSwitch env orders br = .ok switch) :
    switch.lastIrre = br.head.lastIrreversible c.config.confirms ∧
      switch.newIrres = switch.lastIrre.path.drop (c.lastIrre.count + 1) ∧
      applyIrreversible env orders (switch.newIrres.flatMap BlockNode.txs) c.immutable =
        .ok switch.immutable ∧ switch.resultTxPool = (c.txPool.deleteBlocks switch.newIrres).keep
        (fun tx => !isExpired env switch.immutable tx) ∧ switch.expiredTxs =
        (c.txPool.deleteBlocks switch.newIrres).keep (isExpired env switch.immutable) := by
  simp only [Chain.prepareSwitch] at prepared
  split at prepared
  · simp at prepared
  · rename_i immutable applied
    rw [← Except.ok.inj prepared]
    exact ⟨rfl, BlockNode.fetchNodeList_eq _ _, applied, rfl, rfl⟩

def PoolShrinks (c c' : Chain) : Prop :=
  ∀ hash p, c'.txPool.get hash = some p → c.txPool.get hash = some p

structure BlockEffect (env : Env) (known : BPBlock → Prop) (producing : Prop) (c c' : Chain) :
    Prop where
  effect : Effect env known producing c c'
  shrinks : PoolShrinks c c'

lemma prepareSwitch_shrinks (prepared : c.prepareSwitch env orders br = .ok switch)
    {hash p} (found : switch.resultTxPool.get hash = some p) : c.txPool.get hash = some p := by
  obtain ⟨-, -, -, resultTxPool, -⟩ := prepareSwitch_eq_ok prepared
  rw [resultTxPool, TxPool.get_keep] at found
  have kept := (Option.filter_eq_some_iff.mp found).1
  rw [TxPool.get_deleteBlocks] at kept
  split at kept
  · simp at kept
  · exact kept

lemma replaceAndSwitchToBranch_effect (found : c.branches[i]? = some v)
    (seen : result = .ok () → known bl)
    (attempt : Attempt env known producing c.config v (.ok (br, bl)) origin)
    (higher : i = c.headIndex ∨ c.headBranch.head.count < br.head.count)
    (ran : Chain.replaceAndSwitchToBranch env choice bl i br (c.setBranch i origin) =
      .ok (result, c')) : BlockEffect env known producing c c' := by
  unfold Chain.replaceAndSwitchToBranch at ran
  split at ran
  · simp at ran
  · rename_i switch prepared
    split at ran
    · simp at ran
    · cases ran
      exact ⟨.notSwitched _ i v br bl origin switch found attempt prepared, fun _ _ found => found⟩
    · rename_i storage saved
      simp only [Except.ok.injEq, Prod.mk.injEq] at ran
      rw [← ran.2, store_switch saved]
      exact ⟨.switched _ i v br bl origin switch found (seen ran.1.symm) attempt higher prepared,
        fun _ _ found => prepareSwitch_shrinks prepared found⟩

lemma forkBranch_effect (seen : known bl) (verified : bl.verify env = some (.ok ()))
    (noHead : ∀ v ∈ c.branches, v.head.hash ≠ bl.parentHash) (unknown : c.knownBlock bl = false)
    (found : c.findParent bl = some parent)
    (ran : Chain.forkBranch env choice bl parent c = .ok (result, c')) :
    BlockEffect env known producing c c' := by
  unfold Chain.forkBranch at ran
  split at ran
  · simp at ran
  · cases ran
    exact ⟨.unchanged, fun _ _ found => found⟩
  · rename_i br built
    split at ran
    · simp at ran
    · cases ran
      exact ⟨.unchanged, fun _ _ found => found⟩
    · rename_i storage saved
      have finished := store_eq_ok saved
      simp only [store.runProcedures, addBlock, Except.ok.injEq] at finished
      cases ran
      rw [← finished]
      exact ⟨.forked _ bl parent br seen verified noHead unknown found built,
        fun _ _ found => found⟩

lemma setBranch_headBranch_head (headAt : c.HeadAt) (found : c.branches[i]? = some v)
    (result origin) (attempt : Attempt env known producing c.config v result origin) :
    (c.setBranch i origin).headBranch.head = c.headBranch.head := by
  simp only [Chain.setBranch]
  split
  · rename_i same
    rw [Chain.HeadAt, ← same, found, Option.some.injEq] at headAt
    rw [attempt.origin_head, headAt]
  · rfl

lemma growBranch_effect (found : c.branches[i]? = some v) (seen : known bl)
    (verified : bl.verify env = some (.ok ()))
    (headCount : ∀ b origin, Attempt env known producing c.config v b origin →
      (c.setBranch i origin).headBranch.head = c.headBranch.head)
    (ran : Chain.growBranch env choice bl i v c = .ok (result, c')) :
    BlockEffect env known producing c c' := by
  unfold Chain.growBranch at ran
  split at ran
  · simp at ran
  · rename_i error origin tried
    cases ran
    exact ⟨.attempted i v _ origin found (.received seen verified tried), fun _ _ found => found⟩
  · rename_i br origin tried
    have attempt : Attempt env known producing c.config v (.ok (br, bl)) origin :=
      .received seen verified tried
    simp only [headCount _ _ attempt] at ran
    split at ran
    · rename_i lower
      split at ran
      · simp at ran
      · cases ran
        exact ⟨.attempted i v _ origin found attempt, fun _ _ found => found⟩
      · rename_i storage saved
        have finished := store_eq_ok saved
        simp only [store.runProcedures, addBlock, Except.ok.injEq] at finished
        cases ran
        rw [← finished]
        have effect := Effect.grown i v br bl origin found seen attempt lower
        exact ⟨by simpa [Chain.setBranch] using effect, fun _ _ found => found⟩
    · rename_i higher
      exact replaceAndSwitchToBranch_effect found (fun _ => seen) attempt
        (.inr (Nat.lt_of_not_le higher)) ran

lemma applyBlock_effect (headAt : c.HeadAt) (seen : known bl)
    (verified : bl.verify env = some (.ok ()))
    (ran : Chain.applyBlock env choice bl c = .ok (result, c')) :
    BlockEffect env known producing c c' := by
  unfold Chain.applyBlock at ran
  split at ran
  · rename_i v i located
    have found : c.branches[i]? = some v := by
      have member := mem_of_find?_eq_some located
      exact mem_zipIdx_iff_getElem?.mp member
    exact growBranch_effect found seen verified (setBranch_headBranch_head headAt found) ran
  · rename_i absent
    have noHead : ∀ v ∈ c.branches, v.head.hash ≠ bl.parentHash := by
      intro v member same
      obtain ⟨i, found⟩ := List.getElem?_of_mem member
      have listed : (v, i) ∈ c.branches.zipIdx := mem_zipIdx_iff_getElem?.mpr found
      have refused := List.find?_eq_none.mp absent _ listed
      simp [same] at refused
    split at ran
    · cases ran
      exact ⟨.unchanged, fun _ _ found => found⟩
    · rename_i unknown
      split at ran
      · rename_i parent found
        exact forkBranch_effect seen verified noHead (by simpa using unknown) found ran
      · cases ran
        exact ⟨.unchanged, fun _ _ found => found⟩

lemma produceAndStoreBlock_effect (headAt : c.HeadAt) (allowed : producing)
    (sorted : c.headBranch.SortedUnpacked env txs) (made : ∀ bl, result = .ok bl → known bl)
    (ran : Chain.produceAndStoreBlock env choice txs now priv c = .ok (result, c')) :
    BlockEffect env known producing c c' := by
  unfold Chain.produceAndStoreBlock at ran
  split at ran
  · simp at ran
  · rename_i error origin tried
    cases ran
    exact ⟨.attempted c.headIndex c.headBranch _ origin headAt (.produced allowed sorted tried),
      fun _ _ found => found⟩
  · rename_i br bl origin tried
    have attempt : Attempt env known producing c.config c.headBranch (.ok (br, bl)) origin :=
      .produced allowed sorted tried
    split at ran
    · simp at ran
    · rename_i error after switching
      cases ran
      exact replaceAndSwitchToBranch_effect headAt (by simp) attempt (.inl rfl) switching
    · rename_i after switching
      simp only [Except.ok.injEq, Prod.mk.injEq] at ran
      rw [← ran.2]
      exact replaceAndSwitchToBranch_effect headAt (fun _ => made bl ran.1.symm) attempt
        (.inl rfl) switching

lemma step_effect (headAt : c.HeadAt) (step : Step env known producing c c') :
    Effect env known producing c c' := by
  cases step with
  | storeTx stored tx result ran => exact storeTx_effect ran
  | applyBlock choice bl result received verified ran =>
    exact (applyBlock_effect headAt received verified ran).effect
  | produceAndStoreBlock choice txs now priv result allowed sorted made ran =>
    exact (produceAndStoreBlock_effect headAt allowed sorted made ran).effect

inductive Halting (env : Env) (choice : Choice) (bl : BPBlock) (c : Chain) (reason : Halt) : Prop
  | grow (i : Nat) (v : Branch) (found : c.branches[i]? = some v)
      (halted : v.applyBlock env choice.branchOrders (c.newNode bl v.head) = .error reason)
  | fork (parent) (found : c.findParent bl = some parent)
      (halted : newBranch env choice.branchOrders c.lastIrre (c.newNode bl parent) c.immutable
        c.txPool = .error reason)
  | prepare (i : Nat) (v br origin : Branch) (found : c.branches[i]? = some v)
      (tried : v.applyBlock env choice.branchOrders (c.newNode bl v.head) = .ok (.ok br, origin))
      (higher : (c.setBranch i origin).headBranch.head.count < br.head.count)
      (halted : c.prepareSwitch env choice.immutableOrders br = .error reason)
  | store (i : Nat) (v br origin : Branch) (switch : Chain.Switch) (found : c.branches[i]? = some v)
      (tried : v.applyBlock env choice.branchOrders (c.newNode bl v.head) = .ok (.ok br, origin))
      (prepared : c.prepareSwitch env choice.immutableOrders br = .ok switch)
      (halted : store choice.stored (c.switchProcedures bl switch) c.storage = .error reason)

lemma store_addBlock_not_halt (stored height bl st reason) :
    store stored [addBlock height bl] st ≠ .error reason := by
  cases stored <;> simp [store, store.runProcedures, addBlock, Except.map]

lemma growBranch_halting (found : c.branches[i]? = some v)
    (ran : Chain.growBranch env choice bl i v c = .error reason) :
    Halting env choice bl c reason := by
  unfold Chain.growBranch at ran
  split at ran
  · rename_i other halted
    rw [Except.error.inj ran] at halted
    exact .grow i v found halted
  · simp at ran
  · rename_i br origin tried
    simp only at ran
    split at ran
    · split at ran
      · rename_i other halted
        exact absurd halted (store_addBlock_not_halt _ _ _ _ _)
      · simp at ran
      · simp at ran
    · rename_i higher
      unfold Chain.replaceAndSwitchToBranch at ran
      split at ran
      · rename_i other halted
        rw [Except.error.inj ran] at halted
        exact .prepare i v br origin found tried (Nat.lt_of_not_le higher) halted
      · rename_i switch prepared
        split at ran
        · rename_i other halted
          rw [Except.error.inj ran] at halted
          exact .store i v br origin switch found tried prepared halted
        · simp at ran
        · simp at ran

lemma applyBlock_halting (ran : Chain.applyBlock env choice bl c = .error reason) :
    Halting env choice bl c reason := by
  unfold Chain.applyBlock at ran
  split at ran
  · rename_i v i located
    have found : c.branches[i]? = some v :=
      mem_zipIdx_iff_getElem?.mp (mem_of_find?_eq_some located)
    exact growBranch_halting found ran
  · split at ran
    · simp at ran
    · split at ran
      · rename_i parent found
        unfold Chain.forkBranch at ran
        split at ran
        · rename_i other halted
          rw [Except.error.inj ran] at halted
          exact .fork parent found halted
        · simp at ran
        · split at ran
          · rename_i other halted
            exact absurd halted (store_addBlock_not_halt _ _ _ _ _)
          · simp at ran
          · simp at ran
      · simp at ran

lemma Attempt.mono (wide : ∀ bl, known bl → wider bl)
    (attempt : Attempt env known producing config v result origin) :
    Attempt env wider producing config v result origin := by
  cases attempt with
  | received seen verified ran => exact .received (wide _ seen) verified ran
  | produced allowed sorted ran => exact .produced allowed sorted ran

lemma Effect.mono (wide : ∀ bl, known bl → wider bl)
    (effect : Effect env known producing c c') : Effect env wider producing c c' := by
  cases effect with
  | unchanged => exact .unchanged
  | pooled tx fresh => exact .pooled tx fresh
  | attempted i v result origin found attempt =>
    exact .attempted i v result origin found (attempt.mono wide)
  | grown i v br bl origin found seen attempt lower =>
    exact .grown i v br bl origin found (wide bl seen) (attempt.mono wide) lower
  | forked orders bl parent br seen verified noHead unknown found ran =>
    exact .forked orders bl parent br (wide bl seen) verified noHead unknown found ran
  | notSwitched orders i v br bl origin switch found attempt prepared =>
    exact .notSwitched orders i v br bl origin switch found (attempt.mono wide) prepared
  | switched orders i v br bl origin switch found seen attempt higher prepared =>
    exact .switched orders i v br bl origin switch found (wide bl seen) (attempt.mono wide)
      higher prepared

lemma Effect.config_eq (effect : Effect env known producing c c') : c'.config = c.config := by
  cases effect <;> rfl

lemma pruneBranches_mem {newBranch}
    (member : b ∈ (pruneBranches lastIrre originBrIdx newBranch i rest brs idx).1) :
    b ∈ brs ∨ b = newBranch.commitPreview ∨ (b ∈ rest ∧ b.head.hasAncestor lastIrre = true) := by
  induction rest generalizing i brs idx with
  | nil => exact .inl member
  | cons v rest ih =>
    simp only [pruneBranches] at member
    split at member
    · rcases ih member with kept | same | ⟨later, rooted⟩
      · simp only [mem_append, mem_singleton] at kept
        exact kept.imp id .inl
      · exact .inr (.inl same)
      · exact .inr (.inr ⟨mem_cons_of_mem _ later, rooted⟩)
    · split at member
      · rename_i rooted
        rcases ih member with kept | same | ⟨later, checked⟩
        · simp only [mem_append, mem_singleton] at kept
          rcases kept with kept | rfl
          · exact .inl kept
          · exact .inr (.inr ⟨mem_cons_self, rooted⟩)
        · exact .inr (.inl same)
        · exact .inr (.inr ⟨mem_cons_of_mem _ later, checked⟩)
      · rcases ih member with kept | same | ⟨later, checked⟩
        · exact .inl kept
        · exact .inr (.inl same)
        · exact .inr (.inr ⟨mem_cons_of_mem _ later, checked⟩)

lemma pruneBranches_passed {newBranch} (passed : originBrIdx < i) (placed : brs[idx]? = some b) :
    (pruneBranches lastIrre originBrIdx newBranch i rest brs idx).1[
      (pruneBranches lastIrre originBrIdx newBranch i rest brs idx).2]? = some b := by
  induction rest generalizing i brs idx with
  | nil => exact placed
  | cons v rest ih =>
    simp only [pruneBranches, if_neg (Nat.ne_of_gt passed)]
    split
    · apply ih (Nat.lt_succ_of_lt passed)
      rw [List.getElem?_append_left (List.getElem?_eq_some_iff.mp placed).1]
      exact placed
    · exact ih (Nat.lt_succ_of_lt passed) placed

lemma pruneBranches_head {newBranch} (ahead : i ≤ originBrIdx)
    (inside : originBrIdx < i + rest.length) :
    (pruneBranches lastIrre originBrIdx newBranch i rest brs idx).1[
      (pruneBranches lastIrre originBrIdx newBranch i rest brs idx).2]? =
        some newBranch.commitPreview := by
  induction rest generalizing i brs idx with
  | nil =>
    simp only [length_nil] at inside
    omega
  | cons v rest ih =>
    simp only [pruneBranches]
    simp only [length_cons] at inside
    split
    · exact pruneBranches_passed (by omega) (by simp)
    · split <;> exact ih (by omega) (by omega)

lemma finishSwitch_mem (member : b ∈ (c.finishSwitch storage i br switch).branches) :
    ∃ kept, b = kept.clearTxs switch.newIrres switch.expiredTxs ∧ (kept = br.commitPreview ∨
        (kept ∈ c.branches ∧ kept.head.hasAncestor switch.lastIrre = true)) := by
  simp only [Chain.finishSwitch, mem_map] at member
  obtain ⟨kept, listed, cleared⟩ := member
  refine ⟨kept, cleared.symm, ?_⟩
  rcases pruneBranches_mem listed with nothing | same | origin
  · simp at nothing
  · exact .inl same
  · exact .inr origin

lemma Effect.each {P : Branch → Prop} (effect : Effect env known producing c c')
    (live : ∀ b ∈ c.branches, P b)
    (addTx : ∀ tx, c'.txPool = c.txPool.add tx → ∀ b, P b → P (b.addTx tx))
    (origin : ∀ v result origin, P v →
      Attempt env known producing c.config v result origin → P origin)
    (grown : ∀ v br bl origin, P v →
      Attempt env known producing c.config v (.ok (br, bl)) origin → P br.commitPreview)
    (forked : ∀ orders bl parent br, known bl → c.findParent bl = some parent →
      newBranch env orders c.lastIrre (c.newNode bl parent) c.immutable c.txPool =
        .ok (.ok br) → P br) (clearTxs : ∀ nodes expired b, P b → P (b.clearTxs nodes expired)) :
    ∀ b ∈ c'.branches, P b := by
  have attempted : ∀ {i : Nat} {v result made}, c.branches[i]? = some v →
      Attempt env known producing c.config v result made →
      ∀ b ∈ (c.setBranch i made).branches, P b := by
    intro i v result made found attempt b member
    rcases mem_or_eq_of_mem_set member with kept | rfl
    · exact live b kept
    · exact origin v result b (live v (mem_of_getElem? found)) attempt
  intro b member
  cases effect with
  | unchanged => exact live b member
  | pooled tx =>
    obtain ⟨old, kept, rfl⟩ := mem_map.mp member
    exact addTx tx rfl old (live old kept)
  | attempted i v result made found attempt => exact attempted found attempt b member
  | grown i v br bl made found seen attempt =>
    rcases mem_or_eq_of_mem_set member with kept | rfl
    · exact live b kept
    · exact grown v br bl made (live v (mem_of_getElem? found)) attempt
  | forked orders bl parent br seen verified noHead unknown found ran =>
    rcases mem_append.mp member with kept | added
    · exact live b kept
    · rw [mem_singleton.mp added]
      exact forked orders bl parent br seen found ran
  | notSwitched orders i v br bl made switch found attempt =>
    exact attempted found attempt b member
  | switched orders i v br bl made switch found seen attempt =>
    obtain ⟨kept, rfl, rfl | ⟨present, -⟩⟩ := finishSwitch_mem member
    · exact clearTxs _ _ _ (grown v br bl made (live v (mem_of_getElem? found)) attempt)
    · exact clearTxs _ _ _ (attempted found attempt kept present)

lemma finishSwitch_headAt (inside : i < c.branches.length) :
    (c.finishSwitch storage i br switch).HeadAt := by
  have placed : (pruneBranches switch.lastIrre i br 0 c.branches [] 0).1[
      (pruneBranches switch.lastIrre i br 0 c.branches [] 0).2]? = some br.commitPreview :=
    pruneBranches_head (Nat.zero_le i) (by simpa using inside)
  simp only [Chain.HeadAt, Chain.finishSwitch, List.getElem?_map, placed, Option.map_some]

lemma setBranch_self (headAt : c.HeadAt)
    (found : c.branches[i]? = some v) : c.setBranch i v = c := by
  have branches : c.branches.set i v = c.branches := by
    obtain ⟨inside, rfl⟩ := List.getElem?_eq_some_iff.mp found
    exact set_getElem_self inside
  have headBranch : (if i = c.headIndex then v else c.headBranch) = c.headBranch := by
    split
    · rename_i same
      rw [Chain.HeadAt, ← same, found, Option.some.injEq] at headAt
      exact headAt
    · rfl
  rw [Chain.setBranch, branches, headBranch]

lemma setBranch_headAt (headAt : c.HeadAt)
    (found : c.branches[i]? = some v) : (c.setBranch i origin).HeadAt := by
  obtain ⟨inside, -⟩ := List.getElem?_eq_some_iff.mp found
  simp only [Chain.HeadAt, Chain.setBranch]
  split
  · rename_i same
    rw [← same, List.getElem?_set_self inside]
  · rename_i other
    rw [List.getElem?_set_ne other]
    exact headAt

lemma Branch.clearTxs_eq (b : Branch) (nodes expired) : b.clearTxs nodes expired =
      ⟨b.head, b.preview, b.packed.deleteBlocks nodes, b.unpacked.deletePool expired⟩ := by
  induction nodes generalizing b with
  | nil => rfl
  | cons n rest ih =>
    have tail := ih (b.clearPackedTxs n.load.transactions)
    exact tail

lemma Branch.clearTxs_head (b : Branch) (nodes expired) :
    (b.clearTxs nodes expired).head = b.head := by
  rw [clearTxs_eq]

lemma Branch.clearTxs_preview (b : Branch) (nodes expired) :
    (b.clearTxs nodes expired).preview = b.preview := by
  rw [clearTxs_eq]

lemma Branch.clearTxs_unpacked (b : Branch) (nodes expired) :
    (b.clearTxs nodes expired).unpacked = b.unpacked.deletePool expired := by
  rw [clearTxs_eq]

lemma Attempt.head_count (attempt : Attempt env known producing config v (.ok (br, bl)) origin) :
    br.head.count = v.head.count + 1 := by
  rw [attempt.extends.1]
  rfl

lemma grown_other (headAt : c.HeadAt) (found : c.branches[i]? = some v)
    (attempt : Attempt env known producing c.config v (.ok (br, bl)) origin)
    (lower : br.head.count ≤ c.headBranch.head.count) : i ≠ c.headIndex := by
  intro same
  rw [Chain.HeadAt, ← same, found, Option.some.injEq] at headAt
  rw [attempt.head_count, headAt] at lower
  omega

lemma Effect.headAt (headAt : c.HeadAt) (effect : Effect env known producing c c') : c'.HeadAt := by
  cases effect with
  | unchanged => exact headAt
  | pooled =>
    simp only [Chain.HeadAt, List.getElem?_map]
    rw [Chain.HeadAt] at headAt
    rw [headAt]
    rfl
  | attempted i v result origin found => exact setBranch_headAt headAt found
  | grown i v br bl origin found seen attempt lower =>
    have other := grown_other headAt found attempt lower
    simp only [Chain.HeadAt, Chain.setBranch, if_neg other, List.getElem?_set_ne other]
    exact headAt
  | forked =>
    obtain ⟨inside, -⟩ := List.getElem?_eq_some_iff.mp headAt
    simp only [Chain.HeadAt, List.getElem?_append_left inside]
    exact headAt
  | notSwitched orders i v br bl origin switch found =>
    exact setBranch_headAt headAt found
  | switched orders i v br bl origin switch found =>
    obtain ⟨inside, -⟩ := List.getElem?_eq_some_iff.mp found
    exact finishSwitch_headAt (by simpa [Chain.setBranch] using inside)

lemma Run.preserves (invariant : Chain → Prop) (run : Run env known producing c c')
    (headAt : c.HeadAt) (holds : invariant c)
    (kept : ∀ c c', c.HeadAt → invariant c → Effect env known producing c c' → invariant c') :
    c'.HeadAt ∧ invariant c' := by
  induction run with
  | refl => exact ⟨headAt, holds⟩
  | tail _ step ih =>
    have effect := step_effect ih.1 step
    exact ⟨effect.headAt ih.1, kept _ _ ih.1 ih.2 effect⟩

def Config.genesisNode (config : Config) : BlockNode := newBlockNode 0 config.genesis none

def genesisBranch (config : Config) (st : Storage) : Branch :=
  ⟨config.genesisNode, (loadImmutableState st).makeCopy.commit, .empty, .empty⟩

def genesisChain (config : Config) (st : Storage) : Chain where
  config := config
  lastIrre := config.genesisNode
  immutable := loadImmutableState st
  headIndex := 0
  headBranch := genesisBranch config st
  branches := [genesisBranch config st]
  txPool := .empty
  storage := st

structure GenesisStorage (config : Config) (st : Storage) : Prop where
  blocks : st.blocks = [⟨0, config.genesis.blockHash, config.genesis.parentHash, config.genesis⟩]
  txPool : st.txPool = .empty
  irreversible : st.irreversible = some config.genesis.blockHash
  applied : st.applied = [config.genesisNode]

def genesisStorage (config : Config) (init : MetaState) : Storage :=
  let st := (openStorage.mergeDirty init.dirty).insertBlock 0 config.genesis
  { st with irreversible := some config.genesis.blockHash, applied := [config.genesisNode] }

lemma initStorage_eq_ok (ran : initStorage env orders config stored = .ok (.ok st)) :
    ∃ init, initStorage.packGenesis env orders config.genesis.transactions MetaState.new =
      .ok (.ok (), init) ∧ st = genesisStorage config init := by
  simp only [initStorage] at ran
  split at ran
  · simp at ran
  · simp at ran
  · rename_i init packed
    refine ⟨init, packed, ?_⟩
    have finished := store_eq_ok ran
    simp only [store.runProcedures, compileChanges] at finished
    by_cases refused : ∃ id ∈ init.dirty.databases.keys,
        hasNilPermission (init.dirty.databases.get id).join = true
    · simp [refused] at finished
    · simp only [refused, if_false, addBlock, updateIrreversible, recordApplied] at finished
      cases finished
      rfl

lemma initStorage_genesis
    (ran : initStorage env orders config stored = .ok (.ok st)) : GenesisStorage config st := by
  obtain ⟨init, -, rfl⟩ := initStorage_eq_ok ran
  exact ⟨rfl, rfl, rfl, rfl⟩

lemma loadBlocks_genesis (genesis : GenesisStorage config st) :
    loadBlocks st config.genesis.blockHash = .ok (config.genesisNode,
      (∅ : FiniteMap Hash BlockNode).insert config.genesis.blockHash config.genesisNode) := by
  simp only [loadBlocks, genesis.blocks, foldlM_cons, foldlM_nil, loadBlockRow,
    FiniteMap.keys_empty, ne_eq, not_true_eq_false, if_false, if_true]
  simp [Bind.bind, Except.bind, Pure.pure, Except.pure, Config.genesisNode]

lemma loadChain_genesis (genesis : GenesisStorage config st) :
    loadChain env orders headOrder config st = .ok (.ok (genesisChain config st)) := by
  have heads : headOrder.list
      ((∅ : FiniteMap Hash BlockNode).insert config.genesis.blockHash config.genesisNode) =
      [config.genesisNode] := by
    rw [← Multiset.coe_eq_singleton, headOrder.perm, FiniteMap.values_singleton]
  have rooted : config.genesisNode.hasAncestor config.genesisNode = true := by
    simp [BlockNode.hasAncestor, BlockNode.ancestorByCount, Config.genesisNode, newBlockNode,
      BlockNode.count]
  have root : (config.genesisNode.ancestorByCount 0).map BlockNode.hash =
      some config.genesis.blockHash := rfl
  have built : newBranch env orders config.genesisNode config.genesisNode
      (loadImmutableState st) st.txPool = .ok (.ok (genesisBranch config st)) := by
    rw [genesis.txPool]
    rfl
  simp only [loadChain, genesis.irreversible, loadBlocks_genesis genesis, root, ne_eq,
    not_true_eq_false, if_false, heads, rebuildBranches, rooted, if_true, built, selectHead]
  rw [genesisChain, genesis.txPool]

lemma opened_storage (opened : Opened env config c) :
    env.bpHeaderHash config.genesis.header = some config.genesis.blockHash ∧
      ∃ orders stored st, initStorage env orders config stored = .ok (.ok st) ∧
        c = genesisChain config st := by
  obtain ⟨choice, headOrder, ran⟩ := opened
  unfold newChain at ran
  split at ran
  · simp at ran
  · simp at ran
  · rename_i verified
    have hashed : env.bpHeaderHash config.genesis.header = some config.genesis.blockHash := by
      unfold BPBlock.verifyHash at verified
      simp only [Option.map_eq_some_iff] at verified
      obtain ⟨checked, -, accepted⟩ := verified
      split at accepted
      · simp at accepted
      · unfold HashSignVerifier.verifyHash at accepted
        split at accepted
        · simp at accepted
        · rename_i hash computed
          split at accepted
          · rename_i same
            rw [computed, BPBlock.blockHash, same]
          · simp at accepted
    refine ⟨hashed, ?_⟩
    simp only at ran
    split at ran
    · simp at ran
    · simp at ran
    · rename_i st created
      rw [loadChain_genesis (initStorage_genesis created), Except.ok.injEq, Except.ok.injEq] at ran
      exact ⟨_, _, st, created, ran.symm⟩

lemma opened_eq (opened : Opened env config c) :
    env.bpHeaderHash config.genesis.header = some config.genesis.blockHash ∧
      ∃ st, GenesisStorage config st ∧ c = genesisChain config st := by
  obtain ⟨hashed, orders, stored, st, created, rfl⟩ := opened_storage opened
  exact ⟨hashed, st, initStorage_genesis created, rfl⟩

lemma genesisChain_opened (orders) (verified : config.genesis.verifyHash env = some (.ok ()))
    (created : initStorage env orders config true = .ok (.ok st)) :
    Opened env config (genesisChain config st) := by
  have anyHeads : ∀ heads : FiniteMap Hash BlockNode,
      (heads.values.toList : Multiset BlockNode) = heads.values := fun _ => Multiset.coe_toList _
  refine ⟨⟨orders, orders, true⟩, ⟨_, anyHeads⟩, ?_⟩
  simp only [newChain, verified, created]
  exact loadChain_genesis (initStorage_genesis created)

inductive Served (env : Env) (known : BPBlock → Prop) (producing : Prop) (c c' : Chain) : Prop
  | addTx (stored tx result) (ran : Chain.processAddTxReq env stored tx c = .ok (result, c'))
  | pushBlock (choice bl result) (received : known bl)
      (ran : Chain.pushBlock env choice bl c = .ok (result, c'))
  | produceBlock (choice txs now priv result) (allowed : producing)
      (sorted : c.headBranch.SortedUnpacked env txs)
      (made : ∀ bl, result = .ok bl → known bl)
      (ran : Chain.produceAndStoreBlock env choice txs now priv c = .ok (result, c'))

lemma processAddTxReq_cases (ran : Chain.processAddTxReq env stored tx c = .ok (result, c')) :
    c' = c ∨ tx.verify env = .ok () ∧ ∃ result', Chain.storeTx stored tx c = .ok (result', c') := by
  unfold Chain.processAddTxReq at ran
  split at ran
  · cases ran
    exact .inl rfl
  · split at ran
    · cases ran
      exact .inl rfl
    · rename_i verified
      split at ran
      · simp at ran
      · cases ran
        exact .inl rfl
      · split at ran
        · cases ran
          exact .inl rfl
        · split at ran
          · simp at ran
          · rename_i result' after stored
            cases ran
            exact .inr ⟨verified, result', stored⟩

lemma pushBlock_cases (ran : Chain.pushBlock env choice bl c = .ok (result, c')) :
    c' = c ∨ bl.verify env = some (.ok ()) ∧
      ∃ result', Chain.applyBlock env choice bl c = .ok (result', c') := by
  unfold Chain.pushBlock at ran
  split at ran
  · simp at ran
  · cases ran
    exact .inl rfl
  · rename_i verified
    split at ran
    · rename_i error after applied
      cases ran
      exact .inr ⟨verified, _, applied⟩
    · exact .inr ⟨verified, _, ran⟩

lemma Served.run (served : Served env known producing c c') : Run env known producing c c' := by
  cases served with
  | addTx stored tx result ran =>
    rcases processAddTxReq_cases ran with rfl | ⟨-, result', stored⟩
    · exact .refl
    · exact .single (.storeTx _ _ _ stored)
  | pushBlock choice bl result received ran =>
    rcases pushBlock_cases ran with rfl | ⟨verified, result', applied⟩
    · exact .refl
    · exact .single (.applyBlock _ _ _ received verified applied)
  | produceBlock choice txs now priv result allowed sorted made ran =>
    exact .single (.produceAndStoreBlock _ _ _ _ _ allowed sorted made ran)

lemma step_applyBlock (received : known bl) (verified : bl.verify env = some (.ok ()))
    (returned : Program.returns (Chain.applyBlock env choice bl) c = true) :
    Step env known producing c (Program.after (Chain.applyBlock env choice bl) c) := by
  obtain ⟨result, ran⟩ := Program.eq_after returned
  exact .applyBlock choice bl result received verified ran

lemma step_storeTx (returned : Program.returns (Chain.storeTx stored tx) c = true) :
    Step env known producing c (Program.after (Chain.storeTx stored tx) c) := by
  obtain ⟨result, ran⟩ := Program.eq_after returned
  exact .storeTx stored tx result ran

end

noncomputable def MinerOrder.byNodeID : MinerOrder where
  list miners := miners.toList.mergeSort fun left right => decide (left.nodeID ≤ right.nodeID)
  perm miners := by
    have sorted := mergeSort_perm miners.toList
      fun left right => decide (left.nodeID ≤ right.nodeID)
    rw [Multiset.coe_eq_coe.mpr sorted, Multiset.coe_toList]
  sorted miners := by
    apply (pairwise_mergeSort _ _ miners.toList).imp
    · intro left right listed
      exact String.not_lt.mpr (decide_eq_true_eq.mp listed)
    · intro first second third before after
      simp only [decide_eq_true_eq] at before after ⊢
      exact String.le_trans before after
    · intro left right
      simp only [Bool.or_eq_true, decide_eq_true_eq]
      exact String.le_total _ _

/-! A small environment in which runs can be computed: a block has its timestamp as its
hash, a key its first coordinate as its address, and a signature repeats key and hash. -/

namespace Sample

def txCode : TxHeader → Nat
  | .transfer header => 1000 * header.amount.toNat + 10 * header.nonce.toNat + 1
  | .provideService header => 10 * header.nonce.toNat + 2
  | .createDatabase header => 10 * header.nonce.toNat + 3
  | .updatePermission header => 10 * header.nonce.toNat + 4
  | .issueKeys header => 10 * header.nonce.toNat + 5
  | .updateBilling header => 10 * header.nonce.toNat + 6

def env : Env where
  pubKeyHash key := some (BitVec.ofNat 256 key.x)
  txHeaderHash header := some (BitVec.ofNat 256 (txCode header))
  bpHeaderHash header := some (BitVec.ofInt 256 header.timestamp)
  mergeTwoHash left right := left + 2 * right
  verifySignature signature hash key := signature.r = key.x && signature.s = hash.toNat
  signHash key hash := some ⟨key.d, hash.toNat⟩
  pubKey key := ⟨key.d, 0⟩
  accountNonceHash address nonce := address + BitVec.ofNat 256 (nonce.toNat + 100)
  encodeGenesis _ := some []
  scaleIncome income _ _ := income
  minProviderDeposit := 10
  qps := 1
  billingBlockCount := 1

noncomputable def choice : Choice := ⟨fun _ => .byNodeID, fun _ => .byNodeID, true⟩

def block (parent : Hash) (time : Time) (txs : List Transaction) : BPBlock where
  header := ⟨0x01000000, 7, (BPBlock.merkleRoot env txs).getD 0, parent, time⟩
  verifier := ⟨BitVec.ofInt 256 time, some ⟨7, 0⟩, some ⟨7, (BitVec.ofInt 256 time).toNat⟩⟩
  transactions := txs

variable (txs : List Transaction)

def genesis : BPBlock := block 0 1000 txs

def config (confirms : Nat) : Config where
  genesis := genesis txs
  period := 1
  address := 7
  confirms := confirms
  bpInfos := []

noncomputable def storage : Storage :=
  match initStorage env choice.immutableOrders (config txs 0) true with
  | .ok (.ok st) => st
  | _ => openStorage

noncomputable def chain (confirms : Nat) : Chain :=
  genesisChain (config txs confirms) (storage txs)

noncomputable def receive (bl : BPBlock) (c : Chain) : Chain :=
  Program.after (Chain.applyBlock env choice bl) c

lemma run_receive (run : Run env known producing c c') (bl)
    (received : known bl) (verified : bl.verify env = some (.ok ()))
    (returned : Program.returns (Chain.applyBlock env choice bl) c' = true) :
    Run env known producing c (receive bl c') :=
  run.tail (step_applyBlock received verified returned)

end Sample

end SQLess.BlockProducer
