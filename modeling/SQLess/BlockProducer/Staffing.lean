import SQLess.BlockProducer.Permission

/-! Two questions about the miners of a new database. -/

namespace SQLess.BlockProducer

open Lib List FiniteMap Option MetaState

def MinerOrder.listing (order : MinerOrder) (listed : List MinerInfo)
    (arranged : Arranged MinerInfo.nodeID listed) : MinerOrder where
  list miners := if miners = (listed : Multiset MinerInfo) then listed else order.list miners
  perm miners := by
    split
    · rename_i same
      exact same.symm
    · exact order.perm miners
  sorted miners := by
    split
    · exact arranged
    · exact order.sorted miners

lemma MinerOrder.listing_list (order : MinerOrder) (listed)
    (arranged : Arranged MinerInfo.nodeID listed) (same : (listed : Multiset MinerInfo) = miners) :
    (order.listing listed arranged).list miners = listed :=
  if_pos same.symm

/-- The miners do not depend on iteration order, on the sort or on the layers exactly if those
that share a node id come too late to be chosen. -/
theorem filterNMiners_agree_iff (s : MetaState) (req : CreateDatabaseHeader)
    (user : AccountAddress) (minerCount : Nat) :
    (∀ (order order' : MinerOrder) (s' : MetaState), s'.view.provider = s.view.provider →
      filterNMiners order s req user minerCount = filterNMiners order' s' req user minerCount) ↔
    (minerCount ≤ (s.candidates req user).card →
      ∀ left ∈ s.candidates req user, ∀ right ∈ s.candidates req user,
        left.nodeID = right.nodeID → left ≠ right → minerCount ≤
            ((s.candidates req user).filter fun other => other.nodeID < left.nodeID).card) := by
  constructor
  · intro agree enough
    apply arrangements_agree_iff.mp
    intro list list' same same' arranged arranged'
    have equal := agree (MinerOrder.byNodeID.listing list arranged)
      (MinerOrder.byNodeID.listing list' arranged') s rfl
    rw [filterNMiners_candidates, filterNMiners_candidates, if_neg (Nat.not_lt.mpr enough),
      if_neg (Nat.not_lt.mpr enough), MinerOrder.listing_list _ _ _ same,
      MinerOrder.listing_list _ _ _ same'] at equal
    exact Except.ok.inj equal
  · intro behind order order' s' same
    have viewed : s'.candidates req user = s.candidates req user := by
      rw [MetaState.candidates, same]
      rfl
    rw [filterNMiners_candidates, filterNMiners_candidates, viewed]
    split
    · rfl
    · rename_i enough
      have agree := arrangements_agree_iff.mpr (behind (Nat.not_lt.mp enough))
      exact congrArg Except.ok (agree _ _ (order.perm _) (order'.perm _) (order.sorted _)
        (order'.sorted _))

namespace Sample

noncomputable def market : MetaState :=
  ((ended (replay [founder 1 1000, founder 3 1000, founder 4 1000, provide 3 1, provide 4 1]))).getD
    .new

def request (targets : List AccountAddress) (node : UInt16) : CreateDatabaseHeader :=
  ⟨1, ⟨targets, node, 1, 1, .zero, "", false, .zero, 0⟩, 1, 10, 0, 1⟩

def vendor (address : AccountAddress) : MinerInfo := ⟨address, "miner", 0, 0, [], 10, ""⟩

lemma vendor_arranged (first second) : Arranged MinerInfo.nodeID [vendor first, vendor second] :=
  pairwise_pair.mpr (lt_irrefl "miner")

end Sample

open Sample in
/-- One place for two providers with the same node id: each can get it. -/
theorem filterNMiners_tied : ∃ order order' : MinerOrder,
      filterNMiners order market (request [] 1) 1 1 = .ok [vendor 3] ∧
      filterNMiners order' market (request [] 1) 1 1 = .ok [vendor 4] := by
  have listed : (([vendor 3, vendor 4] : List MinerInfo) : Multiset MinerInfo) =
      market.candidates (request [] 1) 1 := by decide
  have listed' : (([vendor 4, vendor 3] : List MinerInfo) : Multiset MinerInfo) =
      market.candidates (request [] 1) 1 := by decide
  have two : ¬(market.candidates (request [] 1) 1).card < 1 := by
    rw [← listed]
    decide
  refine ⟨MinerOrder.byNodeID.listing [vendor 3, vendor 4] (vendor_arranged 3 4),
    MinerOrder.byNodeID.listing [vendor 4, vendor 3] (vendor_arranged 4 3), ?_, ?_⟩
  · rw [filterNMiners_candidates, if_neg two, MinerOrder.listing_list _ _ _ listed]
    rfl
  · rw [filterNMiners_candidates, if_neg two, MinerOrder.listing_list _ _ _ listed']
    rfl

def MetaIndex.Enlists (index : MetaIndex) (holds : AccountAddress → ProviderProfile → Prop) :
    Prop :=
  ∀ k po, index.provider.get k = some po → holds k po

def MetaIndex.Keyed (index : MetaIndex) : Prop := index.Enlists fun k po => po.provider = k

def MetaIndex.InParticles (index : MetaIndex) : Prop :=
  index.Enlists fun _ po => po.tokenType = Token.particle.tokenType

section

variable {env : Env} {order : MinerOrder} {height : Nat}
  {holds : AccountAddress → ProviderProfile → Prop}

lemma Refunded.enlists (refunded : Refunded height sender index middle)
    (before : index.Enlists holds) : middle.Enlists holds := by
  cases refunded with
  | kept => exact before
  | paid fixed registered adjusted =>
    intro k po found
    simp only [MetaIndex.deleteProvider, get_erase] at found
    split at found
    · simp at found
    · rw [adjusted.provider] at found
      exact before k po found

lemma Ledger.enlists (step : Ledger env order height tx index index')
    (fresh : ∀ tx sender, holds sender (newProviderProfile env tx sender))
    (before : index.Enlists holds) : index'.Enlists holds := by
  induction step with
  | provide signer refunded adjusted =>
    intro k po found
    simp only [MetaIndex.setProvider, get_insert] at found
    split at found
    · rename_i same
      rw [← Option.some.inj found, same]
      exact fresh _ _
    · rw [adjusted.provider] at found
      exact refunded.enlists before k po found
  | database signer priced staffed advanced selected cost supported adjusted =>
    intro k po found
    rw [MetaIndex.storeProfile, deleteProviders_get] at found
    split at found
    · simp at found
    · refine before k po ?_
      rw [← adjusted.provider]
      exact found
  | wrapper step ih => exact ih before
  | _ => exact before

lemma apply_enlists (fresh : ∀ tx sender, holds sender (newProviderProfile env tx sender))
    (ran : apply env order tx height s = .ok (.ok (), s')) (before : s.view.Enlists holds) :
    s'.view.Enlists holds := by
  obtain ⟨middle, account, -, step, -, same⟩ := (apply_applied ran).inv
  rw [same]
  exact step.enlists fresh before

lemma applyIrreversible_enlists
    (fresh : ∀ tx sender, holds sender (newProviderProfile env tx sender))
    (ran : applyIrreversible env orders txs s = .ok s') (before : s.view.Enlists holds) :
    s'.view.Enlists holds := by
  induction txs generalizing orders s with
  | nil =>
    cases ran
    exact before
  | cons first rest ih =>
    obtain ⟨tx, height⟩ := first
    obtain ⟨between, applied, later⟩ := applyIrreversible_cons.mp ran
    exact ih later (apply_enlists fresh applied before)

lemma applyIrreversible_providers
    (ran : applyIrreversible env orders txs .new = .ok s) : s.view.Keyed ∧ s.view.InParticles := by
  have start : ∀ holds, new.view.Enlists holds := by
    intro holds k po found
    simp [new, view, newMetaIndex, newDirtyIndex] at found
  exact ⟨applyIrreversible_enlists (fun _ _ => rfl) ran (start _),
    applyIrreversible_enlists (fun _ _ => rfl) ran (start _)⟩

end

section

variable {s : MetaState} {req : CreateDatabaseHeader} {user : AccountAddress} {order : MinerOrder}
  {miners : List MinerInfo}

section

variable (keyed : s.view.Keyed)
include keyed

lemma offer_address (offered : s.offer req user m = some miner) : miner.address = m := by
  obtain ⟨po, registered, -, rfl⟩ := offer_eq_some.mp offered
  rw [← s.view_provider_get] at registered
  exact keyed m po registered

lemma offers_addresses : (s.offers req user).map MinerInfo.address = s.usable req user := by
  rw [offers, usable, map_filterMap, ← filterMap_eq_filter]
  refine filterMap_congr fun m _ => ?_
  rcases offered : s.offer req user m with _ | miner
  · simp [Option.guard, offered]
  · simp [Option.guard, offered, offer_address keyed offered]

lemma candidates_nodup : ((s.candidates req user).map MinerInfo.address).Nodup := by
  rw [candidates, FiniteMap.values, Multiset.filterMap_filterMap, Multiset.map_filterMap]
  refine Multiset.Nodup.filterMap _ ?_ (Finset.nodup _)
  have own : ∀ k address, (((s.view.provider.eraseAll req.resourceMeta.targetMiners).get k).bind
      fun po => (filterMiner po req user).toOption).map MinerInfo.address = some address →
        address = k := by
    intro k address offered
    obtain ⟨miner, found, rfl⟩ := map_eq_some_iff.mp offered
    obtain ⟨po, registered, matched⟩ := bind_eq_some_iff.mp found
    obtain ⟨-, rfl⟩ := filterMiner_toOption.mp matched
    rw [get_eraseAll] at registered
    split at registered
    · simp at registered
    · exact keyed k po registered
  intro k k' address offered offered'
  rw [← own k address offered, ← own k' address offered']

lemma selectMiners_addresses (staffed : 0 < req.resourceMeta.node.toNat)
    (selected : selectMiners order s req user = .ok (some miners)) :
    ∃ further, miners.map MinerInfo.address =
        (s.usable req user).take req.resourceMeta.node.toNat ++ further ∧
      further.Nodup ∧ (∀ m ∈ further, m ∉ req.resourceMeta.targetMiners) ∧
      (further ≠ [] → (s.usable req user).length < req.resourceMeta.node.toNat) ∧
      (req.resourceMeta.targetMiners.length < req.resourceMeta.node.toNat ∨
        req.resourceMeta.node.toNat ≤ (s.usable req user).length) := by
  rcases selectMiners_some staffed selected with
    ⟨enough, rfl⟩ | ⟨few, searched, further, filtered, rfl⟩
  · refine ⟨[], ?_, nodup_nil, by simp, fun more => absurd rfl more, .inr enough⟩
    rw [map_take, offers_addresses keyed, append_nil]
  · refine ⟨further.map MinerInfo.address, ?_, ?_, ?_, fun _ => few, .inl searched⟩
    · rw [map_append, offers_addresses keyed, take_of_length_le few.le]
    · obtain ⟨-, rest, listed⟩ := filterNMiners_ok filtered
      have nodup : ((s.candidates req user).map MinerInfo.address).Nodup := candidates_nodup keyed
      rw [← listed, Multiset.map_coe, Multiset.coe_nodup, map_append] at nodup
      exact (nodup_append.mp nodup).1
    · intro m member
      obtain ⟨miner, listed, rfl⟩ := mem_map.mp member
      obtain ⟨k, po, other, registered, -, rfl⟩ := mem_of_filterNMiners filtered listed
      have own : po.provider = k := keyed k po registered
      rw [← own] at other
      exact other

end

end

def MetaState.Matches (s : MetaState) (req : CreateDatabaseHeader) (user m : AccountAddress) :
    Prop :=
  ∃ po, s.loadProviderObject m = some po ∧ Suits po req user

structure Founded (env : Env) (tx : SignedTx CreateDatabaseHeader) (s s' : MetaState)
    (profile : SQLChainProfile) : Prop where
  stored : s'.loadSQLChainObject (fromAccountAndNonce env tx.header.owner tx.header.nonce) =
    some profile
  count : profile.miners.length = tx.header.resourceMeta.node.toNat
  distinct : (profile.miners.map MinerInfo.address).Nodup
  matching : ∀ miner ∈ profile.miners, s.Matches tx.header tx.header.owner miner.address
  removed : ∀ miner ∈ profile.miners, s'.loadProviderObject miner.address = none
  targetsFirst : ∃ designated further,
    profile.miners.map MinerInfo.address = designated ++ further ∧
    (∀ m ∈ designated, m ∈ tx.header.resourceMeta.targetMiners) ∧
    (∀ m ∈ further, m ∉ tx.header.resourceMeta.targetMiners) ∧
    (further ≠ [] → ∀ m ∈ tx.header.resourceMeta.targetMiners,
      s.Matches tx.header tx.header.owner m → m ∈ designated)

section

variable {env : Env} {order : MinerOrder} {height : Nat} {s s' : MetaState}
  {tx : SignedTx CreateDatabaseHeader}

lemma mem_usable :
    m ∈ s.usable req user ↔ m ∈ req.resourceMeta.targetMiners ∧ s.Matches req user m := by
  rw [usable, mem_filter, isSome_iff_exists]
  refine and_congr_right fun _ => ?_
  constructor
  · rintro ⟨miner, offered⟩
    obtain ⟨po, registered, suits, -⟩ := offer_eq_some.mp offered
    exact ⟨po, registered, suits⟩
  · rintro ⟨po, registered, suits⟩
    exact ⟨_, offer_eq_some.mpr ⟨po, registered, suits, rfl⟩⟩

lemma createDatabase_ok (ran : apply env order (.createDatabase tx) height s = .ok (.ok (), s')) :
    (selectMiners order s tx.header tx.header.owner = .ok none ∧
      s'.view.databases = s.view.databases ∧ s'.view.provider = s.view.provider) ∨
    ∃ profile, 0 < tx.header.resourceMeta.node.toNat ∧
      selectMiners order s tx.header tx.header.owner = .ok (some profile.miners) ∧
      minAdvancePayment env tx.header ≤ tx.header.advancePayment ∧
      profile.gasPrice = tx.header.gasPrice ∧
      profile.users = [newSQLChainUser tx.header.owner (minAdvancePayment env tx.header)
        tx.header.advancePayment] ∧
      s'.loadSQLChainObject (fromAccountAndNonce env tx.header.owner tx.header.nonce) =
        some profile ∧ ∀ k, s'.loadProviderObject k =
        if k ∈ profile.miners.map MinerInfo.address then none else s.loadProviderObject k := by
  obtain ⟨middle, account, -, step, -, same⟩ := (apply_applied ran).inv
  simp only [← s'.view_databases_get, ← s'.view_provider_get, ← s.view_provider_get, same,
    MetaIndex.setAccount, selectMiners_view order s]
  clear same ran
  generalize s.view = index at step
  cases step with
  | unmatched signer selected => exact .inl ⟨selected, rfl, rfl⟩
  | database signer priced staffed advanced selected cost supported adjusted encoded fresh =>
    rename_i charged miners all token enc
    refine .inr ⟨newSQLChainProfile env tx tx.header.owner miners enc, node_pos staffed, selected,
      advanced, rfl, rfl, ?_, fun k => ?_⟩
    · simp [MetaIndex.storeProfile, deleteProviders_databases, MetaIndex.setDatabase,
        newSQLChainProfile]
    · rw [MetaIndex.storeProfile, deleteProviders_get, ← adjusted.provider]
      rfl

lemma Founded.of_selected (keyed : s.view.Keyed) (staffed : 0 < tx.header.resourceMeta.node.toNat)
    (selected : selectMiners order s tx.header tx.header.owner = .ok (some profile.miners))
    (stored : s'.loadSQLChainObject (fromAccountAndNonce env tx.header.owner tx.header.nonce) =
      some profile)
    (removed : ∀ k, s'.loadProviderObject k = if k ∈ profile.miners.map MinerInfo.address then none
      else s.loadProviderObject k)
    (distinct : ((s.usable tx.header tx.header.owner).take tx.header.resourceMeta.node.toNat).Nodup)
      : Founded env tx s s' profile := by
  obtain ⟨further, addresses, nodup, others, used, -⟩ :=
    selectMiners_addresses keyed staffed selected
  have designated : ∀ m ∈ (s.usable tx.header tx.header.owner).take
      tx.header.resourceMeta.node.toNat, m ∈ tx.header.resourceMeta.targetMiners :=
    fun m member => (mem_usable.mp (mem_of_mem_take member)).1
  refine ⟨stored, selectMiners_length staffed selected, ?_, ?_, ?_, _, further,
    addresses, designated, others, fun more m target matched => ?_⟩
  · rw [addresses, nodup_append]
    refine ⟨distinct, nodup, ?_⟩
    rintro m target m' other rfl
    exact others m other (designated m target)
  · intro miner member
    obtain ⟨k, po, registered, suits, rfl⟩ := selectMiners_mem selected miner member
    have own : po.provider = k := by
      rw [← s.view_provider_get] at registered
      exact keyed k po registered
    refine ⟨po, ?_, suits⟩
    rw [← registered, ← own]
    rfl
  · intro miner member
    rw [removed, if_pos (mem_map_of_mem member)]
  · rw [take_of_length_le (used more).le]
    exact mem_usable.mpr ⟨target, matched⟩

lemma Founded.provider_ne (founded : Founded env tx s s' profile)
    (staffed : 0 < tx.header.resourceMeta.node.toNat) : s'.view.provider ≠ s.view.provider := by
  intro providers
  have some : 0 < profile.miners.length := by
    rw [founded.count]
    exact staffed
  obtain ⟨miner, member⟩ := exists_mem_of_length_pos some
  obtain ⟨po, registered, -⟩ := founded.matching miner member
  have gone := founded.removed miner member
  rw [← s'.view_provider_get, providers, s.view_provider_get, registered] at gone
  simp at gone

/-- A creation that succeeds gives the database that was asked for exactly if no designated
miner is used twice and the designated miners are fewer than needed or enough of them match. -/
theorem createDatabase_founded_iff (keyed : s.view.Keyed)
    (ran : apply env order (.createDatabase tx) height s = .ok (.ok (), s')) :
    (∃ profile, Founded env tx s s' profile) ↔
      ((s.usable tx.header tx.header.owner).take tx.header.resourceMeta.node.toNat).Nodup ∧
      (tx.header.resourceMeta.targetMiners.length < tx.header.resourceMeta.node.toNat ∨
        tx.header.resourceMeta.node.toNat ≤ (s.usable tx.header tx.header.owner).length) := by
  rcases createDatabase_ok ran with
    ⟨selected, -, providers⟩ | ⟨profile, staffed, selected, -, -, -, stored, removed⟩
  · obtain ⟨few, designated⟩ := selectMiners_unmatched selected
    constructor
    · rintro ⟨profile, founded⟩
      exact absurd providers (founded.provider_ne (by omega))
    · rintro ⟨-, less | enough⟩ <;> omega
  · constructor
    · rintro ⟨profile', founded⟩
      obtain rfl := Option.some.inj (stored.symm.trans founded.stored)
      obtain ⟨further, addresses, -, -, -, searched⟩ :=
        selectMiners_addresses keyed staffed selected
      have distinct := founded.distinct
      rw [addresses] at distinct
      exact ⟨(nodup_append.mp distinct).1, searched⟩
    · rintro ⟨distinct, -⟩
      exact ⟨profile, .of_selected keyed staffed selected stored removed distinct⟩

end

namespace Sample

def ask (targets : List AccountAddress) (node : UInt16) : SignedTx CreateDatabaseHeader :=
  ⟨request targets node, ⟨transactionTypeCreateDatabase, 0⟩,
    sign 1 (.createDatabase (request targets node))⟩

lemma market_providers : market.view.Keyed ∧ market.view.InParticles := by
  have ran : replay [founder 1 1000, founder 3 1000, founder 4 1000, provide 3 1, provide 4 1] =
      .ok market := rfl
  exact applyIrreversible_providers ran

def staff (s : MetaState) : Option (List AccountAddress) :=
  (s.loadSQLChainObject (databaseID 102)).map fun so => so.miners.map MinerInfo.address

end Sample

open Sample in
theorem createDatabase_founded_designated :
    ∃ s' profile, apply Sample.env (choice.branchOrders 0) (.createDatabase (ask [4, 3] 2)) 0
        market = .ok (.ok (), s') ∧ staff s' = some [4, 3] ∧
      Founded Sample.env (ask [4, 3] 2) market s' profile := by
  have ran : apply Sample.env (choice.branchOrders 0) (.createDatabase (ask [4, 3] 2)) 0 market =
      .ok (.ok (), _) := rfl
  obtain ⟨profile, founded⟩ := (createDatabase_founded_iff market_providers.1 ran).mpr (by decide)
  exact ⟨_, profile, ran, by decide, founded⟩

open Sample in
/-- Miner 5 is not registered, miner 3 is: the call succeeds and creates nothing. -/
theorem createDatabase_not_founded :
    (∃ s', apply Sample.env (choice.branchOrders 0) (.createDatabase (ask [5, 3] 2)) 0 market =
        .ok (.ok (), s') ∧ staff s' = none) ∧
    ∃ s', apply Sample.env (choice.branchOrders 0) (.createDatabase (ask [3, 3] 2)) 0 market =
        .ok (.ok (), s') ∧ staff s' = some [3, 3] :=
  ⟨⟨_, rfl, by decide⟩, _, rfl, by decide⟩

end SQLess.BlockProducer
