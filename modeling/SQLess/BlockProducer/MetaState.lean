import Mathlib.Data.String.Basic
import SQLess.Lib.Sorting
import SQLess.BlockProducer.MetaStateCore

/-! The account state as a function of its merged view. -/

namespace SQLess.BlockProducer

open Lib FiniteMap MetaState MetaIndex

variable {s : MetaState} {po : ProviderProfile} {req : CreateDatabaseHeader} {user : AccountAddress}
  {miner : MinerInfo} {order' : MinerOrder} {tx : Transaction}

namespace MetaIndex

def setAccount (index : MetaIndex) (k : AccountAddress) (v : Account) : MetaIndex :=
  { index with accounts := index.accounts.insert k v }

def setDatabase (index : MetaIndex) (k : DatabaseID) (v : SQLChainProfile) : MetaIndex :=
  { index with databases := index.databases.insert k v }

def setProvider (index : MetaIndex) (k : AccountAddress) (v : ProviderProfile) : MetaIndex :=
  { index with provider := index.provider.insert k v }

def deleteProvider (index : MetaIndex) (k : AccountAddress) : MetaIndex :=
  { index with provider := index.provider.erase k }

end MetaIndex

namespace MetaState

def NoNil (s : MetaState) : Prop := ∀ k, s.dirty.accounts.get k ≠ some none

/-- The account is marked as deleted over an object of the read-only layer, where
`loadOrStoreAccountObject` still finds it. -/
def Shadowed (s : MetaState) (k : AccountAddress) : Prop :=
  s.dirty.accounts.get k = some none ∧ s.readonly.accounts.get k ≠ none

lemma NoNil.not_shadowed (clean : s.NoNil) (k) : ¬s.Shadowed k :=
  fun shadowed => clean k shadowed.1

lemma view_accounts_get (s : MetaState) (k) : s.view.accounts.get k = s.loadAccountObject k := by
  simp only [view, get_overlay, loadAccountObject]
  cases s.dirty.accounts.get k <;> rfl

lemma view_databases_get (s : MetaState) (k) : s.view.databases.get k = s.loadSQLChainObject k := by
  simp only [view, get_overlay, loadSQLChainObject]
  cases s.dirty.databases.get k <;> rfl

lemma view_provider_get (s : MetaState) (k) : s.view.provider.get k = s.loadProviderObject k := by
  simp only [view, get_overlay, loadProviderObject]
  cases s.dirty.provider.get k <;> rfl

lemma lookupAccount_of_live (live : s.dirty.accounts.get k ≠ some none) :
    s.lookupAccount k = (s.loadAccountObject k).map some := by
  unfold lookupAccount loadAccountObject
  rcases found : s.dirty.accounts.get k with _ | _ | account
  · rfl
  · exact absurd found live
  · rfl

lemma loadAccountObject_of_lookup (found : s.lookupAccount k = some entry) :
    s.loadAccountObject k = entry := by
  unfold lookupAccount at found
  unfold loadAccountObject
  rcases above : s.dirty.accounts.get k with _ | present
  · simp only [above, Option.map_eq_some_iff] at found
    obtain ⟨o, below, rfl⟩ := found
    exact below
  · simp only [above, Option.some.injEq] at found
    exact found

lemma lookupAccount_eq (clean : s.NoNil) (k) :
    s.lookupAccount k = (s.loadAccountObject k).map some :=
  lookupAccount_of_live (clean k)

lemma view_setDirtyAccount (s : MetaState) (k v) :
    (s.setDirtyAccount k v).view = s.view.setAccount k v := by
  simp only [view, setDirtyAccount, setAccount, overlay_insert]

lemma view_setDirtyDatabase (s : MetaState) (k v) :
    (s.setDirtyDatabase k v).view = s.view.setDatabase k v := by
  simp only [view, setDirtyDatabase, setDatabase, overlay_insert]

lemma view_setDirtyProvider (s : MetaState) (k v) :
    (s.setDirtyProvider k v).view = s.view.setProvider k v := by
  simp only [view, setDirtyProvider, setProvider, overlay_insert]

lemma view_deleteProviderObject (s : MetaState) (k) :
    (s.deleteProviderObject k).view = s.view.deleteProvider k := by
  simp only [view, deleteProviderObject, deleteProvider, overlay_delete]

lemma view_clean (readonly) : (⟨newDirtyIndex, readonly⟩ : MetaState).view = readonly := by
  simp [view, newDirtyIndex]

lemma setDirtyAccount_noNil (clean : s.NoNil) (k v) : (s.setDirtyAccount k v).NoNil := by
  intro query
  simp only [setDirtyAccount, get_insert]
  split
  · simp
  · exact clean query

lemma setAccountIn_noNil (clean : s.NoNil) (layer k v) : (s.setAccountIn layer k v).NoNil := by
  cases layer with
  | dirty => exact s.setDirtyAccount_noNil clean k v
  | readonly => exact clean

lemma noNil_clean (readonly) : (⟨newDirtyIndex, readonly⟩ : MetaState).NoNil := by
  intro k
  simp [newDirtyIndex]

end MetaState

structure SameView (left right : MetaIndex) (s t : MetaState) : Prop where
  view : s.view = t.view
  leftClean : s.NoNil
  rightClean : t.NoNil
  leftBase : s.readonly = left
  rightBase : t.readonly = right

variable {left right : MetaIndex} {s t : MetaState}

namespace SameView

section

variable (same : SameView left right s t)
include same

lemma account (k : AccountAddress) : s.loadAccountObject k = t.loadAccountObject k := by
  rw [← s.view_accounts_get, same.view, t.view_accounts_get]

lemma database (k : DatabaseID) : s.loadSQLChainObject k = t.loadSQLChainObject k := by
  rw [← s.view_databases_get, same.view, t.view_databases_get]

lemma provider (k : AccountAddress) : s.loadProviderObject k = t.loadProviderObject k := by
  rw [← s.view_provider_get, same.view, t.view_provider_get]

lemma providers : s.view.provider = t.view.provider := by
  rw [same.view]

lemma lookup (k) : s.lookupAccount k = t.lookupAccount k := by
  rw [lookupAccount_eq same.leftClean, lookupAccount_eq same.rightClean,
    same.account]

lemma nextNonce (k) : s.nextNonce k = t.nextNonce k := by
  rw [MetaState.nextNonce, MetaState.nextNonce, same.lookup]

lemma setAccount (k : AccountAddress) (v) :
    SameView left right (s.setDirtyAccount k v) (t.setDirtyAccount k v) := by
  refine ⟨?_, s.setDirtyAccount_noNil same.leftClean k v,
    t.setDirtyAccount_noNil same.rightClean k v, same.leftBase, same.rightBase⟩
  rw [view_setDirtyAccount, view_setDirtyAccount, same.view]

lemma setDatabase (k : DatabaseID) (v) :
    SameView left right (s.setDirtyDatabase k v) (t.setDirtyDatabase k v) := by
  refine ⟨?_, same.leftClean, same.rightClean, same.leftBase, same.rightBase⟩
  rw [view_setDirtyDatabase, view_setDirtyDatabase, same.view]

lemma setProvider (k : AccountAddress) (v) :
    SameView left right (s.setDirtyProvider k v) (t.setDirtyProvider k v) := by
  refine ⟨?_, same.leftClean, same.rightClean, same.leftBase, same.rightBase⟩
  rw [view_setDirtyProvider, view_setDirtyProvider, same.view]

lemma deleteProvider (k : AccountAddress) :
    SameView left right (s.deleteProviderObject k) (t.deleteProviderObject k) := by
  refine ⟨?_, same.leftClean, same.rightClean, same.leftBase, same.rightBase⟩
  rw [view_deleteProviderObject, view_deleteProviderObject, same.view]

lemma deleteProviders (miners : List MinerInfo) :
    SameView left right (miners.foldl (fun s miner => s.deleteProviderObject miner.address) s)
      (miners.foldl (fun s miner => s.deleteProviderObject miner.address) t) := by
  induction miners generalizing s t with
  | nil => exact same
  | cons miner rest ih => exact ih (same.deleteProvider miner.address)

end

end SameView

open Program

lemma dirtyAccount_run (clean : s.NoNil) (k : AccountAddress) (missing) :
    match s.loadAccountObject k with
    | none => dirtyAccount k missing s = .ok (.error missing, s)
    | some account => ∃ s', dirtyAccount k missing s = .ok (.ok account, s') ∧
        s'.view = s.view ∧ s'.NoNil ∧ s'.readonly = s.readonly := by
  unfold dirtyAccount loadAccountObject
  rw [get_bind_run]
  rcases found : s.dirty.accounts.get k with _ | _ | account
  · rcases below : s.readonly.accounts.get k with _ | src
    · rfl
    · refine ⟨s.setDirtyAccount k src, rfl, ?_, s.setDirtyAccount_noNil clean k src, rfl⟩
      rw [view_setDirtyAccount]
      have loaded : s.view.accounts.get k = some src := by
        simp [view_accounts_get, loadAccountObject, found, below]
      rw [setAccount, insert_of_get loaded]
  · exact absurd found (clean k)
  · exact ⟨s, rfl, rfl, clean, rfl⟩

variable (env : Env) (k : AccountAddress)

lemma dirtyAccount_similar (missing) :
    Similar (SameView left right) (dirtyAccount k missing) (dirtyAccount k missing) := by
  intro s t same
  have ran := dirtyAccount_run same.leftClean k missing
  have ran' := dirtyAccount_run same.rightClean k missing
  rw [same.account k] at ran
  rcases found : t.loadAccountObject k with _ | account
  · simp only [found] at ran ran'
    rw [ran, ran']
    exact ⟨rfl, same⟩
  · simp only [found] at ran ran'
    obtain ⟨s', ran, view, clean, base⟩ := ran
    obtain ⟨t', ran', view', clean', base'⟩ := ran'
    rw [ran, ran']
    refine ⟨rfl, ⟨?_, clean, clean', base.trans same.leftBase, base'.trans same.rightBase⟩⟩
    rw [view, view', same.view]

lemma adjustAccountToken_similar (change context k amount tokenType) :
    Similar (SameView left right) (adjustAccountToken change context k amount tokenType)
      (adjustAccountToken change context k amount tokenType) := by
  refine (dirtyAccount_similar _ _).bind fun dst => ?_
  refine (Similar.orPanic _).bind fun token => ?_
  refine (Similar.orFail _).bind fun balance => ?_
  exact .modify fun s t same => same.setAccount _ _

lemma increaseNonce_similar :
    Similar (SameView left right) (increaseNonce k) (increaseNonce k) := by
  refine (dirtyAccount_similar _ _).bind fun dst => ?_
  exact .modify fun s t same => same.setAccount _ _

lemma loadOrStore_similar (v) {rest rest' : MetaProgram α}
    (tail : Similar (SameView left right) rest rest') :
    Similar (SameView left right) (loadOrStoreAccountObject k v >>= fun _ => rest)
      (loadOrStoreAccountObject k v >>= fun _ => rest') := by
  have started : ∀ {s : MetaState}, s.NoNil →
      ∃ found, loadOrStoreAccountObject k v s = .ok (.ok found,
        if s.loadAccountObject k = none then s.setDirtyAccount k v else s) := by
    intro s clean
    unfold loadOrStoreAccountObject findAccountObject loadAccountObject
    rw [get_bind_run]
    rcases found : s.dirty.accounts.get k with _ | _ | account
    · rcases below : s.readonly.accounts.get k with _ | src <;> exact ⟨_, rfl⟩
    · exact absurd found (clean k)
    · exact ⟨_, rfl⟩
  intro s t same
  obtain ⟨found, ran⟩ := started same.leftClean
  obtain ⟨found', ran'⟩ := started same.rightClean
  rw [bind_run, bind_run, ran, ran', same.account k]
  apply tail
  split
  · exact same.setAccount k v
  · exact same

lemma moveAccountToken_similar (sender receiver amount tokenType) :
    Similar (SameView left right) (moveAccountToken sender receiver amount tokenType)
      (moveAccountToken sender receiver amount tokenType) := by
  refine loadOrStore_similar _ _ (.get ?_)
  intro s t same
  rw [same.lookup sender, same.lookup receiver]
  rcases t.lookupAccount sender with _ | so
  · exact ⟨rfl, same⟩
  · rcases t.lookupAccount receiver with _ | ro
    · exact ⟨rfl, same⟩
    · refine Similar.bind (Similar.orPanic so) (fun so => ?_) s t same
      refine (Similar.orPanic ro).bind fun ro => ?_
      refine (Similar.orPanic _).bind fun token => ?_
      refine (Similar.orFail _).bind fun sb => ?_
      refine (Similar.orFail _).bind fun rb => ?_
      exact .modify fun s t same => (same.setAccount _ _).setAccount _ _

lemma transferAccountToken_similar (tx) :
    Similar (SameView left right) (transferAccountToken env tx) (transferAccountToken env tx) := by
  unfold transferAccountToken
  split
  · exact .fail _
  · exact .ite (.fail _)
      (.ite (.pure _) (moveAccountToken_similar _ _ _ _))

lemma transferSQLChainTokenBalance_similar (tx) :
    Similar (SameView left right) (transferSQLChainTokenBalance env tx)
      (transferSQLChainTokenBalance env tx) := by
  unfold transferSQLChainTokenBalance
  split
  · exact Similar.fail _
  · split
    · exact Similar.fail _
    · refine Similar.ite (Similar.fail _) (Similar.get ?_)
      intro s t same
      rw [same.database]
      rcases t.loadSQLChainObject (databaseID tx.header.receiver) with _ | sqlchain
      · exact ⟨rfl, same⟩
      · refine Similar.ite (Similar.fail _) ?_ s t same
        simp only [same.account]
        refine (Similar.orPanic _).bind fun account => ?_
        refine (Similar.orPanic _).bind fun token => ?_
        refine Similar.ite (Similar.fail _) ?_
        split
        · exact Similar.pure _
        · refine (Similar.orPanic _).bind fun user => ?_
          refine (Similar.orFail _).bind fun sqlchain => ?_
          exact Similar.modify fun s t same => (same.setDatabase _ _).setAccount _ _

lemma refundProvider_similar (sender height) :
    Similar (SameView left right) (refundProvider sender height)
      (refundProvider sender height) := by
  refine .ite (.get ?_) (.pure _)
  intro s t same
  rw [same.provider]
  rcases t.loadProviderObject sender with _ | po
  · exact ⟨rfl, same⟩
  · refine Similar.bind (adjustAccountToken_similar _ _ _ _ _) (fun _ => ?_) s t same
    exact Similar.modify fun s t same => same.deleteProvider _

lemma updateProviderList_similar (tx height) :
    Similar (SameView left right) (updateProviderList env tx height)
      (updateProviderList env tx height) := by
  unfold updateProviderList
  split
  · exact .fail _
  · refine (refundProvider_similar _ _).bind fun _ => ?_
    refine (adjustAccountToken_similar _ _ _ _ _).bind fun _ => ?_
    exact .modify fun s t same => same.setProvider _ _

lemma createProfile_similar (tx sender miners) :
    Similar (SameView left right) (createProfile env tx sender miners)
      (createProfile env tx sender miners) := by
  refine (Similar.orFail _).bind fun all => ?_
  refine (adjustAccountToken_similar _ _ _ _ _).bind fun _ => ?_
  refine (Similar.orFail _).bind fun enc => .get ?_
  intro s t same
  rw [same.database]
  rcases t.loadSQLChainObject (fromAccountAndNonce env tx.header.owner tx.header.nonce) with _ | db
  · exact ⟨rfl, ((same.setAccount _ _).setDatabase _ _).deleteProviders _⟩
  · exact ⟨rfl, same⟩

lemma updatePermission_similar (tx) :
    Similar (SameView left right) (updatePermission env tx) (updatePermission env tx) := by
  unfold updatePermission
  split
  · exact .fail _
  · refine .get ?_
    intro s t same
    rw [same.database]
    rcases t.loadSQLChainObject (databaseID tx.header.targetSQLChain) with _ | so
    · exact ⟨rfl, same⟩
    · refine Similar.bind (Similar.orFail _) (fun scanned => ?_) s t same
      refine Similar.ite (Similar.fail _) ?_
      exact .modify fun s t same => same.setDatabase _ _

lemma updateKeys_similar (tx) :
    Similar (SameView left right) (updateKeys env tx) (updateKeys env tx) := by
  refine .get ?_
  intro s t same
  rw [same.database]
  rcases t.loadSQLChainObject (databaseID tx.header.targetSQLChain) with _ | so
  · exact ⟨rfl, same⟩
  · simp only
    generalize so.users.find? _ = listed
    rcases listed with _ | user
    · exact ⟨rfl, same⟩
    · exact Similar.ite (Similar.pure _) (Similar.fail _) s t same

lemma updateBilling_similar (tx) :
    Similar (SameView left right) (updateBilling env tx) (updateBilling env tx) := by
  refine Similar.get ?_
  intro s t same
  rw [same.database]
  rcases t.loadSQLChainObject (databaseID tx.header.receiver) with _ | profile
  · exact ⟨rfl, same⟩
  · refine Similar.ite (Similar.fail _) (Similar.ite (Similar.pure _) (Similar.ite ?_
      (Similar.fail _))) s t same
    refine (Similar.orPanic _).bind fun costs => ?_
    exact Similar.modify fun s t same => same.setDatabase _ _

def MetaIndex.DistinctNodeIDs (index : MetaIndex) : Prop :=
  ∀ k k' po po', index.provider.get k = some po → index.provider.get k' = some po' →
    po.nodeID = po'.nodeID → k = k'

structure Suits (po : ProviderProfile) (req : CreateDatabaseHeader) (user : AccountAddress) :
    Prop where
  price : po.gasPrice ≤ req.gasPrice
  load : req.resourceMeta.loadAvgPerCPU.gt .zero = true →
    po.loadAvgPerCPU.gt req.resourceMeta.loadAvgPerCPU = false
  memory : req.resourceMeta.memory ≤ po.memory
  space : req.resourceMeta.space ≤ po.space
  token : po.tokenType = req.tokenType
  targeted : po.targetUser = [] ∨ user ∈ po.targetUser

lemma isProviderReqMatch_ok : isProviderReqMatch po req = .ok () ↔ po.gasPrice ≤ req.gasPrice ∧
      (req.resourceMeta.loadAvgPerCPU.gt .zero = true →
        po.loadAvgPerCPU.gt req.resourceMeta.loadAvgPerCPU = false) ∧
      req.resourceMeta.memory ≤ po.memory ∧ req.resourceMeta.space ≤ po.space ∧
      po.tokenType = req.tokenType := by
  unfold isProviderReqMatch
  split
  · rename_i dear
    simp [UInt64.not_le.mpr dear]
  · rename_i cheap
    rw [UInt64.not_lt] at cheap
    split
    · rename_i busy
      simp only [Bool.and_eq_true] at busy
      simp [busy]
    · rename_i idle
      simp only [Bool.and_eq_true, not_and, Bool.not_eq_true] at idle
      split
      · rename_i less
        simp [UInt64.not_le.mpr less]
      · rename_i memory
        rw [UInt64.not_lt] at memory
        split
        · rename_i less
          simp [UInt64.not_le.mpr less]
        · rename_i space
          rw [UInt64.not_lt] at space
          split
          · rename_i differs
            simp [differs]
          · rename_i token
            simp only [true_iff]
            exact ⟨cheap, idle, memory, space, Classical.not_not.mp token⟩

lemma isProviderUserMatch_iff :
    isProviderUserMatch targetUsers user = true ↔ targetUsers = [] ∨ user ∈ targetUsers := by
  cases targetUsers with
  | nil | cons first rest => simp [isProviderUserMatch]

lemma filterMiner_ok :
    filterMiner po req user = .ok miner ↔ Suits po req user ∧ miner = newMinerInfo po := by
  unfold filterMiner
  by_cases targeted : isProviderUserMatch po.targetUser user = true
  · rw [if_pos targeted]
    rw [isProviderUserMatch_iff] at targeted
    rcases checked : isProviderReqMatch po req with error | accepted
    · have refused : ¬Suits po req user := by
        rintro ⟨price, load, memory, space, token, -⟩
        rw [isProviderReqMatch_ok.mpr ⟨price, load, memory, space, token⟩] at checked
        simp at checked
      simp [Except.map, refused]
    · obtain ⟨price, load, memory, space, token⟩ := isProviderReqMatch_ok.mp checked
      have suits : Suits po req user := ⟨price, load, memory, space, token, targeted⟩
      simp [Except.map, suits, eq_comm]
  · rw [if_neg targeted]
    rw [isProviderUserMatch_iff] at targeted
    have refused : ¬Suits po req user := fun suits => targeted suits.targeted
    simp [refused]

lemma filterMiner_toOption : (filterMiner po req user).toOption = some miner ↔
      Suits po req user ∧ miner = newMinerInfo po := by
  rw [← filterMiner_ok]
  cases filterMiner po req user with
  | error error | ok found => simp [Except.toOption]

def MetaState.candidates (s : MetaState) (req : CreateDatabaseHeader) (user : AccountAddress) :
    Multiset MinerInfo :=
  (s.view.provider.eraseAll req.resourceMeta.targetMiners).values.filterMap
    fun po => (filterMiner po req user).toOption

lemma mem_candidates : miner ∈ s.candidates req user ↔ ∃ k po, k ∉ req.resourceMeta.targetMiners ∧
      s.view.provider.get k = some po ∧ Suits po req user ∧ miner = newMinerInfo po := by
  simp only [candidates, Multiset.mem_filterMap, mem_values,
    get_eraseAll, filterMiner_toOption]
  constructor
  · rintro ⟨po, ⟨k, found⟩, suits, rfl⟩
    split at found
    · simp at found
    · rename_i other
      exact ⟨k, po, other, found, suits, rfl⟩
  · rintro ⟨k, po, other, found, suits, rfl⟩
    exact ⟨po, ⟨k, by rw [if_neg other, found]⟩, suits, rfl⟩

lemma filterNMiners_candidates (order s req user minerCount) :
    filterNMiners order s req user minerCount =
      if (s.candidates req user).card < minerCount then .error .noEnoughMiner
      else .ok ((order.list (s.candidates req user)).take minerCount) := rfl

lemma filterNMiners_order (order order' s) (distinct : s.view.DistinctNodeIDs)
    (req user minerCount) :
    filterNMiners order s req user minerCount = filterNMiners order' s req user minerCount := by
  rw [filterNMiners_candidates, filterNMiners_candidates]
  generalize listed : s.candidates req user = miners
  have perm : (order.list miners).Perm (order'.list miners) := by
    rw [← Multiset.coe_eq_coe, order.perm, order'.perm]
  have same : (order.list miners).take minerCount = (order'.list miners).take minerCount := by
    refine Arranged.take_eq perm (order.sorted miners) (order'.sorted miners) ?_
    intro left leftMember right rightMember equal different
    rw [← Multiset.mem_coe, order.perm, ← listed, mem_candidates] at leftMember rightMember
    obtain ⟨k, po, -, found, -, rfl⟩ := leftMember
    obtain ⟨k', po', -, found', -, rfl⟩ := rightMember
    obtain rfl := distinct k k' po po' found found' equal
    rw [found, Option.some.injEq] at found'
    exact absurd (congrArg newMinerInfo found') different
  rw [same]

lemma matchTargetMiners_eq (same : s.view.provider = t.view.provider) (req : CreateDatabaseHeader)
    (user targets miners err) : matchTargetMiners s req user targets miners err =
      matchTargetMiners t req user targets miners err := by
  induction targets generalizing miners err with
  | nil => rfl
  | cons m rest ih =>
    have loaded : s.loadProviderObject m = t.loadProviderObject m := by
      rw [← s.view_provider_get, same, t.view_provider_get]
    simp only [matchTargetMiners, loaded, ih]

variable {order : MinerOrder}

lemma selectMiners_eq (same : s.view.provider = t.view.provider)
    (ordered : order = order' ∨ s.view.DistinctNodeIDs) (req user) :
    selectMiners order s req user = selectMiners order' t req user := by
  have further : ∀ minerCount, filterNMiners order s req user minerCount =
      filterNMiners order' t req user minerCount := by
    intro minerCount
    have viewed : filterNMiners order' s req user minerCount =
        filterNMiners order' t req user minerCount := by
      simp only [filterNMiners, same]
    rw [← viewed]
    rcases ordered with rfl | distinct
    · rfl
    · exact filterNMiners_order order order' s distinct req user minerCount
  simp only [selectMiners, matchTargetMiners_eq same, further]

lemma selectMiners_view (order s req user) :
    selectMiners order s req user = selectMiners order ⟨newDirtyIndex, s.view⟩ req user := by
  apply selectMiners_eq _ (.inl rfl)
  rw [view_clean]

lemma matchProvidersWithUser_similar (tx) (same : SameView left right s t)
    (chosen : selectMiners order s tx.header tx.header.owner =
      selectMiners order' t tx.header tx.header.owner) :
    Agree (SameView left right) (matchProvidersWithUser env order tx s)
      (matchProvidersWithUser env order' tx t) := by
  unfold matchProvidersWithUser
  rcases pubKeyHash env tx.verifier.signee with error | sender
  · exact ⟨rfl, same⟩
  · by_cases owner : sender = tx.header.owner
    · subst owner
      refine Agree.ite ⟨rfl, same⟩ (Agree.ite ⟨rfl, same⟩ (Agree.ite ⟨rfl, same⟩
        (Agree.ite ⟨rfl, same⟩ ?_)))
      rw [get_bind_run, get_bind_run, chosen]
      refine Similar.bind (Similar.orFail _) (fun selected => ?_) s t same
      cases selected with
      | none => exact Similar.pure _
      | some miners => exact createProfile_similar env tx tx.header.owner miners
    · simp only [ne_eq, owner, not_false_eq_true, if_true]
      exact ⟨rfl, same⟩

def SameMiners (order order' : MinerOrder) (tx : Transaction) (s t : MetaState) : Prop :=
  ∀ create, tx.unwrap = .createDatabase create →
    selectMiners order s create.header create.header.owner =
      selectMiners order' t create.header create.header.owner

lemma applyTransaction_similar (height) (plain : tx.isBaseAccount = false)
    (same : SameView left right s t) (chosen : SameMiners order order' tx s t) :
    Agree (SameView left right) (applyTransaction env order height tx s)
      (applyTransaction env order' height tx t) := by
  induction tx with
  | transfer tx =>
    exact Similar.handle _ (transferSQLChainTokenBalance_similar env tx)
      (transferAccountToken_similar env tx) s t same
  | baseAccount => simp [Transaction.isBaseAccount] at plain
  | provideService tx => exact updateProviderList_similar env tx height s t same
  | createDatabase tx => exact matchProvidersWithUser_similar env tx same (chosen tx rfl)
  | updatePermission tx => exact updatePermission_similar env tx s t same
  | issueKeys tx => exact updateKeys_similar env tx s t same
  | updateBilling tx => exact updateBilling_similar env tx s t same
  | wrapper inner ih => exact ih plain chosen

lemma expectedNonce_similar (tx) :
    Similar (SameView left right) (expectedNonce env tx) (expectedNonce env tx) := by
  refine Similar.get ?_
  intro s t same
  rw [same.nextNonce]
  refine Similar.bind (Similar.orPanic _) (fun checked => ?_) s t same
  cases checked with
  | ok => exact Similar.pure _
  | error => exact Similar.ite (Similar.fail _) (Similar.pure _)

lemma expectedNonce_state {env s' result} (ran : expectedNonce env tx s = .ok (result, s')) :
    s' = s := by
  simp only [expectedNonce, get_bind_run, orPanic_bind_eq_ok] at ran
  obtain ⟨checked, -, ran⟩ := ran
  cases checked with
  | ok =>
    cases ran
    rfl
  | error =>
    simp only at ran
    split at ran
    · cases ran
      rfl
    · cases ran
      rfl

lemma apply_similar (height) (plain : tx.isBaseAccount = false) (same : SameView left right s t)
    (ordered : order = order' ∨ s.view.DistinctNodeIDs) :
    Agree (SameView left right) (apply env order tx height s) (apply env order' tx height t) := by
  refine (expectedNonce_similar env tx s t same).bind ?_
  intro nextNonce s' t' ran ran' later
  obtain rfl := expectedNonce_state ran
  obtain rfl := expectedNonce_state ran'
  split
  · exact ⟨rfl, later⟩
  · have chosen : SameMiners order order' tx s' t' :=
      fun create _ => selectMiners_eq later.providers ordered create.header create.header.owner
    refine (applyTransaction_similar env height plain later chosen).bind ?_
    intro _ s'' t'' _ _ applied
    exact increaseNonce_similar _ s'' t'' applied

lemma noNil_of_similar {program : MetaProgram α}
    (similar : ∀ base, Similar (SameView base base) program program) :
    Preserves MetaState.NoNil program := by
  intro s result s' clean ran
  have agreed := similar s.readonly s s ⟨rfl, clean, clean, rfl, rfl⟩
  rw [ran] at agreed
  exact agreed.2.leftClean

lemma storeBaseAccount_noNil (v) : Preserves MetaState.NoNil (storeBaseAccount k v) := by
  have loaded : Preserves MetaState.NoNil (loadOrStoreAccountObject k v) := by
    refine .get fun s => ?_
    rcases s.findAccountObject k with _ | found
    · refine .bind ?_ fun _ => .pure _
      exact .modify fun s clean => s.setDirtyAccount_noNil clean k v
    · exact .pure _
  refine loaded.bind fun found => ?_
  rcases found with _ | ⟨layer, ao⟩
  · exact .pure _
  · refine .ite (.fail _) ?_
    refine (Preserves.orFail _).bind fun cb => ?_
    refine (Preserves.orFail _).bind fun sb => ?_
    exact .modify fun s clean => s.setAccountIn_noNil clean layer k _

lemma storeProfile_noNil (profile : SQLChainProfile) (clean : s.NoNil) :
    (storeProfile profile s).NoNil := by
  have same : SameView s.readonly s.readonly s s := ⟨rfl, clean, clean, rfl, rfl⟩
  exact (((same.setAccount _ _).setDatabase _ _).deleteProviders _).leftClean

lemma applyTransaction_noNil (order height tx) :
    Preserves MetaState.NoNil (applyTransaction env order height tx) := by
  have plainly {tx : Transaction} (plain : tx.isBaseAccount = false) :
      Preserves MetaState.NoNil (applyTransaction env order height tx) := by
    intro s result s' clean ran
    have chosen : SameMiners order order tx s s := fun _ _ => rfl
    have same : SameView s.readonly s.readonly s s := ⟨rfl, clean, clean, rfl, rfl⟩
    have agreed := applyTransaction_similar env height plain same chosen
    rw [ran] at agreed
    exact agreed.2.leftClean
  induction tx with
  | baseAccount account => exact storeBaseAccount_noNil account.address account
  | wrapper inner ih => exact ih
  | _ => exact plainly rfl

lemma apply_noNil {env} (clean : s.NoNil)
    (ran : apply env order tx height s = .ok (result, s')) : s'.NoNil := by
  have kept : Preserves MetaState.NoNil (apply env order tx height) := by
    refine (noNil_of_similar fun _ => expectedNonce_similar env tx).bind fun nextNonce => ?_
    refine .ite (.fail _) ?_
    refine (applyTransaction_noNil env order height tx).bind fun _ => ?_
    exact noNil_of_similar fun _ => increaseNonce_similar _
  exact kept s result s' clean ran

end SQLess.BlockProducer
