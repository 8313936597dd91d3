import SQLess.BlockProducer.Coherence
import SQLess.BlockProducer.Nonces

/-! Panics. -/

namespace SQLess.BlockProducer

open Lib Program List MetaState Keeps Branch

variable {amount : UInt64} {token : Token} {n : BlockNode} {bl : BPBlock}

def SQLChainProfile.Sound (profile : SQLChainProfile) : Prop :=
  profile.tokenType = Token.particle.tokenType ∧ ∀ user ∈ profile.users, user.permission ≠ none

def ProviderProfile.Sound (po : ProviderProfile) : Prop :=
  po.tokenType = Token.particle.tokenType

structure SoundState (s : MetaState) : Prop where
  accounts : s.NoNil
  dirtyDatabases : ∀ id profile, s.dirty.databases.get id = some (some profile) →
    SQLChainProfile.Sound profile
  databases : ∀ id profile, s.readonly.databases.get id = some profile →
    SQLChainProfile.Sound profile
  dirtyProviders : ∀ k po, s.dirty.provider.get k = some (some po) → ProviderProfile.Sound po
  providers : ∀ k po, s.readonly.provider.get k = some po → ProviderProfile.Sound po

def WellFormed : Transaction → Prop
  | .transfer tx => tx.header.tokenType.token? ≠ none ∧ tx.mixin.txType ≠ transactionTypeBaseAccount
  | .updatePermission tx => tx.header.permission ≠ none
  | .updateBilling tx => userCosts tx.header.users ≠ none
  | .wrapper inner => WellFormed inner
  | _ => True

section

variable {env : Env} {order : MinerOrder} {height : Nat} {s t : MetaState}

namespace SoundState

lemma database (sound : SoundState s) {id profile}
    (found : s.loadSQLChainObject id = some profile) : SQLChainProfile.Sound profile := by
  unfold loadSQLChainObject at found
  split at found
  · rename_i entry dirty
    rw [found] at dirty
    exact sound.dirtyDatabases id profile dirty
  · exact sound.databases id profile found

lemma provider (sound : SoundState s) (found : s.loadProviderObject k = some po) :
    ProviderProfile.Sound po := by
  unfold loadProviderObject at found
  split at found
  · rename_i entry dirty
    rw [found] at dirty
    exact sound.dirtyProviders k po dirty
  · exact sound.providers k po found

lemma new : SoundState .new := by
  constructor <;> simp [MetaState.NoNil, MetaState.new, newDirtyIndex, newMetaIndex]

section

variable (sound : SoundState s)
include sound

lemma setDirtyAccount (k v) : SoundState (s.setDirtyAccount k v) :=
  ⟨setDirtyAccount_noNil sound.accounts k v, sound.dirtyDatabases, sound.databases,
    sound.dirtyProviders, sound.providers⟩

lemma setAccountIn (layer k v) : SoundState (s.setAccountIn layer k v) := by
  cases layer with
  | dirty => exact sound.setDirtyAccount k v
  | readonly =>
    exact ⟨sound.accounts, sound.dirtyDatabases, sound.databases, sound.dirtyProviders,
      sound.providers⟩

lemma setDirtyDatabase (k) (new : SQLChainProfile.Sound profile) :
    SoundState (s.setDirtyDatabase k profile) := by
  refine ⟨sound.accounts, ?_, sound.databases, sound.dirtyProviders, sound.providers⟩
  intro id other found
  simp only [MetaState.setDirtyDatabase, FiniteMap.get_insert] at found
  split at found
  · rw [← Option.some.inj (Option.some.inj found)]
    exact new
  · exact sound.dirtyDatabases id other found

lemma setDirtyProvider (k) (new : ProviderProfile.Sound po) :
    SoundState (s.setDirtyProvider k po) := by
  refine ⟨sound.accounts, sound.dirtyDatabases, sound.databases, ?_, sound.providers⟩
  intro key other found
  simp only [MetaState.setDirtyProvider, FiniteMap.get_insert] at found
  split at found
  · rw [← Option.some.inj (Option.some.inj found)]
    exact new
  · exact sound.dirtyProviders key other found

lemma deleteProviderObject (k) : SoundState (s.deleteProviderObject k) := by
  refine ⟨sound.accounts, sound.dirtyDatabases, sound.databases, ?_, sound.providers⟩
  intro key other found
  simp only [MetaState.deleteProviderObject, FiniteMap.get_insert] at found
  split at found
  · simp at found
  · exact sound.dirtyProviders key other found

lemma storeProfile (new : SQLChainProfile.Sound profile) :
    SoundState (BlockProducer.storeProfile profile s) := by
  have deleted : ∀ (miners : List MinerInfo) {s : MetaState}, SoundState s →
      SoundState (miners.foldl (fun s miner => s.deleteProviderObject miner.address) s) := by
    intro miners
    induction miners with
    | nil => exact id
    | cons miner rest ih => exact fun sound => ih (sound.deleteProviderObject miner.address)
  exact deleted _ ((sound.setDirtyAccount _ _).setDirtyDatabase _ new)

end

lemma layers (upper : SoundState s) (lower : SoundState t) : SoundState ⟨s.dirty, t.readonly⟩ :=
  ⟨upper.accounts, upper.dirtyDatabases, lower.databases, upper.dirtyProviders, lower.providers⟩

lemma clean (sound : SoundState s) : SoundState ⟨newDirtyIndex, s.readonly⟩ := new.layers sound

lemma commit (sound : SoundState s) : SoundState s.commit := by
  refine ⟨noNil_clean _, new.dirtyDatabases, ?_, new.dirtyProviders, ?_⟩
  · intro id profile found
    rw [MetaState.commit, view_databases_get] at found
    exact sound.database found
  · intro k po found
    rw [MetaState.commit, view_provider_get] at found
    exact sound.provider found

end SoundState

lemma dirtyAccount_keeps (k missing) : Keeps SoundState (dirtyAccount k missing) := by
  refine get ?_
  intro s sound
  rcases dirty : s.dirty.accounts.get k with _ | _ | account
  · rcases readonly : s.readonly.accounts.get k with _ | account
    · exact fail missing s sound
    · exact bind (modify fun s sound => sound.setDirtyAccount k account)
        (fun _ => pure account) s sound
  · exact absurd dirty (sound.accounts k)
  · exact pure account s sound

lemma adjustAccountToken_keeps (supported : tokenType.token? = some token) :
    Keeps SoundState (adjustAccountToken change context k amount tokenType) := by
  refine (dirtyAccount_keeps k _).bind fun dst => ?_
  refine .orPanic supported (.orFail fun balance _ => ?_)
  exact .modify fun s sound => sound.setDirtyAccount k _

lemma loadOrStoreAccountObject_keeps (k v) : Keeps SoundState (loadOrStoreAccountObject k v) := by
  refine get ?_
  intro s sound
  rcases s.findAccountObject k with _ | found
  · exact bind (modify fun s sound => sound.setDirtyAccount k v)
      (fun _ => pure none) s sound
  · exact pure (some found) s sound

lemma storeBaseAccount_keeps (k v) : Keeps SoundState (storeBaseAccount k v) := by
  refine (loadOrStoreAccountObject_keeps k v).bind fun found => ?_
  rcases found with _ | ⟨layer, ao⟩
  · exact .pure ()
  · refine .ite (.fail _) fun _ => ?_
    refine .orFail fun cb _ => .orFail fun sb _ => ?_
    exact .modify fun s sound => sound.setAccountIn layer k _

lemma increaseNonce_keeps (addr) : Keeps SoundState (increaseNonce addr) := by
  refine (dirtyAccount_keeps addr _).bind fun dst => ?_
  exact .modify fun s sound => sound.setDirtyAccount addr _

lemma moveAccountToken_keeps (supported : tokenType.token? = some token) :
    Keeps SoundState (moveAccountToken sender receiver amount tokenType) := by
  refine (loadOrStoreAccountObject_keeps receiver _).bind fun _ => .get ?_
  intro s sound
  rw [lookupAccount_eq sound.accounts, lookupAccount_eq sound.accounts]
  rcases s.loadAccountObject sender with _ | so
  · exact fail _ s sound
  · rcases s.loadAccountObject receiver with _ | ro
    · exact fail _ s sound
    · refine orPanic rfl (.orPanic rfl (.orPanic supported
        (.orFail fun sb _ => .orFail fun rb _ => ?_))) s sound
      exact .modify fun s sound => (sound.setDirtyAccount _ _).setDirtyAccount _ _

lemma transferAccountToken_keeps (supported : transfer.header.tokenType.token? = some token) :
    Keeps SoundState (transferAccountToken env transfer) := by
  unfold transferAccountToken
  rcases pubKeyHash env transfer.verifier.signee with error | realSender
  · exact .fail _
  · refine .ite (.fail _) fun _ => .ite (.pure ()) fun _ => ?_
    exact moveAccountToken_keeps supported

lemma depositAmount_permission (deposited : depositAmount minDep amount user = .ok user') :
    user'.permission = user.permission := by
  have paid : ∀ {before : Except Err SQLChainUser},
      (∀ after, before = .ok after → after.permission = user.permission) →
      before.map (fun user =>
        if ¬user.status.enableQuery ∧ minDep < user.advancePayment then
          { user with status := .normal }
        else user) = .ok user' → user'.permission = user.permission := by
    intro before kept mapped
    cases before with
    | error => simp [Except.map] at mapped
    | ok after =>
      simp only [Except.map, Except.ok.injEq] at mapped
      rw [← mapped, ← kept after rfl]
      split <;> rfl
  refine paid ?_ deposited
  intro after reached
  split at reached
  · split at reached <;> rw [← Except.ok.inj reached]
  · cases added : safeAdd user.advancePayment amount with
    | error => simp [added, Except.map] at reached
    | ok =>
      simp only [added, Except.map] at reached
      cases reached
      rfl

lemma topUp_sound (sound : SQLChainProfile.Sound sqlchain)
    (found : sqlchain.users[index]? = some user)
    (topped : topUp env sqlchain index user amount = .ok sqlchain') :
    SQLChainProfile.Sound sqlchain' := by
  have member := mem_of_getElem? found
  have placed : ∀ {minDep : UInt64} {before : SQLChainUser}
      {finish : SQLChainUser → SQLChainProfile}, before.permission = user.permission →
      (∀ user, (finish user).tokenType = sqlchain.tokenType ∧
        (finish user).users = sqlchain.users.set index user) →
      (depositAmount minDep amount before).map finish = .ok sqlchain' →
      SQLChainProfile.Sound sqlchain' := by
    intro minDep before finish kept shape mapped
    cases deposited : depositAmount minDep amount before with
    | error => simp [deposited, Except.map] at mapped
    | ok after =>
      simp only [deposited, Except.map, Except.ok.injEq] at mapped
      obtain ⟨sameType, users⟩ := shape after
      rw [← mapped]
      refine ⟨sameType.trans sound.1, ?_⟩
      intro other listed
      rw [users] at listed
      rcases mem_or_eq_of_mem_set listed with old | rfl
      · exact sound.2 other old
      · rw [depositAmount_permission deposited, kept]
        exact sound.2 user member
  simp only [topUp] at topped
  split at topped
  · split at topped
    · refine placed ?_ ?_ topped
      · rfl
      · exact fun _ => ⟨rfl, rfl⟩
    · simp at topped
  · refine placed ?_ ?_ topped
    · rfl
    · exact fun _ => ⟨rfl, rfl⟩

lemma transferSQLChainTokenBalance_survives (sound : SoundState s)
    (supported : transfer.header.tokenType.token? = some token)
    (present : s.loadAccountObject transfer.header.sender = some account) :
    Survives SoundState (transferSQLChainTokenBalance env transfer s) := by
  unfold transferSQLChainTokenBalance
  rcases transfer.verifier.signee with _ | signee
  · exact fail _ s sound
  · dsimp only
    rcases pubKeyHash env (some signee) with error | realSender
    · exact fail _ s sound
    · refine Survives.ite (fun _ => fail _ s sound) fun own => ?_
      rw [get_bind_run]
      rw [ne_eq, Classical.not_not] at own
      rcases located : s.loadSQLChainObject (databaseID transfer.header.receiver) with _ | sqlchain
      · exact fail _ s sound
      · refine ite (fail _) (fun _ => ?_) s sound
        refine orPanic (own ▸ present) (orPanic supported ?_)
        refine .ite (.fail _) fun _ => ?_
        split
        · exact .pure ()
        · rename_i index listed
          have inside := (List.findIdx?_eq_some_iff_getElem.mp listed).1
          have user := List.getElem?_eq_getElem inside
          refine .orPanic user (.orFail fun topped accepted => ?_)
          exact .modify fun s' sound' => (sound'.setDirtyDatabase _
            (topUp_sound (sound.database located) user accepted)).setDirtyAccount _ _

lemma updateProviderList_keeps (tx) : Keeps SoundState (updateProviderList env tx height) := by
  unfold updateProviderList
  rcases pubKeyHash env tx.verifier.signee with error | sender
  · exact .fail _
  · have particle : Token.particle.tokenType.token? = some .particle := rfl
    have refunded : Keeps SoundState (refundProvider sender height) := by
      refine .ite (.get ?_) (fun _ => .pure ())
      intro s sound
      rcases s.loadProviderObject sender with _ | po
      · exact pure () s sound
      · refine (adjustAccountToken_keeps particle).bind (fun _ => ?_) s sound
        exact .modify fun s sound => sound.deleteProviderObject sender
    refine refunded.bind fun _ => (adjustAccountToken_keeps particle).bind fun _ => ?_
    exact .modify fun s sound => sound.setDirtyProvider sender rfl

def Serves (s : MetaState) (req : CreateDatabaseHeader) : Prop :=
  ∃ k po, s.loadProviderObject k = some po ∧ po.tokenType = req.tokenType

lemma selectMiners_serves (staffed : req.resourceMeta.node ≠ 0)
    (selected : selectMiners order s req user = .ok (some miners)) : Serves s req := by
  have positive := node_pos staffed
  rw [← selectMiners_length positive selected] at positive
  obtain ⟨miner, member⟩ := exists_mem_of_length_pos positive
  obtain ⟨k, po, registered, suits, -⟩ := selectMiners_mem selected miner member
  exact ⟨k, po, registered, suits.token⟩

lemma matchProvidersWithUser_keeps (tx) :
    Keeps SoundState (matchProvidersWithUser env order tx) := by
  unfold matchProvidersWithUser
  rcases pubKeyHash env tx.verifier.signee with error | sender
  · exact .fail _
  · refine .ite (.fail _) fun _ => .ite (.fail _) fun _ =>
      .ite (.fail _) fun staffed => .ite (.fail _) fun _ => .get ?_
    intro s sound
    refine orFail (fun selected chosen => ?_) s sound
    cases selected with
    | none => exact .pure ()
    | some =>
      obtain ⟨k, po, registered, same⟩ := selectMiners_serves staffed chosen
      have supported : tx.header.tokenType.token? = some .particle := by
        rw [← same, sound.provider registered]
        rfl
      refine .orFail fun all _ => (adjustAccountToken_keeps supported).bind fun _ =>
        .orFail fun enc _ => .get ?_
      intro s sound
      rcases s.loadSQLChainObject (fromAccountAndNonce env tx.header.owner tx.header.nonce) with
        _ | db
      · refine ⟨_, _, rfl, sound.storeProfile ⟨rfl, ?_⟩⟩
        intro user member
        rw [mem_singleton.mp member]
        simp [newSQLChainUser]
      · exact fail _ s sound

lemma setPermission_sound (given : header.permission ≠ none)
    (before : ∀ user ∈ users, user.permission ≠ none) (index) :
    ∀ user ∈ setPermission header users index, user.permission ≠ none := by
  intro user member
  cases index with
  | none =>
    rcases mem_append.mp member with old | new
    · exact before user old
    · rw [mem_singleton.mp new]
      exact given
  | some index =>
    obtain ⟨position, located⟩ := mem_iff_getElem?.mp member
    rw [setPermission, List.getElem?_modify] at located
    obtain ⟨old, found, changed⟩ := Option.map_eq_some_iff.mp located
    by_cases here : index = position
    · rw [← changed, if_pos here]
      exact given
    · rw [← changed, if_neg here]
      exact before old (mem_of_getElem? found)

lemma updatePermission_keeps (given : tx.header.permission ≠ none) :
    Keeps SoundState (updatePermission env tx) := by
  unfold updatePermission
  rcases pubKeyHash env tx.verifier.signee with error | sender
  · exact .fail _
  · refine .get ?_
    intro s sound
    rcases located : s.loadSQLChainObject (databaseID tx.header.targetSQLChain) with _ | so
    · exact fail _ s sound
    · refine orFail (fun scanned _ => .ite (.fail _) fun _ => ?_) s sound
      obtain ⟨sameType, permitted⟩ := sound.database located
      exact .modify fun s' sound' => sound'.setDirtyDatabase _
        ⟨sameType, setPermission_sound given permitted scanned.2⟩

lemma updateKeys_keeps (tx) : Keeps SoundState (updateKeys env tx) := by
  refine .get ?_
  intro s sound
  rcases s.loadSQLChainObject (databaseID tx.header.targetSQLChain) with _ | so
  · exact fail _ s sound
  · simp only
    generalize so.users.find? _ = listed
    rcases listed with _ | user
    · exact pure () s sound
    · exact ite (pure ()) (fun _ => fail _) s sound

lemma billUsers_permission (before : ∀ user ∈ users, user.permission ≠ none) :
    ∀ user ∈ (billUsers env gasPrice costs users miners).1, user.permission ≠ none := by
  induction users generalizing miners with
  | nil => simp [billUsers]
  | cons first rest ih =>
    have same : (billUser env gasPrice costs first miners).1.permission = first.permission := by
      simp only [billUser]
      split <;> rfl
    intro user member
    simp only [billUsers, mem_cons] at member
    rcases member with rfl | later
    · rw [same]
      exact before first mem_cons_self
    · exact ih (fun user member => before user (mem_cons_of_mem _ member)) user later

lemma updateBilling_keeps (complete : userCosts tx.header.users ≠ none) :
    Keeps SoundState (updateBilling env tx) := by
  obtain ⟨costs, decoded⟩ := Option.ne_none_iff_exists'.mp complete
  refine .get ?_
  intro s sound
  rcases located : s.loadSQLChainObject (databaseID tx.header.receiver) with _ | profile
  · exact fail _ s sound
  · obtain ⟨sameType, permitted⟩ := sound.database located
    refine ite (fail _) (fun _ => ite (pure ()) fun _ =>
      ite ?_ fun _ => fail _) s sound
    refine orPanic decoded ?_
    exact .modify fun s' sound' => sound'.setDirtyDatabase _
      ⟨sameType, billUsers_permission permitted⟩

lemma applyTransaction_survives (formed : WellFormed tx) (sound : SoundState s)
    (present : tx.getTransactionType ≠ transactionTypeBaseAccount → ∃ account,
      s.loadAccountObject (tx.getAccountAddress env) = some account) :
    Survives SoundState (applyTransaction env order height tx s) := by
  induction tx with
  | transfer =>
    obtain ⟨supported, typed⟩ := formed
    obtain ⟨token, supported⟩ := Option.ne_none_iff_exists'.mp supported
    obtain ⟨account, present⟩ := present typed
    refine (transferSQLChainTokenBalance_survives sound supported present).handle ?_
    exact fun _ after _ _ kept => transferAccountToken_keeps supported after kept
  | baseAccount account => exact storeBaseAccount_keeps account.address account s sound
  | provideService tx => exact updateProviderList_keeps tx s sound
  | createDatabase tx => exact matchProvidersWithUser_keeps tx s sound
  | updatePermission => exact updatePermission_keeps formed s sound
  | issueKeys tx => exact updateKeys_keeps tx s sound
  | updateBilling => exact updateBilling_keeps formed s sound
  | wrapper inner ih => exact ih formed present

lemma expectedNonce_present (sound : SoundState s)
    (ran : expectedNonce env tx s = .ok (.ok nonce, t)) :
    t = s ∧ (tx.getTransactionType ≠ transactionTypeBaseAccount →
      ∃ account, s.loadAccountObject (tx.getAccountAddress env) = some account) := by
  simp only [expectedNonce, get_bind_run, orPanic_bind_eq_ok] at ran
  obtain ⟨checked, looked, ran⟩ := ran
  rw [nextNonce, lookupAccount_eq sound.accounts] at looked
  cases found : s.loadAccountObject (tx.getAccountAddress env) with
  | none =>
    simp only [found, Option.map_none, Option.some.injEq] at looked
    rw [← looked] at ran
    by_cases typed : tx.getTransactionType = transactionTypeBaseAccount
    · simp only [typed, ne_eq, not_true_eq_false, if_false, pure_run] at ran
      cases ran
      exact ⟨rfl, fun other => absurd typed other⟩
    · simp [typed] at ran
  | some account =>
    simp only [found, Option.map_some, Option.some.injEq] at looked
    rw [← looked] at ran
    cases ran
    exact ⟨rfl, fun _ => ⟨account, rfl⟩⟩

lemma expectedNonce_keeps (tx) : Keeps SoundState (expectedNonce env tx) := by
  refine .get ?_
  intro s sound
  rw [nextNonce, lookupAccount_eq sound.accounts]
  rcases s.loadAccountObject (tx.getAccountAddress env) with _ | account
  · exact orPanic rfl (.ite (.fail _) fun _ => .pure _) s sound
  · exact orPanic rfl (.pure _) s sound

lemma apply_survives (env order height) (formed : WellFormed tx) (sound : SoundState s) :
    Survives SoundState (apply env order tx height s) := by
  refine (expectedNonce_keeps tx s sound).bind ?_
  intro nonce after ran sound'
  obtain ⟨rfl, present⟩ := expectedNonce_present sound ran
  refine Survives.ite (fun _ => fail _ after sound') fun _ => ?_
  refine (applyTransaction_survives formed sound' present).bind ?_
  exact fun _ final _ kept => increaseNonce_keeps _ final kept

lemma compileChanges_of_sound (sound : SoundState s) (st) :
    compileChanges s st = .ok (st.mergeDirty s.dirty) := by
  have permitted : ¬∃ id ∈ s.dirty.databases.keys,
      hasNilPermission (s.dirty.databases.get id).join = true := by
    rintro ⟨id, -, missing⟩
    rcases found : s.dirty.databases.get id with _ | _ | profile
    · simp [found, hasNilPermission] at missing
    · simp [found, hasNilPermission] at missing
    · simp only [found, Option.join_some, hasNilPermission, Option.any_some, any_eq_true,
        Option.isNone_iff_eq_none] at missing
      obtain ⟨user, member, nothing⟩ := missing
      exact (sound.dirtyDatabases id profile found).2 user member nothing
  rw [compileChanges, if_neg permitted]

lemma applyIrreversible_survives (env orders) (formed : ∀ entry ∈ txs, WellFormed entry.1)
    (sound : SoundState s) : applyIrreversible env orders txs s = .error .fatal ∨
      ∃ s', applyIrreversible env orders txs s = .ok s' ∧ SoundState s' := by
  induction txs generalizing orders s with
  | nil => exact .inr ⟨s, rfl, sound⟩
  | cons entry rest ih =>
    obtain ⟨tx, height⟩ := entry
    obtain ⟨result, after, ran, kept⟩ :=
      apply_survives env (orders 0) height (formed (tx, height) mem_cons_self) sound
    simp only [applyIrreversible, ran]
    cases result with
    | error => exact .inl rfl
    | ok =>
      exact ih _ (fun entry member => formed entry (mem_cons_of_mem _ member)) kept

end

def SoundBranch (b : Branch) : Prop := SoundState b.preview

def FormedTxs (txs : List Transaction) : Prop := ∀ tx ∈ txs, WellFormed tx

def FormedPool (pool : TxPool) : Prop := ∀ hash tx, pool.get hash = some tx → WellFormed tx

def FormedPath (n : BlockNode) : Prop := ∀ m ∈ n.path, FormedTxs m.load.transactions

section

variable {env : Env} {orders : Orders} {height : Nat} {b : Branch}

variable {tx : Transaction} {txs : List Transaction}

lemma packTx_keeps (formed : WellFormed v) : Keeps SoundBranch (packTx env order height v) := by
  have applied : Keeps SoundBranch (onPreview (apply env order v height)) := by
    intro b sound
    obtain ⟨result, preview, ran, kept⟩ := apply_survives env order height formed sound
    refine ⟨result, { b with preview := preview }, ?_, kept⟩
    simp only [onPreview, ran]
  have packed : Keeps SoundBranch (do
      let b ← Program.get
      if b.packed.contains v.hash then Program.fail .existedTx
      else do
        Program.modify fun b => { b with packed := b.packed.add v }
        onPreview (apply env order v height)) := by
    refine .get ?_
    intro b sound
    refine ite (fail _) (fun _ => ?_) b sound
    exact bind (modify fun b sound => sound) fun _ => applied
  refine .get ?_
  intro b sound
  refine ite ?_ (fun _ => ?_) b sound
  · exact .bind (.modify fun b sound => sound) fun _ => packed
  · exact .orFail fun _ _ => packed

lemma packTxs_keeps (env orders height) (formed : FormedTxs txs) :
    Keeps SoundBranch (packTxs env height orders txs) := by
  induction txs generalizing orders with
  | nil => exact .pure ()
  | cons v rest ih =>
    exact (packTx_keeps (formed v mem_cons_self)).bind fun _ =>
      ih _ fun tx member => formed tx (mem_cons_of_mem _ member)

lemma packBlocks_keeps (env orders) (formed : ∀ n ∈ nodes, FormedTxs n.load.transactions) :
    Keeps SoundBranch (packBlocks env orders nodes) := by
  induction nodes generalizing orders with
  | nil => exact .pure ()
  | cons n rest ih =>
    refine .ite (.fail _) fun _ => ?_
    exact (packTxs_keeps env orders n.height (formed n mem_cons_self)).bind fun _ =>
      ih _ fun m member => formed m (mem_cons_of_mem _ member)

lemma FormedPath.fetched {m count} (formed : FormedPath n) (member : m ∈ n.fetchNodeList count) :
    FormedTxs m.load.transactions := by
  rw [BlockNode.fetchNodeList_eq] at member
  exact formed m (mem_of_mem_drop member)

lemma newBranch_survives (env orders base) {head} (pool) (formed : FormedPath head)
    (sound : SoundState s) : ∃ result, newBranch env orders base head s pool = .ok result ∧
      ∀ br, result = .ok br → SoundBranch br := by
  have start : SoundBranch ⟨head, s.makeCopy, .empty, pool⟩ := sound.clean
  have fetched : ∀ m ∈ head.fetchNodeList (base.count + 1), FormedTxs m.load.transactions :=
    fun m member => formed.fetched member
  obtain ⟨result, inst, ran, kept⟩ := packBlocks_keeps env orders fetched _ start
  simp only [newBranch, ran]
  cases result with
  | error => exact ⟨_, rfl, by simp⟩
  | ok =>
    refine ⟨_, rfl, ?_⟩
    rintro br same
    rw [← Except.ok.inj same]
    exact SoundState.commit kept

lemma Branch.applyBlock_survives (env orders) (formed : FormedTxs n.load.transactions)
    (sound : SoundBranch b) :
    ∃ result origin, b.applyBlock env orders n = .ok (result, origin) ∧ SoundBranch origin ∧
      ∀ br, result = .ok br → SoundBranch br := by
  have start : SoundBranch b.makeArena := sound.clean
  obtain ⟨result, cpy, ran, kept⟩ := packTxs_keeps env orders n.height formed _ start
  have origin : SoundBranch (b.shareReadonly cpy) := SoundState.layers sound kept
  unfold applyBlock
  split
  · exact ⟨_, b, rfl, sound, by simp⟩
  · split
    · exact ⟨_, b, rfl, sound, by simp⟩
    · rw [ran]
      cases result with
      | error => exact ⟨_, _, rfl, origin, by simp⟩
      | ok =>
        refine ⟨_, _, rfl, origin, ?_⟩
        rintro br same
        rw [← Except.ok.inj same]
        exact kept

lemma packUnpacked_survives (env orders height packCount) (formed : FormedTxs txs)
    (packed : FormedTxs out) (sound : SoundBranch b) :
    ∃ out' cpy, Branch.packUnpacked env height packCount orders txs out b = .ok (out', cpy) ∧
      FormedTxs out' ∧ SoundBranch cpy := by
  induction txs generalizing orders out b with
  | nil => exact ⟨out, b, rfl, packed, sound⟩
  | cons v rest ih =>
    have formedRest : FormedTxs rest :=
      fun tx member => formed tx (mem_cons_of_mem _ member)
    have appended : FormedTxs (out ++ [v]) := by
      intro tx member
      rcases mem_append.mp member with before | new
      · exact packed tx before
      · rw [mem_singleton.mp new]
        exact formed v mem_cons_self
    obtain ⟨result, preview, ran, kept⟩ :=
      apply_survives env (orders 0) height (formed v mem_cons_self) sound
    simp only [packUnpacked, ran]
    cases result with
    | error => exact ih _ formedRest packed kept
    | ok =>
      dsimp only
      split
      · exact ⟨_, _, rfl, appended, kept⟩
      · exact ih _ formedRest appended kept

lemma Branch.produceBlock_sound (formed : FormedTxs txs) (sound : SoundBranch b)
    (ran : b.produceBlock env orders txs height ts addr signer = .ok (result, origin)) :
    SoundBranch origin ∧
      ∀ br bl, result = .ok (br, bl) → SoundBranch br ∧ FormedTxs bl.transactions := by
  have start : SoundBranch b.makeArena := sound.clean
  have nothing : FormedTxs [] := nofun
  obtain ⟨out, cpy, packing, packed, kept⟩ := packUnpacked_survives env orders height
    (min maxTransactionsPerBlock txs.length) formed nothing start
  have shared : SoundBranch (b.shareReadonly cpy) := SoundState.layers sound kept
  simp only [produceBlock, packing] at ran
  split at ran
  · simp at ran
  · cases ran
    exact ⟨shared, by simp⟩
  · rename_i block signed
    cases ran
    refine ⟨shared, ?_⟩
    intro br bl same
    cases same
    refine ⟨kept, ?_⟩
    rw [(packAndSign_eq_ok signed).1]
    exact packed

end

structure SafeBranch (b : Branch) : Prop where
  preview : SoundState b.preview
  blocks : FormedPath b.head
  unpacked : FormedPool b.unpacked

structure SafeChain (c : Chain) : Prop where
  immutable : SoundState c.immutable
  live : ∀ b ∈ c.branches, SafeBranch b
  txPool : FormedPool c.txPool

lemma FormedPool.add (formed : FormedPool pool) (new : WellFormed tx) :
    FormedPool (pool.add tx) := by
  intro hash other found
  rw [TxPool.get_add] at found
  split at found
  · rw [← Option.some.inj found]
    exact new
  · exact formed hash other found

lemma FormedPool.deleteAll (formed : FormedPool pool) (txs) : FormedPool (pool.deleteAll txs) := by
  intro hash tx found
  rw [TxPool.get_deleteAll] at found
  split at found
  · simp at found
  · exact formed hash tx found

lemma FormedPool.keep (formed : FormedPool pool) (test) : FormedPool (pool.keep test) := by
  intro hash tx found
  rw [TxPool.get_keep, Option.filter_eq_some_iff] at found
  exact formed hash tx found.1

lemma FormedPath.newNode {config : Config} (formed : FormedPath parent)
    (new : FormedTxs bl.transactions) : FormedPath (config.newNode bl parent) := by
  intro m member
  rcases mem_append.mp member with below | top
  · exact formed m below
  · rw [mem_singleton.mp top]
    exact new

lemma FormedPath.of_mem (formed : FormedPath n) (member : m ∈ n.path) : FormedPath m :=
  fun below inside => formed below (BlockNode.mem_path_of_mem member inside)

lemma SafeBranch.addTx (safe : SafeBranch b) (new : WellFormed tx) : SafeBranch (b.addTx tx) := by
  unfold Branch.addTx
  split
  · exact safe
  · split
    · exact safe
    · exact ⟨safe.preview, safe.blocks, safe.unpacked.add new⟩

lemma SafeBranch.clearTxs (safe : SafeBranch b) (nodes expired) :
    SafeBranch (b.clearTxs nodes expired) := by
  rw [clearTxs_eq]
  exact ⟨safe.preview, safe.blocks, safe.unpacked.keep _⟩

lemma SafeBranch.commitPreview (safe : SafeBranch b) : SafeBranch b.commitPreview :=
  ⟨safe.preview.commit, safe.blocks, safe.unpacked⟩

section

variable {env : Env} {known : BPBlock → Prop} {producing : Prop} {config : Config} {c : Chain}

lemma Attempt.safe (formed : ∀ bl, known bl → FormedTxs bl.transactions) (safe : SafeBranch v)
    (attempt : Attempt env known producing config v result origin) :
    SafeBranch origin ∧ ∀ br bl, result = .ok (br, bl) → SafeBranch br := by
  have extended : ∀ br bl, result = .ok (br, bl) → SoundState br.preview →
      FormedTxs bl.transactions → SafeBranch br := by
    rintro br bl rfl sound new
    refine ⟨sound, ?_, ?_⟩
    · rw [attempt.extends.1]
      exact safe.blocks.newNode new
    · rw [attempt.pools.2]
      exact safe.unpacked.deleteAll _
  have origin_safe : SoundState origin.preview → SafeBranch origin := by
    intro sound
    obtain ⟨readonly, rfl⟩ := attempt.origin_eq
    exact ⟨sound, safe.blocks, safe.unpacked⟩
  cases attempt with
  | @received orders bl result _ seen verified ran =>
    obtain ⟨result', origin', ran', kept, grown⟩ :=
      applyBlock_survives env orders (n := config.newNode bl v.head) (formed bl seen)
        safe.preview
    rw [ran] at ran'
    simp only [Except.ok.injEq, Prod.mk.injEq] at ran'
    obtain ⟨rfl, rfl⟩ := ran'
    refine ⟨origin_safe kept, ?_⟩
    intro br block same
    cases result with
    | error => simp [Except.map] at same
    | ok =>
      simp only [Except.map] at same
      cases same
      exact extended _ _ rfl (grown _ rfl) (formed _ seen)
  | produced allowed sorted ran =>
    have pooled : FormedTxs _ := fun tx member => safe.unpacked _ tx ((sorted.mem tx).mp member)
    obtain ⟨kept, grown⟩ := produceBlock_sound pooled safe.preview ran
    refine ⟨origin_safe kept, ?_⟩
    intro br bl same
    exact extended br bl same (grown br bl same).1 (grown br bl same).2

lemma prepareSwitch_survives (env orders) (sound : SoundState c.immutable)
    (formed : FormedPath br.head) : c.prepareSwitch env orders br = .error .fatal ∨
      ∃ switch, c.prepareSwitch env orders br = .ok switch ∧ SoundState switch.immutable := by
  have irreversible : ∀ entry ∈ (((br.head.lastIrreversible c.config.confirms).fetchNodeList
      (c.lastIrre.count + 1)).flatMap BlockNode.txs), WellFormed entry.1 := by
    intro entry member
    obtain ⟨m, onPath, packed⟩ := mem_flatMap.mp member
    obtain ⟨tx, inside, rfl⟩ := mem_map.mp packed
    exact (formed.of_mem (BlockNode.lastIrreversible_mem_path _ _)).fetched onPath tx inside
  rcases applyIrreversible_survives env orders irreversible sound with
    failed | ⟨immutable, ran, kept⟩
  · exact .inl (by simp only [Chain.prepareSwitch, failed])
  · right
    simp only [Chain.prepareSwitch, ran]
    exact ⟨_, rfl, kept⟩

lemma SafeChain.fork_formed (safe : SafeChain c)
    (formed : FormedTxs bl.transactions) (found : c.findParent bl = some parent) :
    FormedPath (c.newNode bl parent) := by
  obtain ⟨v, member, located⟩ := exists_of_findSome?_eq_some found
  obtain ⟨onPath, -, -⟩ := BlockNode.hasAncestorWithMinCount_eq_some located
  exact ((safe.live v member).blocks.of_mem onPath).newNode formed

lemma prepareSwitch_sound (sound : SoundState c.immutable)
    (formed : FormedPath br.head) (prepared : c.prepareSwitch env orders br = .ok switch) :
    SoundState switch.immutable := by
  rcases prepareSwitch_survives env orders sound formed with failed | ⟨other, ran, kept⟩
  · simp [prepared] at failed
  · rw [prepared] at ran
    rw [Except.ok.inj ran]
    exact kept

lemma Effect.safe (formed : ∀ bl, known bl → FormedTxs bl.transactions) (safe : SafeChain c)
    (pooled : FormedPool c'.txPool) (effect : Effect env known producing c c') : SafeChain c' := by
  have extended : ∀ {v br bl origin}, SafeBranch v →
      Attempt env known producing c.config v (.ok (br, bl)) origin → SafeBranch br :=
    fun before attempt => (attempt.safe formed before).2 _ _ rfl
  refine ⟨?_, effect.each safe.live ?_ ?_ ?_ ?_ ?_, pooled⟩
  · cases effect with
    | notSwitched orders i v br bl origin switch found attempt prepared =>
      have grown := extended (safe.live v (mem_of_getElem? found)) attempt
      exact (prepareSwitch_sound safe.immutable grown.blocks prepared).clean
    | switched orders i v br bl origin switch found seen attempt higher prepared =>
      have grown := extended (safe.live v (mem_of_getElem? found)) attempt
      exact (prepareSwitch_sound safe.immutable grown.blocks prepared).commit
    | _ => exact safe.immutable
  · intro tx added b before
    exact before.addTx (pooled tx.hash tx (by simp [added]))
  · exact fun v result origin before attempt => (attempt.safe formed before).1
  · exact fun v br bl origin before attempt => (extended before attempt).commitPreview
  · intro orders bl parent br seen found ran
    have path := safe.fork_formed (formed bl seen) found
    obtain ⟨result, ran', sound⟩ :=
      newBranch_survives env orders c.lastIrre c.txPool path safe.immutable
    rw [ran] at ran'
    refine ⟨sound br (Except.ok.inj ran').symm, ?_, ?_⟩
    · rw [newBranch_head ran]
      exact path
    · intro hash tx unpacked
      exact safe.txPool hash tx ((newBranch_coherent ran).pooled hash tx unpacked)
  · exact fun nodes expired b before => before.clearTxs nodes expired

lemma packGenesis_keeps (env orders) (formed : FormedTxs txs) :
    Keeps SoundState (initStorage.packGenesis env orders txs) := by
  induction txs generalizing orders with
  | nil => exact .pure ()
  | cons tx rest ih =>
    refine .bind (fun s sound => ?_) fun _ =>
      ih _ fun tx member => formed tx (mem_cons_of_mem _ member)
    exact apply_survives env (orders 0) 0 (formed tx mem_cons_self) sound

lemma opened_safe (formed : FormedTxs config.genesis.transactions)
    (opened : Opened env config c) : SafeChain c := by
  obtain ⟨-, orders, stored, st, created, rfl⟩ := opened_storage opened
  obtain ⟨init, packed, rfl⟩ := initStorage_eq_ok created
  obtain ⟨result, final, ran, sound⟩ := packGenesis_keeps env orders formed _ SoundState.new
  rw [packed] at ran
  simp only [Except.ok.injEq, Prod.mk.injEq] at ran
  have loaded : SoundState (loadImmutableState (genesisStorage config init)) := by
    rw [ran.2]
    exact (sound.layers SoundState.new).commit
  have empty : FormedPool .empty := by
    intro hash tx found
    simp [TxPool.empty, TxPool.get] at found
  refine ⟨loaded, ?_, empty⟩
  intro b member
  rw [mem_singleton.mp member]
  refine ⟨loaded.clean.commit, ?_, empty⟩
  intro m onPath
  rw [mem_singleton.mp onPath]
  exact formed

lemma store_switch_not_panic (sound : SoundState switch.immutable) (stored bl st) :
    store stored (c.switchProcedures bl switch) st ≠ .error .panic := by
  cases stored with
  | false => simp [store]
  | true =>
    simp [store, Chain.switchProcedures, store.runProcedures, runProcedures_append,
      runProcedures_deleteTxs, compileChanges_of_sound sound, addBlock, buildBlockIndex,
      deleteExpiredTxs, updateIrreversible, recordApplied, Except.map]

lemma applyBlock_not_panic (formed : ∀ bl, known bl → FormedTxs bl.transactions)
    (safe : SafeChain c) (seen : known bl) (verified : bl.verify env = some (.ok ())) :
    Chain.applyBlock env choice bl c ≠ .error .panic := by
  have blocks : ∀ {i : Nat} {v br origin}, c.branches[i]? = some v →
      v.applyBlock env choice.branchOrders (c.newNode bl v.head) = .ok (.ok br, origin) →
      FormedPath br.head := by
    intro i v br origin found tried
    have attempt : Attempt env known False c.config v (.ok (br, bl)) origin :=
      .received seen verified tried
    exact ((attempt.safe formed (safe.live v (mem_of_getElem? found))).2 br bl rfl).blocks
  intro ran
  cases applyBlock_halting ran with
  | grow i v found halted =>
    obtain ⟨result, origin, tried, -, -⟩ := applyBlock_survives env choice.branchOrders
      (n := c.newNode bl v.head) (formed bl seen)
      (safe.live v (mem_of_getElem? found)).preview
    simp [tried] at halted
  | fork parent found halted =>
    obtain ⟨result, created, -⟩ := newBranch_survives env choice.branchOrders c.lastIrre
      c.txPool (safe.fork_formed (formed bl seen) found) safe.immutable
    simp [created] at halted
  | prepare i v br origin found tried higher halted =>
    rcases prepareSwitch_survives env choice.immutableOrders safe.immutable
      (blocks found tried) with failed | ⟨switch, prepared, -⟩
    · simp [failed] at halted
    · simp [prepared] at halted
  | store i v br origin switch found tried prepared halted =>
    have sound := prepareSwitch_sound safe.immutable (blocks found tried) prepared
    exact store_switch_not_panic sound _ _ _ halted

def FormedStep (env : Env) (known : BPBlock → Prop) (producing : Prop) (c c' : Chain) : Prop :=
  Step env known producing c c' ∧ FormedPool c'.txPool

inductive Working (env : Env) (c : Chain) : MetaState → Prop
  | immutable : Working env c c.immutable
  | preview (b) (member : b ∈ c.branches) : Working env c b.preview
  | copied {s} (before : Working env c s) : Working env c s.makeCopy
  | committed {s} (before : Working env c s) : Working env c s.commit
  | applied {s order tx height result s'} (before : Working env c s) (formed : WellFormed tx)
      (ran : apply env order tx height s = .ok (result, s')) : Working env c s'

lemma Working.sound (safe : SafeChain c) (working : Working env c s) : SoundState s := by
  induction working with
  | immutable => exact safe.immutable
  | preview b member => exact (safe.live b member).preview
  | copied _ ih => exact ih.clean
  | committed _ ih => exact ih.commit
  | applied _ formed ran ih =>
    obtain ⟨result, after, ran', sound⟩ := apply_survives env _ _ formed ih
    rw [ran] at ran'
    simp only [Except.ok.injEq, Prod.mk.injEq] at ran'
    rw [ran'.2]
    exact sound

lemma run_safe (formed : ∀ bl, known bl → FormedTxs bl.transactions)
    (genesis : FormedTxs config.genesis.transactions) (opened : Opened env config c₀)
    (run : Relation.ReflTransGen (FormedStep env known producing) c₀ c) :
    c.HeadAt ∧ SafeChain c := by
  induction run with
  | refl =>
    obtain ⟨-, st, -, rfl⟩ := opened_eq opened
    exact ⟨rfl, opened_safe genesis opened⟩
  | tail _ step ih =>
    obtain ⟨headAt, safe⟩ := ih
    have effect := step_effect headAt step.1
    exact ⟨effect.headAt headAt, effect.safe formed safe step.2⟩

/-- If every transaction of the pool and of the blocks is well formed, neither `apply` nor
`applyBlock` panics. -/
theorem run_not_panic {c₀ : Chain} (formed : ∀ bl, known bl → FormedTxs bl.transactions)
    (genesis : FormedTxs config.genesis.transactions) (opened : Opened env config c₀)
    (run : Relation.ReflTransGen (FormedStep env known producing) c₀ c) :
    (∀ s, Working env c s → ∀ tx, WellFormed tx → ∀ order height,
      ∃ result s', apply env order tx height s = .ok (result, s') ∧
        ∀ st, compileChanges s' st = .ok (st.mergeDirty s'.dirty)) ∧
      ∀ choice bl, known bl → bl.verify env = some (.ok ()) →
        Chain.applyBlock env choice bl c ≠ .error .panic := by
  have safe := (run_safe formed genesis opened run).2
  constructor
  · intro s working tx wellFormed order height
    obtain ⟨result, s', ran, sound⟩ :=
      apply_survives env order height wellFormed (working.sound safe)
    exact ⟨result, s', ran, compileChanges_of_sound sound⟩
  · exact fun choice bl seen verified => applyBlock_not_panic formed safe seen verified

end

namespace Sample

noncomputable def started : Chain := chain [founder 1 1000, founder 3 1000] 2

lemma started_opened : Opened env (config [founder 1 1000, founder 3 1000] 2) started :=
  genesisChain_opened choice.immutableOrders (by decide +kernel) (by rfl)

def hosting : BPBlock := block 1000 1010 [provide 3 1, createDatabase 1 3 1]

def foreign : Transaction :=
  let header : TransferHeader := ⟨1, 2, 1, 10, 5⟩
  .transfer ⟨header, ⟨transactionTypeTransfer, 0⟩, sign 1 (.transfer header)⟩

def dismiss : Transaction :=
  let header : UpdatePermissionHeader := ⟨102, 9, none, 2⟩
  .updatePermission ⟨header, ⟨transactionTypeUpdatePermission, 0⟩,
    sign 1 (.updatePermission header)⟩

def dismissal : BPBlock := block 1010 1020 [dismiss]

def quiet : BPBlock := block 1020 1030 []

def closing : BPBlock := block 1030 1040 []

noncomputable def dismissed : Chain := receive quiet (receive dismissal (receive hosting started))

end Sample

open Sample in
theorem run_not_panic_hosting :
    FormedStep Sample.env (· ∈ [hosting]) False started (receive hosting started) ∧
      ∀ order height, ∃ result s', apply Sample.env order (pay 1 2 2 10) height
        (receive hosting started).headBranch.preview = .ok (result, s') := by
  have empty : (receive hosting started).txPool.txs.keys = ∅ := by decide +kernel
  have pooled : FormedPool (receive hosting started).txPool := by
    intro hash tx found
    have key := FiniteMap.mem_keys_of_get found
    simp [empty] at key
  have step : FormedStep Sample.env (· ∈ [hosting]) False started (receive hosting started) :=
    ⟨step_applyBlock (by simp) (by decide +kernel) (by decide +kernel), pooled⟩
  have formed : ∀ bl, bl ∈ [hosting] → FormedTxs bl.transactions := by
    intro bl seen tx member
    rw [mem_singleton.mp seen] at member
    rcases mem_pair.mp member with rfl | rfl <;> trivial
  have genesis : FormedTxs [founder 1 1000, founder 3 1000] := by
    intro tx member
    rcases mem_pair.mp member with rfl | rfl <;> trivial
  have run := Relation.ReflTransGen.single step
  have headAt := (run_safe formed genesis started_opened run).1
  have wellFormed : WellFormed (pay 1 2 2 10) := ⟨by decide, by decide⟩
  refine ⟨step, fun order height => ?_⟩
  obtain ⟨result, s', ran, -⟩ := (run_not_panic formed genesis started_opened run).1 _
    (.preview _ (mem_of_getElem? headAt)) _ wellFormed order height
  exact ⟨result, s', ran⟩

open Sample in
/-- The token type of a verified transfer is used as an index, and a nil permission is read. -/
theorem verified_panics : (Opened Sample.env (Sample.config [founder 1 100] 2) funded ∧
      foreign.verify Sample.env = .ok () ∧
      apply Sample.env (choice.branchOrders 0) foreign 0 funded.immutable = .error .panic) ∧
    Opened Sample.env (Sample.config [founder 1 1000, founder 3 1000] 2) started ∧
      dismiss.verify Sample.env = .ok () ∧
      Run Sample.env (· ∈ [hosting, dismissal, quiet]) False started dismissed ∧
      closing.verify Sample.env = some (.ok ()) ∧
      Chain.applyBlock Sample.env Sample.choice closing dismissed = .error .panic := by
  refine ⟨⟨funded_opened, by decide +kernel, Program.eq_error_of_exits (by decide +kernel)⟩,
    started_opened, by decide +kernel, ?_, by decide +kernel,
    Program.eq_error_of_exits (by decide +kernel)⟩
  have hosted : Run Sample.env (· ∈ [hosting, dismissal, quiet]) False started
      (receive hosting started) :=
    run_receive .refl hosting (by simp) (by decide +kernel) (by decide +kernel)
  exact run_receive (run_receive hosted dismissal (by simp) (by decide +kernel) (by decide +kernel))
    quiet (by simp) (by decide +kernel) (by decide +kernel)

end SQLess.BlockProducer
