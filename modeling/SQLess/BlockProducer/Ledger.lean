import SQLess.BlockProducer.MetaState

/-! The account state as one plain index. -/

namespace SQLess.BlockProducer

open MetaIndex Option

open Lib Program FiniteMap MetaState UInt64

variable {k receiver : AccountAddress} {amount : UInt64}

lemma safeAdd_eq_ok : safeAdd x y = .ok z ↔ z.toNat = x.toNat + y.toNat := by
  unfold safeAdd
  have sum := UInt64.toNat_add x y
  have bound := x.toNat_lt
  have bound' := y.toNat_lt
  have result := z.toNat_lt
  split
  · rename_i wrapped
    rw [lt_iff_toNat_lt, sum] at wrapped
    simp only [reduceCtorEq, false_iff]
    omega
  · rename_i fits
    rw [lt_iff_toNat_lt, sum] at fits
    rw [Except.ok.injEq, ← UInt64.toNat_inj, sum]
    omega

lemma safeSub_eq_ok : safeSub x y = .ok z ↔ x.toNat = z.toNat + y.toNat := by
  unfold safeSub
  split
  · rename_i short
    rw [lt_iff_toNat_lt] at short
    simp only [reduceCtorEq, false_iff]
    omega
  · rename_i enough
    rw [UInt64.not_lt] at enough
    rw [Except.ok.injEq, ← UInt64.toNat_inj, UInt64.toNat_sub_of_le _ _ enough]
    rw [le_iff_toNat_le] at enough
    omega

def Account.withBalance (account : Account) (token : Token) (balance : UInt64) : Account :=
  { account with tokenBalance := account.tokenBalance.set token balance }

def Adjusted (change : UInt64 → UInt64 → Except Err UInt64) (k : AccountAddress)
    (amount : UInt64) (token : Token) (index index' : MetaIndex) : Prop :=
  ∃ account balance, index.accounts.get k = some account ∧
    change (account.tokenBalance.get token) amount = .ok balance ∧
    index' = index.setAccount k (Account.withBalance account token balance)

inductive Refunded (height : Nat) (sender : AccountAddress) : MetaIndex → MetaIndex → Prop
  | kept {index} (reason : height < bpHeightCIPFixProvideService ∨
      index.provider.get sender = none) : Refunded height sender index index
  | paid {index middle po} (fixed : bpHeightCIPFixProvideService ≤ height)
      (registered : index.provider.get sender = some po)
      (adjusted : Adjusted safeAdd sender po.deposit .particle index middle) :
      Refunded height sender index (middle.deleteProvider sender)

variable (index : MetaIndex)

def MetaIndex.deleteProviders (miners : List MinerInfo) : MetaIndex :=
  miners.foldl (fun index miner => index.deleteProvider miner.address) index

def MetaIndex.storeProfile (profile : SQLChainProfile) : MetaIndex :=
  ((index.setAccount profile.address (Account.new profile.address)).setDatabase profile.id
    profile).deleteProviders profile.miners

inductive Ledger (env : Env) (order : MinerOrder) (height : Nat) :
    Transaction → MetaIndex → MetaIndex → Prop
  | topUp {tx index sqlchain account token position user sqlchain'}
      (signer : pubKeyHash env tx.verifier.signee = .ok tx.header.sender)
      (database : index.databases.get (databaseID tx.header.receiver) = some sqlchain)
      (sameToken : sqlchain.tokenType = tx.header.tokenType)
      (payer : index.accounts.get tx.header.sender = some account)
      (supported : tx.header.tokenType.token? = some token)
      (enough : tx.header.amount ≤ account.tokenBalance.get token)
      (located : sqlchain.users.findIdx? (fun user => user.address = tx.header.sender) =
        some position)
      (listed : sqlchain.users[position]? = some user)
      (topped : topUp env sqlchain position user tx.header.amount = .ok sqlchain') :
      Ledger env order height (.transfer tx) index
        ((index.setDatabase (databaseID tx.header.receiver) sqlchain').setAccount tx.header.sender
          (Account.withBalance account token (account.tokenBalance.get token - tx.header.amount)))
  | notUser {tx index sqlchain}
      (database : index.databases.get (databaseID tx.header.receiver) = some sqlchain)
      (unlisted : sqlchain.users.findIdx? (fun user => user.address = tx.header.sender) = none) :
      Ledger env order height (.transfer tx) index index
  | idle {tx index}
      (absent : index.databases.get (databaseID tx.header.receiver) = none)
      (nothing : tx.header.sender = tx.header.receiver ∨ tx.header.amount = 0) :
      Ledger env order height (.transfer tx) index index
  | move {tx index so ro token sb rb}
      (signer : pubKeyHash env tx.verifier.signee = .ok tx.header.sender)
      (absent : index.databases.get (databaseID tx.header.receiver) = none)
      (different : tx.header.sender ≠ tx.header.receiver)
      (payer : index.accounts.get tx.header.sender = some so)
      (payee : (index.accounts.get tx.header.receiver).getD (Account.new tx.header.receiver) = ro)
      (supported : tx.header.tokenType.token? = some token)
      (paid : safeSub (so.tokenBalance.get token) tx.header.amount = .ok sb)
      (received : safeAdd (ro.tokenBalance.get token) tx.header.amount = .ok rb) :
      Ledger env order height (.transfer tx) index
        ((index.setAccount tx.header.sender (Account.withBalance so token sb)).setAccount
          tx.header.receiver (Account.withBalance ro token rb))
  | create {account mixin index} (absent : index.accounts.get account.address = none) :
      Ledger env order height (.baseAccount account mixin) index
        (index.setAccount account.address account)
  | fund {account mixin index ao cb sb}
      (present : index.accounts.get account.address = some ao) (unused : ao.nextNonce = 0)
      (wave : safeAdd ao.tokenBalance.wave account.tokenBalance.wave = .ok cb)
      (particle : safeAdd ao.tokenBalance.particle account.tokenBalance.particle = .ok sb) :
      Ledger env order height (.baseAccount account mixin) index
        (index.setAccount account.address { ao with tokenBalance := ⟨sb, cb⟩ })
  | provide {tx index middle charged sender}
      (signer : pubKeyHash env tx.verifier.signee = .ok sender)
      (refunded : Refunded height sender index middle)
      (adjusted : Adjusted safeSub sender env.minProviderDeposit .particle middle charged) :
      Ledger env order height (.provideService tx) index
        (charged.setProvider sender (newProviderProfile env tx sender))
  | unmatched {tx index}
      (signer : pubKeyHash env tx.verifier.signee = .ok tx.header.owner)
      (selected : selectMiners order ⟨newDirtyIndex, index⟩ tx.header tx.header.owner = .ok none) :
      Ledger env order height (.createDatabase tx) index index
  | database {tx index charged miners all token enc}
      (signer : pubKeyHash env tx.verifier.signee = .ok tx.header.owner)
      (priced : tx.header.gasPrice ≠ 0) (staffed : tx.header.resourceMeta.node ≠ 0)
      (advanced : minAdvancePayment env tx.header ≤ tx.header.advancePayment)
      (selected : selectMiners order ⟨newDirtyIndex, index⟩ tx.header tx.header.owner =
        .ok (some miners))
      (cost : safeAdd (minAdvancePayment env tx.header) tx.header.advancePayment = .ok all)
      (supported : tx.header.tokenType.token? = some token)
      (adjusted : Adjusted safeSub tx.header.owner all token index charged)
      (encoded : env.encodeGenesis tx.mixin.timestamp = some enc)
      (fresh : index.databases.get (fromAccountAndNonce env tx.header.owner tx.header.nonce) =
        none) :
      Ledger env order height (.createDatabase tx) index
        (charged.storeProfile (newSQLChainProfile env tx tx.header.owner miners enc))
  | permit {tx index so sender scanned}
      (signer : pubKeyHash env tx.verifier.signee = .ok sender)
      (database : index.databases.get (databaseID tx.header.targetSQLChain) = some so)
      (scan : scanUsers sender tx.header.targetUser so.users 0 0 none = .ok scanned)
      (superLeft : ¬(scanned.1 ≤ 1 ∧ tx.header.targetUser = sender ∧
        ¬UserPermission.hasSuperPermission tx.header.permission)) :
      Ledger env order height (.updatePermission tx) index
        (index.setDatabase (databaseID tx.header.targetSQLChain)
          { so with users := setPermission tx.header so.users scanned.2 })
  | issue {tx index so}
      (database : index.databases.get (databaseID tx.header.targetSQLChain) = some so)
      (allowed : ∀ user, so.users.find? (fun user =>
        signeeAddress env tx.verifier.signee = user.address) = some user →
          UserPermission.hasSuperPermission user.permission = true) :
      Ledger env order height (.issueKeys tx) index index
  | unbilled {tx index profile}
      (database : index.databases.get (databaseID tx.header.receiver) = some profile)
      (free : profile.gasPrice = 0) :
      Ledger env order height (.updateBilling tx) index index
  | bill {tx index profile costs users miners}
      (database : index.databases.get (databaseID tx.header.receiver) = some profile)
      (inRange : ¬(0 < tx.header.version ∧ (tx.header.rangeTo ≤ tx.header.rangeFrom ∨
        profile.lastUpdatedHeight ≠ tx.header.rangeFrom)))
      (priced : profile.gasPrice ≠ 0)
      (signer : profile.miners.any (fun miner =>
        miner.address = signeeAddress env tx.verifier.signee) = true)
      (decoded : userCosts tx.header.users = some costs)
      (billed : billUsers env profile.gasPrice costs profile.users
        (profile.miners.map fun miner =>
          { miner with
              receivedIncome := miner.receivedIncome + miner.pendingIncome
              pendingIncome := 0 }) = (users, miners)) :
      Ledger env order height (.updateBilling tx) index
        (index.setDatabase (databaseID tx.header.receiver)
          { profile with
              miners := miners
              users := users
              lastUpdatedHeight := tx.header.rangeTo })
  | wrapper {inner index index'} (step : Ledger env order height inner index index') :
      Ledger env order height (.wrapper inner) index index'

variable {env : Env} {order : MinerOrder} {height : Nat} {s s' : MetaState}

inductive Copied {V : Type} (missing : Err) (s : MetaState) :
    Option (Option V) → Option V → Outcome MetaState Err V → Prop
  | dead : Copied missing s (some none) none (.error .panic)
  | absent : Copied missing s none none (.ok (.error missing, s))
  | found {entry o after} (live : entry ≠ some none) (view : after.view = s.view)
      (base : after.readonly = s.readonly) :
      Copied missing s entry (some o) (.ok (.ok o, after))

lemma dirtyAccount_copied (k missing s) :
    Copied missing s (s.dirty.accounts.get k) (s.view.accounts.get k)
      (dirtyAccount k missing s) := by
  have loaded := s.view_accounts_get k
  unfold loadAccountObject at loaded
  unfold dirtyAccount
  rw [get_bind_run, loaded]
  rcases above : s.dirty.accounts.get k with _ | _ | o
  · rcases below : s.readonly.accounts.get k with _ | src
    · exact .absent
    · simp only [above, below] at loaded
      refine .found (by simp) ?_ rfl
      rw [view_setDirtyAccount, setAccount, insert_of_get loaded]
  · exact .dead
  · exact .found (by simp) rfl rfl

lemma dirtyAccount_ok (ran : dirtyAccount k missing s = .ok (.ok account, s')) :
    s.view.accounts.get k = some account ∧ s'.view = s.view := by
  have copied := dirtyAccount_copied k missing s
  rw [ran] at copied
  generalize s.dirty.accounts.get k = entry at copied
  generalize s.view.accounts.get k = found at copied
  cases copied with
  | found live view => exact ⟨rfl, view⟩

lemma adjustAccountToken_ok
    (ran : adjustAccountToken change context k amount tokenType s = .ok (.ok (), s')) :
    ∃ token, tokenType.token? = some token ∧ Adjusted change k amount token s.view s'.view := by
  obtain ⟨account, loaded, first, rest⟩ := bind_eq_ok.mp ran
  obtain ⟨found, view⟩ := dirtyAccount_ok first
  simp only [orPanic_bind_eq_ok, orFail_bind_eq_ok, modify_run, Except.ok.injEq, Prod.mk.injEq,
    true_and] at rest
  obtain ⟨token, supported, balance, changed, rfl⟩ := rest
  refine ⟨token, supported, account, balance, found, changed, ?_⟩
  rw [view_setDirtyAccount, view]
  rfl

lemma increaseNonce_ok (ran : increaseNonce addr s = .ok (.ok (), s')) :
    ∃ account, s.view.accounts.get addr = some account ∧
      s'.view = s.view.setAccount addr { account with nextNonce := account.nextNonce + 1 } := by
  obtain ⟨account, loaded, first, rest⟩ := bind_eq_ok.mp ran
  obtain ⟨found, view⟩ := dirtyAccount_ok first
  cases rest
  refine ⟨account, found, ?_⟩
  rw [view_setDirtyAccount, view]

lemma loadOrStore_ok (v) (visible : ¬s.Shadowed k) : (s.view.accounts.get k = none ∧
      loadOrStoreAccountObject k v s = .ok (.ok none, s.setDirtyAccount k v)) ∨
    ∃ layer o, s.view.accounts.get k = some o ∧ s.lookupAccount k = some (some o) ∧
      loadOrStoreAccountObject k v s = .ok (.ok (some (layer, o)), s) ∧
      ∀ w, (s.setAccountIn layer k w).view = s.view.setAccount k w := by
  rw [view_accounts_get]
  unfold loadOrStoreAccountObject findAccountObject loadAccountObject
    lookupAccount
  rw [get_bind_run]
  rcases found : s.dirty.accounts.get k with _ | _ | account
  · rcases below : s.readonly.accounts.get k with _ | src
    · exact .inl ⟨rfl, rfl⟩
    · refine .inr ⟨.readonly, src, rfl, rfl, rfl, fun w => ?_⟩
      simp only [setAccountIn, setReadonlyAccount, view,
        setAccount, overlay_insert_base found]
  · rcases below : s.readonly.accounts.get k with _ | src
    · exact .inl ⟨rfl, rfl⟩
    · exact absurd ⟨found, by simp [below]⟩ visible
  · exact .inr ⟨.dirty, account, rfl, rfl, rfl, fun w => s.view_setDirtyAccount k w⟩

lemma loadReceiver_ok (visible : ¬s.Shadowed receiver)
    (ran : loadOrStoreAccountObject receiver (Account.new receiver) s = .ok (.ok found, s')) :
    ∃ ro, (s.view.accounts.get receiver).getD (Account.new receiver) = ro ∧
      s'.view = s.view.setAccount receiver ro ∧ s'.lookupAccount receiver = some (some ro) ∧
      ∀ k, k ≠ receiver → s'.lookupAccount k = s.lookupAccount k := by
  rcases loadOrStore_ok (Account.new receiver) visible with
    ⟨absent, stored⟩ | ⟨layer, o, present, live, loaded, -⟩
  · rw [ran, Except.ok.injEq, Prod.mk.injEq] at stored
    rw [stored.2, absent]
    refine ⟨_, rfl, s.view_setDirtyAccount receiver _, ?_, fun k other => ?_⟩
    · simp [lookupAccount, setDirtyAccount]
    · simp [lookupAccount, setDirtyAccount, other]
  · rw [ran, Except.ok.injEq, Prod.mk.injEq] at loaded
    rw [loaded.2, present]
    refine ⟨o, rfl, ?_, live, fun k other => rfl⟩
    rw [setAccount, insert_of_get present]

lemma moveAccountToken_visible
    (ran : moveAccountToken sender receiver amount tokenType s = .ok (.ok (), s')) :
    ¬s.Shadowed receiver := by
  rintro ⟨deleted, below⟩
  obtain ⟨src, below⟩ := ne_none_iff_exists'.mp below
  have loaded : loadOrStoreAccountObject receiver (Account.new receiver) s =
      .ok (.ok (some (.readonly, src)), s) := by
    simp [loadOrStoreAccountObject, findAccountObject, deleted, below]
  have nil : s.lookupAccount receiver = some none := by
    simp [lookupAccount, deleted]
  simp only [moveAccountToken, bind_run, loaded, get_run, nil] at ran
  rcases payer : s.lookupAccount sender with _ | _ | so
  · simp [payer] at ran
  · simp [payer, bind_run] at ran
  · simp [payer, bind_run] at ran

lemma moveAccountToken_ok (different : sender ≠ receiver)
    (ran : moveAccountToken sender receiver amount tokenType s = .ok (.ok (), s')) :
    ∃ so ro token sb rb, s.view.accounts.get sender = some so ∧
      (s.view.accounts.get receiver).getD (Account.new receiver) = ro ∧
      tokenType.token? = some token ∧ safeSub (so.tokenBalance.get token) amount = .ok sb ∧
      safeAdd (ro.tokenBalance.get token) amount = .ok rb ∧
      s'.view = (s.view.setAccount sender (Account.withBalance so token sb)).setAccount receiver
        (Account.withBalance ro token rb) := by
  have visible := moveAccountToken_visible ran
  obtain ⟨found, middle, first, rest⟩ := bind_eq_ok.mp ran
  obtain ⟨ro, payee, view, payeeFound, others⟩ := loadReceiver_ok visible first
  simp only [get_bind_run, payeeFound, others sender different] at rest
  rcases payer : s.lookupAccount sender with _ | _ | so
  · simp [payer] at rest
  · simp [payer, bind_run] at rest
  · simp only [payer, orPanic_bind_eq_ok, orFail_bind_eq_ok, modify_run,
      some.injEq, exists_eq_left', Except.ok.injEq, Prod.mk.injEq, true_and] at rest
    obtain ⟨token, supported, sb, paid, rb, received, rfl⟩ := rest
    refine ⟨so, ro, token, sb, rb, ?_, payee, supported, paid, received, ?_⟩
    · rw [s.view_accounts_get, loadAccountObject_of_lookup payer]
    · rw [view_setDirtyAccount, view_setDirtyAccount, view]
      simp only [setAccount, insert_shadow]
      rfl

lemma transferAccountToken_ok (absent : s.view.databases.get (databaseID tx.header.receiver) = none)
    (ran : transferAccountToken env tx s = .ok (.ok (), s')) :
    Ledger env order height (.transfer tx) s.view s'.view := by
  rcases signer : pubKeyHash env tx.verifier.signee with error | realSender
  · simp [transferAccountToken, signer] at ran
  · simp only [transferAccountToken, signer] at ran
    split at ran
    · simp at ran
    · rename_i same
      rw [Classical.not_not] at same
      split at ran
      · rename_i nothing
        cases ran
        exact .idle absent nothing
      · rename_i some
        rw [not_or] at some
        obtain ⟨so, ro, token, sb, rb, payer, payee, supported, paid, received, view⟩ :=
          moveAccountToken_ok some.1 ran
        rw [view]
        exact .move (same ▸ signer) absent some.1 payer payee supported paid received

variable {user : SQLChainUser}

lemma depositAmount_error
    (failed : depositAmount minDep amount user = .error error) : error = .balanceOverflow := by
  have overflow : ∀ {x y : UInt64} {e}, safeAdd x y = .error e → e = .balanceOverflow := by
    intro x y e refused
    unfold safeAdd at refused
    split at refused
    · exact (Except.error.inj refused).symm
    · simp at refused
  simp only [depositAmount] at failed
  split at failed
  · split at failed <;> simp [Except.map] at failed
  · cases added : safeAdd user.advancePayment amount with
    | error =>
      simp only [added, Except.map] at failed
      cases failed
      exact overflow added
    | ok => simp [added, Except.map] at failed

lemma topUp_error {sqlchain index error}
    (failed : topUp env sqlchain index user amount = .error error) :
    error = .insufficientTransfer ∨ error = .balanceOverflow := by
  have deposit : ∀ {minDep user} {finish : SQLChainUser → SQLChainProfile},
      (depositAmount minDep amount user).map finish = .error error → error = .balanceOverflow := by
    intro minDep user finish refused
    cases paid : depositAmount minDep amount user with
    | error =>
      simp only [paid, Except.map] at refused
      cases refused
      exact depositAmount_error paid
    | ok => simp [paid, Except.map] at refused
  simp only [topUp] at failed
  split at failed
  · split at failed
    · exact .inr (deposit failed)
    · exact .inl (Except.error.inj failed).symm
  · exact .inr (deposit failed)

lemma transferSQLChainTokenBalance_ok
    (ran : transferSQLChainTokenBalance env tx s = .ok (.ok (), s')) :
    Ledger env order height (.transfer tx) s.view s'.view := by
  rcases key : tx.verifier.signee with _ | signee
  · simp [transferSQLChainTokenBalance, key] at ran
  · rcases signer : pubKeyHash env (some signee) with error | realSender
    · simp [transferSQLChainTokenBalance, key, signer] at ran
    · simp only [transferSQLChainTokenBalance, key, signer] at ran
      split at ran
      · simp at ran
      · rename_i same
        rw [Classical.not_not] at same
        subst same
        simp only [get_bind_run] at ran
        rcases database : s.loadSQLChainObject (databaseID tx.header.receiver) with _ | sqlchain
        · simp [database] at ran
        · simp only [database] at ran
          split at ran
          · simp at ran
          · rename_i sameToken
            rw [Classical.not_not] at sameToken
            simp only [orPanic_bind_eq_ok] at ran
            obtain ⟨account, payer, token, supported, ran⟩ := ran
            split at ran
            · simp at ran
            · rename_i enough
              rw [← s.view_accounts_get] at payer
              rw [← s.view_databases_get] at database
              rcases located : sqlchain.users.findIdx? fun user =>
                  user.address = tx.header.sender with _ | position
              · simp only [located, pure_run, Except.ok.injEq, Prod.mk.injEq, true_and] at ran
                rw [← ran]
                exact .notUser database located
              · simp only [located, orPanic_bind_eq_ok, orFail_bind_eq_ok, modify_run,
                  Except.ok.injEq, Prod.mk.injEq, true_and] at ran
                obtain ⟨user, listed, sqlchain', topped, rfl⟩ := ran
                rw [view_setDirtyAccount, view_setDirtyDatabase]
                exact .topUp (key ▸ signer) database sameToken payer supported
                  (UInt64.not_lt.mp enough) located listed topped

lemma transferSQLChainTokenBalance_error
    (ran : transferSQLChainTokenBalance env tx s = .ok (.error error, s')) :
    s' = s ∧ (error = .databaseNotFound →
      s.view.databases.get (databaseID tx.header.receiver) = none) := by
  rw [view_databases_get]
  rcases key : tx.verifier.signee with _ | signee
  · simp only [transferSQLChainTokenBalance, key, fail_run] at ran
    cases ran
    exact ⟨rfl, by simp⟩
  · rcases signer : pubKeyHash env (some signee) with raised | realSender
    · simp only [transferSQLChainTokenBalance, key, signer, fail_run] at ran
      cases ran
      exact ⟨rfl, by simp⟩
    · simp only [transferSQLChainTokenBalance, key, signer] at ran
      split at ran
      · cases ran
        exact ⟨rfl, by simp⟩
      · simp only [get_bind_run] at ran
        rcases database : s.loadSQLChainObject (databaseID tx.header.receiver) with _ | sqlchain
        · simp only [database, fail_run] at ran
          cases ran
          exact ⟨rfl, fun _ => rfl⟩
        · simp only [database] at ran
          split at ran
          · cases ran
            exact ⟨rfl, by simp⟩
          · simp only [orPanic_bind_eq_ok] at ran
            obtain ⟨account, payer, token, supported, ran⟩ := ran
            split at ran
            · cases ran
              exact ⟨rfl, by simp⟩
            · rcases located : sqlchain.users.findIdx? fun user =>
                  user.address = tx.header.sender with _ | position
              · simp [located] at ran
              · simp only [located, orPanic_bind_eq_ok, orFail_bind_eq_error, modify_run,
                  Except.ok.injEq, Prod.mk.injEq, reduceCtorEq, false_and, and_false, exists_false,
                  or_false] at ran
                obtain ⟨user, listed, refused, same⟩ := ran
                refine ⟨same, ?_⟩
                rintro rfl
                rcases topUp_error refused with wrong | wrong <;> simp at wrong

lemma transfer_ok (ran : applyTransaction env order height (.transfer tx) s = .ok (.ok (), s')) :
    Ledger env order height (.transfer tx) s.view s'.view := by
  simp only [applyTransaction, handle] at ran
  rcases first : transferSQLChainTokenBalance env tx s with reason | ⟨error | value, middle⟩
  · simp [first] at ran
  · simp only [first] at ran
    split at ran
    · rename_i notFound
      obtain ⟨rfl, absent⟩ := transferSQLChainTokenBalance_error first
      exact transferAccountToken_ok (absent (of_decide_eq_true notFound)) ran
    · simp at ran
  · simp only [first, Except.ok.injEq, Prod.mk.injEq, true_and] at ran
    subst ran
    exact transferSQLChainTokenBalance_ok first

lemma storeBaseAccount_ok (visible : ¬s.Shadowed account.address)
    (ran : storeBaseAccount account.address account s = .ok (.ok (), s')) :
    Ledger env order height (.baseAccount account mixin) s.view s'.view := by
  simp only [storeBaseAccount, bind_run] at ran
  rcases loadOrStore_ok account visible with
    ⟨absent, stored⟩ | ⟨layer, o, present, -, loaded, written⟩
  · simp only [stored, pure_run, Except.ok.injEq, Prod.mk.injEq, true_and] at ran
    rw [← ran, view_setDirtyAccount]
    exact .create absent
  · simp only [loaded] at ran
    split at ran
    · simp at ran
    · rename_i unused
      rw [Classical.not_not] at unused
      simp only [orFail_bind_eq_ok, modify_run, Except.ok.injEq, Prod.mk.injEq, true_and] at ran
      obtain ⟨cb, wave, sb, particle, rfl⟩ := ran
      rw [written { o with tokenBalance := ⟨sb, cb⟩ }]
      exact .fund present unused wave particle

lemma refundProvider_ok (ran : refundProvider sender height s = .ok (.ok (), s')) :
    Refunded height sender s.view s'.view := by
  unfold refundProvider at ran
  split at ran
  · rename_i fixed
    rw [get_bind_run] at ran
    rcases registered : s.loadProviderObject sender with _ | po
    · simp only [registered, pure_run, Except.ok.injEq, Prod.mk.injEq, true_and] at ran
      subst ran
      exact .kept (.inr (by rw [view_provider_get, registered]))
    · simp only [registered] at ran
      obtain ⟨middle, increased, rest⟩ := seq_eq_ok.mp ran
      obtain ⟨token, supported, adjusted⟩ := adjustAccountToken_ok increased
      obtain rfl : token = .particle := (some.inj supported).symm
      cases rest
      rw [view_deleteProviderObject]
      exact .paid fixed (by rw [view_provider_get, registered]) adjusted
  · rename_i early
    cases ran
    exact .kept (.inl (Nat.lt_of_not_le early))

lemma updateProviderList_ok (ran : updateProviderList env tx height s = .ok (.ok (), s')) :
    Ledger env order height (.provideService tx) s.view s'.view := by
  rcases signer : pubKeyHash env tx.verifier.signee with error | sender
  · simp [updateProviderList, signer] at ran
  · simp only [updateProviderList, signer] at ran
    obtain ⟨middle, first, rest⟩ := seq_eq_ok.mp ran
    obtain ⟨charged, second, rest⟩ := seq_eq_ok.mp rest
    obtain ⟨token, supported, adjusted⟩ := adjustAccountToken_ok second
    obtain rfl : token = .particle := (some.inj supported).symm
    cases rest
    rw [view_setDirtyProvider]
    exact .provide signer (refundProvider_ok first) adjusted

lemma storeProfile_view (profile s) :
    (storeProfile profile s).view = s.view.storeProfile profile := by
  have deleted : ∀ (miners : List MinerInfo) (s : MetaState),
      (miners.foldl (fun s miner => s.deleteProviderObject miner.address) s).view =
        s.view.deleteProviders miners := by
    intro miners
    induction miners with
    | nil => exact fun s => rfl
    | cons miner rest ih =>
      intro s
      rw [List.foldl_cons, ih, view_deleteProviderObject]
      rfl
  rw [storeProfile, deleted, view_setDirtyDatabase, view_setDirtyAccount]
  rfl

lemma matchProvidersWithUser_ok (ran : matchProvidersWithUser env order tx s = .ok (.ok (), s')) :
    Ledger env order height (.createDatabase tx) s.view s'.view := by
  rcases signer : pubKeyHash env tx.verifier.signee with error | sender
  · simp [matchProvidersWithUser, signer] at ran
  · simp only [matchProvidersWithUser, signer] at ran
    split at ran
    · simp at ran
    · rename_i owner
      rw [Classical.not_not] at owner
      subst owner
      split at ran
      · simp at ran
      · rename_i priced
        split at ran
        · simp at ran
        · rename_i staffed
          split at ran
          · simp at ran
          · rename_i advanced
            rw [get_bind_run, orFail_bind_eq_ok, selectMiners_view] at ran
            obtain ⟨selected, chosen, ran⟩ := ran
            cases selected with
            | none =>
              cases ran
              exact .unmatched signer chosen
            | some =>
              simp only [createProfile, orFail_bind_eq_ok] at ran
              obtain ⟨all, cost, ran⟩ := ran
              obtain ⟨charged, second, ran⟩ := seq_eq_ok.mp ran
              obtain ⟨token, supported, adjusted⟩ := adjustAccountToken_ok second
              simp only [orFail_bind_eq_ok, get_bind_run] at ran
              obtain ⟨enc, matched, ran⟩ := ran
              have encoded : env.encodeGenesis tx.mixin.timestamp = some enc := by
                split at matched
                · rename_i encoded
                  rw [encoded, Except.ok.inj matched]
                · simp at matched
              have databases : charged.view.databases = s.view.databases := by
                obtain ⟨account, balance, -, -, view⟩ := adjusted
                rw [view]
                rfl
              rcases found : charged.loadSQLChainObject
                  (fromAccountAndNonce env tx.header.owner tx.header.nonce) with _ | existing
              · simp only [found, modify_run, Except.ok.injEq, Prod.mk.injEq, true_and] at ran
                subst ran
                rw [storeProfile_view]
                rw [← charged.view_databases_get, databases] at found
                exact .database signer priced staffed (UInt64.not_lt.mp advanced) chosen cost
                  supported adjusted encoded found
              · simp [found] at ran

lemma updatePermission_eq_ok (ran : updatePermission env tx s = .ok (.ok (), s')) :
    ∃ sender so scanned, pubKeyHash env tx.verifier.signee = .ok sender ∧
      s.loadSQLChainObject (databaseID tx.header.targetSQLChain) = some so ∧
      scanUsers sender tx.header.targetUser so.users 0 0 none = .ok scanned ∧
      ¬(scanned.1 ≤ 1 ∧ tx.header.targetUser = sender ∧
        ¬UserPermission.hasSuperPermission tx.header.permission) ∧
      s' = s.setDirtyDatabase (databaseID tx.header.targetSQLChain)
        { so with users := setPermission tx.header so.users scanned.2 } := by
  rcases signer : pubKeyHash env tx.verifier.signee with error | sender
  · simp [updatePermission, signer] at ran
  · simp only [updatePermission, signer, get_bind_run] at ran
    rcases database : s.loadSQLChainObject (databaseID tx.header.targetSQLChain) with _ | so
    · simp [database] at ran
    · simp only [database, orFail_bind_eq_ok] at ran
      obtain ⟨scanned, scan, ran⟩ := ran
      split at ran
      · simp at ran
      · rename_i superLeft
        simp only [modify_run, Except.ok.injEq, Prod.mk.injEq, true_and] at ran
        exact ⟨sender, so, scanned, rfl, rfl, scan, superLeft, ran.symm⟩

lemma updatePermission_ok (ran : updatePermission env tx s = .ok (.ok (), s')) :
    Ledger env order height (.updatePermission tx) s.view s'.view := by
  obtain ⟨sender, so, scanned, signer, database, scan, superLeft, rfl⟩ :=
    updatePermission_eq_ok ran
  rw [view_setDirtyDatabase]
  rw [← s.view_databases_get] at database
  exact .permit signer database scan superLeft

lemma updateKeys_eq_ok (ran : updateKeys env tx s = .ok (.ok (), s')) :
    s' = s ∧ ∃ so, s.loadSQLChainObject (databaseID tx.header.targetSQLChain) = some so ∧
      ∀ user, so.users.find? (fun user => signeeAddress env tx.verifier.signee = user.address) =
        some user → UserPermission.hasSuperPermission user.permission = true := by
  simp only [updateKeys, get_bind_run] at ran
  rcases database : s.loadSQLChainObject (databaseID tx.header.targetSQLChain) with _ | so
  · simp [database] at ran
  · simp only [database] at ran
    rcases listed : so.users.find? fun user =>
        signeeAddress env tx.verifier.signee = user.address with _ | user
    · simp only [listed, pure_run, Except.ok.injEq, Prod.mk.injEq, true_and] at ran
      exact ⟨ran.symm, so, rfl, by simp [listed]⟩
    · simp only [listed] at ran
      split at ran
      · rename_i permitted
        simp only [pure_run, Except.ok.injEq, Prod.mk.injEq, true_and] at ran
        refine ⟨ran.symm, so, rfl, ?_⟩
        intro other same
        rw [listed, some.injEq] at same
        rw [← same]
        exact permitted
      · simp at ran

lemma updateKeys_ok (ran : updateKeys env tx s = .ok (.ok (), s')) :
    Ledger env order height (.issueKeys tx) s.view s'.view := by
  obtain ⟨rfl, so, database, allowed⟩ := updateKeys_eq_ok ran
  rw [← view_databases_get] at database
  exact .issue database allowed

lemma updateBilling_ok (ran : updateBilling env tx s = .ok (.ok (), s')) :
    Ledger env order height (.updateBilling tx) s.view s'.view := by
  simp only [updateBilling, get_bind_run] at ran
  rcases database : s.loadSQLChainObject (databaseID tx.header.receiver) with _ | profile
  · simp [database] at ran
  · simp only [database] at ran
    rw [← s.view_databases_get] at database
    split at ran
    · simp at ran
    · rename_i inRange
      split at ran
      · rename_i free
        cases ran
        exact .unbilled database free
      · rename_i priced
        split at ran
        · rename_i signer
          simp only [orPanic_bind_eq_ok, modify_run, Except.ok.injEq, Prod.mk.injEq,
            true_and] at ran
          obtain ⟨costs, decoded, rfl⟩ := ran
          rw [view_setDirtyDatabase]
          refine .bill database inRange priced ?_ decoded rfl
          simpa [List.any_map, Function.comp_def] using signer
        · simp at ran

lemma applyTransaction_ok (visible : ¬s.Shadowed (tx.getAccountAddress env))
    (ran : applyTransaction env order height tx s = .ok (.ok (), s')) :
    Ledger env order height tx s.view s'.view := by
  induction tx with
  | transfer => exact transfer_ok ran
  | baseAccount => exact storeBaseAccount_ok visible ran
  | provideService => exact updateProviderList_ok ran
  | createDatabase => exact matchProvidersWithUser_ok ran
  | updatePermission => exact updatePermission_ok ran
  | issueKeys => exact updateKeys_ok ran
  | updateBilling => exact updateBilling_ok ran
  | wrapper inner ih => exact .wrapper (ih visible ran)

/-- The nonce that the account of the transaction expects: 0 for an account that is missing,
if the transaction is tagged as a base account. -/
def ExpectedNonce (env : Env) (tx : Transaction) (index : MetaIndex) : Prop :=
  (∃ account, index.accounts.get (tx.getAccountAddress env) = some account ∧
    account.nextNonce = tx.getAccountNonce) ∨
  (index.accounts.get (tx.getAccountAddress env) = none ∧
    tx.getTransactionType = transactionTypeBaseAccount ∧ tx.getAccountNonce = 0)

inductive Applied (env : Env) (order : MinerOrder) (height : Nat) (tx : Transaction) :
    MetaIndex → MetaIndex → Prop
  | mk {index middle account} (expected : ExpectedNonce env tx index)
      (step : Ledger env order height tx index middle)
      (found : middle.accounts.get (tx.getAccountAddress env) = some account) :
      Applied env order height tx index (middle.setAccount (tx.getAccountAddress env)
        { account with nextNonce := account.nextNonce + 1 })

lemma Applied.inv {tx index index'} (applied : Applied env order height tx index index') :
    ∃ middle account, ExpectedNonce env tx index ∧ Ledger env order height tx index middle ∧
      middle.accounts.get (tx.getAccountAddress env) = some account ∧
      index' = middle.setAccount (tx.getAccountAddress env)
        { account with nextNonce := account.nextNonce + 1 } := by
  obtain ⟨expected, step, found⟩ := applied
  exact ⟨_, _, expected, step, found, rfl⟩

lemma expectedNonce_live (ran : expectedNonce env tx s = .ok (.ok nonce, s')) :
    s.dirty.accounts.get (tx.getAccountAddress env) ≠ some none := by
  intro deleted
  simp [expectedNonce, nextNonce, lookupAccount, deleted] at ran

lemma expectedNonce_ok (ran : expectedNonce env tx s = .ok (.ok nonce, s'))
    (same : nonce = tx.getAccountNonce) : ExpectedNonce env tx s.view := by
  have live := expectedNonce_live ran
  rw [ExpectedNonce, view_accounts_get]
  simp only [expectedNonce, get_bind_run, orPanic_bind_eq_ok, nextNonce,
    lookupAccount_of_live live] at ran
  rcases found : s.loadAccountObject (tx.getAccountAddress env) with _ | account
  · simp only [found, map_none, some.injEq, exists_eq_left'] at ran
    split at ran
    · simp at ran
    · rename_i tagged
      simp only [pure_run, Except.ok.injEq, Prod.mk.injEq] at ran
      exact .inr ⟨rfl, Classical.not_not.mp tagged, by rw [← same, ran.1]⟩
  · simp only [found, map_some, some.injEq, exists_eq_left', pure_run,
      Except.ok.injEq, Prod.mk.injEq] at ran
    exact .inl ⟨account, rfl, by rw [← same, ran.1]⟩

lemma apply_applied (ran : apply env order tx height s = .ok (.ok (), s')) :
    Applied env order height tx s.view s'.view := by
  obtain ⟨nonce, middle, first, rest⟩ := bind_eq_ok.mp ran
  obtain rfl := expectedNonce_state first
  split at rest
  · simp at rest
  · rename_i same
    rw [Classical.not_not] at same
    obtain ⟨applied, second, third⟩ := seq_eq_ok.mp rest
    have visible : ¬middle.Shadowed (tx.getAccountAddress env) :=
      fun shadowed => expectedNonce_live first shadowed.1
    obtain ⟨account, found, view⟩ := increaseNonce_ok third
    rw [view]
    exact .mk (expectedNonce_ok first same) (applyTransaction_ok visible second) found

lemma Adjusted.provider {change token index index'}
    (adjusted : Adjusted change k amount token index index') :
    index'.provider = index.provider := by
  obtain ⟨account, balance, -, -, rfl⟩ := adjusted
  rfl

lemma deleteProviders_provider (miners) : (index.deleteProviders miners).provider =
      index.provider.eraseAll (miners.map MinerInfo.address) := by
  induction miners generalizing index with
  | nil => rfl
  | cons miner rest ih => exact ih (index.deleteProvider miner.address)

lemma deleteProviders_get (miners k) : (index.deleteProviders miners).provider.get k =
      if k ∈ miners.map MinerInfo.address then none else index.provider.get k := by
  rw [deleteProviders_provider, get_eraseAll]

lemma Ledger.provider {tx index index' po} (step : Ledger env order height tx index index')
    (unregistered : tx.isProvideService = false) (found : index'.provider.get k = some po) :
    index.provider.get k = some po := by
  induction step with
  | provide => simp [Transaction.isProvideService] at unregistered
  | database signer priced staffed advanced selected cost supported adjusted =>
    rw [MetaIndex.storeProfile, deleteProviders_get] at found
    split at found
    · simp at found
    · rw [← adjusted.provider]
      exact found
  | wrapper step ih => exact ih unregistered found
  | _ => exact found

lemma Applied.distinctNodeIDs {tx index index'} (applied : Applied env order height tx index index')
    (unregistered : tx.isProvideService = false) (distinct : index.DistinctNodeIDs) :
    index'.DistinctNodeIDs := by
  obtain ⟨expected, step, account⟩ := applied
  intro k k' po po' found found' same
  exact distinct k k' po po' (step.provider unregistered found)
    (step.provider unregistered found') same

def MinerInfo.unpaid (miner : MinerInfo) : MinerInfo :=
  { miner with pendingIncome := 0, receivedIncome := 0, userArrears := [] }

lemma billUsers_unpaid (gasPrice costs users miners) :
    (billUsers env gasPrice costs users miners).2.map MinerInfo.unpaid =
      miners.map MinerInfo.unpaid := by
  induction users generalizing miners with
  | nil => rfl
  | cons user rest ih =>
    simp only [billUsers]
    rw [ih]
    simp only [billUser]
    split <;> simp [MinerInfo.unpaid]

def SQLChainUser.settled (user : SQLChainUser) : SQLChainUser :=
  if 0 < user.arrears then { user with arrears := 0, status := .normal } else user

def settleMiners (user : SQLChainUser) (miners : List MinerInfo) : List MinerInfo :=
  if 0 < user.arrears then
    miners.map fun miner =>
      { miner with pendingIncome :=
          settleArrears user.address miner.userArrears miner.userArrears 0 miner.pendingIncome }
  else miners

lemma topUp_ok
    (topped : topUp env sqlchain position user amount = .ok sqlchain') : user.arrears ≤ amount ∧
      ∃ user', depositAmount (minDeposit env sqlchain.gasPrice sqlchain.miners.length.toUInt64)
          amount (SQLChainUser.settled user) = .ok user' ∧ sqlchain' = { sqlchain with
          miners := settleMiners user sqlchain.miners
          users := sqlchain.users.set position user' } := by
  have paid : ∀ {minDep user} {finish : SQLChainUser → SQLChainProfile},
      (depositAmount minDep amount user).map finish = .ok sqlchain' →
        ∃ user', depositAmount minDep amount user = .ok user' ∧ sqlchain' = finish user' := by
    intro minDep user finish mapped
    cases deposited : depositAmount minDep amount user with
    | error => simp [deposited, Except.map] at mapped
    | ok after =>
      simp only [deposited, Except.map, Except.ok.injEq] at mapped
      exact ⟨after, rfl, mapped.symm⟩
  simp only [topUp] at topped
  unfold SQLChainUser.settled settleMiners
  by_cases owing : 0 < user.arrears
  · rw [if_pos owing] at topped
    split at topped
    · rename_i enough
      simp only [if_pos owing]
      exact ⟨enough, paid topped⟩
    · simp at topped
  · rw [if_neg owing] at topped
    simp only [if_neg owing]
    refine ⟨?_, paid topped⟩
    rw [lt_iff_toNat_lt, UInt64.toNat_zero] at owing
    rw [le_iff_toNat_le]
    omega

lemma topUp_unpaid (topped : topUp env sqlchain position user amount = .ok sqlchain') :
    sqlchain'.miners.map MinerInfo.unpaid = sqlchain.miners.map MinerInfo.unpaid := by
  obtain ⟨-, user', -, rfl⟩ := topUp_ok topped
  simp only [settleMiners]
  split
  · simp [MinerInfo.unpaid]
  · rfl

lemma deleteProviders_databases (miners) :
    (index.deleteProviders miners).databases = index.databases := by
  induction miners generalizing index with
  | nil => rfl
  | cons miner rest ih => exact ih (index.deleteProvider miner.address)

inductive ProfileChange (env : Env) (id : DatabaseID) (so : SQLChainProfile) :
    Transaction → SQLChainProfile → Prop
  | kept {tx} : ProfileChange env id so tx so
  | toppedUp {tx position user so'}
      (target : databaseID tx.header.receiver = id)
      (located : so.users.findIdx? (fun user => user.address = tx.header.sender) = some position)
      (listed : so.users[position]? = some user)
      (topped : topUp env so position user tx.header.amount = .ok so') :
      ProfileChange env id so (.transfer tx) so'
  | permitted {tx sender scanned}
      (target : databaseID tx.header.targetSQLChain = id)
      (signer : pubKeyHash env tx.verifier.signee = .ok sender)
      (scan : scanUsers sender tx.header.targetUser so.users 0 0 none = .ok scanned)
      (superLeft : ¬(scanned.1 ≤ 1 ∧ tx.header.targetUser = sender ∧
        ¬UserPermission.hasSuperPermission tx.header.permission)) :
      ProfileChange env id so (.updatePermission tx)
        { so with users := setPermission tx.header so.users scanned.2 }
  | billed {tx costs users miners}
      (target : databaseID tx.header.receiver = id)
      (priced : so.gasPrice ≠ 0)
      (decoded : userCosts tx.header.users = some costs)
      (billed : billUsers env so.gasPrice costs so.users
        (so.miners.map fun miner =>
          { miner with
              receivedIncome := miner.receivedIncome + miner.pendingIncome
              pendingIncome := 0 }) = (users, miners)) :
      ProfileChange env id so (.updateBilling tx)
        { so with
            miners := miners
            users := users
            lastUpdatedHeight := tx.header.rangeTo }

lemma setDatabase_change {index : MetaIndex} {id k profile old new}
    (found : index.databases.get id = some profile) (replaced : index.databases.get k = some old)
    (change : k = id → ProfileChange env id old tx new) :
    ∃ profile', (index.setDatabase k new).databases.get id = some profile' ∧
      ProfileChange env id profile tx profile' := by
  by_cases same : id = k
  · rw [same, replaced, some.injEq] at found
    exact ⟨new, by simp [setDatabase, same], found ▸ change same.symm⟩
  · exact ⟨profile, by simp [setDatabase, same, found], .kept⟩

lemma Ledger.unwrap {tx index index'} (step : Ledger env order height tx index index') :
    Ledger env order height tx.unwrap index index' := by
  induction tx with
  | wrapper inner ih =>
    cases step with
    | wrapper step => exact ih step
  | _ => exact step

lemma Ledger.profile {index index' : MetaIndex} {id profile}
    (step : Ledger env order height tx index index') (found : index.databases.get id =
      some profile) : ∃ profile', index'.databases.get id = some profile' ∧
      ProfileChange env id profile tx.unwrap profile' := by
  induction step with
  | topUp _ database _ _ _ _ located listed topped =>
    exact setDatabase_change found database fun target => .toppedUp target located listed topped
  | provide signer refunded adjusted =>
    refine ⟨profile, ?_, .kept⟩
    obtain ⟨account, balance, -, -, rfl⟩ := adjusted
    cases refunded with
    | kept => exact found
    | paid _ _ added =>
      obtain ⟨account, balance, -, -, rfl⟩ := added
      exact found
  | database _ _ _ _ _ _ _ adjusted _ fresh =>
    refine ⟨profile, ?_, .kept⟩
    obtain ⟨account, balance, -, -, rfl⟩ := adjusted
    rw [MetaIndex.storeProfile, deleteProviders_databases]
    simp only [setDatabase, get_insert]
    split
    · rename_i same
      rw [same] at found
      exact absurd (fresh.symm.trans found) (by simp)
    · exact found
  | permit signer database scan superLeft =>
    exact setDatabase_change found database fun target => .permitted target signer scan superLeft
  | bill database _ priced _ decoded billed =>
    exact setDatabase_change found database fun target => .billed target priced decoded billed
  | wrapper step ih => exact ih found
  | _ => exact ⟨profile, found, .kept⟩

lemma Applied.profile {tx index index' id profile}
    (applied : Applied env order height tx index index')
    (found : index.databases.get id = some profile) :
    ∃ profile', index'.databases.get id = some profile' ∧
      ProfileChange env id profile tx.unwrap profile' := by
  obtain ⟨-, step, -⟩ := applied
  exact step.profile found

lemma ProfileChange.miners {tx id profile profile'}
    (change : ProfileChange env id profile tx profile') :
    profile'.miners.map MinerInfo.unpaid = profile.miners.map MinerInfo.unpaid := by
  cases change with
  | kept => rfl
  | toppedUp _ _ _ topped => exact topUp_unpaid topped
  | permitted => rfl
  | billed _ _ _ billed =>
    have kept := congrArg (fun result => result.2.map MinerInfo.unpaid) billed
    simp only [billUsers_unpaid] at kept
    rw [← kept]
    simp [MinerInfo.unpaid]

end SQLess.BlockProducer
