import SQLess.BlockProducer.Ledger

/-! Refused transactions. -/

namespace SQLess.BlockProducer

open Lib Program FiniteMap Option MetaIndex Transaction MetaState

variable {k : AccountAddress} {amount : UInt64} {index index' : MetaIndex}

lemma safeAdd_eq_error :
    safeAdd x y = .error error ↔ 2 ^ 64 ≤ x.toNat + y.toNat ∧ error = .balanceOverflow := by
  cases added : safeAdd x y with
  | ok z =>
    have sum := safeAdd_eq_ok.mp added
    have bound := z.toNat_lt
    simp only [reduceCtorEq, false_iff, not_and]
    omega
  | error =>
    unfold safeAdd at added
    split at added
    · rename_i wrapped
      rw [UInt64.lt_iff_toNat_lt, UInt64.toNat_add] at wrapped
      have bound := x.toNat_lt
      have bound' := y.toNat_lt
      have large : 2 ^ 64 ≤ x.toNat + y.toNat := by omega
      rw [← Except.error.inj added, Except.error.injEq]
      exact ⟨fun same => ⟨large, same.symm⟩, fun same => same.2.symm⟩
    · simp at added

lemma safeSub_eq_error :
    safeSub x y = .error error ↔ x.toNat < y.toNat ∧ error = .insufficientBalance := by
  unfold safeSub
  split
  · rename_i short
    rw [UInt64.lt_iff_toNat_lt] at short
    simp [short, eq_comm]
  · rename_i enough
    rw [UInt64.lt_iff_toNat_lt] at enough
    simp [enough]

inductive Spoils (env : Env) (order : MinerOrder) (height : Nat) (index : MetaIndex) :
    Transaction → Prop
  | transfer {tx} (signer : pubKeyHash env tx.verifier.signee = .ok tx.header.sender)
      (absent : index.databases.get (databaseID tx.header.receiver) = none)
      (different : tx.header.sender ≠ tx.header.receiver) (positive : tx.header.amount ≠ 0)
      (newcomer : index.accounts.get tx.header.receiver = none)
      (short : ∀ so token, index.accounts.get tx.header.sender = some so →
        tx.header.tokenType.token? = some token →
          (so.tokenBalance.get token).toNat < tx.header.amount.toNat) :
      Spoils env order height index (.transfer tx)
  | provide {tx sender po account}
      (signer : pubKeyHash env tx.verifier.signee = .ok sender)
      (fixed : bpHeightCIPFixProvideService ≤ height)
      (registered : index.provider.get sender = some po)
      (payer : index.accounts.get sender = some account)
      (short : account.tokenBalance.particle.toNat + po.deposit.toNat <
        env.minProviderDeposit.toNat) :
      Spoils env order height index (.provideService tx)
  | create {tx miners account token}
      (signer : pubKeyHash env tx.verifier.signee = .ok tx.header.owner)
      (priced : tx.header.gasPrice ≠ 0) (staffed : tx.header.resourceMeta.node ≠ 0)
      (advanced : minAdvancePayment env tx.header ≤ tx.header.advancePayment)
      (selected : selectMiners order ⟨newDirtyIndex, index⟩ tx.header tx.header.owner =
        .ok (some miners))
      (payer : index.accounts.get tx.header.owner = some account)
      (supported : tx.header.tokenType.token? = some token)
      (enough : (minAdvancePayment env tx.header).toNat + tx.header.advancePayment.toNat ≤
        (account.tokenBalance.get token).toNat)
      (charged : tx.header.advancePayment ≠ 0)
      (refused : env.encodeGenesis tx.mixin.timestamp = none ∨
        index.databases.get (fromAccountAndNonce env tx.header.owner tx.header.nonce) ≠ none) :
      Spoils env order height index (.createDatabase tx)
  | wrapper {inner} (spoils : Spoils env order height index inner) :
      Spoils env order height index (.wrapper inner)

inductive Orphaned (env : Env) (index : MetaIndex) : Transaction → Prop
  | permit {tx so sender scanned}
      (missing : index.accounts.get sender = none)
      (signer : pubKeyHash env tx.verifier.signee = .ok sender)
      (database : index.databases.get (databaseID tx.header.targetSQLChain) = some so)
      (scan : scanUsers sender tx.header.targetUser so.users 0 0 none = .ok scanned)
      (superLeft : ¬(scanned.1 ≤ 1 ∧ tx.header.targetUser = sender ∧
        ¬UserPermission.hasSuperPermission tx.header.permission))
      (changed : setPermission tx.header so.users scanned.2 ≠ so.users) :
      Orphaned env index (.updatePermission tx)
  | bill {tx profile costs users miners}
      (missing : index.accounts.get (signeeAddress env tx.verifier.signee) = none)
      (database : index.databases.get (databaseID tx.header.receiver) = some profile)
      (inRange : ¬(0 < tx.header.version ∧ (tx.header.rangeTo ≤ tx.header.rangeFrom ∨
        profile.lastUpdatedHeight ≠ tx.header.rangeFrom)))
      (priced : profile.gasPrice ≠ 0)
      (signer : profile.miners.any (fun miner =>
        miner.address = signeeAddress env tx.verifier.signee) = true)
      (decoded : userCosts tx.header.users = some costs)
      (billed : billUsers env profile.gasPrice costs profile.users
        (profile.miners.map fun miner =>
          { miner with
              receivedIncome := miner.receivedIncome + miner.pendingIncome
              pendingIncome := 0 }) = (users, miners))
      (changed : { profile with
          miners := miners
          users := users
          lastUpdatedHeight := tx.header.rangeTo } ≠ profile) :
      Orphaned env index (.updateBilling tx)
  | wrapper {inner} (orphaned : Orphaned env index inner) :
      Orphaned env index (.wrapper inner)

/-- The transaction is accepted by its nonce and then refused after it has written. -/
def LeavesTrace (env : Env) (order : MinerOrder) (height : Nat) (tx : Transaction)
    (index : MetaIndex) : Prop :=
  ExpectedNonce env tx index ∧ (Spoils env order height index tx ∨ Orphaned env index tx)

variable {env : Env} {order : MinerOrder} {height : Nat} {s s' : MetaState} {error : Err}

variable {tx : Transaction}

lemma unspoiled (same : s' = s) (clear : ¬spoils) : s'.view ≠ s.view ↔ spoils := by
  subst same
  simp [clear]

lemma dirtyAccount_error (ran : dirtyAccount k missing s = .ok (.error error, s')) :
    s' = s ∧ s.view.accounts.get k = none := by
  have copied := dirtyAccount_copied k missing s
  rw [ran] at copied
  generalize s.dirty.accounts.get k = entry at copied
  generalize s.view.accounts.get k = found at copied
  cases copied with
  | absent => exact ⟨rfl, rfl⟩

lemma adjustAccountToken_error
    (ran : adjustAccountToken change context k amount tokenType s = .ok (.error error, s')) :
    s'.view = s.view ∧ ∀ account token, s.view.accounts.get k = some account →
      tokenType.token? = some token →
        ∃ raised, change (account.tokenBalance.get token) amount = .error raised := by
  rcases bind_eq_error.mp ran with missing | ⟨account, loaded, first, rest⟩
  · obtain ⟨rfl, absent⟩ := dirtyAccount_error missing
    exact ⟨rfl, by simp [absent]⟩
  · obtain ⟨found, view⟩ := dirtyAccount_ok first
    simp only [orPanic_bind_eq_ok, orFail_bind_eq_error, modify_run, Except.ok.injEq,
      Prod.mk.injEq, reduceCtorEq, false_and, and_false, exists_false, or_false] at rest
    obtain ⟨token, supported, refused, rfl⟩ := rest
    refine ⟨view, ?_⟩
    intro account' token' found' supported'
    rw [found, some.injEq] at found'
    rw [supported, some.injEq] at supported'
    rw [← found', ← supported']
    exact ⟨error, refused⟩

lemma increaseNonce_error (ran : increaseNonce addr s = .ok (.error error, s')) :
    s' = s ∧ s.view.accounts.get addr = none := by
  rcases bind_eq_error.mp ran with missing | ⟨account, loaded, first, rest⟩
  · exact dirtyAccount_error missing
  · simp at rest

lemma setAccount_ne (absent : index.accounts.get k = none) : index.setAccount k v ≠ index := by
  intro same
  have read : (index.setAccount k v).accounts.get k = some v := by simp [setAccount]
  rw [same, absent] at read
  simp at read

lemma moveAccountToken_refused (clean : s.NoNil) (different : sender ≠ receiver)
    (ran : moveAccountToken sender receiver amount tokenType s = .ok (.error error, s')) :
    (s'.view ≠ s.view ↔ s.view.accounts.get receiver = none) ∧
      (s.view.accounts.get receiver = none → ∀ so token, s.view.accounts.get sender = some so →
        tokenType.token? = some token → (so.tokenBalance.get token).toNat < amount.toNat) := by
  rcases bind_eq_error.mp ran with failed | ⟨found, middle, first, rest⟩
  · rcases loadOrStore_ok (Account.new receiver) (clean.not_shadowed receiver) with
      ⟨-, stored⟩ | ⟨layer, o, -, -, loaded, -⟩
    · simp [failed] at stored
    · simp [failed] at loaded
  · obtain ⟨ro, payee, view, payeeFound, others⟩ :=
      loadReceiver_ok (clean.not_shadowed receiver) first
    simp only [get_bind_run, payeeFound, others sender different,
      lookupAccount_eq clean, ← s.view_accounts_get] at rest
    -- whatever fails now leaves the state with the receiver
    have stays : s' = middle ∧ ∀ so token, s.view.accounts.get sender = some so →
        tokenType.token? = some token → (so.tokenBalance.get token).toNat < amount.toNat ∨
          ∃ raised, safeAdd (ro.tokenBalance.get token) amount = .error raised := by
      rcases payer : s.view.accounts.get sender with _ | so
      · simp only [payer, map_none, fail_run] at rest
        cases rest
        exact ⟨rfl, by simp⟩
      · simp only [payer, map_some, orPanic_bind_eq_ok, orFail_bind_eq_error, modify_run,
          some.injEq, exists_eq_left', Except.ok.injEq, Prod.mk.injEq, reduceCtorEq,
          false_and, and_false, exists_false, or_false] at rest
        obtain ⟨token, supported, failed⟩ := rest
        rcases failed with ⟨short, rfl⟩ | ⟨sb, -, overflow, rfl⟩
        · refine ⟨rfl, ?_⟩
          rintro so' token' ⟨⟩ supported'
          rw [supported, some.injEq] at supported'
          rw [← supported']
          exact .inl (safeSub_eq_error.mp short).1
        · refine ⟨rfl, ?_⟩
          rintro so' token' ⟨⟩ supported'
          rw [supported, some.injEq] at supported'
          rw [← supported']
          exact .inr ⟨error, overflow⟩
    obtain ⟨rfl, reason⟩ := stays
    refine ⟨?_, ?_⟩
    · rw [view]
      constructor
      · intro differs
        rcases present : s.view.accounts.get receiver with _ | o
        · rfl
        · rw [present, getD_some] at payee
          rw [← payee, setAccount, insert_of_get present] at differs
          exact absurd rfl differs
      · exact fun absent => setAccount_ne absent
    · intro absent so token payer supported
      rcases reason so token payer supported with short | ⟨raised, overflow⟩
      · exact short
      · rw [absent, getD_none] at payee
        have large := (safeAdd_eq_error.mp overflow).1
        have bound := amount.toNat_lt
        have empty : (ro.tokenBalance.get token).toNat = 0 := by
          rw [← payee]
          cases token <;> rfl
        omega

lemma transferAccountToken_refused {tx} (clean : s.NoNil)
    (absent : s.view.databases.get (databaseID tx.header.receiver) = none)
    (ran : transferAccountToken env tx s = .ok (.error error, s')) :
    s'.view ≠ s.view ↔ Spoils env order height s.view (.transfer tx) := by
  rcases signer : pubKeyHash env tx.verifier.signee with raised | realSender
  · simp only [transferAccountToken, signer, fail_run] at ran
    cases ran
    refine unspoiled rfl ?_
    rintro ⟨signer'⟩
    simp [signer] at signer'
  · simp only [transferAccountToken, signer] at ran
    split at ran
    · rename_i wrong
      cases ran
      refine unspoiled rfl ?_
      rintro ⟨signer'⟩
      rw [signer, Except.ok.injEq] at signer'
      exact wrong signer'
    · rename_i same
      rw [Classical.not_not] at same
      subst same
      split at ran
      · simp at ran
      · rename_i something
        rw [not_or] at something
        obtain ⟨changed, short⟩ := moveAccountToken_refused clean something.1 ran
        refine changed.trans ⟨?_, ?_⟩
        · intro newcomer
          exact .transfer signer absent something.1 something.2 newcomer (short newcomer)
        · rintro ⟨-, -, -, -, newcomer, -⟩
          exact newcomer

lemma transferSQLChainTokenBalance_absent {tx}
    (signer : pubKeyHash env tx.verifier.signee = .ok tx.header.sender)
    (absent : s.view.databases.get (databaseID tx.header.receiver) = none) :
    transferSQLChainTokenBalance env tx s = .ok (.error .databaseNotFound, s) := by
  rw [view_databases_get] at absent
  rcases key : tx.verifier.signee with _ | signee
  · simp [key, pubKeyHash] at signer
  · rw [key] at signer
    simp [transferSQLChainTokenBalance, key, signer, absent]

lemma transfer_refused {tx} (clean : s.NoNil)
    (ran : applyTransaction env order height (.transfer tx) s = .ok (.error error, s')) :
    s'.view ≠ s.view ↔ Spoils env order height s.view (.transfer tx) := by
  simp only [applyTransaction, handle] at ran
  rcases first : transferSQLChainTokenBalance env tx s with reason | ⟨raised | value, middle⟩
  · simp [first] at ran
  · simp only [first] at ran
    obtain ⟨rfl, absent⟩ := transferSQLChainTokenBalance_error first
    split at ran
    · rename_i notFound
      exact transferAccountToken_refused clean (absent (of_decide_eq_true notFound)) ran
    · rename_i other
      cases ran
      refine unspoiled rfl ?_
      rintro ⟨signer, absent⟩
      rw [transferSQLChainTokenBalance_absent signer absent, Except.ok.injEq,
        Prod.mk.injEq, Except.error.injEq] at first
      exact other (decide_eq_true first.1.symm)
  · simp [first] at ran

lemma refundProvider_error (ran : refundProvider sender height s = .ok (.error error, s')) :
    s'.view = s.view ∧ ∀ account po, s.view.accounts.get sender = some account →
      s.view.provider.get sender = some po →
        2 ^ 64 ≤ account.tokenBalance.particle.toNat + po.deposit.toNat := by
  unfold refundProvider at ran
  split at ran
  · rw [get_bind_run] at ran
    rcases registered : s.loadProviderObject sender with _ | po
    · simp [registered] at ran
    · simp only [registered] at ran
      rw [← s.view_provider_get] at registered
      rcases bind_eq_error.mp ran with failed | ⟨value, middle, -, rest⟩
      · obtain ⟨view, reason⟩ := adjustAccountToken_error failed
        refine ⟨view, ?_⟩
        intro account po' payer registered'
        rw [registered, some.injEq] at registered'
        obtain ⟨raised, overflow⟩ := reason account .particle payer rfl
        rw [← registered']
        exact (safeAdd_eq_error.mp overflow).1
      · simp at rest
  · simp at ran

lemma deleteProvider_ne {middle : MetaIndex}
    (registered : index.provider.get sender = some po) : middle.deleteProvider sender ≠ index := by
  intro same
  have read : (middle.deleteProvider sender).provider.get sender = none := by
    simp [deleteProvider]
  rw [same, registered] at read
  simp at read

lemma updateProviderList_refused {tx : SignedTx ProvideServiceHeader}
    (ran : updateProviderList env tx height s = .ok (.error error, s')) :
    s'.view ≠ s.view ↔ Spoils env order height s.view (.provideService tx) := by
  rcases signer : pubKeyHash env tx.verifier.signee with raised | sender
  · simp only [updateProviderList, signer, fail_run] at ran
    cases ran
    refine unspoiled rfl ?_
    intro spoils
    cases spoils with
    | provide signer' => simp [signer] at signer'
  · simp only [updateProviderList, signer] at ran
    -- the only way in which a spoiling registration reads the state
    have spoils : Spoils env order height s.view (.provideService tx) ↔
        bpHeightCIPFixProvideService ≤ height ∧ ∃ po account,
          s.view.provider.get sender = some po ∧ s.view.accounts.get sender = some account ∧
            account.tokenBalance.particle.toNat + po.deposit.toNat <
              env.minProviderDeposit.toNat := by
      constructor
      · intro spoils
        cases spoils with
        | provide signer' fixed registered payer short =>
          rw [signer, Except.ok.injEq] at signer'
          subst signer'
          exact ⟨fixed, _, _, registered, payer, short⟩
      · rintro ⟨fixed, po, account, registered, payer, short⟩
        exact .provide signer fixed registered payer short
    rw [spoils]
    have bound := env.minProviderDeposit.toNat_lt
    rcases bind_eq_error.mp ran with failed | ⟨value, middle, first, rest⟩
    · obtain ⟨view, large⟩ := refundProvider_error failed
      refine ⟨by simp [view], ?_⟩
      rintro ⟨-, po, account, registered, payer, short⟩
      have overflow := large account po payer registered
      omega
    · have refunded := refundProvider_ok first
      rcases bind_eq_error.mp rest with failed | ⟨value, charged, -, last⟩
      · obtain ⟨view, reason⟩ := adjustAccountToken_error failed
        rw [view]
        generalize s.view = index at refunded ⊢
        generalize middle.view = index' at refunded reason ⊢
        cases refunded with
        | kept early =>
          refine ⟨by simp, ?_⟩
          rintro ⟨fixed, po, account, registered, -⟩
          rcases early with low | absent
          · omega
          · simp [absent] at registered
        | paid fixed registered adjusted =>
          rename_i po
          refine ⟨fun _ => ?_, fun _ => deleteProvider_ne registered⟩
          obtain ⟨account, balance, payer, added, same⟩ := adjusted
          obtain ⟨raised, short⟩ := reason (Account.withBalance account .particle balance)
            .particle (by rw [same]; simp [deleteProvider, setAccount]) rfl
          rw [safeSub_eq_error] at short
          have sum := safeAdd_eq_ok.mp added
          refine ⟨fixed, po, account, registered, payer, ?_⟩
          have read : ((Account.withBalance account .particle balance).tokenBalance.get
              .particle) = balance := rfl
          rw [read, sum] at short
          exact short.1
      · simp at last

lemma setAccount_withBalance_ne (found : index.accounts.get k = some account) :
    index.setAccount k (Account.withBalance account token balance) ≠ index ↔
      account.tokenBalance.get token ≠ balance := by
  have read : (index.setAccount k (Account.withBalance account token balance)).accounts.get k =
      some (Account.withBalance account token balance) := by simp [setAccount]
  constructor
  · intro differs same
    have unchanged : Account.withBalance account token balance = account := by
      rw [← same]
      cases token <;> rfl
    rw [unchanged, setAccount, insert_of_get found] at differs
    exact differs rfl
  · intro differs same
    rw [same, found, some.injEq] at read
    have balances := congrArg (fun account => account.tokenBalance.get token) read
    cases token <;> exact differs balances

lemma createProfile_refused {tx miners}
    (advanced : minAdvancePayment env tx.header ≤ tx.header.advancePayment)
    (ran : createProfile env tx tx.header.owner miners s = .ok (.error error, s')) :
    s'.view ≠ s.view ↔ ∃ account token, s.view.accounts.get tx.header.owner = some account ∧
      tx.header.tokenType.token? = some token ∧
      (minAdvancePayment env tx.header).toNat + tx.header.advancePayment.toNat ≤
        (account.tokenBalance.get token).toNat ∧ tx.header.advancePayment ≠ 0 ∧
      (env.encodeGenesis tx.mixin.timestamp = none ∨
        s.view.databases.get (fromAccountAndNonce env tx.header.owner tx.header.nonce) ≠ none) := by
  simp only [createProfile, orFail_bind_eq_error] at ran
  rcases ran with ⟨overflow, rfl⟩ | ⟨all, cost, ran⟩
  · refine unspoiled rfl ?_
    rintro ⟨account, token, -, -, enough, -⟩
    have large := (safeAdd_eq_error.mp overflow).1
    have bound := (account.tokenBalance.get token).toNat_lt
    omega
  · have total := safeAdd_eq_ok.mp cost
    rcases bind_eq_error.mp ran with failed | ⟨value, charged, second, rest⟩
    · obtain ⟨view, reason⟩ := adjustAccountToken_error failed
      refine ⟨by simp [view], ?_⟩
      rintro ⟨account, token, payer, supported, enough, -⟩
      obtain ⟨raised, short⟩ := reason account token payer supported
      have less := (safeSub_eq_error.mp short).1
      omega
    · obtain ⟨token, supported, account, balance, payer, paid, view⟩ :=
        adjustAccountToken_ok second
      have difference := safeSub_eq_ok.mp paid
      have stays : s' = charged ∧ (env.encodeGenesis tx.mixin.timestamp = none ∨
          s.view.databases.get (fromAccountAndNonce env tx.header.owner tx.header.nonce) ≠
            none) := by
        have databases : charged.view.databases = s.view.databases := by
          rw [view]
          rfl
        rw [← databases, charged.view_databases_get]
        rcases encoded : env.encodeGenesis tx.mixin.timestamp with _ | enc
        · simp only [encoded, orFail_error_run, bind_run] at rest
          cases rest
          exact ⟨rfl, .inl rfl⟩
        · simp only [encoded, bind_run, orFail_ok_run, get_run] at rest
          rcases found : charged.loadSQLChainObject
              (fromAccountAndNonce env tx.header.owner tx.header.nonce) with _ | existing
          · simp [found] at rest
          · simp only [found, fail_run] at rest
            cases rest
            exact ⟨rfl, .inr (by simp)⟩
      obtain ⟨rfl, refused⟩ := stays
      rw [view, setAccount_withBalance_ne payer]
      have positive : account.tokenBalance.get token ≠ balance ↔ tx.header.advancePayment ≠ 0 := by
        rw [UInt64.le_iff_toNat_le] at advanced
        simp only [ne_eq, ← UInt64.toNat_inj, UInt64.toNat_zero]
        omega
      rw [positive]
      refine ⟨?_, ?_⟩
      · exact fun charged => ⟨account, token, payer, supported, by omega, charged, refused⟩
      · rintro ⟨-, -, -, -, -, charged, -⟩
        exact charged

lemma matchProvidersWithUser_refused {tx}
    (ran : matchProvidersWithUser env order tx s = .ok (.error error, s')) :
    s'.view ≠ s.view ↔ Spoils env order height s.view (.createDatabase tx) := by
  rcases signer : pubKeyHash env tx.verifier.signee with raised | sender
  · simp only [matchProvidersWithUser, signer, fail_run] at ran
    cases ran
    refine unspoiled rfl ?_
    intro spoils
    cases spoils with
    | create signer' => simp [signer] at signer'
  · simp only [matchProvidersWithUser, signer] at ran
    split at ran
    · rename_i wrong
      cases ran
      refine unspoiled rfl ?_
      intro spoils
      cases spoils with
      | create signer' => exact wrong (Except.ok.inj (signer.symm.trans signer'))
    · rename_i owner
      rw [Classical.not_not] at owner
      subst owner
      split at ran
      · rename_i free
        cases ran
        refine unspoiled rfl ?_
        intro spoils
        cases spoils with
        | create _ priced => exact priced free
      · rename_i priced
        split at ran
        · rename_i unstaffed
          cases ran
          refine unspoiled rfl ?_
          intro spoils
          cases spoils with
          | create _ _ staffed => exact staffed unstaffed
        · rename_i staffed
          split at ran
          · rename_i short
            cases ran
            refine unspoiled rfl ?_
            intro spoils
            cases spoils with
            | create _ _ _ advanced => exact UInt64.not_lt.mpr advanced short
          · rename_i advanced
            rw [UInt64.not_lt] at advanced
            rw [get_bind_run, orFail_bind_eq_error, selectMiners_view] at ran
            rcases ran with ⟨failed, rfl⟩ | ⟨selected, chosen, ran⟩
            · refine unspoiled rfl ?_
              intro spoils
              cases spoils with
              | create _ _ _ _ selected => simp [failed] at selected
            · cases selected with
              | none => simp at ran
              | some =>
                refine (createProfile_refused advanced ran).trans ⟨?_, ?_⟩
                · rintro ⟨account, token, payer, supported, enough, charged, refused⟩
                  exact .create signer priced staffed advanced chosen payer supported enough
                    charged refused
                · intro spoils
                  cases spoils with
                  | create _ _ _ _ _ payer supported enough charged refused =>
                    exact ⟨_, _, payer, supported, enough, charged, refused⟩

lemma storeBaseAccount_error (clean : s.NoNil)
    (ran : storeBaseAccount k v s = .ok (.error error, s')) : s' = s := by
  simp only [storeBaseAccount, bind_run] at ran
  rcases loadOrStore_ok v (clean.not_shadowed k) with
    ⟨absent, stored⟩ | ⟨layer, o, present, -, loaded, -⟩
  · simp [stored] at ran
  · simp only [loaded] at ran
    split at ran
    · cases ran
      rfl
    · simp only [orFail_bind_eq_error, modify_run, Except.ok.injEq, Prod.mk.injEq, reduceCtorEq,
        false_and, and_false, exists_false, or_false] at ran
      rcases ran with ⟨-, same⟩ | ⟨cb, -, -, same⟩ <;> exact same

lemma updatePermission_error {tx} (ran : updatePermission env tx s = .ok (.error error, s')) :
    s' = s := by
  rcases signer : pubKeyHash env tx.verifier.signee with raised | sender
  · simp only [updatePermission, signer, fail_run] at ran
    cases ran
    rfl
  · simp only [updatePermission, signer, get_bind_run] at ran
    rcases database : s.loadSQLChainObject (databaseID tx.header.targetSQLChain) with _ | so
    · simp only [database, fail_run] at ran
      cases ran
      rfl
    · simp only [database, orFail_bind_eq_error] at ran
      rcases ran with ⟨-, same⟩ | ⟨scanned, -, ran⟩
      · exact same
      · split at ran
        · cases ran
          rfl
        · simp at ran

lemma updateKeys_error {tx} (ran : updateKeys env tx s = .ok (.error error, s')) : s' = s := by
  simp only [updateKeys, get_bind_run] at ran
  rcases database : s.loadSQLChainObject (databaseID tx.header.targetSQLChain) with _ | so
  · simp only [database, fail_run] at ran
    cases ran
    rfl
  · simp only [database] at ran
    rcases listed : so.users.find? fun user =>
        signeeAddress env tx.verifier.signee = user.address with _ | user
    · simp [listed] at ran
    · simp only [listed] at ran
      split at ran
      · simp at ran
      · cases ran
        rfl

lemma updateBilling_error {tx} (ran : updateBilling env tx s = .ok (.error error, s')) :
    s' = s := by
  simp only [updateBilling, get_bind_run] at ran
  rcases database : s.loadSQLChainObject (databaseID tx.header.receiver) with _ | profile
  · simp only [database, fail_run] at ran
    cases ran
    rfl
  · simp only [database] at ran
    split at ran
    · cases ran
      rfl
    · split at ran
      · simp at ran
      · split at ran
        · simp at ran
        · cases ran
          rfl

lemma applyTransaction_refused (clean : s.NoNil)
    (ran : applyTransaction env order height tx s = .ok (.error error, s')) :
    s'.view ≠ s.view ↔ Spoils env order height s.view tx := by
  induction tx with
  | transfer => exact transfer_refused clean ran
  | baseAccount =>
    exact unspoiled (storeBaseAccount_error clean ran) nofun
  | provideService => exact updateProviderList_refused ran
  | createDatabase => exact matchProvidersWithUser_refused ran
  | updatePermission => exact unspoiled (updatePermission_error ran) nofun
  | issueKeys => exact unspoiled (updateKeys_error ran) nofun
  | updateBilling => exact unspoiled (updateBilling_error ran) nofun
  | wrapper inner ih =>
    refine (ih ran).trans ⟨.wrapper, ?_⟩
    intro spoils
    cases spoils with
    | wrapper spoils => exact spoils

lemma signeeAddress_ok (signer : pubKeyHash env signee = .ok sender) :
    signeeAddress env signee = sender := by
  rw [signeeAddress, signer]

lemma setDatabase_ne {k profile profile'} (found : index.databases.get k = some profile) :
    index.setDatabase k profile' ≠ index ↔ profile' ≠ profile := by
  constructor
  · rintro differs rfl
    rw [setDatabase, insert_of_get found] at differs
    exact differs rfl
  · intro differs same
    have read : (index.setDatabase k profile').databases.get k = some profile' := by
      simp [setDatabase]
    rw [same, found, some.injEq] at read
    exact differs read.symm

lemma deleteProviders_accounts (index : MetaIndex) (miners) :
    (index.deleteProviders miners).accounts = index.accounts := by
  induction miners generalizing index with
  | nil => rfl
  | cons miner rest ih => exact ih (index.deleteProvider miner.address)

lemma Adjusted.found (adjusted : Adjusted change k amount token index index') :
    ∃ account, index'.accounts.get k = some account := by
  obtain ⟨account, balance, -, -, rfl⟩ := adjusted
  refine ⟨Account.withBalance account token balance, ?_⟩
  simp [setAccount]

lemma Ledger.not_spoils
    (step : Ledger env order height tx index index') : ¬Spoils env order height index tx := by
  induction step with
  | topUp _ database | notUser database =>
    rintro ⟨-, absent⟩
    simp [database] at absent
  | idle absent nothing =>
    rintro ⟨-, -, different, positive⟩
    exact nothing.elim different positive
  | move signer absent different payer payee supported paid =>
    rintro ⟨-, -, -, -, -, short⟩
    have less := short _ _ payer supported
    have enough := safeSub_eq_ok.mp paid
    omega
  | provide signer refunded adjusted =>
    intro spoils
    cases spoils with
    | provide signer' fixed registered payer =>
      rw [signer, Except.ok.injEq] at signer'
      subst signer'
      cases refunded with
      | kept early =>
        rcases early with low | absent
        · omega
        · simp [absent] at registered
      | paid _ registered' added =>
        obtain ⟨account, balance, payer', sum, rfl⟩ := added
        obtain ⟨charged, rest, found, paid, -⟩ := adjusted
        rw [registered, some.injEq] at registered'
        rw [payer, some.injEq] at payer'
        subst registered' payer'
        simp only [deleteProvider, setAccount, get_insert,
          if_true, some.injEq] at found
        subst found
        have enough := safeSub_eq_ok.mp paid
        have total := safeAdd_eq_ok.mp sum
        simp only [Account.withBalance, TokenBalance.get, TokenBalance.set] at enough total
        omega
  | unmatched signer selected =>
    intro spoils
    cases spoils with
    | create _ _ _ _ selected' => simp [selected] at selected'
  | database _ _ _ _ _ _ _ _ encoded fresh =>
    intro spoils
    cases spoils with
    | create _ _ _ _ _ _ _ _ _ refused =>
      rcases refused with failed | exists_
      · simp [encoded] at failed
      · exact exists_ fresh
  | wrapper step ih =>
    intro spoils
    cases spoils with
    | wrapper spoils => exact ih spoils
  | _ =>
    intro spoils
    cases spoils

lemma Ledger.orphaned (step : Ledger env order height tx index index')
    (missing : index'.accounts.get (tx.getAccountAddress env) = none) :
    index' ≠ index ↔ Orphaned env index tx := by
  have unchanged : ∀ {tx : Transaction} {index : MetaIndex}, ¬Orphaned env index tx →
      (index ≠ index ↔ Orphaned env index tx) := by
    intro tx index clear
    simp [clear]
  induction step with
  | topUp | create | fund => simp [setAccount, getAccountAddress] at missing
  | notUser | idle | unmatched | issue => exact unchanged (by rintro ⟨⟩)
  | move =>
    simp only [setAccount, getAccountAddress, get_insert, if_true] at missing
    split at missing <;> simp at missing
  | provide signer refunded adjusted =>
    obtain ⟨account, found⟩ := adjusted.found
    rw [getAccountAddress, signeeAddress_ok signer] at missing
    simp [setProvider, found] at missing
  | database signer priced staffed advanced selected cost supported adjusted =>
    obtain ⟨account, found⟩ := adjusted.found
    rw [getAccountAddress, signeeAddress_ok signer, MetaIndex.storeProfile,
      deleteProviders_accounts] at missing
    simp only [setDatabase, setAccount, get_insert, found]
      at missing
    split at missing <;> simp at missing
  | permit signer database scan superLeft =>
    rw [getAccountAddress, signeeAddress_ok signer] at missing
    rw [setDatabase_ne database]
    constructor
    · intro changed
      refine .permit missing signer database scan superLeft ?_
      intro same
      rw [same] at changed
      exact changed rfl
    · intro orphaned same
      cases orphaned with
      | permit _ signer' database' scan' _ changed =>
        rw [signer, Except.ok.injEq] at signer'
        rw [database, some.injEq] at database'
        subst signer' database'
        rw [scan, Except.ok.injEq] at scan'
        subst scan'
        exact changed (congrArg SQLChainProfile.users same)
  | unbilled database free =>
    refine unchanged ?_
    intro orphaned
    cases orphaned with
    | bill _ database' _ priced =>
      rw [database, some.injEq] at database'
      subst database'
      exact priced free
  | bill database inRange priced signer decoded billed =>
    rw [setDatabase_ne database]
    constructor
    · exact .bill missing database inRange priced signer decoded billed
    · intro orphaned
      cases orphaned with
      | bill _ database' _ _ _ decoded' billed' changed =>
        rw [database, some.injEq] at database'
        rw [decoded, some.injEq] at decoded'
        subst database' decoded'
        rw [billed, Prod.mk.injEq] at billed'
        rw [billed'.1, billed'.2]
        exact changed
  | wrapper step ih =>
    refine (ih missing).trans ⟨.wrapper, ?_⟩
    intro orphaned
    cases orphaned with
    | wrapper orphaned => exact orphaned

lemma Orphaned.applies (orphaned : Orphaned env s.view tx) (order height) :
    ∃ s', applyTransaction env order height tx s = .ok (.ok (), s') := by
  induction orphaned with
  | permit _ signer database scan superLeft =>
    rw [view_databases_get] at database
    simp only [applyTransaction, updatePermission, signer, get_bind_run, database, scan]
    simp only [bind_run, orFail_ok_run, if_neg superLeft]
    exact ⟨_, rfl⟩
  | bill _ database inRange priced signer decoded =>
    rw [view_databases_get] at database
    simp only [applyTransaction, updateBilling, get_bind_run, database, if_neg inRange,
      if_neg priced, List.any_map, Function.comp_def, if_pos signer, decoded]
    simp only [bind_run, orPanic_some_run]
    exact ⟨_, rfl⟩
  | wrapper _ ih => exact ih

lemma expectedNonce_eq (clean : s.NoNil) (expected : ExpectedNonce env tx s.view) :
    expectedNonce env tx s = .ok (.ok tx.getAccountNonce, s) := by
  rw [ExpectedNonce, view_accounts_get] at expected
  simp only [expectedNonce, get_bind_run, nextNonce, lookupAccount_eq clean]
  rcases expected with ⟨account, found, next⟩ | ⟨absent, tagged, first⟩
  · simp [found, next, bind_run]
  · simp [absent, tagged, first, bind_run]

lemma apply_unexpected (unexpected : ¬ExpectedNonce env tx s.view)
    (ran : apply env order tx height s = .ok (.error error, s')) : s' = s := by
  rcases bind_eq_error.mp ran with failed | ⟨nonce, middle, first, rest⟩
  · exact expectedNonce_state failed
  · obtain rfl := expectedNonce_state first
    split at rest
    · cases rest
      rfl
    · rename_i next
      exact absurd (expectedNonce_ok first (Classical.not_not.mp next)) unexpected

lemma apply_refused (clean : s.NoNil) (ran : apply env order tx height s = .ok (.error error, s')) :
    s'.view ≠ s.view ↔ LeavesTrace env order height tx s.view := by
  by_cases expected : ExpectedNonce env tx s.view
  · have trace : LeavesTrace env order height tx s.view ↔
        Spoils env order height s.view tx ∨ Orphaned env s.view tx := by
      simp [LeavesTrace, expected]
    rw [trace]
    simp only [apply, bind_run, expectedNonce_eq clean expected, ne_eq, not_true, if_false] at ran
    rcases bind_eq_error.mp ran with failed | ⟨value, middle, second, third⟩
    · refine (applyTransaction_refused clean failed).trans ⟨.inl, ?_⟩
      rintro (spoils | orphaned)
      · exact spoils
      · obtain ⟨after, applied⟩ := orphaned.applies order height
        simp [failed] at applied
    · have step := applyTransaction_ok (clean.not_shadowed _) second
      obtain ⟨rfl, missing⟩ := increaseNonce_error third
      refine (step.orphaned missing).trans ⟨.inr, ?_⟩
      rintro (spoils | orphaned)
      · exact absurd spoils step.not_spoils
      · exact orphaned
  · exact unspoiled (apply_unexpected expected ran) fun trace => expected trace.1

lemma Orphaned.missing
    (orphaned : Orphaned env index tx) (step : Ledger env order height tx index index') :
    index'.accounts.get (tx.getAccountAddress env) = none := by
  induction orphaned with
  | permit missing signer =>
    rw [getAccountAddress, signeeAddress_ok signer]
    cases step
    exact missing
  | bill missing =>
    cases step with
    | unbilled | bill => exact missing
  | wrapper _ ih =>
    cases step with
    | wrapper step => exact ih step

lemma Applied.not_leavesTrace (applied : Applied env order height tx index index') :
    ¬LeavesTrace env order height tx index := by
  obtain ⟨-, step, found⟩ := applied
  rintro ⟨-, spoils | orphaned⟩
  · exact step.not_spoils spoils
  · simp [orphaned.missing step] at found

lemma not_leavesTrace_of_nonce
    (found : (index.accounts.get (tx.getAccountAddress env)).map Account.nextNonce = some next)
    (differs : next ≠ tx.getAccountNonce) : ¬LeavesTrace env order height tx index := by
  obtain ⟨account, present, rfl⟩ := map_eq_some_iff.mp found
  rintro ⟨⟨account', present', same⟩ | ⟨absent, -⟩, -⟩
  · rw [present, some.injEq] at present'
    rw [present'] at differs
    exact differs same
  · simp [present] at absent

lemma apply_untraced (clean : s.NoNil) (ran : apply env order tx height s = .ok (result, s')) :
    (∀ error after, apply env order tx height s = .ok (.error error, after) →
      after.view = s.view) ↔ ¬LeavesTrace env order height tx s.view := by
  cases result with
  | error raised =>
    rw [← apply_refused clean ran, Classical.not_not]
    constructor
    · exact fun untraced => untraced raised s' ran
    · intro same error after ran'
      rw [ran, Except.ok.injEq, Prod.mk.injEq] at ran'
      rw [← ran'.2, same]
  | ok => simp [ran, (apply_applied ran).not_leavesTrace]

end SQLess.BlockProducer
