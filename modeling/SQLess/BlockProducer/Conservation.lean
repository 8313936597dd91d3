import SQLess.BlockProducer.Minting
import SQLess.BlockProducer.Staffing

/-! Transactions that only move tokens. -/

namespace SQLess.BlockProducer

open Lib List FiniteMap MetaIndex

variable {k : AccountAddress} {amount : UInt64} {token : Token}

variable (index : MetaIndex)

def MetaIndex.balance (k : AccountAddress) (token : Token) : Nat :=
  (index.accounts.get k).elim 0 (Account.worth token)

def MetaIndex.nonce (k : AccountAddress) : AccountNonce :=
  (index.accounts.get k).elim 0 Account.nextNonce

def MetaIndex.staked (token : Token) : Nat :=
  index.provider.sum (ProviderProfile.locked token)

lemma balance_of_get {index : MetaIndex} (found : index.accounts.get k = some account)
    (token) : index.balance k token = Account.worth token account := by
  rw [balance, found, Option.elim_some]

lemma balance_getD (k token) :
    Account.worth token ((index.accounts.get k).getD (Account.new k)) = index.balance k token := by
  rw [balance]
  cases index.accounts.get k with
  | none => cases token <;> rfl
  | some account => rfl

lemma nonce_getD (k) : ((index.accounts.get k).getD (Account.new k)).nextNonce = index.nonce k := by
  rw [nonce]
  cases index.accounts.get k <;> rfl

lemma balance_setAccount (k query account token) :
    (index.setAccount k account).balance query token =
      if query = k then Account.worth token account else index.balance query token := by
  simp only [balance, setAccount, get_insert]
  split <;> rfl

lemma nonce_setAccount (k query account) : (index.setAccount k account).nonce query =
      if query = k then account.nextNonce else index.nonce query := by
  simp only [nonce, setAccount, get_insert]
  split <;> rfl

lemma get_setAccount_of_ne (account) (other : query ≠ k) :
    (index.setAccount k account).accounts.get query = index.accounts.get query := by
  simp [setAccount, other]

section

variable {index : MetaIndex} {k : AccountAddress} {account : Account}

def MetaIndex.countUp (index : MetaIndex) (k : AccountAddress) (account : Account) : MetaIndex :=
  index.setAccount k { account with nextNonce := account.nextNonce + 1 }

section

variable (found : index.accounts.get k = some account)
include found

lemma held_countUp (token) : (index.countUp k account).held token = index.held token := by
  have total := held_setAccount index token k { account with nextNonce := account.nextNonce + 1 }
  rw [found] at total
  exact Nat.add_right_cancel total

lemma balance_countUp (query token) :
    (index.countUp k account).balance query token = index.balance query token := by
  rw [countUp, balance_setAccount]
  split
  · rename_i same
    rw [same, balance_of_get found]
    rfl
  · rfl

lemma nonce_countUp (query) : (index.countUp k account).nonce query =
      if query = k then index.nonce query + 1 else index.nonce query := by
  rw [countUp, nonce_setAccount]
  split
  · rename_i same
    rw [same, nonce, found]
    rfl
  · rfl

end

end

structure Conserved (touched : AccountAddress → Prop) (index index' : MetaIndex) : Prop where
  total : ∀ token, index'.held token + index'.staked token = index.held token + index.staked token
  accounts : ∀ k, ¬touched k → index'.accounts.get k = index.accounts.get k
  providers : ∀ k, ¬touched k → index'.provider.get k = index.provider.get k
  databases : index'.databases = index.databases

structure Moved (header : TransferHeader) (token : Token) (index index' : MetaIndex) : Prop
    extends Conserved (fun k => k = header.sender ∨ k = header.receiver) index index' where
  provider : index'.provider = index.provider
  balances : ∀ k query, index'.balance k query +
        (if k = header.sender ∧ query = token then header.amount.toNat else 0) =
      index.balance k query +
        if k = header.receiver ∧ query = token then header.amount.toNat else 0
  nonces : ∀ k, index'.nonce k = if k = header.sender then index.nonce k + 1 else index.nonce k

structure Registered (env : Env) (sender : AccountAddress) (index index' : MetaIndex) : Prop
    extends Conserved (fun k => k = sender) index index' where
  entry : ∃ po, index'.provider.get sender = some po ∧ po.provider = sender ∧
    po.deposit = env.minProviderDeposit
  only : index.Keyed → ∀ k po, index'.provider.get k = some po → po.provider = sender → k = sender
  balances : ∀ query, index'.balance sender query +
        (if query = .particle then env.minProviderDeposit.toNat else 0) =
      index.balance sender query + (index.provider.get sender).elim 0 (ProviderProfile.locked query)
  nonces : index'.nonce sender = index.nonce sender + 1

section

variable {env : Env} {order : MinerOrder} {height : Nat} {index index' : MetaIndex}

lemma Adjusted.balance_add (adjusted : Adjusted safeAdd k amount token index index') (query other)
    : index'.balance query other =
      index.balance query other + if query = k ∧ other = token then amount.toNat else 0 := by
  obtain ⟨account, balance, found, changed, rfl⟩ := adjusted
  have sum := safeAdd_eq_ok.mp changed
  rw [balance_setAccount, worth_withBalance]
  by_cases own : query = k
  · rw [if_pos own, own, balance_of_get found]
    by_cases same : other = token
    · simp only [same, if_true, and_self, Account.worth, sum]
    · simp [same]
  · simp [own]

lemma Adjusted.balance_sub (adjusted : Adjusted safeSub k amount token index index') (query other)
    : index'.balance query other + (if query = k ∧ other = token then amount.toNat else 0) =
      index.balance query other := by
  obtain ⟨account, balance, found, changed, rfl⟩ := adjusted
  have difference := safeSub_eq_ok.mp changed
  rw [balance_setAccount, worth_withBalance]
  by_cases own : query = k
  · rw [if_pos own, own, balance_of_get found]
    by_cases same : other = token
    · simp only [same, if_true, and_self, Account.worth, difference]
    · simp [same]
  · simp [own]

variable {change : UInt64 → UInt64 → Except Err UInt64}

section

variable (adjusted : Adjusted change k amount token index index')
include adjusted

lemma Adjusted.nonce (query) : index'.nonce query = index.nonce query := by
  obtain ⟨account, balance, found, -, rfl⟩ := adjusted
  rw [nonce_setAccount]
  split
  · rename_i own
    rw [own, nonce, found]
    rfl
  · rfl

lemma Adjusted.frame (other : query ≠ k) :
    index'.accounts.get query = index.accounts.get query := by
  obtain ⟨account, balance, -, -, rfl⟩ := adjusted
  exact get_setAccount_of_ne index _ other

lemma Adjusted.databases : index'.databases = index.databases := by
  obtain ⟨account, balance, -, -, rfl⟩ := adjusted
  rfl

end

lemma Refunded.spec (fixed : bpHeightCIPFixProvideService ≤ height)
    (refunded : Refunded height sender index middle) :
    middle.provider = index.provider.erase sender ∧ middle.databases = index.databases ∧
      (∀ k, k ≠ sender → middle.accounts.get k = index.accounts.get k) ∧
      (∀ k, middle.nonce k = index.nonce k) ∧
      ∀ k token, middle.balance k token = index.balance k token +
        if k = sender then (index.provider.get sender).elim 0 (ProviderProfile.locked token)
        else 0 := by
  cases refunded with
  | kept reason =>
    have absent : index.provider.get sender = none := by
      rcases reason with low | absent
      · omega
      · exact absent
    have erased : index.provider = index.provider.erase sender := by
      apply FiniteMap.ext
      intro k
      rw [get_erase]
      split
      · rename_i same
        rw [same, absent]
      · rfl
    exact ⟨erased, rfl, fun k _ => rfl, fun k => rfl, fun k token => by simp [absent]⟩
  | @paid added po _ registered adjusted =>
    refine ⟨congrArg (FiniteMap.erase · sender) adjusted.provider, adjusted.databases,
      fun k other => adjusted.frame other, adjusted.nonce, fun k token => ?_⟩
    have gained := adjusted.balance_add k token
    rw [registered, Option.elim_some, ProviderProfile.locked]
    have kept : (added.deleteProvider sender).balance k token = added.balance k token := rfl
    rw [kept, gained]
    by_cases own : k = sender <;> simp [own]

lemma Ledger.moved (step : Ledger env order height (.transfer tx) index index')
    (supported : tx.header.tokenType.token? = some token)
    (absent : index.databases.get (databaseID tx.header.receiver) = none) :
    Conserved (fun k => k = tx.header.sender ∨ k = tx.header.receiver) index index' ∧
      index'.provider = index.provider ∧ (∀ k, index'.nonce k = index.nonce k) ∧
      ∀ k query, index'.balance k query +
          (if k = tx.header.sender ∧ query = token then tx.header.amount.toNat else 0) =
        index.balance k query +
          if k = tx.header.receiver ∧ query = token then tx.header.amount.toNat else 0 := by
  cases step with
  | topUp signer database sameToken payer supported enough located listed topped
  | notUser database =>
    rw [absent] at database
    simp at database
  | idle _ nothing =>
    refine ⟨⟨fun _ => rfl, fun k _ => rfl, fun k _ => rfl, rfl⟩, rfl, fun k => rfl, ?_⟩
    intro k query
    rcases nothing with same | zero
    · rw [same]
    · simp [zero]
  | @move _ _ so ro token' sb rb signer _ different payer payee supported' paid received =>
    obtain rfl : token' = token := Option.some.inj (supported'.symm.trans supported)
    have taken : Adjusted safeSub tx.header.sender tx.header.amount token' index
        (index.setAccount tx.header.sender (Account.withBalance so token' sb)) :=
      ⟨so, sb, payer, paid, rfl⟩
    refine ⟨⟨fun query => ?_, fun k other => ?_, fun k _ => rfl, rfl⟩, rfl, fun k => ?_, ?_⟩
    · rw [held_move different payer payee paid received query]
      rfl
    · rw [not_or] at other
      rw [get_setAccount_of_ne _ _ other.2, taken.frame other.1]
    · rw [nonce_setAccount, taken.nonce]
      split
      · rename_i own
        rw [own, ← nonce_getD, payee]
        rfl
      · rfl
    · intro k query
      have spent := taken.balance_sub k query
      have sum := safeAdd_eq_ok.mp received
      rw [balance_setAccount, worth_withBalance]
      by_cases own : k = tx.header.receiver
      · subst own
        have worth : Account.worth query ro = index.balance tx.header.receiver query := by
          rw [← payee, balance_getD]
        by_cases same : query = token'
        · subst same
          simp only [different.symm, false_and, if_false, if_true, and_self, sum, ← worth]
          rfl
        · simp [same, worth]
      · simp only [own, if_false, false_and, Nat.add_zero]
        exact spent

lemma Ledger.registered (step : Ledger env order height (.provideService tx) index index')
    (fixed : bpHeightCIPFixProvideService ≤ height) :
    ∃ sender, pubKeyHash env tx.verifier.signee = .ok sender ∧
      Conserved (fun k => k = sender) index index' ∧
      index'.provider.get sender = some (newProviderProfile env tx sender) ∧
      (∀ k, index'.nonce k = index.nonce k) ∧ ∀ query, index'.balance sender query +
          (if query = .particle then env.minProviderDeposit.toNat else 0) =
        index.balance sender query +
          (index.provider.get sender).elim 0 (ProviderProfile.locked query) := by
  cases step with
  | @provide _ _ middle charged sender signer refunded adjusted =>
    obtain ⟨providers, databases, accounts, nonces, balances⟩ := refunded.spec fixed
    have removed : middle.provider.get sender = none := by simp [providers]
    have same : charged.databases = index.databases := adjusted.databases.trans databases
    refine ⟨sender, signer, ⟨fun token => ?_, fun k other => ?_, fun k other => ?_, same⟩, ?_,
      fun k => ?_, fun query => ?_⟩
    · have spent := totals_provide tx removed adjusted token
      rw [(refunded.totals token).1] at spent
      simp only [locked] at spent
      have kept : (charged.setProvider sender (newProviderProfile env tx sender)).databases =
          index.databases := same
      rw [kept] at spent
      simp only [staked]
      omega
    · exact (adjusted.frame other).trans (accounts k other)
    · have written : (charged.setProvider sender (newProviderProfile env tx sender)).provider.get
          k = charged.provider.get k := by
        simp [setProvider, other]
      rw [written, adjusted.provider, providers]
      simp [other]
    · simp [setProvider]
    · exact (adjusted.nonce k).trans (nonces k)
    · have spent := adjusted.balance_sub sender query
      have gained := balances sender query
      simp only [true_and, if_true] at spent gained
      have kept : (charged.setProvider sender (newProviderProfile env tx sender)).balance sender
          query = charged.balance sender query := rfl
      omega

lemma Conserved.countUp (conserved : Conserved touched index index')
    (own : touched k) (found : index'.accounts.get k = some account) :
    Conserved touched index (index'.countUp k account) where
  total token := by
    rw [held_countUp found]
    exact conserved.total token
  accounts query other := by
    have different : query ≠ k := fun same => other (same ▸ own)
    rw [MetaIndex.countUp, get_setAccount_of_ne _ _ different]
    exact conserved.accounts query other
  providers := conserved.providers
  databases := conserved.databases

/-- A transfer to an account that is not a database and, from the fix height on, the registration
of a provider keep every token, whatever the state is. -/
theorem transfer_provide_conserve {s s' : MetaState} :
    (∀ (tx : SignedTx TransferHeader) (token : Token), tx.header.tokenType.token? = some token →
      s.loadSQLChainObject (databaseID tx.header.receiver) = none →
      apply env order (.transfer tx) height s = .ok (.ok (), s') →
        Moved tx.header token s.view s'.view) ∧
    ∀ tx : SignedTx ProvideServiceHeader, bpHeightCIPFixProvideService ≤ height →
      apply env order (.provideService tx) height s = .ok (.ok (), s') →
        ∃ sender, pubKeyHash env tx.verifier.signee = .ok sender ∧
          Registered env sender s.view s'.view := by
  constructor
  · intro tx token supported absent ran
    obtain ⟨middle, account, -, step, found, same⟩ := (apply_applied ran).inv
    rw [← s.view_databases_get] at absent
    obtain ⟨conserved, provider, nonces, balances⟩ := step.moved supported absent
    rw [same]
    refine ⟨conserved.countUp (.inl rfl) found, provider, fun k query => ?_, fun k => ?_⟩
    · rw [← balances k query]
      exact congrArg (· + _) (balance_countUp found k query)
    · rw [← nonces k]
      exact nonce_countUp found k
  · intro tx fixed ran
    obtain ⟨middle, account, -, step, found, same⟩ := (apply_applied ran).inv
    obtain ⟨sender, signer, conserved, entry, nonces, balances⟩ := step.registered fixed
    have address : (Transaction.provideService tx).getAccountAddress env = sender :=
      signeeAddress_ok signer
    rw [address] at found same
    have keyed : s.view.Keyed → middle.Keyed := step.enlists fun _ _ => rfl
    rw [same]
    refine ⟨sender, signer, conserved.countUp rfl found, ⟨_, entry, rfl, rfl⟩, ?_,
      fun query => ?_, ?_⟩
    · intro keys k po registered own
      rw [← own]
      exact (keyed keys k po registered).symm
    · rw [← balances query]
      exact congrArg (· + _) (balance_countUp found sender query)
    · rw [← nonces sender]
      exact (nonce_countUp found sender).trans (if_pos rfl)

end

open Sample in
theorem transfer_provide_conserve_market :
    (∃ s', apply Sample.env (choice.branchOrders 0) (pay 1 2 1 10) 0 market = .ok (.ok (), s') ∧
      Moved (payment 1 2 1 10).header .particle market.view s'.view ∧
      s'.view.balance 1 .particle = 990 ∧ s'.view.balance 2 .particle = 10) ∧
    ∃ s', apply Sample.env (choice.branchOrders 0) (provide 3 2) bpHeightCIPFixProvideService
        market = .ok (.ok (), s') ∧
      Registered Sample.env 3 market.view s'.view ∧
      s'.view.balance 3 .particle = 990 ∧ market.view.balance 3 .particle = 990 := by
  have paid : apply Sample.env (choice.branchOrders 0) (pay 1 2 1 10) 0 market = .ok (.ok (), _) :=
    rfl
  have provided : apply Sample.env (choice.branchOrders 0) (provide 3 2)
      bpHeightCIPFixProvideService market = .ok (.ok (), _) := rfl
  obtain ⟨sender, signer, registered⟩ := transfer_provide_conserve.2 _ (Nat.le_refl _) provided
  obtain rfl : sender = 3 := (Except.ok.inj signer).symm
  exact ⟨⟨_, paid, transfer_provide_conserve.1 _ .particle rfl (by decide) paid,
    by decide, by decide⟩, _, provided, registered, by decide, by decide⟩

/-- The deposits and advance payments of the users in the token of the database, and the deposits
of its miners, which they have made in particles as providers. -/
def SQLChainProfile.deposited (token : Token) (profile : SQLChainProfile) : Nat :=
  (if profile.tokenType = token.tokenType then
    (profile.users.map fun user => user.deposit.toNat + user.advancePayment.toNat).sum else 0) +
  if token = .particle then (profile.miners.map fun miner => miner.deposit.toNat).sum else 0

def MetaIndex.total (token : Token) : Nat :=
  index.held token + index.staked token + index.databases.sum (SQLChainProfile.deposited token)

def MetaState.stake (s : MetaState) (m : AccountAddress) : Nat :=
  (s.loadProviderObject m).elim 0 fun po => po.deposit.toNat

def foundedAddress (env : Env) (tx : SignedTx CreateDatabaseHeader) : AccountAddress :=
  (fromAccountAndNonce env tx.header.owner tx.header.nonce).accountAddress

def MetaState.overwritten (env : Env) (s : MetaState) (tx : SignedTx CreateDatabaseHeader)
    (token : Token) : Nat :=
  s.view.balance (foundedAddress env tx) token -
    if foundedAddress env tx = tx.header.owner then
      (minAdvancePayment env tx.header).toNat + tx.header.advancePayment.toNat
    else 0

def MetaState.used (s : MetaState) (req : CreateDatabaseHeader) (user : AccountAddress) :
    List AccountAddress :=
  (s.usable req user).take req.resourceMeta.node.toNat

section

variable {env : Env} {order : MinerOrder} {height : Nat}

lemma total_countUp {index : MetaIndex} (found : index.accounts.get k = some account)
    (token) : (index.countUp k account).total token = index.total token := by
  have held := held_countUp found token
  simp only [total, held]
  rfl

lemma total_storeProfile (index : MetaIndex) (profile token)
    (fresh : index.databases.get profile.id = none) :
    (index.storeProfile profile).total token + index.balance profile.address token +
        ∑ k ∈ (profile.miners.map MinerInfo.address).toFinset,
          (index.provider.get k).elim 0 (ProviderProfile.locked token) =
      index.total token + SQLChainProfile.deposited token profile := by
  have accounts : (index.storeProfile profile).held token =
      (index.setAccount profile.address (Account.new profile.address)).held token := by
    rw [held, MetaIndex.storeProfile, deleteProviders_accounts]
    rfl
  have replaced : (index.setAccount profile.address (Account.new profile.address)).held token +
      index.balance profile.address token = index.held token := by
    have written := held_setAccount index token profile.address (Account.new profile.address)
    have nothing : Account.worth token (Account.new profile.address) = 0 := by
      cases token <;> rfl
    rw [nothing] at written
    exact written
  have stored : (index.storeProfile profile).databases.sum (SQLChainProfile.deposited token) =
      index.databases.sum (SQLChainProfile.deposited token) +
        SQLChainProfile.deposited token profile := by
    have written := sum_insert index.databases (SQLChainProfile.deposited token)
      profile.id profile
    rw [fresh] at written
    rw [MetaIndex.storeProfile, deleteProviders_databases]
    exact written
  have released : (index.storeProfile profile).staked token +
      ∑ k ∈ (profile.miners.map MinerInfo.address).toFinset,
        (index.provider.get k).elim 0 (ProviderProfile.locked token) = index.staked token := by
    rw [staked, MetaIndex.storeProfile, deleteProviders_provider]
    exact sum_eraseAll index.provider (ProviderProfile.locked token) _
  simp only [total, accounts, stored]
  omega

lemma deposits_eq (keyed : s.view.Keyed)
    (selected : selectMiners order s req user = .ok (some miners)) :
    (miners.map fun miner => miner.deposit.toNat) = (miners.map MinerInfo.address).map s.stake := by
  rw [map_map]
  refine map_congr_left fun miner member => ?_
  obtain ⟨k, po, registered, -, rfl⟩ := selectMiners_mem selected miner member
  have own : po.provider = k := by
    rw [← s.view_provider_get] at registered
    exact keyed k po registered
  have address : (newMinerInfo po).address = k := own
  rw [Function.comp_apply, address, MetaState.stake, registered]
  rfl

lemma sum_stakes {s : MetaState} {designated further : List AccountAddress}
    (distinct : further.Nodup) (others : ∀ m ∈ further, m ∉ designated) :
    ∑ m ∈ (designated ++ further).toFinset, s.stake m + (designated.map s.stake).sum =
      ∑ m ∈ designated.toFinset, s.stake m + ((designated ++ further).map s.stake).sum := by
  have apart : Disjoint designated.toFinset further.toFinset := by
    rw [Finset.disjoint_left]
    intro m member member'
    exact others m (mem_toFinset.mp member') (mem_toFinset.mp member)
  have once : ∑ m ∈ further.toFinset, s.stake m = (further.map s.stake).sum :=
    sum_toFinset s.stake distinct
  rw [toFinset_append, Finset.sum_union apart, once, map_append, sum_append]
  omega

section

variable {s : MetaState} {tx : SignedTx CreateDatabaseHeader} {charged : MetaIndex}
  {miners : List MinerInfo} {all : UInt64}

lemma overwritten_eq
    (cost : safeAdd (minAdvancePayment env tx.header) tx.header.advancePayment = .ok all)
    (adjusted : Adjusted safeSub tx.header.owner all .particle s.view charged) :
    s.overwritten env tx .particle = charged.balance (foundedAddress env tx) .particle := by
  have sum := safeAdd_eq_ok.mp cost
  have spent := adjusted.balance_sub (foundedAddress env tx) .particle
  simp only [and_true] at spent
  rw [MetaState.overwritten, ← sum]
  omega

lemma founding_total (enc : List UInt8) (keyed : s.view.Keyed)
    (staffed : 0 < tx.header.resourceMeta.node.toNat)
    (selected : selectMiners order s tx.header tx.header.owner = .ok (some miners))
    (cost : safeAdd (minAdvancePayment env tx.header) tx.header.advancePayment = .ok all)
    (adjusted : Adjusted safeSub tx.header.owner all .particle s.view charged)
    (fresh : s.view.databases.get (fromAccountAndNonce env tx.header.owner tx.header.nonce) =
      none) :
    (charged.storeProfile (newSQLChainProfile env tx tx.header.owner miners enc)).total .particle +
        s.overwritten env tx .particle +
          ∑ m ∈ (s.used tx.header tx.header.owner).toFinset, s.stake m =
      s.view.total .particle + ((s.used tx.header tx.header.owner).map s.stake).sum := by
  have stored := total_storeProfile charged (newSQLChainProfile env tx tx.header.owner miners enc)
    .particle (by rw [adjusted.databases]; exact fresh)
  have lost : charged.balance (newSQLChainProfile env tx tx.header.owner miners enc).address
      .particle = s.overwritten env tx .particle := (overwritten_eq cost adjusted).symm
  have spent : charged.total .particle + all.toNat = s.view.total .particle := by
    have taken := adjusted.held_sub .particle
    simp only [total, staked, adjusted.provider, adjusted.databases]
    simp only [if_true] at taken
    omega
  have deposited : SQLChainProfile.deposited .particle
      (newSQLChainProfile env tx tx.header.owner miners enc) =
        all.toNat + ((miners.map MinerInfo.address).map s.stake).sum := by
    rw [← deposits_eq keyed selected, safeAdd_eq_ok.mp cost]
    simp [SQLChainProfile.deposited, newSQLChainProfile, newSQLChainUser]
  have stakes : ∀ k, (charged.provider.get k).elim 0 (ProviderProfile.locked .particle) =
      s.stake k := by
    intro k
    rw [adjusted.provider, s.view_provider_get]
    rfl
  obtain ⟨further, addresses, distinct, others, -⟩ :=
    selectMiners_addresses keyed staffed selected
  have listed : (newSQLChainProfile env tx tx.header.owner miners enc).miners.map
      MinerInfo.address = s.used tx.header tx.header.owner ++ further := addresses
  have apart : ∀ m ∈ further, m ∉ s.used tx.header tx.header.owner := fun m member target =>
    others m member (mem_usable.mp (mem_of_mem_take target)).1
  have counted := sum_stakes (s := s) distinct apart
  rw [lost, deposited, listed, addresses] at stored
  simp only [stakes] at stored
  simp only [MetaState.used] at stored counted ⊢
  omega

end

/-- The creation of a database keeps the total exactly if nothing is created, or what is
overwritten makes up for the deposits of miners that are used more than once. -/
theorem createDatabase_conserves_iff {s s' : MetaState} {tx : SignedTx CreateDatabaseHeader}
    {token : Token} (keyed : s.view.Keyed) (particles : s.view.InParticles)
    (supported : tx.header.tokenType.token? = some token)
    (ran : apply env order (.createDatabase tx) height s = .ok (.ok (), s')) :
    s'.view.total token = s.view.total token ↔
      ((s.usable tx.header tx.header.owner).length < tx.header.resourceMeta.node.toNat ∧
        tx.header.resourceMeta.node.toNat ≤ tx.header.resourceMeta.targetMiners.length) ∨
      s.overwritten env tx token + ∑ m ∈ (s.used tx.header tx.header.owner).toFinset, s.stake m =
        ((s.used tx.header tx.header.owner).map s.stake).sum := by
  obtain ⟨middle, account, -, step, found, same⟩ := (apply_applied ran).inv
  have counted : s'.view.total token = middle.total token := by
    rw [same]
    exact total_countUp found token
  rw [counted]
  clear same found ran counted
  generalize viewed : s.view = index at step
  cases step with
  | unmatched signer selected =>
    rw [← viewed, ← selectMiners_view] at selected
    exact iff_of_true rfl (.inl (selectMiners_unmatched selected))
  | @database _ _ charged miners all paid enc signer priced staffed advanced selected cost
      supported' adjusted encoded fresh =>
      have staffed := node_pos staffed
      subst viewed
      rw [← selectMiners_view] at selected
      -- a database has a miner, and every provider takes particles
      have positive := staffed
      rw [← selectMiners_length staffed selected] at positive
      obtain ⟨miner, member⟩ := exists_mem_of_length_pos positive
      obtain ⟨k, po, registered, suits, -⟩ := selectMiners_mem selected miner member
      rw [← s.view_provider_get] at registered
      have particle : tx.header.tokenType = Token.particle.tokenType := by
        rw [← suits.token]
        exact particles k po registered
      rw [particle] at supported supported'
      obtain rfl : Token.particle = token := Option.some.inj supported
      obtain rfl : Token.particle = paid := Option.some.inj supported'
      have total := founding_total enc keyed staffed selected cost adjusted fresh
      obtain ⟨-, -, -, -, -, searched⟩ := selectMiners_addresses keyed staffed selected
      omega

end

namespace Sample

noncomputable def squatted : MetaState :=
  ((ended (replay [founder 1 1000, founder 3 1000, founder 102 5, provide 3 1]))).getD .new

end Sample

open Sample in
theorem createDatabase_conserves_designated :
    ∃ s', apply Sample.env (choice.branchOrders 0) (.createDatabase (ask [4, 3] 2)) 0 market =
        .ok (.ok (), s') ∧ staff s' = some [4, 3] ∧
      s'.view.total .particle = market.view.total .particle := by
  have ran : apply Sample.env (choice.branchOrders 0) (.createDatabase (ask [4, 3] 2)) 0 market =
      .ok (.ok (), _) := rfl
  exact ⟨_, ran, by decide, (createDatabase_conserves_iff market_providers.1 market_providers.2 rfl
    ran).mpr (.inr (by decide))⟩

open Sample in
/-- Miner 3 is named twice, and its deposit of 10 appears twice. -/
theorem createDatabase_not_conserved :
    (∃ s', apply Sample.env (choice.branchOrders 0) (.createDatabase (ask [3, 3] 2)) 0 market =
        .ok (.ok (), s') ∧
      market.view.total .particle = 3000 ∧ s'.view.total .particle = 3010) ∧
    ∃ s', apply Sample.env (choice.branchOrders 0) (createDatabase 1 3 1) 0 squatted =
        .ok (.ok (), s') ∧
      squatted.view.total .particle = 2005 ∧ s'.view.total .particle = 2000 :=
  ⟨⟨_, rfl, by decide, by decide⟩, _, rfl, by decide, by decide⟩

end SQLess.BlockProducer
