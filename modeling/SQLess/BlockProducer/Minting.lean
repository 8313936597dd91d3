import SQLess.BlockProducer.Authenticity

/-! What transactions do to the total of a token. -/

namespace SQLess.BlockProducer

open Lib FiniteMap MetaIndex

variable {index index' middle : MetaIndex} {k sender : AccountAddress} {amount : UInt64}
  {token : Token} {tx : Transaction}

def Account.worth (token : Token) (account : Account) : Nat :=
  (account.tokenBalance.get token).toNat

def ProviderProfile.locked (token : Token) (po : ProviderProfile) : Nat :=
  if token = .particle then po.deposit.toNat else 0

def SQLChainProfile.locked (token : Token) (profile : SQLChainProfile) : Nat :=
  if profile.tokenType = token.tokenType then
    (profile.users.map fun user => user.deposit.toNat + user.advancePayment.toNat).sum +
      (profile.miners.map fun miner =>
        miner.pendingIncome.toNat + miner.receivedIncome.toNat).sum
  else 0

def MetaIndex.held (index : MetaIndex) (token : Token) : Nat :=
  index.accounts.sum (Account.worth token)

def MetaIndex.locked (index : MetaIndex) (token : Token) : Nat :=
  index.provider.sum (ProviderProfile.locked token) +
    index.databases.sum (SQLChainProfile.locked token)

def Covered (index index' : MetaIndex) : Prop :=
  ∀ token, index'.held token ≤ index.held token ∨
    index'.held token + index'.locked token ≤ index.held token + index.locked token

def Transaction.issued : Transaction → TokenBalance
  | .baseAccount account _ => account.tokenBalance
  | .wrapper inner => Transaction.issued inner
  | _ => .zero

lemma TokenBalance.eq_zero {balance : TokenBalance} :
    balance = .zero ↔ ∀ token, (balance.get token).toNat = 0 := by
  constructor
  · rintro rfl token
    cases token <;> rfl
  · intro empty
    have particle : balance.particle = 0 := UInt64.toNat_inj.mp (empty .particle)
    have wave : balance.wave = 0 := UInt64.toNat_inj.mp (empty .wave)
    obtain ⟨particles, waves⟩ := balance
    rw [TokenBalance.zero, TokenBalance.mk.injEq]
    exact ⟨particle, wave⟩

lemma held_setAccount (index : MetaIndex) (token k account) :
    (index.setAccount k account).held token + (index.accounts.get k).elim 0 (Account.worth token) =
      index.held token + Account.worth token account :=
  sum_insert index.accounts (Account.worth token) k account

lemma worth_withBalance (account token query balance) :
    Account.worth query (Account.withBalance account token balance) =
      if query = token then balance.toNat else Account.worth query account := by
  rw [Account.worth, Account.withBalance, TokenBalance.get_set]
  split <;> rfl

lemma held_withBalance (found : index.accounts.get k = some account)
    (token query : Token) (balance) :
    (index.setAccount k (Account.withBalance account token balance)).held query +
        (if query = token then Account.worth token account else 0) =
      index.held query + if query = token then balance.toNat else 0 := by
  have total := held_setAccount index query k (Account.withBalance account token balance)
  rw [found, Option.elim_some, worth_withBalance] at total
  by_cases same : query = token
  · subst same
    simpa using total
  · simp only [if_neg same] at total ⊢
    omega

lemma Adjusted.held_add (adjusted : Adjusted safeAdd k amount token index index') (query) :
    index'.held query = index.held query + if query = token then amount.toNat else 0 := by
  obtain ⟨account, balance, found, changed, rfl⟩ := adjusted
  have total := held_withBalance found token query balance
  have sum := safeAdd_eq_ok.mp changed
  simp only [Account.worth] at total
  split at total <;> rename_i same <;> simp only [same, if_true, if_false] at total ⊢ <;> omega

lemma Adjusted.held_sub (adjusted : Adjusted safeSub k amount token index index') (query) :
    index'.held query + (if query = token then amount.toNat else 0) = index.held query := by
  obtain ⟨account, balance, found, changed, rfl⟩ := adjusted
  have total := held_withBalance found token query balance
  have difference := safeSub_eq_ok.mp changed
  simp only [Account.worth] at total
  split at total <;> rename_i same <;> simp only [same, if_true, if_false] at total ⊢ <;> omega

lemma Adjusted.locked (adjusted : Adjusted change k amount token index index') (query) :
    index'.locked query = index.locked query := by
  obtain ⟨account, balance, -, -, rfl⟩ := adjusted
  rfl

lemma locked_deleteProvider (index : MetaIndex) (token k) : (index.deleteProvider k).locked token +
        (index.provider.get k).elim 0 (ProviderProfile.locked token) = index.locked token := by
  have total := sum_erase index.provider (ProviderProfile.locked token) k
  simp only [locked, deleteProvider]
  omega

lemma locked_setProvider (index : MetaIndex) (token k po) : (index.setProvider k po).locked token +
        (index.provider.get k).elim 0 (ProviderProfile.locked token) =
      index.locked token + ProviderProfile.locked token po := by
  have total := sum_insert index.provider (ProviderProfile.locked token) k po
  simp only [locked, setProvider]
  omega

section

variable {env : Env} {order : MinerOrder} {height : Nat}

lemma held_move (different : sender ≠ receiver) (payer : index.accounts.get sender = some so)
    (payee : (index.accounts.get receiver).getD (Account.new receiver) = ro)
    (paid : safeSub (so.tokenBalance.get token) amount = .ok sb)
    (received : safeAdd (ro.tokenBalance.get token) amount = .ok rb) (query : Token) :
    ((index.setAccount sender (Account.withBalance so token sb)).setAccount receiver
      (Account.withBalance ro token rb)).held query = index.held query := by
  have taken : Adjusted safeSub sender amount token index
      (index.setAccount sender (Account.withBalance so token sb)) := ⟨so, sb, payer, paid, rfl⟩
  have before := taken.held_sub query
  have given := held_setAccount (index.setAccount sender (Account.withBalance so token sb)) query
    receiver (Account.withBalance ro token rb)
  have sum := safeAdd_eq_ok.mp received
  -- a receiver that does not exist yet owns nothing
  have owned : ((index.setAccount sender (Account.withBalance so token sb)).accounts.get
      receiver).elim 0 (Account.worth query) = Account.worth query ro := by
    have other : (index.setAccount sender (Account.withBalance so token sb)).accounts.get
        receiver = index.accounts.get receiver := by
      simp [setAccount, different.symm]
    rw [other, ← payee]
    cases index.accounts.get receiver with
    | none => cases query <;> rfl
    | some account => rfl
  rw [owned, worth_withBalance] at given
  by_cases same : query = token
  · subst same
    simp only [if_true, Account.worth] at before given
    omega
  · simp only [if_neg same] at before given
    omega

lemma Refunded.totals (refunded : Refunded height sender index middle) (token : Token) :
    middle.held token + middle.locked token = index.held token + index.locked token ∧
      (middle.provider.get sender = none ∨ middle = index) := by
  cases refunded with
  | kept => exact ⟨rfl, .inr rfl⟩
  | @paid added po fixed registered adjusted =>
    have gained := adjusted.held_add token
    have freed := locked_deleteProvider added token sender
    rw [adjusted.provider, registered, Option.elim_some, ProviderProfile.locked,
      adjusted.locked] at freed
    refine ⟨?_, .inl (by simp [deleteProvider])⟩
    have accounts : (added.deleteProvider sender).held token = added.held token := rfl
    omega

lemma totals_provide (tx : SignedTx ProvideServiceHeader)
    (removed : middle.provider.get sender = none)
    (adjusted : Adjusted safeSub sender env.minProviderDeposit .particle middle charged) (token) :
    (charged.setProvider sender (newProviderProfile env tx sender)).held token +
        (charged.setProvider sender (newProviderProfile env tx sender)).locked token =
      middle.held token + middle.locked token := by
  have spent := adjusted.held_sub token
  have deposited := locked_setProvider charged token sender (newProviderProfile env tx sender)
  have accounts : (charged.setProvider sender (newProviderProfile env tx sender)).held token =
      charged.held token := rfl
  have deposit : ProviderProfile.locked token (newProviderProfile env tx sender) =
      if token = .particle then env.minProviderDeposit.toNat else 0 := rfl
  rw [adjusted.locked, deposit, adjusted.provider, removed, Option.elim_none] at deposited
  omega

lemma covered_provide {tx charged} (refunded : Refunded height sender index middle)
    (adjusted : Adjusted safeSub sender env.minProviderDeposit .particle middle charged) :
    Covered index (charged.setProvider sender (newProviderProfile env tx sender)) := by
  intro token
  obtain ⟨exchanged, removed | same⟩ := refunded.totals token
  · right
    rw [totals_provide tx removed adjusted, exchanged]
  · left
    have spent := adjusted.held_sub token
    rw [same] at spent
    have accounts : (charged.setProvider sender (newProviderProfile env tx sender)).held token =
        charged.held token := rfl
    omega

lemma held_storeProfile_le (index : MetaIndex) (profile token) :
    (index.storeProfile profile).held token ≤ index.held token := by
  have accounts : (index.storeProfile profile).held token =
      (index.setAccount profile.address (Account.new profile.address)).held token := by
    rw [held, MetaIndex.storeProfile, deleteProviders_accounts]
    rfl
  have replaced := held_setAccount index token profile.address (Account.new profile.address)
  have nothing : Account.worth token (Account.new profile.address) = 0 := by
    cases token <;> rfl
  omega

lemma Ledger.covered
    (step : Ledger env order height tx index index') (signed : tx.isBaseAccount = false) :
    Covered index index' := by
  induction step with
  | @topUp tx index sqlchain account token position user sqlchain' signer database sameToken payer
      supported enough located listed topped =>
      intro query
      left
      have difference : safeSub (account.tokenBalance.get token) tx.header.amount =
          .ok (account.tokenBalance.get token - tx.header.amount) := by
        rw [safeSub, if_neg (UInt64.not_lt.mpr enough)]
      have taken : Adjusted safeSub tx.header.sender tx.header.amount token index
          (index.setAccount tx.header.sender (Account.withBalance account token
            (account.tokenBalance.get token - tx.header.amount))) :=
        ⟨account, _, payer, difference, rfl⟩
      have spent := taken.held_sub query
      exact Nat.le_of_add_right_le spent.le
  | move signer absent different payer payee supported paid received =>
    intro query
    exact .inl (held_move different payer payee paid received query).le
  | create absent | fund present unused wave particle => simp [Transaction.isBaseAccount] at signed
  | provide signer refunded adjusted => exact covered_provide refunded adjusted
  | @database tx index charged miners all token enc signer priced staffed advanced selected cost
      supported adjusted encoded fresh =>
      intro query
      left
      have spent := adjusted.held_sub query
      have replaced := held_storeProfile_le charged
        (newSQLChainProfile env tx tx.header.owner miners enc) query
      omega
  | wrapper step ih => exact ih signed
  | _ => exact fun query => .inl (Nat.le_refl _)

lemma Ledger.issues
    (step : Ledger env order height tx index index') (unsigned : tx.isBaseAccount = true)
    (token : Token) :
    index'.held token = index.held token + ((Transaction.issued tx).get token).toNat ∧
      index'.locked token = index.locked token := by
  induction step with
  | @create account mixin index absent =>
    have total := held_setAccount index token account.address account
    rw [absent] at total
    exact ⟨total, rfl⟩
  | @fund account mixin index ao cb sb present unused wave particle =>
    refine ⟨?_, rfl⟩
    have total := held_setAccount index token account.address { ao with tokenBalance := ⟨sb, cb⟩ }
    rw [present] at total
    have waves := safeAdd_eq_ok.mp wave
    have particles := safeAdd_eq_ok.mp particle
    cases token <;>
      simp only [Option.elim_some, Account.worth, TokenBalance.get,
        Transaction.issued] at total ⊢ <;> omega
  | wrapper step ih => exact ih unsigned
  | _ => simp [Transaction.isBaseAccount] at unsigned

lemma issued_of_signed (signed : tx.isBaseAccount = false) : Transaction.issued tx = .zero := by
  induction tx with
  | baseAccount => simp [Transaction.isBaseAccount] at signed
  | wrapper inner ih => exact ih signed
  | _ => rfl

lemma Ledger.covered_iff (step : Ledger env order height tx index index') :
    Covered index index' ↔ Transaction.issued tx = .zero := by
  cases kind : tx.isBaseAccount with
  | false => exact iff_of_true (step.covered kind) (issued_of_signed kind)
  | true =>
    rw [TokenBalance.eq_zero]
    constructor
    · intro covered token
      obtain ⟨held, locked⟩ := step.issues kind token
      rcases covered token with kept | exchanged <;> omega
    · intro nothing token
      have issued := step.issues kind token
      rw [nothing token] at issued
      exact .inl issued.1.le

lemma Applied.covered_iff (applied : Applied env order height tx index index') :
    Covered index index' ↔ Transaction.issued tx = .zero := by
  obtain ⟨expected, step, found⟩ := applied
  rename_i middle account
  rw [← step.covered_iff]
  have held : ∀ token, (middle.setAccount (tx.getAccountAddress env)
      { account with nextNonce := account.nextNonce + 1 }).held token = middle.held token := by
    intro token
    have total := held_setAccount middle token (tx.getAccountAddress env)
      { account with nextNonce := account.nextNonce + 1 }
    rw [found] at total
    exact Nat.add_right_cancel total
  constructor
  · intro covered token
    have moved := covered token
    rw [held] at moved
    exact moved
  · intro covered token
    rw [held]
    exact covered token

/-- A transaction that is applied mints nothing exactly if it brings no tokens along. -/
theorem apply_covered_iff {s s' : MetaState} {tx : Transaction}
    (ran : apply env order tx height s = .ok (.ok (), s')) :
    Covered s.view s'.view ↔ Transaction.issued tx = .zero :=
  (apply_applied ran).covered_iff

end

namespace Sample

noncomputable def push (bl : BPBlock) (c : Chain) : Chain :=
  Program.after (Chain.pushBlock env choice bl) c

lemma served_push
    (served : Relation.ReflTransGen (Served env known producing) c c') (bl) (received : known bl)
    (returned : Program.returns (Chain.pushBlock env choice bl) c' = true) :
    Relation.ReflTransGen (Served env known producing) c (push bl c') := by
  obtain ⟨result, ran⟩ := Program.eq_after returned
  exact served.tail (.pushBlock choice bl result received ran)

lemma served_submit (served : Relation.ReflTransGen (Served env known producing) c c') (tx)
    (returned : Program.returns (Chain.processAddTxReq env true tx) c' = true) :
    Relation.ReflTransGen (Served env known producing) c (submit tx c') := by
  obtain ⟨result, ran⟩ := Program.eq_after returned
  exact served.tail (.addTx true tx result ran)

def settling : List BPBlock := [paid, block 1010 1011 [], block 1011 1012 []]

noncomputable def settled : Chain :=
  push (block 1011 1012 []) (push (block 1010 1011 []) (push paid requested))

lemma settled_served : Relation.ReflTransGen (Served env (· ∈ settling) False) funded settled :=
  served_push (served_push (served_push (requested_served _) paid (by simp [settling])
    (by decide +kernel)) (block 1010 1011 []) (by simp [settling]) (by decide +kernel))
    (block 1011 1012 []) (by simp [settling]) (by decide +kernel)

end Sample

open Sample in
theorem apply_covered_payment : ∃ s', apply Sample.env (choice.branchOrders 0) (pay 1 2 1 10) 10
        requested.headBranch.makeArena.preview = .ok (.ok (), s') ∧
      Covered requested.headBranch.makeArena.preview.view s'.view := by
  have applied : apply Sample.env (choice.branchOrders 0) (pay 1 2 1 10) 10
      requested.headBranch.makeArena.preview = .ok (.ok (), _) := rfl
  exact ⟨_, applied, (apply_covered_iff applied).mpr rfl⟩

open Sample in
/-- Anyone may request a base account transaction for an account that a payment has created. -/
theorem served_minted :
    ∃ c c', Relation.ReflTransGen (Served Sample.env (· ∈ settling) False) funded c ∧
      c = submit (founder 2 1000) settled ∧
      settled.txPool.contains (founder 2 1000).hash = false ∧
      c.txPool.contains (founder 2 1000).hash = true ∧
      (∃ s', apply Sample.env (choice.branchOrders 0) (founder 2 1000) 13
        c.headBranch.makeArena.preview = .ok (.ok (), s') ∧
        ¬Covered c.headBranch.makeArena.preview.view s'.view) ∧
      Chain.pushBlock Sample.env choice (block 1012 1013 [founder 2 1000]) c = .ok (.ok (), c') ∧
      c.headBranch.preview.view.held .particle = 100 ∧
      c'.headBranch.preview.view.held .particle = 1100 ∧
      c.headBranch.preview.view.locked .particle = 0 ∧
      c'.headBranch.preview.view.locked .particle = 0 := by
  have served := served_submit settled_served (founder 2 1000) (by decide +kernel)
  have succeeded : Program.succeeds (apply Sample.env (choice.branchOrders 0) (founder 2 1000) 13)
      (submit (founder 2 1000) settled).headBranch.makeArena.preview = true := by decide +kernel
  obtain ⟨_, applied⟩ := Program.eq_ok_of_succeeds succeeded
  exact ⟨_, _, served, rfl, by decide +kernel, by decide +kernel,
    ⟨_, applied, (apply_applied applied).covered_iff.not.mpr (by decide)⟩,
    (Program.eq_ok_of_succeeds (by decide +kernel)).choose_spec,
    by decide +kernel, by decide +kernel, by decide +kernel, by decide +kernel⟩

end SQLess.BlockProducer
