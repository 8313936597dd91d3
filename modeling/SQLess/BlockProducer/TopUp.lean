import SQLess.BlockProducer.Billing
import SQLess.BlockProducer.Conservation

/-! Paying in to a database. -/

namespace SQLess.BlockProducer

open Lib UInt64

/-- The payment tops up the deposit, fills it and goes on, or goes to the advance payment, which
is added to without a check in the second case. -/
inductive PaidIn (minDep amount : UInt64) (user user' : SQLChainUser) : Prop
  | deposit (small : user.deposit.toNat + amount.toNat ≤ minDep.toNat)
      (deposited : user'.deposit.toNat = user.deposit.toNat + amount.toNat)
      (kept : user'.advancePayment = user.advancePayment)
  | fill (below : user.deposit < minDep)
      (large : minDep.toNat < user.deposit.toNat + amount.toNat)
      (deposited : user'.deposit = minDep)
      (advanced : user'.advancePayment.toNat = (user.advancePayment.toNat +
        (user.deposit.toNat + amount.toNat - minDep.toNat)) % 2 ^ 64)
  | advance (full : minDep ≤ user.deposit) (kept : user'.deposit = user.deposit)
      (advanced : user'.advancePayment.toNat = user.advancePayment.toNat + amount.toNat)

lemma PaidIn.finished (paid)
    (same : (if ¬paid.status.enableQuery ∧ minDep < paid.advancePayment then { paid with status :=
      .normal } else paid) = user')
    (way : PaidIn minDep amount user paid) (arrears : paid.arrears = user.arrears)
    (status : paid.status = user.status) :
    PaidIn minDep amount user user' ∧ user'.arrears = user.arrears ∧
      user'.status = if ¬user.status.enableQuery ∧ minDep < user'.advancePayment then .normal
        else user.status := by
  rw [← same]
  split
  · rename_i enabled
    rw [status] at enabled
    refine ⟨?_, arrears, (if_pos enabled).symm⟩
    cases way with
    | deposit small deposited kept => exact .deposit small deposited kept
    | fill below large deposited advanced => exact .fill below large deposited advanced
    | advance full kept advanced => exact .advance full kept advanced
  · rename_i disabled
    rw [status] at disabled
    exact ⟨way, arrears, status.trans (if_neg disabled).symm⟩

lemma depositAmount_ok (deposited : depositAmount minDep amount user = .ok user') :
    PaidIn minDep amount user user' ∧ user'.arrears = user.arrears ∧
      user'.status = if ¬user.status.enableQuery ∧ minDep < user'.advancePayment then .normal
        else user.status := by
  simp only [depositAmount] at deposited
  split at deposited
  · rename_i below
    have gap := UInt64.toNat_sub_of_le _ _ (UInt64.le_of_lt below)
    have room := lt_iff_toNat_lt.mp below
    split at deposited
    · rename_i small
      rw [le_iff_toNat_le] at small
      have bound := minDep.toNat_lt
      refine PaidIn.finished _ (Except.ok.inj deposited) (.deposit (by omega) ?_ rfl) rfl rfl
      rw [UInt64.toNat_add]
      omega
    · rename_i large
      rw [UInt64.not_le] at large
      have rest := UInt64.toNat_sub_of_le _ _ (UInt64.le_of_lt large)
      rw [lt_iff_toNat_lt] at large
      refine PaidIn.finished _ (Except.ok.inj deposited) (.fill below (by omega) rfl ?_) rfl rfl
      rw [UInt64.toNat_add, rest]
      congr 2
      omega
  · rename_i full
    rcases added : safeAdd user.advancePayment amount with error | advance
    · simp [added, Except.map] at deposited
    · simp only [added, Except.map, Except.ok.injEq] at deposited
      exact PaidIn.finished { user with advancePayment := advance } deposited
        (.advance (UInt64.not_lt.mp full) rfl (safeAdd_eq_ok.mp added)) rfl rfl

def AdvanceWraps (minDep amount : UInt64) (user : SQLChainUser) : Prop :=
  user.deposit < minDep ∧
    minDep.toNat + 2 ^ 64 ≤ user.deposit.toNat + amount.toNat + user.advancePayment.toNat

section

variable {minDep amount : UInt64} {user user' : SQLChainUser}

section

variable (paid : PaidIn minDep amount user user')
include paid

lemma PaidIn.sum : (¬AdvanceWraps minDep amount user ∧
      user'.deposit.toNat + user'.advancePayment.toNat =
        user.deposit.toNat + user.advancePayment.toNat + amount.toNat) ∨
    (AdvanceWraps minDep amount user ∧ user'.deposit.toNat + user'.advancePayment.toNat + 2 ^ 64 =
        user.deposit.toNat + user.advancePayment.toNat + amount.toNat) := by
  have bound := user.advancePayment.toNat_lt
  have bound' := amount.toNat_lt
  cases paid with
  | deposit small deposited kept =>
    refine .inl ⟨fun wraps => ?_, ?_⟩
    · have sum := wraps.2
      omega
    · rw [deposited, kept]
      omega
  | fill below large deposited =>
    have room := lt_iff_toNat_lt.mp below
    rw [deposited]
    by_cases wraps : AdvanceWraps minDep amount user
    · have sum := wraps.2
      exact .inr ⟨wraps, by omega⟩
    · have fits : ¬minDep.toNat + 2 ^ 64 ≤
          user.deposit.toNat + amount.toNat + user.advancePayment.toNat :=
        fun sum => wraps ⟨below, sum⟩
      exact .inl ⟨wraps, by omega⟩
  | advance full kept =>
    refine .inl ⟨fun wraps => absurd full (UInt64.not_le.mpr wraps.1), ?_⟩
    rw [kept]
    omega

lemma PaidIn.deposit_le : user.deposit ≤ user'.deposit := by
  rw [le_iff_toNat_le]
  cases paid with
  | deposit => omega
  | fill below large deposited =>
    rw [deposited]
    exact (lt_iff_toNat_lt.mp below).le
  | advance full kept => rw [kept]

lemma PaidIn.advance_le (exact : ¬AdvanceWraps minDep amount user) :
    user.advancePayment ≤ user'.advancePayment := by
  rw [le_iff_toNat_le]
  cases paid with
  | deposit small deposited kept => rw [kept]
  | fill below =>
    have bound := user.advancePayment.toNat_lt
    have fits : ¬minDep.toNat + 2 ^ 64 ≤
        user.deposit.toNat + amount.toNat + user.advancePayment.toNat :=
      fun sum => exact ⟨below, sum⟩
    omega
  | advance => omega

end

end

structure TopsUp (env : Env) (order : MinerOrder) (height : Nat) (s s' : MetaState)
    (tx : SignedTx TransferHeader) (sqlchain sqlchain' : SQLChainProfile)
    (user user' : SQLChainUser) : Prop where
  ran : apply env order (.transfer tx) height s = .ok (.ok (), s')
  before : s.loadSQLChainObject (databaseID tx.header.receiver) = some sqlchain
  after : s'.loadSQLChainObject (databaseID tx.header.receiver) = some sqlchain'
  entry : ∃ position,
    sqlchain.users.findIdx? (fun user => user.address = tx.header.sender) = some position ∧
    sqlchain.users[position]? = some user ∧ sqlchain'.users[position]? = some user'

def SQLChainProfile.minDep (env : Env) (sqlchain : SQLChainProfile) : UInt64 :=
  minDeposit env sqlchain.gasPrice sqlchain.miners.length.toUInt64

section

variable {env : Env} {order : MinerOrder} {height : Nat} {s s' : MetaState}
  {tx : SignedTx TransferHeader} {sqlchain sqlchain' : SQLChainProfile} {user user' : SQLChainUser}

lemma TopsUp.inv (topsUp : TopsUp env order height s s' tx sqlchain sqlchain' user user') :
    depositAmount (SQLChainProfile.minDep env sqlchain) tx.header.amount
        (SQLChainUser.settled user) = .ok user' ∧ ∀ token, tx.header.tokenType.token? = some token →
        s'.view.balance tx.header.sender token + tx.header.amount.toNat =
          s.view.balance tx.header.sender token := by
  obtain ⟨ran, before, after, position, located, listed, listed'⟩ := topsUp
  obtain ⟨middle, owner, -, step, found, same⟩ := (apply_applied ran).inv
  rw [← s.view_databases_get] at before
  have stored : middle.databases.get (databaseID tx.header.receiver) = some sqlchain' := by
    rw [← s'.view_databases_get, same] at after
    exact after
  have counted : ∀ token, s'.view.balance tx.header.sender token =
      middle.balance tx.header.sender token := by
    intro token
    rw [same]
    exact balance_countUp found tx.header.sender token
  simp only [counted]
  clear same found ran counted after
  generalize s.view = index at before step
  cases step with
  | @topUp _ _ sqlchain₁ account token position₁ user₁ sqlchain₂ signer database sameToken payer
      supported enough located₁ listed₁ topped =>
      obtain rfl := Option.some.inj (before.symm.trans database)
      obtain rfl := Option.some.inj (located.symm.trans located₁)
      obtain rfl := Option.some.inj (listed.symm.trans listed₁)
      obtain ⟨-, user₂, deposited, rfl⟩ := topUp_ok topped
      obtain ⟨inside, -⟩ := List.getElem?_eq_some_iff.mp listed
      simp only [MetaIndex.setAccount, MetaIndex.setDatabase, FiniteMap.get_insert, if_true,
        Option.some.injEq] at stored
      rw [← stored, List.getElem?_set_self inside, Option.some.injEq] at listed'
      refine ⟨listed' ▸ deposited, fun token' supported' => ?_⟩
      obtain rfl := Option.some.inj (supported.symm.trans supported')
      rw [balance_setAccount, if_pos rfl, worth_withBalance, if_pos rfl, balance_of_get payer,
        Account.worth, UInt64.toNat_sub_of_le _ _ enough]
      rw [le_iff_toNat_le] at enough
      omega
  | notUser database unlisted =>
    obtain rfl := Option.some.inj (before.symm.trans database)
    rw [located] at unlisted
    simp at unlisted
  | idle absent nothing | move signer absent different payer payee supported paid received =>
    rw [before] at absent
    simp at absent

def MinerInfo.recorded (account : AccountAddress) (miner : MinerInfo) : Nat :=
  ((miner.userArrears.filter fun entry => entry.user = account).map fun entry =>
    entry.arrears.toNat).sum

structure MinerSettled (account : AccountAddress) (miner miner' : MinerInfo) : Prop where
  income : miner'.pendingIncome.toNat = miner.pendingIncome.toNat + MinerInfo.recorded account miner
  arrears : miner'.userArrears = miner.userArrears.filter fun entry => entry.user ≠ account

structure DebtSettled (sender : AccountAddress) (token : Token) (user user' : SQLChainUser)
    (miners miners' : List MinerInfo) (s s' : MetaState) : Prop where
  paid : s.view.balance sender token + user.deposit.toNat + user.advancePayment.toNat =
    s'.view.balance sender token + user.arrears.toNat + user'.deposit.toNat +
      user'.advancePayment.toNat
  deposit : user.deposit ≤ user'.deposit
  advance : user.advancePayment ≤ user'.advancePayment
  cleared : 0 < user.arrears → user'.arrears = 0
  miners : 0 < user.arrears → List.Forall₂ (MinerSettled user.address) miners miners'

lemma settled_deposit (user) : (SQLChainUser.settled user).deposit = user.deposit := by
  unfold SQLChainUser.settled
  split <;> rfl

lemma settled_advancePayment (user) :
    (SQLChainUser.settled user).advancePayment = user.advancePayment := by
  unfold SQLChainUser.settled
  split <;> rfl

/-- A user's payment settles its debts and keeps the tokens exactly if the user has no debts and
the advance payment does not wrap around. -/
theorem transfer_settles_iff {token : Token}
    (topsUp : TopsUp env order height s s' tx sqlchain sqlchain' user user')
    (supported : tx.header.tokenType.token? = some token) :
    DebtSettled tx.header.sender token user user' sqlchain.miners sqlchain'.miners s s' ↔
      user.arrears = 0 ∧
        ¬AdvanceWraps (SQLChainProfile.minDep env sqlchain) tx.header.amount user := by
  obtain ⟨deposited, balances⟩ := topsUp.inv
  have balance := balances token supported
  obtain ⟨paid, -, -⟩ := depositAmount_ok deposited
  have wraps : AdvanceWraps (SQLChainProfile.minDep env sqlchain) tx.header.amount
      (SQLChainUser.settled user) ↔
        AdvanceWraps (SQLChainProfile.minDep env sqlchain) tx.header.amount user := by
    rw [AdvanceWraps, AdvanceWraps, settled_deposit, settled_advancePayment]
  have sums := paid.sum
  have grown := paid.deposit_le
  have advanced := paid.advance_le
  rw [settled_deposit] at grown
  rw [settled_advancePayment, wraps] at advanced
  rw [settled_deposit, settled_advancePayment, wraps] at sums
  have bound := user.arrears.toNat_lt
  constructor
  · intro settled
    have equation := settled.paid
    rcases sums with ⟨exact, sum⟩ | ⟨wrapped, sum⟩
    · refine ⟨UInt64.toNat_inj.mp ?_, exact⟩
      rw [UInt64.toNat_zero]
      omega
    · omega
  · rintro ⟨clear, exact⟩
    rcases sums with ⟨-, sum⟩ | ⟨wrapped, -⟩
    · have none : ¬0 < user.arrears := by
        rw [clear]
        exact UInt64.lt_irrefl 0
      refine ⟨?_, grown, advanced exact, fun owing => absurd owing none,
        fun owing => absurd owing none⟩
      rw [clear, UInt64.toNat_zero]
      omega
    · exact absurd wrapped exact

end

namespace Sample

def terms (s : MetaState) : Option (UInt64 × Nat × List SQLChainUser) :=
  (s.loadSQLChainObject (databaseID 102)).map fun so =>
    (so.gasPrice, so.miners.length, so.users)

def sharing : Env :=
  { env with scaleIncome := fun income advance cost =>
      UInt64.ofNat (income.toNat * advance.toNat / cost.toNat) }

noncomputable def overdrawn : MetaState :=
  Program.after (apply sharing (choice.branchOrders 0) (.updateBilling (bill 20 20)) 0) hosted

def books (s : MetaState) : Option (List (UInt64 × UInt64 × UInt64) ×
    List (UInt64 × List UserArrears)) :=
  (s.loadSQLChainObject (databaseID 102)).map fun so =>
    (so.users.map fun user => (user.deposit, user.advancePayment, user.arrears),
      so.miners.map fun miner => (miner.pendingIncome, miner.userArrears))

end Sample

open Sample in
theorem transfer_settles_owner : ∃ s' sqlchain sqlchain' user user',
      TopsUp Sample.env (choice.branchOrders 0) 0 hosted s' (payment 1 102 2 15) sqlchain sqlchain'
        user user' ∧
      DebtSettled 1 .particle user user' sqlchain.miners sqlchain'.miners hosted s' := by
  have topsUp : TopsUp Sample.env (choice.branchOrders 0) 0 hosted _ (payment 1 102 2 15) _ _ _ _ :=
    ⟨rfl, rfl, rfl, 0, rfl, rfl, rfl⟩
  refine ⟨_, _, _, _, _, topsUp, (transfer_settles_iff topsUp rfl).mpr ⟨rfl, ?_⟩⟩
  rintro ⟨-, wraps⟩
  exact absurd wraps (by decide)

open Sample in
/-- Account 1 owes 10 and pays 15; the miner has got its 10 and keeps them on record. -/
theorem transfer_not_settled :
    ∃ s', apply sharing (choice.branchOrders 0) (pay 1 102 2 15) 0 overdrawn = .ok (.ok (), s') ∧
      overdrawn.view.balance 1 .particle = 989 ∧ s'.view.balance 1 .particle = 974 ∧
      books overdrawn = some ([(1, 0, 10)], [(10, [⟨1, 10⟩])]) ∧
      books s' = some ([(1, 15, 0)], [(20, [⟨1, 10⟩])]) :=
  ⟨_, rfl, by decide, by decide, by decide, by decide⟩

section

variable {env : Env} {order : MinerOrder} {height : Nat} {s s' : MetaState}
  {tx : SignedTx TransferHeader} {sqlchain sqlchain' : SQLChainProfile} {user user' : SQLChainUser}

def exactDeposit (env : Env) (gasPrice : UInt64) (minerNumber : Nat) : Nat :=
  gasPrice.toNat * env.qps.toNat * env.billingBlockCount.toNat * minerNumber

lemma minDeposit_toNat (gasPrice minerNumber) : (minDeposit env gasPrice minerNumber).toNat =
      exactDeposit env gasPrice minerNumber.toNat % 2 ^ 64 := by
  simp only [minDeposit, exactDeposit, UInt64.toNat_mul, UInt32.toNat_toUInt64, Nat.mod_mul_mod]

lemma minDep_toNat (sqlchain) : (SQLChainProfile.minDep env sqlchain).toNat =
      exactDeposit env sqlchain.gasPrice sqlchain.miners.length % 2 ^ 64 := by
  rw [SQLChainProfile.minDep, minDeposit_toNat]
  simp only [exactDeposit, Nat.toUInt64, toNat_ofNat', Nat.mul_mod_mod]

def Secured (required : Nat) (user : SQLChainUser) : Prop :=
  required ≤ user.deposit.toNat ∧ required ≤ user.advancePayment.toNat

def paidAhead (required : Nat) (amount : UInt64) (user : SQLChainUser) : Nat :=
  (user.advancePayment.toNat + (amount.toNat - (required - user.deposit.toNat))) % 2 ^ 64

lemma paidAhead_settled (required amount user) :
    paidAhead required amount (SQLChainUser.settled user) = paidAhead required amount user := by
  rw [paidAhead, settled_deposit, settled_advancePayment, paidAhead]

lemma PaidIn.paidAhead_eq {minDep amount : UInt64} (paid : PaidIn minDep amount user user')
    (required : Nat) (exact : minDep.toNat = required)
    (enough : required ≤ user.deposit.toNat + amount.toNat) :
    user'.advancePayment.toNat = paidAhead required amount user := by
  have bound := user'.advancePayment.toNat_lt
  rw [paidAhead]
  cases paid with
  | deposit small deposited kept =>
    rw [kept] at bound ⊢
    rw [Nat.mod_eq_of_lt] <;> omega
  | fill below large deposited advanced =>
    rw [lt_iff_toNat_lt] at below
    rw [advanced]
    congr 2
    omega
  | advance full =>
    rw [le_iff_toNat_le] at full
    rw [Nat.mod_eq_of_lt] <;> omega

lemma createDatabase_secured {tx profile}
    (fresh : s.loadSQLChainObject (fromAccountAndNonce env tx.header.owner tx.header.nonce) = none)
    (ran : apply env order (.createDatabase tx) height s = .ok (.ok (), s'))
    (stored : s'.loadSQLChainObject (fromAccountAndNonce env tx.header.owner tx.header.nonce) =
      some profile) : (∀ user ∈ profile.users,
        Secured (exactDeposit env profile.gasPrice profile.miners.length) user) ↔
      exactDeposit env profile.gasPrice profile.miners.length < 2 ^ 64 := by
  rcases createDatabase_ok ran with
    ⟨-, databases, -⟩ | ⟨profile₁, staffed, selected, advanced, gasPrice, users, stored₁, -⟩
  · rw [← s'.view_databases_get, databases, s.view_databases_get, fresh] at stored
    simp at stored
  · obtain rfl := Option.some.inj (stored.symm.trans stored₁)
    have required : (minAdvancePayment env tx.header).toNat =
        exactDeposit env profile.gasPrice profile.miners.length % 2 ^ 64 := by
      rw [minAdvancePayment, minDeposit_toNat, gasPrice, selectMiners_length staffed selected]
      rfl
    have bound := (minAdvancePayment env tx.header).toNat_lt
    rw [le_iff_toNat_le] at advanced
    rw [users]
    simp only [List.mem_singleton, forall_eq, Secured, newSQLChainUser]
    omega

lemma TopsUp.secured (topsUp : TopsUp env order height s s' tx sqlchain sqlchain' user user')
    (other : user.status ≠ .normal) (normal : user'.status = .normal) :
    Secured (exactDeposit env sqlchain.gasPrice sqlchain.miners.length) user' ↔
      exactDeposit env sqlchain.gasPrice sqlchain.miners.length < 2 ^ 64 ∧
      exactDeposit env sqlchain.gasPrice sqlchain.miners.length ≤
        user.deposit.toNat + tx.header.amount.toNat ∧
      (0 < user.arrears → exactDeposit env sqlchain.gasPrice sqlchain.miners.length ≤
        paidAhead (exactDeposit env sqlchain.gasPrice sqlchain.miners.length) tx.header.amount
          user) := by
  obtain ⟨paid, -, status⟩ := depositAmount_ok topsUp.inv.1
  have required : (SQLChainProfile.minDep env sqlchain).toNat =
      exactDeposit env sqlchain.gasPrice sqlchain.miners.length % 2 ^ 64 := minDep_toNat sqlchain
  -- without arrears the status changes only if the advance payment passes the wrapped product
  have passed : ¬0 < user.arrears →
      (SQLChainProfile.minDep env sqlchain).toNat < user'.advancePayment.toNat := by
    intro clear
    rw [SQLChainUser.settled, if_neg clear] at status
    split at status
    · rename_i enabled
      exact lt_iff_toNat_lt.mp enabled.2
    · exact absurd (status.symm.trans normal) other
  have reached : exactDeposit env sqlchain.gasPrice sqlchain.miners.length ≤ user'.deposit.toNat ↔
      exactDeposit env sqlchain.gasPrice sqlchain.miners.length < 2 ^ 64 ∧
      exactDeposit env sqlchain.gasPrice sqlchain.miners.length ≤
        user.deposit.toNat + tx.header.amount.toNat := by
    have bound := user'.deposit.toNat_lt
    cases paid with
    | deposit small deposited =>
      rw [settled_deposit] at deposited
      omega
    | fill below large deposited =>
      rw [settled_deposit] at large
      rw [deposited] at bound ⊢
      omega
    | advance full kept =>
      rw [settled_deposit, le_iff_toNat_le] at full
      rw [settled_deposit] at kept
      rw [kept] at bound ⊢
      omega
  have ahead := paid.paidAhead_eq (exactDeposit env sqlchain.gasPrice sqlchain.miners.length)
  rw [settled_deposit, paidAhead_settled] at ahead
  rw [Secured, reached]
  by_cases owing : 0 < user.arrears
  · constructor
    · rintro ⟨⟨fits, enough⟩, advanced⟩
      rw [Nat.mod_eq_of_lt fits] at required
      exact ⟨fits, enough, fun _ => (ahead required enough) ▸ advanced⟩
    · rintro ⟨fits, enough, advanced⟩
      rw [Nat.mod_eq_of_lt fits] at required
      exact ⟨⟨fits, enough⟩, ahead required enough ▸ advanced owing⟩
  · have more := passed owing
    constructor
    · rintro ⟨⟨fits, enough⟩, -⟩
      exact ⟨fits, enough, fun owes => absurd owes owing⟩
    · rintro ⟨fits, enough, -⟩
      exact ⟨⟨fits, enough⟩, by omega⟩

/-- Who gets a database, or becomes normal by a payment, has the exact minimum exactly if the
product fits into 64 bits, the payment completes the deposit and, with arrears, the advance. -/
theorem deposit_secured_iff : (∀ (tx : SignedTx CreateDatabaseHeader) (profile : SQLChainProfile),
      s.loadSQLChainObject (fromAccountAndNonce env tx.header.owner tx.header.nonce) = none →
      apply env order (.createDatabase tx) height s = .ok (.ok (), s') →
      s'.loadSQLChainObject (fromAccountAndNonce env tx.header.owner tx.header.nonce) =
        some profile →
      ((∀ user ∈ profile.users,
          Secured (exactDeposit env profile.gasPrice profile.miners.length) user) ↔
        exactDeposit env profile.gasPrice profile.miners.length < 2 ^ 64)) ∧
    ∀ (tx : SignedTx TransferHeader) (sqlchain sqlchain' : SQLChainProfile)
      (user user' : SQLChainUser), TopsUp env order height s s' tx sqlchain sqlchain' user user' →
      user.status ≠ .normal → user'.status = .normal →
      (Secured (exactDeposit env sqlchain.gasPrice sqlchain.miners.length) user' ↔
        exactDeposit env sqlchain.gasPrice sqlchain.miners.length < 2 ^ 64 ∧
        exactDeposit env sqlchain.gasPrice sqlchain.miners.length ≤
          user.deposit.toNat + tx.header.amount.toNat ∧
        (0 < user.arrears → exactDeposit env sqlchain.gasPrice sqlchain.miners.length ≤
          paidAhead (exactDeposit env sqlchain.gasPrice sqlchain.miners.length) tx.header.amount
            user)) :=
  ⟨fun _ _ fresh ran stored => createDatabase_secured fresh ran stored,
    fun _ _ _ _ _ topsUp other normal => topsUp.secured other normal⟩

end

namespace Sample

noncomputable def admitted : MetaState :=
  Program.after (administer (permit 1 9 UserPermission.read 2)) hosted

def cheapRequest : CreateDatabaseHeader :=
  { request [4, 3] 2 with gasPrice := 2 ^ 63, advancePayment := 0 }

def cheapAsk : Transaction :=
  .createDatabase ⟨cheapRequest, ⟨transactionTypeCreateDatabase, 0⟩,
    sign 1 (.createDatabase cheapRequest)⟩

noncomputable def cheap : MetaState := Program.after (administer cheapAsk) market

noncomputable def cheapAdmitted : MetaState :=
  Program.after (administer (permit 1 4 UserPermission.read 2)) cheap

def reader (address : AccountAddress) (deposit advancePayment : UInt64) (status : Status) :
    SQLChainUser :=
  ⟨address, some (.fromRole UserPermission.read), advancePayment, 0, deposit, status⟩

end Sample

open Sample in
theorem deposit_secured_paid :
    (∃ s' profile, apply Sample.env (choice.branchOrders 0) (.createDatabase (ask [4, 3] 2)) 0
        market = .ok (.ok (), s') ∧
      s'.loadSQLChainObject (databaseID 102) = some profile ∧
      ∀ user ∈ profile.users,
        Secured (exactDeposit Sample.env profile.gasPrice profile.miners.length) user) ∧
    ∃ s' sqlchain sqlchain', TopsUp Sample.env (choice.branchOrders 0) 0 admitted s'
        (payment 9 102 1 15) sqlchain sqlchain' (reader 9 0 0 .unknownStatus)
        (reader 9 1 14 .normal) ∧
      Secured (exactDeposit Sample.env sqlchain.gasPrice sqlchain.miners.length)
        (reader 9 1 14 .normal) := by
  have ran : apply Sample.env (choice.branchOrders 0) (.createDatabase (ask [4, 3] 2)) 0 market =
      .ok (.ok (), _) := rfl
  have topsUp : TopsUp Sample.env (choice.branchOrders 0) 0 admitted _ (payment 9 102 1 15) _ _
      (reader 9 0 0 .unknownStatus) (reader 9 1 14 .normal) := ⟨rfl, rfl, rfl, 1, rfl, rfl, rfl⟩
  refine ⟨⟨_, _, ran, rfl, (deposit_secured_iff.1 (ask [4, 3] 2) _ (by decide) ran rfl).mpr ?_⟩,
    _, _, _, topsUp, (deposit_secured_iff.2 _ _ _ _ _ topsUp (by decide) rfl).mpr ?_⟩
  · decide
  · decide

open Sample in
/-- A database for nothing, where the minimum deposit is 2 ^ 64. -/
theorem deposit_not_secured : exactDeposit Sample.env (2 ^ 63) 2 = 2 ^ 64 ∧
    (∃ s', apply Sample.env (choice.branchOrders 0) cheapAsk 0 market = .ok (.ok (), s') ∧
      terms s' = some (2 ^ 63, 2, [newSQLChainUser 1 0 0])) ∧
    ∃ s', apply Sample.env (choice.branchOrders 0) (pay 4 102 2 1) 0 cheapAdmitted =
        .ok (.ok (), s') ∧
      terms cheapAdmitted = some (2 ^ 63, 2, [newSQLChainUser 1 0 0, reader 4 0 0 .unknownStatus]) ∧
      terms s' = some (2 ^ 63, 2, [newSQLChainUser 1 0 0, reader 4 0 1 .normal]) := by
  have created : Program.succeeds (administer cheapAsk) market = true := by decide +kernel
  have paid : Program.succeeds (administer (pay 4 102 2 1)) cheapAdmitted = true := by
    decide +kernel
  obtain ⟨_, ran⟩ := Program.eq_ok_of_succeeds created
  obtain ⟨_, ran'⟩ := Program.eq_ok_of_succeeds paid
  exact ⟨by decide +kernel, ⟨_, ran, by decide +kernel⟩, _, ran', by decide +kernel,
    by decide +kernel⟩

end SQLess.BlockProducer
