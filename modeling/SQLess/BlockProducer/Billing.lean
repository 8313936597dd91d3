import Mathlib.Algebra.BigOperators.Ring.List
import SQLess.BlockProducer.Administration

/-! Billing a database while every user can pay. -/

namespace SQLess.BlockProducer

open Lib List MetaState

variable {gasPrice : UInt64} {users : List SQLChainUser}

lemma foldl_toNat {α step share}
    (adds : ∀ total value, (step total value).toNat = (total.toNat + share value) % 2 ^ 64)
    (list : List α) (total : UInt64) :
    (list.foldl step total).toNat = (total.toNat + (list.map share).sum) % 2 ^ 64 := by
  induction list generalizing total with
  | nil =>
    have bound := total.toNat_lt
    simp only [foldl_nil, map_nil, sum_nil]
    omega
  | cons value rest ih =>
    rw [foldl_cons, ih, adds, map_cons, sum_cons]
    omega

variable (costs : List UserCost)

def exactIncome (user miner : AccountAddress) : Nat :=
  (costs.map fun entry =>
    if entry.user = user then
      ((entry.miners.filterMap id).map fun income =>
        if income.miner = miner then income.income.toNat else 0).sum
    else 0).sum

lemma incomeOf_toNat (user miner : AccountAddress) :
    (incomeOf costs user miner).toNat = exactIncome costs user miner % 2 ^ 64 := by
  unfold incomeOf exactIncome
  rw [foldl_toNat (fun total entry => ?_), UInt64.toNat_zero, Nat.zero_add]
  by_cases same : entry.user = user
  · rw [if_pos same, if_pos same]
    refine foldl_toNat (fun total income => ?_) _ total
    by_cases own : income.miner = miner
    · rw [if_pos own, if_pos own, UInt64.toNat_add]
    · have bound := total.toNat_lt
      rw [if_neg own, if_neg own]
      omega
  · have bound := total.toNat_lt
    rw [if_neg same, if_neg same]
    omega

def chargeUser (gasPrice : UInt64) (costs : List UserCost) (user : SQLChainUser) : SQLChainUser :=
  { user with advancePayment := user.advancePayment - costOf costs user.address * gasPrice }

def creditMiner (gasPrice : UInt64) (costs : List UserCost) (users : List SQLChainUser)
    (miner : MinerInfo) : MinerInfo :=
  { miner with pendingIncome := users.foldl (fun pending user =>
      pending + incomeOf costs user.address miner.address * gasPrice) miner.pendingIncome }

def CanPay (gasPrice : UInt64) (costs : List UserCost) (user : SQLChainUser) : Prop :=
  costOf costs user.address * gasPrice ≤ user.advancePayment

lemma billUsers_covered {env costs} (covered : ∀ user ∈ users, CanPay gasPrice costs user)
    (miners) : billUsers env gasPrice costs users miners =
      (users.map (chargeUser gasPrice costs), miners.map (creditMiner gasPrice costs users)) := by
  induction users generalizing miners with
  | nil =>
    have nothing : creditMiner gasPrice costs [] = id := rfl
    rw [billUsers, nothing, map_id, map_nil]
  | cons user rest ih =>
    obtain ⟨pays, others⟩ := forall_mem_cons.mp covered
    have first : billUser env gasPrice costs user miners =
        (chargeUser gasPrice costs user, miners.map (creditMiner gasPrice costs [user])) :=
      if_pos pays
    rw [billUsers, first]
    simp only [ih others, map_map, map_cons]
    rfl

def SQLChainProfile.circulating (profile : SQLChainProfile) : Nat :=
  (profile.users.map fun user => user.advancePayment.toNat).sum +
    (profile.miners.map fun miner => miner.pendingIncome.toNat + miner.receivedIncome.toNat).sum

def billedCost (profile : SQLChainProfile) : Nat :=
  (profile.users.map fun user => (costOf costs user.address).toNat).sum

def billedIncome (profile : SQLChainProfile) : Nat :=
  (profile.miners.map fun miner =>
    (profile.users.map fun user => exactIncome costs user.address miner.address).sum).sum

/-- No product and no sum of the billing wraps around; the sums of the new incomes bound the
single products and the partial sums. -/
structure Unwrapped (costs : List UserCost) (profile : SQLChainProfile) : Prop where
  received : ∀ miner ∈ profile.miners,
    miner.receivedIncome.toNat + miner.pendingIncome.toNat < 2 ^ 64
  cost : ∀ user ∈ profile.users, (costOf costs user.address).toNat * profile.gasPrice.toNat < 2 ^ 64
  incomes : ∀ miner ∈ profile.miners, (profile.users.map fun user =>
    exactIncome costs user.address miner.address * profile.gasPrice.toNat).sum < 2 ^ 64

lemma charged_sum {costs} (covered : ∀ user ∈ users, CanPay gasPrice costs user)
    (exact : ∀ user ∈ users, (costOf costs user.address).toNat * gasPrice.toNat < 2 ^ 64) :
    ((users.map (chargeUser gasPrice costs)).map fun user => user.advancePayment.toNat).sum +
        (users.map fun user => (costOf costs user.address).toNat).sum * gasPrice.toNat =
      (users.map fun user => user.advancePayment.toNat).sum := by
  induction users with
  | nil => simp
  | cons user rest ih =>
    obtain ⟨pays, others⟩ := forall_mem_cons.mp covered
    obtain ⟨fits, fit⟩ := forall_mem_cons.mp exact
    have tail := ih others fit
    have product : (costOf costs user.address * gasPrice).toNat =
        (costOf costs user.address).toNat * gasPrice.toNat := by
      rw [UInt64.toNat_mul, Nat.mod_eq_of_lt fits]
    have charged : (chargeUser gasPrice costs user).advancePayment.toNat +
        (costOf costs user.address).toNat * gasPrice.toNat = user.advancePayment.toNat := by
      rw [chargeUser, UInt64.toNat_sub_of_le _ _ pays, ← product]
      exact Nat.sub_add_cancel (UInt64.le_iff_toNat_le.mp pays)
    simp only [map_cons, sum_cons, Nat.add_mul]
    omega

def collectIncome (miner : MinerInfo) : MinerInfo :=
  { miner with
      receivedIncome := miner.receivedIncome + miner.pendingIncome
      pendingIncome := 0 }

lemma credited_income {costs miner}
    (received : miner.receivedIncome.toNat + miner.pendingIncome.toNat < 2 ^ 64)
    (incomes : (users.map fun user => exactIncome costs user.address miner.address *
      gasPrice.toNat).sum < 2 ^ 64) :
    (creditMiner gasPrice costs users (collectIncome miner)).pendingIncome.toNat +
        (creditMiner gasPrice costs users (collectIncome miner)).receivedIncome.toNat =
      miner.pendingIncome.toNat + miner.receivedIncome.toNat +
        (users.map fun user => exactIncome costs user.address miner.address).sum *
          gasPrice.toNat := by
  have pending : (creditMiner gasPrice costs users (collectIncome miner)).pendingIncome.toNat =
      (users.map fun user =>
        exactIncome costs user.address miner.address * gasPrice.toNat).sum := by
    simp only [creditMiner]
    rw [foldl_toNat (fun total user => ?_), collectIncome, UInt64.toNat_zero, Nat.zero_add,
      Nat.mod_eq_of_lt incomes]
    rw [UInt64.toNat_add, UInt64.toNat_mul, incomeOf_toNat, Nat.mod_mul_mod, Nat.add_mod_mod]
    rfl
  have collected : (creditMiner gasPrice costs users (collectIncome miner)).receivedIncome.toNat =
      miner.receivedIncome.toNat + miner.pendingIncome.toNat := by
    simp only [creditMiner, collectIncome]
    rw [UInt64.toNat_add, Nat.mod_eq_of_lt received]
  rw [pending, collected, sum_map_mul_right]
  omega

lemma billed_circulating {costs profile} (height : Nat)
    (covered : ∀ user ∈ profile.users, CanPay profile.gasPrice costs user)
    (unwrapped : Unwrapped costs profile) : SQLChainProfile.circulating { profile with
        miners := (profile.miners.map collectIncome).map
          (creditMiner profile.gasPrice costs profile.users)
        users := profile.users.map (chargeUser profile.gasPrice costs)
        lastUpdatedHeight := height } +
        billedCost costs profile * profile.gasPrice.toNat =
      SQLChainProfile.circulating profile + billedIncome costs profile * profile.gasPrice.toNat :=
        by
  have users := charged_sum covered unwrapped.cost
  have miners : ((profile.miners.map collectIncome).map
      (creditMiner profile.gasPrice costs profile.users)).map
        (fun miner => miner.pendingIncome.toNat + miner.receivedIncome.toNat) =
      profile.miners.map fun miner => miner.pendingIncome.toNat + miner.receivedIncome.toNat +
        (profile.users.map fun user => exactIncome costs user.address miner.address).sum *
          profile.gasPrice.toNat := by
    rw [map_map, map_map]
    exact map_congr_left fun miner member =>
      credited_income (unwrapped.received miner member) (unwrapped.incomes miner member)
  simp only [SQLChainProfile.circulating, billedCost, billedIncome]
  rw [miners, sum_map_add, sum_map_mul_right]
  omega

def billedUsers (tx : SignedTx UpdateBillingHeader) : List UserCost :=
  (userCosts tx.header.users).getD []

/-- Billing users who can pay creates no tokens exactly if the miners get no more than the users
are charged. -/
theorem updateBilling_creates_iff {env : Env} {order : MinerOrder} {height : Nat}
    {s s' : MetaState} {tx : SignedTx UpdateBillingHeader} {profile profile' : SQLChainProfile}
    (before : s.loadSQLChainObject (databaseID tx.header.receiver) = some profile)
    (ran : apply env order (.updateBilling tx) height s = .ok (.ok (), s'))
    (after : s'.loadSQLChainObject (databaseID tx.header.receiver) = some profile')
    (covered : ∀ user ∈ profile.users, CanPay profile.gasPrice (billedUsers tx) user)
    (unwrapped : Unwrapped (billedUsers tx) profile) :
    SQLChainProfile.circulating profile' ≤ SQLChainProfile.circulating profile ↔
      billedIncome (billedUsers tx) profile * profile.gasPrice.toNat ≤
        billedCost (billedUsers tx) profile * profile.gasPrice.toNat := by
  obtain ⟨middle, account, -, step, -, same⟩ := (apply_applied ran).inv
  rw [← s.view_databases_get] at before
  have stored : middle.databases.get (databaseID tx.header.receiver) = some profile' := by
    rw [← s'.view_databases_get, same] at after
    exact after
  clear same ran after
  generalize s.view = index at before step
  cases step with
  | unbilled database free =>
    obtain rfl := Option.some.inj (before.symm.trans database)
    obtain rfl := Option.some.inj (before.symm.trans stored)
    simp [free]
  | @bill _ _ profile₁ costs users miners database inRange priced signer decoded billed =>
    obtain rfl := Option.some.inj (before.symm.trans database)
    have listed : billedUsers tx = costs := by rw [billedUsers, decoded, Option.getD_some]
    rw [listed] at covered unwrapped ⊢
    obtain ⟨rfl, rfl⟩ := Prod.mk.inj ((billUsers_covered covered _).symm.trans billed)
    simp only [MetaIndex.setDatabase, FiniteMap.get_insert, if_true, Option.some.injEq] at stored
    have total := billed_circulating tx.header.rangeTo covered unwrapped
    rw [← stored]
    change SQLChainProfile.circulating { profile with
      miners := (profile.miners.map collectIncome).map
        (creditMiner profile.gasPrice costs profile.users)
      users := profile.users.map (chargeUser profile.gasPrice costs)
      lastUpdatedHeight := tx.header.rangeTo } ≤ _ ↔ _
    omega

namespace Sample

def bill (cost income : UInt64) : SignedTx UpdateBillingHeader :=
  let header : UpdateBillingHeader := ⟨102, 2, [some ⟨1, cost, [some ⟨3, income⟩]⟩], 0, 1, 0⟩
  ⟨header, ⟨transactionTypeUpdateBilling, 0⟩, sign 3 (.updateBilling header)⟩

def circulation (s : MetaState) : Option Nat :=
  (s.loadSQLChainObject (databaseID 102)).map SQLChainProfile.circulating

end Sample

open Sample in
theorem updateBilling_creates_nothing :
    ∃ s' profile profile', apply Sample.env (choice.branchOrders 0) (.updateBilling (bill 4 4)) 0
        hosted = .ok (.ok (), s') ∧
      hosted.loadSQLChainObject (databaseID 102) = some profile ∧
      s'.loadSQLChainObject (databaseID 102) = some profile' ∧
      SQLChainProfile.circulating profile' ≤ SQLChainProfile.circulating profile := by
  have ran : apply Sample.env (choice.branchOrders 0) (.updateBilling (bill 4 4)) 0 hosted =
      .ok (.ok (), _) := rfl
  have before : hosted.loadSQLChainObject (databaseID 102) = some _ := rfl
  refine ⟨_, _, _, ran, before, rfl,
    (updateBilling_creates_iff before ran rfl ?_ ⟨?_, ?_, ?_⟩).mpr ?_⟩
  · unfold CanPay
    decide
  all_goals decide

open Sample in
/-- The miner charges nothing and gives itself five units of gas. -/
theorem updateBilling_created :
    ∃ s', apply Sample.env (choice.branchOrders 0) (.updateBilling (bill 0 5)) 0 hosted =
        .ok (.ok (), s') ∧
      circulation hosted = some 10 ∧ circulation s' = some 15 :=
  ⟨_, rfl, by decide, by decide⟩

structure Billed where
  header : UpdateBillingHeader
  before : Nat
  after : Nat

inductive Billing (env : Env) (id : DatabaseID) : MetaState → List Billed → MetaState → Prop
  | done {s} : Billing env id s [] s
  | commit {s bills s'} (rest : Billing env id s.commit bills s') : Billing env id s bills s'
  | other {s between bills s' order tx height}
      (ran : apply env order tx height s = .ok (.ok (), between))
      (unbilled : ∀ bill, Transaction.unwrap tx = .updateBilling bill →
        databaseID bill.header.receiver ≠ id)
      (rest : Billing env id between bills s') : Billing env id s bills s'
  | bill {s between bills s' order tx height bill so so'}
      (ran : apply env order tx height s = .ok (.ok (), between))
      (kind : Transaction.unwrap tx = .updateBilling bill)
      (target : databaseID bill.header.receiver = id)
      (before : s.loadSQLChainObject id = some so)
      (after : between.loadSQLChainObject id = some so')
      (rest : Billing env id between bills s') :
      Billing env id s (⟨bill.header, so.lastUpdatedHeight, so'.lastUpdatedHeight⟩ :: bills) s'

def FollowOn (height : Nat) : List Billed → Prop
  | [] => True
  | b :: rest => b.header.rangeFrom = height ∧ b.header.rangeFrom < b.header.rangeTo ∧
      b.before < b.after ∧ FollowOn b.header.rangeTo rest

section

variable {env : Env} {order : MinerOrder} {height : Nat} {id : DatabaseID} {tx : Transaction}
  {so so' : SQLChainProfile} {s s' : MetaState}

lemma ProfileChange.height_kept (change : ProfileChange env id so tx so')
    (unbilled : ∀ bill, tx = .updateBilling bill → databaseID bill.header.receiver ≠ id) :
    so'.lastUpdatedHeight = so.lastUpdatedHeight ∧ so'.gasPrice = so.gasPrice := by
  cases change with
  | kept | permitted => exact ⟨rfl, rfl⟩
  | toppedUp _ _ _ topped =>
    obtain ⟨-, user, -, rfl⟩ := topUp_ok topped
    exact ⟨rfl, rfl⟩
  | billed target => exact absurd target (unbilled _ rfl)

lemma Ledger.billed {index index' bill} (step : Ledger env order height tx index index')
    (kind : tx.unwrap = .updateBilling bill)
    (before : index.databases.get (databaseID bill.header.receiver) = some so)
    (after : index'.databases.get (databaseID bill.header.receiver) = some so') :
    so'.gasPrice = so.gasPrice ∧ (so.gasPrice = 0 ∧ so'.lastUpdatedHeight = so.lastUpdatedHeight ∨
        so.gasPrice ≠ 0 ∧ so'.lastUpdatedHeight = bill.header.rangeTo ∧
          (0 < bill.header.version → bill.header.rangeFrom < bill.header.rangeTo ∧
            so.lastUpdatedHeight = bill.header.rangeFrom)) := by
  have unwrapped := step.unwrap
  rw [kind] at unwrapped
  cases unwrapped with
  | unbilled database free =>
    cases database.symm.trans before
    cases before.symm.trans after
    exact ⟨rfl, .inl ⟨free, rfl⟩⟩
  | bill database inRange priced =>
    cases database.symm.trans before
    simp only [MetaIndex.setDatabase, FiniteMap.get_insert, if_true] at after
    cases after
    refine ⟨rfl, .inr ⟨priced, rfl, fun versioned => ?_⟩⟩
    by_contra outside
    exact inRange ⟨versioned, by omega⟩

lemma Billing.followOn_iff (run : Billing env id s bills s')
    (found : s.loadSQLChainObject id = some so) :
    FollowOn so.lastUpdatedHeight bills ↔ ∀ b ∈ bills, so.gasPrice ≠ 0 ∧ (0 < b.header.version ∨
        b.header.rangeFrom = b.before ∧ b.before < b.header.rangeTo) := by
  induction run generalizing so with
  | done => simp [FollowOn]
  | commit rest ih =>
    refine ih ?_
    rwa [← view_databases_get, MetaState.commit, view_clean,
      view_databases_get]
  | other ran unbilled rest ih =>
    rw [← view_databases_get] at found
    obtain ⟨so', found', change⟩ := (apply_applied ran).profile found
    obtain ⟨same, price⟩ := change.height_kept unbilled
    rw [view_databases_get] at found'
    rw [← same, ← price]
    exact ih found'
  | bill ran kind target before after rest ih =>
    cases before.symm.trans found
    subst target
    have later := ih after
    rw [← view_databases_get] at found after
    obtain ⟨middle, account, -, step, -, same⟩ := (apply_applied ran).inv
    rw [same] at after
    obtain ⟨price, ⟨free, stays⟩ | ⟨priced, raised, checked⟩⟩ := step.billed kind found after
    · rw [FollowOn, forall_mem_cons]
      simp [stays, free]
    · rw [raised, price] at later
      rw [FollowOn, forall_mem_cons, ← later, raised]
      constructor
      · rintro ⟨here, grows, -, follow⟩
        exact ⟨⟨priced, .inr ⟨here, here ▸ grows⟩⟩, follow⟩
      · rintro ⟨⟨-, versioned | ⟨here, grows⟩⟩, follow⟩
        · obtain ⟨grows, here⟩ := checked versioned
          exact ⟨here.symm, grows, here ▸ grows, follow⟩
        · exact ⟨here, here ▸ grows, grows, follow⟩

/-- The billed ranges follow each other from height 0 on exactly if billing is not free and every
transaction is checked by its version or fits by itself. -/
theorem billed_ranges_iff {bills : List Billed} (found : s.loadSQLChainObject id = some so)
    (new : so.lastUpdatedHeight = 0) (run : Billing env id s bills s') :
    FollowOn 0 bills ↔ ∀ b ∈ bills, so.gasPrice ≠ 0 ∧ (0 < b.header.version ∨
        b.header.rangeFrom = b.before ∧ b.before < b.header.rangeTo) :=
  new ▸ run.followOn_iff found

end

namespace Sample

def ranged (nonce : AccountNonce) (rangeFrom rangeTo : Nat) (version : Int) :
    SignedTx UpdateBillingHeader :=
  let header : UpdateBillingHeader := ⟨102, nonce, [], rangeFrom, rangeTo, version⟩
  ⟨header, ⟨transactionTypeUpdateBilling, 0⟩, sign 3 (.updateBilling header)⟩

noncomputable def charged (s : MetaState) (bill : SignedTx UpdateBillingHeader) : MetaState :=
  Program.after (administer (.updateBilling bill)) s

def heightOf (s : MetaState) : Option Nat :=
  (s.loadSQLChainObject (databaseID 102)).map SQLChainProfile.lastUpdatedHeight

lemma charged_billing {s s' bills before after} (bill) (target : bill.header.receiver = 102)
    (ran : administer (.updateBilling bill) s = .ok (.ok (), charged s bill))
    (found : heightOf s = some before) (raised : heightOf (charged s bill) = some after)
    (rest : Billing Sample.env (databaseID 102) (charged s bill) bills s') :
    Billing Sample.env (databaseID 102) s (⟨bill.header, before, after⟩ :: bills) s' := by
  obtain ⟨so, loaded, rfl⟩ := Option.map_eq_some_iff.mp found
  obtain ⟨so', stored, rfl⟩ := Option.map_eq_some_iff.mp raised
  exact .bill ran rfl (congrArg databaseID target) loaded stored rest

def versionedBills : List Billed :=
  [⟨(ranged 2 0 5 1).header, 0, 5⟩, ⟨(ranged 3 5 9 1).header, 5, 9⟩]

def repeatedBills : List Billed :=
  [⟨(ranged 2 0 5 0).header, 0, 5⟩, ⟨(ranged 3 0 5 0).header, 5, 5⟩,
    ⟨(ranged 4 1 2 0).header, 5, 2⟩]

end Sample

open Sample in
theorem billed_ranges_iff_versioned :
    ∃ s' so, hosted.loadSQLChainObject (databaseID 102) = some so ∧ so.lastUpdatedHeight = 0 ∧
      Billing Sample.env (databaseID 102) hosted versionedBills s' ∧
      FollowOn 0 versionedBills := by
  have run : Billing Sample.env (databaseID 102) hosted versionedBills _ :=
    charged_billing (ranged 2 0 5 1) rfl rfl rfl rfl
      (charged_billing (ranged 3 5 9 1) rfl rfl rfl rfl .done)
  have found : hosted.loadSQLChainObject (databaseID 102) = some _ := rfl
  exact ⟨_, _, found, rfl, run, (billed_ranges_iff found rfl run).mpr (by decide)⟩

open Sample in
/-- Two transactions of version 0 bill the heights from 0 to 5, and a third one goes back. -/
theorem billed_ranges_twice : ∃ s', Billing Sample.env (databaseID 102) hosted repeatedBills s' ∧
      ¬ FollowOn 0 repeatedBills := by
  refine ⟨_, charged_billing (ranged 2 0 5 0) rfl rfl rfl rfl
    (charged_billing (ranged 3 0 5 0) rfl rfl rfl rfl
      (charged_billing (ranged 4 1 2 0) rfl rfl rfl rfl .done)), ?_⟩
  rintro ⟨-, -, -, again, -⟩
  cases again

end SQLess.BlockProducer
