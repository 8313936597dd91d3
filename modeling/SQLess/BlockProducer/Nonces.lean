import SQLess.BlockProducer.Production

/-! Nonces along sequences of applied transactions. -/

namespace SQLess.BlockProducer

open Lib List FiniteMap MetaIndex Option

variable {index index' : MetaIndex} {k : AccountAddress} {tx : Transaction}

def lastNonce : AccountNonce := 0xffffffff

def databaseAccount (env : Env) (create : CreateDatabaseHeader) : AccountAddress :=
  (fromAccountAndNonce env create.owner create.nonce).accountAddress

def KeepsNonces (env : Env) (tx : Transaction) (index : MetaIndex) : Prop :=
  tx.getAccountNonce ≠ lastNonce ∧
    match tx.unwrap with
    | .baseAccount account _ =>
      index.accounts.get account.address = none → account.nextNonce ≠ lastNonce
    | .createDatabase create =>
      ∀ o, index.accounts.get (databaseAccount env create.header) = some o → o.nextNonce = 0
    | _ => True

def NoncesKept (env : Env) : Orders → List (Transaction × Nat) → MetaState → Prop
  | _, [], _ => True
  | orders, (tx, height) :: rest, s =>
    KeepsNonces env tx s.view ∧ ∀ s', apply env (orders 0) tx height s = .ok (.ok (), s') →
      NoncesKept env (orders.drop 1) rest s'

def SameNonces (index index' : MetaIndex) : Prop :=
  ∀ k o, index.accounts.get k = some o →
    ∃ o', index'.accounts.get k = some o' ∧ o'.nextNonce = o.nextNonce

lemma SameNonces.refl (index) : SameNonces index index :=
  fun _ o found => ⟨o, found, rfl⟩

lemma SameNonces.trans (first : SameNonces index middle)
    (second : SameNonces middle index') : SameNonces index index' := by
  intro k o found
  obtain ⟨between, foundBetween, same⟩ := first k o found
  obtain ⟨o', found', same'⟩ := second k between foundBetween
  exact ⟨o', found', same'.trans same⟩

lemma sameNonces_setAccount
    (same : ∀ o, index.accounts.get k = some o → account.nextNonce = o.nextNonce) :
    SameNonces index (index.setAccount k account) := by
  intro query o found
  by_cases equal : query = k
  · rw [equal] at found ⊢
    exact ⟨account, by simp [setAccount], same o found⟩
  · exact ⟨o, by simp [setAccount, equal, found], rfl⟩

lemma Adjusted.sameNonces
    (adjusted : Adjusted change k amount token index index') : SameNonces index index' := by
  obtain ⟨account, balance, found, -, rfl⟩ := adjusted
  apply sameNonces_setAccount
  intro o found'
  rw [found, some.injEq] at found'
  rw [← found']
  rfl

lemma storeProfile_sameNonces
    (unused : ∀ o, index.accounts.get profile.address = some o → o.nextNonce = 0) :
    SameNonces index (index.storeProfile profile) := by
  have stored : SameNonces index (index.setAccount profile.address
      (Account.new profile.address)) := by
    apply sameNonces_setAccount
    intro o found
    rw [unused o found]
    rfl
  intro k o found
  rw [MetaIndex.storeProfile, deleteProviders_accounts]
  exact stored k o found

section

variable {env : Env} {order : MinerOrder} {height : Nat}

lemma Ledger.sameNonces
    (step : Ledger env order height tx index index') (keeps : KeepsNonces env tx index) :
    SameNonces index index' := by
  induction step with
  | topUp signer database sameToken payer =>
    apply sameNonces_setAccount
    intro o found
    rw [← some.inj (payer.symm.trans found)]
    rfl
  | @move tx index so ro token sb rb signer absent different payer payee =>
    have sender : SameNonces index
        (index.setAccount tx.header.sender (Account.withBalance so token sb)) := by
      apply sameNonces_setAccount
      intro o found
      rw [← some.inj (payer.symm.trans found)]
      rfl
    apply sender.trans
    apply sameNonces_setAccount
    intro o found
    simp only [setAccount, get_insert, if_neg different.symm] at found
    rw [found, getD_some] at payee
    rw [payee]
    rfl
  | create absent =>
    apply sameNonces_setAccount
    intro o found
    simp [absent] at found
  | fund present =>
    apply sameNonces_setAccount
    intro o found
    rw [← some.inj (present.symm.trans found)]
  | provide signer refunded adjusted =>
    have charged := adjusted.sameNonces
    cases refunded with
    | kept => exact charged
    | paid fixed registered added => exact added.sameNonces.trans charged
  | database signer priced staffed advanced selected cost supported adjusted =>
    apply adjusted.sameNonces.trans
    apply storeProfile_sameNonces
    intro o found
    -- the owner, who is charged before, may be the account that is replaced
    obtain ⟨account, balance, owner, -, rfl⟩ := adjusted
    simp only [setAccount, get_insert] at found
    split at found
    · rename_i same
      rw [← some.inj found]
      rw [← same] at owner
      exact keeps.2 account owner
    · exact keeps.2 o found
  | wrapper step ih => exact ih keeps
  | _ => exact .refl _

lemma Ledger.created (step : Ledger env order height tx index index')
    (absent : index.accounts.get (tx.getAccountAddress env) = none)
    (found : index'.accounts.get (tx.getAccountAddress env) = some account) :
    ∃ mixin, tx.unwrap = .baseAccount account mixin ∧
      account.address = tx.getAccountAddress env := by
  induction step with
  | topUp _ _ _ payer | move _ _ _ payer => simp [Transaction.getAccountAddress, payer] at absent
  | @create base mixin =>
    simp only [Transaction.getAccountAddress, setAccount, get_insert,
      if_true, some.injEq] at found
    exact ⟨mixin, by rw [found]; rfl, by rw [found]; rfl⟩
  | fund present => simp [Transaction.getAccountAddress, present] at absent
  | provide signer refunded adjusted =>
    obtain ⟨charged, balance, sender, -, -⟩ := adjusted
    rw [Transaction.getAccountAddress, signeeAddress_ok signer] at absent
    cases refunded with
    | kept => simp [absent] at sender
    | paid fixed registered added =>
      obtain ⟨refunded, sum, earlier, -, -⟩ := added
      simp [absent] at earlier
  | database signer _ _ _ _ _ _ adjusted =>
    obtain ⟨charged, balance, owner, -, -⟩ := adjusted
    rw [Transaction.getAccountAddress, signeeAddress_ok signer] at absent
    simp [absent] at owner
  | wrapper step ih => exact ih absent found
  | _ => exact absurd (absent.symm.trans found) (by simp)

lemma lt_add_one_of_ne_last (other : nonce ≠ lastNonce) : nonce < nonce + 1 := by
  have bound := nonce.toNat_lt
  have notLast : nonce.toNat ≠ 0xffffffff := by
    intro same
    exact other (UInt32.toNat_inj.mp same)
  rw [UInt32.lt_iff_toNat_lt, UInt32.toNat_add]
  simp only [UInt32.toNat_one]
  omega

def NoncesGrow (index index' : MetaIndex) : Prop :=
  ∀ k o, index.accounts.get k = some o →
    ∃ o', index'.accounts.get k = some o' ∧ o.nextNonce ≤ o'.nextNonce

lemma NoncesGrow.refl (index) : NoncesGrow index index :=
  fun _ o found => ⟨o, found, UInt32.le_refl _⟩

lemma NoncesGrow.trans (first : NoncesGrow index middle)
    (second : NoncesGrow middle index') : NoncesGrow index index' := by
  intro k o found
  obtain ⟨between, foundBetween, below⟩ := first k o found
  obtain ⟨o', found', below'⟩ := second k between foundBetween
  exact ⟨o', found', UInt32.le_trans below below'⟩

lemma Applied.nonces
    (applied : Applied env order height tx index index') (keeps : KeepsNonces env tx index) :
    NoncesGrow index index' ∧ ∃ o', index'.accounts.get (tx.getAccountAddress env) = some o' ∧
        tx.getAccountNonce < o'.nextNonce := by
  obtain ⟨expected, step, found⟩ := applied
  rename_i middle account
  have same := step.sameNonces keeps
  have used : tx.getAccountNonce < account.nextNonce + 1 ∧
      ∀ o, index.accounts.get (tx.getAccountAddress env) = some o →
        o.nextNonce = tx.getAccountNonce := by
    rcases expected with ⟨o, present, next⟩ | ⟨absent, -, first⟩
    · obtain ⟨o', present', kept⟩ := same _ o present
      rw [found, some.injEq] at present'
      rw [present', kept, next]
      refine ⟨lt_add_one_of_ne_last keeps.1, ?_⟩
      intro other presentToo
      rw [← some.inj (present.symm.trans presentToo)]
      exact next
    · obtain ⟨mixin, base, address⟩ := step.created absent found
      have limited := keeps.2
      simp only [base] at limited
      have below := lt_add_one_of_ne_last (limited (address ▸ absent))
      rw [first]
      refine ⟨UInt32.lt_of_le_of_lt (UInt32.zero_le) below, ?_⟩
      intro o present
      simp [absent] at present
  have after : (middle.setAccount (tx.getAccountAddress env)
      { account with nextNonce := account.nextNonce + 1 }).accounts.get (tx.getAccountAddress env) =
      some { account with nextNonce := account.nextNonce + 1 } := by
    simp [setAccount]
  refine ⟨?_, _, after, used.1⟩
  intro k o present
  by_cases own : k = tx.getAccountAddress env
  · rw [own] at present ⊢
    refine ⟨_, after, ?_⟩
    rw [used.2 o present]
    exact UInt32.le_of_lt used.1
  · obtain ⟨o', present', kept⟩ := same k o present
    exact ⟨o', by simp [setAccount, own, present'], kept ▸ UInt32.le_refl _⟩

variable {orders : Orders} {s s' : MetaState}

lemma Applied.next_nonce (applied : Applied env order height tx index index')
    (present : index.accounts.get (tx.getAccountAddress env) = some o) :
    o.nextNonce = tx.getAccountNonce := by
  obtain ⟨expected, -, -⟩ := applied
  rcases expected with ⟨account, found, next⟩ | ⟨absent, -⟩
  · rw [← some.inj (found.symm.trans present)]
    exact next
  · simp [absent] at present

variable {txs : List (Transaction × Nat)}

section

variable (kept : NoncesKept env orders txs s)
include kept

lemma applyIrreversible_noncesGrow (ran : applyIrreversible env orders txs s = .ok s') :
    NoncesGrow s.view s'.view := by
  induction txs generalizing orders s with
  | nil =>
    rw [← Except.ok.inj ran]
    exact .refl _
  | cons entry rest ih =>
    obtain ⟨tx, height⟩ := entry
    obtain ⟨between, applied, later⟩ := applyIrreversible_cons.mp ran
    exact ((apply_applied applied).nonces kept.1).1.trans (ih (kept.2 between applied) later)

lemma applyIrreversible_nonce_le (ran : applyIrreversible env orders txs s = .ok s')
    (present : s.view.accounts.get k = some o) :
    ∀ entry ∈ txs, entry.1.getAccountAddress env = k → o.nextNonce ≤ entry.1.getAccountNonce := by
  induction txs generalizing orders s o with
  | nil => simp
  | cons entry rest ih =>
    obtain ⟨tx, height⟩ := entry
    obtain ⟨between, applied, later⟩ := applyIrreversible_cons.mp ran
    have step := apply_applied applied
    obtain ⟨o', present', below⟩ := (step.nonces kept.1).1 k o present
    intro entry member address
    rcases mem_cons.mp member with rfl | member
    · rw [← address] at present
      exact step.next_nonce present ▸ UInt32.le_refl _
    · exact UInt32.le_trans below (ih (kept.2 between applied) later present' entry member address)

lemma applyIrreversible_nodup (ran : applyIrreversible env orders txs s = .ok s') :
    (txs.map fun entry => (entry.1.getAccountAddress env, entry.1.getAccountNonce)).Nodup := by
  induction txs generalizing orders s with
  | nil => exact nodup_nil
  | cons entry rest ih =>
    obtain ⟨tx, height⟩ := entry
    obtain ⟨between, applied, later⟩ := applyIrreversible_cons.mp ran
    obtain ⟨o', present', used⟩ := ((apply_applied applied).nonces kept.1).2
    rw [map_cons, nodup_cons]
    refine ⟨?_, ih (kept.2 between applied) later⟩
    intro member
    obtain ⟨entry, listed, same⟩ := mem_map.mp member
    rw [Prod.mk.injEq] at same
    have above := applyIrreversible_nonce_le (kept.2 between applied) later present' entry
      listed same.1
    rw [same.2] at above
    exact UInt32.lt_irrefl _ (UInt32.lt_of_lt_of_le used above)

end

lemma NoncesKept.after (kept : NoncesKept env orders (first ++ second) s)
    (ran : applyIrreversible env orders first s = .ok between) :
    NoncesKept env (orders.drop first.length) second between := by
  induction first generalizing orders s with
  | nil =>
    rw [← Except.ok.inj ran]
    exact kept
  | cons entry rest ih =>
    obtain ⟨tx, height⟩ := entry
    obtain ⟨middle, applied, later⟩ := applyIrreversible_cons.mp ran
    have remaining := ih (kept.2 middle applied) later
    rw [Orders.drop_drop, Nat.add_comm] at remaining
    exact remaining

/-- In calls of `apply` that succeed and keep the nonces, no two transactions have one account and
one nonce, and no next nonce decreases. -/
theorem applied_not_replayed
    (kept : NoncesKept env orders txs s) (ran : applyIrreversible env orders txs s = .ok s') :
    (txs.map fun entry => (entry.1.getAccountAddress env, entry.1.getAccountNonce)).Nodup ∧
      ∀ first second between, txs = first ++ second →
        applyIrreversible env orders first s = .ok between →
        ∀ k o, between.view.accounts.get k = some o →
          ∃ o', s'.view.accounts.get k = some o' ∧ o.nextNonce ≤ o'.nextNonce := by
  refine ⟨applyIrreversible_nodup kept ran, ?_⟩
  intro first second between split reached
  subst split
  obtain ⟨middle, ran', later⟩ := applyIrreversible_append.mp ran
  obtain rfl := Except.ok.inj (reached.symm.trans ran')
  exact applyIrreversible_noncesGrow (kept.after reached) later

end

namespace Sample

def recurring : Transaction :=
  .baseAccount ⟨5, ⟨10, 0⟩, lastNonce⟩ ⟨transactionTypeBaseAccount, 0⟩

def sign (key : Nat) (header : TxHeader) : HashSignVerifier :=
  let hash : Hash := BitVec.ofNat 256 (txCode header)
  ⟨hash, some ⟨key, 0⟩, some ⟨key, hash.toNat⟩⟩

def provide (key : Nat) (nonce : AccountNonce) : Transaction :=
  let header : ProvideServiceHeader := ⟨1, 1, .zero, [], 1, 0, "miner", nonce⟩
  .provideService ⟨header, ⟨transactionTypeProvideService, 0⟩, sign key (.provideService header)⟩

def createDatabase (key : Nat) (miner : AccountAddress) (nonce : AccountNonce) : Transaction :=
  let header : CreateDatabaseHeader :=
    ⟨BitVec.ofNat 256 key, ⟨[miner], 1, 1, 1, .zero, "", false, .zero, 0⟩, 1, 10, 0, nonce⟩
  .createDatabase ⟨header, ⟨transactionTypeCreateDatabase, 0⟩, sign key (.createDatabase header)⟩

noncomputable def replay (txs : List Transaction) : Except Halt MetaState :=
  applyIrreversible env choice.branchOrders (txs.map fun tx => (tx, 0)) .new

def ended : Except Halt MetaState → Option MetaState
  | .ok s => some s
  | .error _ => none

end Sample

open Sample in
theorem applied_not_replayed_payments : ∃ s', applyIrreversible Sample.env choice.branchOrders
        [(founder 1 100, 0), (pay 1 2 1 10, 0), (pay 1 2 2 10, 0)] .new = .ok s' ∧
      ([founder 1 100, pay 1 2 1 10, pay 1 2 2 10].map fun tx =>
        (tx.getAccountAddress Sample.env, tx.getAccountNonce)).Nodup := by
  have payment : ∀ {nonce amount index}, nonce ≠ lastNonce →
      KeepsNonces Sample.env (pay 1 2 nonce amount) index := fun other => ⟨other, trivial⟩
  have kept : NoncesKept Sample.env choice.branchOrders
      [(founder 1 100, 0), (pay 1 2 1 10, 0), (pay 1 2 2 10, 0)] .new :=
    ⟨⟨by decide, fun _ => by decide⟩, fun _ _ => ⟨payment (by decide), fun _ _ =>
      ⟨payment (by decide), fun _ _ => trivial⟩⟩⟩
  exact ⟨_, rfl, (applied_not_replayed kept rfl).1⟩

open Sample in
/-- A base account transaction is applied twice. -/
theorem applied_replayed : (∃ s', applyIrreversible Sample.env choice.branchOrders
        [(recurring, 0), (recurring, 0)] .new = .ok s' ∧
      (s'.view.accounts.get 5).map (fun o => o.tokenBalance.particle) = some 20) ∧
    ∃ between last, applyIrreversible Sample.env choice.branchOrders
        [(founder 1 1000, 0), (founder 3 1000, 0), (founder 102 5, 0), (provide 3 1, 0)] .new =
          .ok between ∧
      (between.view.accounts.get 102).map Account.nextNonce = some 1 ∧
      applyIrreversible Sample.env choice.branchOrders
        [(createDatabase 1 3 1, 0), (founder 102 5, 0)] between = .ok last ∧
      (last.view.databases.get (fromAccountAndNonce Sample.env 1 1)).isSome = true := by
  refine ⟨⟨_, rfl, ?_⟩, _, _, rfl, ?_, rfl, ?_⟩
  all_goals decide

end SQLess.BlockProducer
