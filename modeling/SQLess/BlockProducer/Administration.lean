import SQLess.BlockProducer.Permission

/-! The administration of a database by its users. -/

namespace SQLess.BlockProducer

open Lib List MetaState Option

structure Administered (users : List SQLChainUser) : Prop where
  distinct : (users.map SQLChainUser.address).Nodup
  governed : ∃ user ∈ users, UserPermission.hasSuperPermission user.permission = true

def SQLChainUser.access (user : SQLChainUser) : AccountAddress × Option UserPermission :=
  (user.address, user.permission)

lemma Administered.of_access (administered : Administered users)
    (same : users'.map SQLChainUser.access = users.map SQLChainUser.access) :
    Administered users' := by
  have addresses : users'.map SQLChainUser.address = users.map SQLChainUser.address := by
    have projected := congrArg (List.map Prod.fst) same
    simpa [SQLChainUser.access, Function.comp_def] using projected
  refine ⟨addresses ▸ administered.distinct, ?_⟩
  obtain ⟨user, member, allowed⟩ := administered.governed
  have listed : SQLChainUser.access user ∈ users'.map SQLChainUser.access :=
    same ▸ mem_map_of_mem member
  obtain ⟨user', member', equal⟩ := mem_map.mp listed
  have permission : user'.permission = user.permission := congrArg Prod.snd equal
  exact ⟨user', member', permission ▸ allowed⟩

lemma scanUsers_ok
    (scan : scanUsers sender target users index supers found = .ok scanned) : scanned.1 = supers +
        users.countP (fun user => UserPermission.hasSuperPermission user.permission) ∧
      ((scanned.2 = found ∧ ∀ user ∈ users, user.address ≠ target) ∨
        ∃ position user, scanned.2 = some (index + position) ∧ users[position]? = some user ∧
          user.address = target) := by
  induction users generalizing index supers found with
  | nil =>
    simp only [scanUsers] at scan
    cases scan
    exact ⟨rfl, .inl ⟨rfl, by simp⟩⟩
  | cons first rest ih =>
    simp only [scanUsers] at scan
    split at scan
    · simp at scan
    · obtain ⟨count, located⟩ := ih scan
      refine ⟨?_, ?_⟩
      · rw [count, countP_cons]
        split <;> omega
      · rcases located with ⟨unchanged, absent⟩ | ⟨position, user, placed, listed, address⟩
        · by_cases here : target = first.address
          · rw [if_pos here] at unchanged
            exact .inr ⟨0, first, unchanged, rfl, here.symm⟩
          · rw [if_neg here] at unchanged
            refine .inl ⟨unchanged, ?_⟩
            intro user member
            rcases mem_cons.mp member with rfl | later
            · exact Ne.symm here
            · exact absent user later
        · refine .inr ⟨position + 1, user, ?_, listed, address⟩
          rw [placed]
          congr 1
          omega

lemma exists_other_of_countP {list : List α} (two : 2 ≤ list.countP holds) (index : Nat) :
    ∃ other value, other ≠ index ∧ list[other]? = some value ∧ holds value = true := by
  induction list generalizing index with
  | nil => simp at two
  | cons first rest ih =>
    rw [countP_cons] at two
    cases index with
    | zero =>
      have remaining : 0 < rest.countP holds := by
        split at two <;> omega
      obtain ⟨value, member, accepted⟩ := countP_pos_iff.mp remaining
      obtain ⟨other, placed⟩ := mem_iff_getElem?.mp member
      exact ⟨other + 1, value, by omega, placed, accepted⟩
    | succ index =>
      by_cases accepted : holds first = true
      · exact ⟨0, first, by omega, rfl, accepted⟩
      · rw [if_neg accepted] at two
        obtain ⟨other, value, different, placed, held⟩ := ih two index
        exact ⟨other + 1, value, by omega, placed, held⟩

lemma setPermission_addresses (header users position) :
    (setPermission header users (some position)).map SQLChainUser.address =
      users.map SQLChainUser.address := by
  apply ext_getElem?
  intro index
  simp only [setPermission, List.getElem?_map, List.getElem?_modify]
  cases users[index]? with
  | none => rfl
  | some =>
    by_cases same : position = index <;> simp [same]

lemma setPermission_administered
    (administered : Administered users) (listed : ∃ user ∈ users, user.address = sender)
    (scan : scanUsers sender header.targetUser users 0 0 none = .ok scanned)
    (superLeft : ¬(scanned.1 ≤ 1 ∧ header.targetUser = sender ∧
      ¬UserPermission.hasSuperPermission header.permission)) :
    Administered (setPermission header users scanned.2) := by
  obtain ⟨count, located⟩ := scanUsers_ok scan
  rcases located with ⟨unlisted, absent⟩ | ⟨position, user, placed, present, address⟩
  · -- a new user is appended
    rw [unlisted]
    refine ⟨?_, ?_⟩
    · simp only [setPermission, map_append, map_cons, map_nil]
      rw [← concat_eq_append, nodup_concat]
      refine ⟨?_, administered.distinct⟩
      intro member
      obtain ⟨user, member, address⟩ := mem_map.mp member
      exact absent user member address
    · obtain ⟨user, member, allowed⟩ := administered.governed
      exact ⟨user, mem_append_left _ member, allowed⟩
  · rw [Nat.zero_add] at placed
    rw [placed]
    refine ⟨by rw [setPermission_addresses]; exact administered.distinct, ?_⟩
    -- an entry at another position stays as it is
    have stays : ∀ {other entry}, other ≠ position → users[other]? = some entry →
        entry ∈ setPermission header users (some position) := by
      intro other entry different found
      refine mem_iff_getElem?.mpr ⟨other, ?_⟩
      simp [setPermission, found, Ne.symm different]
    by_cases own : header.targetUser = sender
    · by_cases promoted : UserPermission.hasSuperPermission header.permission = true
      · refine ⟨{ user with permission := header.permission }, ?_, promoted⟩
        refine mem_iff_getElem?.mpr ⟨position, ?_⟩
        simp [setPermission, present]
      · have two : 2 ≤ users.countP fun user =>
            UserPermission.hasSuperPermission user.permission := by
          by_contra few
          exact superLeft ⟨by omega, own, promoted⟩
        obtain ⟨other, entry, different, found, allowed⟩ := exists_other_of_countP two position
        exact ⟨entry, stays different found, allowed⟩
    · obtain ⟨entry, member, sent⟩ := listed
      obtain ⟨other, found⟩ := mem_iff_getElem?.mp member
      have different : other ≠ position := by
        rintro rfl
        rw [present, Option.some.injEq] at found
        exact own (address.symm.trans (found ▸ sent))
      exact ⟨entry, stays different found, scanUsers_super scan entry member sent⟩

lemma depositAmount_access (deposited : depositAmount minDep amount user = .ok user') :
    SQLChainUser.access user' = SQLChainUser.access user := by
  simp only [depositAmount] at deposited
  split at deposited
  · split at deposited
    · simp only [Except.map] at deposited
      cases deposited
      split <;> rfl
    · simp only [Except.map] at deposited
      cases deposited
      split <;> rfl
  · cases added : safeAdd user.advancePayment amount with
    | error => simp [added, Except.map] at deposited
    | ok =>
      simp only [added, Except.map] at deposited
      cases deposited
      split <;> rfl

lemma topUp_access (listed : sqlchain.users[position]? = some user)
    (topped : topUp env sqlchain position user amount = .ok sqlchain') :
    sqlchain'.users.map SQLChainUser.access = sqlchain.users.map SQLChainUser.access := by
  obtain ⟨-, user', deposited, rfl⟩ := topUp_ok topped
  have own : SQLChainUser.access user' = SQLChainUser.access user := by
    rw [depositAmount_access deposited, SQLChainUser.settled]
    split <;> rfl
  apply ext_getElem?
  intro index
  simp only [List.getElem?_map, List.getElem?_set]
  by_cases same : position = index
  · subst same
    have inside := (List.getElem?_eq_some_iff.mp listed).1
    rw [if_pos rfl, if_pos inside, listed, map_some, map_some, own]
  · simp [same]

lemma billUsers_access (gasPrice costs users miners) :
    (billUsers env gasPrice costs users miners).1.map SQLChainUser.access =
      users.map SQLChainUser.access := by
  induction users generalizing miners with
  | nil => rfl
  | cons user rest ih =>
    have own : SQLChainUser.access (billUser env gasPrice costs user miners).1 =
        SQLChainUser.access user := by
      simp only [billUser]
      split <;> rfl
    simp only [billUsers, map_cons, ih, own]

section

variable {env : Env} {order : MinerOrder} {height : Nat} {id : DatabaseID}

lemma ProfileChange.administered (change : ProfileChange env id so tx so')
    (administered : Administered so.users)
    (byUser : ∀ permit, tx = .updatePermission permit → databaseID permit.header.targetSQLChain =
      id → ListedUser so (signeeAddress env permit.verifier.signee)) : Administered so'.users := by
  cases change with
  | kept => exact administered
  | toppedUp _ _ listed topped => exact administered.of_access (topUp_access listed topped)
  | @permitted permit sender scanned target signer scan superLeft =>
    have listed := byUser permit rfl target
    rw [signeeAddress_ok signer] at listed
    exact setPermission_administered administered listed scan superLeft
  | billed _ _ _ billed =>
    have kept := congrArg (fun result => result.1.map SQLChainUser.access) billed
    simp only [billUsers_access] at kept
    exact administered.of_access kept.symm

/-- The state changes by a commit or by a transaction that succeeds; permissions of the database
are changed by users that it lists at the time. -/
inductive Administering (env : Env) (id : DatabaseID) : MetaState → MetaState → Prop
  | apply {s s' order height tx}
      (byUser : ∀ permit so, Transaction.unwrap tx = .updatePermission permit →
        databaseID permit.header.targetSQLChain = id → s.loadSQLChainObject id = some so →
          ListedUser so (signeeAddress env permit.verifier.signee))
      (ran : apply env order tx height s = .ok (.ok (), s')) : Administering env id s s'
  | commit {s} : Administering env id s s.commit

lemma Administering.administered (step : Administering env id s s')
    (found : s.loadSQLChainObject id = some so) (administered : Administered so.users) :
    ∃ so', s'.loadSQLChainObject id = some so' ∧ Administered so'.users := by
  rw [← s'.view_databases_get]
  cases step with
  | apply byUser ran =>
    rw [← s.view_databases_get] at found
    obtain ⟨so', found', change⟩ := (apply_applied ran).profile found
    rw [s.view_databases_get] at found
    exact ⟨so', found', change.administered administered
      fun permit kind target => byUser permit so kind target found⟩
  | commit =>
    rw [MetaState.commit, view_clean, s.view_databases_get]
    exact ⟨so, found, administered⟩

lemma createDatabase_administered
    (created : apply env order (.createDatabase tx) height s = .ok (.ok (), s'))
    (fresh : s.loadSQLChainObject id = none) (found : s'.loadSQLChainObject id = some so) :
    Administered so.users := by
  rw [← s.view_databases_get] at fresh
  rw [← s'.view_databases_get] at found
  obtain ⟨middle, account, -, step, -, same⟩ := (apply_applied created).inv
  rw [same] at found
  generalize s.view = index at fresh step
  cases step with
  | unmatched => exact absurd (fresh.symm.trans found) (by simp)
  | database _ _ _ _ _ _ _ adjusted =>
    obtain ⟨payer, balance, -, -, rfl⟩ := adjusted
    simp only [MetaIndex.setAccount, MetaIndex.storeProfile, deleteProviders_databases,
      MetaIndex.setDatabase, FiniteMap.get_insert] at found
    split at found
    · rw [← Option.some.inj found]
      exact ⟨nodup_singleton _, _, mem_singleton_self _, rfl⟩
    · exact absurd (fresh.symm.trans found) (by simp)

/-- A database keeps an administrator and lists nobody twice, if its permissions are changed by its
users only. -/
theorem created_stays_administered {s start s' : MetaState} {tx : SignedTx CreateDatabaseHeader}
    (created : apply env order (.createDatabase tx) height s = .ok (.ok (), start))
    (fresh : s.loadSQLChainObject id = none) (stored : start.loadSQLChainObject id ≠ none)
    (run : Relation.ReflTransGen (Administering env id) start s') :
    ∃ so, s'.loadSQLChainObject id = some so ∧ Administered so.users := by
  induction run with
  | refl =>
    obtain ⟨so, found⟩ := ne_none_iff_exists'.mp stored
    exact ⟨so, found, createDatabase_administered created fresh found⟩
  | tail _ step ih =>
    obtain ⟨so, found, administered⟩ := ih
    exact step.administered found administered

lemma setKeys_eq_self {keys miners} : setKeys keys miners = miners ↔ ∀ miner ∈ miners, ∀ key,
      keyOf keys miner.address = some key → miner.encryptionKey = key := by
  induction miners with
  | nil => simp [setKeys]
  | cons first rest ih =>
    rw [forall_mem_cons, ← ih]
    simp only [setKeys, map_cons, List.cons.injEq]
    refine and_congr_left fun _ => ?_
    cases keyOf keys first.address with
    | none => simp
    | some =>
      simp only [Option.some.injEq, forall_eq']
      constructor
      · exact fun same => (congrArg MinerInfo.encryptionKey same).symm
      · intro same
        rw [← same]

/-- The keys are stored exactly if there is nothing to store. -/
theorem issueKeys_stored_iff {s s' : MetaState} {tx : SignedTx IssueKeysHeader}
    {so : SQLChainProfile}
    (found : s.loadSQLChainObject (databaseID tx.header.targetSQLChain) = some so)
    (ran : apply env order (.issueKeys tx) height s = .ok (.ok (), s')) :
    (s'.loadSQLChainObject (databaseID tx.header.targetSQLChain) =
          some { so with miners := setKeys tx.header.minerKeys so.miners } ∧
        s'.commit.loadSQLChainObject (databaseID tx.header.targetSQLChain) =
          some { so with miners := setKeys tx.header.minerKeys so.miners }) ↔
      ∀ miner ∈ so.miners, ∀ key, keyOf tx.header.minerKeys miner.address = some key →
        miner.encryptionKey = key := by
  have kept : s'.loadSQLChainObject (databaseID tx.header.targetSQLChain) = some so := by
    rw [← s.view_databases_get] at found
    rw [← s'.view_databases_get]
    obtain ⟨so', found', change⟩ := (apply_applied ran).profile found
    cases change with
    | kept => exact found'
  have committed : s'.commit.loadSQLChainObject (databaseID tx.header.targetSQLChain) =
      some so := by
    rw [← view_databases_get, MetaState.commit, view_clean, view_databases_get, kept]
  have unchanged : so = { so with miners := setKeys tx.header.minerKeys so.miners } ↔
      so.miners = setKeys tx.header.minerKeys so.miners := by
    constructor
    · exact congrArg SQLChainProfile.miners
    · intro same
      rw [← same]
  rw [kept, committed, Option.some.injEq, and_self, unchanged, eq_comm, setKeys_eq_self]

end

namespace Sample

noncomputable def furnished : MetaState :=
  ((ended (replay [founder 1 1000, founder 3 1000, founder 9 1000, provide 3 1]))).getD .new

def permit (key : Nat) (target : AccountAddress) (role : BitVec 32) (nonce : AccountNonce) :
    Transaction :=
  let header : UpdatePermissionHeader := ⟨102, target, some (.fromRole role), nonce⟩
  .updatePermission ⟨header, ⟨transactionTypeUpdatePermission, 0⟩,
    sign key (.updatePermission header)⟩

lemma administering_permit (key target role nonce) (read : admins s = some listed)
    (member : BitVec.ofNat 256 key ∈ listed.map Prod.fst)
    (applied : administer (permit key target role nonce) s = .ok (.ok (), s')) :
    Administering env (databaseID 102) s s' := by
  refine .apply ?_ applied
  rintro _ so ⟨⟩ _ found
  exact (mem_admins read found).mpr member

noncomputable def opened : MetaState := Program.after (administer (createDatabase 1 3 1)) furnished

noncomputable def appointed : MetaState :=
  Program.after (administer (permit 1 9 UserPermission.admin 2)) opened

end Sample

open Sample in
theorem created_stays_administered_handover :
    ∃ start s', apply Sample.env (choice.branchOrders 0) (createDatabase 1 3 1) 0 furnished =
        .ok (.ok (), start) ∧
      Relation.ReflTransGen (Administering Sample.env (databaseID 102)) start s' ∧
      admins s' = some [(1, false), (9, true)] ∧
      ∃ so, s'.loadSQLChainObject (databaseID 102) = some so ∧ Administered so.users := by
  have created : apply Sample.env (choice.branchOrders 0) (createDatabase 1 3 1) 0 furnished =
      .ok (.ok (), opened) := rfl
  have first : Administering Sample.env (databaseID 102) opened appointed :=
    administering_permit 1 9 UserPermission.admin 2
      (by decide : admins opened = some [(1, true)]) (by decide) rfl
  have second := administering_permit 9 1 UserPermission.void 1
    (by decide : admins appointed = some [(1, true), (9, true)]) (by decide) rfl
  have run := (Relation.ReflTransGen.single first).tail second
  exact ⟨_, _, created, run, by decide,
    created_stays_administered created rfl (by decide) run⟩

namespace Sample

def rekey (keys : List MinerKey) : SignedTx IssueKeysHeader :=
  let header : IssueKeysHeader := ⟨102, keys, 2⟩
  ⟨header, ⟨transactionTypeIssueKeys, 0⟩, sign 1 (.issueKeys header)⟩

def minerKeys (s : MetaState) : Option (List (AccountAddress × String)) :=
  (s.loadSQLChainObject (databaseID 102)).map fun so =>
    so.miners.map fun miner => (miner.address, miner.encryptionKey)

end Sample

open Sample in
theorem issueKeys_stored_elsewhere :
    ∃ s' so, apply Sample.env (choice.branchOrders 0) (.issueKeys (rekey [⟨5, "key"⟩])) 0 hosted =
        .ok (.ok (), s') ∧
      hosted.loadSQLChainObject (databaseID 102) = some so ∧
      s'.loadSQLChainObject (databaseID 102) =
        some { so with miners := setKeys [⟨5, "key"⟩] so.miners } := by
  have ran : apply Sample.env (choice.branchOrders 0) (.issueKeys (rekey [⟨5, "key"⟩])) 0 hosted =
      .ok (.ok (), _) := rfl
  have found : hosted.loadSQLChainObject (databaseID 102) = some _ := rfl
  refine ⟨_, _, ran, found, ((issueKeys_stored_iff found ran).mpr ?_).1⟩
  intro miner member key named
  obtain rfl := mem_singleton.mp member
  cases named

open Sample in
/-- The owner issues a key for the miner; the transaction succeeds and the key is gone. -/
theorem issueKeys_lost :
    ∃ s', apply Sample.env (choice.branchOrders 0) (.issueKeys (rekey [⟨3, "key"⟩])) 0 hosted =
        .ok (.ok (), s') ∧
      minerKeys hosted = some [(3, "")] ∧ minerKeys s' = some [(3, "")] ∧
      minerKeys s'.commit = some [(3, "")] :=
  ⟨_, rfl, by decide, by decide, by decide⟩

end SQLess.BlockProducer
