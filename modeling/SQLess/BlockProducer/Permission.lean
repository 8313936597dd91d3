import SQLess.BlockProducer.Nonces

/-! Who may administer a database. -/

namespace SQLess.BlockProducer

open Lib List

def Transaction.administers : Transaction → Option (AccountAddress × Option PublicKey)
  | .updatePermission tx => some (tx.header.targetSQLChain, tx.verifier.signee)
  | .issueKeys tx => some (tx.header.targetSQLChain, tx.verifier.signee)
  | .wrapper inner => Transaction.administers inner
  | _ => none

def ListedUser (profile : SQLChainProfile) (address : AccountAddress) : Prop :=
  ∃ user ∈ profile.users, user.address = address

def SuperUser (profile : SQLChainProfile) (address : AccountAddress) : Prop :=
  ∃ user ∈ profile.users, user.address = address ∧
    UserPermission.hasSuperPermission user.permission = true

lemma scanUsers_super (scan : scanUsers sender target users index supers found = .ok scanned) :
    ∀ user ∈ users, user.address = sender →
      UserPermission.hasSuperPermission user.permission = true := by
  induction users generalizing index supers found with
  | nil => simp
  | cons first rest ih =>
    simp only [scanUsers] at scan
    split at scan
    · simp at scan
    · rename_i passed
      intro user member address
      rcases mem_cons.mp member with rfl | member
      · by_contra denied
        exact passed ⟨address.symm, denied⟩
      · exact ih scan user member address

section

variable {env : Env} {order : MinerOrder} {height : Nat} {s s' : MetaState}

lemma apply_body (ran : apply env order tx height s = .ok (.ok (), s')) :
    ∃ middle, applyTransaction env order height tx s = .ok (.ok (), middle) := by
  obtain ⟨nonce, start, first, rest⟩ := Program.bind_eq_ok.mp ran
  obtain rfl := expectedNonce_state first
  split at rest
  · simp at rest
  · obtain ⟨middle, body, -⟩ := Program.seq_eq_ok.mp rest
    exact ⟨middle, body⟩

lemma applyTransaction_super (administers : Transaction.administers tx = some (target, signee))
    (ran : applyTransaction env order height tx s = .ok (.ok (), s')) :
    ∃ so, s.loadSQLChainObject (databaseID target) = some so ∧
      (ListedUser so (signeeAddress env signee) → SuperUser so (signeeAddress env signee)) := by
  induction tx with
  | updatePermission =>
    cases administers
    obtain ⟨sender, so, scanned, signer, database, scan, -⟩ := updatePermission_eq_ok ran
    refine ⟨so, database, ?_⟩
    rw [signeeAddress_ok signer]
    rintro ⟨user, member, address⟩
    exact ⟨user, member, address, scanUsers_super scan user member address⟩
  | issueKeys tx =>
    cases administers
    obtain ⟨-, so, database, allowed⟩ := updateKeys_eq_ok ran
    refine ⟨so, database, ?_⟩
    rintro ⟨user, member, address⟩
    -- the loop stops at the first entry of the signer
    have listed : (so.users.find? fun user =>
        signeeAddress env tx.verifier.signee = user.address).isSome = true :=
      List.find?_isSome.mpr ⟨user, member, decide_eq_true address.symm⟩
    obtain ⟨first, found⟩ := Option.isSome_iff_exists.mp listed
    have own := List.find?_some found
    rw [decide_eq_true_eq] at own
    exact ⟨first, mem_of_find?_eq_some found, own.symm, allowed first found⟩
  | wrapper inner ih => exact ih administers ran
  | _ => simp [Transaction.administers] at administers

theorem apply_superUser_iff {tx : Transaction} {target : AccountAddress}
    {signee : Option PublicKey} (administers : Transaction.administers tx = some (target, signee))
    (ran : apply env order tx height s = .ok (.ok (), s')) :
    ∃ so, s.loadSQLChainObject (databaseID target) = some so ∧
      (SuperUser so (signeeAddress env signee) ↔ ListedUser so (signeeAddress env signee)) := by
  obtain ⟨middle, body⟩ := apply_body ran
  obtain ⟨so, database, promoted⟩ := applyTransaction_super administers body
  refine ⟨so, database, ?_, promoted⟩
  rintro ⟨user, member, address, -⟩
  exact ⟨user, member, address⟩

end

namespace Sample

def promote (key : Nat) (database : AccountAddress) (nonce : AccountNonce) : Transaction :=
  let header : UpdatePermissionHeader :=
    ⟨database, BitVec.ofNat 256 key, some (.fromRole UserPermission.admin), nonce⟩
  .updatePermission ⟨header, ⟨transactionTypeUpdatePermission, 0⟩,
    sign key (.updatePermission header)⟩

def issueKeys (key : Nat) (database : AccountAddress) (nonce : AccountNonce) : Transaction :=
  let header : IssueKeysHeader := ⟨database, [⟨3, "key"⟩], nonce⟩
  .issueKeys ⟨header, ⟨transactionTypeIssueKeys, 0⟩, sign key (.issueKeys header)⟩

noncomputable def hosted : MetaState :=
  ((ended (replay [founder 1 1000, founder 3 1000, founder 9 1000, provide 3 1,
    createDatabase 1 3 1]))).getD .new

noncomputable def administer (tx : Transaction) : MetaProgram Unit :=
  apply env (choice.branchOrders 0) tx 0

def admins (s : MetaState) : Option (List (AccountAddress × Bool)) :=
  (s.loadSQLChainObject (databaseID 102)).map fun so =>
    so.users.map fun user => (user.address, UserPermission.hasSuperPermission user.permission)

lemma mem_admins (read : admins s = some listed)
    (loaded : s.loadSQLChainObject (databaseID 102) = some so) :
    ListedUser so address ↔ address ∈ listed.map Prod.fst := by
  rw [admins, loaded, Option.map_some, Option.some.injEq] at read
  rw [← read, map_map, mem_map]
  exact Iff.rfl

end Sample

open Sample in
theorem apply_superUser_owner :
    ∃ s' so, apply Sample.env (choice.branchOrders 0) (issueKeys 1 102 2) 0 hosted =
        .ok (.ok (), s') ∧
      hosted.loadSQLChainObject (databaseID 102) = some so ∧ SuperUser so 1 := by
  have applied : apply Sample.env (choice.branchOrders 0) (issueKeys 1 102 2) 0 hosted =
      .ok (.ok (), _) := rfl
  obtain ⟨so, loaded, equivalent⟩ := apply_superUser_iff rfl applied
  have read : admins hosted = some [(1, true)] := by decide
  exact ⟨_, so, applied, loaded, equivalent.mpr ((mem_admins read loaded).mpr (by decide))⟩

open Sample in
/-- An outsider issues keys, and makes itself an administrator. -/
theorem apply_outsider : admins hosted = some [(1, true)] ∧
    (∃ s', apply Sample.env (choice.branchOrders 0) (issueKeys 9 102 1) 0 hosted =
      .ok (.ok (), s')) ∧
    ∃ s', apply Sample.env (choice.branchOrders 0) (promote 9 102 1) 0 hosted = .ok (.ok (), s') ∧
      admins s' = some [(1, true), (9, true)] :=
  ⟨by decide, ⟨_, rfl⟩, _, rfl, by decide⟩

end SQLess.BlockProducer
