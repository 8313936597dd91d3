import SQLess.Lib.Refinement
import SQLess.BlockProducer.ChainRun
import SQLess.BlockProducer.Ledger
import SQLess.BlockProducer.OperationsCore

/-! The two-layer state against one plain map. -/

namespace SQLess.BlockProducer

open Lib Program List FiniteMap MetaIndex Implemented
open MetaState (loadSQLChainObject loadAccountObject lookupAccount findAccountObject
  view_accounts_get setAccountIn setReadonlyAccount)

variable {addr k receiver : AccountAddress}

namespace MetaIndex

def deleteAccount (index : MetaIndex) (k : AccountAddress) : MetaIndex :=
  { index with accounts := index.accounts.erase k }

def deleteDatabase (index : MetaIndex) (k : DatabaseID) : MetaIndex :=
  { index with databases := index.databases.erase k }

lemma ext_get {left right : MetaIndex} (accounts : ∀ k, left.accounts.get k = right.accounts.get k)
    (databases : ∀ k, left.databases.get k = right.databases.get k)
    (provider : ∀ k, left.provider.get k = right.provider.get k) : left = right := by
  cases left
  cases right
  simp only [mk.injEq]
  exact ⟨ext accounts, ext databases, ext provider⟩

end MetaIndex

structure PlainState where
  current : MetaIndex
  committed : MetaIndex

namespace PlainState

abbrev Call (α : Type) := Program PlainState Err α

def setAccount (p : PlainState) (k : AccountAddress) (v : Account) : PlainState :=
  { p with current := p.current.setAccount k v }

def setDatabase (p : PlainState) (k : DatabaseID) (v : SQLChainProfile) : PlainState :=
  { p with current := p.current.setDatabase k v }

def setProvider (p : PlainState) (k : AccountAddress) (v : ProviderProfile) : PlainState :=
  { p with current := p.current.setProvider k v }

def commit (p : PlainState) : PlainState := ⟨p.current, p.current⟩

def clean (p : PlainState) : PlainState := ⟨p.committed, p.committed⟩

def loadOrStore {V : Type} (found : Option V) (store : PlainState → PlainState) :
    Call (Option V) := do
  if found.isNone then Program.modify store
  pure found

def demand {V : Type} (found : Option V) (missing : Err) : Call V :=
  match found with
  | none => Program.fail missing
  | some o => pure o

def adjustToken (change : UInt64 → UInt64 → Except Err UInt64) (context : String)
    (k : AccountAddress) (amount : UInt64) (tokenType : TokenType) : Call Unit := do
  let p ← Program.get
  let o ← demand (p.current.accounts.get k) (.wrapped context .accountNotFound)
  let token ← Program.orPanic tokenType.token?
  let balance ← Program.orFail (change (o.tokenBalance.get token) amount)
  Program.modify (·.setAccount k (Account.withBalance o token balance))

def storeBaseAccount (k : AccountAddress) (v : Account) : Call Unit := do
  let p ← Program.get
  match p.current.accounts.get k with
  | none => Program.modify (·.setAccount k v)
  | some ao =>
    if ao.nextNonce ≠ 0 then Program.fail .accountExists
    else do
      let cb ← Program.orFail (safeAdd ao.tokenBalance.wave v.tokenBalance.wave)
      let sb ← Program.orFail (safeAdd ao.tokenBalance.particle v.tokenBalance.particle)
      Program.modify (·.setAccount k { ao with tokenBalance := ⟨sb, cb⟩ })

def moveToken (sender receiver : AccountAddress) (amount : UInt64) (tokenType : TokenType) :
    Call Unit := do
  let p ← Program.get
  let ro := (p.current.accounts.get receiver).getD (Account.new receiver)
  Program.modify (·.setAccount receiver ro)
  let so ← demand (p.current.accounts.get sender) .accountNotFound
  let token ← Program.orPanic tokenType.token?
  let sb ← Program.orFail (safeSub (so.tokenBalance.get token) amount)
  let rb ← Program.orFail (safeAdd (ro.tokenBalance.get token) amount)
  Program.modify fun p =>
    (p.setAccount sender (Account.withBalance so token sb)).setAccount receiver
      (Account.withBalance ro token rb)

def transfer (env : Env) (tx : SignedTx TransferHeader) : Call Unit :=
  match pubKeyHash env tx.verifier.signee with
  | .error error => Program.fail (.wrapped "applyTx failed" error)
  | .ok realSender =>
    if realSender ≠ tx.header.sender then
      Program.fail (.wrapped "applyTx failed" .invalidSender)
    else if tx.header.sender = tx.header.receiver ∨ tx.header.amount = 0 then pure ()
    else moveToken tx.header.sender tx.header.receiver tx.header.amount tx.header.tokenType

def createChain (addr : AccountAddress) (id : DatabaseID) : Call Unit := do
  let p ← Program.get
  if (p.current.accounts.get addr).isNone then Program.fail .accountNotFound
  else if (p.current.databases.get id).isSome then Program.fail .databaseExists
  else Program.modify (·.setDatabase id (newProfile addr id))

def updateUsers (k : DatabaseID) (change : List SQLChainUser → Call (List SQLChainUser)) :
    Call Unit := do
  let p ← Program.get
  let so ← demand (p.current.databases.get k) .databaseNotFound
  let users ← change so.users
  Program.modify (·.setDatabase k { so with users := users })

def increaseNonce (addr : AccountAddress) : Call Unit := do
  let p ← Program.get
  let o ← demand (p.current.accounts.get addr) .accountNotFound
  Program.modify (·.setAccount addr { o with nextNonce := o.nextNonce + 1 })

end PlainState

open PlainState in
def Operation.plain (env : Env) : Operation → Call Answer
  | .loadAccount k => do
    let p ← Program.get
    pure (.account (p.current.accounts.get k))
  | .loadDatabase k => do
    let p ← Program.get
    pure (.database (p.current.databases.get k))
  | .loadProvider k => do
    let p ← Program.get
    pure (.provider (p.current.provider.get k))
  | .loadBalance k tokenType => do
    let p ← Program.get
    pure (.balance (tokenType.token?.bind fun token =>
      (p.current.accounts.get k).map fun o => o.tokenBalance.get token))
  | .loadOrStoreAccount k v => do
    let p ← Program.get
    let found ← loadOrStore (p.current.accounts.get k) (·.setAccount k v)
    pure (.account found)
  | .loadOrStoreDatabase k v => do
    let p ← Program.get
    let found ← loadOrStore (p.current.databases.get k) (·.setDatabase k v)
    pure (.database found)
  | .loadOrStoreProvider k v => do
    let p ← Program.get
    let found ← loadOrStore (p.current.provider.get k) (·.setProvider k v)
    pure (.provider found)
  | .storeBaseAccount k v => silent (PlainState.storeBaseAccount k v)
  | .deleteAccount k =>
    silent (Program.modify fun p => { p with current := p.current.deleteAccount k })
  | .deleteDatabase k =>
    silent (Program.modify fun p => { p with current := p.current.deleteDatabase k })
  | .deleteProvider k =>
    silent (Program.modify fun p => { p with current := p.current.deleteProvider k })
  | .increase k amount tokenType =>
    silent (adjustToken safeAdd "increase account balance fail" k amount tokenType)
  | .decrease k amount tokenType =>
    silent (adjustToken safeSub "decrease account balance fail" k amount tokenType)
  | .transfer tx => silent (PlainState.transfer env tx)
  | .createChain addr id => silent (PlainState.createChain addr id)
  | .addUser k addr perm => silent (updateUsers k fun users =>
    Program.orFail (appendUser addr perm users))
  | .alterUser k addr perm => silent (updateUsers k fun users =>
    pure (alterUsers addr perm users))
  | .deleteUser k addr => silent (updateUsers k fun users =>
    Program.orPanic (BlockProducer.deleteUser addr users))
  | .nextNonce addr => do
    let p ← Program.get
    let o ← demand (p.current.accounts.get addr) .accountNotFound
    pure (.nonce o.nextNonce)
  | .increaseNonce addr => silent (PlainState.increaseNonce addr)
  | .commit => silent (Program.modify PlainState.commit)
  | .clean => silent (Program.modify PlainState.clean)

lemma deleteUserLoop_nil {rounds i j length users} (nil : users[j]? = some none) (later : i ≤ j)
    (reached : j < i + rounds) : deleteUserLoop addr rounds i users length = none := by
  induction rounds generalizing i users length with
  | zero => omega
  | succ rounds ih =>
    rw [deleteUserLoop]
    by_cases here : i = j
    · simp only [here, nil]
    · rcases found : users[i]? with _ | _ | v
      · rfl
      · rfl
      · by_cases matched : v.address = addr
        · by_cases inside : i < length
          · simp only [matched, inside, if_true]
            refine ih ?_ (by omega) (by omega)
            have bound : j < users.length := (List.getElem?_eq_some_iff.mp nil).1
            by_cases last : length - 1 = j
            · simp [last, bound]
            · rw [List.getElem?_set_ne last, List.getElem?_set_ne here, nil]
          · simp only [matched, inside, if_true, if_false]
        · simp only [matched, if_false]
          exact ih nil (by omega) (by omega)

lemma deleteUserLoop_skip {first : List SQLChainUser} (unmatched : ∀ u ∈ first, u.address ≠ addr)
    (rounds length before rest) :
    deleteUserLoop addr (first.length + rounds) before.length (before ++ (first.map some ++ rest))
        length = deleteUserLoop addr rounds (before.length + first.length)
        (before ++ (first.map some ++ rest)) length := by
  induction first generalizing before with
  | nil => simp
  | cons u first ih =>
    have later := ih (fun v member => unmatched v (mem_cons_of_mem u member))
      (before ++ [some u])
    have other : ¬u.address = addr := unmatched u mem_cons_self
    simp only [append_assoc, singleton_append, length_append, length_singleton] at later
    rw [length_cons, Nat.add_right_comm, deleteUserLoop, map_cons, cons_append,
      List.getElem?_append_right le_rfl, Nat.sub_self, List.getElem?_cons_zero]
    simp only [other, if_false]
    rw [later, Nat.add_assoc, Nat.add_comm 1]

lemma deleteUser_unmatched
    (unmatched : ∀ u ∈ users, u.address ≠ addr) : deleteUser addr users = some users := by
  have skipped := deleteUserLoop_skip unmatched 0 users.length [] []
  simp only [append_nil, nil_append, length_nil, Nat.add_zero] at skipped
  rw [deleteUser, skipped, deleteUserLoop]
  simp [← map_take]

lemma deleteUser_matched (unmatched : ∀ u ∈ first, u.address ≠ addr) (matched : v.address = addr) :
    deleteUser addr (first ++ v :: rest) = if rest = [] then some first else none := by
  have skipped := deleteUserLoop_skip unmatched (rest.length + 1) (first ++ v :: rest).length []
    ((v :: rest).map some)
  simp only [nil_append, length_nil, Nat.zero_add, ← map_append] at skipped
  have size : (first ++ v :: rest).length = first.length + (rest.length + 1) := by simp
  rw [deleteUser]
  nth_rewrite 1 [size]
  rw [skipped, deleteUserLoop]
  have here : ((first ++ v :: rest).map some)[first.length]? = some (some v) := by simp
  have inside : first.length < (first ++ v :: rest).length := by simp
  simp only [here, matched, inside, if_true]
  cases rest with
  | nil =>
    rw [length_nil, deleteUserLoop]
    simp
  | cons w rest =>
    -- the last element is nil now, and the loop gets to it
    rw [if_neg (cons_ne_nil w rest), Option.map_eq_none_iff]
    simp only [length_cons] at size ⊢
    refine deleteUserLoop_nil (List.getElem?_set_self ?_) (by omega) (by omega)
    simp

def MetaState.Holds (s : MetaState) (k : DatabaseID) (dst : SQLChainProfile) : Prop :=
  s.dirty.databases.get k = some (some dst) ∨
    s.dirty.databases.get k = none ∧ s.readonly.databases.get k = some dst

lemma dirtyDatabase_run {k : DatabaseID} (held : MetaState.Holds s k dst) :
    ∃ s', dirtyDatabase k s = .ok (.ok dst, s') := by
  rcases held with dirty | ⟨absent, found⟩
  · refine ⟨s, ?_⟩
    simp only [dirtyDatabase, Program.get_bind_run, dirty]
    rfl
  · refine ⟨s.setDirtyDatabase k dst, ?_⟩
    simp only [dirtyDatabase, Program.get_bind_run, absent, found]
    rfl

lemma deleteSQLChainUser_run (addr) {k : DatabaseID} (held : MetaState.Holds s k dst) :
    ∃ s' : MetaState, deleteSQLChainUser k addr s =
      match deleteUser addr dst.users with
      | some users => .ok (.ok (), s'.setDirtyDatabase k { dst with users := users })
      | none => .error .panic := by
  obtain ⟨s', loaded⟩ := dirtyDatabase_run held
  refine ⟨s', ?_⟩
  rw [deleteSQLChainUser, Program.bind_run, loaded]
  dsimp only
  cases deleteUser addr dst.users <;> rfl

lemma deleteUser_of_distinct (addr : AccountAddress)
    (distinct : (users.map (·.address)).Nodup) : deleteUser addr users =
      if ∀ v ∈ users.dropLast, v.address ≠ addr then some (users.filter (·.address ≠ addr))
      else none := by
  by_cases absent : ∀ v ∈ users, v.address ≠ addr
  · have kept : users.filter (·.address ≠ addr) = users :=
      filter_eq_self.mpr fun v member => by simpa using absent v member
    rw [deleteUser_unmatched absent, kept, if_pos]
    exact fun v member => absent v (dropLast_subset users member)
  · push Not at absent
    obtain ⟨v, member, matched⟩ := absent
    obtain ⟨first, rest, rfl⟩ := append_of_mem member
    rw [map_append, map_cons, nodup_middle, nodup_cons, mem_append, mem_map, mem_map, matched,
      not_or] at distinct
    have before : ∀ u ∈ first, u.address ≠ addr := fun u known same =>
      distinct.1.1 ⟨u, known, same⟩
    rw [deleteUser_matched before matched]
    cases rest with
    | nil =>
      have kept : first.filter (·.address ≠ addr) = first :=
        filter_eq_self.mpr fun u known => by simpa using before u known
      rw [if_pos rfl, dropLast_concat, if_pos before, filter_append, kept]
      simp [matched]
    | cons w rest =>
      have inner : v ∈ (first ++ v :: w :: rest).dropLast := by
        simp [dropLast_append_of_ne_nil]
      rw [if_neg (cons_ne_nil w rest), if_neg fun all => all v inner matched]

theorem deleteSQLChainUser_removes_iff (s : MetaState) (k : DatabaseID) (addr : AccountAddress)
    (dst : SQLChainProfile) (held : s.Holds k dst) (distinct : (dst.users.map (·.address)).Nodup) :
    (∃ s' users, deleteSQLChainUser k addr s = .ok (.ok (), s') ∧
      s'.dirty.databases.get k = some (some { dst with users := users }) ∧
      users.Perm (dst.users.filter (·.address ≠ addr))) ↔
      ∀ v ∈ dst.users.dropLast, v.address ≠ addr := by
  obtain ⟨before, ran⟩ := deleteSQLChainUser_run addr held
  rw [deleteUser_of_distinct addr distinct] at ran
  constructor
  · rintro ⟨s', users, returned, -⟩
    by_contra inner
    rw [if_neg inner, returned] at ran
    cases ran
  · intro last
    rw [if_pos last] at ran
    refine ⟨_, _, ran, ?_, .refl _⟩
    simp [MetaState.setDirtyDatabase]

def twoUsers : SQLChainProfile :=
  { newProfile 1 ⟨0⟩ with users := [newChainUser 1 none, newChainUser 2 none] }

theorem deleteSQLChainUser_removes_iff_last :
    ∃ s' users, deleteSQLChainUser ⟨0⟩ 2 (MetaState.new.setDirtyDatabase ⟨0⟩ twoUsers) =
        .ok (.ok (), s') ∧
      s'.dirty.databases.get ⟨0⟩ = some (some { twoUsers with users := users }) ∧
      users.Perm (twoUsers.users.filter (·.address ≠ 2)) :=
  (deleteSQLChainUser_removes_iff _ ⟨0⟩ 2 twoUsers (.inl rfl) (by decide)).mpr (by decide)

theorem deleteSQLChainUser_first_panics :
    deleteSQLChainUser ⟨0⟩ 1 (MetaState.new.setDirtyDatabase ⟨0⟩ twoUsers) = .error .panic := rfl

namespace MetaState

def plain (s : MetaState) : PlainState := ⟨s.view, s.readonly⟩

@[simp] lemma plain_current (s : MetaState) : s.plain.current = s.view := rfl

section

variable (s : MetaState)
include s

lemma plain_setDirtyAccount (k v) : (s.setDirtyAccount k v).plain = s.plain.setAccount k v := by
  simp only [plain, view_setDirtyAccount]
  rfl

lemma plain_setDirtyDatabase (k v) : (s.setDirtyDatabase k v).plain = s.plain.setDatabase k v := by
  simp only [plain, view_setDirtyDatabase]
  rfl

lemma plain_setDirtyProvider (k v) : (s.setDirtyProvider k v).plain = s.plain.setProvider k v := by
  simp only [plain, view_setDirtyProvider]
  rfl

lemma view_deleteAccountObject (k) : (s.deleteAccountObject k).view = s.view.deleteAccount k := by
  simp only [view, deleteAccountObject, deleteAccount, overlay_delete]

lemma view_deleteSQLChainObject (k) :
    (s.deleteSQLChainObject k).view = s.view.deleteDatabase k := by
  simp only [view, deleteSQLChainObject, deleteDatabase, overlay_delete]

lemma plain_commit : s.commit.plain = s.plain.commit := by
  simp only [plain, commit, view_clean, PlainState.commit]

lemma plain_clean : s.clean.plain = s.plain.clean := by
  simp only [plain, clean, view_clean, PlainState.clean]

end

end MetaState

def Refines {α : Type} (s : MetaState) (call : MetaProgram α) (plain : PlainState.Call α) : Prop :=
  Implemented (fun _ => True) MetaState.plain (call s) (plain s.plain)

variable {env : Env} {s : MetaState}

lemma refines_silent :
    Refines s (Operation.silent call) (Operation.silent plain) ↔ Refines s call plain := by
  unfold Refines Operation.silent
  rw [bind_run, bind_run]
  rcases call s with reason | ⟨error | ⟨⟩, after⟩ <;>
    rcases plain s.plain with reason' | ⟨error' | ⟨⟩, after'⟩ <;> simp [Implemented]

lemma refines_modify (same : (update s).plain = update' s.plain) :
    Refines s (Operation.silent (Program.modify update))
      (Operation.silent (Program.modify update')) :=
  refines_silent.mpr ⟨rfl, same, trivial⟩

lemma dirtyDatabase_copied (k s) :
    Copied .databaseNotFound s (s.dirty.databases.get k) (s.view.databases.get k)
      (dirtyDatabase k s) := by
  have loaded := s.view_databases_get k
  unfold loadSQLChainObject at loaded
  unfold dirtyDatabase
  rw [get_bind_run, loaded]
  rcases above : s.dirty.databases.get k with _ | _ | so
  · rcases below : s.readonly.databases.get k with _ | src
    · exact .absent
    · simp only [above, below] at loaded
      refine .found (by simp) ?_ rfl
      rw [MetaState.view_setDirtyDatabase, setDatabase, insert_of_get loaded]
  · exact .dead
  · exact .found (by simp) rfl rfl

lemma refines_copy {V missing entry found copy} (copied : Copied missing s entry found (copy s))
    {next : V → MetaProgram Unit} {next'}
    (change : ∀ o (s : MetaState), Refines s (next o) (next' o)) :
    Implemented (fun _ => True) MetaState.plain ((copy >>= next) s)
      ((PlainState.demand found missing >>= next') s.plain) ↔ entry ≠ some none := by
  rw [bind_run]
  generalize copy s = outcome at copied
  cases copied with
  | dead => exact ⟨fun implemented => absurd implemented not_false, fun live => absurd rfl live⟩
  | absent => exact ⟨fun _ => by simp, fun _ => ⟨rfl, rfl, trivial⟩⟩
  | @found _ o after live view base =>
    have plain : after.plain = s.plain := by rw [MetaState.plain, view, base, MetaState.plain]
    refine ⟨fun _ => live, fun _ => ?_⟩
    rw [← plain]
    exact change o after

lemma adjustAccountToken_refines (change context k amount tokenType) :
    Refines s (adjustAccountToken change context k amount tokenType)
      (PlainState.adjustToken change context k amount tokenType) ↔
    s.dirty.accounts.get k ≠ some none := by
  refine refines_copy (dirtyAccount_copied k _ s) fun o s => ?_
  refine orPanic_bind fun token _ => ?_
  refine orFail_bind trivial rfl fun balance => ?_
  exact ⟨rfl, s.plain_setDirtyAccount k _, trivial⟩

lemma increaseNonce_refines (addr) :
    Refines s (increaseNonce addr) (PlainState.increaseNonce addr) ↔
      s.dirty.accounts.get addr ≠ some none :=
  refines_copy (dirtyAccount_copied addr _ s) fun _ s =>
    ⟨rfl, s.plain_setDirtyAccount addr _, trivial⟩

lemma updateUsers_refines (k) {change : List SQLChainUser → MetaProgram (List SQLChainUser)}
    (same : ∀ users, Implements (fun _ => True) MetaState.plain (change users) (change' users)) :
    Refines s (do
        let dst ← dirtyDatabase k
        let users ← change dst.users
        Program.modify (·.setDirtyDatabase k { dst with users := users }))
      (PlainState.updateUsers k change') ↔ s.dirty.databases.get k ≠ some none := by
  refine refines_copy (dirtyDatabase_copied k s) fun so s => ?_
  refine Implements.bind (same so.users) (fun users => ?_) s trivial
  exact .modify fun s _ => ⟨trivial, s.plain_setDirtyDatabase k { so with users := users }⟩

lemma nextNonce_refines (addr) :
    Refines s (Operation.run env (.nextNonce addr)) (Operation.plain env (.nextNonce addr)) ↔
      s.dirty.accounts.get addr ≠ some none := by
  have loaded := s.view_accounts_get addr
  unfold loadAccountObject at loaded
  simp only [Refines, Operation.run, Operation.plain, get_bind_run, MetaState.plain,
    MetaState.nextNonce, lookupAccount, loaded]
  rcases s.dirty.accounts.get addr with _ | _ | o
  · rcases s.readonly.accounts.get addr with _ | src <;>
      exact ⟨fun _ => by simp, fun _ => ⟨rfl, rfl, trivial⟩⟩
  · exact ⟨fun implemented => absurd implemented not_false, fun live => absurd rfl live⟩
  · exact ⟨fun _ => by simp, fun _ => ⟨rfl, rfl, trivial⟩⟩

lemma refines_findOrStore {V found seen store store'} {answer : Option V → Answer}
    (injective : Function.Injective answer) (same : (store s).plain = store' s.plain) :
    Refines s (do
        let o ← findOrStore found store
        pure (answer o))
      (do
        let o ← PlainState.loadOrStore seen store'
        pure (answer o)) ↔ found = seen := by
  constructor
  · intro implemented
    cases found with
    | none =>
      cases seen with
      | none => rfl
      | some => exact injective (Except.ok.inj implemented.1)
    | some =>
      cases seen with
      | none | some o' => exact injective (Except.ok.inj implemented.1)
  · rintro rfl
    cases found with
    | none => exact ⟨rfl, same, trivial⟩
    | some => exact ⟨rfl, rfl, trivial⟩

lemma loadOrStoreAccountObject_run (k v) : Operation.run env (.loadOrStoreAccount k v) s = (do
        let o ← findOrStore (FiniteMap.peek s.dirty.accounts s.readonly.accounts k)
          (·.setDirtyAccount k v)
        pure (Answer.account o) : MetaProgram Answer) s := by
  simp only [Operation.run, loadOrStoreAccountObject, findAccountObject,
    peek, bind_run, get_run]
  rcases s.dirty.accounts.get k with _ | _ | o
  · cases s.readonly.accounts.get k <;> rfl
  · cases s.readonly.accounts.get k <;> rfl
  · rfl

lemma loadOrStoreAccount_refines (k v) : Refines s (Operation.run env (.loadOrStoreAccount k v))
      (Operation.plain env (.loadOrStoreAccount k v)) ↔ ¬s.Shadowed k := by
  unfold Refines
  rw [loadOrStoreAccountObject_run]
  refine Iff.trans ?_ peek_eq_overlay_iff
  exact refines_findOrStore (fun _ _ => Answer.account.inj) (s.plain_setDirtyAccount k v)

lemma loadOrStoreDatabase_refines (k v) : Refines s (Operation.run env (.loadOrStoreDatabase k v))
      (Operation.plain env (.loadOrStoreDatabase k v)) ↔
    ¬FiniteMap.Hides s.dirty.databases s.readonly.databases k := by
  refine Iff.trans ?_ peek_eq_overlay_iff
  exact refines_findOrStore (fun _ _ => Answer.database.inj) (s.plain_setDirtyDatabase k v)

lemma loadOrStoreProvider_refines (k v) : Refines s (Operation.run env (.loadOrStoreProvider k v))
      (Operation.plain env (.loadOrStoreProvider k v)) ↔
    ¬FiniteMap.Hides s.dirty.provider s.readonly.provider k := by
  refine Iff.trans ?_ peek_eq_overlay_iff
  exact refines_findOrStore (fun _ _ => Answer.provider.inj) (s.plain_setDirtyProvider k v)

lemma loadBalance_refines (k tokenType) : Refines s (Operation.run env (.loadBalance k tokenType))
      (Operation.plain env (.loadBalance k tokenType)) ↔
    (tokenType.token? ≠ none → ¬s.Shadowed k) := by
  rcases listed : tokenType.token? with _ | token
  · simp [Refines, Operation.run, Operation.plain, MetaState.loadAccountTokenBalance, listed,
      Implemented]
  · simp only [Refines, Operation.run, Operation.plain, get_bind_run, pure_run, Implemented,
      MetaState.loadAccountTokenBalance, listed, MetaState.plain, MetaState.view,
      MetaState.Shadowed, peek, get_overlay]
    rcases s.dirty.accounts.get k with _ | _ | o <;> simp

lemma newChain_refines (addr id) : Refines s
      (if (s.dirty.databases.get id).isSome ∨ (s.readonly.databases.get id).isSome then
        Program.fail .databaseExists
      else Program.modify (·.setDirtyDatabase id (newProfile addr id)))
      (if (s.view.databases.get id).isSome then Program.fail .databaseExists
      else Program.modify (·.setDatabase id (newProfile addr id))) ↔
    s.dirty.databases.get id ≠ some none := by
  have named := s.view_databases_get id
  unfold loadSQLChainObject at named
  rw [named]
  rcases s.dirty.databases.get id with _ | _ | so
  · rcases s.readonly.databases.get id with _ | src
    · exact ⟨fun _ => by simp, fun _ => ⟨rfl, s.plain_setDirtyDatabase id _, trivial⟩⟩
    · exact ⟨fun _ => by simp, fun _ => ⟨rfl, rfl, trivial⟩⟩
  · simp [Refines, Implemented]
  · simp [Refines, Implemented]

lemma createSQLChain_refines (addr id) :
    Refines s (createSQLChain addr id) (PlainState.createChain addr id) ↔
    s.dirty.accounts.get addr ≠ some none ∧
      (s.dirty.databases.get id = some none → s.view.accounts.get addr = none) := by
  have owner := s.view_accounts_get addr
  have chain := newChain_refines addr id (s := s)
  unfold loadAccountObject at owner
  unfold Refines at chain ⊢
  unfold createSQLChain PlainState.createChain
  rw [get_bind_run, get_bind_run, MetaState.plain_current, owner]
  rcases s.dirty.accounts.get addr with _ | _ | o
  · rcases s.readonly.accounts.get addr with _ | src
    · simp [Implemented]
    · simpa using chain
  · -- The code goes on where the plain call finds no account.
    by_cases taken : (s.dirty.databases.get id).isSome ∨ (s.readonly.databases.get id).isSome <;>
      simp [taken, Implemented]
  · simpa using chain

/-- The account is only in the read-only layer, unused, and its balances change there. -/
def MetaState.WritesThrough (s : MetaState) (k : AccountAddress) (v : Account) : Prop :=
  s.dirty.accounts.get k = none ∧ ∃ ao cb sb, s.readonly.accounts.get k = some ao ∧
    ao.nextNonce = 0 ∧ safeAdd ao.tokenBalance.wave v.tokenBalance.wave = .ok cb ∧
    safeAdd ao.tokenBalance.particle v.tokenBalance.particle = .ok sb ∧
    ao.tokenBalance ≠ ⟨sb, cb⟩

lemma storeBaseAccount_absent (v : Account)
    (missing : s.findAccountObject k = none) (absent : s.view.accounts.get k = none) :
    Refines s (storeBaseAccount k v) (PlainState.storeBaseAccount k v) := by
  unfold Refines storeBaseAccount loadOrStoreAccountObject PlainState.storeBaseAccount
  rw [bind_run, get_bind_run, get_bind_run, MetaState.plain_current, missing, absent]
  exact ⟨rfl, s.plain_setDirtyAccount k v, trivial⟩

lemma storeBaseAccount_present (found : s.findAccountObject k = some (layer, ao))
    (present : s.view.accounts.get k = some ao)
    (kept : ∀ cb sb, ao.nextNonce = 0 → safeAdd ao.tokenBalance.wave v.tokenBalance.wave = .ok cb →
      safeAdd ao.tokenBalance.particle v.tokenBalance.particle = .ok sb →
      (s.setAccountIn layer k { ao with tokenBalance := ⟨sb, cb⟩ }).plain =
      s.plain.setAccount k { ao with tokenBalance := ⟨sb, cb⟩ }) :
    Refines s (storeBaseAccount k v) (PlainState.storeBaseAccount k v) := by
  unfold Refines storeBaseAccount loadOrStoreAccountObject PlainState.storeBaseAccount
  rw [bind_run, get_bind_run, get_bind_run, MetaState.plain_current, found, present]
  simp only [pure_run]
  by_cases unused : ao.nextNonce = 0
  · rw [if_neg (not_not.mpr unused), if_neg (not_not.mpr unused)]
    rcases wave : safeAdd ao.tokenBalance.wave v.tokenBalance.wave with error | cb
    · exact ⟨rfl, rfl, trivial⟩
    · rcases particle : safeAdd ao.tokenBalance.particle v.tokenBalance.particle with error | sb
      · exact ⟨rfl, rfl, trivial⟩
      · exact ⟨rfl, kept cb sb unused wave particle, trivial⟩
  · rw [if_pos unused, if_pos unused]
    exact ⟨rfl, rfl, trivial⟩

lemma storeBaseAccount_readonly (above : s.dirty.accounts.get k = none)
    (below : s.readonly.accounts.get k = some ao) :
    Refines s (storeBaseAccount k v) (PlainState.storeBaseAccount k v) ↔ ¬s.WritesThrough k v := by
  have found : s.findAccountObject k = some (.readonly, ao) := by
    simp [findAccountObject, above, below]
  have present : s.view.accounts.get k = some ao := by
    simp [view_accounts_get, loadAccountObject, above, below]
  constructor
  · rintro implemented ⟨-, ao', cb, sb, below', unused, wave, particle, changed⟩
    obtain rfl : ao' = ao := Option.some.inj (below'.symm.trans below)
    have added : PlainState.storeBaseAccount k v s.plain =
        .ok (.ok (), s.plain.setAccount k { ao' with tokenBalance := ⟨sb, cb⟩ }) := by
      simp [PlainState.storeBaseAccount, present, unused, wave, particle, bind_run]
    have ran : storeBaseAccount k v s =
        .ok (.ok (), s.setReadonlyAccount k { ao' with tokenBalance := ⟨sb, cb⟩ }) := by
      simp [storeBaseAccount, loadOrStoreAccountObject, found, unused, wave, particle, bind_run,
        setAccountIn]
    obtain ⟨after, ran', plain, -⟩ := implemented.of_eq_ok added
    rw [ran, Except.ok.injEq, Prod.mk.injEq] at ran'
    have committed := congrArg (fun p => p.committed.accounts.get k) plain
    simp [← ran'.2, MetaState.plain, setReadonlyAccount, PlainState.setAccount, below]
      at committed
    exact changed (congrArg Account.tokenBalance committed).symm
  · intro restorable
    refine storeBaseAccount_present found present fun cb sb unused wave particle => ?_
    have same : ao.tokenBalance = ⟨sb, cb⟩ := by
      by_contra changed
      exact restorable ⟨above, ao, cb, sb, below, unused, wave, particle, changed⟩
    rw [← same]
    simp only [MetaState.plain, setAccountIn, setReadonlyAccount,
      insert_of_get below, PlainState.setAccount, setAccount,
      insert_of_get present]

lemma not_refines_of_shadowed (v : Account) (shadowed : s.Shadowed k) :
    ¬Refines s (storeBaseAccount k v) (PlainState.storeBaseAccount k v) := by
  intro implemented
  obtain ⟨deleted, below⟩ := shadowed
  obtain ⟨src, below⟩ := Option.ne_none_iff_exists'.mp below
  have absent : s.view.accounts.get k = none := by
    simp [view_accounts_get, loadAccountObject, deleted]
  have stored : PlainState.storeBaseAccount k v s.plain = .ok (.ok (), s.plain.setAccount k v) := by
    simp [PlainState.storeBaseAccount, absent]
  obtain ⟨after, ran, plain, -⟩ := implemented.of_eq_ok stored
  have found : s.findAccountObject k = some (.readonly, src) := by
    simp [findAccountObject, deleted, below]
  unfold storeBaseAccount loadOrStoreAccountObject at ran
  rw [bind_run, get_bind_run, found] at ran
  by_cases unused : src.nextNonce = 0
  · simp only [pure_run, ne_eq, unused, not_true_eq_false, if_false, orFail_bind_eq_ok, modify_run,
      Except.ok.injEq, Prod.mk.injEq, true_and] at ran
    obtain ⟨cb, -, sb, -, rfl⟩ := ran
    have loaded := congrArg (fun p => p.current.accounts.get k) plain
    simp [view_accounts_get, loadAccountObject, setAccountIn,
      setReadonlyAccount, deleted, PlainState.setAccount, setAccount] at loaded
  · simp [unused] at ran

lemma storeBaseAccount_refines (k v) :
    Refines s (storeBaseAccount k v) (PlainState.storeBaseAccount k v) ↔
      ¬s.Shadowed k ∧ ¬s.WritesThrough k v := by
  have loaded := s.view_accounts_get k
  unfold loadAccountObject at loaded
  rcases above : s.dirty.accounts.get k with _ | _ | o
  · rcases below : s.readonly.accounts.get k with _ | src
    · have refines : Refines s (storeBaseAccount k v) (PlainState.storeBaseAccount k v) :=
        storeBaseAccount_absent v (by simp [findAccountObject, above, below])
          (by simp [loaded, above, below])
      simp [refines, MetaState.Shadowed, MetaState.WritesThrough, above, below]
    · rw [storeBaseAccount_readonly above below]
      simp [MetaState.Shadowed, above]
  · rcases below : s.readonly.accounts.get k with _ | src
    · have refines : Refines s (storeBaseAccount k v) (PlainState.storeBaseAccount k v) :=
        storeBaseAccount_absent v (by simp [findAccountObject, above, below])
          (by simp [loaded, above])
      simp [refines, MetaState.Shadowed, MetaState.WritesThrough, above, below]
    · have shadowed : s.Shadowed k := ⟨above, by simp [below]⟩
      exact ⟨fun refines => absurd refines (not_refines_of_shadowed v shadowed),
        fun clear => absurd shadowed clear.1⟩
  · have found : s.findAccountObject k = some (.dirty, o) := by
      simp [findAccountObject, above]
    have refines : Refines s (storeBaseAccount k v) (PlainState.storeBaseAccount k v) :=
      storeBaseAccount_present found (by simp [loaded, above])
        fun cb sb _ _ _ => s.plain_setDirtyAccount k _
    simp [refines, MetaState.Shadowed, MetaState.WritesThrough, above]

lemma MetaState.lookupAccount_eq_nil :
    s.lookupAccount k = some none ↔ s.dirty.accounts.get k = some none := by
  unfold lookupAccount
  rcases s.dirty.accounts.get k with _ | entry <;> simp

lemma MetaState.view_eq_join (s : MetaState) (k) :
    s.view.accounts.get k = (s.lookupAccount k).join := by
  rw [s.view_accounts_get]
  unfold loadAccountObject lookupAccount
  rcases s.dirty.accounts.get k with _ | entry
  · cases s.readonly.accounts.get k <;> rfl
  · rfl

lemma moveAccountToken_shadowed (shadowed : s.Shadowed receiver) :
    Refines s (moveAccountToken sender receiver amount tokenType)
      (PlainState.moveToken sender receiver amount tokenType) ↔
    s.dirty.accounts.get sender ≠ some none ∧
      s.view.accounts.get sender ≠ none ∧ tokenType.token? = none := by
  obtain ⟨deleted, below⟩ := shadowed
  obtain ⟨src, below⟩ := Option.ne_none_iff_exists'.mp below
  have loaded : loadOrStoreAccountObject receiver (Account.new receiver) s =
      .ok (.ok (some (.readonly, src)), s) := by
    simp [loadOrStoreAccountObject, findAccountObject, deleted, below]
  have nil : s.lookupAccount receiver = some none := MetaState.lookupAccount_eq_nil.mpr deleted
  unfold Refines moveAccountToken PlainState.moveToken
  rw [bind_run, loaded, get_bind_run, modify_bind_run, ne_eq, ← MetaState.lookupAccount_eq_nil,
    MetaState.plain_current, s.view_eq_join sender, s.view_eq_join receiver, nil]
  simp only [get_bind_run, nil]
  rcases payer : s.lookupAccount sender with _ | _ | so
  · -- The plain call has stored an empty receiver.
    refine ⟨fun implemented => ?_, fun clear => absurd rfl clear.2.1⟩
    have stored := congrArg (fun p => p.current.accounts.get receiver) implemented.2.1
    simp [s.view_eq_join receiver, nil, PlainState.setAccount, setAccount] at stored
  · exact ⟨fun implemented => absurd implemented not_false, fun clear => absurd rfl clear.1⟩
  · rcases listed : tokenType.token? with _ | token
    · exact ⟨fun _ => by simp, fun _ => rfl⟩
    · refine ⟨fun implemented => ?_, fun clear => absurd clear.2.2 (by simp)⟩
      rcases paid : safeSub (so.tokenBalance.get token) amount with error | sb
      · simp [PlainState.demand, bind_run, paid, Implemented] at implemented
      · rcases received : safeAdd ((Account.new receiver).tokenBalance.get token) amount with
          error | rb
        · simp [PlainState.demand, bind_run, paid, received, Implemented] at implemented
        · simp [PlainState.demand, bind_run, paid, received, Implemented] at implemented

lemma loadReceiver_run (visible : ¬s.Shadowed receiver) :
    ∃ found after, loadOrStoreAccountObject receiver (Account.new receiver) s =
        .ok (.ok found, after) ∧ after.readonly = s.readonly := by
  rcases loadOrStore_ok (Account.new receiver) visible with ⟨-, ran⟩ | ⟨layer, o, -, -, ran, -⟩
  · exact ⟨none, _, ran, rfl⟩
  · exact ⟨some (layer, o), s, ran, rfl⟩

lemma moveAccountToken_refines (different : sender ≠ receiver) :
    Refines s (moveAccountToken sender receiver amount tokenType)
      (PlainState.moveToken sender receiver amount tokenType) ↔
    s.dirty.accounts.get sender ≠ some none ∧
      (s.Shadowed receiver → s.view.accounts.get sender ≠ none ∧ tokenType.token? = none) := by
  by_cases shadowed : s.Shadowed receiver
  · rw [moveAccountToken_shadowed shadowed]
    simp [shadowed]
  · obtain ⟨found, middle, ran, base⟩ := loadReceiver_run shadowed
    obtain ⟨ro, payee, view, payeeFound, others⟩ := loadReceiver_ok shadowed ran
    have plain : middle.plain = s.plain.setAccount receiver ro := by
      rw [MetaState.plain, view, base, PlainState.setAccount, MetaState.plain]
    simp only [shadowed, false_imp_iff, and_true]
    unfold Refines moveAccountToken PlainState.moveToken
    rw [bind_run, ran, get_bind_run, modify_bind_run, MetaState.plain_current, payee, ← plain,
      ne_eq, ← MetaState.lookupAccount_eq_nil, s.view_eq_join sender]
    simp only [get_bind_run, payeeFound, others sender different]
    rcases s.lookupAccount sender with _ | _ | so
    · exact ⟨fun _ => by simp, fun _ => ⟨rfl, rfl, trivial⟩⟩
    · exact ⟨fun implemented => absurd implemented not_false, fun live => absurd rfl live⟩
    · refine ⟨fun _ => by simp, fun _ => ?_⟩
      simp only [orPanic_some_bind_run, Option.join_some, PlainState.demand, pure_bind_run]
      refine orPanic_bind fun token _ => ?_
      refine orFail_bind trivial rfl fun sb => ?_
      refine orFail_bind trivial rfl fun rb => ?_
      refine ⟨rfl, ?_, trivial⟩
      rw [MetaState.plain_setDirtyAccount, MetaState.plain_setDirtyAccount]
      rfl

lemma transferAccountToken_refines (tx) :
    Refines s (transferAccountToken env tx) (PlainState.transfer env tx) ↔
    (pubKeyHash env tx.verifier.signee = .ok tx.header.sender →
      tx.header.sender ≠ tx.header.receiver → tx.header.amount ≠ 0 →
      s.dirty.accounts.get tx.header.sender ≠ some none ∧ (s.Shadowed tx.header.receiver →
          s.view.accounts.get tx.header.sender ≠ none ∧ tx.header.tokenType.token? = none)) := by
  unfold Refines transferAccountToken PlainState.transfer
  rcases signer : pubKeyHash env tx.verifier.signee with error | realSender
  · simp [Implemented]
  · by_cases owned : realSender = tx.header.sender
    · subst owned
      simp only [ne_eq, not_true_eq_false, if_false, true_imp_iff]
      by_cases idle : tx.header.sender = tx.header.receiver ∨ tx.header.amount = 0
      · rw [if_pos idle, if_pos idle]
        refine ⟨fun _ different paid => absurd idle (by simp [different, paid]), fun _ => ?_⟩
        exact ⟨rfl, rfl, trivial⟩
      · rw [if_neg idle, if_neg idle]
        obtain ⟨different, paid⟩ := not_or.mp idle
        simp only [different, paid, not_false_eq_true, true_imp_iff]
        exact moveAccountToken_refines different
    · simp [owned, Implemented]

namespace Operation

/-- The test that the operation makes of the two layers does not meet a mark of a deletion, and
no committed object is changed in place. -/
def Clear (env : Env) : Operation → MetaState → Prop
  | .loadBalance k tokenType, s => tokenType.token? ≠ none → ¬s.Shadowed k
  | .loadOrStoreAccount k _, s => ¬s.Shadowed k
  | .loadOrStoreDatabase k _, s => ¬FiniteMap.Hides s.dirty.databases s.readonly.databases k
  | .loadOrStoreProvider k _, s => ¬FiniteMap.Hides s.dirty.provider s.readonly.provider k
  | .storeBaseAccount k v, s => ¬s.Shadowed k ∧ ¬s.WritesThrough k v
  | .increase k _ _, s | .decrease k _ _, s | .nextNonce k, s | .increaseNonce k, s =>
    s.dirty.accounts.get k ≠ some none
  | .transfer tx, s =>
    pubKeyHash env tx.verifier.signee = .ok tx.header.sender →
    tx.header.sender ≠ tx.header.receiver → tx.header.amount ≠ 0 →
    s.dirty.accounts.get tx.header.sender ≠ some none ∧
      -- Both calls panic on a token that does not exist.
      (s.Shadowed tx.header.receiver →
        s.view.accounts.get tx.header.sender ≠ none ∧ tx.header.tokenType.token? = none)
  | .createChain addr id, s =>
    s.dirty.accounts.get addr ≠ some none ∧
      (s.dirty.databases.get id = some none → s.view.accounts.get addr = none)
  | .addUser k _ _, s | .alterUser k _ _, s | .deleteUser k _, s =>
    s.dirty.databases.get k ≠ some none
  | _, _ => True

def probe : Operation → Bool
  | .loadAccount _ | .loadDatabase _ | .loadProvider _ | .clean => true
  | _ => false

lemma clear_of_probe (op : Operation) (s) (probed : op.probe = true) : op.Clear env s := by
  cases op with
  | loadAccount k | loadDatabase k | loadProvider k | clean => exact trivial
  | _ => exact absurd probed (by simp [probe])

lemma run_refines_iff (op : Operation) (s) :
    Refines s (op.run env) (op.plain env) ↔ op.Clear env s := by
  cases op with
  | loadAccount k =>
    exact ⟨fun _ => trivial, fun _ =>
      ⟨congrArg (Except.ok ∘ Answer.account) (s.view_accounts_get k).symm, rfl, trivial⟩⟩
  | loadDatabase k =>
    exact ⟨fun _ => trivial, fun _ =>
      ⟨congrArg (Except.ok ∘ Answer.database) (s.view_databases_get k).symm, rfl, trivial⟩⟩
  | loadProvider k =>
    exact ⟨fun _ => trivial, fun _ =>
      ⟨congrArg (Except.ok ∘ Answer.provider) (s.view_provider_get k).symm, rfl, trivial⟩⟩
  | loadBalance k tokenType => exact loadBalance_refines k tokenType
  | loadOrStoreAccount k v => exact loadOrStoreAccount_refines k v
  | loadOrStoreDatabase k v => exact loadOrStoreDatabase_refines k v
  | loadOrStoreProvider k v => exact loadOrStoreProvider_refines k v
  | storeBaseAccount k v => exact refines_silent.trans (storeBaseAccount_refines k v)
  | deleteAccount =>
    refine ⟨fun _ => trivial, fun _ => refines_modify ?_⟩
    rw [MetaState.plain, s.view_deleteAccountObject]
    rfl
  | deleteDatabase =>
    refine ⟨fun _ => trivial, fun _ => refines_modify ?_⟩
    rw [MetaState.plain, s.view_deleteSQLChainObject]
    rfl
  | deleteProvider =>
    refine ⟨fun _ => trivial, fun _ => refines_modify ?_⟩
    rw [MetaState.plain, s.view_deleteProviderObject]
    rfl
  | increase k amount tokenType =>
    exact refines_silent.trans (adjustAccountToken_refines safeAdd _ k amount tokenType)
  | decrease k amount tokenType =>
    exact refines_silent.trans (adjustAccountToken_refines safeSub _ k amount tokenType)
  | transfer tx => exact refines_silent.trans (transferAccountToken_refines tx)
  | createChain addr id => exact refines_silent.trans (createSQLChain_refines addr id)
  | addUser k =>
    exact refines_silent.trans (updateUsers_refines k fun users => .orFail _)
  | alterUser k =>
    exact refines_silent.trans (updateUsers_refines k fun users => .pure _)
  | deleteUser k =>
    exact refines_silent.trans (updateUsers_refines k fun users => .orPanic _)
  | nextNonce addr => exact nextNonce_refines addr
  | increaseNonce addr => exact refines_silent.trans (increaseNonce_refines addr)
  | commit => exact ⟨fun _ => trivial, fun _ => refines_modify s.plain_commit⟩
  | clean => exact ⟨fun _ => trivial, fun _ => refines_modify s.plain_clean⟩

lemma plain_apart (left right) (same : ∀ probes : List Operation, (∀ op ∈ probes, op.probe = true) →
      responses (plain env) probes left = responses (plain env) probes right) : left = right := by
  have current : left.current = right.current := by
    apply MetaIndex.ext_get
    · intro k
      have shown := same [.loadAccount k] (by simp [probe])
      simpa [responses, plain] using shown
    · intro k
      have shown := same [.loadDatabase k] (by simp [probe])
      simpa [responses, plain] using shown
    · intro k
      have shown := same [.loadProvider k] (by simp [probe])
      simpa [responses, plain] using shown
  have committed : left.committed = right.committed := by
    apply MetaIndex.ext_get
    · intro k
      have shown := same [.clean, .loadAccount k] (by simp [probe])
      simpa [responses, plain, silent, PlainState.clean] using shown
    · intro k
      have shown := same [.clean, .loadDatabase k] (by simp [probe])
      simpa [responses, plain, silent, PlainState.clean] using shown
    · intro k
      have shown := same [.clean, .loadProvider k] (by simp [probe])
      simpa [responses, plain, silent, PlainState.clean] using shown
  cases left
  cases right
  exact PlainState.mk.injEq .. ▸ ⟨current, committed⟩

end Operation

/-- A sequence of operations is answered as on one plain map exactly if no operation takes a mark of
a deletion for an object and no base account is added to a committed object. -/
theorem operations_plain_iff (env : Env) (ops : List Operation) (s : MetaState) :
    (∀ first probes, first <+: ops → (∀ op ∈ probes, op.probe = true) →
      responses (Operation.run env) (first ++ probes) s =
        responses (Operation.plain env) (first ++ probes) s.plain) ↔
    Along (Operation.run env) (Operation.Clear env) ops s :=
  responses_agree_iff (fun op s => op.run_refines_iff s)
    (fun op s probed => op.clear_of_probe s probed) Operation.plain_apart ops s

namespace Sample

def kept : MetaState :=
  ((MetaState.new.setDirtyAccount 1 (Account.new 1)).setDirtyDatabase (databaseID 2)
    (newProfile 1 (databaseID 2))).commit

def gift : Account := { Account.new 1 with tokenBalance := ⟨5, 0⟩ }

def answers (ops : List Operation) :
    List (Except Halt (Except Err Answer)) × List (Except Halt (Except Err Answer)) :=
  (responses (Operation.run Sample.env) ops kept,
    responses (Operation.plain Sample.env) ops kept.plain)

end Sample

open Sample in
/-- After a deletion, the account is found again, and its nonce is a nil dereference. -/
theorem operations_not_plain : answers [.deleteAccount 1, .loadOrStoreAccount 1 gift] =
      ([.ok (.ok .done), .ok (.ok (.account (some (Account.new 1))))],
        [.ok (.ok .done), .ok (.ok (.account none))]) ∧
    answers [.deleteAccount 1, .nextNonce 1] =
      ([.ok (.ok .done), .error .panic], [.ok (.ok .done), .ok (.error .accountNotFound)]) ∧
    answers [.deleteDatabase (databaseID 2), .createChain 1 (databaseID 2)] =
      ([.ok (.ok .done), .ok (.error .databaseExists)], [.ok (.ok .done), .ok (.ok .done)]) ∧
    answers [.storeBaseAccount 1 gift, .clean, .loadAccount 1] =
      ([.ok (.ok .done), .ok (.ok .done), .ok (.ok (.account (some gift)))],
        [.ok (.ok .done), .ok (.ok .done), .ok (.ok (.account (some (Account.new 1))))]) :=
  ⟨rfl, rfl, rfl, rfl⟩

end SQLess.BlockProducer
