import SQLess.BlockProducer.MetaStateCore

/-!
The other operations of `blockproducer/metastate.go` on single objects: deletions, databases and
their users.
-/

namespace SQLess.BlockProducer

open Lib

namespace MetaState

def deleteAccountObject (s : MetaState) (k : AccountAddress) : MetaState :=
  { s with dirty := { s.dirty with accounts := s.dirty.accounts.insert k none } }

def deleteSQLChainObject (s : MetaState) (k : DatabaseID) : MetaState :=
  { s with dirty := { s.dirty with databases := s.dirty.databases.insert k none } }

def loadAccountTokenBalance (s : MetaState) (addr : AccountAddress) (tokenType : TokenType) :
    Option UInt64 :=
  tokenType.token?.bind fun token =>
    (FiniteMap.peek s.dirty.accounts s.readonly.accounts addr).map fun o =>
      o.tokenBalance.get token

end MetaState

/-- `none` is `nil, false`. -/
def findOrStore {V : Type} (found : Option V) (store : MetaState → MetaState) :
    MetaProgram (Option V) :=
  match found with
  | some o => pure (some o)
  | none => do
    Program.modify store
    pure none

variable (k : DatabaseID) (addr : AccountAddress) (perm : Option UserPermission)

def loadOrStoreSQLChainObject (v : SQLChainProfile) :
    MetaProgram (Option SQLChainProfile) := do
  let s ← Program.get
  findOrStore (FiniteMap.peek s.dirty.databases s.readonly.databases k) (·.setDirtyDatabase k v)

def loadOrStoreProviderObject (k : AccountAddress) (v : ProviderProfile) :
    MetaProgram (Option ProviderProfile) := do
  let s ← Program.get
  findOrStore (FiniteMap.peek s.dirty.provider s.readonly.provider k) (·.setDirtyProvider k v)

def newChainUser : SQLChainUser where
  address := addr
  permission := perm
  advancePayment := 0
  arrears := 0
  deposit := 0
  status := .unknownStatus

def newProfile (id : DatabaseID) : SQLChainProfile where
  id := id
  address := 0
  period := 0
  gasPrice := 0
  lastUpdatedHeight := 0
  tokenType := 0
  owner := addr
  miners := []
  users := [newChainUser addr (some (.fromRole UserPermission.admin))]
  encodedGenesis := []
  resourceMeta := ⟨[], 0, 0, 0, .zero, "", false, .zero, 0⟩

def createSQLChain (id : DatabaseID) : MetaProgram Unit := do
  let s ← Program.get
  if (s.dirty.accounts.get addr).isNone ∧ (s.readonly.accounts.get addr).isNone then
    Program.fail .accountNotFound
  else if (s.dirty.databases.get id).isSome ∨ (s.readonly.databases.get id).isSome then
    Program.fail .databaseExists
  else Program.modify (·.setDirtyDatabase id (newProfile addr id))

def dirtyDatabase : MetaProgram SQLChainProfile := do
  let s ← Program.get
  match s.dirty.databases.get k with
  | some entry => Program.orPanic entry
  | none =>
    match s.readonly.databases.get k with
    | none => Program.fail .databaseNotFound
    | some src => do
      Program.modify (·.setDirtyDatabase k src)
      pure src

def appendUser (users : List SQLChainUser) : Except Err (List SQLChainUser) :=
  if users.any fun v => v.address = addr then .error .databaseUserExists
  else .ok (users ++ [newChainUser addr perm])

def alterUsers (users : List SQLChainUser) : List SQLChainUser :=
  users.map fun v => if v.address = addr then { v with permission := perm } else v

/-- The loop of `deleteSQLChainUser` from position `i` on, over the array as it was at the start,
while the slice gets shorter and its last element becomes nil; `none` is the panic on a nil element
or behind the slice. -/
def deleteUserLoop (addr : AccountAddress) : Nat → Nat → List (Option SQLChainUser) → Nat →
    Option (List (Option SQLChainUser) × Nat)
  | 0, _, users, length => some (users, length)
  | rounds + 1, i, users, length =>
    match users[i]? with
    | some (some v) =>
      if v.address = addr then
        if i < length then
          deleteUserLoop addr rounds (i + 1)
            ((users.set i (users[length - 1]?.getD none)).set (length - 1) none) (length - 1)
        else none
      else deleteUserLoop addr rounds (i + 1) users length
    | _ => none

def deleteUser (users : List SQLChainUser) : Option (List SQLChainUser) :=
  (deleteUserLoop addr users.length 0 (users.map some) users.length).map fun (users, length) =>
    (users.take length).filterMap id

def addSQLChainUser :
    MetaProgram Unit := do
  let dst ← dirtyDatabase k
  let users ← Program.orFail (appendUser addr perm dst.users)
  Program.modify (·.setDirtyDatabase k { dst with users := users })

def deleteSQLChainUser : MetaProgram Unit := do
  let dst ← dirtyDatabase k
  let users ← Program.orPanic (deleteUser addr dst.users)
  Program.modify (·.setDirtyDatabase k { dst with users := users })

def alterSQLChainUser :
    MetaProgram Unit := do
  let dst ← dirtyDatabase k
  Program.modify (·.setDirtyDatabase k { dst with users := alterUsers addr perm dst.users })

inductive Operation where
  | loadAccount (k : AccountAddress)
  | loadDatabase (k : DatabaseID)
  | loadProvider (k : AccountAddress)
  | loadBalance (k : AccountAddress) (tokenType : TokenType)
  | loadOrStoreAccount (k : AccountAddress) (v : Account)
  | loadOrStoreDatabase (k : DatabaseID) (v : SQLChainProfile)
  | loadOrStoreProvider (k : AccountAddress) (v : ProviderProfile)
  | storeBaseAccount (k : AccountAddress) (v : Account)
  | deleteAccount (k : AccountAddress)
  | deleteDatabase (k : DatabaseID)
  | deleteProvider (k : AccountAddress)
  | increase (k : AccountAddress) (amount : UInt64) (tokenType : TokenType)
  | decrease (k : AccountAddress) (amount : UInt64) (tokenType : TokenType)
  | transfer (tx : SignedTx TransferHeader)
  | createChain (addr : AccountAddress) (id : DatabaseID)
  | addUser (k : DatabaseID) (addr : AccountAddress) (perm : Option UserPermission)
  | alterUser (k : DatabaseID) (addr : AccountAddress) (perm : Option UserPermission)
  | deleteUser (k : DatabaseID) (addr : AccountAddress)
  | nextNonce (addr : AccountAddress)
  | increaseNonce (addr : AccountAddress)
  | commit
  | clean

inductive Answer where
  | account (o : Option Account)
  | database (o : Option SQLChainProfile)
  | provider (o : Option ProviderProfile)
  | balance (b : Option UInt64)
  | nonce (nonce : AccountNonce)
  | done
  deriving DecidableEq

namespace Operation

def silent {σ : Type} (program : Program σ Err Unit) : Program σ Err Answer := do
  program
  pure .done

def run (env : Env) : Operation → MetaProgram Answer
  | .loadAccount k => do
    let s ← Program.get
    pure (.account (s.loadAccountObject k))
  | .loadDatabase k => do
    let s ← Program.get
    pure (.database (s.loadSQLChainObject k))
  | .loadProvider k => do
    let s ← Program.get
    pure (.provider (s.loadProviderObject k))
  | .loadBalance k tokenType => do
    let s ← Program.get
    pure (.balance (s.loadAccountTokenBalance k tokenType))
  | .loadOrStoreAccount k v => do
    let found ← loadOrStoreAccountObject k v
    pure (.account (found.map Prod.snd))
  | .loadOrStoreDatabase k v => do
    let found ← loadOrStoreSQLChainObject k v
    pure (.database found)
  | .loadOrStoreProvider k v => do
    let found ← loadOrStoreProviderObject k v
    pure (.provider found)
  | .storeBaseAccount k v => silent (BlockProducer.storeBaseAccount k v)
  | .deleteAccount k => silent (Program.modify (·.deleteAccountObject k))
  | .deleteDatabase k => silent (Program.modify (·.deleteSQLChainObject k))
  | .deleteProvider k => silent (Program.modify (·.deleteProviderObject k))
  | .increase k amount tokenType => silent (increaseAccountToken k amount tokenType)
  | .decrease k amount tokenType => silent (decreaseAccountToken k amount tokenType)
  | .transfer tx => silent (transferAccountToken env tx)
  | .createChain addr id => silent (createSQLChain addr id)
  | .addUser k addr perm => silent (addSQLChainUser k addr perm)
  | .alterUser k addr perm => silent (alterSQLChainUser k addr perm)
  | .deleteUser k addr => silent (deleteSQLChainUser k addr)
  | .nextNonce addr => do
    let s ← Program.get
    let answer ← Program.orPanic (s.nextNonce addr)
    let nonce ← Program.orFail answer
    pure (.nonce nonce)
  | .increaseNonce addr => silent (BlockProducer.increaseNonce addr)
  | .commit => silent (Program.modify MetaState.commit)
  | .clean => silent (Program.modify MetaState.clean)

end Operation

end SQLess.BlockProducer
