import SQLess.BlockProducer.MetaStateCore
import SQLess.Lib.Heap

/-! `blockproducer/metastate.go` with pointers. Accounts, profiles, providers and transactions are
objects of a memory. Permissions and lists of addresses are never changed and are values. -/

namespace SQLess.BlockProducer.Objects

open Lib

inductive AccountRef where
  | object (index : Nat)
  | embedded (tx : Nat)
  deriving DecidableEq

def embedded : Transaction → Option Account
  | .baseAccount account _ => some account
  | .wrapper inner => embedded inner
  | _ => none

def setEmbedded (v : Account) : Transaction → Transaction
  | .baseAccount _ mixin => .baseAccount v mixin
  | .wrapper inner => .wrapper (setEmbedded v inner)
  | tx => tx

def lowerAmount (amount : UInt64) : Transaction → Transaction
  | .transfer tx =>
    .transfer { tx with header := { tx.header with amount := tx.header.amount - amount } }
  | .wrapper inner => .wrapper (lowerAmount amount inner)
  | tx => tx

structure Memory where
  accounts : Heap Account
  databases : Heap SQLChainProfile
  providers : Heap ProviderProfile
  txs : Heap Transaction

namespace Memory

def account (m : Memory) : AccountRef → Account
  | .object index => m.accounts.read index
  | .embedded tx => (embedded (m.txs.read tx)).getD (Account.new 0)

def setAccount (m : Memory) (r : AccountRef) (v : Account) : Memory :=
  match r with
  | .object index => { m with accounts := m.accounts.write index v }
  | .embedded tx => { m with txs := m.txs.write tx (setEmbedded v (m.txs.read tx)) }

end Memory

structure ObjectIndex where
  accounts : FiniteMap AccountAddress AccountRef
  databases : FiniteMap DatabaseID Nat
  provider : FiniteMap AccountAddress Nat

structure DirtyObjects where
  accounts : FiniteMap AccountAddress (Option AccountRef)
  databases : FiniteMap DatabaseID (Option Nat)
  provider : FiniteMap AccountAddress (Option Nat)

def newDirtyObjects : DirtyObjects := ⟨∅, ∅, ∅⟩

structure Layers where
  dirty : DirtyObjects
  readonly : ObjectIndex

def Layers.values (l : Layers) (m : Memory) : MetaState where
  dirty :=
    { accounts := l.dirty.accounts.map (Option.map m.account)
      databases := l.dirty.databases.map (Option.map m.databases.read)
      provider := l.dirty.provider.map (Option.map m.providers.read) }
  readonly :=
    { accounts := l.readonly.accounts.map m.account
      databases := l.readonly.databases.map m.databases.read
      provider := l.readonly.provider.map m.providers.read }

structure State extends Layers where
  mem : Memory

abbrev ObjectProgram (α : Type) := Program State Err α

namespace State

def values (o : State) : MetaState := o.toLayers.values o.mem

variable (o : State) (k : AccountAddress)

def clean : State := { o with dirty := newDirtyObjects }

def allocAccount (v : Account) : State :=
  { o with mem := { o.mem with accounts := o.mem.accounts.alloc v } }

def allocDatabase (v : SQLChainProfile) : State :=
  { o with mem := { o.mem with databases := o.mem.databases.alloc v } }

def allocProvider (v : ProviderProfile) : State :=
  { o with mem := { o.mem with providers := o.mem.providers.alloc v } }

def writeAccount (r : AccountRef) (v : Account) : State :=
  { o with mem := o.mem.setAccount r v }

def writeDatabase (r : Nat) (v : SQLChainProfile) : State :=
  { o with mem := { o.mem with databases := o.mem.databases.write r v } }

def writeTx (tx : Nat) (v : Transaction) : State :=
  { o with mem := { o.mem with txs := o.mem.txs.write tx v } }

def storeAccount (r : AccountRef) : State :=
  { o with dirty := { o.dirty with accounts := o.dirty.accounts.insert k (some r) } }

def storeDatabase (k : DatabaseID) (r : Nat) : State :=
  { o with dirty := { o.dirty with databases := o.dirty.databases.insert k (some r) } }

def storeProvider (r : Nat) : State :=
  { o with dirty := { o.dirty with provider := o.dirty.provider.insert k (some r) } }

def deleteProviderObject : State :=
  { o with dirty := { o.dirty with provider := o.dirty.provider.insert k none } }

def lookupAccount : Option (Option AccountRef) :=
  match o.dirty.accounts.get k with
  | some entry => some entry
  | none => (o.readonly.accounts.get k).map some

def findDatabase (k : DatabaseID) : Option Nat :=
  match o.dirty.databases.get k with
  | some entry => entry
  | none => o.readonly.databases.get k

end State

def newAccount (v : Account) : ObjectProgram AccountRef := do
  let o ← Program.get
  Program.modify (·.allocAccount v)
  pure (.object o.mem.accounts.size)

def newDatabase (v : SQLChainProfile) : ObjectProgram Nat := do
  let o ← Program.get
  Program.modify (·.allocDatabase v)
  pure o.mem.databases.size

def newProvider (v : ProviderProfile) : ObjectProgram Nat := do
  let o ← Program.get
  Program.modify (·.allocProvider v)
  pure o.mem.providers.size

variable (env : Env) (k : AccountAddress)

def loadAccountObject : ObjectProgram (Option AccountRef) := do
  let o ← Program.get
  match (o.lookupAccount k).join with
  | none => pure none
  | some old => do
    let cpy ← newAccount (o.mem.account old)
    pure (some cpy)

def loadOrStoreAccountObject (v : AccountRef) :
    ObjectProgram (Option AccountRef) := do
  let o ← Program.get
  match o.dirty.accounts.get k with
  | some (some r) => pure (some r)
  | _ =>
    match o.readonly.accounts.get k with
    | some r => pure (some r)
    | none => do
      Program.modify (·.storeAccount k v)
      pure none

def loadSQLChainObject (k : DatabaseID) : ObjectProgram (Option Nat) := do
  let o ← Program.get
  match o.findDatabase k with
  | none => pure none
  | some old => do
    let cpy ← newDatabase (o.mem.databases.read old)
    pure (some cpy)

def dirtyAccount (missing : Err) : ObjectProgram AccountRef := do
  let o ← Program.get
  match o.dirty.accounts.get k with
  | some entry => Program.orPanic entry
  | none =>
    match o.readonly.accounts.get k with
    | none => Program.fail missing
    | some src => do
      let dst ← newAccount (o.mem.account src)
      Program.modify (·.storeAccount k dst)
      pure dst

def storeBaseAccount (v : AccountRef) : ObjectProgram Unit := do
  match ← loadOrStoreAccountObject k v with
  | none => pure ()
  | some ao => do
    let o ← Program.get
    let account := o.mem.account ao
    let base := o.mem.account v
    if account.nextNonce ≠ 0 then Program.fail .accountExists
    else do
      let cb ← Program.orFail (safeAdd account.tokenBalance.wave base.tokenBalance.wave)
      let sb ← Program.orFail (safeAdd account.tokenBalance.particle base.tokenBalance.particle)
      Program.modify (·.writeAccount ao { account with tokenBalance := ⟨sb, cb⟩ })

def adjustAccountToken (change : UInt64 → UInt64 → Except Err UInt64) (context : String)
    (k : AccountAddress) (amount : UInt64) (tokenType : TokenType) : ObjectProgram Unit := do
  let dst ← dirtyAccount k (.wrapped context .accountNotFound)
  let token ← Program.orPanic tokenType.token?
  let o ← Program.get
  let account := o.mem.account dst
  let balance ← Program.orFail (change (account.tokenBalance.get token) amount)
  Program.modify
    (·.writeAccount dst { account with tokenBalance := account.tokenBalance.set token balance })

def increaseAccountToken : AccountAddress → UInt64 → TokenType → ObjectProgram Unit :=
  adjustAccountToken safeAdd "increase account balance fail"

def decreaseAccountToken : AccountAddress → UInt64 → TokenType → ObjectProgram Unit :=
  adjustAccountToken safeSub "decrease account balance fail"

def increaseAccountStableBalance (amount : UInt64) : ObjectProgram Unit :=
  increaseAccountToken k amount Token.particle.tokenType

def decreaseAccountStableBalance (amount : UInt64) : ObjectProgram Unit :=
  decreaseAccountToken k amount Token.particle.tokenType

def copyToDirty (r : AccountRef) (dirty : Bool) : ObjectProgram AccountRef :=
  if dirty then pure r
  else do
    let o ← Program.get
    let cpy ← newAccount (o.mem.account r)
    Program.modify (·.storeAccount k cpy)
    pure cpy

def setBalance (r : AccountRef) (token : Token) (balance : UInt64) (o : State) : State :=
  o.writeAccount r { o.mem.account r with
    tokenBalance := (o.mem.account r).tokenBalance.set token balance }

def moveAccountToken (sender receiver : AccountAddress) (amount : UInt64)
    (tokenType : TokenType) : ObjectProgram Unit := do
  let empty ← newAccount (Account.new receiver)
  let _ ← loadOrStoreAccountObject receiver empty
  let o ← Program.get
  match o.lookupAccount sender, o.lookupAccount receiver with
  | some so, some ro => do
    let so ← Program.orPanic so
    let ro ← Program.orPanic ro
    let token ← Program.orPanic tokenType.token?
    let sb ← Program.orFail (safeSub ((o.mem.account so).tokenBalance.get token) amount)
    let rb ← Program.orFail (safeAdd ((o.mem.account ro).tokenBalance.get token) amount)
    let so ← copyToDirty sender so (o.dirty.accounts.get sender).isSome
    let ro ← copyToDirty receiver ro (o.dirty.accounts.get receiver).isSome
    Program.modify (setBalance so token sb)
    Program.modify (setBalance ro token rb)
  | _, _ => Program.fail .accountNotFound

def transferAccountToken (transfer : SignedTx TransferHeader) : ObjectProgram Unit :=
  match pubKeyHash env transfer.verifier.signee with
  | .error error => Program.fail (.wrapped "applyTx failed" error)
  | .ok realSender =>
    if realSender ≠ transfer.header.sender then
      Program.fail (.wrapped "applyTx failed" .invalidSender)
    else if transfer.header.sender = transfer.header.receiver ∨ transfer.header.amount = 0 then
      pure ()
    else
      moveAccountToken transfer.header.sender transfer.header.receiver
        transfer.header.amount transfer.header.tokenType

def increaseNonce (addr : AccountAddress) : ObjectProgram Unit := do
  let dst ← dirtyAccount addr .accountNotFound
  Program.modify fun o =>
    o.writeAccount dst { o.mem.account dst with nextNonce := (o.mem.account dst).nextNonce + 1 }

def refundProvider (sender : AccountAddress) (height : Nat) : ObjectProgram Unit :=
  if bpHeightCIPFixProvideService ≤ height then do
    let o ← Program.get
    match o.values.loadProviderObject sender with
    | some po => do
      increaseAccountStableBalance sender po.deposit
      Program.modify (·.deleteProviderObject sender)
    | none => pure ()
  else pure ()

def updateProviderList (env : Env) (tx : SignedTx ProvideServiceHeader) (height : Nat) :
    ObjectProgram Unit :=
  match pubKeyHash env tx.verifier.signee with
  | .error error => Program.fail (.wrapped "updateProviderList failed" error)
  | .ok sender => do
    refundProvider sender height
    decreaseAccountStableBalance sender env.minProviderDeposit
    let pp ← newProvider (newProviderProfile env tx sender)
    Program.modify (·.storeProvider sender pp)

def storeProfile (profile : SQLChainProfile) : ObjectProgram Unit := do
  let account ← newAccount (Account.new profile.address)
  Program.modify (·.storeAccount profile.address account)
  let sp ← newDatabase profile
  Program.modify (·.storeDatabase profile.id sp)
  Program.modify fun o =>
    profile.miners.foldl (fun o miner => o.deleteProviderObject miner.address) o

def createProfile (tx : SignedTx CreateDatabaseHeader) (sender : AccountAddress)
    (miners : List MinerInfo) : ObjectProgram Unit := do
  let all ← Program.orFail (safeAdd (minAdvancePayment env tx.header) tx.header.advancePayment)
  decreaseAccountToken sender all tx.header.tokenType
  let enc ← Program.orFail (match env.encodeGenesis tx.mixin.timestamp with
    | some enc => .ok enc
    | none => .error .encoding)
  match ← loadSQLChainObject (fromAccountAndNonce env tx.header.owner tx.header.nonce) with
  | some _ => Program.fail (.wrapped "database exists" .databaseExists)
  | none => storeProfile (newSQLChainProfile env tx sender miners enc)

def matchProvidersWithUser (order : MinerOrder)
    (tx : SignedTx CreateDatabaseHeader) : ObjectProgram Unit :=
  match pubKeyHash env tx.verifier.signee with
  | .error error => Program.fail (.wrapped "matchProviders failed" error)
  | .ok sender =>
    if sender ≠ tx.header.owner then Program.fail (.wrapped "match failed" .invalidSender)
    else if tx.header.gasPrice = 0 then Program.fail .invalidGasPrice
    else if tx.header.resourceMeta.node = 0 then Program.fail .invalidMinerCount
    else if tx.header.advancePayment < minAdvancePayment env tx.header then
      Program.fail .insufficientAdvancePayment
    else do
      let o ← Program.get
      match ← Program.orFail (selectMiners order o.values tx.header sender) with
      | none => pure ()
      | some miners => createProfile env tx sender miners

def updatePermission (tx : SignedTx UpdatePermissionHeader) : ObjectProgram Unit :=
  match pubKeyHash env tx.verifier.signee with
  | .error error => Program.fail error
  | .ok sender => do
    match ← loadSQLChainObject (databaseID tx.header.targetSQLChain) with
    | none => Program.fail .databaseNotFound
    | some so => do
      let o ← Program.get
      let profile := o.mem.databases.read so
      let scanned ← Program.orFail (scanUsers sender tx.header.targetUser profile.users 0 0 none)
      if scanned.1 ≤ 1 ∧ tx.header.targetUser = sender ∧
          ¬UserPermission.hasSuperPermission tx.header.permission then
        Program.fail .noSuperUserLeft
      else do
        Program.modify (·.writeDatabase so
          { profile with users := setPermission tx.header profile.users scanned.2 })
        Program.modify (·.storeDatabase (databaseID tx.header.targetSQLChain) so)

def issueKeys (keys : List MinerKey) (miner : MinerInfo) : MinerInfo :=
  keys.foldl (fun miner key =>
    if key.miner = miner.address then { miner with encryptionKey := key.encryptionKey }
    else miner) miner

def updateKeys (tx : SignedTx IssueKeysHeader) : ObjectProgram Unit := do
  let sender := signeeAddress env tx.verifier.signee
  match ← loadSQLChainObject (databaseID tx.header.targetSQLChain) with
  | none => Program.fail .databaseNotFound
  | some so => do
    let o ← Program.get
    let profile := o.mem.databases.read so
    let issue : ObjectProgram Unit := Program.modify (·.writeDatabase so
      { profile with miners := profile.miners.map (issueKeys tx.header.minerKeys) })
    match profile.users.find? fun user => sender = user.address with
    | some user =>
      if UserPermission.hasSuperPermission user.permission then issue
      else Program.fail .accountPermissionDeny
    | none => issue

def updateBilling (tx : SignedTx UpdateBillingHeader) : ObjectProgram Unit := do
  match ← loadSQLChainObject (databaseID tx.header.receiver) with
  | none => Program.fail (.wrapped "update billing failed" .databaseNotFound)
  | some newProfile => do
    let o ← Program.get
    let profile := o.mem.databases.read newProfile
    if 0 < tx.header.version ∧ (tx.header.rangeTo ≤ tx.header.rangeFrom ∨
        profile.lastUpdatedHeight ≠ tx.header.rangeFrom) then
      Program.fail (.wrapped "update billing within range" .invalidRange)
    else if profile.gasPrice = 0 then pure ()
    else do
      let minerAddr := signeeAddress env tx.verifier.signee
      let miners := profile.miners.map fun miner =>
        { miner with
            receivedIncome := miner.receivedIncome + miner.pendingIncome
            pendingIncome := 0 }
      -- the incomes are changed before the sender is found to be a miner or not
      Program.modify (·.writeDatabase newProfile { profile with miners := miners })
      if miners.any fun miner => miner.address = minerAddr then do
        let costs ← Program.orPanic (userCosts tx.header.users)
        let billed := billUsers env profile.gasPrice costs profile.users miners
        Program.modify (·.writeDatabase newProfile
          { profile with
              miners := billed.2
              users := billed.1
              lastUpdatedHeight := tx.header.rangeTo })
        Program.modify (·.storeDatabase (databaseID tx.header.receiver) newProfile)
      else Program.fail .invalidSender

def settleAmount (t : Nat) (user : SQLChainUser) (amount : UInt64) (o : State) : State :=
  if 0 < user.arrears ∧ user.arrears ≤ amount then o.writeTx t (lowerAmount 0 (o.mem.txs.read t))
  else o

def transferSQLChainTokenBalance (t : Nat) (transfer : SignedTx TransferHeader) :
    ObjectProgram Unit :=
  match transfer.verifier.signee with
  | none => Program.fail .invalidSender
  | some signee =>
    match pubKeyHash env (some signee) with
    | .error error => Program.fail (.wrapped "applyTx failed" error)
    | .ok realSender =>
      if realSender ≠ transfer.header.sender then
        Program.fail (.wrapped "applyTx failed" .invalidSender)
      else do
        match ← loadSQLChainObject (databaseID transfer.header.receiver) with
        | none => Program.fail .databaseNotFound
        | some sqlchain => do
          let o ← Program.get
          let profile := o.mem.databases.read sqlchain
          if profile.tokenType ≠ transfer.header.tokenType then
            Program.fail .wrongTokenType
          else do
            let account ← loadAccountObject realSender
            let account ← Program.orPanic account
            let token ← Program.orPanic transfer.header.tokenType.token?
            let o ← Program.get
            let paying := o.mem.account account
            let balance := paying.tokenBalance.get token
            if balance < transfer.header.amount then Program.fail .insufficientBalance
            else
              match profile.users.findIdx? fun user =>
                  user.address = transfer.header.sender with
              | none => pure ()
              | some index => do
                let user ← Program.orPanic profile.users[index]?
                Program.modify (settleAmount t user transfer.header.amount)
                let profile ←
                  Program.orFail (topUp env profile index user transfer.header.amount)
                Program.modify (·.writeDatabase sqlchain profile)
                let left := paying.tokenBalance.set token (balance - transfer.header.amount)
                Program.modify (·.writeAccount account { paying with tokenBalance := left })
                Program.modify (·.storeDatabase (databaseID transfer.header.receiver) sqlchain)
                Program.modify (·.storeAccount realSender account)

def applyTransaction (env : Env) (order : MinerOrder) (height : Nat) (t : Nat) :
    Transaction → ObjectProgram Unit
  | .transfer tx =>
    (transferSQLChainTokenBalance env t tx).handle (fun error => error = .databaseNotFound)
      (transferAccountToken env tx)
  | .baseAccount account _ => storeBaseAccount account.address (.embedded t)
  | .provideService tx => updateProviderList env tx height
  | .createDatabase tx => matchProvidersWithUser env order tx
  | .updatePermission tx => updatePermission env tx
  | .issueKeys tx => updateKeys env tx
  | .updateBilling tx => updateBilling env tx
  | .wrapper inner => applyTransaction env order height t inner

def expectedNonce (t : Transaction) : ObjectProgram AccountNonce := do
  let o ← Program.get
  let checked ← Program.orPanic (o.values.nextNonce (t.getAccountAddress env))
  match checked with
  | .ok nonce => pure nonce
  | .error error =>
    if t.getTransactionType ≠ transactionTypeBaseAccount then Program.fail error else pure 0

def apply (order : MinerOrder) (t : Nat) (height : Nat) : ObjectProgram Unit := do
  let o ← Program.get
  let tx := o.mem.txs.read t
  let nextNonce ← expectedNonce env tx
  if nextNonce ≠ tx.getAccountNonce then Program.fail .invalidAccountNonce
  else do
    applyTransaction env order height t tx
    increaseNonce (tx.getAccountAddress env)

structure Call where
  order : MinerOrder
  tx : Nat
  height : Nat

def applyAll (env : Env) : List Call → State → Except Halt State
  | [], o => .ok o
  | call :: rest, o =>
    match apply env call.order call.tx call.height o with
    | .error reason => .error reason
    | .ok (_, o) => applyAll env rest o

end SQLess.BlockProducer.Objects
