import SQLess.Lib.FiniteMap
import SQLess.Lib.Program
import SQLess.Types.VerifierCore

/-! The two-layer account state of `blockproducer/metastate.go`. An operation may return an error
after it has written. Objects are values; only `storeBaseAccount` changes an object of the read-only
layer in place. `ObjectsCore` has the pointers. -/

namespace SQLess.BlockProducer

open Lib

def safeAdd (x y : UInt64) : Except Err UInt64 :=
  if x + y < x then .error .balanceOverflow else .ok (x + y)

def safeSub (x y : UInt64) : Except Err UInt64 :=
  if x < y then .error .insufficientBalance else .ok (x - y)

structure MetaIndex where
  accounts : FiniteMap AccountAddress Account
  databases : FiniteMap DatabaseID SQLChainProfile
  provider : FiniteMap AccountAddress ProviderProfile

def newMetaIndex : MetaIndex := ⟨∅, ∅, ∅⟩

/-- The dirty layer, where a nil pointer marks a deletion. -/
structure DirtyIndex where
  accounts : FiniteMap AccountAddress (Option Account)
  databases : FiniteMap DatabaseID (Option SQLChainProfile)
  provider : FiniteMap AccountAddress (Option ProviderProfile)

def newDirtyIndex : DirtyIndex := ⟨∅, ∅, ∅⟩

structure MetaState where
  dirty : DirtyIndex
  readonly : MetaIndex

abbrev MetaProgram (α : Type) := Program MetaState Err α

namespace MetaState

def new : MetaState := ⟨newDirtyIndex, newMetaIndex⟩

variable (s : MetaState) (k : AccountAddress)

def view : MetaIndex where
  accounts := FiniteMap.overlay s.dirty.accounts s.readonly.accounts
  databases := FiniteMap.overlay s.dirty.databases s.readonly.databases
  provider := FiniteMap.overlay s.dirty.provider s.readonly.provider

def commit : MetaState := ⟨newDirtyIndex, s.view⟩

def clean : MetaState := { s with dirty := newDirtyIndex }

def makeCopy : MetaState := ⟨newDirtyIndex, s.readonly⟩

def setDirtyAccount (v : Account) : MetaState :=
  { s with dirty := { s.dirty with accounts := s.dirty.accounts.insert k (some v) } }

def setReadonlyAccount (v : Account) : MetaState :=
  { s with readonly := { s.readonly with accounts := s.readonly.accounts.insert k v } }

def setDirtyDatabase (k : DatabaseID) (v : SQLChainProfile) : MetaState :=
  { s with dirty := { s.dirty with databases := s.dirty.databases.insert k (some v) } }

def setDirtyProvider (v : ProviderProfile) : MetaState :=
  { s with dirty := { s.dirty with provider := s.dirty.provider.insert k (some v) } }

def deleteProviderObject : MetaState :=
  { s with dirty := { s.dirty with provider := s.dirty.provider.insert k none } }

def lookupAccount : Option (Option Account) :=
  match s.dirty.accounts.get k with
  | some entry => some entry
  | none => (s.readonly.accounts.get k).map some

def loadAccountObject : Option Account :=
  match s.dirty.accounts.get k with
  | some entry => entry
  | none => s.readonly.accounts.get k

def loadSQLChainObject (k : DatabaseID) : Option SQLChainProfile :=
  match s.dirty.databases.get k with
  | some entry => entry
  | none => s.readonly.databases.get k

def loadProviderObject : Option ProviderProfile :=
  match s.dirty.provider.get k with
  | some entry => entry
  | none => s.readonly.provider.get k

inductive Layer where
  | dirty
  | readonly

def findAccountObject : Option (Layer × Account) :=
  match s.dirty.accounts.get k with
  | some (some o) => some (.dirty, o)
  | _ => (s.readonly.accounts.get k).map fun o => (.readonly, o)

def setAccountIn (layer : Layer) (k : AccountAddress) (v : Account) : MetaState :=
  match layer with
  | .dirty => s.setDirtyAccount k v
  | .readonly => s.setReadonlyAccount k v

end MetaState

variable (env : Env) (k : AccountAddress) (order : MinerOrder) (req : CreateDatabaseHeader)
  (tx : SignedTx CreateDatabaseHeader) (user : AccountAddress)

def loadOrStoreAccountObject (v : Account) :
    MetaProgram (Option (MetaState.Layer × Account)) := do
  let s ← Program.get
  match s.findAccountObject k with
  | some found => pure (some found)
  | none => do
    Program.modify (·.setDirtyAccount k v)
    pure none

def dirtyAccount (missing : Err) : MetaProgram Account := do
  let s ← Program.get
  match s.dirty.accounts.get k with
  | some entry => Program.orPanic entry
  | none =>
    match s.readonly.accounts.get k with
    | none => Program.fail missing
    | some src => do
      Program.modify (·.setDirtyAccount k src)
      pure src

def storeBaseAccount (v : Account) : MetaProgram Unit := do
  match ← loadOrStoreAccountObject k v with
  | none => pure ()
  | some (layer, ao) =>
    if ao.nextNonce ≠ 0 then Program.fail .accountExists
    else do
      let cb ← Program.orFail (safeAdd ao.tokenBalance.wave v.tokenBalance.wave)
      let sb ← Program.orFail (safeAdd ao.tokenBalance.particle v.tokenBalance.particle)
      Program.modify (·.setAccountIn layer k { ao with tokenBalance := ⟨sb, cb⟩ })

def adjustAccountToken (change : UInt64 → UInt64 → Except Err UInt64) (context : String)
    (k : AccountAddress) (amount : UInt64) (tokenType : TokenType) : MetaProgram Unit := do
  let dst ← dirtyAccount k (.wrapped context .accountNotFound)
  let token ← Program.orPanic tokenType.token?
  let balance ← Program.orFail (change (dst.tokenBalance.get token) amount)
  Program.modify
    (·.setDirtyAccount k { dst with tokenBalance := dst.tokenBalance.set token balance })

def increaseAccountToken : AccountAddress → UInt64 → TokenType → MetaProgram Unit :=
  adjustAccountToken safeAdd "increase account balance fail"

def decreaseAccountToken : AccountAddress → UInt64 → TokenType → MetaProgram Unit :=
  adjustAccountToken safeSub "decrease account balance fail"

def increaseAccountStableBalance (amount : UInt64) : MetaProgram Unit :=
  increaseAccountToken k amount Token.particle.tokenType

def decreaseAccountStableBalance (amount : UInt64) : MetaProgram Unit :=
  decreaseAccountToken k amount Token.particle.tokenType

def moveAccountToken (sender receiver : AccountAddress) (amount : UInt64)
    (tokenType : TokenType) : MetaProgram Unit := do
  let _ ← loadOrStoreAccountObject receiver (Account.new receiver)
  let s ← Program.get
  match s.lookupAccount sender, s.lookupAccount receiver with
  | some so, some ro => do
    let so ← Program.orPanic so
    let ro ← Program.orPanic ro
    let token ← Program.orPanic tokenType.token?
    let sb ← Program.orFail (safeSub (so.tokenBalance.get token) amount)
    let rb ← Program.orFail (safeAdd (ro.tokenBalance.get token) amount)
    Program.modify fun s =>
      (s.setDirtyAccount sender
        { so with tokenBalance := so.tokenBalance.set token sb }).setDirtyAccount receiver
        { ro with tokenBalance := ro.tokenBalance.set token rb }
  | _, _ => Program.fail .accountNotFound

def transferAccountToken (transfer : SignedTx TransferHeader) : MetaProgram Unit :=
  match pubKeyHash env transfer.verifier.signee with
  | .error error => Program.fail (.wrapped "applyTx failed" error)
  | .ok realSender =>
    if realSender ≠ transfer.header.sender then
      Program.fail (.wrapped "applyTx failed" .invalidSender)
    else if transfer.header.sender = transfer.header.receiver ∨ transfer.header.amount = 0 then
      pure ()
    else
      moveAccountToken transfer.header.sender transfer.header.receiver
        transfer.header.amount transfer.header.tokenType

/-- `nextNonce`; the outer `none` is a nil dereference. -/
def MetaState.nextNonce (s : MetaState) (addr : AccountAddress) :
    Option (Except Err AccountNonce) :=
  match s.lookupAccount addr with
  | none => some (.error .accountNotFound)
  | some entry => entry.map fun o => .ok o.nextNonce

def increaseNonce (addr : AccountAddress) : MetaProgram Unit := do
  let dst ← dirtyAccount addr .accountNotFound
  Program.modify (·.setDirtyAccount addr { dst with nextNonce := dst.nextNonce + 1 })

def refundProvider (sender : AccountAddress) (height : Nat) : MetaProgram Unit :=
  if bpHeightCIPFixProvideService ≤ height then do
    let s ← Program.get
    match s.loadProviderObject sender with
    | some po => do
      increaseAccountStableBalance sender po.deposit
      Program.modify (·.deleteProviderObject sender)
    | none => pure ()
  else pure ()

def newProviderProfile (tx : SignedTx ProvideServiceHeader)
    (sender : AccountAddress) : ProviderProfile where
  provider := sender
  space := tx.header.space
  memory := tx.header.memory
  loadAvgPerCPU := tx.header.loadAvgPerCPU
  targetUser := tx.header.targetUser
  deposit := env.minProviderDeposit
  gasPrice := tx.header.gasPrice
  tokenType := Token.particle.tokenType
  nodeID := tx.header.nodeID

def updateProviderList (env : Env) (tx : SignedTx ProvideServiceHeader) (height : Nat) :
    MetaProgram Unit :=
  match pubKeyHash env tx.verifier.signee with
  | .error error => Program.fail (.wrapped "updateProviderList failed" error)
  | .ok sender => do
    refundProvider sender height
    decreaseAccountStableBalance sender env.minProviderDeposit
    Program.modify (·.setDirtyProvider sender (newProviderProfile env tx sender))

def minDeposit (gasPrice minerNumber : UInt64) : UInt64 :=
  gasPrice * env.qps.toUInt64 * env.billingBlockCount * minerNumber

def isProviderUserMatch (targetUsers : List AccountAddress) (user : AccountAddress) : Bool :=
  if 0 < targetUsers.length then targetUsers.contains user else true

def isProviderReqMatch (po : ProviderProfile) (req : CreateDatabaseHeader) : Except Err Unit :=
  if req.gasPrice < po.gasPrice then .error .gasPriceMismatch
  else if req.resourceMeta.loadAvgPerCPU.gt .zero &&
      po.loadAvgPerCPU.gt req.resourceMeta.loadAvgPerCPU then .error .loadAverageMismatch
  else if po.memory < req.resourceMeta.memory then .error .memoryMismatch
  else if po.space < req.resourceMeta.space then .error .diskSpaceMismatch
  else if po.tokenType ≠ req.tokenType then .error .tokenTypeMismatch
  else .ok ()

def newMinerInfo (po : ProviderProfile) : MinerInfo where
  address := po.provider
  nodeID := po.nodeID
  pendingIncome := 0
  receivedIncome := 0
  userArrears := []
  deposit := po.deposit
  encryptionKey := ""

def filterMiner (po : ProviderProfile) (req : CreateDatabaseHeader) (user : AccountAddress) :
    Except Err MinerInfo :=
  if isProviderUserMatch po.targetUser user then
    (isProviderReqMatch po req).map fun _ => newMinerInfo po
  else .error .minerUserNotMatch

def matchTargetMiners (s : MetaState) (req : CreateDatabaseHeader) (user : AccountAddress) :
    List AccountAddress → List MinerInfo → Option Err → List MinerInfo × Option Err
  | [], miners, err => (miners, err)
  | m :: rest, miners, _ =>
    match s.loadProviderObject m with
    | none => matchTargetMiners s req user rest miners (some .noSuchMiner)
    | some po =>
      match filterMiner po req user with
      | .error error =>
        if miners.length = req.resourceMeta.node.toNat then (miners, some error)
        else matchTargetMiners s req user rest miners (some error)
      | .ok miner =>
        if (miners ++ [miner]).length = req.resourceMeta.node.toNat then
          (miners ++ [miner], none)
        else matchTargetMiners s req user rest (miners ++ [miner]) none

/-- The order in which a map iteration followed by `sort.Slice` lists miners: some
arrangement by node id, with equal ids in any order. -/
structure MinerOrder where
  list : Multiset MinerInfo → List MinerInfo
  perm : ∀ miners, (list miners : Multiset MinerInfo) = miners
  sorted : ∀ miners, (list miners).Pairwise fun left right => ¬right.nodeID < left.nodeID

def filterNMiners (s : MetaState) (req : CreateDatabaseHeader)
    (user : AccountAddress) (minerCount : Nat) : Except Err (List MinerInfo) :=
  let allProviderMap := s.view.provider.eraseAll req.resourceMeta.targetMiners
  let newMiners := allProviderMap.values.filterMap fun po => (filterMiner po req user).toOption
  if newMiners.card < minerCount then .error .noEnoughMiner
  else .ok ((order.list newMiners).take minerCount)

/-- The miners of a new database.  `none` is the early return of a nil error: wrapping a
nil error is nil, and the error variable is nil when the last designated miner matched. -/
def selectMiners (s : MetaState) (req : CreateDatabaseHeader)
    (user : AccountAddress) : Except Err (Option (List MinerInfo)) :=
  let minerCount := req.resourceMeta.node.toNat
  let (miners, err) := matchTargetMiners s req user req.resourceMeta.targetMiners [] none
  if miners.length < minerCount then
    if minerCount ≤ req.resourceMeta.targetMiners.length then
      match err with
      | some error => .error (.wrapped "miners match target are not enough" error)
      | none => .ok none
    else
      match filterNMiners order s req user (minerCount - miners.length) with
      | .error error => .error error
      | .ok newMiners => .ok (some (miners ++ newMiners))
  else .ok (some miners)

def sqlchainPeriod : UInt64 := 60 * 24 * 30

def newSQLChainUser (sender : AccountAddress) (deposit advancePayment : UInt64) : SQLChainUser where
  address := sender
  permission := some (.fromRole UserPermission.admin)
  advancePayment := advancePayment
  arrears := 0
  deposit := deposit
  status := .normal

def minAdvancePayment : UInt64 :=
  minDeposit env req.gasPrice req.resourceMeta.node.toUInt64

def newSQLChainProfile (sender : AccountAddress) (miners : List MinerInfo) (enc : List UInt8) :
    SQLChainProfile where
  id := fromAccountAndNonce env tx.header.owner tx.header.nonce
  address := (fromAccountAndNonce env tx.header.owner tx.header.nonce).accountAddress
  period := sqlchainPeriod
  gasPrice := tx.header.gasPrice
  lastUpdatedHeight := 0
  tokenType := Token.particle.tokenType
  owner := sender
  miners := miners
  users := [newSQLChainUser sender (minAdvancePayment env tx.header) tx.header.advancePayment]
  encodedGenesis := enc
  resourceMeta := tx.header.resourceMeta

def storeProfile (profile : SQLChainProfile) (s : MetaState) : MetaState :=
  profile.miners.foldl (fun s miner => s.deleteProviderObject miner.address)
    ((s.setDirtyAccount profile.address (Account.new profile.address)).setDirtyDatabase
      profile.id profile)

def createProfile (sender : AccountAddress)
    (miners : List MinerInfo) : MetaProgram Unit := do
  let all ← Program.orFail (safeAdd (minAdvancePayment env tx.header) tx.header.advancePayment)
  decreaseAccountToken sender all tx.header.tokenType
  let enc ← Program.orFail (match env.encodeGenesis tx.mixin.timestamp with
    | some enc => .ok enc
    | none => .error .encoding)
  let s ← Program.get
  match s.loadSQLChainObject (fromAccountAndNonce env tx.header.owner tx.header.nonce) with
  | some _ => Program.fail (.wrapped "database exists" .databaseExists)
  | none => Program.modify (storeProfile (newSQLChainProfile env tx sender miners enc))

def matchProvidersWithUser : MetaProgram Unit :=
  match pubKeyHash env tx.verifier.signee with
  | .error error => Program.fail (.wrapped "matchProviders failed" error)
  | .ok sender =>
    if sender ≠ tx.header.owner then Program.fail (.wrapped "match failed" .invalidSender)
    else if tx.header.gasPrice = 0 then Program.fail .invalidGasPrice
    else if tx.header.resourceMeta.node = 0 then Program.fail .invalidMinerCount
    else if tx.header.advancePayment < minAdvancePayment env tx.header then
      Program.fail .insufficientAdvancePayment
    else do
      let s ← Program.get
      match ← Program.orFail (selectMiners order s tx.header sender) with
      | none => pure ()
      | some miners => createProfile env tx sender miners

def scanUsers (sender targetUser : AccountAddress) :
    List SQLChainUser → Nat → Nat → Option Nat → Except Err (Nat × Option Nat)
  | [], _, numOfSuperUsers, targetUserIndex => .ok (numOfSuperUsers, targetUserIndex)
  | u :: rest, index, numOfSuperUsers, targetUserIndex =>
    if sender = u.address ∧ ¬UserPermission.hasSuperPermission u.permission then
      .error .accountPermissionDeny
    else
      scanUsers sender targetUser rest (index + 1)
        (if UserPermission.hasSuperPermission u.permission then numOfSuperUsers + 1
          else numOfSuperUsers)
        (if targetUser = u.address then some index else targetUserIndex)

def setPermission (header : UpdatePermissionHeader) (users : List SQLChainUser) :
    Option Nat → List SQLChainUser
  | none => users ++ [{
      address := header.targetUser
      permission := header.permission
      advancePayment := 0
      arrears := 0
      deposit := 0
      status := .unknownStatus }]
  | some index => users.modify index fun u => { u with permission := header.permission }

def updatePermission (tx : SignedTx UpdatePermissionHeader) : MetaProgram Unit :=
  match pubKeyHash env tx.verifier.signee with
  | .error error => Program.fail error
  | .ok sender => do
    let s ← Program.get
    match s.loadSQLChainObject (databaseID tx.header.targetSQLChain) with
    | none => Program.fail .databaseNotFound
    | some so => do
      let scanned ← Program.orFail (scanUsers sender tx.header.targetUser so.users 0 0 none)
      if scanned.1 ≤ 1 ∧ tx.header.targetUser = sender ∧
          ¬UserPermission.hasSuperPermission tx.header.permission then
        Program.fail .noSuperUserLeft
      else
        Program.modify (·.setDirtyDatabase (databaseID tx.header.targetSQLChain)
          { so with users := setPermission tx.header so.users scanned.2 })

def keyOf (keys : List MinerKey) (miner : AccountAddress) : Option String :=
  keys.foldl (fun key entry => if entry.miner = miner then some entry.encryptionKey else key) none

def setKeys (keys : List MinerKey) (miners : List MinerInfo) : List MinerInfo :=
  miners.map fun miner =>
    match keyOf keys miner.address with
    | some key => { miner with encryptionKey := key }
    | none => miner

/-- `updateKeys`: the keys are written to the loaded copy of the profile, which is not
stored, so a successful call leaves the state as it was. -/
def updateKeys (tx : SignedTx IssueKeysHeader) : MetaProgram Unit := do
  let sender := signeeAddress env tx.verifier.signee
  let s ← Program.get
  match s.loadSQLChainObject (databaseID tx.header.targetSQLChain) with
  | none => Program.fail .databaseNotFound
  | some so =>
    let _copy : SQLChainProfile :=
      { so with miners := setKeys tx.header.minerKeys so.miners }
    match so.users.find? fun user => sender = user.address with
    | some user =>
      if UserPermission.hasSuperPermission user.permission then pure ()
      else Program.fail .accountPermissionDeny
    | none => pure ()

def costOf (users : List UserCost) (user : AccountAddress) : UInt64 :=
  users.foldl (fun cost entry => if entry.user = user then entry.cost else cost) 0

def incomeOf (users : List UserCost) (user miner : AccountAddress) : UInt64 :=
  users.foldl (fun total entry =>
    if entry.user = user then
      (entry.miners.filterMap id).foldl
        (fun total income => if income.miner = miner then total + income.income else total) total
    else total) 0

def addArrears (diff : UInt64) (arrears : List UserArrears) : List UserArrears × UInt64 :=
  if arrears.any fun entry => entry.user = user then
    (arrears.map fun entry =>
        if entry.user = user then { entry with arrears := entry.arrears + diff } else entry,
      (arrears.filter fun entry => entry.user = user).foldl (fun total _ => total + diff) 0)
  else (arrears ++ [⟨user, diff⟩], diff)

def billUser (gasPrice : UInt64) (costs : List UserCost) (user : SQLChainUser)
    (miners : List MinerInfo) : SQLChainUser × List MinerInfo :=
  let cost := costOf costs user.address * gasPrice
  if cost ≤ user.advancePayment then
    ({ user with advancePayment := user.advancePayment - cost },
      miners.map fun miner =>
        { miner with pendingIncome :=
            miner.pendingIncome + incomeOf costs user.address miner.address * gasPrice })
  else
    let bill (miner : MinerInfo) : MinerInfo × UInt64 :=
      let income := incomeOf costs user.address miner.address * gasPrice
      let minerIncome := env.scaleIncome income user.advancePayment cost
      let (arrears, growth) := addArrears user.address (income - minerIncome) miner.userArrears
      ({ miner with pendingIncome := miner.pendingIncome + minerIncome, userArrears := arrears },
        growth)
    ({ user with
        advancePayment := 0
        status := .arrears
        arrears := miners.foldl (fun total miner => total + (bill miner).2) user.arrears },
      miners.map fun miner => (bill miner).1)

def billUsers (env : Env) (gasPrice : UInt64) (costs : List UserCost) :
    List SQLChainUser → List MinerInfo → List SQLChainUser × List MinerInfo
  | [], miners => ([], miners)
  | user :: rest, miners =>
    let (user, miners) := billUser env gasPrice costs user miners
    let (rest, miners) := billUsers env gasPrice costs rest miners
    (user :: rest, miners)

def userCosts (users : List (Option UserCost)) : Option (List UserCost) :=
  users.mapM fun entry =>
    entry.bind fun cost => if cost.miners.all Option.isSome then some cost else none

def updateBilling (tx : SignedTx UpdateBillingHeader) : MetaProgram Unit := do
  let s ← Program.get
  match s.loadSQLChainObject (databaseID tx.header.receiver) with
  | none => Program.fail (.wrapped "update billing failed" .databaseNotFound)
  | some newProfile =>
    if 0 < tx.header.version ∧ (tx.header.rangeTo ≤ tx.header.rangeFrom ∨
        newProfile.lastUpdatedHeight ≠ tx.header.rangeFrom) then
      Program.fail (.wrapped "update billing within range" .invalidRange)
    else if newProfile.gasPrice = 0 then pure ()
    else
      let minerAddr := signeeAddress env tx.verifier.signee
      let miners := newProfile.miners.map fun miner =>
        { miner with
            receivedIncome := miner.receivedIncome + miner.pendingIncome
            pendingIncome := 0 }
      if miners.any fun miner => miner.address = minerAddr then do
        let costs ← Program.orPanic (userCosts tx.header.users)
        let (users, miners) := billUsers env newProfile.gasPrice costs newProfile.users miners
        Program.modify (·.setDirtyDatabase (databaseID tx.header.receiver)
          { newProfile with
              miners := miners
              users := users
              lastUpdatedHeight := tx.header.rangeTo })
      else Program.fail .invalidSender

/-- The loop over `miner.UserArrears`: `index` advances only past the entries of other
users, and the income is read at `index`. -/
def settleArrears (user : AccountAddress) (all : List UserArrears) :
    List UserArrears → Nat → UInt64 → UInt64
  | [], _, income => income
  | entry :: rest, index, income =>
    if entry.user = user then
      settleArrears user all rest index (income + (all[index]?.elim 0 UserArrears.arrears))
    else settleArrears user all rest (index + 1) income

def depositAmount (minDep amount : UInt64) (user : SQLChainUser) : Except Err SQLChainUser :=
  let paid : Except Err SQLChainUser :=
    if user.deposit < minDep then
      if amount ≤ minDep - user.deposit then .ok { user with deposit := user.deposit + amount }
      else .ok { user with
        deposit := minDep
        advancePayment := user.advancePayment + (amount - (minDep - user.deposit)) }
    else (safeAdd user.advancePayment amount).map fun advance =>
      { user with advancePayment := advance }
  paid.map fun user =>
    if ¬user.status.enableQuery ∧ minDep < user.advancePayment then
      { user with status := .normal }
    else user

def topUp (sqlchain : SQLChainProfile) (index : Nat) (user : SQLChainUser)
    (amount : UInt64) : Except Err SQLChainProfile :=
  let minDep := minDeposit env sqlchain.gasPrice sqlchain.miners.length.toUInt64
  if 0 < user.arrears then
    if user.arrears ≤ amount then
      let miners := sqlchain.miners.map fun miner =>
        { miner with pendingIncome :=
            settleArrears user.address miner.userArrears miner.userArrears 0 miner.pendingIncome }
      (depositAmount minDep amount { user with arrears := 0, status := .normal }).map fun user =>
        { sqlchain with miners := miners, users := sqlchain.users.set index user }
    else .error .insufficientTransfer
  else
    (depositAmount minDep amount user).map fun user =>
      { sqlchain with users := sqlchain.users.set index user }

def transferSQLChainTokenBalance (transfer : SignedTx TransferHeader) : MetaProgram Unit :=
  match transfer.verifier.signee with
  | none => Program.fail .invalidSender
  | some signee =>
    match pubKeyHash env (some signee) with
    | .error error => Program.fail (.wrapped "applyTx failed" error)
    | .ok realSender =>
      if realSender ≠ transfer.header.sender then
        Program.fail (.wrapped "applyTx failed" .invalidSender)
      else do
        let s ← Program.get
        match s.loadSQLChainObject (databaseID transfer.header.receiver) with
        | none => Program.fail .databaseNotFound
        | some sqlchain =>
          if sqlchain.tokenType ≠ transfer.header.tokenType then
            Program.fail .wrongTokenType
          else do
            let account ← Program.orPanic (s.loadAccountObject realSender)
            let token ← Program.orPanic transfer.header.tokenType.token?
            let balance := account.tokenBalance.get token
            if balance < transfer.header.amount then Program.fail .insufficientBalance
            else
              match sqlchain.users.findIdx? fun user =>
                  user.address = transfer.header.sender with
              | none => pure ()
              | some index => do
                let user ← Program.orPanic sqlchain.users[index]?
                let sqlchain ←
                  Program.orFail (topUp env sqlchain index user transfer.header.amount)
                Program.modify fun s =>
                  (s.setDirtyDatabase (databaseID transfer.header.receiver)
                    sqlchain).setDirtyAccount
                    realSender { account with tokenBalance :=
                      account.tokenBalance.set token (balance - transfer.header.amount) }

def applyTransaction (env : Env) (order : MinerOrder) (height : Nat) :
    Transaction → MetaProgram Unit
  | .transfer tx =>
    (transferSQLChainTokenBalance env tx).handle (fun error => error = .databaseNotFound)
      (transferAccountToken env tx)
  | .baseAccount account _ => storeBaseAccount account.address account
  | .provideService tx => updateProviderList env tx height
  | .createDatabase tx => matchProvidersWithUser env order tx
  | .updatePermission tx => updatePermission env tx
  | .issueKeys tx => updateKeys env tx
  | .updateBilling tx => updateBilling env tx
  | .wrapper inner => applyTransaction env order height inner

/-- The nonce the next transaction of the account must carry: the first nonce of an
account that a base account transaction creates is 0. -/
def expectedNonce (t : Transaction) : MetaProgram AccountNonce := do
  let s ← Program.get
  let checked ← Program.orPanic (s.nextNonce (t.getAccountAddress env))
  match checked with
  | .ok nonce => pure nonce
  | .error error =>
    if t.getTransactionType ≠ transactionTypeBaseAccount then Program.fail error else pure 0

def apply (t : Transaction) (height : Nat) :
    MetaProgram Unit := do
  let nextNonce ← expectedNonce env t
  if nextNonce ≠ t.getAccountNonce then Program.fail .invalidAccountNonce
  else do
    applyTransaction env order height t
    increaseNonce (t.getAccountAddress env)

end SQLess.BlockProducer
