import SQLess.BlockProducer.StorageCore

/-! The block producer chain of `blockproducer/chain.go`. -/

namespace SQLess.BlockProducer

open Lib

structure BlockProducerInfo where
  rank : Nat
  total : Nat
  nodeID : NodeID

structure Config where
  genesis : BPBlock
  period : Int
  address : AccountAddress
  confirms : Nat
  bpInfos : List BlockProducerInfo

/-- `headBranch` points to an entry of `branches`: what changes that object in place changes
both fields. -/
structure Chain where
  config : Config
  lastIrre : BlockNode
  immutable : MetaState
  headIndex : Nat
  headBranch : Branch
  branches : List Branch
  txPool : TxPool
  storage : Storage

abbrev ChainProgram (α : Type) := Program Chain Err α

/-- What a call cannot control: the order of map iterations, for branches and for the
immutable state, and whether the database transaction succeeds. -/
structure Choice where
  branchOrders : Orders
  immutableOrders : Orders
  stored : Bool

/-- `t.Sub(u)`, which saturates. -/
def timeSub (t u : Time) : Int := max (-2 ^ 63) (min (2 ^ 63 - 1) (t - u))

def Config.heightOfTime (config : Config) (t : Time) : Nat :=
  ((timeSub t config.genesis.timestamp).tdiv config.period % 2 ^ 32).toNat

def Config.newNode (config : Config) (bl : BPBlock) (parent : BlockNode) : BlockNode :=
  newBlockNode (config.heightOfTime bl.timestamp) bl (some parent)

def Chain.newNode (c : Chain) (bl : BPBlock) (parent : BlockNode) : BlockNode :=
  c.config.newNode bl parent

namespace Chain

def setBranch (c : Chain) (index : Nat) (b : Branch) : Chain :=
  { c with
    branches := c.branches.set index b
    headBranch := if index = c.headIndex then b else c.headBranch }

def storeTx (stored : Bool) (tx : Transaction) : ChainProgram Unit := fun c =>
  if c.txPool.contains tx.hash then .ok (.error .existedTx, c)
  else
    match store stored [addTx tx] c.storage with
    | .error reason => .error reason
    | .ok (.error error) => .ok (.error error, c)
    | .ok (.ok storage) => .ok (.ok (), { c with
        storage := storage
        txPool := c.txPool.add tx
        branches := c.branches.map (·.addTx tx)
        headBranch := c.headBranch.addTx tx })

end Chain

def applyIrreversible (env : Env) : Orders → List (Transaction × Nat) → MetaState →
    Except Halt MetaState
  | _, [], s => .ok s
  | orders, (tx, height) :: rest, s =>
    match apply env (orders 0) tx height s with
    | .error reason => .error reason
    | .ok (.error _, _) => .error .fatal
    | .ok (.ok (), s) => applyIrreversible env (orders.drop 1) rest s

def isExpired (env : Env) (immutable : MetaState) (tx : Transaction) : Bool :=
  match immutable.nextNonce (tx.getAccountAddress env) with
  | some (.ok base) => tx.getAccountNonce < base
  | _ => true

def pruneBranches (lastIrre : BlockNode) (originBrIdx : Nat) (newBranch : Branch) :
    Nat → List Branch → List Branch → Nat → List Branch × Nat
  | _, [], brs, idx => (brs, idx)
  | i, b :: rest, brs, idx =>
    if i = originBrIdx then
      pruneBranches lastIrre originBrIdx newBranch (i + 1) rest
        (brs ++ [newBranch.commitPreview]) brs.length
    else if b.head.hasAncestor lastIrre then
      pruneBranches lastIrre originBrIdx newBranch (i + 1) rest (brs ++ [b]) idx
    else pruneBranches lastIrre originBrIdx newBranch (i + 1) rest brs idx

def Branch.clearTxs (b : Branch) (newIrres : List BlockNode) (expiredTxs : TxPool) : Branch :=
  (newIrres.foldl (fun b n => b.clearPackedTxs n.load.transactions) b).clearUnpackedTxs expiredTxs

namespace Chain

/-- `replaceAndSwitchToBranch` up to the call of `store`: the new irreversible blocks, the
immutable state with their changes, the remaining pool and the expired transactions. -/
structure Switch where
  lastIrre : BlockNode
  newIrres : List BlockNode
  immutable : MetaState
  resultTxPool : TxPool
  expiredTxs : TxPool

variable (env : Env) (choice : Choice) (bl : BPBlock)

def prepareSwitch (orders : Orders) (c : Chain) (newBranch : Branch) : Except Halt Switch :=
  let lastIrre := newBranch.head.lastIrreversible c.config.confirms
  let newIrres := lastIrre.fetchNodeList (c.lastIrre.count + 1)
  match applyIrreversible env orders (newIrres.flatMap BlockNode.txs) c.immutable with
  | .error reason => .error reason
  | .ok immutable =>
    let pool := c.txPool.deleteBlocks newIrres
    .ok {
      lastIrre := lastIrre
      newIrres := newIrres
      immutable := immutable
      resultTxPool := pool.keep fun tx => !isExpired env immutable tx
      expiredTxs := pool.keep fun tx => isExpired env immutable tx }

def switchProcedures (c : Chain) (newBlock : BPBlock) (switch : Switch) : List StorageProcedure :=
  let height := c.config.heightOfTime newBlock.timestamp
  [compileChanges switch.immutable, addBlock height newBlock, buildBlockIndex height newBlock] ++
    switch.newIrres.map (fun n => deleteTxs n.load.transactions) ++
    [deleteExpiredTxs switch.expiredTxs, updateIrreversible switch.lastIrre.hash,
      recordApplied switch.newIrres]

def finishSwitch (c : Chain) (storage : Storage) (originBrIdx : Nat) (newBranch : Branch)
    (switch : Switch) : Chain :=
  let pruned := pruneBranches switch.lastIrre originBrIdx newBranch 0 c.branches [] 0
  { c with
    storage := storage
    lastIrre := switch.lastIrre
    immutable := switch.immutable.commit
    headBranch := newBranch.commitPreview.clearTxs switch.newIrres switch.expiredTxs
    headIndex := pruned.2
    branches := pruned.1.map fun b => b.clearTxs switch.newIrres switch.expiredTxs
    txPool := switch.resultTxPool }

def replaceAndSwitchToBranch (newBlock : BPBlock)
    (originBrIdx : Nat) (newBranch : Branch) : ChainProgram Unit := fun c =>
  match prepareSwitch env choice.immutableOrders c newBranch with
  | .error reason => .error reason
  | .ok switch =>
    match store choice.stored (c.switchProcedures newBlock switch) c.storage with
    | .error reason => .error reason
    | .ok (.error error) => .ok (.error error, { c with immutable := switch.immutable.clean })
    | .ok (.ok storage) => .ok (.ok (), c.finishSwitch storage originBrIdx newBranch switch)

def growBranch (i : Nat) (v : Branch) :
    ChainProgram Unit := fun c =>
  match v.applyBlock env choice.branchOrders (c.newNode bl v.head) with
  | .error reason => .error reason
  | .ok (.error error, origin) =>
    .ok (.error (.wrapped "failed to apply block" error), c.setBranch i origin)
  | .ok (.ok br, origin) =>
    let c := c.setBranch i origin
    if br.head.count ≤ c.headBranch.head.count then
      match store choice.stored [addBlock (c.config.heightOfTime bl.timestamp) bl] c.storage with
      | .error reason => .error reason
      | .ok (.error error) => .ok (.error error, c)
      | .ok (.ok storage) => .ok (.ok (), { c with
          storage := storage
          branches := c.branches.set i br.commitPreview })
    else replaceAndSwitchToBranch env choice bl i br c

def forkBranch (parent : BlockNode) :
    ChainProgram Unit := fun c =>
  match newBranch env choice.branchOrders c.lastIrre (c.newNode bl parent) c.immutable
      c.txPool with
  | .error reason => .error reason
  | .ok (.error error) => .ok (.error (.wrapped "failed to fork" error), c)
  | .ok (.ok br) =>
    match store choice.stored [addBlock (c.config.heightOfTime bl.timestamp) bl] c.storage with
    | .error reason => .error reason
    | .ok (.error error) => .ok (.error error, c)
    | .ok (.ok storage) => .ok (.ok (), { c with
        storage := storage
        branches := c.branches ++ [br] })

def knownBlock (c : Chain) (bl : BPBlock) : Bool :=
  c.branches.any fun v =>
    match v.head.ancestor (c.config.heightOfTime bl.timestamp) with
    | some n => n.hash = bl.blockHash
    | none => false

def findParent (c : Chain) (bl : BPBlock) : Option BlockNode :=
  c.branches.findSome? fun v => v.head.hasAncestorWithMinCount bl.parentHash c.lastIrre.count

def applyBlock : ChainProgram Unit := fun c =>
  match c.branches.zipIdx.find? fun entry => entry.1.head.hash = bl.parentHash with
  | some (v, i) => growBranch env choice bl i v c
  | none =>
    if c.knownBlock bl then .ok (.ok (), c)
    else
      match c.findParent bl with
      | some parent => forkBranch env choice bl parent c
      | none => .ok (.error .parentNotFound, c)

def pushBlock (b : BPBlock) : ChainProgram Unit := fun c =>
  match b.verify env with
  | none => .error .panic
  | some (.error error) => .ok (.error (.wrapped "failed to check block" error), c)
  | some (.ok ()) =>
    match applyBlock env choice b c with
    | .ok (.error error, c) => .ok (.error (.wrapped "failed to apply block" error), c)
    | outcome => outcome

def produceAndStoreBlock (txs : List Transaction) (now : Time)
    (priv : PrivateKey) : ChainProgram BPBlock := fun c =>
  match c.headBranch.produceBlock env choice.branchOrders txs (c.config.heightOfTime now) now
      c.config.address priv with
  | .error reason => .error reason
  | .ok (.error error, origin) =>
    .ok (.error (.wrapped "failed to produce block" error), c.setBranch c.headIndex origin)
  | .ok (.ok (br, bl), origin) =>
    match replaceAndSwitchToBranch env choice bl c.headIndex br
        (c.setBranch c.headIndex origin) with
    | .error reason => .error reason
    | .ok (.error error, c) => .ok (.error (.wrapped "failed to switch branch" error), c)
    | .ok (.ok (), c) => .ok (.ok bl, c)

def processAddTxReq (stored : Bool) (tx : Transaction) : ChainProgram Unit := fun c =>
  if c.txPool.contains tx.hash then .ok (.ok (), c)
  else
    match tx.verify env with
    | .error _ => .ok (.ok (), c)
    | .ok () =>
      match c.immutable.nextNonce (tx.getAccountAddress env) with
      | none => .error .panic
      | some (.error _) => .ok (.ok (), c)
      | some (.ok base) =>
        if tx.getAccountNonce < base ∨
            base + maxPendingTxsPerAccount ≤ tx.getAccountNonce then .ok (.ok (), c)
        else
          match storeTx stored tx c with
          | .error reason => .error reason
          | .ok (_, c) => .ok (.ok (), c)

/-- `queryTxState` of `chain_io.go`, where `readable` says whether the count can be read. -/
def queryTxState (readable : Bool) (hash : Hash) (c : Chain) : Except Err TransactionState :=
  match c.headBranch.queryTxState hash with
  | some state => .ok state
  | none =>
    if readable then
      let rows := c.storage.indexedTransactions
      .ok (if ∃ key ∈ rows.keys, rows.get key = some hash then .confirmed else .notFound)
    else .error .storage

end Chain

def initStorage (env : Env) (orders : Orders) (config : Config) (stored : Bool) :
    Except Halt (Except Err Storage) :=
  let genesis := newBlockNode 0 config.genesis none
  match packGenesis orders (config.genesis.transactions) MetaState.new with
  | .error reason => .error reason
  | .ok (.error error, _) => .ok (.error (.wrapped "failed to initialize immutable state" error))
  | .ok (.ok (), init) =>
    store stored [compileChanges init, addBlock 0 config.genesis,
      updateIrreversible config.genesis.blockHash, recordApplied [genesis]] openStorage
where
  packGenesis : Orders → List Transaction → MetaProgram Unit
    | _, [] => pure ()
    | orders, tx :: rest => do
      apply env (orders 0) tx 0
      packGenesis (orders.drop 1) rest

def rebuildBranches (env : Env) (orders : Orders) (lastIrre : BlockNode) (immutable : MetaState)
    (txPool : TxPool) : List BlockNode → Except Halt (Except Err (List Branch))
  | [] => .ok (.ok [])
  | v :: rest =>
    if v.hasAncestor lastIrre then
      match newBranch env orders lastIrre v immutable txPool with
      | .error reason => .error reason
      | .ok (.error error) => .ok (.error (.wrapped "failed to rebuild branch" error))
      | .ok (.ok br) =>
        match rebuildBranches env orders lastIrre immutable txPool rest with
        | .ok (.ok branches) => .ok (.ok (br :: branches))
        | failed => failed
    else rebuildBranches env orders lastIrre immutable txPool rest

def selectHead : List Branch → Nat → Option (Nat × Branch) → Option (Nat × Branch)
  | [], _, best => best
  | v :: rest, i, none => selectHead rest (i + 1) (some (i, v))
  | v :: rest, i, some (headIndex, headBranch) =>
    if headBranch.head.count < v.head.count then selectHead rest (i + 1) (some (i, v))
    else selectHead rest (i + 1) (some (headIndex, headBranch))

structure HeadOrder where
  list : FiniteMap Hash BlockNode → List BlockNode
  perm : ∀ heads, (list heads : Multiset BlockNode) = heads.values

def loadChain (env : Env) (orders : Orders) (headOrder : HeadOrder) (config : Config)
    (st : Storage) : Except Halt (Except Err Chain) :=
  match st.irreversible with
  | none => .ok (.error .storage)
  | some irreHash =>
    match loadBlocks st irreHash with
    | .error error => .ok (.error (.wrapped "failed to load data from storage" error))
    | .ok (lastIrre, heads) =>
      let immutable := loadImmutableState st
      if (lastIrre.ancestorByCount 0).map BlockNode.hash ≠ some config.genesis.blockHash then
        .ok (.error .genesisHashNotMatch)
      else
        match rebuildBranches env orders lastIrre immutable st.txPool
            (headOrder.list heads) with
        | .error reason => .error reason
        | .ok (.error error) => .ok (.error error)
        | .ok (.ok branches) =>
          match selectHead branches 0 none with
          | none => .ok (.error .noAvailableBranch)
          | some (headIndex, headBranch) =>
            .ok (.ok ⟨config, lastIrre, immutable, headIndex, headBranch, branches, st.txPool, st⟩)

def newChain (env : Env) (choice : Choice) (headOrder : HeadOrder) (config : Config)
    (existing : Option Storage) : Except Halt (Except Err Chain) :=
  match config.genesis.verifyHash env with
  | none => .error .panic
  | some (.error error) =>
    .ok (.error (.wrapped "failed to verify genesis block hash" error))
  | some (.ok ()) =>
    match existing with
    | some st => loadChain env choice.branchOrders headOrder config st
    | none =>
      match initStorage env choice.immutableOrders config choice.stored with
      | .error reason => .error reason
      | .ok (.error error) => .ok (.error error)
      | .ok (.ok st) => loadChain env choice.branchOrders headOrder config st

end SQLess.BlockProducer
