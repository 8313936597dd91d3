import SQLess.BlockProducer.ChainCore
import SQLess.Lib.OrderedStore
import SQLess.SQLChain.AckIndexCore

/-! The chain of a database with its index of blocks and its state (`sqlchain/chain.go`,
`sqlchain/runtime.go` and `sqlchain/blockindex.go`). -/

namespace SQLess.SQLChain

open Lib (FiniteMap OrderedStore)
open SQLess.Types
open Xenomint (State Engine IsolationLevel)
open BlockProducer (timeSub)

variable {DB Query Pattern Value : Type}

def int32 (n : Int) : Int := n.bmod (2 ^ 32)

inductive BlockNode (Query : Type) where
  | root (hash : Hash) (height : Int) (block : Option (Block Query))
  | child (parent : BlockNode Query) (hash : Hash) (height : Int) (block : Option (Block Query))

def newBlockNodeEx (height : Int) (hash : Hash) (block : Option (Block Query)) :
    Option (BlockNode Query) → BlockNode Query
  | none => .root hash height block
  | some parent => .child parent hash height block

def newBlockNode (height : Int) (block : Block Query) (parent : Option (BlockNode Query)) :
    BlockNode Query :=
  newBlockNodeEx height block.blockHash (some block) parent

namespace BlockNode

def hash : BlockNode Query → Hash
  | .root hash _ _ => hash
  | .child _ hash _ _ => hash

def height : BlockNode Query → Int
  | .root _ height _ => height
  | .child _ _ height _ => height

def load : BlockNode Query → Option (Block Query)
  | .root _ _ block => block
  | .child _ _ _ block => block

def count : BlockNode Query → Nat
  | .root _ _ _ => 0
  | .child parent _ _ _ => parent.count + 1

/-- A big-endian height and the hash, read as one number, so that the order of the keys is that
of the numbers. -/
def indexKey (n : BlockNode Query) : Nat := (n.height % 2 ^ 32).toNat * 2 ^ 256 + n.hash.toNat

end BlockNode

structure Head (Query : Type) where
  node : Option (BlockNode Query)
  head : Hash
  height : Int

structure Config (Query : Type) where
  period : Int
  tick : Int
  queryTTL : Int
  peers : List NodeID
  server : NodeID
  genesis : Option (Block Query)
  isolationLevel : IsolationLevel

structure Runtime (Query : Type) where
  chainInitTime : Time
  genesisHash : Hash
  period : Int
  tick : Int
  queryTTL : Int
  peers : List NodeID
  server : NodeID
  index : Int
  total : Int
  nextTurn : Int
  head : Head Query

def find (servers : List NodeID) (key : NodeID) : Option Int :=
  (servers.findIdx? (· == key)).map fun i => int32 i

namespace Runtime

variable (r : Runtime Query)

def setGenesis (b : Block Query) : Runtime Query :=
  { r with
    chainInitTime := b.timestamp
    genesisHash := b.blockHash
    head := ⟨none, b.genesisHash, 0⟩ }

def newRunTime (c : Config Query) : Runtime Query :=
  let r : Runtime Query :=
    { chainInitTime := 0
      genesisHash := 0
      period := c.period
      tick := c.tick
      queryTTL := c.queryTTL
      peers := c.peers
      server := c.server
      index := (find c.peers c.server).getD (-1)
      total := int32 c.peers.length
      nextTurn := 1
      head := ⟨none, 0, 0⟩ }
  match c.genesis with
  | none => r
  | some genesis => r.setGenesis genesis

def getHeightFromTime (t : Time) : Int :=
  int32 ((timeSub t r.chainInitTime).tdiv r.period)

def getMinValidHeight : Int := int32 (r.nextTurn - r.queryTTL)

def queryTimeIsExpired (t : Time) : Bool :=
  decide (r.getHeightFromTime t < r.getMinValidHeight)

def updatePeers (peers : List NodeID) : Runtime Query :=
  match find peers r.server with
  | some index => { r with index := index, total := int32 peers.length, peers := peers }
  | none => { r with index := -1, total := 0, peers := [] }

def isMyTurn : Bool :=
  decide (0 < r.total) && decide (r.nextTurn.tmod r.total = r.index)

def next : Int :=
  if 0 < int32 r.peers.length then (int32 (r.nextTurn - 1)).tmod (int32 r.peers.length) else -1

end Runtime

structure Chain (DB Query : Type) where
  bi : FiniteMap Hash (BlockNode Query)
  ai : AckIndex
  st : State DB Query
  rt : Runtime Query
  blkDB : OrderedStore Nat (Block Query)

namespace Chain

def addResponse (c : Chain DB Query) (resp : SignedResponseHeader) :
    Chain DB Query × Except Err Unit :=
  let (ai, result) :=
    c.ai.addResponse (c.rt.getHeightFromTime resp.header.request.timestamp) resp
  ({ c with ai := ai }, result)

def register (c : Chain DB Query) (ack : SignedAckHeader) : Chain DB Query × Except Err Unit :=
  let (ai, result) :=
    c.ai.register (c.rt.getHeightFromTime ack.header.response.request.timestamp) ack
  ({ c with ai := ai }, result)

def remove (c : Chain DB Query) (ack : SignedAckHeader) : Chain DB Query × Except Err Unit :=
  let (ai, result) :=
    c.ai.remove (c.rt.getHeightFromTime ack.header.response.request.timestamp) ack
  ({ c with ai := ai }, result)

variable (crypto : Crypto Query) (c : Chain DB Query)

def setHead (b : Block Query) : Chain DB Query :=
  let node := newBlockNode (c.rt.getHeightFromTime b.timestamp) b c.rt.head.node
  { c with
    blkDB := c.blkDB.put node.indexKey b
    rt := { c.rt with head := ⟨some node, node.hash, node.height⟩ }
    bi := c.bi.insert node.hash node }

/-- `put` says whether the block store takes the block.  Errors of the index of
acknowledgements are only logged. -/
def pushBlock (b : Block Query) (put : Bool) : Chain DB Query × Except Err Unit :=
  if put then
    let c := c.setHead b
    let c := b.queryTxs.foldl (fun c v => (c.addResponse v.response).1) c
    -- the log entry cuts the id of the producer after 8 bytes
    (b.acks.foldl (fun c v => (c.remove v).1) c,
      if b.producer.utf8ByteSize < 8 then .error .panic else .ok ())
  else (c, .error .storage)

def pushAckedQuery (ack : SignedAckHeader) (put : Bool) : Chain DB Query × Except Err Unit :=
  let h := c.rt.getHeightFromTime ack.header.response.timestamp
  match c.register ack with
  | (c, .error err) => (c, .error (.wrapped (.registerAck ack.hash h) err))
  | (c, .ok ()) =>
    if put then (c, .ok ()) else (c, .error (.wrapped (.putAck h ack.hash) .storage))

def verifyAndPushAckedQuery (ack : SignedAckHeader)
    (put : Bool) : Chain DB Query × Except Err Unit :=
  if c.rt.queryTimeIsExpired ack.header.response.timestamp then
    (c, .error (.wrapped (.verifyAckQuery c.rt.getMinValidHeight
      (c.rt.getHeightFromTime ack.header.timestamp)) .queryExpired))
  else
    match ack.verify crypto with
    | .error err => (c, .error (.types err))
    | .ok () => c.pushAckedQuery ack put

/-- What `produceBlock` finds: the orders in which maps are iterated, and the requests and
responses that the pool has pointers to. -/
structure Packing (Query : Type) where
  failedOrder : List Hash
  readOrder : List Hash
  ackOrder : Int → List QueryKey
  failedReqs : List (Request Query)
  queryTxs : List (QueryAsTx Query)

def Packs [DecidableEq Query] (p : Packing Query) : Prop :=
  p.failedReqs.map Request.view = (c.st.commitEx p.failedOrder p.readOrder).2.1 ∧
    p.queryTxs.map QueryAsTx.view =
      (c.st.commitEx p.failedOrder p.readOrder).2.2.map fun v => ⟨v.req, v.resp⟩

instance [DecidableEq Query] (c : Chain DB Query) (p : Packing Query) : Decidable (c.Packs p) :=
  inferInstanceAs (Decidable (_ ∧ _))

def packBlock (pk : PrivateKey) (c : Chain DB Query) (now : Time)
    (p : Packing Query) : Chain DB Query × Except Err (Block Query) :=
  let (ai, acks) := c.ai.acks (c.rt.getHeightFromTime now) p.ackOrder
  let block : Block Query :=
    { header :=
        { version := 0x01000000
          producer := c.rt.server
          genesisHash := c.rt.genesisHash
          parentHash := c.rt.head.head
          merkleRoot := 0
          timestamp := now }
      verifier := ⟨0, none, none⟩
      failedReqs := p.failedReqs
      queryTxs := p.queryTxs
      acks := acks }
  ({ c with ai := ai },
    match block.packAndSign crypto pk with
    | none => .error .panic
    | some (.error err) => .error (.types err)
    | some (.ok block) => .ok block)

def produceBlock (pk : PrivateKey) (c : Chain DB Query) (now : Time)
    (p : Packing Query) : Chain DB Query × Except Err (Option (Block Query)) :=
  let c := { c with st := (c.st.commitEx p.failedOrder p.readOrder).1 }
  if p.failedReqs = [] ∧ p.queryTxs = [] then (c, .ok none)
  else
    let (c, result) := c.packBlock crypto pk now p
    (c, result.map some)

def endTurn : Chain DB Query :=
  let rt := { c.rt with nextTurn := int32 (c.rt.nextTurn + 1) }
  { c with rt := rt, ai := c.ai.advance rt.getMinValidHeight }

def checkAndPushNewBlock (e : Engine DB Query Pattern Value)
    (c : Chain DB Query) (block : Block Query) (put : Bool) : Chain DB Query × Except Err Unit :=
  if c.rt.head.height = c.rt.getHeightFromTime block.timestamp ∧
      c.rt.head.head = block.blockHash then (c, .ok ())
  else if block.parentHash ≠ c.rt.head.head then (c, .error .invalidBlock)
  else
    match block.verify crypto with
    | none => (c, .error .panic)
    | some (.error err) => (c, .error (.types err))
    | some (.ok ()) =>
      -- a block of this server is not replayed
      if block.producer = c.rt.server then c.pushBlock block put
      else
        match find c.rt.peers block.producer with
        | none => (c, .error .unknownProducer)
        | some index =>
          if index ≠ c.rt.next then (c, .error .invalidProducer)
          else
            match c.st.replayBlock e block.view with
            | (st, .ok ()) => ({ c with st := st }).pushBlock block put
            | (st, .error err) => ({ c with st := st }, .error (.state err))
            | (st, .deadlock) => ({ c with st := st }, .error .panic)
            | (st, .panic) => ({ c with st := st }, .error .panic)

structure Loading (Query : Type) where
  rt : Runtime Query
  bi : FiniteMap Hash (BlockNode Query)
  last : Option (BlockNode Query)
  id : Nat

def Loading.add (l : Loading Query) (block : Block Query) (parent : Option (BlockNode Query)) :
    Loading Query :=
  -- blocks are not cached in reloading
  let last := newBlockNodeEx (l.rt.getHeightFromTime block.timestamp) block.blockHash none parent
  { l with
    bi := l.bi.insert last.hash last
    last := some last
    id := if block.calcNextID.2 = true ∧ l.id < block.calcNextID.1 then block.calcNextID.1
      else l.id }

def Loading.next (l : Loading Query) (block : Block Query) : Except Err (Loading Query) :=
  match l.last with
  | none =>
    match block.verifyAsGenesis crypto with
    | .error err => .error (.wrapped (.text "genesis verification failed") (.genesis err))
    | .ok () => .ok (({ l with rt := l.rt.setGenesis block } : Loading Query).add block none)
  | some last =>
    if block.parentHash = last.hash then
      match block.verify crypto with
      | none => .error .panic
      | some (.error err) =>
        .error (.wrapped (.text "block verification failed") (.types err))
      | some (.ok ()) => .ok (l.add block (some last))
    else
      match l.bi.get block.parentHash with
      | none => .error .parentNotFound
      | some parent => .ok (l.add block (some parent))

def loadBlocks (crypto : Crypto Query) :
    List (Block Query) → Loading Query → Except Err (Loading Query)
  | [], l => .ok l
  | block :: rest, l =>
    match l.next crypto block with
    | .error err => .error err
    | .ok l => loadBlocks crypto rest l

def newChain (config : Config Query) (strg : DB)
    (blkDB : OrderedStore Nat (Block Query)) : Except Err (Chain DB Query) :=
  let st := State.newState config.isolationLevel strg
  match loadBlocks crypto blkDB.values ⟨.newRunTime config, ∅, none, 0⟩ with
  | .error err => .error err
  | .ok l =>
    match l.last with
    | some last =>
      -- `updateMetrics` looks for the block of the head, which is not cached, by its height
      if last.height < 0 then .error .panic
      else .ok ⟨l.bi, newAckIndex, { st with current := l.id },
        { l.rt with head := ⟨some last, last.hash, last.height⟩ }, blkDB⟩
    | none =>
      match config.genesis with
      | none => .error .genesisNotProvided
      | some genesis =>
        match genesis.verifyAsGenesis crypto with
        | .error err => .error (.wrapped (.text "initialize chain state") (.genesis err))
        | .ok () =>
          match (⟨l.bi, newAckIndex, st, l.rt, blkDB⟩ : Chain DB Query).pushBlock genesis true with
          | (_, .error err) => .error err
          | (c, .ok ()) => .ok c

end Chain

structure Node (DB Query : Type) where
  chain : Chain DB Query
  produced : List (Block Query)

inductive Event (Query : Type) where
  | query (req : Request Query) (isLeader : Bool)
  | addResponse (resp : SignedResponseHeader)
  | ack (ack : SignedAckHeader) (put : Bool)
  | produce (now : Time) (packing : Chain.Packing Query)
  | check (block : Block Query) (put : Bool)
  | endTurn
  | setNextTurn (turn : Int)
  | updatePeers (peers : List NodeID)

variable [DecidableEq Query]

structure Setting (DB Query Pattern Value : Type) where
  crypto : Crypto Query
  engine : Engine DB Query Pattern Value
  pk : PrivateKey

/-- A step of a node; `none` if the packing is not of its pool, or if the check of a block
panics, which ends the process. -/
def Node.step (env : Setting DB Query Pattern Value) (n : Node DB Query) :
    Event Query → Option (Node DB Query)
  | .query req isLeader =>
    some { n with chain := { n.chain with
      st := (n.chain.st.query env.engine req.view isLeader).1 } }
  | .addResponse resp => some { n with chain := (n.chain.addResponse resp).1 }
  | .ack ack put =>
    some { n with chain := (n.chain.verifyAndPushAckedQuery env.crypto ack put).1 }
  | .produce now packing =>
    if n.chain.Packs packing then
      match n.chain.produceBlock env.crypto env.pk now packing with
      | (c, .ok (some block)) => some ⟨c, n.produced ++ [block]⟩
      | (c, _) => some { n with chain := c }
    else none
  | .check block put =>
    match n.chain.checkAndPushNewBlock env.crypto env.engine block put with
    | (_, .error .panic) => none
    | (c, _) => some { n with chain := c }
  | .endTurn => some { n with chain := n.chain.endTurn }
  | .setNextTurn turn =>
    some { n with chain := { n.chain with rt := { n.chain.rt with nextTurn := turn } } }
  | .updatePeers peers =>
    some { n with chain := { n.chain with rt := n.chain.rt.updatePeers peers } }

def Node.run (env : Setting DB Query Pattern Value) (events : List (Event Query))
    (n : Node DB Query) : Option (Node DB Query) :=
  Lib.run (Node.step env) events n

end SQLess.SQLChain
