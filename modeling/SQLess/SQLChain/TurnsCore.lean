import SQLess.SQLChain.ChainCore

/-! The goroutines of a started chain: the main cycle, the processing of blocks, and the senders of
blocks (`sqlchain/chain.go` and `sqlchain/rpc.go`). -/

namespace SQLess.SQLChain

open SQLess.Types
open BlockProducer (timeSub)

variable {DB Query Pattern Value : Type}

def Runtime.nextTick (r : Runtime Query) (now : Time) : Int :=
  let d := timeSub (r.chainInitTime + (r.nextTurn * r.period).bmod (2 ^ 64)) now
  if r.tick < d then r.tick else d

def Runtime.lastTurn (r : Runtime Query) : Int := int32 (r.nextTurn - 1)

def Chain.reading (turn : Int) (peers : List NodeID) (c : Chain DB Query) : Chain DB Query :=
  { c with rt := { c.rt with nextTurn := turn, peers := peers } }

def Chain.checkAt (crypto : Crypto Query) (e : Xenomint.Engine DB Query Pattern Value)
    (turn : Int) (peers : List NodeID) (c : Chain DB Query) (block : Block Query) (put : Bool) :
    Chain DB Query :=
  ((c.reading turn peers).checkAndPushNewBlock crypto e block put).1.reading
    c.rt.nextTurn c.rt.peers

inductive MainCycle (Query : Type) where
  | syncing
  | waiting
  | producing (now : Time)
  | fetched (now : Time) (packing : Chain.Packing Query)
      (queries : List (Xenomint.QueryAsTx Query))
  | sending (block : Block Query)
  | ending
  | publishing (height : Int)

inductive Processing (Query : Type) where
  | waiting
  | received (block : Block Query)
  | due (block : Block Query)
  | checking (block : Block Query) (turn : Int) (peers : List NodeID)

structure Cut (Query : Type) where
  queries : List (Xenomint.QueryAsTx Query)
  block : Block Query

/-- A started chain.  A sender is a goroutine with the blocks that it still has to send, and
`cuts` records the produced blocks. -/
structure Server (DB Query : Type) where
  chain : Chain DB Query
  main : MainCycle Query
  processing : Processing Query
  stash : List (Block Query)
  senders : List (List (Block Query))
  heights : Option Int
  cuts : List (Cut Query)

inductive Action (Query : Type) where
  | query (req : Request Query) (isLeader : Bool)
  | addResponse (resp : SignedResponseHeader)
  | ack (ack : SignedAckHeader) (put : Bool)
  | updatePeers (peers : List NodeID)
  | syncTurn (turn : Int)
  | synced
  | turn (now : Time)
  | fetch (packing : Chain.Packing Query)
  | pack
  | send
  | endTurn
  | publish
  | advise (block : Block Query)
  | deliver (sender : Nat)
  | returnStash
  | compare
  | check
  | push (put : Bool)

namespace Server

def start (c : Chain DB Query) : Server DB Query := ⟨c, .syncing, .waiting, [], [], none, []⟩

def receive (s : Server DB Query) (block : Block Query) : Server DB Query :=
  if s.chain.rt.lastTurn < s.chain.rt.getHeightFromTime block.timestamp then
    { s with stash := s.stash ++ [block] }
  else { s with processing := .received block }

def runCurrentTurn (s : Server DB Query) (now : Time) (d : Int) : Server DB Query :=
  if s.chain.rt.isMyTurn = true ∧ -d + s.chain.rt.tick ≤ s.chain.rt.period then
    { s with main := .producing now }
  else { s with main := .ending }

variable [DecidableEq Query]

def mainStep (env : Setting DB Query Pattern Value) (s : Server DB Query) :
    Action Query → Option (Server DB Query)
  | .syncTurn turn =>
    match s.main with
    | .syncing =>
      some { s with chain := { s.chain with rt := { s.chain.rt with nextTurn := turn } } }
    | _ => none
  | .synced =>
    match s.main with
    | .syncing =>
      some { s with
        chain := { s.chain with ai := s.chain.ai.advance s.chain.rt.getMinValidHeight }
        main := .waiting }
    | _ => none
  | .turn now =>
    match s.main with
    | .waiting =>
      if 0 < s.chain.rt.nextTick now then none
      else some (s.runCurrentTurn now (s.chain.rt.nextTick now))
    | _ => none
  | .fetch p =>
    match s.main with
    | .producing now =>
      if s.chain.Packs p then
        let fetched := s.chain.st.commitEx p.failedOrder p.readOrder
        some { s with
          chain := { s.chain with st := fetched.1 }
          main := if p.failedReqs = [] ∧ p.queryTxs = [] then .ending
            else .fetched now p (fetched.2.2.map fun v => ⟨v.req, v.resp⟩) }
      else none
    | _ => none
  | .pack =>
    match s.main with
    | .fetched now p queries =>
      match s.chain.packBlock env.crypto env.pk now p with
      | (c, .ok block) =>
        some { s with
          chain := c, main := .sending block, cuts := s.cuts ++ [⟨queries, block⟩] }
      | (c, .error _) => some { s with chain := c, main := .ending }
    | _ => none
  | .send =>
    match s.main, s.processing with
    | .sending block, .waiting => some (({ s with main := .ending }).receive block)
    | _, _ => none
  | .endTurn =>
    match s.main with
    | .ending =>
      some { s with chain := s.chain.endTurn, main := .publishing s.chain.rt.nextTurn }
    | _ => none
  | .publish =>
    match s.main, s.heights with
    | .publishing h, none => some { s with heights := some h, main := .waiting }
    | _, _ => none
  | _ => none

def processStep (env : Setting DB Query Pattern Value) (s : Server DB Query) :
    Action Query → Option (Server DB Query)
  | .deliver i =>
    match s.processing, s.senders[i]? with
    | .waiting, some (block :: rest) =>
      some (({ s with senders := s.senders.set i rest }).receive block)
    | _, _ => none
  | .returnStash =>
    match s.processing, s.heights with
    | .waiting, some _ =>
      -- without a stash the sender has nothing to do
      some { s with heights := none, senders := s.senders ++ [s.stash], stash := [] }
    | _, _ => none
  | .compare =>
    match s.processing with
    | .received block =>
      if s.chain.rt.getHeightFromTime block.timestamp < s.chain.rt.lastTurn then
        some { s with processing := .waiting }
      else some { s with processing := .due block }
    | _ => none
  | .check =>
    match s.processing with
    | .due block =>
      some { s with
        processing := .checking block s.chain.rt.nextTurn s.chain.rt.peers }
    | _ => none
  | .push put =>
    match s.processing with
    | .checking block turn peers =>
      some { s with
        chain := s.chain.checkAt env.crypto env.engine turn peers block put
        processing := .waiting }
    | _ => none
  | _ => none

def step (env : Setting DB Query Pattern Value) (s : Server DB Query) :
    Action Query → Option (Server DB Query)
  | .query req isLeader =>
    some { s with chain := { s.chain with
      st := (s.chain.st.query env.engine req.view isLeader).1 } }
  | .addResponse resp => some { s with chain := (s.chain.addResponse resp).1 }
  | .ack ack put =>
    some { s with chain := (s.chain.verifyAndPushAckedQuery env.crypto ack put).1 }
  | .updatePeers peers =>
    some { s with chain := { s.chain with rt := s.chain.rt.updatePeers peers } }
  | .advise block => some { s with senders := s.senders ++ [[block]] }
  | .deliver i => s.processStep env (.deliver i)
  | .returnStash => s.processStep env .returnStash
  | .compare => s.processStep env .compare
  | .check => s.processStep env .check
  | .push put => s.processStep env (.push put)
  | action => s.mainStep env action

end Server

end SQLess.SQLChain
