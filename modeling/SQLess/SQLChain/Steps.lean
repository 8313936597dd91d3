import SQLess.SQLChain.ChainCore
import SQLess.Xenomint.Replay

/-! What the steps of a node can do to its chain. -/

namespace SQLess.SQLChain

open Lib (FiniteMap OrderedStore)
open SQLess.Types
open Xenomint (State Engine)

variable {DB Query Pattern Value : Type}

variable {c c' : Chain DB Query} {b : Block Query}

namespace BlockNode

def blocks : BlockNode Query → List (Block Query)
  | .root _ _ block => block.toList
  | .child parent _ _ block => parent.blocks ++ block.toList

def hashes : BlockNode Query → List Hash
  | .root hash _ _ => [hash]
  | .child parent hash _ _ => parent.hashes ++ [hash]

lemma hash_mem_hashes (n : BlockNode Query) : n.hash ∈ n.hashes := by
  cases n <;> simp [hash, hashes]

end BlockNode

def Chain.blocks (c : Chain DB Query) : List (Block Query) :=
  (c.rt.head.node.map BlockNode.blocks).getD []

def Chain.hashes (c : Chain DB Query) : List Hash :=
  (c.rt.head.node.map BlockNode.hashes).getD []

lemma Chain.setHead_blocks (c : Chain DB Query) (b) : (c.setHead b).blocks = c.blocks ++ [b] := by
  cases node : c.rt.head.node <;>
    simp [blocks, setHead, newBlockNode, newBlockNodeEx, BlockNode.blocks, node]

lemma Chain.setHead_hashes (c : Chain DB Query) (b) :
    (c.setHead b).hashes = c.hashes ++ [b.blockHash] := by
  cases node : c.rt.head.node <;>
    simp [hashes, setHead, newBlockNode, newBlockNodeEx, BlockNode.hashes, node]

lemma Chain.setHead_head (c : Chain DB Query) (b) : (c.setHead b).rt.head.head = b.blockHash := by
  cases node : c.rt.head.node <;>
    simp [setHead, newBlockNode, newBlockNodeEx, BlockNode.hash, node]

def AckIndex.pushed (height : Time → Int) (b : Block Query) (i : AckIndex) : AckIndex :=
  b.acks.foldl (fun i v => (i.remove (height v.header.response.request.timestamp) v).1)
    (b.queryTxs.foldl (fun i v =>
      (i.addResponse (height v.response.header.request.timestamp) v.response).1) i)

namespace Chain

lemma addResponses_eq (c : Chain DB Query) (queryTxs : List (QueryAsTx Query)) :
    queryTxs.foldl (fun c v => (c.addResponse v.response).1) c =
      { c with ai := queryTxs.foldl (fun i v => (i.addResponse
        (c.rt.getHeightFromTime v.response.header.request.timestamp) v.response).1) c.ai } := by
  induction queryTxs generalizing c with
  | nil => rfl
  | cons v rest ih =>
    rw [List.foldl_cons, ih]
    rfl

lemma removes_eq (c : Chain DB Query) (acks : List SignedAckHeader) :
    acks.foldl (fun c v => (c.remove v).1) c = { c with ai := acks.foldl (fun i v => (i.remove
        (c.rt.getHeightFromTime v.header.response.request.timestamp) v).1) c.ai } := by
  induction acks generalizing c with
  | nil => rfl
  | cons v rest ih =>
    rw [List.foldl_cons, ih]
    rfl

lemma pushBlock_eq (c : Chain DB Query) (b : Block Query) : c.pushBlock b true =
      ({ c.setHead b with ai := c.ai.pushed c.rt.getHeightFromTime b },
        if b.producer.utf8ByteSize < 8 then .error .panic else .ok ()) := by
  simp only [pushBlock, if_true, addResponses_eq, removes_eq]
  rfl

structure Accepted (crypto : Crypto Query) (e : Engine DB Query Pattern Value)
    (c c' : Chain DB Query) (b : Block Query) (st : State DB Query) : Prop where
  parent : b.parentHash = c.rt.head.head
  verified : b.verify crypto = some (.ok ())
  replayed : (b.producer = c.rt.server ∧ st = c.st) ∨
    (b.producer ≠ c.rt.server ∧ c.st.replayBlock e b.view = (st, .ok ()))
  chain : c' = { c.setHead b with st := st, ai := c.ai.pushed c.rt.getHeightFromTime b }
  unknown : ¬(c.rt.head.height = c.rt.getHeightFromTime b.timestamp ∧ c.rt.head.head = b.blockHash)
  inTurn : b.producer = c.rt.server ∨ find c.rt.peers b.producer = some c.rt.next

/-- The block passes the checks that come before its push: it is a new one on the head, verified,
and of this server, or of the peer in turn, whose queries can be replayed. -/
def Admits (crypto : Crypto Query) (e : Engine DB Query Pattern Value) (c : Chain DB Query)
    (b : Block Query) : Prop :=
  ¬(c.rt.head.height = c.rt.getHeightFromTime b.timestamp ∧ c.rt.head.head = b.blockHash) ∧
  b.parentHash = c.rt.head.head ∧ (b.verify crypto matches some (.ok ())) ∧
  (b.producer = c.rt.server ∨ (find c.rt.peers b.producer = some c.rt.next ∧
    ((c.st.replayBlock e b.view).2 matches .ok ())))

lemma Accepted.admits {crypto} {e : Engine DB Query Pattern Value} {st : State DB Query}
    (accepted : Accepted crypto e c c' b st) : c.Admits crypto e b := by
  refine ⟨accepted.unknown, accepted.parent, by rw [accepted.verified], ?_⟩
  rcases accepted.replayed with ⟨own, -⟩ | ⟨other, ran⟩
  · exact .inl own
  · exact .inr ⟨accepted.inTurn.resolve_left other, by rw [ran]⟩

variable (crypto : Crypto Query) (e : Engine DB Query Pattern Value) (pk : PrivateKey)

/-- A checked block is accepted, perhaps with a panic afterwards, or at most the state has changed,
in a replay that is then an error. -/
def Checked (c : Chain DB Query) (b : Block Query) (put : Bool)
    (outcome : Chain DB Query × Except Err Unit) : Prop :=
  (∃ st, outcome.1 = { c with st := st } ∧
    (st = c.st ∨ (st = (c.st.replayBlock e b.view).1 ∧ outcome.2 ≠ .ok ()))) ∨
  ∃ st, Accepted crypto e c outcome.1 b st ∧
    (outcome.2 = .ok () ∨ outcome.2 = .error .panic) ∧ put = true

lemma pushBlock_checked {crypto} {e : Engine DB Query Pattern Value} {st} (put : Bool)
    (parent : b.parentHash = c.rt.head.head) (verified : b.verify crypto = some (.ok ()))
    (replayed : (b.producer = c.rt.server ∧ st = c.st) ∨
      (b.producer ≠ c.rt.server ∧ c.st.replayBlock e b.view = (st, .ok ())))
    (unknown : ¬(c.rt.head.height = c.rt.getHeightFromTime b.timestamp ∧
      c.rt.head.head = b.blockHash))
    (inTurn : b.producer = c.rt.server ∨ find c.rt.peers b.producer = some c.rt.next) :
    Checked crypto e c b put (({ c with st := st }).pushBlock b put) := by
  cases put with
  | false =>
    refine .inl ⟨st, rfl, replayed.imp And.right fun ran => ⟨?_, nofun⟩⟩
    rw [ran.2]
  | true =>
    rw [pushBlock_eq]
    refine .inr ⟨st, ⟨parent, verified, replayed, rfl, unknown, inTurn⟩, ?_, rfl⟩
    split
    · exact .inr rfl
    · exact .inl rfl

lemma checkAndPushNewBlock_checked (c b put) :
    Checked crypto e c b put (c.checkAndPushNewBlock crypto e b put) := by
  have rejected : ∀ result, Checked crypto e c b put (c, result) :=
    fun result => .inl ⟨c.st, rfl, .inl rfl⟩
  unfold checkAndPushNewBlock
  by_cases known : c.rt.head.height = c.rt.getHeightFromTime b.timestamp ∧
      c.rt.head.head = b.blockHash
  · simp only [if_pos known]
    exact rejected _
  · simp only [if_neg known]
    by_cases parent : b.parentHash = c.rt.head.head
    · simp only [parent, ne_eq, not_true_eq_false, if_false]
      rcases verified : b.verify crypto with _ | err | _
      · exact rejected _
      · exact rejected _
      · by_cases own : b.producer = c.rt.server
        · simp only [if_pos own]
          exact pushBlock_checked (e := e) put parent verified (.inl ⟨own, rfl⟩) known (.inl own)
        · simp only [if_neg own]
          rcases found : find c.rt.peers b.producer with _ | index
          · exact rejected _
          · by_cases order : index = c.rt.next
            · simp only [order, not_true_eq_false, if_false]
              rcases replayed : c.st.replayBlock e b.view with ⟨st, _ | err | _ | _⟩
              · exact pushBlock_checked put parent verified (.inr ⟨own, replayed⟩) known
                  (.inr (by rw [found, order]))
              all_goals exact .inl ⟨st, rfl, .inr ⟨(congrArg Prod.fst replayed).symm, nofun⟩⟩
            · simp only [order, not_false_eq_true, if_true]
              exact rejected _
    · simp only [ne_eq, parent, not_false_eq_true, if_true]
      exact rejected _

lemma checkAndPushNewBlock_own {crypto} (unknown : c.rt.head.head ≠ b.blockHash)
    (parent : b.parentHash = c.rt.head.head) (verified : b.verify crypto = some (.ok ()))
    (producer : b.producer = c.rt.server) (put) :
    c.checkAndPushNewBlock crypto e b put = c.pushBlock b put := by
  simp only [checkAndPushNewBlock, unknown, and_false, if_false, parent, ne_eq,
    not_true_eq_false, verified, producer, if_true]

structure SameBlocks (c c' : Chain DB Query) : Prop where
  bi : c'.bi = c.bi
  blkDB : c'.blkDB = c.blkDB
  head : c'.rt.head = c.rt.head
  chainInitTime : c'.rt.chainInitTime = c.rt.chainInitTime
  period : c'.rt.period = c.rt.period
  server : c'.rt.server = c.rt.server

lemma SameBlocks.height (same : SameBlocks c c') :
    c'.rt.getHeightFromTime = c.rt.getHeightFromTime := by
  funext t
  rw [Runtime.getHeightFromTime, Runtime.getHeightFromTime, same.chainInitTime, same.period]

lemma SameBlocks.blocks (same : SameBlocks c c') : c'.blocks = c.blocks := by
  rw [Chain.blocks, Chain.blocks, same.head]

lemma SameBlocks.hashes (same : SameBlocks c c') : c'.hashes = c.hashes := by
  rw [Chain.hashes, Chain.hashes, same.head]

lemma verifyAndPushAckedQuery_cases (c : Chain DB Query) (ack put) :
    (c.verifyAndPushAckedQuery crypto ack put).1 = c ∨ ∃ registered, registered =
          c.ai.register (c.rt.getHeightFromTime ack.header.response.request.timestamp) ack ∧
        (c.verifyAndPushAckedQuery crypto ack put).1 = { c with ai := registered.1 } ∧
        (registered.2 = .ok () → put = true →
          (c.verifyAndPushAckedQuery crypto ack put).2 = .ok ()) := by
  unfold verifyAndPushAckedQuery
  by_cases expired : c.rt.queryTimeIsExpired ack.header.response.timestamp = true
  · rw [if_pos expired]
    exact .inl rfl
  · rw [if_neg expired]
    cases ack.verify crypto with
    | error => exact .inl rfl
    | ok =>
      right
      simp only [pushAckedQuery, register]
      refine ⟨_, rfl, ?_⟩
      rcases c.ai.register (c.rt.getHeightFromTime ack.header.response.request.timestamp) ack
        with ⟨ai, err | _⟩
      · exact ⟨rfl, fun registered => by cases registered⟩
      · cases put with
        | false => exact ⟨rfl, fun _ put => by cases put⟩
        | true => exact ⟨rfl, fun _ _ => rfl⟩

lemma verifyAndPushAckedQuery_frame (c : Chain DB Query) (ack put) :
    ∃ ai, (c.verifyAndPushAckedQuery crypto ack put).1 = { c with ai := ai } := by
  rcases verifyAndPushAckedQuery_cases crypto c ack put with same | ⟨registered, -, chain, -⟩
  · exact ⟨c.ai, same⟩
  · exact ⟨registered.1, chain⟩

lemma verifyAndPushAckedQuery_same (c : Chain DB Query) (ack put) :
    SameBlocks c (c.verifyAndPushAckedQuery crypto ack put).1 := by
  obtain ⟨ai, chain⟩ := verifyAndPushAckedQuery_frame crypto c ack put
  rw [chain]
  exact ⟨rfl, rfl, rfl, rfl, rfl, rfl⟩

lemma packBlock_same (c : Chain DB Query) (now p) : SameBlocks c (c.packBlock crypto pk now p).1 ∧
      (c.packBlock crypto pk now p).1.rt.nextTurn = c.rt.nextTurn :=
  ⟨⟨rfl, rfl, rfl, rfl, rfl, rfl⟩, rfl⟩

lemma produceBlock_same (c : Chain DB Query) (now p) :
    SameBlocks c (c.produceBlock crypto pk now p).1 := by
  unfold produceBlock
  by_cases none : p.failedReqs = [] ∧ p.queryTxs = []
  · simp only [if_pos none]
    exact ⟨rfl, rfl, rfl, rfl, rfl, rfl⟩
  · simp only [if_neg none]
    exact ⟨rfl, rfl, rfl, rfl, rfl, rfl⟩

structure Produced (crypto : Crypto Query) (pk : PrivateKey) (c : Chain DB Query) (now : Time)
    (p : Packing Query) (b : Block Query) : Prop where
  producer : b.producer = c.rt.server
  parent : b.parentHash = c.rt.head.head
  timestamp : b.timestamp = now
  failedReqs : b.failedReqs = p.failedReqs
  queryTxs : b.queryTxs = p.queryTxs
  acks : b.acks = (c.ai.acks (c.rt.getHeightFromTime now) p.ackOrder).2
  root : b.computeMerkleRoot crypto = some b.header.merkleRoot
  hash : crypto.headerHash b.header = some b.blockHash
  signature : ∃ signature, crypto.env.signHash pk b.blockHash = some signature ∧
    b.verifier = ⟨b.blockHash, some (crypto.env.pubKey pk), some signature⟩

lemma packBlock_produced {crypto pk now p} (made : (c.packBlock crypto pk now p).2 = .ok b) :
    Produced crypto pk c now p b := by
  unfold packBlock at made
  rcases packed : Block.packAndSign crypto (⟨⟨0x01000000, c.rt.server, c.rt.genesisHash,
      c.rt.head.head, 0, now⟩, ⟨0, .none, .none⟩, p.failedReqs, p.queryTxs,
      (c.ai.acks (c.rt.getHeightFromTime now) p.ackOrder).2⟩ : Block Query) pk
    with _ | err | block
  · simp only [packed] at made
    cases made
  · simp only [packed] at made
    cases made
  · simp only [packed, Except.ok.injEq] at made
    obtain ⟨merkleRoot, hash, signature, root, hashed, signed, whole⟩ :=
      Block.packAndSign_ok packed
    rw [made] at whole
    subst whole
    exact ⟨rfl, rfl, rfl, rfl, rfl, rfl, root, hashed, signature, signed, rfl⟩

lemma produceBlock_produced {crypto pk now p}
    (made : (c.produceBlock crypto pk now p).2 = .ok (some b)) : Produced crypto pk c now p b := by
  simp only [produceBlock] at made
  by_cases none : p.failedReqs = [] ∧ p.queryTxs = []
  · simp [if_pos none] at made
  · simp only [if_neg none] at made
    generalize packed : packBlock crypto pk
      { c with st := (c.st.commitEx p.failedOrder p.readOrder).1 } now p = result at made
    rcases result with ⟨c', err | block⟩
    · cases made
    · cases made
      obtain ⟨producer, parent, timestamp, failedReqs, queryTxs, acks, root, hash, signature⟩ :=
        packBlock_produced (congrArg Prod.snd packed)
      exact ⟨producer, parent, timestamp, failedReqs, queryTxs, acks, root, hash, signature⟩

lemma produceBlock_st (c : Chain DB Query) (now p) :
    (c.produceBlock crypto pk now p).1.st = (c.st.commitEx p.failedOrder p.readOrder).1 := by
  unfold produceBlock
  by_cases none : p.failedReqs = [] ∧ p.queryTxs = []
  · simp only [if_pos none]
  · simp only [if_neg none]
    rfl

lemma produceBlock_ai (c : Chain DB Query) (now p) :
    (c.produceBlock crypto pk now p).1.ai = c.ai ∨ (c.produceBlock crypto pk now p).1.ai =
        (c.ai.acks (c.rt.getHeightFromTime now) p.ackOrder).1 := by
  unfold produceBlock
  by_cases none : p.failedReqs = [] ∧ p.queryTxs = []
  · simp only [if_pos none, true_or]
  · simp only [if_neg none]
    exact .inr rfl

lemma updatePeers_nextTurn (rt : Runtime Query) (peers) :
    (rt.updatePeers peers).nextTurn = rt.nextTurn := by
  unfold Runtime.updatePeers
  cases find peers rt.server <;> rfl

lemma updatePeers_same (c : Chain DB Query) (peers : List NodeID) :
    SameBlocks c { c with rt := c.rt.updatePeers peers } := by
  unfold Runtime.updatePeers
  cases find peers c.rt.server with
  | none | some index => exact ⟨rfl, rfl, rfl, rfl, rfl, rfl⟩

end Chain

lemma Node.step_produce [DecidableEq Query] {env : Setting DB Query Pattern Value}
    {n n' : Node DB Query} {now p} (stepped : n.step env (.produce now p) = some n') :
    n.chain.Packs p ∧ n'.chain = (n.chain.produceBlock env.crypto env.pk now p).1 ∧
      ((∃ block, (n.chain.produceBlock env.crypto env.pk now p).2 = .ok (some block) ∧
        n'.produced = n.produced ++ [block]) ∨ n'.produced = n.produced) := by
  simp only [step] at stepped
  by_cases packs : n.chain.Packs p
  · rw [if_pos packs] at stepped
    refine ⟨packs, ?_⟩
    generalize n.chain.produceBlock env.crypto env.pk now p = result at stepped ⊢
    rcases result with ⟨c, err | _ | block⟩
    · cases stepped
      exact ⟨rfl, .inr rfl⟩
    · cases stepped
      exact ⟨rfl, .inr rfl⟩
    · cases stepped
      exact ⟨rfl, .inl ⟨block, rfl, rfl⟩⟩
  · rw [if_neg packs] at stepped
    cases stepped

lemma Node.step_check [DecidableEq Query] {env : Setting DB Query Pattern Value}
    {n n' : Node DB Query} {block put} (stepped : n.step env (.check block put) = some n') :
    n' = ⟨(n.chain.checkAndPushNewBlock env.crypto env.engine block put).1, n.produced⟩ ∧
      (n.chain.checkAndPushNewBlock env.crypto env.engine block put).2 ≠ .error .panic := by
  simp only [step] at stepped
  split at stepped
  · cases stepped
  · rename_i c result other checked
    cases stepped
    rw [checked]
    refine ⟨rfl, ?_⟩
    rintro rfl
    exact other rfl

lemma Node.step_blocks [DecidableEq Query] {env : Setting DB Query Pattern Value}
    {n n' : Node DB Query} {event} (stepped : n.step env event = some n') :
    Chain.SameBlocks n.chain n'.chain ∨
      ∃ b st, Chain.Accepted env.crypto env.engine n.chain n'.chain b st := by
  cases event with
  | query req isLeader | addResponse resp | endTurn | setNextTurn turn =>
    cases stepped
    exact .inl ⟨rfl, rfl, rfl, rfl, rfl, rfl⟩
  | ack ack put =>
    cases stepped
    exact .inl (Chain.verifyAndPushAckedQuery_same env.crypto n.chain ack put)
  | produce now packing =>
    obtain ⟨-, chain, -⟩ := step_produce stepped
    left
    rw [chain]
    exact Chain.produceBlock_same env.crypto env.pk n.chain now packing
  | check block put =>
    obtain ⟨rfl, -⟩ := step_check stepped
    rcases Chain.checkAndPushNewBlock_checked env.crypto env.engine n.chain block put
      with ⟨st, chain, -⟩ | ⟨st, accepted, -⟩
    · left
      rw [chain]
      exact ⟨rfl, rfl, rfl, rfl, rfl, rfl⟩
    · exact .inr ⟨block, st, accepted⟩
  | updatePeers peers =>
    cases stepped
    exact .inl (Chain.updatePeers_same n.chain peers)

namespace Sample

def env : Env where
  pubKeyHash key := some (BitVec.ofNat 256 key.x)
  txHeaderHash _ := none
  bpHeaderHash _ := none
  mergeTwoHash left right := left + 2 * right + 1
  verifySignature signature hash key := signature.r = key.x && signature.s = hash.toNat
  signHash key hash := some ⟨key.d, hash.toNat⟩
  pubKey key := ⟨key.d, 0⟩
  accountNonceHash address _ := address
  encodeGenesis _ := none
  scaleIncome income _ _ := income
  minProviderDeposit := 0
  qps := 0
  billingBlockCount := 0

def crypto : Crypto Nat where
  env := env
  queriesHash queries := some (BitVec.ofNat 256 (queries.foldl (fun sum q => 31 * sum + q + 1) 0))
  requestHash header := some (BitVec.ofNat 256 (1000 + header.seqNo.toNat))
  responseHash header := some (BitVec.ofNat 256 (2000 + header.request.seqNo.toNat))
  ackHash header := some (BitVec.ofNat 256 (3000 + header.response.request.seqNo.toNat))
  headerHash header := some (BitVec.ofInt 256 (9000 - header.timestamp))

def setting : Setting Nat Nat Nat Nat := ⟨crypto, Xenomint.sampleEngine, ⟨7⟩⟩

def signed (key : Nat) (hash : Hash) : HashSignVerifier :=
  ⟨hash, some ⟨key, 0⟩, some ⟨key, hash.toNat⟩⟩

def request (seqNo : UInt64) (time : Time) (queryType : Xenomint.QueryType)
    (queries : List Nat) : Request Nat where
  header := ⟨queryType, "client", ⟨0⟩, 1, seqNo, time, queries.length,
    (crypto.queriesHash queries).getD 0⟩
  verifier := signed 9 (BitVec.ofNat 256 (1000 + seqNo.toNat))
  queries := queries

def response (req : Request Nat) (offset : Nat) : SignedResponseHeader where
  header := ⟨req.header, req.verifier.dataHash, "AAAAAAAA", req.header.timestamp, 0, offset, 0,
    req.queries.length, 0, 0⟩
  responseHash := BitVec.ofNat 256 (2000 + req.header.seqNo.toNat)

def ack (resp : SignedResponseHeader) : SignedAckHeader where
  header := ⟨resp.header, resp.responseHash, "client", resp.header.timestamp⟩
  verifier := signed 9 (BitVec.ofNat 256 (3000 + resp.header.request.seqNo.toNat))

def block (producer : NodeID) (parent : Hash) (time : Time) (queryTxs : List (QueryAsTx Nat))
    (acks : List SignedAckHeader) : Block Nat where
  header := ⟨0x01000000, producer, 9000, parent,
    (Merkle.root env.mergeTwoHash ((queryTxs.map fun q => q.response.responseHash) ++
      acks.map SignedAckHeader.hash)).getD 0, time⟩
  verifier := signed 8 (BitVec.ofInt 256 (9000 - time))
  failedReqs := []
  queryTxs := queryTxs
  acks := acks

def genesis : Block Nat := ⟨⟨0, "00000000", 0, 0, 0, 0⟩, ⟨9000, none, none⟩, [], [], []⟩

def config : Config Nat where
  period := 10
  tick := 1
  queryTTL := 10
  peers := ["AAAAAAAA", "BBBBBBBB"]
  server := "AAAAAAAA"
  genesis := some genesis
  isolationLevel := .readUncommitted

def chain {DB : Type} (strg : DB) : Chain DB Nat :=
  (⟨∅, newAckIndex, .newState .readUncommitted strg, .newRunTime config, .empty⟩ :
    Chain DB Nat).pushBlock genesis true |>.1

lemma newChain_sample (strg : DB) :
    Chain.newChain crypto config strg .empty = .ok (chain strg) := rfl

def write : Request Nat := request 1 5 .writeQuery [5]

def packing : Chain.Packing Nat := ⟨[], [], fun _ => [], [], [⟨write, response write 0⟩]⟩

def ownBlock : Block Nat :=
  { block "AAAAAAAA" 9000 10 [⟨write, response write 0⟩] [] with verifier := signed 7 8990 }

end Sample

end SQLess.SQLChain
