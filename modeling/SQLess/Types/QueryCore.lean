import SQLess.Types.VerifierCore
import SQLess.Xenomint.StateCore

/-! Requests, responses, acknowledgements and the blocks of a database chain (`types/`). -/

namespace SQLess.Types

variable {Query : Type}

structure QueryKey where
  nodeID : NodeID
  connectionID : UInt64
  seqNo : UInt64
  deriving DecidableEq

structure RequestHeader where
  queryType : Xenomint.QueryType
  nodeID : NodeID
  databaseID : DatabaseID
  connectionID : UInt64
  seqNo : UInt64
  timestamp : Time
  batchCount : Nat
  queriesHash : Hash
  deriving DecidableEq

def RequestHeader.getQueryKey (h : RequestHeader) : QueryKey :=
  ⟨h.nodeID, h.connectionID, h.seqNo⟩

structure Request (Query : Type) where
  header : RequestHeader
  verifier : HashSignVerifier
  queries : List Query
  deriving DecidableEq

structure ResponseHeader where
  request : RequestHeader
  requestHash : Hash
  nodeID : NodeID
  timestamp : Time
  rowCount : Nat
  logOffset : Nat
  lastInsertID : Int
  affectedRows : Int
  payloadHash : Hash
  responseAccount : AccountAddress
  deriving DecidableEq

structure SignedResponseHeader where
  header : ResponseHeader
  responseHash : Hash
  deriving DecidableEq

structure AckHeader where
  response : ResponseHeader
  responseHash : Hash
  nodeID : NodeID
  timestamp : Time
  deriving DecidableEq

def AckHeader.getQueryKey (h : AckHeader) : QueryKey := h.response.request.getQueryKey

structure SignedAckHeader where
  header : AckHeader
  verifier : HashSignVerifier
  deriving DecidableEq

structure QueryAsTx (Query : Type) where
  request : Request Query
  response : SignedResponseHeader
  deriving DecidableEq

structure Header where
  version : Int
  producer : NodeID
  genesisHash : Hash
  parentHash : Hash
  merkleRoot : Hash
  timestamp : Time
  deriving DecidableEq

structure Block (Query : Type) where
  header : Header
  verifier : HashSignVerifier
  failedReqs : List (Request Query)
  queryTxs : List (QueryAsTx Query)
  acks : List SignedAckHeader
  deriving DecidableEq

structure Crypto (Query : Type) where
  env : Env
  queriesHash : List Query → Option Hash
  requestHash : RequestHeader → Option Hash
  responseHash : ResponseHeader → Option Hash
  ackHash : AckHeader → Option Hash
  headerHash : Header → Option Hash

def verifyHash (computed : Option Hash) (h : Hash) : Except Err Unit :=
  match computed with
  | none => .error .encoding
  | some newHash => if newHash = h then .ok () else .error .hashValueNotMatch

lemma verifyHash_eq_ok : verifyHash computed h = .ok () ↔ computed = some h := by
  cases computed with
  | none => simp [verifyHash]
  | some newHash =>
    by_cases same : newHash = h <;> simp [verifyHash, same]

def Request.verify (c : Crypto Query) (r : Request Query) : Except Err Unit :=
  match verifyHash (c.queriesHash r.queries) r.header.queriesHash with
  | .error err => .error err
  | .ok () => r.verifier.verify c.env (c.requestHash r.header)

lemma Request.verify_eq_ok {r : Request Query} :
    r.verify c = .ok () ↔ c.queriesHash r.queries = some r.header.queriesHash ∧
      c.requestHash r.header = some r.verifier.dataHash ∧
      r.verifier.signatureValid c.env = true := by
  rw [verify, ← verifyHash_eq_ok]
  cases verifyHash (c.queriesHash r.queries) r.header.queriesHash with
  | error => simp
  | ok => simp [HashSignVerifier.verify_eq_ok]

def SignedResponseHeader.verifyHash (c : Crypto Query) (sh : SignedResponseHeader) :
    Except Err Unit :=
  match Types.verifyHash (c.responseHash sh.header) sh.responseHash with
  | .error err => .error (.wrapped "verify response header hash failed" err)
  | .ok () => .ok ()

lemma SignedResponseHeader.verifyHash_eq_ok {c : Crypto Query} {sh : SignedResponseHeader} :
    sh.verifyHash c = .ok () ↔ c.responseHash sh.header = some sh.responseHash := by
  rw [verifyHash, ← Types.verifyHash_eq_ok]
  cases Types.verifyHash (c.responseHash sh.header) sh.responseHash <;> simp

def SignedAckHeader.verify (c : Crypto Query) (sh : SignedAckHeader) : Except Err Unit :=
  sh.verifier.verify c.env (c.ackHash sh.header)

def SignedAckHeader.hash (sh : SignedAckHeader) : Hash := sh.verifier.dataHash

def Request.view (r : Request Query) : Xenomint.Request Query :=
  ⟨r.verifier.dataHash, r.header.queryType, r.queries⟩

def SignedResponseHeader.view (sh : SignedResponseHeader) : Xenomint.ResponseHeader :=
  ⟨sh.header.requestHash, sh.header.rowCount, sh.header.logOffset, sh.header.lastInsertID,
    sh.header.affectedRows⟩

def QueryAsTx.view (q : QueryAsTx Query) : Xenomint.QueryAsTx Query :=
  ⟨q.request.view, q.response.view⟩

/-- `NodeID.IsEmpty`: no text, or the text of the zero hash.  (The text of no hash, which is not
empty either, makes the source panic.) -/
def isEmpty (id : NodeID) : Bool := decide (id.length ≤ 64) && id.toList.all (· == '0')

inductive GenesisErr where
  | invalidGenesis (context : String)
  | verifier (err : Err)
  deriving DecidableEq

namespace Block

variable (c : Crypto Query) (b : Block Query)

def view : Xenomint.Block Query :=
  ⟨b.failedReqs.map Request.view, b.queryTxs.map QueryAsTx.view⟩

def timestamp : Time := b.header.timestamp

def producer : NodeID := b.header.producer

def parentHash : Hash := b.header.parentHash

def genesisHash : Hash := b.header.genesisHash

def blockHash : Hash := b.verifier.dataHash

def calcNextIDFrom (id : Nat) (ok : Bool) : List (QueryAsTx Query) → Nat × Bool
  | [] => (id, ok)
  | v :: rest =>
    if v.request.header.queryType = .writeQuery then
      calcNextIDFrom (max id (v.response.header.logOffset + v.request.queries.length)) true rest
    else calcNextIDFrom id ok rest

def calcNextID : Nat × Bool := calcNextIDFrom 0 false b.queryTxs

def leaves : List Hash :=
  (b.failedReqs.map fun r => r.verifier.dataHash) ++
    (b.queryTxs.map fun q => q.response.responseHash) ++ b.acks.map SignedAckHeader.hash

def computeMerkleRoot : Option Hash :=
  Merkle.root c.env.mergeTwoHash b.leaves

def packAndSign (signer : PrivateKey) : Option (Except Err (Block Query)) :=
  (b.computeMerkleRoot c).map fun merkleRoot =>
    let header := { b.header with merkleRoot := merkleRoot }
    match c.headerHash header with
    | none => .error .encoding
    | some hash =>
      match c.env.signHash signer hash with
      | none => .error .signing
      | some signature =>
        .ok { b with
          header := header
          verifier := ⟨hash, some (c.env.pubKey signer), some signature⟩ }

lemma packAndSign_ok {c} {b b' : Block Query} (packed : b.packAndSign c signer = some (.ok b')) :
    ∃ merkleRoot hash signature, b.computeMerkleRoot c = some merkleRoot ∧
      c.headerHash { b.header with merkleRoot := merkleRoot } = some hash ∧
      c.env.signHash signer hash = some signature ∧
      b' = { b with
        header := { b.header with merkleRoot := merkleRoot }
        verifier := ⟨hash, some (c.env.pubKey signer), some signature⟩ } := by
  unfold packAndSign at packed
  cases root : b.computeMerkleRoot c with
  | none => simp [root] at packed
  | some merkleRoot =>
    simp only [root, Option.map_some, Option.some.injEq] at packed
    cases hashed : c.headerHash { b.header with merkleRoot := merkleRoot } with
    | none => simp [hashed] at packed
    | some hash =>
      simp only [hashed] at packed
      cases signed : c.env.signHash signer hash with
      | none => simp [signed] at packed
      | some signature =>
        simp only [signed, Except.ok.injEq] at packed
        exact ⟨merkleRoot, hash, signature, rfl, hashed, signed, packed.symm⟩

def verify : Option (Except Err Unit) :=
  (b.computeMerkleRoot c).map fun merkleRoot =>
    if merkleRoot = b.header.merkleRoot then b.verifier.verify c.env (c.headerHash b.header)
    else .error .merkleRootVerification

lemma verify_eq_ok {c} {b : Block Query} :
    b.verify c = some (.ok ()) ↔ b.computeMerkleRoot c = some b.header.merkleRoot ∧
      c.headerHash b.header = some b.blockHash ∧ b.verifier.signatureValid c.env = true := by
  rw [verify]
  cases b.computeMerkleRoot c with
  | none => simp
  | some merkleRoot =>
    by_cases same : merkleRoot = b.header.merkleRoot
    · simp [same, HashSignVerifier.verify_eq_ok, blockHash]
    · simp [same]

def verifyAsGenesis : Except GenesisErr Unit :=
  if isEmpty b.header.producer = false then .error (.invalidGenesis "invalid producer")
  else if b.header.genesisHash ≠ 0 then .error (.invalidGenesis "invalid genesis hash")
  else if b.header.parentHash ≠ 0 then .error (.invalidGenesis "invalid parent hash")
  else if b.header.merkleRoot ≠ 0 then .error (.invalidGenesis "invalid merkle root")
  else
    match b.verifier.verifyHash (c.headerHash b.header) with
    | .error err => .error (.verifier err)
    | .ok () => .ok ()

end Block

end SQLess.Types
