import SQLess.Types.QueryCore

/-!
The index of responses that wait for an acknowledgement and of acknowledgements that wait for a
block (`sqlchain/ackindex.go`).  Counters are 32-bit words.
-/

namespace SQLess.SQLChain

open Lib (FiniteMap)
open SQLess.Types

inductive Context where
  | loadingIndex (height barrier : Int)
  | addKey (key : QueryKey) (resp : Hash)
  | registerKey (key : QueryKey) (ack : Hash)
  | removeKey (key : QueryKey) (ack : Hash)
  | registerAck (ack : Hash) (height : Int)
  | putAck (height : Int) (ack : Hash)
  | verifyAckQuery (minValidHeight ackHeight : Int)
  | text (message : String)
  deriving DecidableEq

inductive Err where
  | parentNotFound
  | invalidBlock
  | multipleAckOfSeqNo
  | queryExpired
  | unknownProducer
  | invalidProducer
  | queryNotFound
  | responseSeqNotMatch
  | types (err : SQLess.Err)
  | genesis (err : GenesisErr)
  | genesisNotProvided
  | state (err : Xenomint.Err)
  | storage
  | panic
  | wrapped (context : Context) (cause : Err)
  deriving DecidableEq

structure MultiAckIndex where
  respIndex : FiniteMap QueryKey SignedResponseHeader
  ackIndex : FiniteMap QueryKey SignedAckHeader

structure Change where
  mi : MultiAckIndex
  responses : BitVec 32
  acks : BitVec 32
  result : Except Err Unit

namespace MultiAckIndex

def addResponse (resp : SignedResponseHeader) (i : MultiAckIndex) : Change :=
  let key := resp.header.request.getQueryKey
  match i.respIndex.get key with
  | some oresp =>
    if oresp.responseHash ≠ resp.responseHash then
      ⟨i, 0, 0, .error (.wrapped (.addKey key resp.responseHash) .responseSeqNotMatch)⟩
    else ⟨i, 0, 0, .ok ()⟩
  | none => ⟨{ i with respIndex := i.respIndex.insert key resp }, 1, 0, .ok ()⟩

/-- An acknowledgement of another response is an error, but takes the place of the response all
the same. -/
def register (ack : SignedAckHeader) (i : MultiAckIndex) : Change :=
  let key := ack.header.getQueryKey
  match i.respIndex.get key with
  | none => ⟨i, 0, 0, .error (.wrapped (.registerKey key ack.hash) .queryNotFound)⟩
  | some resp =>
    ⟨⟨i.respIndex.erase key, i.ackIndex.insert key ack⟩, -1, 1,
      if resp.responseHash ≠ ack.header.responseHash then
        .error (.wrapped (.registerKey key ack.hash) .responseSeqNotMatch)
      else .ok ()⟩

def remove (ack : SignedAckHeader) (i : MultiAckIndex) : Change :=
  let key := ack.header.getQueryKey
  match i.respIndex.get key with
  | some _ => ⟨{ i with respIndex := i.respIndex.erase key }, -1, 0, .ok ()⟩
  | none =>
    match i.ackIndex.get key with
    | some oack =>
      if oack.hash ≠ ack.hash then
        ⟨i, 0, 0, .error (.wrapped (.removeKey key ack.hash) .multipleAckOfSeqNo)⟩
      else ⟨{ i with ackIndex := i.ackIndex.erase key }, 0, -1, .ok ()⟩
    | none => ⟨i, 0, 0, .error (.wrapped (.removeKey key ack.hash) .queryNotFound)⟩

def acks (i : MultiAckIndex) (order : List QueryKey) : List SignedAckHeader :=
  order.filterMap i.ackIndex.get

end MultiAckIndex

structure AckIndex where
  hi : FiniteMap Int MultiAckIndex
  barrier : Int
  multiIndexCount : BitVec 32
  responseCount : BitVec 32
  ackCount : BitVec 32

def newAckIndex : AckIndex := ⟨∅, 0, 0, 0, 0⟩

namespace AckIndex

variable (i : AckIndex) (h : Int)

def load : AckIndex × Except Err MultiAckIndex :=
  if h < i.barrier then (i, .error (.wrapped (.loadingIndex h i.barrier) .queryExpired))
  else
    match i.hi.get h with
    | some mi => (i, .ok mi)
    | none =>
      ({ i with hi := i.hi.insert h ⟨∅, ∅⟩, multiIndexCount := i.multiIndexCount + 1 }, .ok ⟨∅, ∅⟩)

def update (op : MultiAckIndex → Change) : AckIndex × Except Err Unit :=
  match i.load h with
  | (i, .error err) => (i, .error err)
  | (i, .ok mi) =>
    ({ i with
        hi := i.hi.insert h (op mi).mi
        responseCount := i.responseCount + (op mi).responses
        ackCount := i.ackCount + (op mi).acks },
      (op mi).result)

def addResponse (resp : SignedResponseHeader) : AckIndex × Except Err Unit :=
  i.update h (MultiAckIndex.addResponse resp)

def register (ack : SignedAckHeader) : AckIndex × Except Err Unit :=
  i.update h (MultiAckIndex.register ack)

def remove (ack : SignedAckHeader) : AckIndex × Except Err Unit :=
  i.update h (MultiAckIndex.remove ack)

def deleteFrom (hi : FiniteMap Int MultiAckIndex) (x : Int) :
    Nat → FiniteMap Int MultiAckIndex × List MultiAckIndex
  | 0 => (hi, [])
  | count + 1 =>
    let (rest, dl) := deleteFrom (hi.erase x) (x + 1) count
    (rest, (hi.get x).toList ++ dl)

def advance : AckIndex :=
  let (hi, dl) := deleteFrom i.hi i.barrier (h - i.barrier).toNat
  { hi := hi
    barrier := h
    multiIndexCount := i.multiIndexCount - dl.length
    responseCount := i.responseCount - ((dl.map fun v => v.respIndex.keys.card).sum : Nat)
    ackCount := i.ackCount - ((dl.map fun v => v.ackIndex.keys.card).sum : Nat) }

def acksFrom (order : Int → List QueryKey) (x : Int) :
    Nat → AckIndex → AckIndex × List SignedAckHeader
  | 0, i => (i, [])
  | count + 1, i =>
    match i.load x with
    | (i, .error _) => acksFrom order (x + 1) count i
    | (i, .ok mi) =>
      let (i, rest) := acksFrom order (x + 1) count i
      (i, mi.acks (order x) ++ rest)

def acks (order : Int → List QueryKey) : AckIndex × List SignedAckHeader :=
  acksFrom order i.barrier (h + 1 - i.barrier).toNat i

end AckIndex

end SQLess.SQLChain
