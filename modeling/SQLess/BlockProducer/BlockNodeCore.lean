import SQLess.Types.TypesCore

/-! The tree of block nodes of `blockproducer/blocknode.go`. -/

namespace SQLess.BlockProducer

inductive BlockNode where
  | genesis (height : Nat) (block : BPBlock)
  | child (parent : BlockNode) (height : Nat) (block : BPBlock)
  deriving DecidableEq

def newBlockNode (h : Nat) (b : BPBlock) : Option BlockNode → BlockNode
  | none => .genesis h b
  | some p => .child p h b

namespace BlockNode

def parent : BlockNode → Option BlockNode
  | .genesis _ _ => none
  | .child p _ _ => some p

def count : BlockNode → Nat
  | .genesis _ _ => 0
  | .child p _ _ => p.count + 1

def height : BlockNode → Nat
  | .genesis h _ => h
  | .child _ h _ => h

def load : BlockNode → BPBlock
  | .genesis _ b => b
  | .child _ _ b => b

def hash (n : BlockNode) : Hash := n.load.blockHash

def txCount (n : BlockNode) : Nat := n.load.transactions.length

def txs (n : BlockNode) : List (Transaction × Nat) :=
  n.load.transactions.map fun tx => (tx, n.height)

def fetchNodeList (start : Nat) : BlockNode → List BlockNode
  | .genesis h b => if 0 < start then [] else [.genesis h b]
  | .child p h b =>
    if p.count + 1 < start then [] else p.fetchNodeList start ++ [.child p h b]

def ancestorFrom (h : Nat) : BlockNode → Option BlockNode
  | .genesis height b =>
    if h < height then none else if height = h then some (.genesis height b) else none
  | .child p height b =>
    if h < height then p.ancestorFrom h
    else if height = h then some (.child p height b) else none

def ancestor (h : Nat) (n : BlockNode) : Option BlockNode :=
  if n.height < h then none else n.ancestorFrom h

def ancestorByCount (c : Nat) : BlockNode → Option BlockNode
  | .genesis h b => if c = 0 then some (.genesis h b) else none
  | .child p h b =>
    if p.count + 1 < c then none
    else if p.count + 1 = c then some (.child p h b)
    else p.ancestorByCount c

def lastAtMost (count : Nat) : BlockNode → BlockNode
  | .genesis h b => .genesis h b
  | .child p h b => if count < p.count + 1 then p.lastAtMost count else .child p h b

def lastIrreversible (confirm : Nat) (n : BlockNode) : BlockNode :=
  n.lastAtMost (if confirm < n.count then n.count - confirm else 0)

def hasAncestor (n anc : BlockNode) : Bool :=
  match n.ancestorByCount anc.count with
  | some found => found.hash = anc.hash
  | none => false

def hasAncestorWithMinCount (blockHash : Hash) (minCount : Nat) : BlockNode → Option BlockNode
  | .genesis h b =>
    if minCount = 0 ∧ b.blockHash = blockHash then some (.genesis h b) else none
  | .child p h b =>
    if p.count + 1 < minCount then none
    else if b.blockHash = blockHash then some (.child p h b)
    else p.hasAncestorWithMinCount blockHash minCount

end BlockNode

end SQLess.BlockProducer
