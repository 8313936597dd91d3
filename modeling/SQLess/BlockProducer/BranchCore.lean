import SQLess.BlockProducer.BlockNodeCore
import SQLess.BlockProducer.MetaStateCore

/-!
Branches of the block tree with their preview state and transaction pools
(`blockproducer/branch.go`).
-/

namespace SQLess.BlockProducer

open Lib

/-- `map[hash.Hash]pi.Transaction`: every transaction is stored under its own hash. -/
structure TxPool where
  txs : FiniteMap Hash Transaction
  keyed : ∀ hash tx, txs.get hash = some tx → tx.hash = hash

namespace TxPool

def empty : TxPool := ⟨∅, by simp⟩

variable (pool : TxPool)

def get (hash : Hash) : Option Transaction := pool.txs.get hash

def contains (hash : Hash) : Bool := (pool.get hash).isSome

def add (tx : Transaction) : TxPool where
  txs := pool.txs.insert tx.hash tx
  keyed := by
    intro hash found stored
    rw [FiniteMap.get_insert] at stored
    split at stored
    · rename_i same
      simp only [Option.some.injEq] at stored
      rw [← stored, same]
    · exact pool.keyed hash found stored

def delete (hash : Hash) : TxPool where
  txs := pool.txs.erase hash
  keyed := by
    intro query found stored
    rw [FiniteMap.get_erase] at stored
    split at stored
    · simp at stored
    · exact pool.keyed query found stored

def deleteAll (txs : List Transaction) : TxPool :=
  txs.foldl (fun pool tx => pool.delete tx.hash) pool

def keep (test : Transaction → Bool) : TxPool where
  txs := pool.txs.filter fun _ tx => test tx
  keyed := by
    intro hash found stored
    rw [FiniteMap.get_filter] at stored
    exact pool.keyed hash found (Option.filter_eq_some_iff.mp stored).1

def deletePool (pool other : TxPool) : TxPool :=
  pool.keep fun tx => !other.contains tx.hash

def deleteBlocks (nodes : List BlockNode) : TxPool :=
  nodes.foldl (fun pool n => pool.deleteAll n.load.transactions) pool

end TxPool

inductive TransactionState where
  | pending
  | packed
  | confirmed
  | expired
  | notFound
  deriving DecidableEq

structure Branch where
  head : BlockNode
  preview : MetaState
  packed : TxPool
  unpacked : TxPool

abbrev BranchProgram (α : Type) := Program Branch Err α

abbrev Orders := Nat → MinerOrder

def Orders.drop (orders : Orders) (n : Nat) : Orders := fun index => orders (index + n)

def onPreview (program : MetaProgram Unit) : BranchProgram Unit := fun b =>
  match program b.preview with
  | .error reason => .error reason
  | .ok (result, preview) => .ok (result, { b with preview := preview })

def packTx (env : Env) (order : MinerOrder) (height : Nat) (v : Transaction) :
    BranchProgram Unit := do
  let b ← Program.get
  if b.unpacked.contains v.hash then
    Program.modify fun b => { b with unpacked := b.unpacked.delete v.hash }
  else Program.orFail (v.verify env)
  let b ← Program.get
  if b.packed.contains v.hash then Program.fail .existedTx
  else do
    Program.modify fun b => { b with packed := b.packed.add v }
    onPreview (apply env order v height)

def packTxs (env : Env) (height : Nat) : Orders → List Transaction → BranchProgram Unit
  | _, [] => pure ()
  | orders, v :: rest => do
    packTx env (orders 0) height v
    packTxs env height (orders.drop 1) rest

def packBlocks (env : Env) : Orders → List BlockNode → BranchProgram Unit
  | _, [] => pure ()
  | orders, bn :: rest =>
    if maxTransactionsPerBlock < bn.txCount then Program.fail .tooManyTransactionsInBlock
    else do
      packTxs env bn.height orders bn.load.transactions
      packBlocks env (orders.drop bn.txCount) rest

def newBranch (env : Env) (orders : Orders) (baseNode headNode : BlockNode)
    (baseState : MetaState) (basePool : TxPool) : Except Halt (Except Err Branch) :=
  let inst : Branch := ⟨headNode, baseState.makeCopy, .empty, basePool⟩
  match packBlocks env orders (headNode.fetchNodeList (baseNode.count + 1)) inst with
  | .error reason => .error reason
  | .ok (.error error, _) => .ok (.error error)
  | .ok (.ok (), inst) => .ok (.ok { inst with preview := inst.preview.commit })

namespace Branch

def makeArena (b : Branch) : Branch := { b with preview := b.preview.clean }

def addTx (b : Branch) (tx : Transaction) : Branch :=
  if b.packed.contains tx.hash then b
  else if b.unpacked.contains tx.hash then b
  else { b with unpacked := b.unpacked.add tx }

def shareReadonly (b arena : Branch) : Branch :=
  { b with preview := { b.preview with readonly := arena.preview.readonly } }

/-- `applyBlock`: the new branch or an error, and the origin, whose read-only index the
arena has used. -/
def applyBlock (env : Env) (orders : Orders) (b : Branch) (n : BlockNode) :
    Except Halt (Except Err Branch × Branch) :=
  if b.head.hash ≠ n.load.parentHash then .ok (.error .parentNotMatch, b)
  else if maxTransactionsPerBlock < n.txCount then
    .ok (.error .tooManyTransactionsInBlock, b)
  else
    match packTxs env n.height orders n.load.transactions b.makeArena with
    | .error reason => .error reason
    | .ok (.error error, cpy) => .ok (.error error, b.shareReadonly cpy)
    | .ok (.ok (), cpy) => .ok (.ok { cpy with head := n }, b.shareReadonly cpy)

def txBefore (env : Env) (left right : Transaction) : Bool :=
  let l := left.getAccountAddress env
  let r := right.getAccountAddress env
  if l ≠ r then decide (l < r) else decide (left.getAccountNonce < right.getAccountNonce)

/-- A result of `sortUnpackedTxs`: the unpacked transactions by account and nonce, where
equal elements may come in any order. -/
structure SortedUnpacked (env : Env) (b : Branch) (txs : List Transaction) : Prop where
  nodup : txs.Nodup
  mem : ∀ tx, tx ∈ txs ↔ b.unpacked.get tx.hash = some tx
  sorted : txs.Pairwise fun left right => txBefore env right left = false

def packUnpacked (env : Env) (h packCount : Nat) :
    Orders → List Transaction → List Transaction → Branch → Except Halt (List Transaction × Branch)
  | _, [], out, cpy => .ok (out, cpy)
  | orders, v :: rest, out, cpy =>
    match apply env (orders 0) v h cpy.preview with
    | .error reason => .error reason
    | .ok (.error _, preview) =>
      packUnpacked env h packCount (orders.drop 1) rest out { cpy with preview := preview }
    | .ok (.ok (), preview) =>
      let cpy := { cpy with
        preview := preview
        unpacked := cpy.unpacked.delete v.hash
        packed := cpy.packed.add v }
      if (out ++ [v]).length = packCount then .ok (out ++ [v], cpy)
      else packUnpacked env h packCount (orders.drop 1) rest (out ++ [v]) cpy

def produceBlock (env : Env) (orders : Orders) (b : Branch) (txs : List Transaction)
    (h : Nat) (ts : Time) (addr : AccountAddress) (signer : PrivateKey) :
    Except Halt (Except Err (Branch × BPBlock) × Branch) :=
  let packCount := min maxTransactionsPerBlock txs.length
  match packUnpacked env h packCount orders txs [] b.makeArena with
  | .error reason => .error reason
  | .ok (out, cpy) =>
    let header : BPHeader := ⟨0x01000000, addr, 0, cpy.head.hash, ts⟩
    match BPBlock.packAndSign env header out signer with
    | none => .error .panic
    | some (.error error) => .ok (.error (.wrapped "failed to sign block" error),
        b.shareReadonly cpy)
    | some (.ok block) =>
      .ok (.ok ({ cpy with head := newBlockNode h block (some cpy.head) }, block),
        b.shareReadonly cpy)

def clearPackedTxs (b : Branch) (txs : List Transaction) : Branch :=
  { b with packed := b.packed.deleteAll txs }

def clearUnpackedTxs (b : Branch) (txs : TxPool) : Branch :=
  { b with unpacked := b.unpacked.deletePool txs }

def commitPreview (b : Branch) : Branch := { b with preview := b.preview.commit }

def queryTxState (b : Branch) (hash : Hash) : Option TransactionState :=
  if b.unpacked.contains hash then some .pending
  else if b.packed.contains hash then some .packed
  else none

end Branch

end SQLess.BlockProducer
