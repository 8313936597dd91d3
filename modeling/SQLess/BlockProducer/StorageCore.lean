import SQLess.BlockProducer.BranchCore

/-! The SQLite tables of `blockproducer/storage.go`. A table with a unique column is a map, or for
`blocks` a list in rowid order. The explorer tables other than `indexed_transactions` are left out.
-/

namespace SQLess.BlockProducer

open Lib

structure BlockRow where
  height : Nat
  hash : Hash
  parent : Hash
  encoded : BPBlock
  deriving DecidableEq

structure Storage where
  blocks : List BlockRow
  txPool : TxPool
  irreversible : Option Hash
  accounts : FiniteMap AccountAddress Account
  shardChain : FiniteMap DatabaseID SQLChainProfile
  provider : FiniteMap AccountAddress ProviderProfile
  indexedTransactions : FiniteMap (Nat × Nat) Hash
  /-- History variable: the blocks whose changes are in the account tables. -/
  applied : List BlockNode

def openStorage : Storage := ⟨[], .empty, none, ∅, ∅, ∅, ∅, []⟩

abbrev StorageProcedure := Storage → Except Halt Storage

def store (stored : Bool) (sps : List StorageProcedure) (st : Storage) :
    Except Halt (Except Err Storage) :=
  if stored then (runProcedures sps st).map Except.ok else .ok (.error .storage)
where
  runProcedures : List StorageProcedure → Storage → Except Halt Storage
    | [], st => .ok st
    | sp :: rest, st =>
      match sp st with
      | .error reason => .error reason
      | .ok st => runProcedures rest st

def Storage.insertBlock (st : Storage) (height : Nat) (b : BPBlock) : Storage :=
  { st with blocks := st.blocks.filter (fun row => row.hash ≠ b.blockHash) ++
    [⟨height, b.blockHash, b.parentHash, b⟩] }

def addBlock (height : Nat) (b : BPBlock) : StorageProcedure := fun st =>
  .ok (st.insertBlock height b)

def addTx (tx : Transaction) : StorageProcedure := fun st =>
  .ok { st with txPool := st.txPool.add tx }

def Storage.indexBlock (st : Storage) (height : Nat) (b : BPBlock) : Storage :=
  let insertTx (table : FiniteMap (Nat × Nat) Hash) (entry : Transaction × Nat) :=
    table.insert (height, entry.2) entry.1.hash
  { st with
    indexedTransactions := b.transactions.zipIdx.foldl insertTx st.indexedTransactions }

def buildBlockIndex (height : Nat) (b : BPBlock) : StorageProcedure := fun st =>
  .ok (st.indexBlock height b)

def updateIrreversible (h : Hash) : StorageProcedure := fun st =>
  .ok { st with irreversible := some h }

def deleteTxs (txs : List Transaction) : StorageProcedure := fun st =>
  .ok { st with txPool := st.txPool.deleteAll txs }

def deleteExpiredTxs (txs : TxPool) : StorageProcedure := fun st =>
  .ok { st with txPool := st.txPool.deletePool txs }

def hasNilPermission (profile : Option SQLChainProfile) : Bool :=
  profile.any fun profile => profile.users.any fun user => user.permission.isNone

def Storage.mergeDirty (st : Storage) (dirty : DirtyIndex) : Storage :=
  { st with
    accounts := FiniteMap.overlay dirty.accounts st.accounts
    shardChain := FiniteMap.overlay dirty.databases st.shardChain
    provider := FiniteMap.overlay dirty.provider st.provider }

/-- `compileChanges`: every dirty object is written under its own address or id, and every deletion
mark deletes a row. Writing a profile reads the role of each user, whose permission may be nil. -/
def compileChanges (s : MetaState) : StorageProcedure := fun st =>
  if ∃ id ∈ s.dirty.databases.keys, hasNilPermission (s.dirty.databases.get id).join then
    .error .panic
  else .ok (st.mergeDirty s.dirty)

def recordApplied (nodes : List BlockNode) : StorageProcedure := fun st =>
  .ok { st with applied := st.applied ++ nodes }

structure BlockIndex where
  index : FiniteMap Hash BlockNode
  headsIndex : FiniteMap Hash BlockNode

def loadBlockRow (loaded : BlockIndex) (row : BlockRow) : Except Err BlockIndex :=
  if row.height = 0 then
    if loaded.index.keys ≠ ∅ then .error .multipleGenesis
    else
      let bn := newBlockNode 0 row.encoded none
      .ok ⟨loaded.index.insert row.hash bn, loaded.headsIndex.insert row.hash bn⟩
  else
    match loaded.index.get row.parent with
    | none => .error (.wrapped "parent not found" .parentNotFound)
    | some pn =>
      let bn := newBlockNode row.height row.encoded (some pn)
      .ok ⟨loaded.index.insert row.hash bn, (loaded.headsIndex.erase row.parent).insert row.hash bn⟩

def loadBlocks (st : Storage) (irreHash : Hash) :
    Except Err (BlockNode × FiniteMap Hash BlockNode) :=
  match st.blocks.foldlM loadBlockRow ⟨∅, ∅⟩ with
  | .error error => .error error
  | .ok loaded =>
    match loaded.index.get irreHash with
    | none => .error (.wrapped "irreversible block not found" .parentNotFound)
    | some lastIrre => .ok (lastIrre, loaded.headsIndex)

def loadImmutableState (st : Storage) : MetaState :=
  ⟨newDirtyIndex, ⟨st.accounts, st.shardChain, st.provider⟩⟩

end SQLess.BlockProducer
