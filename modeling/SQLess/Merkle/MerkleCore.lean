import SQLess.Types.TypesCore

/-! The array-based Merkle tree of `merkle/merkletrie.go`. -/

namespace SQLess.Merkle

def upperPowOfTwo (n : UInt64) : UInt64 :=
  let n := n - 1
  let n := n ||| (n >>> 1)
  let n := n ||| (n >>> 2)
  let n := n ||| (n >>> 4)
  let n := n ||| (n >>> 8)
  let n := n ||| (n >>> 16)
  let n := n ||| (n >>> 32)
  n + 1

/-- The value written at `offset` from the two nodes below it; `none` is nil. -/
def mergeNodes (merge : Hash → Hash → Hash) : Option Hash → Option Hash → Option Hash
  | some left, some right => some (merge left right)
  | some left, none => some (merge left left)
  | none, _ => none

/-- The loop of `NewMerkle`: `fuel` iterations from position `index` on.  The outer
`none` is an index out of range. -/
def fillFrom (merge : Hash → Hash → Hash) :
    Nat → Nat → Nat → List (Option Hash) → Option (List (Option Hash))
  | 0, _, _, tree => some tree
  | fuel + 1, index, offset, tree =>
    match tree[index]?, tree[index + 1]? with
    | some left, some right =>
      if offset < tree.length then
        fillFrom merge fuel (index + 2) (offset + 1) (tree.set offset (mergeNodes merge left right))
      else none
    | _, _ => none

def newMerkle (merge : Hash → Hash → Hash) (items : List Hash) : Option (List (Option Hash)) :=
  let items := if items.isEmpty then [0] else items
  let upperPoT := (upperPowOfTwo items.length.toUInt64).toNat
  let maxMerkleSize := upperPoT * 2 - 1
  let hashArray := items.map some ++ List.replicate (maxMerkleSize - items.length) none
  fillFrom merge (maxMerkleSize / 2) 0 upperPoT hashArray

/-- `*NewMerkle(items).GetRoot()`; `none` is a panic. -/
def root (merge : Hash → Hash → Hash) (items : List Hash) : Option Hash :=
  match newMerkle merge items with
  | some tree => tree.getLast?.join
  | none => none

example : root (fun left right => left + 2 * right) [1, 2, 3] = some 23 := by decide

end SQLess.Merkle
