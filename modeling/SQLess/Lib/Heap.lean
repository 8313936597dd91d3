import Mathlib.Logic.Function.Basic

/-! A heap of objects of one type. -/

namespace Lib

structure Heap (α : Type) where
  read : Nat → α
  size : Nat

namespace Heap

variable {α : Type}

variable (heap : Heap α)

def alloc (object : α) : Heap α :=
  ⟨Function.update heap.read heap.size object, heap.size + 1⟩

def write (ref : Nat) (object : α) : Heap α :=
  ⟨Function.update heap.read ref object, heap.size⟩

@[simp] lemma read_alloc_new (object : α) : (heap.alloc object).read heap.size = object :=
  Function.update_self _ _ _

lemma read_alloc_old {heap : Heap α} (object : α) (old : ref < heap.size) :
    (heap.alloc object).read ref = heap.read ref :=
  Function.update_of_ne (Nat.ne_of_lt old) _ _

@[simp] lemma read_write_same (ref) (object : α) : (heap.write ref object).read ref = object :=
  Function.update_self _ _ _

lemma read_write_other {heap : Heap α} (object : α) (different : other ≠ ref) :
    (heap.write ref object).read other = heap.read other :=
  Function.update_of_ne different _ _

lemma write_read (ref) : heap.write ref (heap.read ref) = heap := by
  rw [write, Function.update_eq_self]

@[simp] lemma write_alloc (object later : α) :
    (heap.alloc object).write heap.size later = heap.alloc later := by
  rw [write, alloc, alloc, Function.update_idem]

structure Extends (earlier later : Heap α) : Prop where
  size : earlier.size ≤ later.size
  read : ∀ ref < earlier.size, later.read ref = earlier.read ref

namespace Extends

variable {earlier between later : Heap α}

lemma refl (heap : Heap α) : Extends heap heap := ⟨Nat.le_refl _, fun _ _ => rfl⟩

lemma trans (first : Extends earlier between) (second : Extends between later) :
    Extends earlier later := by
  refine ⟨Nat.le_trans first.size second.size, ?_⟩
  intro ref old
  rw [second.read ref (Nat.lt_of_lt_of_le old first.size), first.read ref old]

lemma alloc (extended : Extends earlier later) (object : α) :
    Extends earlier (later.alloc object) := by
  refine ⟨Nat.le_succ_of_le extended.size, ?_⟩
  intro ref old
  rw [read_alloc_old object (Nat.lt_of_lt_of_le old extended.size), extended.read ref old]

end Extends

end Heap

end Lib
