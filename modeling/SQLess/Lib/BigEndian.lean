import Mathlib.Algebra.Ring.Nat
import Mathlib.Data.List.Lex
import Mathlib.Order.Fin.Basic
import Mathlib.Tactic.Common

/-! Numbers as big-endian bytes of a fixed width. -/

namespace Lib

instance neZero_byte : NeZero (256 : Nat) := ⟨by decide⟩

def bigEndian : Nat → Nat → List (Fin 256)
  | 0, _ => []
  | width + 1, n => Fin.ofNat 256 (n / 256 ^ width) :: bigEndian width (n % 256 ^ width)

def ofBigEndian (bytes : List (Fin 256)) : Nat :=
  bytes.foldl (fun n byte => n * 256 + byte) 0

lemma bigEndian_lt (less : n < m) (bound : m < 256 ^ width) :
    bigEndian width n < bigEndian width m := by
  induction width generalizing n m with
  | zero =>
    rw [Nat.pow_zero] at bound
    omega
  | succ width ih =>
    have positive : 0 < 256 ^ width := Nat.pow_pos (by omega)
    have highest : m / 256 ^ width < 256 := by
      rw [Nat.pow_succ'] at bound
      exact (Nat.div_lt_iff_lt_mul positive).mpr bound
    have ordered : n / 256 ^ width ≤ m / 256 ^ width := Nat.div_le_div_right less.le
    rw [bigEndian, bigEndian, List.cons_lt_cons_iff]
    rcases Nat.lt_or_eq_of_le ordered with smaller | same
    · left
      rw [Fin.lt_def, Fin.val_ofNat, Fin.val_ofNat, Nat.mod_eq_of_lt highest,
        Nat.mod_eq_of_lt (smaller.trans highest)]
      exact smaller
    · right
      refine ⟨by rw [same], ih ?_ (Nat.mod_lt m positive)⟩
      have left := Nat.div_add_mod n (256 ^ width)
      have right := Nat.div_add_mod m (256 ^ width)
      rw [same] at left
      omega

lemma bigEndian_lt_iff (bound : n < 256 ^ width) (bound' : m < 256 ^ width) :
    bigEndian width n < bigEndian width m ↔ n < m := by
  constructor
  · intro less
    rcases Nat.lt_trichotomy n m with before | rfl | behind
    · exact before
    · exact absurd less (lt_irrefl _)
    · exact absurd less (bigEndian_lt behind bound).not_gt
  · exact fun less => bigEndian_lt less bound'

lemma bigEndian_inj (bound : n < 256 ^ width) (bound' : m < 256 ^ width) :
    bigEndian width n = bigEndian width m ↔ n = m := by
  constructor
  · intro same
    rcases Nat.lt_trichotomy n m with before | equal | behind
    · exact absurd same (bigEndian_lt before bound').ne
    · exact equal
    · exact absurd same (bigEndian_lt behind bound).ne'
  · rintro rfl
    rfl

end Lib
