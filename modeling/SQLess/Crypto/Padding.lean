import Mathlib.Data.List.Basic
import Mathlib.Tactic.Common

/-! The padding of `crypto/cipher.go`. -/

namespace SQLess.Crypto

open List

abbrev Bytes := List UInt8

def blockSize : Nat := 16

inductive Err where
  | invalidPadding
  deriving DecidableEq

def addPKCSPadding (src : Bytes) : Bytes :=
  let padding := blockSize - src.length % blockSize
  src ++ replicate padding (UInt8.ofNat padding)

def removePKCSPadding (src : Bytes) : Option (Except Err Bytes) :=
  match src.getLast? with
  | none => none
  | some last =>
    let padLength := last.toNat
    if blockSize < padLength ∨ src.length < blockSize then some (.error .invalidPadding)
    else some (.ok (src.take (src.length - padLength)))

/-- The last `padLength` bytes of whole blocks say how many they are. -/
def Padded (src : Bytes) (padLength : UInt8) : Prop :=
  0 < padLength.toNat ∧ blockSize ∣ src.length ∧
    ∀ b ∈ src.drop (src.length - padLength.toNat), b = padLength

lemma removePKCSPadding_addPKCSPadding (x : Bytes) :
    removePKCSPadding (addPKCSPadding x) = some (.ok x) := by
  unfold addPKCSPadding
  generalize padding : blockSize - x.length % blockSize = n
  have range : 0 < n ∧ n ≤ 16 ∧ 16 ≤ x.length + n := by
    simp only [blockSize] at padding
    omega
  have value : (UInt8.ofNat n).toNat = n := by
    rw [UInt8.toNat_ofNat']
    omega
  have last : (x ++ replicate n (UInt8.ofNat n)).getLast? = some (UInt8.ofNat n) := by
    rw [getLast?_append, getLast?_replicate, if_neg (by omega)]
    rfl
  simp only [removePKCSPadding, last, value, length_append, length_replicate, blockSize]
  rw [if_neg (by omega), Nat.add_sub_cancel, take_left]

lemma addPKCSPadding_take_iff (small : last.toNat ≤ 16) (block : 16 ≤ y.length) :
    addPKCSPadding (y.take (y.length - last.toNat)) = y ↔ Padded y last := by
  have split := take_append_drop (y.length - last.toNat) y
  have front : (y.take (y.length - last.toNat)).length = y.length - last.toNat := by simp
  have rest : (y.drop (y.length - last.toNat)).length = last.toNat := by
    rw [length_drop]
    omega
  unfold addPKCSPadding Padded
  dsimp only
  generalize padding : blockSize - (y.take (y.length - last.toNat)).length % blockSize = n
  rw [front] at padding
  simp only [blockSize] at padding
  constructor
  · intro same
    have behind : y.drop (y.length - last.toNat) = replicate n (UInt8.ofNat n) :=
      append_cancel_left (split.trans same.symm)
    rw [behind, length_replicate] at rest
    refine ⟨by omega, ⟨(y.length - last.toNat) / 16 + 1, by simp only [blockSize]; omega⟩, ?_⟩
    rw [behind, rest, UInt8.ofNat_toNat]
    exact fun b member => (mem_replicate.mp member).2
  · rintro ⟨positive, blocks, same⟩
    obtain rfl : n = last.toNat := by
      simp only [blockSize] at blocks
      omega
    rw [UInt8.ofNat_toNat, ← eq_replicate_iff.mpr ⟨rest, same⟩]
    exact split

/-- Padding is removed again; for any other bytes, an answer is right exactly if they are not empty
and are refused or padded. -/
theorem removePKCSPadding_sound_iff (x y : Bytes) :
    removePKCSPadding (addPKCSPadding x) = some (.ok x) ∧
      ((∃ result, removePKCSPadding y = some result ∧
          ∀ x, result = .ok x → addPKCSPadding x = y) ↔
        ∃ last, y.getLast? = some last ∧
          (blockSize < last.toNat ∨ y.length < blockSize ∨ Padded y last)) := by
  refine ⟨removePKCSPadding_addPKCSPadding x, ?_⟩
  unfold removePKCSPadding
  cases final : y.getLast? with
  | none => simp
  | some last =>
    simp only [Option.some.injEq, exists_eq_left']
    by_cases refused : blockSize < last.toNat ∨ y.length < blockSize
    · rw [if_pos refused, ← or_assoc]
      exact iff_of_true ⟨_, rfl, nofun⟩ (.inl refused)
    · rw [if_neg refused, ← or_assoc, or_iff_right refused]
      simp only [Option.some.injEq, exists_eq_left', Except.ok.injEq, forall_eq']
      simp only [blockSize] at refused
      exact addPKCSPadding_take_iff (by omega) (by omega)

theorem removePKCSPadding_unpadded :
    removePKCSPadding [] = none ∧
      removePKCSPadding (replicate 16 0) = some (.ok (replicate 16 0)) ∧
      addPKCSPadding (replicate 16 0) ≠ replicate 16 0 := by
  decide

end SQLess.Crypto
