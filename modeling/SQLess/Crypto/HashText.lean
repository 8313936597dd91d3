import Mathlib.Data.List.OfFn
import Mathlib.Data.Fin.Rev
import Mathlib.Tactic.Common

/-! The text form of a hash of `crypto/hash/hash.go`. -/

namespace SQLess.Crypto

open List

def hashSize : Nat := 32

abbrev HashBytes := Fin hashSize → UInt8

inductive HashErr where
  | hashStrSize
  | invalidByte (c : UInt8)
  deriving DecidableEq

def hexDigit (n : UInt8) : UInt8 := if n < 10 then n + 48 else n + 87

def encodePair (b : UInt8) : List UInt8 := [hexDigit (b >>> 4), hexDigit (b &&& 15)]

abbrev isHexDigit (c : UInt8) : Prop :=
  48 ≤ c ∧ c ≤ 57 ∨ 97 ≤ c ∧ c ≤ 102 ∨ 65 ≤ c ∧ c ≤ 70

def fromHexChar (c : UInt8) : UInt8 :=
  if c ≤ 57 then c - 48 else if 97 ≤ c then c - 97 + 10 else c - 65 + 10

def decodePairs : List UInt8 → List UInt8
  | p :: q :: src => (fromHexChar p <<< 4 ||| fromHexChar q) :: decodePairs src
  | _ => []

def hexDecode (src : List UInt8) : Except HashErr (List UInt8) :=
  match src.find? fun c => ¬isHexDigit c with
  | some c => .error (.invalidByte c)
  | none => .ok (decodePairs src)

def firstHalf : List (Fin hashSize) := (finRange hashSize).take (hashSize / 2)

def swapHalves (h : HashBytes) : HashBytes :=
  firstHalf.foldl (fun h i => Function.update (Function.update h i (h i.rev)) i.rev (h i)) h

def reverseCopy (dst reversedHash : HashBytes) : HashBytes :=
  firstHalf.foldl (fun dst i =>
    Function.update (Function.update dst i (reversedHash i.rev)) i.rev (reversedHash i)) dst

def string (h : HashBytes) : List UInt8 := (ofFn (swapHalves h)).flatMap encodePair

def padDigits (src : List UInt8) : List UInt8 := if src.length % 2 = 0 then src else 48 :: src

def decode (dst : HashBytes) (src : List UInt8) : HashBytes × Except HashErr Unit :=
  if 2 * hashSize < src.length then (dst, .error .hashStrSize)
  else
    let srcBytes := padDigits src
    match hexDecode srcBytes with
    | .error err => (dst, .error err)
    | .ok bytes =>
      let offset := hashSize - srcBytes.length / 2
      (reverseCopy dst fun i => if i < offset then 0 else bytes.getD (i - offset) 0, .ok ())

lemma foldl_swap (source dst : HashBytes) (is : List (Fin hashSize)) (j) : is.foldl (fun dst i =>
      Function.update (Function.update dst i (source i.rev)) i.rev (source i)) dst j =
        if j ∈ is ∨ j.rev ∈ is then source j.rev else dst j := by
  induction is generalizing dst with
  | nil => simp
  | cons i is ih =>
    rw [foldl_cons, ih]
    simp only [Function.update_apply, mem_cons]
    grind [Fin.rev_rev]

lemma reverseCopy_eq (dst reversedHash) :
    reverseCopy dst reversedHash = reversedHash ∘ Fin.rev := by
  have covered : ∀ j : Fin hashSize, j ∈ firstHalf ∨ j.rev ∈ firstHalf := by decide
  funext j
  rw [reverseCopy, foldl_swap, if_pos (covered j)]
  rfl

-- a swapped byte is not read again
lemma swapHalves_eq (h) : swapHalves h = h ∘ Fin.rev :=
  (show swapHalves h = reverseCopy h h from rfl).trans (reverseCopy_eq h h)

lemma swapHalves_swapHalves (h) : swapHalves (swapHalves h) = h := by
  rw [swapHalves_eq, swapHalves_eq, Function.comp_assoc, Fin.rev_involutive.comp_self]
  rfl

lemma forall_byte {p : UInt8 → Prop} (all : ∀ n < 256, p (.ofNat n)) (b : UInt8) : p b := by
  have holds := all b.toNat b.toNat_lt
  rwa [UInt8.ofNat_toNat] at holds

def toLower (c : UInt8) : UInt8 := if 65 ≤ c ∧ c ≤ 70 then c + 32 else c

lemma fromHexChar_hexDigit : ∀ b : UInt8,
    fromHexChar (hexDigit (b >>> 4)) <<< 4 ||| fromHexChar (hexDigit (b &&& 15)) = b ∧
      isHexDigit (hexDigit (b >>> 4)) ∧ isHexDigit (hexDigit (b &&& 15)) :=
  forall_byte (by decide +kernel)

lemma hexDigit_fromHexChar : ∀ c, isHexDigit c →
    hexDigit (fromHexChar c) = toLower c ∧ (fromHexChar c).toNat < 16 :=
  forall_byte (by decide +kernel)

lemma encodePair_join {a b : UInt8} (high : a.toNat < 16) (low : b.toNat < 16) :
    encodePair (a <<< 4 ||| b) = [hexDigit a, hexDigit b] := by
  have pairs : ∀ n < 16, ∀ m < 16, encodePair (UInt8.ofNat n <<< 4 ||| UInt8.ofNat m) =
      [hexDigit (UInt8.ofNat n), hexDigit (UInt8.ofNat m)] := by
    decide +kernel
  have pair := pairs a.toNat high b.toNat low
  rwa [UInt8.ofNat_toNat, UInt8.ofNat_toNat] at pair

lemma hexDecode_of_digits (digits : ∀ c ∈ src, isHexDigit c) :
    hexDecode src = .ok (decodePairs src) := by
  have none : src.find? (fun c => ¬isHexDigit c) = none :=
    find?_eq_none.mpr fun c member wrong => of_decide_eq_true wrong (digits c member)
  rw [hexDecode, none]

lemma hexDecode_encode (bytes) : hexDecode (bytes.flatMap encodePair) = .ok bytes := by
  rw [hexDecode_of_digits]
  · induction bytes with
    | nil => rfl
    | cons b bytes ih =>
      simp only [Except.ok.injEq, flatMap_cons, encodePair, cons_append, nil_append,
        decodePairs] at ih ⊢
      rw [(fromHexChar_hexDigit b).1, ih]
  · intro c member
    obtain ⟨b, -, written⟩ := mem_flatMap.mp member
    simp only [encodePair, mem_cons, not_mem_nil, or_false] at written
    rcases written with rfl | rfl
    · exact (fromHexChar_hexDigit b).2.1
    · exact (fromHexChar_hexDigit b).2.2

lemma encode_decodePairs (even : src.length % 2 = 0) (digits : ∀ c ∈ src, isHexDigit c) :
    (decodePairs src).flatMap encodePair = src.map toLower := by
  induction src using decodePairs.induct with
  | case1 p q src ih =>
    simp only [length_cons, forall_mem_cons] at even digits
    obtain ⟨upper, high⟩ := hexDigit_fromHexChar p digits.1
    obtain ⟨lower, low⟩ := hexDigit_fromHexChar q digits.2.1
    rw [decodePairs, flatMap_cons, encodePair_join high low, ih (by omega) digits.2.2, upper, lower]
    rfl
  | case2 src short =>
    match src, short, even with
    | [], _, _ => rfl
    | [c], _, even => simp at even
    | p :: q :: src, short, _ => exact absurd rfl (short p q src)

lemma ofFn_padded {bytes : List UInt8} (size : offset + bytes.length = hashSize) :
    ofFn (fun i : Fin hashSize => if i < offset then 0 else bytes.getD (i - offset) 0) =
      replicate offset 0 ++ bytes := by
  apply ext_getElem
  · simp [size]
  · intro i inside inside'
    rw [List.getElem_ofFn, List.getElem_append]
    simp only [length_replicate]
    split
    · simp
    · rw [getD_eq_getElem?_getD, List.getElem?_eq_getElem]
      rfl

lemma padDigits_eq (src) : padDigits src = replicate (src.length % 2) 48 ++ src := by
  unfold padDigits
  rcases Nat.mod_two_eq_zero_or_one src.length with even | odd
  · simp [even]
  · simp [odd]

lemma even_padDigits (src) : (padDigits src).length % 2 = 0 := by
  rw [padDigits_eq, length_append, length_replicate]
  omega

lemma length_encode (bytes : List UInt8) :
    (bytes.flatMap encodePair).length = 2 * bytes.length := by
  simp [encodePair, length_flatMap, map_const', Nat.mul_comm]

lemma encode_zeros (n : Nat) : (replicate n 0).flatMap encodePair = replicate (2 * n) 48 := by
  induction n with
  | zero => rfl
  | succ n ih => rw [replicate_succ, flatMap_cons, ih]; rfl

lemma decode_of_hexDecode (dst) (bytes : List UInt8) (fits : src.length ≤ 64)
    (size : (padDigits src).length = 2 * bytes.length)
    (decoded : hexDecode (padDigits src) = .ok bytes) : ∃ h, decode dst src = (h, .ok ()) ∧
      ofFn (swapHalves h) = replicate (hashSize - bytes.length) 0 ++ bytes := by
  have bound : bytes.length ≤ hashSize := by
    rw [padDigits_eq, length_append, length_replicate] at size
    simp only [hashSize]
    omega
  simp only [decode, decoded]
  rw [if_neg (by simp only [hashSize]; omega)]
  refine ⟨_, rfl, ?_⟩
  rw [swapHalves_eq, reverseCopy_eq, Function.comp_assoc, Fin.rev_involutive.comp_self,
    Function.comp_id, size, Nat.mul_div_cancel_left _ (by omega), ofFn_padded (by omega)]

lemma decode_string (dst h) : decode dst (string h) = (h, .ok ()) := by
  have size : (string h).length = 64 := by
    rw [string, length_encode, length_ofFn]
    rfl
  have even : padDigits (string h) = string h := if_pos (by rw [size])
  obtain ⟨h', decoded, same⟩ := decode_of_hexDecode dst (ofFn (swapHalves h)) size.le
    (by rw [even, size, length_ofFn]; rfl) (by rw [even, string, hexDecode_encode])
  rw [length_ofFn, Nat.sub_self, replicate_zero, nil_append] at same
  rw [decoded, ← swapHalves_swapHalves h', ofFn_injective same, swapHalves_swapHalves]

lemma decode_digits (dst) (fits : src.length ≤ 64) (digits : ∀ c ∈ src, isHexDigit c) :
    ∃ h, decode dst src = (h, .ok ()) ∧
      string h = replicate (64 - src.length) 48 ++ src.map toLower := by
  have padded : ∀ c ∈ padDigits src, isHexDigit c := by
    unfold padDigits
    grind
  have same := encode_decodePairs (even_padDigits src) padded
  have size : (padDigits src).length = 2 * (decodePairs (padDigits src)).length := by
    rw [← length_encode, same, length_map]
  obtain ⟨h, found, text⟩ := decode_of_hexDecode dst _ fits size (hexDecode_of_digits padded)
  refine ⟨h, found, ?_⟩
  have zero : toLower 48 = 48 := rfl
  rw [string, text, flatMap_append, same, encode_zeros, padDigits_eq, map_append, map_replicate,
    zero, ← append_assoc, replicate_append_replicate]
  rw [padDigits_eq, length_append, length_replicate] at size
  congr 2
  simp only [hashSize]
  omega

lemma decode_refused (dst) (wrong : 64 < src.length ∨ ∃ c ∈ src, ¬isHexDigit c) :
    ∃ err, decode dst src = (dst, .error err) := by
  by_cases long : 64 < src.length
  · exact ⟨_, if_pos long⟩
  · obtain ⟨c, member, other⟩ := wrong.resolve_left long
    have inside : c ∈ padDigits src := padDigits_eq src ▸ mem_append_right _ member
    obtain ⟨first, found⟩ := Option.isSome_iff_exists.mp
      (find?_isSome (p := fun c => ¬isHexDigit c).mpr ⟨c, inside, decide_eq_true other⟩)
    refine ⟨.invalidByte first, ?_⟩
    rw [decode, if_neg (by simpa [hashSize] using long)]
    simp only [hexDecode, found]

/-- The text of a hash is read back, digits of either case are, and nothing else is. -/
theorem hash_text_exact :
    (∀ dst h, decode dst (string h) = (h, .ok ())) ∧
    (∀ dst src, src.length ≤ 64 → (∀ c ∈ src, isHexDigit c) →
      ∃ h, decode dst src = (h, .ok ()) ∧
        string h = replicate (64 - src.length) 48 ++ src.map toLower) ∧
    (∀ dst src, (64 < src.length ∨ ∃ c ∈ src, ¬ isHexDigit c) →
      ∃ err, decode dst src = (dst, .error err)) :=
  ⟨decode_string, fun dst _ => decode_digits dst, fun dst _ => decode_refused dst⟩

end SQLess.Crypto
