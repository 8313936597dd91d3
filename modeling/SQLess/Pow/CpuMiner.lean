import Mathlib.Algebra.Ring.Nat
import Mathlib.Data.List.Nodup
import Mathlib.Logic.Function.Iterate
import SQLess.Crypto.HashText

/-! Mining of a nonce, of `pow/cpuminer`. -/

namespace SQLess.CpuMiner

open Crypto (HashBytes hashSize)

structure Uint256 where
  a : UInt64
  b : UInt64
  c : UInt64
  d : UInt64
  deriving DecidableEq

namespace Uint256

def inc (i : Uint256) : Uint256 :=
  let i := { i with a := i.a + 1 }
  if i.a = 0 then
    let i := { i with b := i.b + 1 }
    if i.b = 0 then
      let i := { i with c := i.c + 1 }
      if i.c = 0 then { i with d := i.d + 1 } else i
    else i
  else i

def limbBytes (limb : UInt64) : List UInt8 :=
  ([56, 48, 40, 32, 24, 16, 8, 0] : List UInt64).map fun shift => (limb >>> shift).toUInt8

def bytes (i : Uint256) : List UInt8 := [i.a, i.b, i.c, i.d].flatMap limbBytes

def toNat (i : Uint256) : Nat :=
  i.a.toNat + 2 ^ 64 * (i.b.toNat + 2 ^ 64 * (i.c.toNat + 2 ^ 64 * i.d.toNat))

lemma carry (x : UInt64) :
    x + 1 = 0 ∧ x.toNat = 2 ^ 64 - 1 ∨ x + 1 ≠ 0 ∧ (x + 1).toNat = x.toNat + 1 := by
  have sum : (x + 1).toNat = (x.toNat + 1) % 2 ^ 64 := UInt64.toNat_add x 1
  have bound := x.toNat_lt
  by_cases full : x + 1 = 0
  · rw [full] at sum
    exact .inl ⟨full, by simp at sum; omega⟩
  · have positive : (x + 1).toNat ≠ 0 := fun zero => full (UInt64.toNat_inj.mp zero)
    exact .inr ⟨full, by omega⟩

lemma toNat_lt (i : Uint256) : i.toNat < 2 ^ 256 := by
  have a := i.a.toNat_lt
  have b := i.b.toNat_lt
  have c := i.c.toNat_lt
  have d := i.d.toNat_lt
  unfold toNat
  omega

lemma inc_cases (i : Uint256) : i.inc.toNat = i.toNat + 1 ∨
    i.inc.toNat = 0 ∧ i.toNat + 1 = 2 ^ 256 := by
  obtain ⟨a, b, c, d⟩ := i
  unfold inc toNat
  rcases carry a with ⟨fullA, lastA⟩ | ⟨freeA, nextA⟩
  · rcases carry b with ⟨fullB, lastB⟩ | ⟨freeB, nextB⟩
    · rcases carry c with ⟨fullC, lastC⟩ | ⟨freeC, nextC⟩
      · rcases carry d with ⟨fullD, lastD⟩ | ⟨freeD, nextD⟩
        · simp [*]
        · simp [*]
          omega
      · simp [*]
        omega
    · simp [*]
      omega
  · simp [*]
    omega

lemma toNat_inc_iterate (i) (k) : (inc^[k] i).toNat = (i.toNat + k) % 2 ^ 256 := by
  induction k with
  | zero => exact (Nat.mod_eq_of_lt i.toNat_lt).symm
  | succ k =>
    have bound := (inc^[k + 1] i).toNat_lt
    rw [Function.iterate_succ_apply'] at bound ⊢
    rcases inc_cases (inc^[k] i) with next | ⟨zero, last⟩
    · omega
    · omega

lemma limbBytes_length (x y) : (limbBytes x).length = (limbBytes y).length := by
  rw [limbBytes, limbBytes, List.length_map, List.length_map]

lemma limbBytes_inj (same : limbBytes x = limbBytes y) : x = y := by
  simp only [limbBytes, List.map_cons, List.map_nil, List.cons.injEq, ← UInt8.toNat_inj,
    UInt64.toNat_toUInt8, UInt64.toNat_shiftRight, Nat.shiftRight_eq_div_pow] at same
  have left := x.toNat_lt
  have right := y.toNat_lt
  rw [← UInt64.toNat_inj]
  simp at same
  omega

lemma bytes_inj {i j : Uint256} (same : i.bytes = j.bytes) : i = j := by
  obtain ⟨a, b, c, d⟩ := i
  obtain ⟨a', b', c', d'⟩ := j
  change limbBytes a ++ (limbBytes b ++ (limbBytes c ++ (limbBytes d ++ []))) =
    limbBytes a' ++ (limbBytes b' ++ (limbBytes c' ++ (limbBytes d' ++ []))) at same
  obtain ⟨first, same⟩ := List.append_inj same (limbBytes_length a a')
  obtain ⟨second, same⟩ := List.append_inj same (limbBytes_length b b')
  obtain ⟨third, same⟩ := List.append_inj same (limbBytes_length c c')
  rw [limbBytes_inj first, limbBytes_inj second, limbBytes_inj third,
    limbBytes_inj (List.append_cancel_right same)]

end Uint256

def leadingZeros8 (v : UInt8) : Nat := if v = 0 then 8 else 7 - v.toNat.log2

def difficulty (h : HashBytes) : Nat :=
  match (List.finRange hashSize).find? fun i => h i.rev ≠ 0 with
  | some i => 8 * i + leadingZeros8 (h i.rev)
  | none => hashSize * 8

structure NonceInfo where
  nonce : Uint256
  difficulty : Nat
  hash : HashBytes

inductive Signal where
  | stop
  | quit
  | none

inductive Err where
  | stopped
  | interrupted
  deriving DecidableEq

/-- What is sent and returned; what was hashed is kept for the statements only. -/
structure Report where
  info : NonceInfo
  result : Except Err Unit
  inputs : List (List UInt8)

def Report.attempts (report : Report) : Nat := report.inputs.length

structure Job where
  thashH : List UInt8 → HashBytes
  data : List UInt8
  startNonce : Uint256
  difficulty : Int

namespace Job

variable (job : Job)

def input (nonce : Uint256) : List UInt8 := job.data ++ nonce.bytes

def hashBlock (nonce : Uint256) : HashBytes := job.thashH (job.input nonce)

def attempt (nonce : Uint256) : NonceInfo :=
  ⟨nonce, CpuMiner.difficulty (job.hashBlock nonce), job.hashBlock nonce⟩

/-- The loop for the signals that it sees; `none` if it has not returned. -/
def mine (inputs : List (List UInt8)) (i : Uint256) (bestNonce : NonceInfo) :
    List Signal → Option Report
  | [] => none
  | .stop :: _ => some ⟨bestNonce, .error .stopped, inputs⟩
  | .quit :: _ => some ⟨bestNonce, .error .interrupted, inputs⟩
  | .none :: signals =>
    let current := job.attempt i
    let inputs := inputs ++ [job.input i]
    if job.difficulty ≤ current.difficulty then some ⟨current, .ok (), inputs⟩
    else mine inputs i.inc
      (if bestNonce.difficulty < current.difficulty then current else bestNonce) signals

def noNonce : NonceInfo := ⟨⟨0, 0, 0, 0⟩, 0, fun _ => 0⟩

def computeBlockNonce (signals : List Signal) : Option Report :=
  job.mine [] job.startNonce noNonce signals

def tried (k : Nat) : NonceInfo := job.attempt (Uint256.inc^[k] job.startNonce)

structure Right (report : Report) : Prop where
  hash : report.info.hash = job.hashBlock report.info.nonce
  difficulty : report.info.difficulty = CpuMiner.difficulty report.info.hash
  nonce : ∃ k, (k < report.attempts ∨ k = 0) ∧
    report.info.nonce = Uint256.inc^[k] job.startNonce ∧
    report.info.nonce.toNat = (job.startNonce.toNat + k) % 2 ^ 256
  best : ∀ k < report.attempts, (job.tried k).difficulty ≤ report.info.difficulty

structure Best (attempts : Nat) (best : NonceInfo) : Prop where
  most : ∀ k < attempts, (job.tried k).difficulty ≤ best.difficulty
  origin : best = noNonce ∨ 0 < best.difficulty ∧ ∃ k < attempts, best = job.tried k

variable {job} {attempts k : Nat} {best : NonceInfo} {report : Report}

lemma right_of_tried (made : k < report.attempts) (info : report.info = job.tried k)
    (best : ∀ k < report.attempts, (job.tried k).difficulty ≤ report.info.difficulty) :
    job.Right report where
  hash := by rw [info]; rfl
  difficulty := by rw [info]; rfl
  nonce := ⟨k, .inl made, by rw [info]; rfl, by rw [info]; exact Uint256.toNat_inc_iterate _ k⟩
  best := best

lemma Best.next (kept : job.Best attempts best) : job.Best (attempts + 1)
      (if best.difficulty < (job.tried attempts).difficulty then job.tried attempts else best) := by
  split
  · rename_i better
    refine ⟨Nat.forall_lt_succ_right.mpr ⟨fun k made => ?_, Nat.le_refl _⟩,
      .inr ⟨by omega, attempts, by omega, rfl⟩⟩
    exact (kept.most k made).trans (Nat.le_of_lt better)
  · rename_i worse
    exact ⟨Nat.forall_lt_succ_right.mpr ⟨kept.most, Nat.not_lt.mp worse⟩,
      kept.origin.imp_right fun ⟨positive, k, made, same⟩ =>
        ⟨positive, k, Nat.lt_succ_of_lt made, same⟩⟩

def rounds : List Signal → Nat
  | .none :: signals => rounds signals + 1
  | _ => 0

def inputsTo (job : Job) (attempts : Nat) : List (List UInt8) :=
  (List.range attempts).map fun k => job.input (Uint256.inc^[k] job.startNonce)

lemma rounds_le (signals) : rounds signals ≤ signals.length := by
  induction signals with
  | nil => exact Nat.le_refl _
  | cons signal signals ih => cases signal <;> simp [rounds, ih]

lemma inputsTo_length : (job.inputsTo attempts).length = attempts := by
  rw [inputsTo, List.length_map, List.length_range]

lemma inputsTo_succ : job.inputsTo attempts ++ [job.input (Uint256.inc^[attempts] job.startNonce)] =
    job.inputsTo (attempts + 1) := by
  rw [inputsTo, inputsTo, List.range_succ, List.map_append, List.map_singleton]

lemma mine_cases (kept : job.Best attempts best)
    (low : ∀ k < attempts, (job.tried k).difficulty < job.difficulty)
    (mined : job.mine (job.inputsTo attempts) (Uint256.inc^[attempts] job.startNonce) best signals =
      some report) : report.inputs = job.inputsTo report.attempts ∧
    report.attempts ≤ attempts + rounds signals ∧
    (job.Right report ∧ job.difficulty ≤ (job.tried (report.attempts - 1)).difficulty ∧
        0 < report.attempts ∨
      report.attempts = attempts + rounds signals ∧ job.Best report.attempts report.info ∧
        ∀ k < report.attempts, (job.tried k).difficulty < job.difficulty) := by
  induction signals generalizing attempts best with
  | nil => cases mined
  | cons signal signals ih =>
    cases signal with
    | stop | quit =>
      cases mined
      simp only [Report.attempts, inputsTo_length, rounds]
      exact ⟨trivial, Nat.le_refl _, .inr ⟨rfl, kept, low⟩⟩
    | none =>
      simp only [mine] at mined
      change (if job.difficulty ≤ (job.tried attempts).difficulty then _ else _) = _ at mined
      rw [inputsTo_succ] at mined
      split at mined
      · rename_i reached
        cases mined
        have made : (job.inputsTo (attempts + 1)).length = attempts + 1 := inputsTo_length
        simp only [Report.attempts, made, rounds]
        refine ⟨trivial, by omega,
          .inl ⟨right_of_tried (k := attempts) ?_ rfl ?_, reached, by omega⟩⟩
        · rw [Report.attempts, made]
          exact Nat.lt_succ_self attempts
        · rw [Report.attempts, made]
          refine Nat.forall_lt_succ_right.mpr ⟨fun k made => ?_, Nat.le_refl _⟩
          have below := low k made
          change _ ≤ (job.tried attempts).difficulty
          omega
      · rename_i short
        rw [← Function.iterate_succ_apply' Uint256.inc] at mined
        have ends := ih kept.next (Nat.forall_lt_succ_right.mpr ⟨low, by omega⟩) mined
        rw [rounds, show attempts + (rounds signals + 1) = attempts + 1 + rounds signals by omega]
        exact ends

/-- A job reports a nonce that it has tried, and its best one, exactly if one of the attempts that
the signals leave it reaches the difficulty or has one above zero. -/
theorem computeBlockNonce_right_iff (job : Job) (signals : List Signal) (report : Report)
    (sent : job.computeBlockNonce signals = some report) :
    job.Right report ↔ ∃ k < rounds signals,
      job.difficulty ≤ (job.tried k).difficulty ∨ 0 < (job.tried k).difficulty := by
  have start : job.Best 0 noNonce := ⟨by simp, .inl rfl⟩
  obtain ⟨-, most, ⟨right, reached, made⟩ | ⟨all, kept, low⟩⟩ := mine_cases start (by simp) sent
  · exact iff_of_true right ⟨_, by omega, .inl reached⟩
  · rw [Nat.zero_add] at all
    constructor
    · intro right
      rcases kept.origin with zero | ⟨positive, k, made, same⟩
      · -- the zero hash has the largest difficulty, not none
        have wrong := right.difficulty
        rw [zero] at wrong
        exact absurd wrong (by decide)
      · exact ⟨k, all ▸ made, .inr (same ▸ positive)⟩
    · rintro ⟨k, made, enough⟩
      rw [← all] at made
      have positive := enough.resolve_left (Int.not_le.mpr (low k made))
      rcases kept.origin with zero | ⟨-, k, made, same⟩
      · have none := kept.most k made
        rw [zero] at none
        exact absurd none (Nat.not_le.mpr positive)
      · exact right_of_tried made same kept.most

lemma inputsTo_nodup (few : attempts ≤ 2 ^ 256) : (job.inputsTo attempts).Nodup := by
  refine List.Nodup.map_on (fun j first k second same => ?_) List.nodup_range
  rw [List.mem_range] at first second
  have nonces := congrArg Uint256.toNat (Uint256.bytes_inj (List.append_cancel_left same))
  rw [Uint256.toNat_inc_iterate, Uint256.toNat_inc_iterate] at nonces
  have start := job.startNonce.toNat_lt
  omega

def sample : Job := ⟨fun _ _ => 1, [], ⟨0, 0, 0, 0⟩, 8⟩

theorem computeBlockNonce_right_iff_one :
    ∃ report, sample.computeBlockNonce [.none, .stop] = some report ∧ sample.Right report :=
  ⟨_, rfl, (computeBlockNonce_right_iff sample [.none, .stop] _ rfl).mpr
    ⟨0, by decide, .inr (by decide)⟩⟩

theorem computeBlockNonce_stopped_at_once :
    ∃ report, sample.computeBlockNonce [.stop] = some report ∧
      report.info.hash ≠ sample.hashBlock report.info.nonce ∧
      report.info.difficulty ≠ CpuMiner.difficulty report.info.hash :=
  ⟨_, rfl, fun same => absurd (congrFun same ⟨0, by decide⟩) (by decide), by decide⟩

end Job

end SQLess.CpuMiner
