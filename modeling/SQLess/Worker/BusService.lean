import Mathlib.Data.List.Basic
import SQLess.Types.VerifierCore

/-!
The polls of a block producer by the bus service of `worker/chainbusservice.go`, and what they
publish.
-/

namespace SQLess.Worker

open List

def transactionTypeString (t : TransactionType) : String :=
  ["Unknown", "Transfer", "CreateAccount", "DeleteAccount", "AddDatabaseUser",
    "AlterDatabaseUser", "DeleteDatabaseUser", "BaseAccount", "CreateDatabase", "ProvideService",
    "UpdatePermission", "IssueKeys", "UpdateBilling"].getD t.toNat "Unknown"

structure Published where
  eventName : String
  tx : Transaction
  count : Nat
  deriving DecidableEq

def extractTxs (block : BPBlock) (count : Nat) : List Published :=
  block.transactions.map fun tx =>
    ⟨"/" ++ transactionTypeString tx.unwrap.getTransactionType ++ "/", tx.unwrap, count⟩

structure BusService where
  blockCount : Nat
  sqlChainProfiles : List SQLChainProfile

/-- The answers to one poll: the profiles and the count of the last irreversible block, if there
is an answer, and which of the blocks below it can be fetched. -/
structure Poll where
  lastBlock : Option (List SQLChainProfile × Nat)
  fetched : Nat → Bool

variable (chain : Nat → BPBlock)

def fetchBlocks (fetched : Nat → Bool) (counts : List Nat) : List Published :=
  counts.flatMap fun i => if fetched i then extractTxs (chain i) i else []

def BusService.poll (bs : BusService) (poll : Poll) : BusService × List Published :=
  match poll.lastBlock with
  | none => (bs, [])
  | some (profiles, newCount) =>
    let c := bs.blockCount
    if newCount ≤ c then (bs, [])
    else
      (⟨newCount, profiles⟩,
        fetchBlocks chain poll.fetched (.range' (c + 1) (newCount - (c + 1))) ++
          extractTxs (chain newCount) c)

def BusService.subscribeBlock (bs : BusService) : List Poll → BusService × List Published
  | [] => (bs, [])
  | poll :: polls =>
    let (next, txs) := bs.poll chain poll
    let (last, later) := next.subscribeBlock polls
    (last, txs ++ later)

def finalised (c newCount : Nat) : List Published :=
  (List.range' (c + 1) (newCount - c)).flatMap fun i => extractTxs (chain i) i

def Quiet (c : Nat) (poll : Poll) : Prop :=
  ∀ profiles newCount, poll.lastBlock = some (profiles, newCount) → c < newCount →
    (chain newCount).transactions = [] ∧
      ∀ i, c < i → i < newCount → poll.fetched i = false → (chain i).transactions = []

def AllQuiet (bs : BusService) : List Poll → Prop
  | [] => True
  | poll :: polls => Quiet chain bs.blockCount poll ∧ AllQuiet (bs.poll chain poll).1 polls

variable {chain}

variable {published : Published}

lemma count_of_mem_extractTxs {block count} (mem : published ∈ extractTxs block count) :
    published.count = count := by
  obtain ⟨tx, -, rfl⟩ := mem_map.1 mem
  rfl

lemma extractTxs_eq_nil {block count} : extractTxs block count = [] ↔ block.transactions = [] :=
  map_eq_nil_iff

lemma count_of_mem_finalised (mem : published ∈ finalised chain c newCount) :
    c < published.count := by
  obtain ⟨i, counted, extracted⟩ := mem_flatMap.1 mem
  have bounds := mem_range'_1.1 counted
  have count := count_of_mem_extractTxs extracted
  omega

lemma finalised_append (lower : c ≤ middle) (upper : middle ≤ newCount) :
    finalised chain c newCount = finalised chain c middle ++ finalised chain middle newCount := by
  have ranges : List.range' (c + 1) (newCount - c) =
      List.range' (c + 1) (middle - c) ++ List.range' (middle + 1) (newCount - middle) := by
    rw [show middle + 1 = c + 1 + (middle - c) by omega, range'_append_1]
    congr 1
    omega
  rw [finalised, ranges, flatMap_append]
  rfl

lemma fetchBlocks_append_eq_iff (fetched) (ascending : counts.Pairwise (· < ·))
    (above : ∀ published ∈ later, ∀ i ∈ counts, i < published.count) :
    fetchBlocks chain fetched counts ++ later =
        (counts.flatMap fun i => extractTxs (chain i) i) ++ expected ↔
      (∀ i ∈ counts, fetched i = false → (chain i).transactions = []) ∧ later = expected := by
  induction counts with
  | nil => simp [fetchBlocks]
  | cons i counts ih =>
    obtain ⟨least, ascending⟩ := pairwise_cons.1 ascending
    have ih := ih ascending fun published mem j counted =>
      above published mem j (mem_cons_of_mem _ counted)
    rw [forall_mem_cons, and_assoc, ← ih]
    simp only [fetchBlocks, flatMap_cons, append_assoc]
    cases found : fetched i with
    | true => simp
    | false =>
      simp only [Bool.false_eq_true, if_false, nil_append, forall_const]
      constructor
      · intro equal
        have empty : extractTxs (chain i) i = [] := by
          rw [eq_nil_iff_forall_not_mem]
          intro published mem
          have count := count_of_mem_extractTxs mem
          rcases mem_append.1 (equal ▸ mem_append_left _ mem) with early | late
          · obtain ⟨j, counted, extracted⟩ := mem_flatMap.1 early
            have higher := least j counted
            split at extracted
            · have := count_of_mem_extractTxs extracted
              omega
            · cases extracted
          · have := above published late i mem_cons_self
            omega
        exact ⟨extractTxs_eq_nil.1 empty, by simpa [empty] using equal⟩
      · rintro ⟨empty, equal⟩
        simpa [extractTxs_eq_nil.2 empty] using equal

lemma poll_blockCount (bs : BusService) (poll) :
    bs.blockCount ≤ (bs.poll chain poll).1.blockCount := by
  simp only [BusService.poll]
  split
  · rfl
  · split
    · rfl
    · simp only
      omega

lemma subscribeBlock_blockCount (bs : BusService) (polls) :
    bs.blockCount ≤ (bs.subscribeBlock chain polls).1.blockCount := by
  induction polls generalizing bs with
  | nil => rfl
  | cons poll polls ih => exact (poll_blockCount bs poll).trans (ih _)

lemma count_of_mem_poll {bs : BusService} (mem : published ∈ (bs.poll chain poll).2) :
    bs.blockCount ≤ published.count := by
  simp only [BusService.poll] at mem
  split at mem
  · cases mem
  · split at mem
    · cases mem
    · rcases mem_append.1 mem with early | last
      · obtain ⟨i, counted, extracted⟩ := mem_flatMap.1 early
        have bounds := mem_range'_1.1 counted
        split at extracted
        · have := count_of_mem_extractTxs extracted
          omega
        · cases extracted
      · exact (count_of_mem_extractTxs last).ge

lemma count_of_mem_subscribeBlock {bs : BusService}
    (mem : published ∈ (bs.subscribeBlock chain polls).2) : bs.blockCount ≤ published.count := by
  induction polls generalizing bs with
  | nil => cases mem
  | cons poll polls ih =>
    rcases mem_append.1 mem with now | later
    · exact count_of_mem_poll now
    · exact (poll_blockCount bs poll).trans (ih later)

lemma poll_append_eq_iff (bs : BusService) (poll)
    (laterAbove : ∀ published ∈ later, (bs.poll chain poll).1.blockCount ≤ published.count)
    (expectedAbove : ∀ published ∈ expected, (bs.poll chain poll).1.blockCount < published.count) :
    (bs.poll chain poll).2 ++ later =
        finalised chain bs.blockCount (bs.poll chain poll).1.blockCount ++ expected ↔
      Quiet chain bs.blockCount poll ∧ later = expected := by
  cases answer : poll.lastBlock with
  | none => simp [BusService.poll, Quiet, finalised, answer]
  | some reply =>
    obtain ⟨profiles, newCount⟩ := reply
    by_cases known : newCount ≤ bs.blockCount
    · simp only [BusService.poll, Quiet, finalised, answer, known, if_true]
      simp
      omega
    · simp only [BusService.poll, answer, known, if_false] at laterAbove expectedAbove ⊢
      have advanced : bs.blockCount < newCount := by omega
      have quiet : Quiet chain bs.blockCount poll ↔ (chain newCount).transactions = [] ∧
          ∀ i ∈ List.range' (bs.blockCount + 1) (newCount - (bs.blockCount + 1)),
            poll.fetched i = false → (chain i).transactions = [] := by
        simp only [Quiet, answer, Option.some.injEq, Prod.mk.injEq, mem_range'_1]
        constructor
        · intro all
          obtain ⟨last, below⟩ := all profiles newCount ⟨rfl, rfl⟩ advanced
          exact ⟨last, fun i bounds => below i (by omega) (by omega)⟩
        · rintro ⟨last, below⟩ _ _ ⟨rfl, rfl⟩ -
          exact ⟨last, fun i lower upper => below i (by omega)⟩
      have split : finalised chain bs.blockCount newCount =
          ((List.range' (bs.blockCount + 1) (newCount - (bs.blockCount + 1))).flatMap fun i =>
            extractTxs (chain i) i) ++ extractTxs (chain newCount) newCount := by
        rw [finalised_append (show bs.blockCount ≤ newCount - 1 by omega) (Nat.sub_le _ _)]
        simp only [finalised, show newCount - (newCount - 1) = 1 by omega,
          show newCount - 1 + 1 = newCount by omega, range'_one, flatMap_singleton]
        congr 3
        omega
      rw [quiet, split, and_assoc, ← fetchBlocks_append_eq_iff poll.fetched
        pairwise_lt_range' fun published mem i counted => by
          have := laterAbove published mem
          have := mem_range'_1.1 counted
          omega]
      simp only [append_assoc]
      constructor
      · intro equal
        -- nothing that should be published has the count before the poll
        have empty : extractTxs (chain newCount) bs.blockCount = [] := by
          rw [eq_nil_iff_forall_not_mem]
          intro published mem
          have count := count_of_mem_extractTxs mem
          have found : published ∈ finalised chain bs.blockCount newCount ++ expected := by
            rw [split, append_assoc, ← equal]
            exact mem_append_right _ (mem_append_left _ mem)
          rcases mem_append.1 found with early | late
          · have := count_of_mem_finalised early
            omega
          · have := expectedAbove published late
            omega
        have noTxs := extractTxs_eq_nil.1 empty
        simp only [extractTxs_eq_nil.2 noTxs, nil_append] at equal
        exact ⟨noTxs, equal⟩
      · rintro ⟨noTxs, equal⟩
        simpa only [extractTxs_eq_nil.2 noTxs, nil_append] using equal

/-- The transactions above the initial count are published once and in order exactly if the last
block of every poll, and every block that could not be fetched, is without transactions. -/
theorem published_finalised_iff (bs : BusService) (polls : List Poll) :
    (bs.subscribeBlock chain polls).2 =
        finalised chain bs.blockCount (bs.subscribeBlock chain polls).1.blockCount ↔
      AllQuiet chain bs polls := by
  induction polls generalizing bs with
  | nil => simp [BusService.subscribeBlock, finalised, AllQuiet]
  | cons poll polls ih =>
    rw [AllQuiet, ← ih, ← poll_append_eq_iff bs poll
      (fun _ mem => count_of_mem_subscribeBlock mem) (fun _ mem => count_of_mem_finalised mem),
      ← finalised_append (poll_blockCount bs poll) (subscribeBlock_blockCount _ polls)]
    rfl

def account (i : Nat) : Transaction := .baseAccount (.new i) ⟨transactionTypeBaseAccount, 0⟩

def accountChain (i : Nat) : BPBlock :=
  ⟨⟨1, 0, 0, 0, 0⟩, ⟨0, none, none⟩, [account i]⟩

theorem published_lost_and_misnumbered : (BusService.subscribeBlock accountChain ⟨0, []⟩
      [⟨some ([], 3), fun i => i != 1⟩, ⟨some ([], 4), fun _ => true⟩]).2.map
        (fun published => (published.tx, published.count)) =
      [(account 2, 2), (account 3, 0), (account 4, 3)] := by
  decide

end SQLess.Worker
