import SQLess.Kayak.LogCore
import SQLess.Lib.Chain

/-! Reading a write-ahead log back. -/

namespace SQLess.Kayak

open Lib List

variable {Data : Type}

variable {w : Wal Data} {l : Log Data}

namespace Wal

lemma get_eq_some : w.get index = some l ↔ l ∈ w.logs ∧ l.index = index := by
  constructor
  · intro found
    exact ⟨mem_of_find?_eq_some found, by simpa using List.find?_some found⟩
  · rintro ⟨member, rfl⟩
    cases found : w.get l.index with
    | none =>
      have absent := List.find?_eq_none.mp found l member
      simp at absent
    | some other =>
      have named : other.index = l.index := by simpa using List.find?_some found
      have same := inj_on_of_nodup_map w.distinct (mem_of_find?_eq_some found) member
        named
      rw [same]

lemma get_eq_none : w.get index = none ↔ ∀ l ∈ w.logs, l.index ≠ index := by
  simp [get]

lemma put_absent (absent : w.get l.index = none) : (w.put l).logs = w.logs ++ [l] := by
  simp [put, absent]

lemma put_present (present : l ∈ w.logs) : w.put l = w := by
  have found : w.get l.index = some l := get_eq_some.mpr ⟨present, rfl⟩
  have same : (w.logs.map fun old => if old.index = l.index then l else old) = w.logs := by
    conv_rhs => rw [← map_id w.logs]
    apply map_congr_left
    intro old member
    by_cases named : old.index = l.index
    · rw [if_pos named, inj_on_of_nodup_map w.distinct member present named]
      rfl
    · rw [if_neg named]
      rfl
  obtain ⟨logs, distinct⟩ := w
  simp only [put, found, Option.isSome_some, if_true, mk.injEq]
  exact same

lemma mem_put (absent : w.get l.index = none) : l ∈ (w.put l).logs := by
  rw [put_absent absent]
  exact mem_append_right _ (mem_singleton_self l)

lemma put_grows (absent : w.get l.index = none) : ∀ old ∈ w.logs, old ∈ (w.put l).logs := by
  intro old member
  rw [put_absent absent]
  exact mem_append_left _ member

lemma mem_of_put (member : other ∈ (w.put l).logs) : other ∈ w.logs ∨ other = l := by
  unfold put at member
  simp only at member
  split at member
  · obtain ⟨old, present, same⟩ := mem_map.mp member
    by_cases named : old.index = l.index
    · rw [if_pos named] at same
      exact .inr same.symm
    · rw [if_neg named] at same
      exact .inl (same ▸ present)
  · rcases mem_append.mp member with earlier | new
    · exact .inl earlier
    · exact .inr (mem_singleton.mp new)

lemma mem_read : l ∈ w.read ↔ l ∈ w.logs :=
  (perm_insertionSort _ _).mem_iff

lemma read_sorted (w : Wal Data) : w.read.Pairwise fun left right => left.index < right.index := by
  have total : Std.Total fun left right : Log Data => left.index ≤ right.index :=
    ⟨fun left right => Nat.le_total left.index right.index⟩
  have transitive : IsTrans (Log Data) fun left right => left.index ≤ right.index :=
    ⟨fun _ _ _ => Nat.le_trans⟩
  have ordered := pairwise_insertionSort
    (fun left right : Log Data => left.index ≤ right.index) w.logs
  have distinct : (w.read.map Log.index).Nodup :=
    ((perm_insertionSort _ _).map Log.index).nodup_iff.mpr w.distinct
  refine (ordered.and (pairwise_map.mp distinct)).imp ?_
  intro left right both
  exact Nat.lt_of_le_of_ne both.1 both.2

end Wal

def Log.isCommit (l : Log Data) : Bool := l.type = .commit

variable (logs : List (Log Data))

def commits : List (Log Data) := logs.filter Log.isCommit

def Log.lastCommit (l : Log Data) : Nat := (l.data.word 1).getD 0

def Log.Resolves (l : Log Data) (index : Nat) : Prop :=
  (l.type = .commit ∨ l.type = .rollback) ∧ l.data.word 0 = some index

def Log.Names (l : Log Data) (index : Nat) : Prop :=
  l.data.word 0 = some index ∨ l.data.word 1 = some index

inductive Log.Formed : Log Data → Prop
  | prepare (index data) : Formed ⟨index, .prepare, .payload data⟩
  | rollback (index prepareIndex) (later : prepareIndex < index) :
      Formed ⟨index, .rollback, .words [prepareIndex]⟩
  | commit (index prepareIndex last) (later : prepareIndex < index) :
      Formed ⟨index, .commit, .words [prepareIndex, last]⟩

structure Issued (logs : List (Log Data)) : Prop where
  distinct : (logs.map Log.index).Nodup
  formed : ∀ l ∈ logs, l.Formed
  prepared : ∀ l ∈ logs, ∀ index, l.Resolves index →
    ∃ pl ∈ logs, pl.index = index ∧ pl.type = .prepare
  once : ∀ l ∈ logs, ∀ l' ∈ logs, ∀ index, l.Resolves index → l'.Resolves index → l = l'
  chained : Chained Log.index Log.lastCommit 0 (commits logs)

lemma mem_commits {logs} : l ∈ commits logs ↔ l ∈ logs ∧ l.type = .commit := by
  simp [commits, Log.isCommit]

lemma commits_concat (committed : l.type = .commit) :
    commits (logs ++ [l]) = commits logs ++ [l] := by
  simp [commits, Log.isCommit, committed]

lemma commits_concat_other (other : l.type ≠ .commit) : commits (logs ++ [l]) = commits logs := by
  simp [commits, Log.isCommit, other]

lemma Log.Formed.resolves (formed : l.Formed) (other : l.type ≠ .prepare) :
    ∃ index, l.Resolves index ∧ index < l.index := by
  cases formed with
  | prepare => exact absurd rfl other
  | rollback index prepareIndex later => exact ⟨prepareIndex, ⟨.inr rfl, rfl⟩, later⟩
  | commit index prepareIndex last later => exact ⟨prepareIndex, ⟨.inl rfl, rfl⟩, later⟩

lemma Log.Resolves.not_prepare {index} (resolves : l.Resolves index) : l.type ≠ .prepare := by
  rcases resolves.1 with committed | rolledBack
  · simp [committed]
  · simp [rolledBack]

lemma Log.Resolves.index_eq {index other} (resolves : l.Resolves index) (named :
    l.Resolves other) : index = other :=
  Option.some.inj (resolves.2.symm.trans named.2)

namespace Issued

variable {logs : List (Log Data)}

section

variable (issued : Issued logs)
include issued

lemma eq_of_index (left : l ∈ logs) (right : l' ∈ logs) (same : l.index = l'.index) : l = l' :=
  inj_on_of_nodup_map issued.distinct left right same

lemma resolved_before (member : l ∈ logs) (resolves : l.Resolves index) : index < l.index := by
  obtain ⟨other, named, before⟩ := (issued.formed l member).resolves resolves.not_prepare
  rw [resolves.index_eq named]
  exact before

lemma commit_words (member : l ∈ logs) (committed : l.type = .commit) :
    ∃ index, l.Resolves index ∧ l.data.word 1 = some l.lastCommit := by
  have formed := issued.formed l member
  cases formed with
  | prepare index data | rollback index prepareIndex later => simp at committed
  | commit index prepareIndex => exact ⟨prepareIndex, ⟨.inl rfl, rfl⟩, rfl⟩

lemma rollback_words (member : l ∈ logs) (rolledBack : l.type = .rollback) :
    ∃ index, l.Resolves index ∧ l.data.word 1 = none := by
  have formed := issued.formed l member
  cases formed with
  | prepare index data | commit index prepareIndex last later => simp at rolledBack
  | rollback index prepareIndex => exact ⟨prepareIndex, ⟨.inr rfl, rfl⟩, rfl⟩

lemma named (member : other ∈ logs) (present : l ∈ logs) (names : other.Names l.index) :
    l.type = .prepare ∨ other.type = .commit ∧ other.lastCommit = l.index := by
  have formed := issued.formed other member
  by_cases second : other.data.word 1 = some l.index
  · right
    cases formed with
    | prepare index data | rollback index prepareIndex later => simp [LogData.word] at second
    | commit =>
      exact ⟨rfl, by simp [Log.lastCommit, second]⟩
  · left
    have first : other.data.word 0 = some l.index := names.resolve_right second
    have resolves : other.Resolves l.index := by
      refine ⟨?_, first⟩
      cases formed with
      | prepare => simp [LogData.word] at first
      | rollback => exact .inr rfl
      | commit => exact .inl rfl
    obtain ⟨pl, plMember, plNamed, type⟩ := issued.prepared other member l.index resolves
    rw [← issued.eq_of_index plMember present plNamed]
    exact type

lemma lastCommit_cases (member : l ∈ commits logs) :
    l.lastCommit = 0 ∨ ∃ before ∈ commits logs, before.index = l.lastCommit := by
  obtain ⟨front, rest, split⟩ := append_of_mem member
  have chained := issued.chained
  rw [split, chained_append] at chained
  obtain ⟨-, named, -, -⟩ := chained
  rcases eq_nil_or_concat front with rfl | ⟨earlier, last, rfl⟩
  · exact .inl named
  · right
    refine ⟨last, ?_, ?_⟩
    · rw [split]
      simp
    · rw [named, concat_eq_append, tip_concat]

end

end Issued

structure Extends (logs logs' : List (Log Data)) : Prop where
  grows : ∀ l ∈ logs, l ∈ logs'
  leads : commits logs <+: commits logs'

lemma Extends.refl : Extends logs logs :=
  ⟨fun _ member => member, prefix_refl _⟩

structure ReadTo (w : Wal Data) (front : List (Log Data)) (r : Runtime Data) : Prop where
  wal : r.wal = w
  above : ∀ l ∈ front, l.index < r.nextIndex
  next : front = [] ∧ r.nextIndex = 0 ∨ ∃ l ∈ front, r.nextIndex = l.index + 1
  lastCommit : r.lastCommit = tip Log.index 0 (commits front)
  pending : ∀ index, index ∈ r.pendingPrepares ↔
    (∃ l ∈ front, l.index = index ∧ l.type = .prepare) ∧ ∀ l ∈ front, ¬l.Resolves index

lemma updateNextIndex_eq (r : Runtime Data) (l) :
    r.updateNextIndex l = { r with nextIndex := max r.nextIndex (l.index + 1) } := by
  unfold Runtime.updateNextIndex
  split
  · rw [Nat.max_eq_right (by omega)]
  · rw [Nat.max_eq_left (by omega)]

lemma ReadTo.concat (last : Nat) (pending) (read : ReadTo w front r)
    (later : ∀ old ∈ front, old.index < l.index)
    (lastCommit : last = tip Log.index 0 (commits (front ++ [l])))
    (marked : ∀ index, index ∈ pending ↔ (∃ old ∈ front ++ [l], old.index = index ∧ old.type =
      .prepare) ∧ ∀ old ∈ front ++ [l], ¬old.Resolves index) : ReadTo w (front ++ [l])
      ({ r with lastCommit := last, pendingPrepares := pending }.updateNextIndex l) := by
  have bound : r.nextIndex ≤ l.index + 1 := by
    rcases read.next with ⟨-, none⟩ | ⟨old, member, top⟩
    · omega
    · have below := later old member
      omega
  rw [updateNextIndex_eq]
  refine ⟨read.wal, ?_, ?_, lastCommit, marked⟩
  · intro old member
    rcases mem_append.mp member with before | new
    · have below := later old before
      simp only
      omega
    · rw [mem_singleton.mp new]
      simp only
      omega
  · exact .inr ⟨l, by simp, by simp only; omega⟩

section

variable {w : Wal Data} {front rest : List (Log Data)} {l : Log Data} {r : Runtime Data}

lemma read_commits (issued : Issued w.logs) : commits w.read = commits w.logs := by
  have perm : (commits w.read).Perm (commits w.logs) :=
    (perm_insertionSort _ _).filter Log.isCommit
  have asymmetric : ∀ left right : Log Data, left ∈ commits w.read → right ∈ commits w.logs →
      left.index < right.index → right.index < left.index → left = right := by
    intro left right _ _ below above
    omega
  exact perm.eq_of_pairwise asymmetric (w.read_sorted.filter Log.isCommit) issued.chained.pairwise

lemma before_of_read (whole : front ++ l :: rest = w.read) :
    (∀ old ∈ front, old.index < l.index) ∧ ∀ old ∈ w.logs, old.index < l.index → old ∈ front := by
  have sorted := w.read_sorted
  rw [← whole, pairwise_append] at sorted
  obtain ⟨-, behind, ahead⟩ := sorted
  constructor
  · intro old member
    exact ahead old member l mem_cons_self
  · intro old member below
    rw [← Wal.mem_read, ← whole] at member
    rcases mem_append.mp member with before | after
    · exact before
    · rcases mem_cons.mp after with rfl | later
      · omega
      · have above := (pairwise_cons.mp behind).1 old later
        omega

lemma mem_of_read (whole : front ++ l :: rest = w.read) : l ∈ w.logs := by
  rw [← Wal.mem_read, ← whole]
  simp

lemma ReadTo.prepare (issued : Issued w.logs) (read : ReadTo w front r)
    (whole : front ++ l :: rest = w.read) (prepared : l.type = .prepare) :
    ReadTo w (front ++ [l]) ((r.markPendingPrepare l.index).updateNextIndex l) := by
  obtain ⟨later, -⟩ := before_of_read whole
  refine read.concat _ _ later ?_ ?_
  · rw [read.lastCommit]
    simp [commits, Log.isCommit, prepared]
  · intro index
    have inert : ∀ index, ¬l.Resolves index := fun index resolves => resolves.not_prepare prepared
    have new : ∀ old ∈ front, ¬old.Resolves l.index := by
      intro old member resolves
      have inWal : old ∈ w.logs := by
        rw [← Wal.mem_read, ← whole]
        exact mem_append_left _ member
      have above := issued.resolved_before inWal resolves
      have below := later old member
      omega
    simp only [Finset.mem_insert, read.pending, mem_append, mem_singleton]
    constructor
    · rintro (rfl | ⟨⟨old, member, named, type⟩, unresolved⟩)
      · refine ⟨⟨l, .inr rfl, rfl, prepared⟩, ?_⟩
        rintro old (member | rfl)
        · exact new old member
        · exact inert old.index
      · refine ⟨⟨old, .inl member, named, type⟩, ?_⟩
        rintro other (before | rfl)
        · exact unresolved other before
        · exact inert index
    · rintro ⟨⟨old, member | rfl, named, type⟩, unresolved⟩
      · exact .inr ⟨⟨old, member, named, type⟩, fun other before => unresolved other (.inl before)⟩
      · exact .inl named.symm

lemma ReadTo.resolved (issued : Issued w.logs) (read : ReadTo w front r)
    (whole : front ++ l :: rest = w.read) (resolves : l.Resolves index) :
    (∃ pl, w.get index = some pl ∧ pl.index = index) ∧ index ∈ r.pendingPrepares ∧
      ∀ other, other ∈ r.pendingPrepares.erase index ↔
        (∃ old ∈ front ++ [l], old.index = other ∧ old.type = .prepare) ∧
          ∀ old ∈ front ++ [l], ¬old.Resolves other := by
  obtain ⟨later, earlier⟩ := before_of_read whole
  have inWal := mem_of_read whole
  obtain ⟨pl, present, named, type⟩ := issued.prepared l inWal index resolves
  have before := issued.resolved_before inWal resolves
  have unresolved : ∀ old ∈ front, ¬old.Resolves index := by
    intro old member claims
    have oldInWal : old ∈ w.logs := by
      rw [← Wal.mem_read, ← whole]
      exact mem_append_left _ member
    have same := issued.once old oldInWal l inWal index claims resolves
    have below := later old member
    rw [same] at below
    omega
  refine ⟨⟨pl, Wal.get_eq_some.mpr ⟨present, named⟩, named⟩, ?_, ?_⟩
  · rw [read.pending]
    exact ⟨⟨pl, earlier pl present (named ▸ before), named, type⟩, unresolved⟩
  · intro other
    simp only [Finset.mem_erase, read.pending, mem_append, mem_singleton]
    constructor
    · rintro ⟨different, ⟨old, member, same, prepared⟩, open'⟩
      refine ⟨⟨old, .inl member, same, prepared⟩, ?_⟩
      rintro any (front' | rfl)
      · exact open' any front'
      · exact fun claims => different (claims.index_eq resolves)
    · rintro ⟨⟨old, member | rfl, same, prepared⟩, open'⟩
      · refine ⟨?_, ⟨old, member, same, prepared⟩, fun any front' => open' any (.inl front')⟩
        rintro rfl
        exact open' l (.inr rfl) resolves
      · exact absurd prepared resolves.not_prepare

lemma readLogs_from (issued : Issued w.logs) (whole : front ++ rest = w.read)
    (read : ReadTo w front r) : (∃ r', readLogs r rest = .finished r' ∧ ReadTo w w.read r') ∨
      readLogs r rest = .blocked 0 ∧ w.get 0 = none ∧ commits w.logs ≠ [] := by
  induction rest generalizing front r with
  | nil =>
    rw [append_nil] at whole
    exact .inl ⟨r, rfl, whole ▸ read⟩
  | cons l rest ih =>
    have next : (front ++ [l]) ++ rest = w.read := by simpa using whole
    have inWal := mem_of_read whole
    have formed := issued.formed l inWal
    by_cases prepared : l.type = .prepare
    · have after := read.prepare issued whole prepared
      rw [readLogs, prepared]
      exact ih next after
    · obtain ⟨index, resolves, -⟩ := formed.resolves prepared
      obtain ⟨⟨pl, found, named⟩, pending, marked⟩ := read.resolved issued whole resolves
      have unfinished : r.checkIfPrepareFinished pl.index = false := by
        simp [Runtime.checkIfPrepareFinished, named, pending]
      obtain ⟨later, -⟩ := before_of_read whole
      rcases resolves.1 with committed | rolledBack
      · obtain ⟨-, -, second⟩ := issued.commit_words inWal committed
        have split : commits w.logs = commits front ++ l :: commits rest := by
          rw [← read_commits issued, ← whole]
          simp [commits, Log.isCommit, committed]
        have chained := issued.chained
        rw [split, chained_append] at chained
        have last : l.lastCommit = r.lastCommit := by
          rw [read.lastCommit]
          exact chained.2.1
        rw [readLogs, committed]
        cases pointed : w.get l.lastCommit with
        | none =>
          right
          have zero : l.lastCommit = 0 := by
            have member : l ∈ commits w.logs := by simp [split]
            rcases issued.lastCommit_cases member with zero | ⟨before, present, same⟩
            · exact zero
            · have known : w.get l.lastCommit = some before :=
                Wal.get_eq_some.mpr ⟨(mem_commits.mp present).1, same⟩
              simp [known] at pointed
          rw [zero] at pointed second
          refine ⟨?_, pointed, by simp [split]⟩
          simp only [getPrepareLog, read.wal, resolves.2, found, second, pointed]
        | some =>
          have got : getPrepareLog r.wal l = .done (r.lastCommit, pl) := by
            simp only [getPrepareLog, read.wal, resolves.2, found, second, pointed]
            rw [last]
          have after := read.concat l.index (r.pendingPrepares.erase index) later
            (by simp [commits, Log.isCommit, committed]) marked
          simp only [got, ne_eq, not_true_eq_false, if_false, unfinished, Bool.false_eq_true]
          rw [← named] at after
          exact ih next after
      · obtain ⟨-, -, second⟩ := issued.rollback_words inWal rolledBack
        have after := read.concat r.lastCommit (r.pendingPrepares.erase index) later
          (by rw [read.lastCommit]; simp [commits, Log.isCommit, rolledBack]) marked
        rw [readLogs, rolledBack]
        simp only [getPrepareLog, read.wal, resolves.2, found, second, unfinished,
          Bool.false_eq_true, if_false]
        rw [← named] at after
        exact ih next after

lemma readTo_nil (w : Wal Data) : ReadTo w [] ⟨0, 0, ∅, w⟩ := by
  constructor <;> simp [commits]

lemma recoverLogs_cases (issued : Issued w.logs) :
    (∃ r, recoverLogs w = .finished r ∧ ReadTo w w.read r) ∨
      recoverLogs w = .blocked 0 ∧ w.get 0 = none ∧ commits w.logs ≠ [] :=
  readLogs_from issued rfl (readTo_nil w)

lemma newRuntime_readTo (issued : Issued w.logs) (created : newRuntime w = some r) :
    ReadTo w w.read r := by
  rcases recoverLogs_cases issued with ⟨r', finished, read⟩ | ⟨blocked, -, -⟩
  · simp only [newRuntime, finished, Option.some.injEq] at created
    exact created ▸ read
  · simp [newRuntime, blocked] at created

end

end SQLess.Kayak
