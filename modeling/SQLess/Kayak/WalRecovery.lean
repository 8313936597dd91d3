import Mathlib.Data.UInt
import SQLess.Kayak.WalAtomic

/-! Reading back a write-ahead log with any content. -/

namespace SQLess.Kayak.LevelDB

structure Progress where
  lastCommit : UInt64
  pending : Finset UInt64

inductive Accepts (c : Codec) (p : LevelDBWal) : Progress → Log → Progress → Prop
  | prepare {s : Progress} {l : Log} (type : l.type = logPrepare) :
      Accepts c p s l ⟨s.lastCommit, insert l.index s.pending⟩
  | commit {s : Progress} {l pl : Log} (type : l.type = logCommit)
      (continues : getPrepareLog c p l = .done (s.lastCommit, pl)) (pending :
        pl.index ∈ s.pending) :
      Accepts c p s l ⟨l.index, s.pending.erase pl.index⟩
  | rollback {s : Progress} {l pl : Log} {last : UInt64} (type : l.type = logRollback)
      (resolves : getPrepareLog c p l = .done (last, pl)) (pending : pl.index ∈ s.pending) :
      Accepts c p s l ⟨s.lastCommit, s.pending.erase pl.index⟩

def AcceptsAll (c : Codec) (p : LevelDBWal) (s : Progress) : List Log → Progress → Prop
  | [], s' => s = s'
  | l :: rest, s' => ∃ between, Accepts c p s l between ∧ AcceptsAll c p between rest s'

/-- After logs that are accepted comes a commit log whose prepare log and last commit can be read
and that does not name the last commit before it. -/
def Mismatched (c : Codec) (p : LevelDBWal) (s : Progress) (values : List Bytes) : Prop :=
  ∃ (before after : List Bytes) (value : Bytes) (logs : List Log) (s' : Progress) (l pl : Log)
    (last : UInt64), values = before ++ value :: after ∧
      before.map (load c p.db) = logs.map .ok ∧ AcceptsAll c p s logs s' ∧
      load c p.db value = .ok l ∧ l.type = logCommit ∧
      getPrepareLog c p l = .done (last, pl) ∧ last ≠ s'.lastCommit

def ReadResult.returned : ReadResult → Option Runtime
  | .finished r => some r
  | .stopped r => some r
  | .failed _ => none
  | .blocked _ => none

def Runtime.progress (r : Runtime) : Progress := ⟨r.lastCommit, r.pendingPrepares⟩

def nextAfter (next : UInt64) (l : Log) : UInt64 := if next < l.index + 1 then l.index + 1 else next

section

variable {c : Codec} {p : LevelDBWal} {s s' s'' : Progress} {l : Log}

lemma Accepts.unique (first : Accepts c p s l s') (second : Accepts c p s l s'') : s' = s'' := by
  cases first with
  | prepare type =>
    cases second with
    | prepare => rfl
    | commit type' => simp [type, logPrepare, logCommit] at type'
    | rollback type' => simp [type, logPrepare, logRollback] at type'
  | commit type continues _ =>
    cases second with
    | prepare type' => simp [type, logPrepare, logCommit] at type'
    | commit _ continues' =>
      rw [continues] at continues'
      cases continues'
      rfl
    | rollback type' => simp [type, logCommit, logRollback] at type'
  | rollback type resolves _ =>
    cases second with
    | prepare type' => simp [type, logPrepare, logRollback] at type'
    | commit type' => simp [type, logCommit, logRollback] at type'
    | rollback _ resolves' =>
      rw [resolves] at resolves'
      cases resolves'
      rfl

lemma AcceptsAll.not_mismatched (loaded : values.map (load c p.db) = logs.map .ok)
    (accepted : AcceptsAll c p s logs s') : ¬ Mismatched c p s values := by
  rintro ⟨before, after, value, front, between, l, pl, last, rfl, loaded', accepted', here, type,
    found, differs⟩
  induction before generalizing s logs front with
  | nil =>
    cases front with
    | cons => cases loaded'
    | nil =>
      subst accepted'
      cases logs with
      | nil => cases loaded
      | cons first rest =>
        rw [List.nil_append, List.map_cons, List.map_cons, here] at loaded
        cases (List.cons.inj loaded).1
        obtain ⟨next, step, -⟩ := accepted
        cases step with
        | prepare type' => simp [type, logPrepare, logCommit] at type'
        | commit _ continues =>
          rw [found] at continues
          cases continues
          exact differs rfl
        | rollback type' => simp [type, logCommit, logRollback] at type'
  | cons first rest ih =>
    cases logs with
    | nil => cases loaded
    | cons l₀ logs =>
      cases front with
      | nil => cases loaded'
      | cons l₁ front =>
        obtain ⟨now, others⟩ := List.cons.inj loaded
        obtain ⟨now', others'⟩ := List.cons.inj loaded'
        cases now.symm.trans now'
        obtain ⟨next, step, accepted⟩ := accepted
        obtain ⟨next', step', accepted'⟩ := accepted'
        cases step.unique step'
        exact ih accepted front others others' accepted'

lemma updateNextIndex_eq (r : Runtime) (l) :
    (r.updateNextIndex l).nextIndex = nextAfter r.nextIndex l ∧
      (r.updateNextIndex l).progress = r.progress := by
  unfold Runtime.updateNextIndex nextAfter
  split <;> exact ⟨rfl, rfl⟩

lemma readLogs_returned (returned : (readLogs c p r values).returned = some r') :
    (∃ logs : List Log, values.map (load c p.db) = logs.map .ok ∧
        AcceptsAll c p r.progress logs r'.progress ∧
        r'.nextIndex = logs.foldl nextAfter r.nextIndex) ∨ Mismatched c p r.progress values := by
  induction values generalizing r with
  | nil =>
    rw [readLogs, ReadResult.returned, Option.some.injEq] at returned
    subst returned
    exact .inl ⟨[], rfl, rfl, rfl⟩
  | cons value rest ih =>
    rw [readLogs] at returned
    cases loaded : load c p.db value with
    | error => simp [loaded, ReadResult.returned] at returned
    | ok l =>
      simp only [loaded] at returned
      -- a log that is accepted is followed by what the rest does
      have next {r₁ : Runtime}
          (returned : (readLogs c p (r₁.updateNextIndex l) rest).returned = some r')
          (step : Accepts c p r.progress l r₁.progress) (index : r₁.nextIndex = r.nextIndex) :
          (∃ logs : List Log, (value :: rest).map (load c p.db) = logs.map .ok ∧
            AcceptsAll c p r.progress logs r'.progress ∧
            r'.nextIndex = logs.foldl nextAfter r.nextIndex) ∨
          Mismatched c p r.progress (value :: rest) := by
        obtain ⟨nextIndex, progress⟩ := updateNextIndex_eq r₁ l
        rcases ih returned with ⟨logs, all, accepted, last⟩ | ⟨before, after, found, logs, s',
          l', pl, lastCommit, rfl, all, accepted, mismatch⟩
        · refine .inl ⟨l :: logs, ?_, ⟨r₁.progress, step, progress ▸ accepted⟩, ?_⟩
          · rw [List.map_cons, List.map_cons, loaded, all]
          · rw [last, nextIndex, index]
            rfl
        · refine .inr ⟨value :: before, after, found, l :: logs, s', l', pl, lastCommit, rfl,
            ?_, ⟨r₁.progress, step, progress ▸ accepted⟩, mismatch⟩
          rw [List.map_cons, List.map_cons, loaded, all]
      by_cases isPrepare : l.type = logPrepare
      · rw [if_pos isPrepare] at returned
        exact next returned (.prepare isPrepare) rfl
      rw [if_neg isPrepare] at returned
      by_cases isCommit : l.type = logCommit
      · rw [if_pos isCommit] at returned
        cases found : getPrepareLog c p l with
        | blocked index | failed err => simp [found, ReadResult.returned] at returned
        | done result =>
          obtain ⟨last, pl⟩ := result
          simp only [found] at returned
          by_cases differs : last ≠ r.lastCommit
          · exact .inr ⟨[], rest, value, [], r.progress, l, pl, last, rfl, rfl, rfl, loaded,
              isCommit, found, differs⟩
          rw [if_neg differs] at returned
          obtain rfl : last = r.lastCommit := not_not.mp differs
          by_cases resolved : pl.index ∉ r.pendingPrepares
          · simp [resolved, ReadResult.returned] at returned
          rw [if_neg resolved] at returned
          exact next returned (.commit isCommit found (not_not.mp resolved)) rfl
      rw [if_neg isCommit] at returned
      by_cases isRollback : l.type = logRollback
      · rw [if_pos isRollback] at returned
        cases found : getPrepareLog c p l with
        | blocked index | failed err => simp [found, ReadResult.returned] at returned
        | done result =>
          obtain ⟨last, pl⟩ := result
          simp only [found] at returned
          by_cases resolved : pl.index ∉ r.pendingPrepares
          · simp [resolved, ReadResult.returned] at returned
          rw [if_neg resolved] at returned
          exact next returned (.rollback isRollback found (not_not.mp resolved)) rfl
      · simp [isRollback, ReadResult.returned] at returned

end

lemma nextAfter_toNat (next l) : next.toNat ≤ (nextAfter next l).toNat ∧
      (l.index.toNat + 1 < 2 ^ 64 → l.index.toNat < (nextAfter next l).toNat) := by
  unfold nextAfter
  split
  all_goals
    rename_i less
    rw [UInt64.lt_iff_toNat_lt, UInt64.toNat_add, UInt64.toNat_one] at less
  · rw [UInt64.toNat_add, UInt64.toNat_one]
    omega
  · omega

lemma le_foldl_nextAfter (logs : List Log) (next) :
    next.toNat ≤ (logs.foldl nextAfter next).toNat := by
  induction logs generalizing next with
  | nil => exact Nat.le_refl _
  | cons l rest ih => exact (nextAfter_toNat next l).1.trans (ih _)

lemma lt_foldl_nextAfter {logs : List Log} (next : UInt64) (member : l ∈ logs)
    (inRange : l.index.toNat + 1 < 2 ^ 64) : l.index.toNat < (logs.foldl nextAfter next).toNat := by
  induction logs generalizing next with
  | nil => cases member
  | cons first rest ih =>
    rcases List.mem_cons.mp member with rfl | later
    · exact ((nextAfter_toNat next l).2 inRange).trans_le (le_foldl_nextAfter rest _)
    · exact ih _ later

/-- Where `readLogs` returns without an error it has read every log, exactly if no commit log names
another last commit than the one before it and no log has the largest index. -/
theorem readLogs_silent_iff (c : Codec) (db : DB) (r : Runtime)
    (returned : (recoverLogs c db).returned = some r) :
    (∃ logs : List Log, (headers db).map (load c db) = logs.map .ok ∧
        AcceptsAll c (.newLevelDBWal db) ⟨0, ∅⟩ logs r.progress ∧
        ∀ l ∈ logs, l.index < r.nextIndex) ↔
      ¬ Mismatched c (.newLevelDBWal db) ⟨0, ∅⟩ (headers db) ∧
        ∀ value ∈ headers db, ∀ l, load c db value = .ok l → l.index.toNat + 1 < 2 ^ 64 := by
  constructor
  · rintro ⟨logs, loaded, accepted, above⟩
    refine ⟨accepted.not_mismatched loaded, ?_⟩
    intro value member l here
    have listed : Except.ok l ∈ logs.map (.ok : Log → Except Err Log) := by
      rw [← loaded, ← here]
      exact List.mem_map_of_mem member
    obtain ⟨l', known, same⟩ := List.mem_map.mp listed
    cases same
    have below := UInt64.lt_iff_toNat_lt.mp (above l known)
    have bound := r.nextIndex.toNat_lt
    omega
  · rintro ⟨matching, inRange⟩
    rcases readLogs_returned returned with ⟨logs, loaded, accepted, last⟩ | mismatched
    · refine ⟨logs, loaded, accepted, ?_⟩
      intro l member
      have listed : Except.ok l ∈ (headers db).map (load c db) := by
        exact loaded ▸ List.mem_map_of_mem member
      obtain ⟨value, known, here⟩ := List.mem_map.mp listed
      rw [UInt64.lt_iff_toNat_lt, last]
      exact lt_foldl_nextAfter 0 member (inRange value known l here)
    · exact absurd mismatched matching

namespace Sample

def sampleLogs (index : UInt64) (data : Bytes) : List Log :=
  [⟨⟨1, 0, logPrepare, "leader", 0⟩, []⟩,
    ⟨⟨index, 0, logCommit, "leader", data.length.toUInt64⟩, data⟩,
    ⟨⟨3, 0, logPrepare, "leader", 0⟩, []⟩]

def sampleCodec (logs : List Log) : Codec := tableCodec (logs.map (·.toLogHeader))

def sampleDB (logs : List Log) : DB :=
  afterAttempts (sampleCodec logs) (logs.map fun l => ⟨some l, 2⟩)

def sampleRead (logs : List Log) : Option (UInt64 × UInt64 × Finset UInt64) :=
  (recoverLogs (sampleCodec logs) (sampleDB logs)).returned.map
    fun r => (r.nextIndex, r.lastCommit, r.pendingPrepares)

end Sample

open Sample

theorem readLogs_silent_iff_committed :
    sampleRead (sampleLogs 2 (uint64ToBytes 1)) = some (4, 2, {3}) ∧
      ¬ Mismatched (sampleCodec (sampleLogs 2 (uint64ToBytes 1)))
        (.newLevelDBWal (sampleDB (sampleLogs 2 (uint64ToBytes 1)))) ⟨0, ∅⟩
        (headers (sampleDB (sampleLogs 2 (uint64ToBytes 1)))) := by
  have returned : (recoverLogs (sampleCodec (sampleLogs 2 (uint64ToBytes 1)))
      (sampleDB (sampleLogs 2 (uint64ToBytes 1)))).returned = some _ := rfl
  have found : getPrepareLog (sampleCodec (sampleLogs 2 (uint64ToBytes 1)))
      (.newLevelDBWal (sampleDB (sampleLogs 2 (uint64ToBytes 1))))
      ⟨⟨2, 0, logCommit, "leader", 8⟩, uint64ToBytes 1⟩ =
        .done (0, ⟨⟨1, 0, logPrepare, "leader", 0⟩, []⟩) := by
    decide
  refine ⟨by decide, ((readLogs_silent_iff _ _ _ returned).mp
    ⟨sampleLogs 2 (uint64ToBytes 1), by decide, ?_, by decide⟩).1⟩
  refine ⟨_, .prepare rfl, _, .commit rfl found (by decide), _, .prepare rfl, ?_⟩
  exact congrArg (Progress.mk 2) (by decide)

/-- The commit log names log 1 as the last commit. -/
theorem readLogs_skips :
    sampleRead (sampleLogs 2 (uint64ToBytes 1 ++ uint64ToBytes 1)) = some (2, 0, {1}) ∧
      (headers (sampleDB (sampleLogs 2 (uint64ToBytes 1 ++ uint64ToBytes 1)))).map
          (load (sampleCodec (sampleLogs 2 (uint64ToBytes 1 ++ uint64ToBytes 1)))
            (sampleDB (sampleLogs 2 (uint64ToBytes 1 ++ uint64ToBytes 1)))) =
        (sampleLogs 2 (uint64ToBytes 1 ++ uint64ToBytes 1)).map .ok ∧
      sampleRead (sampleLogs (2 ^ 64 - 1) (uint64ToBytes 1)) = some (4, 2 ^ 64 - 1, {3}) := by
  decide +kernel

end SQLess.Kayak.LevelDB
