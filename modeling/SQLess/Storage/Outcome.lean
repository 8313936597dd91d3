import SQLess.Storage.StorageCore
import SQLess.TwoPC.TwoPC

/-! What the outcome of a `Put` over storages says about their contents. -/

namespace SQLess.Storage

open List

open TwoPC (Event Options Outcome Schedule put put_cases put_err_eq_none)

variable {DB Query E : Type}

variable {workers : List (Storage DB Query E)}

section

variable {s : Storage DB Query E} {wb : WriteBatch Query}

lemma prepare_cases (s : Storage DB Query E) (wb) :
    ((s.prepare wb).1 = s ∧ (s.prepare wb).2 ≠ none) ∨ ∃ el, wb = .execLog el ∧ s.prepare wb =
        ({ s with tx := some (s.tx.getD s.db), id := el.id, queries := el.queries }, none) := by
  cases wb with
  | other => exact .inl ⟨rfl, nofun⟩
  | execLog el =>
    simp only [prepare]
    rcases s with ⟨sql, db, _ | tx, id, queries⟩
    · cases begun : sql.beginTx with
      | some => exact .inl ⟨rfl, nofun⟩
      | none => exact .inr ⟨el, rfl, rfl⟩
    · by_cases same : id = el.id
      · subst same
        exact .inr ⟨el, rfl, if_pos rfl⟩
      · simp [if_neg same]

lemma prepare_db (s : Storage DB Query E) (wb) : (s.prepare wb).1.db = s.db := by
  rcases prepare_cases s wb with ⟨same, -⟩ | ⟨el, -, prepared⟩
  · rw [same]
  · rw [prepared]

lemma rollback_cases (s : Storage DB Query E) (wb) :
    (s.rollback wb).1 = s ∨ (s.rollback wb).1 = { s with tx := none, queries := [] } := by
  cases wb with
  | other => exact .inl rfl
  | execLog el =>
    simp only [rollback]
    by_cases same : s.id = el.id
    · rw [if_pos same]
      cases s.tx with
      | none => exact .inl rfl
      | some => exact .inr rfl
    · rw [if_neg same]
      exact .inl rfl

lemma rollback_db (s : Storage DB Query E) (wb) : (s.rollback wb).1.db = s.db := by
  rcases rollback_cases s wb with same | same <;> rw [same]

def Applied (el : ExecLog Query) (s s' : Storage DB Query E) : Prop :=
  ∃ result, execAll s.sql (s.tx.getD s.db) el.queries = .ok (s'.db, result) ∧
    s.sql.commit s'.db = none

def Ready (el : ExecLog Query) (s : Storage DB Query E) : Prop :=
  if s.tx.isSome then s.id = el.id else s.sql.beginTx = none

def Runs (el : ExecLog Query) (s : Storage DB Query E) : Prop :=
  ∃ db result, execAll s.sql (s.tx.getD s.db) el.queries = .ok (db, result)

def Commits (el : ExecLog Query) (s : Storage DB Query E) : Prop :=
  ∃ db result, execAll s.sql (s.tx.getD s.db) el.queries = .ok (db, result) ∧
    s.sql.commit db = none

lemma prepare_eq_none {el : ExecLog Query} : (s.prepare (.execLog el)).2 = none ↔ Ready el s := by
  rcases s with ⟨sql, db, _ | tx, id, queries⟩
  · cases begun : sql.beginTx <;> simp [prepare, Ready, begun]
  · by_cases same : id = el.id <;> simp [prepare, Ready, same]

lemma commit_eq_none {el : ExecLog Query} (ready : Ready el s) :
    ((s.prepare (.execLog el)).1.commit (.execLog el)).2.2 = none ↔ Runs el s := by
  rcases prepare_cases s (.execLog el) with ⟨-, failed⟩ | ⟨_, ⟨⟩, prepared⟩
  · exact absurd (prepare_eq_none.mpr ready) failed
  · rw [prepared]
    simp only [commit, if_true, Runs]
    rcases execAll s.sql (s.tx.getD s.db) el.queries with err | ⟨db, result⟩
    · simp
    · simp

lemma applied_iff {el : ExecLog Query} (ready : Ready el s) :
    Applied el s ((s.prepare (.execLog el)).1.commit (.execLog el)).1 ↔ Commits el s := by
  constructor
  · rintro ⟨result, executed, committed⟩
    exact ⟨_, result, executed, committed⟩
  · rintro ⟨db, result, executed, committed⟩
    rcases prepare_cases s (.execLog el) with ⟨-, failed⟩ | ⟨_, ⟨⟩, prepared⟩
    · exact absurd (prepare_eq_none.mpr ready) failed
    · have stored : ((s.prepare (.execLog el)).1.commit (.execLog el)).1.db = db := by
        rw [prepared]
        simp [commit, executed, committed]
      exact ⟨result, stored ▸ executed, stored ▸ committed⟩

end

lemma put_storage_ok (opt : Options (Err E)) (schedule : Schedule workers.length)
    (el : ExecLog Query) : (put worker opt workers schedule (.execLog el)).err = none ↔
      opt.beforePrepare.join = none ∧ (∀ s ∈ workers, Ready el s) ∧
      opt.beforeCommit.join = none ∧ opt.afterCommit.join = none ∧
      (opt.afterCommit = none → ∀ s ∈ workers, Runs el s) := by
  rw [put_err_eq_none]
  simp only [worker, prepare_eq_none]
  refine and_congr_right fun _ => and_congr_right fun ready => ?_
  refine and_congr_right fun _ => and_congr_right fun _ => imp_congr_right fun _ => ?_
  exact forall₂_congr fun s mem => commit_eq_none (ready s mem)

lemma put_applied_iff (opt : Options (Err E)) (schedule : Schedule workers.length)
    (wb : WriteBatch Query) : ((put worker opt workers schedule wb).err = none →
        List.Forall₂ (fun s s' => ∃ el, wb = .execLog el ∧ Applied el s s') workers
          (put worker opt workers schedule wb).workers) ↔
      ∀ el, wb = .execLog el → opt.beforePrepare.join = none → (∀ s ∈ workers, Ready el s) →
        opt.beforeCommit.join = none → opt.afterCommit.join = none →
        (opt.afterCommit = none → ∀ s ∈ workers, Runs el s) → ∀ s ∈ workers, Commits el s := by
  have states (quiet : (put worker opt workers schedule wb).err = none) :
      (put worker opt workers schedule wb).workers =
        workers.map fun s => ((s.prepare wb).1.commit wb).1 := by
    rcases put_cases worker opt schedule wb with refused | rolled | committed
    · exact absurd quiet refused.err
    · exact absurd quiet rolled.err
    · exact committed.states
  cases wb with
  | other =>
    refine iff_of_true (fun quiet => ?_) nofun
    -- no worker prepares such a batch
    rw [states quiet, forall₂_map_right_iff, forall₂_same]
    exact fun s mem => nomatch ((put_err_eq_none worker opt schedule _).mp quiet).2.1 s mem
  | execLog el =>
    simp only [WriteBatch.execLog.injEq, forall_eq', exists_eq_left'] at states ⊢
    rw [put_storage_ok]
    constructor
    · intro applied first ready second last runs s mem
      have quiet := (put_storage_ok opt schedule el).mpr ⟨first, ready, second, last, runs⟩
      have all := applied ⟨first, ready, second, last, runs⟩
      rw [states quiet, forall₂_map_right_iff, forall₂_same] at all
      exact (applied_iff (ready s mem)).mp (all s mem)
    · intro commits quiet
      rw [states ((put_storage_ok opt schedule el).mpr quiet), forall₂_map_right_iff, forall₂_same]
      obtain ⟨first, ready, second, last, runs⟩ := quiet
      exact fun s mem =>
        (applied_iff (ready s mem)).mpr (commits first ready second last runs s mem)

/-- Commits follow the preparation of all workers, and a failure before them leaves every content.
A nil error means that all workers have applied the batch exactly if, whenever the hooks pass, all
workers can prepare and without a hook after the commits all can execute the batch, all can also
commit it. -/
theorem put_outcome_faithful (opt : Options (Err E)) (workers : List (Storage DB Query E))
    (schedule : Schedule workers.length) (wb : WriteBatch Query) :
    (∀ before i result err after,
      (put worker opt workers schedule wb).events = before ++ .commit i result err :: after →
      ∀ j < workers.length, .prepare j none ∈ before) ∧
    ((∃ j err, .prepare j (some err) ∈ (put worker opt workers schedule wb).events) ∨
        (∃ err, .hook .beforeCommit (some err) ∈ (put worker opt workers schedule wb).events) →
      (∀ j < workers.length, ∃ err, .rollback j err ∈ (put worker opt workers schedule wb).events) ∧
      (∀ i result err, .commit i result err ∉ (put worker opt workers schedule wb).events) ∧
      (put worker opt workers schedule wb).workers.map Storage.db = workers.map Storage.db) ∧
    (((put worker opt workers schedule wb).err = none →
        List.Forall₂ (fun s s' => ∃ el, wb = .execLog el ∧ Applied el s s') workers
          (put worker opt workers schedule wb).workers) ↔
      ∀ el, wb = .execLog el → opt.beforePrepare.join = none → (∀ s ∈ workers, Ready el s) →
        opt.beforeCommit.join = none → opt.afterCommit.join = none →
        (opt.afterCommit = none → ∀ s ∈ workers, Runs el s) → ∀ s ∈ workers, Commits el s) := by
  refine ⟨?_, ?_, put_applied_iff opt schedule wb⟩
  · intro before i result err after events
    rcases put_cases worker opt schedule wb with refused | rolled | committed
    · obtain ⟨_, same⟩ := refused.events (.commit i result err) (by simp [events])
      exact nomatch same
    · exact absurd (by simp [events]) (rolled.noCommit i result err)
    · exact committed.prepared_before events
  · intro failed
    rcases put_cases worker opt schedule wb with refused | rolled | committed
    · rcases failed with ⟨j, err, mem⟩ | ⟨err, mem⟩
      · obtain ⟨_, same⟩ := refused.events _ mem
        exact nomatch same
      · obtain ⟨_, same⟩ := refused.events _ mem
        exact nomatch same
    · refine ⟨rolled.called, rolled.noCommit, ?_⟩
      rw [rolled.states, map_map]
      exact map_congr_left fun s _ => (rollback_db _ wb).trans (prepare_db s wb)
    · rcases failed with ⟨j, err, mem⟩ | ⟨err, mem⟩
      · exact absurd mem (committed.noFailure.1 j err)
      · exact absurd mem (committed.noFailure.2 err)

namespace Sample

def sql : SQL Nat Nat String where
  beginTx := none
  exec _ db q := if q = 0 then .error "syntax error" else .ok (db + q, ⟨.ofNat q, 1⟩)
  commit _ := none

def storage (db : Nat) : Storage Nat Nat String := ⟨sql, db, none, ⟨0, 0, 0⟩, []⟩

def failing (db : Nat) : Storage Nat Nat String :=
  { storage db with sql := { sql with exec := fun _ _ _ => .error "disk I/O error" } }

def late (db : Nat) : Storage Nat Nat String :=
  { storage db with sql := { sql with commit := fun _ => some "context deadline exceeded" } }

def batch : WriteBatch Nat := .execLog ⟨1, 2, 3, [4, 5]⟩

def noHooks : Options (Err String) := ⟨none, none, none, none⟩

def listed (n : Nat) : Schedule n := ⟨.listed n, .listed n, .listed n⟩

end Sample

theorem put_outcome_faithful_sample :
    List.Forall₂ (fun s s' => ∃ el, Sample.batch = .execLog el ∧ Applied el s s')
      [Sample.storage 10, Sample.storage 20]
      (put worker Sample.noHooks [Sample.storage 10, Sample.storage 20] (Sample.listed 2)
        Sample.batch).workers ∧
    (put worker Sample.noHooks [Sample.storage 10, Sample.storage 20] (Sample.listed 2)
      Sample.batch).workers.map Storage.db = [19, 29] := by
  refine ⟨(put_outcome_faithful Sample.noHooks [Sample.storage 10, Sample.storage 20]
    (Sample.listed 2) Sample.batch).2.2.mpr ?_ rfl, rfl⟩
  rintro _ ⟨⟩ - - - - - s mem
  rcases mem_cons.mp mem with rfl | mem
  · exact ⟨19, _, rfl, rfl⟩
  · obtain rfl := mem_singleton.mp mem
    exact ⟨29, _, rfl, rfl⟩

/-- The error is nil where the second worker has not applied the batch. -/
theorem put_outcome_hidden : (∃ out, put worker { Sample.noHooks with afterCommit := some none }
        [Sample.storage 10, Sample.failing 20] (Sample.listed 2) Sample.batch = out ∧
      out.err = none ∧ out.workers.map Storage.db = [19, 20] ∧
      .commit 1 none (some (.foreign "disk I/O error")) ∈ out.events ∧
      ∀ el s', Sample.batch = .execLog el → ¬ Applied el (Sample.failing 20) s') ∧
    ∃ out, put worker Sample.noHooks [Sample.storage 10, Sample.late 20] (Sample.listed 2)
        Sample.batch = out ∧
      out.err = none ∧ out.workers.map Storage.db = [19, 20] ∧
      ∀ el s', Sample.batch = .execLog el → ¬ Applied el (Sample.late 20) s' := by
  refine ⟨⟨_, rfl, rfl, rfl, by decide, ?_⟩, ⟨_, rfl, rfl, rfl, ?_⟩⟩
  · rintro _ s' ⟨⟩ ⟨_, executed, _⟩
    exact nomatch executed
  · rintro _ s' ⟨⟩ ⟨_, _, committed⟩
    exact nomatch committed

end SQLess.Storage
