import SQLess.Kayak.Replication

/-! Pending marks. -/

namespace SQLess.Kayak

open Lib List Option

variable {Req Data : Type}

variable {index i : Nat} {l : Log Data} {s' : FollowerState Req Data}

def CommitCycle.claims (index : Nat) : CommitCycle Req Data → Bool
  | .idle => false
  | .received req => req.index = index
  | .put req => req.index = index
  | .execute req => req.index = index
  | .store req => req.index = index

def CommitCycle.finishes (index : Nat) : CommitCycle Req Data → Bool
  | .execute req => req.index = index
  | .store req => req.index = index
  | _ => false

namespace Follower

variable (f : Follower Req Data)

def marks (index : Nat) : Nat := f.threads.countP (Task.marks index)

def Resolved (index : Nat) : Prop :=
  ∃ l ∈ f.shared.rt.wal.logs, l.Resolves index

def Busy (index : Nat) : Prop :=
  index ∈ f.shared.rt.pendingPrepares ∨ (∃ t ∈ f.threads, t.claims index = true) ∨
    f.shared.cycle.claims index = true ∨ f.Resolved index

def Finishing (index : Nat) : Prop :=
  (∃ t ∈ f.threads, t.finishes index = true) ∨ f.shared.cycle.finishes index = true

end Follower

structure MarkInv (f : Follower Req Data) : Prop where
  single : ∀ index, f.marks index ≤ 1
  fresh : ∀ index, 0 < f.marks index → ¬f.Busy index
  finishing : ∀ index ∈ f.shared.rt.pendingPrepares, f.Resolved index → f.Finishing index

section

variable {h : Handler Req Data} {pub : List (Log Data)} {f f' : Follower Req Data}

lemma CycleOk.request (ok : CycleOk h pub logs lastCommit cycle)
    (claims : cycle.claims index = true) : ∃ req, ReqOk h pub logs req ∧ req.index = index := by
  cases cycle with
  | idle => simp [CommitCycle.claims] at claims
  | received req => exact ⟨req, ok.2, by simpa [CommitCycle.claims] using claims⟩
  | put req => exact ⟨req, ok.2.1, by simpa [CommitCycle.claims] using claims⟩
  | execute req | store req => exact ⟨req, ok.1, by simpa [CommitCycle.claims] using claims⟩

lemma FollowerInv.stored_of_busy (inv : FollowerInv h pub f)
    (busy : f.Busy index) : ∃ l ∈ f.shared.rt.wal.logs, l.index = index := by
  rcases busy with pending | ⟨t, member, claims⟩ | claims | ⟨l, member, resolves⟩
  · obtain ⟨l, present, named, -⟩ := inv.shared.pending index pending
    exact ⟨l, present, named⟩
  · have known := inv.each t member
    cases t with
    | writeRollback l pl | putRollback l pl | commitResult l pl lastCommit =>
      exact ⟨pl, known.1.2.1, by simpa [Task.claims] using claims⟩
    | enqueue req | waitForLastCommit req =>
      obtain ⟨pl, present, named, -⟩ := ReqOk.prepared known
      exact ⟨pl, present, by simpa [Task.claims, named] using claims⟩
    | followerApply l checkPrepare | writePrepare l checkPrepare | putPrepare l checkPrepare
    | markPending l checkPrepare | getPrepareLog l | checkFinished l pl lastCommit
    | markFinished l prepareIndex | finish l checkPrepare => simp [Task.claims] at claims
  · obtain ⟨req, ok, named⟩ := inv.shared.cycle.request claims
    obtain ⟨pl, present, indexed, -⟩ := ok.prepared
    exact ⟨pl, present, indexed.trans named⟩
  · exact inv.shared.copied.prepared l member index resolves

lemma FollowerInv.stored_of_marks (inv : FollowerInv h pub f)
    (marked : 0 < f.marks index) : ∃ l ∈ f.shared.rt.wal.logs, l.index = index := by
  obtain ⟨t, member, marks⟩ := countP_pos_iff.mp marked
  have known := inv.each t member
  cases t with
  | markPending l => exact ⟨l, known.1, by simpa [Task.marks] using marks⟩
  | followerApply l checkPrepare | writePrepare l checkPrepare | putPrepare l checkPrepare
  | getPrepareLog l | checkFinished l pl lastCommit | writeRollback l pl | putRollback l pl
  | commitResult l pl lastCommit | enqueue req | waitForLastCommit req
  | markFinished l prepareIndex | finish l checkPrepare => simp [Task.marks] at marks

lemma MarkInv.step (inv : MarkInv f) (fewer : ∀ index, f'.marks index ≤ f.marks index)
    (busy : ∀ index, 0 < f'.marks index → f'.Busy index → f.Busy index)
    (finishing : ∀ index ∈ f'.shared.rt.pendingPrepares, f'.Resolved index →
      f'.Finishing index) : MarkInv f' := by
  refine ⟨?_, ?_, finishing⟩
  · intro index
    exact Nat.le_trans (fewer index) (inv.single index)
  · intro index marked again
    have earlier : 0 < f.marks index := Nat.lt_of_lt_of_le marked (fewer index)
    exact inv.fresh index earlier (busy index marked again)

section

variable {i index : Nat} {t : Task Req Data} {s' : FollowerState Req Data}
  {next : List (Task Req Data)}

lemma Follower.Finishing.resume (finishing : f.Finishing index)
    (found : f.threads[i]? = some t) (kept : t.finishes index = false)
    (cycle : s'.cycle = f.shared.cycle) :
    Follower.Finishing ⟨s', Lib.resume f.threads i next⟩ index := by
  rcases finishing with ⟨other, member, finishes⟩ | finishes
  · have different : other ≠ t := by
      rintro rfl
      simp [finishes] at kept
    exact .inl ⟨other, mem_resume_of_ne next found member different, finishes⟩
  · exact .inr (cycle ▸ finishes)

lemma Follower.Busy.resumed (busy : Follower.Busy ⟨s', Lib.resume f.threads i next⟩ index)
    (pending : index ∈ s'.rt.pendingPrepares → index ∈ f.shared.rt.pendingPrepares)
    (claimed : ∀ t' ∈ next, t'.claims index = true → f.Busy index)
    (cycle : s'.cycle.claims index = true → f.Busy index)
    (resolved : (∃ l ∈ s'.rt.wal.logs, l.Resolves index) → f.Busy index) : f.Busy index := by
  rcases busy with marked | ⟨t', member, claims⟩ | claims | finished
  · exact .inl (pending marked)
  · rcases mem_resume member with new | old
    · exact claimed t' new claims
    · exact .inr (.inl ⟨t', old, claims⟩)
  · exact cycle claims
  · exact resolved finished

lemma Follower.marks_resume (s' next index) (found : f.threads[i]? = some t) :
    Follower.marks ⟨s', Lib.resume f.threads i next⟩ index + [t].countP (Task.marks index) =
      f.marks index + next.countP (Task.marks index) :=
  countP_resume next (Task.marks index) found

lemma Follower.marks_resume_le (s') (unmarked : ∀ t' ∈ next, ∀ index, t'.marks index = false)
    (index) (found : f.threads[i]? = some t) :
    Follower.marks ⟨s', Lib.resume f.threads i next⟩ index ≤ f.marks index := by
  have total := Follower.marks_resume s' next index found
  have none : next.countP (Task.marks index) = 0 := by
    rw [countP_eq_zero]
    intro t' member
    simp [unmarked t' member index]
  omega

end

lemma MarkInv.putPrepare (known : FollowerInv h pub f) (inv : MarkInv f)
    (found : f.threads[i]? = some (.putPrepare l checkPrepare))
    (absent : f.shared.rt.wal.get l.index = none) (wal : s'.rt.wal = f.shared.rt.wal.put l)
    (pending : s'.rt.pendingPrepares = f.shared.rt.pendingPrepares)
    (cycle : s'.cycle = f.shared.cycle) :
    MarkInv ⟨s', resume f.threads i [.markPending l checkPrepare]⟩ := by
  obtain ⟨-, type⟩ := known.each _ (mem_of_getElem? found)
  have new : ∀ index, (∃ other ∈ f.shared.rt.wal.logs, other.index = index) → l.index ≠ index := by
    rintro index ⟨other, member, named⟩ own
    exact Wal.get_eq_none.mp absent other member (named.trans own.symm)
  have unresolving : ∀ index, (∃ other ∈ s'.rt.wal.logs, other.Resolves index) →
      f.Resolved index := by
    rintro index ⟨other, member, resolves⟩
    rcases Wal.mem_of_put (wal ▸ member) with old | top
    · exact ⟨other, old, resolves⟩
    · exact absurd (top ▸ type) resolves.not_prepare
  have busy : ∀ index, Follower.Busy ⟨s', resume f.threads i [.markPending l checkPrepare]⟩ index →
      f.Busy index := by
    intro index busy
    refine busy.resumed (fun marked => pending ▸ marked) (by simp [Task.claims]) ?_ ?_
    · exact fun claims => .inr (.inr (.inl (cycle ▸ claims)))
    · exact fun resolved => .inr (.inr (.inr (unresolving index resolved)))
  have count := fun index => Follower.marks_resume s' [.markPending l checkPrepare] index found
  refine ⟨?_, ?_, ?_⟩
  · intro index
    have total := count index
    have before := inv.single index
    by_cases own : l.index = index
    · -- a call that marks the log has stored it, and it was not stored
      have unmarked : f.marks index = 0 := by
        by_contra marked
        exact new index (known.stored_of_marks (Nat.pos_of_ne_zero marked)) own
      simp [Task.marks, own] at total
      omega
    · simp [Task.marks, own] at total
      omega
  · intro index marked again
    have total := count index
    have other := new index (known.stored_of_busy (busy index again))
    simp [Task.marks, other] at total
    exact inv.fresh index (by omega) (busy index again)
  · intro index marked resolved
    exact (inv.finishing index (pending ▸ marked) (unresolving index resolved)).resume found
      (by simp [Task.finishes]) cycle

lemma MarkInv.markPending (inv : MarkInv f)
    (found : f.threads[i]? = some (.markPending l checkPrepare)) (wal : s'.rt.wal = f.shared.rt.wal)
    (pending : s'.rt.pendingPrepares = insert l.index f.shared.rt.pendingPrepares)
    (cycle : s'.cycle = f.shared.cycle) :
    MarkInv ⟨s', resume f.threads i [.finish l checkPrepare]⟩ := by
  have own : ∀ index, l.index = index → 0 < f.marks index := by
    intro index same
    exact countP_pos_iff.mpr ⟨_, mem_of_getElem? found, by simp [Task.marks, same]⟩
  have before : ∀ index, (∃ other ∈ s'.rt.wal.logs, other.Resolves index) → f.Resolved index := by
    rw [wal]
    exact fun _ resolved => resolved
  refine inv.step ?_ ?_ ?_
  · exact fun index => Follower.marks_resume_le _ (by simp [Task.marks]) index found
  · intro index marked busy
    have other : index ≠ l.index := by
      intro same
      have total := Follower.marks_resume s' [.finish l checkPrepare] index found
      have single := inv.single index
      simp [Task.marks, same] at total
      rw [same] at marked single
      omega
    refine busy.resumed ?_ (by simp [Task.claims]) ?_ ?_
    · intro again
      rw [pending] at again
      exact (Finset.mem_insert.mp again).resolve_left other
    · exact fun claims => .inr (.inr (.inl (cycle ▸ claims)))
    · exact fun resolved => .inr (.inr (.inr (before index resolved)))
  · intro index again resolved
    have earlier := before index resolved
    change index ∈ s'.rt.pendingPrepares at again
    rw [pending] at again
    rcases Finset.mem_insert.mp again with same | marked
    · exact absurd (.inr (.inr (.inr earlier))) (inv.fresh index (own index same.symm))
    · exact (inv.finishing index marked earlier).resume found (by simp [Task.finishes]) cycle

lemma MarkInv.putRollback (inv : MarkInv f)
    (found : f.threads[i]? = some (.putRollback l pl)) (resolves : l.Resolves pl.index)
    (wal : s'.rt.wal = f.shared.rt.wal.put l)
    (pending : s'.rt.pendingPrepares = f.shared.rt.pendingPrepares)
    (cycle : s'.cycle = f.shared.cycle) :
    MarkInv ⟨s', resume f.threads i [.markFinished l pl.index]⟩ := by
  have resolved : ∀ index, (∃ other ∈ s'.rt.wal.logs, other.Resolves index) →
      f.Resolved index ∨ pl.index = index := by
    rintro index ⟨other, member, names⟩
    rcases Wal.mem_of_put (wal ▸ member) with old | new
    · exact .inl ⟨other, old, names⟩
    · rw [new] at names
      exact .inr (resolves.index_eq names)
  refine inv.step ?_ ?_ ?_
  · exact fun index => Follower.marks_resume_le _ (by simp [Task.marks]) index found
  · intro index _ busy
    refine busy.resumed (fun marked => pending ▸ marked) (by simp [Task.claims]) ?_ ?_
    · exact fun claims => .inr (.inr (.inl (cycle ▸ claims)))
    · intro again
      rcases resolved index again with earlier | own
      · exact .inr (.inr (.inr earlier))
      · exact .inr (.inl ⟨_, mem_of_getElem? found, by simp [Task.claims, own]⟩)
  · intro index marked again
    rcases resolved index again with earlier | own
    · exact (inv.finishing index (pending ▸ marked) earlier).resume found
        (by simp [Task.finishes]) cycle
    · exact .inl ⟨.markFinished l pl.index, mem_resume_next (by simp),
        by simp [Task.finishes, own]⟩

lemma MarkInv.enqueue (inv : MarkInv f) (found : f.threads[i]? = some (.enqueue req))
    (idle : f.shared.cycle = .idle) (rt : s'.rt = f.shared.rt) (cycle : s'.cycle = .received req) :
    MarkInv ⟨s', resume f.threads i []⟩ := by
  refine inv.step ?_ ?_ ?_
  · exact fun index => Follower.marks_resume_le _ (by simp) index found
  · intro index _ busy
    refine busy.resumed (fun marked => rt ▸ marked) (by simp) ?_ ?_
    · intro claims
      refine .inr (.inl ⟨_, mem_of_getElem? found, ?_⟩)
      simpa [Task.claims, CommitCycle.claims, cycle] using claims
    · rintro ⟨l, member, resolves⟩
      exact .inr (.inr (.inr ⟨l, rt ▸ member, resolves⟩))
  · rintro index marked ⟨l, member, resolves⟩
    rcases inv.finishing index (rt ▸ marked) ⟨l, rt ▸ member, resolves⟩ with
      ⟨other, present, finishes⟩ | finishes
    · have different : other ≠ .enqueue req := by
        rintro rfl
        simp [Task.finishes] at finishes
      exact .inl ⟨other, mem_resume_of_ne _ found present different, finishes⟩
    · simp [idle, CommitCycle.finishes] at finishes

lemma MarkInv.markFinished (inv : MarkInv f)
    (found : f.threads[i]? = some (.markFinished l index)) (wal : s'.rt.wal = f.shared.rt.wal)
    (pending : s'.rt.pendingPrepares = f.shared.rt.pendingPrepares.erase index)
    (cycle : s'.cycle = f.shared.cycle) : MarkInv ⟨s', resume f.threads i [.finish l false]⟩ := by
  refine inv.step ?_ ?_ ?_
  · exact fun other => Follower.marks_resume_le _ (by simp [Task.marks]) other found
  · intro other _ busy
    refine busy.resumed ?_ (by simp [Task.claims]) ?_ ?_
    · exact fun marked => Finset.mem_of_mem_erase (pending ▸ marked)
    · exact fun claims => .inr (.inr (.inl (cycle ▸ claims)))
    · rintro ⟨l, member, resolves⟩
      exact .inr (.inr (.inr ⟨l, wal ▸ member, resolves⟩))
  · rintro other marked ⟨l, member, resolves⟩
    obtain ⟨different, earlier⟩ := Finset.mem_erase.mp (pending ▸ marked)
    exact (inv.finishing other earlier ⟨l, wal ▸ member, resolves⟩).resume found
      (by simpa [Task.finishes] using different.symm) cycle

variable {next : List (Task Req Data)}

lemma MarkInv.task (known : FollowerInv h pub f) (inv : MarkInv f)
    (found : f.threads[i]? = some t) (steps : t.Steps h f.shared s' next)
    (alone : f.overwrites i = false) : MarkInv ⟨s', resume f.threads i next⟩ := by
  have present := mem_of_getElem? found
  have task := known.each t present
  cases steps.effect with
  | pass logs pending cycle _ _ unmarked claimed kept =>
    refine inv.step (fun index => Follower.marks_resume_le s' unmarked index found) ?_ ?_
    · intro index _ busy
      refine busy.resumed (fun marked => pending ▸ marked) ?_ ?_ ?_
      · intro t' member claims
        rcases claimed t' member index claims with earlier | marked
        · exact .inr (.inl ⟨t, present, earlier⟩)
        · exact .inl marked
      · exact fun claims => .inr (.inr (.inl (cycle ▸ claims)))
      · rintro ⟨l, member, resolves⟩
        exact .inr (.inr (.inr ⟨l, logs ▸ member, resolves⟩))
    · rintro index marked ⟨l, member, resolves⟩
      have finishing := inv.finishing index (pending ▸ marked) ⟨l, logs ▸ member, resolves⟩
      exact finishing.resume found (kept index) cycle
  | putPrepare l checkPrepare stage written goes =>
    subst stage written goes
    have absent : f.shared.rt.wal.get l.index = none := by
      simpa [Follower.overwrites, found] using alone
    exact inv.putPrepare known found absent rfl rfl rfl
  | markPending l checkPrepare stage marked goes =>
    subst stage marked goes
    exact inv.markPending found rfl rfl rfl
  | putRollback l pl stage written goes =>
    subst stage written goes
    obtain ⟨⟨-, -, resolves⟩, -⟩ := task
    exact inv.putRollback found resolves rfl rfl rfl
  | enqueue req stage idle received goes =>
    subst stage received goes
    exact inv.enqueue found idle rfl rfl
  | markFinished l index stage finished goes =>
    subst stage finished goes
    exact inv.markFinished found rfl rfl rfl

lemma MarkInv.started (inv : MarkInv f) (unmarked : ∀ t ∈ next, ∀ index, t.marks index = false)
    (busy : ∀ index, Follower.Busy ⟨s', f.threads ++ next⟩ index → f.Busy index)
    (finishing : ∀ index ∈ s'.rt.pendingPrepares, Follower.Resolved ⟨s', f.threads ++ next⟩ index →
        Follower.Finishing ⟨s', f.threads ++ next⟩ index) : MarkInv (f.start (s', next)) := by
  refine inv.step ?_ (fun index _ => busy index) finishing
  intro index
  have none : next.countP (Task.marks index) = 0 := by
    rw [countP_eq_zero]
    intro t member
    simp [unmarked t member index]
  simp only [Follower.marks, Pool.start, countP_append]
  omega

lemma Follower.Busy.started (busy : Follower.Busy ⟨s', f.threads ++ next⟩ index)
    (pending : s'.rt.pendingPrepares = f.shared.rt.pendingPrepares)
    (claimed : ∀ t ∈ next, t.claims index = true → f.Busy index)
    (cycle : s'.cycle.claims index = true → f.Busy index)
    (resolved : Follower.Resolved ⟨s', f.threads ++ next⟩ index → f.Busy index) : f.Busy index := by
  rcases busy with marked | ⟨t, member, claims⟩ | claims | finished
  · exact .inl (pending ▸ marked)
  · rcases mem_append.mp member with old | new
    · exact .inr (.inl ⟨t, old, claims⟩)
    · exact claimed t new claims
  · exact cycle claims
  · exact resolved finished

lemma Follower.Finishing.started (finishing : f.Finishing index)
    (cycle : f.shared.cycle.finishes index = true → s'.cycle.finishes index = true ∨
      ∃ t ∈ next, t.finishes index = true) : Follower.Finishing ⟨s', f.threads ++ next⟩ index := by
  rcases finishing with ⟨t, member, finishes⟩ | finishes
  · exact .inl ⟨t, mem_append_left _ member, finishes⟩
  · rcases cycle finishes with still | ⟨t, member, goes⟩
    · exact .inr still
    · exact .inl ⟨t, mem_append_right _ member, goes⟩

structure CycleEffect (s s' : FollowerState Req Data) (next : List (Task Req Data)) : Prop where
  pending : s'.rt.pendingPrepares = s.rt.pendingPrepares
  unmarked : ∀ t ∈ next, ∀ index, t.marks index = false
  claimed : ∀ t ∈ next, ∀ index, t.claims index = true → s.cycle.claims index = true
  holds : ∀ index, s'.cycle.claims index = true → s.cycle.claims index = true
  finishing : ∀ index, s.cycle.finishes index = true →
    s'.cycle.finishes index = true ∨ ∃ t ∈ next, t.finishes index = true
  wal : s'.rt.wal = s.rt.wal ∨ ∃ req, s.cycle = .put req ∧
    s'.rt.wal = s.rt.wal.put req.log ∧ s'.cycle = .execute req

lemma FollowerState.Cycles.effect (cycles : s.Cycles s' next) : CycleEffect s s' next := by
  cases cycles with
  | put req stage =>
    exact ⟨rfl, by simp, by simp, by simp [stage, CommitCycle.claims],
      by simp [stage, CommitCycle.finishes], .inr ⟨req, stage, rfl, rfl⟩⟩
  | early req stage | known req stage | received req stage last absent | execute req stage
  | store req stage =>
    exact ⟨rfl, by simp [Task.marks], by simp [stage, CommitCycle.claims, Task.claims],
      by simp [stage, CommitCycle.claims],
      by simp [stage, CommitCycle.finishes, Task.finishes], .inl rfl⟩

lemma MarkInv.cycled
    (known : FollowerInv h pub f) (inv : MarkInv f) (cycles : f.shared.Cycles s' next) :
    MarkInv (f.start (s', next)) := by
  have effect := cycles.effect
  -- a log that is new resolves the prepare log that the commit cycle has claimed
  have resolved : ∀ index, Follower.Resolved ⟨s', f.threads ++ next⟩ index → f.Resolved index ∨
        f.shared.cycle.claims index = true ∧ s'.cycle.finishes index = true := by
    rintro index ⟨l, member, names⟩
    rcases effect.wal with same | ⟨req, stage, written, executing⟩
    · exact .inl ⟨l, same ▸ member, names⟩
    · have ok := known.shared.cycle
      rw [stage] at ok
      obtain ⟨pl, -, named, resolves, -⟩ := ok.2.1.prepared
      change l ∈ s'.rt.wal.logs at member
      rw [written] at member
      rcases Wal.mem_of_put member with old | new
      · exact .inl ⟨l, old, names⟩
      · rw [new] at names
        have claims : req.index = index := named.symm.trans (resolves.index_eq names)
        exact .inr ⟨by simp [stage, CommitCycle.claims, claims],
          by simp [executing, CommitCycle.finishes, claims]⟩
  refine inv.started effect.unmarked ?_ ?_
  · intro index busy
    refine busy.started effect.pending ?_ ?_ ?_
    · exact fun t member claims => .inr (.inr (.inl (effect.claimed t member index claims)))
    · exact fun claims => .inr (.inr (.inl (effect.holds index claims)))
    · intro finished
      rcases resolved index finished with earlier | ⟨claims, -⟩
      · exact .inr (.inr (.inr earlier))
      · exact .inr (.inr (.inl claims))
  · intro index pending finished
    rw [effect.pending] at pending
    rcases resolved index finished with earlier | ⟨-, finishes⟩
    · exact (inv.finishing index pending earlier).started (effect.finishing index)
    · exact .inr finishes

lemma MarkInv.restart (issued : Issued pub) (known : FollowerInv h pub f)
    (created : newRuntime f.shared.rt.wal = some r) :
    MarkInv ⟨{ f.shared with rt := r, waitLogMap := ∅, cycle := .idle }, []⟩ := by
  have read := newRuntime_readTo (known.shared.copied.issued issued) created
  refine ⟨by simp [Follower.marks], by simp [Follower.marks], ?_⟩
  rintro index pending ⟨l, member, resolves⟩
  change l ∈ r.wal.logs at member
  rw [read.wal] at member
  exact absurd resolves (((read.pending index).mp pending).2 l (Wal.mem_read.mpr member))

lemma MarkInv.act (issued : Issued pub) (known : FollowerInv h pub f)
    (inv : MarkInv f) (acted : f.act h sent wal action = some f')
    (alone : ∀ i go, action = .task i go → f.overwrites i = false) : MarkInv f' := by
  cases Follower.acts_of_act acted with
  | task found steps => exact inv.task known found steps (alone _ _ rfl)
  | commitCycle cycles => exact inv.cycled known cycles
  | receive =>
    refine inv.started (by simp [Task.marks]) ?_ ?_
    · intro index busy
      refine busy.started rfl (by simp [Task.claims]) ?_ ?_
      · exact fun claims => .inr (.inr (.inl claims))
      · exact fun resolved => .inr (.inr (.inr resolved))
    · intro index pending resolved
      exact (inv.finishing index pending resolved).started fun finishes => .inl finishes
  | restart created => exact MarkInv.restart issued known created

lemma MarkInv.stays (issued : Issued pub) (known : FollowerInv h pub f)
    (inv : MarkInv f) (acted : f.act h sent wal action = some f') (resolved : f.Resolved index)
    (unmarked : index ∉ f.shared.rt.pendingPrepares) :
    f'.Resolved index ∧ index ∉ f'.shared.rt.pendingPrepares := by
  obtain ⟨l, member, resolves⟩ := resolved
  cases Follower.acts_of_act acted with
  | @task _ _ t _ _ found steps =>
    have present := mem_of_getElem? found
    have kept := steps.keeps issued known.shared (known.each t present)
    refine ⟨⟨l, kept.grows l member, resolves⟩, ?_⟩
    cases steps.effect with
    | pass _ pending =>
      rw [pending]
      exact unmarked
    | putPrepare _ _ _ changed | putRollback _ _ _ changed | enqueue _ _ _ changed =>
      rw [changed]
      exact unmarked
    | markPending other _ stage changed =>
      rw [changed]
      intro again
      rcases Finset.mem_insert.mp again with same | earlier
      · have marked : 0 < f.marks index :=
          countP_pos_iff.mpr ⟨t, present, by simp [stage, Task.marks, same]⟩
        exact inv.fresh index marked (.inr (.inr (.inr ⟨l, member, resolves⟩)))
      · exact unmarked earlier
    | markFinished _ _ _ changed =>
      rw [changed]
      exact fun again => unmarked (Finset.mem_of_mem_erase again)
  | commitCycle cycles =>
    have kept := cycles.keeps issued known.shared
    refine ⟨⟨l, kept.grows l member, resolves⟩, ?_⟩
    exact cycles.effect.pending ▸ unmarked
  | receive => exact ⟨⟨l, member, resolves⟩, unmarked⟩
  | @restart r created =>
    have read := newRuntime_readTo (known.shared.copied.issued issued) created
    refine ⟨⟨l, ?_, resolves⟩, ?_⟩
    · change l ∈ r.wal.logs
      rw [read.wal]
      exact member
    · intro again
      exact ((read.pending index).mp again).2 l (Wal.mem_read.mpr member) resolves

end

section

variable {h : Handler Req Data} {config : Config} {mode : Mode} {s s' : System Req Data}

section

variable (exclusive : mode.exclusive = true)
include exclusive

lemma Allowed.alone (allowed : Allowed mode s (.follower node action) = true) (i go)
    (task : action = .task i go) : (s.followers node).overwrites i = false := by
  subst task
  simpa [Allowed, exclusive] using allowed

lemma MarkInv.run (ran : Run h config mode .init s) (node) : MarkInv (s.followers node) := by
  induction ran with
  | refl =>
    refine ⟨?_, ?_, ?_⟩ <;> simp [System.init, FollowerState.init, Follower.marks]
  | tail before stepped ih =>
    obtain ⟨action, allowed, acted⟩ := stepped
    have inv := SystemInv.run before
    rcases System.follower_cases acted node with same | ⟨followerAction, rfl, -, moved⟩
    · rw [same]
      exact ih
    · exact MarkInv.act inv.leader.holds.shared.issued_published (inv.followers node) ih moved
        (Allowed.alone exclusive allowed)

lemma resolved_stays (ran : Run h config mode .init s) (later : Run h config mode s s')
    (resolved : (s.followers node).Resolved index)
    (unmarked : index ∉ (s.followers node).shared.rt.pendingPrepares) :
    (s'.followers node).Resolved index ∧ index ∉ (s'.followers node).shared.rt.pendingPrepares := by
  induction later with
  | refl => exact ⟨resolved, unmarked⟩
  | tail before stepped ih =>
    have reached := ran.trans before
    have inv := SystemInv.run reached
    obtain ⟨action, -, acted⟩ := stepped
    rcases System.follower_cases acted node with same | ⟨followerAction, -, -, moved⟩
    · rw [same]
      exact ih
    · exact MarkInv.stays inv.leader.holds.shared.issued_published (inv.followers node)
        (MarkInv.run exclusive reached node) moved ih.1 ih.2

end

/-- On a follower that stores no prepare log twice, a prepare log is resolved by at most one log,
which removes its pending mark for good. -/
theorem prepare_resolved_once (exclusive : mode.exclusive = true)
    (ran : Run h config mode .init s) (node : NodeID) :
    (∀ l ∈ (s.followers node).shared.rt.wal.logs, ∀ l' ∈ (s.followers node).shared.rt.wal.logs,
        ∀ index, l.Resolves index → l'.Resolves index → l = l') ∧
    (∀ index ∈ (s.followers node).shared.rt.pendingPrepares,
      ∃ l ∈ (s.followers node).shared.rt.wal.logs, l.index = index ∧ l.type = .prepare) ∧
    (∀ index ∈ (s.followers node).shared.rt.pendingPrepares,
      (s.followers node).Resolved index → (s.followers node).Finishing index) ∧
    ∀ s', Run h config mode s s' → ∀ index, (s.followers node).Resolved index →
      index ∉ (s.followers node).shared.rt.pendingPrepares →
        index ∉ (s'.followers node).shared.rt.pendingPrepares := by
  have inv := SystemInv.run ran
  have known := inv.followers node
  have issued := known.shared.copied.issued inv.leader.holds.shared.issued_published
  refine ⟨issued.once, known.shared.pending, (MarkInv.run exclusive ran node).finishing, ?_⟩
  intro s' later index resolved unmarked
  exact (resolved_stays exclusive ran later resolved unmarked).2

theorem prepare_resolved_once_sample : ∃ s : System Nat Nat,
    Run sampleHandler sampleConfig ⟨true, false, true⟩ .init s ∧
      (s.followers "follower").shared.rt.wal.logs =
        [⟨0, .prepare, .payload 7⟩, ⟨1, .commit, .words [0, 0]⟩] ∧
      ∀ s', Run sampleHandler sampleConfig ⟨true, false, true⟩ s s' →
        0 ∉ (s'.followers "follower").shared.rt.pendingPrepares := by
  have ran := run_of_perform (show System.init.perform sampleHandler sampleConfig
    ⟨true, false, true⟩ sampleActions = some _ from rfl)
  refine ⟨_, ran, rfl, fun s' later => ?_⟩
  refine (prepare_resolved_once rfl ran "follower").2.2.2 s' later 0 ?_ (by decide)
  exact ⟨⟨1, .commit, .words [0, 0]⟩, by decide, .inl rfl, rfl⟩

def overlappingCopies : List (Action Nat) :=
  samplePrepare 7 ++ [.follower "follower" (.deliver 0), .follower "follower" (.task 0 true),
      .follower "follower" (.task 0 true), .follower "follower" (.deliver 0),
      .follower "follower" (.task 1 true), .follower "follower" (.task 1 true)] ++
    List.replicate 3 (.follower "follower" (.task 0 true)) ++
    .leader (.reply 0 "follower" none) :: sampleCommit ++
    .follower "follower" (.deliver 1) :: List.replicate 5 (.follower "follower" (.task 1 true)) ++
    List.replicate 4 (.follower "follower" .commitCycle) ++
    List.replicate 2 (.follower "follower" (.task 1 true))

/-- The second copy is stored over the first and marks the committed request pending. -/
theorem resolved_marked_again : ∃ s s' : System Nat Nat,
    Run sampleHandler sampleConfig ⟨false, false, false⟩ .init s ∧
      Run sampleHandler sampleConfig ⟨false, false, false⟩ s s' ∧
      (s.followers "follower").Resolved 0 ∧
      0 ∉ (s.followers "follower").shared.rt.pendingPrepares ∧
      0 ∈ (s'.followers "follower").shared.rt.pendingPrepares := by
  have first : System.init.perform sampleHandler sampleConfig ⟨false, false, false⟩
      overlappingCopies = some _ := rfl
  refine ⟨_, _, run_of_perform first, run_of_perform (show System.perform sampleHandler sampleConfig
    _ (List.replicate 2 (.follower "follower" (.task 0 true))) _ = some _ from rfl), ?_,
    by decide, by decide⟩
  exact ⟨⟨1, .commit, .words [0, 0]⟩, by decide, .inl rfl, rfl⟩

end

end SQLess.Kayak
