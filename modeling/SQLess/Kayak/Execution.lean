import SQLess.Kayak.Replication

/-! Commit logs and calls of the handler's `Commit`. -/

namespace SQLess.Kayak

open Lib List LeaderState Option

variable {Req Data : Type}

def Executes (h : Handler Req Data) (logs : List (Log Data)) (l : Log Data) (call : Nat × Req) :
    Prop :=
  call.1 = l.index ∧ ∃ pl ∈ logs, l.Resolves pl.index ∧ h.doDecodePayload pl.data = some call.2

def Performed (h : Handler Req Data) (logs : List (Log Data)) (executing : Option (Log Data))
    (executed : List (Nat × Req)) : Prop :=
  ∃ finished, commits logs = finished ++ executing.toList ∧
    List.Forall₂ (Executes h logs) finished executed

def LeaderCycle.executing : LeaderCycle Req Data → Option (Log Data)
  | .execute _ l => some l
  | _ => none

def CommitCycle.executing : CommitCycle Req Data → Option (Log Data)
  | .execute req => some req.log
  | _ => none

def LeaderDone (h : Handler Req Data) (s : LeaderState Req Data) : Prop :=
  Performed h s.rt.wal.logs s.cycle.executing s.executed

def FollowerDone (h : Handler Req Data) (s : FollowerState Req Data) : Prop :=
  Performed h s.rt.wal.logs s.cycle.executing s.executed

section

variable {h : Handler Req Data} {logs logs' : List (Log Data)} {executed : List (Nat × Req)}

lemma Executes.mono (executes : Executes h logs l call) (grows : ∀ l ∈ logs, l ∈ logs') :
    Executes h logs' l call := by
  obtain ⟨named, pl, member, facts⟩ := executes
  exact ⟨named, pl, grows pl member, facts⟩

lemma Executes.unique (issued : Issued logs) : Relator.RightUnique (Executes h logs) := by
  intro l left right executes executes'
  obtain ⟨leftIndex, pl, member, resolves, decoded⟩ := executes
  obtain ⟨rightIndex, pl', member', resolves', decoded'⟩ := executes'
  have same := issued.eq_of_index member member' (resolves.index_eq resolves')
  rw [same, decoded'] at decoded
  exact Prod.ext (leftIndex.trans rightIndex.symm) (Option.some.inj decoded.symm)

lemma Performed.mono {executing} (performed : Performed h logs executing executed)
    (grows : ∀ l ∈ logs, l ∈ logs') (same : commits logs' = commits logs) :
    Performed h logs' executing executed := by
  obtain ⟨finished, split, calls⟩ := performed
  exact ⟨finished, same.trans split, calls.imp fun _ _ executes => executes.mono grows⟩

lemma Performed.write (performed : Performed h logs none executed)
    (grows : ∀ l ∈ logs, l ∈ logs') (snoc : commits logs' = commits logs ++ [l]) :
    Performed h logs' (some l) executed := by
  obtain ⟨finished, split, calls⟩ := performed
  refine ⟨finished, ?_, calls.imp fun _ _ executes => executes.mono grows⟩
  rw [snoc, split]
  simp

lemma Performed.execute (performed : Performed h logs (some l) executed)
    (executes : Executes h logs l call) : Performed h logs none (executed ++ [call]) := by
  obtain ⟨finished, split, calls⟩ := performed
  exact ⟨finished ++ [l], by simpa using split, rel_append calls (.cons executes .nil)⟩

lemma Performed.calls (performed : Performed h logs none executed) :
    List.Forall₂ (Executes h logs) (commits logs) executed := by
  obtain ⟨finished, split, calls⟩ := performed
  rw [split]
  simpa using calls

lemma Executes.indexes (calls : List.Forall₂ (Executes h logs) finished executed) :
    executed.map Prod.fst = finished.map Log.index := by
  induction calls with
  | nil => rfl
  | cons executes _ ih => rw [map_cons, map_cons, executes.1, ih]

end

section

variable {h : Handler Req Data} {s s' : LeaderState Req Data}

lemma LeaderDone.cycled (ok : LeaderOk h s) (done : LeaderDone h s)
    (acted : s.commitCycle = some s') : LeaderDone h s' := by
  have cycle := ok.cycle
  cases cycles_of_commitCycle acted with
  | received req index replies stage | store l stage | send l stage =>
    rw [LeaderDone, stage] at done
    exact done
  | write req index replies l stage absent =>
    rw [LeaderDone, stage] at done
    rw [stage] at cycle
    obtain ⟨-, -, type, -⟩ := cycle
    refine Performed.write done (Wal.put_grows absent) ?_
    change commits (s.rt.wal.put l).logs = _
    rw [Wal.put_absent absent, commits_concat _ type]
  | execute req l stage =>
    rw [LeaderDone, stage] at done
    rw [stage] at cycle
    obtain ⟨-, pl, member, resolves, -, data, encoded, payload⟩ := cycle
    refine Performed.execute done ⟨rfl, pl, member, resolves, ?_⟩
    rw [payload]
    exact h.decode_encode req data encoded

lemma LeaderDone.effect (ok : LeaderOk h s) (done : LeaderDone h s)
    (effect : LeaderEffect action s s') (careful : action = .restart → s.executing = false) :
    LeaderDone h s' := by
  cases effect with
  | quiet wal cycle executed =>
    rw [LeaderDone, wal, cycle, executed]
    exact done
  | receive req index replies idle received =>
    rw [LeaderDone, idle] at done
    subst received
    exact done
  | put l other absent wal cycle executed =>
    rw [LeaderDone, wal, cycle, executed]
    refine done.mono (Wal.put_grows absent) ?_
    rw [Wal.put_absent absent, commits_concat_other _ other]
  | cycled acted => exact done.cycled ok acted
  | restarted crash acted =>
    have calm := careful crash
    obtain ⟨wal, cycle, executed, -⟩ := restart_wal acted ok.issued
    rw [LeaderDone, wal, cycle, executed]
    cases stage : s.cycle with
    | execute => simp [LeaderState.executing, stage] at calm
    | idle | received req index replies | write req index replies l | store l | send l =>
      rw [LeaderDone, stage] at done
      exact done

lemma LeaderDone.published (ok : LeaderOk h s) (done : LeaderDone h s) :
    List.Forall₂ (Executes h s.rt.wal.logs) (commits s.published) s.executed := by
  obtain ⟨finished, split, calls⟩ := done
  have same : commits s.published = finished := by
    cases stage : s.cycle with
    | execute =>
      rw [ok.published_execute stage, stage] at split
      exact append_cancel_right split
    | idle | received req index replies | write req index replies l | store l | send l =>
      rw [published_eq (by rw [stage]; rfl), split, stage]
      simp [LeaderCycle.executing]
  rw [same]
  exact calls

end

section

variable {h : Handler Req Data} {pub : List (Log Data)} {s s' : FollowerState Req Data}

lemma Task.Steps.leaves {t next} (steps : t.Steps h s s' next) (issued : Issued pub)
    (ok : FollowerOk h pub s) (task : TaskOk h pub s.rt.wal.logs t) :
    s'.executed = s.executed ∧ s'.cycle.executing = s.cycle.executing ∧
      commits s'.rt.wal.logs = commits s.rt.wal.logs := by
  cases steps.effect with
  | pass wal _ cycle executed => exact ⟨executed, by rw [cycle], by rw [wal]⟩
  | putPrepare l checkPrepare stage written =>
    subst stage written
    obtain ⟨known, type⟩ := task
    refine ⟨rfl, rfl, (ok.copied.put issued known (by simp [type]) ?_).2⟩
    exact fun index resolves => absurd type resolves.not_prepare
  | putRollback l pl stage written =>
    subst stage written
    obtain ⟨⟨known, present, resolves⟩, type⟩ := task
    refine ⟨rfl, rfl, (ok.copied.put issued known (by simp [type]) ?_).2⟩
    exact fun index names => ⟨pl, present, resolves.index_eq names⟩
  | markPending l checkPrepare stage marked =>
    subst marked
    exact ⟨rfl, rfl, rfl⟩
  | enqueue req stage idle received =>
    subst received
    exact ⟨rfl, by rw [idle]; rfl, rfl⟩
  | markFinished l index stage finished =>
    subst finished
    exact ⟨rfl, rfl, rfl⟩

lemma FollowerDone.cycled {next} (issued : Issued pub) (ok : FollowerOk h pub s)
    (done : FollowerDone h s) (cycles : s.Cycles s' next) : FollowerDone h s' := by
  have cycle := ok.cycle
  cases cycles with
  | early req stage | known req stage | received req stage last absent | store req stage =>
    rw [FollowerDone, stage] at done
    exact done
  | put req stage =>
    rw [FollowerDone, stage] at done
    rw [stage] at cycle
    obtain ⟨settled, request, last⟩ := cycle
    exact Performed.write done (ok.copied.put_grows issued request.known)
      (ok.copied.put_commit issued request (by rw [last, settled])).2
  | execute req stage =>
    rw [FollowerDone, stage] at done
    rw [stage] at cycle
    obtain ⟨pl, member, -, resolves, decoded⟩ := cycle.1.prepared
    exact Performed.execute done ⟨rfl, pl, member, resolves, decoded⟩

lemma FollowerDone.restart (issued : Issued pub) (ok : FollowerOk h pub s)
    (done : FollowerDone h s) (calm : s.executing = false)
    (created : newRuntime s.rt.wal = some r) :
    FollowerDone h { s with rt := r, waitLogMap := ∅, cycle := .idle } := by
  change Performed h r.wal.logs none s.executed
  rw [(ok.restart issued created).2]
  cases stage : s.cycle with
  | execute => simp [FollowerState.executing, stage] at calm
  | idle | received req | put req | store req =>
    rw [FollowerDone, stage] at done
    exact done

lemma FollowerDone.act {f f' action sent wal} (issued : Issued pub) (inv : FollowerInv h pub f)
    (done : FollowerDone h f.shared) (acted : f.act h sent wal action = some f')
    (careful : action = .restart → f.shared.executing = false) : FollowerDone h f'.shared := by
  cases Follower.acts_of_act acted with
  | task found steps =>
    have task := inv.each _ (mem_of_getElem? found)
    obtain ⟨executed, executing, same⟩ := steps.leaves issued inv.shared task
    rw [FollowerDone, executed, executing]
    exact done.mono (steps.keeps issued inv.shared task).grows same
  | commitCycle cycles => exact done.cycled issued inv.shared cycles
  | receive => exact done
  | restart created => exact done.restart issued inv.shared (careful rfl) created

end

structure SystemDone (h : Handler Req Data) (s : System Req Data) : Prop where
  leader : LeaderDone h s.leader.shared
  followers : ∀ node, FollowerDone h (s.followers node).shared

section

variable {h : Handler Req Data} {config : Config} {mode : Mode} {s s' : System Req Data}

lemma SystemDone.init : SystemDone h (.init : System Req Data) :=
  ⟨⟨[], rfl, .nil⟩, fun _ => ⟨[], rfl, .nil⟩⟩

def Mode.Orderly (mode : Mode) : Prop := mode.crashes = true → mode.careful = true

lemma SystemDone.act (orderly : mode.Orderly) (inv : SystemInv h s)
    (done : SystemDone h s) (allowed : Allowed mode s action = true)
    (acted : s.act h config action = some s') : SystemDone h s' := by
  have shared := inv.leader.holds.shared
  refine ⟨?_, ?_⟩
  · rcases System.act_cases acted with
      ⟨leaderAction, leader, rfl, moved, rfl⟩ | ⟨node, followerAction, f, -, -, -, rfl⟩
    · refine done.leader.effect shared (inv.leader.effect moved) ?_
      rintro rfl
      simp only [Allowed, Bool.and_eq_true] at allowed
      simpa [orderly allowed.1] using allowed.2
    · exact done.leader
  · intro node
    rcases System.follower_cases acted node with same | ⟨followerAction, rfl, -, moved⟩
    · rw [same]
      exact done.followers node
    · refine (done.followers node).act shared.issued_published (inv.followers node) moved ?_
      rintro rfl
      simp only [Allowed, Bool.and_eq_true] at allowed
      simpa [orderly allowed.1] using allowed.2

lemma SystemDone.run (orderly : mode.Orderly) (ran : Run h config mode .init s) :
    SystemDone h s := by
  induction ran with
  | refl => exact .init
  | tail before stepped ih =>
    obtain ⟨action, allowed, acted⟩ := stepped
    exact ih.act orderly (SystemInv.run before) allowed acted

def ExecutedOnce (h : Handler Req Data) (logs : List (Log Data)) (executed : List (Nat × Req)) :
    Prop :=
  ∀ l ∈ logs, l.type = .commit → (executed.map Prod.fst).count l.index = 1 ∧
    ∃ pl ∈ logs, l.Resolves pl.index ∧
      ∃ req, h.doDecodePayload pl.data = some req ∧ (l.index, req) ∈ executed

lemma Performed.executedOnce {logs executed} (issued : Issued logs)
    (performed : Performed h logs none executed) : ExecutedOnce h logs executed := by
  intro l member committed
  have calls := performed.calls
  have listed : l ∈ commits logs := mem_commits.mpr ⟨member, committed⟩
  have distinct : ((commits logs).map Log.index).Nodup :=
    (filter_sublist.map Log.index).nodup issued.distinct
  refine ⟨?_, ?_⟩
  · rw [Executes.indexes calls]
    exact count_eq_one_of_mem distinct (mem_map_of_mem listed)
  · obtain ⟨position, bound, rfl⟩ := getElem_of_mem listed
    have bound' : position < executed.length := calls.length_eq ▸ bound
    obtain ⟨named, pl, present, resolves, decoded⟩ :=
      (forall₂_iff_get.mp calls).2 position bound bound'
    refine ⟨pl, present, resolves, _, decoded, ?_⟩
    rw [← get_eq_getElem (l := commits logs) (i := ⟨position, bound⟩), ← named]
    exact get_mem _ _

lemma not_executedOnce_nil (member : l ∈ logs) (committed : l.type = .commit) :
    ¬ExecutedOnce h logs [] := by
  intro once
  simpa using (once l member committed).1

/-- After a node has started again, all its commit logs have been executed exactly once, if
no node ever ends between writing a commit log and executing it. -/
theorem restart_executedOnce (careful : mode.careful = true) (ran : Run h config mode .init s)
    {action : Action Req} (allowed : Allowed mode s action = true)
    (acted : s.act h config action = some s') :
    (action = .leader .restart →
      ExecutedOnce h s'.leader.shared.rt.wal.logs s'.leader.shared.executed) ∧
    ∀ node, action = .follower node .restart → ExecutedOnce h (s'.followers node).shared.rt.wal.logs
        (s'.followers node).shared.executed := by
  have before := SystemInv.run ran
  have inv := before.act acted
  have done := (SystemDone.run (fun _ => careful) ran).act (fun _ => careful) before allowed acted
  refine ⟨?_, ?_⟩
  · rintro rfl
    have idle : s'.leader.shared.cycle = .idle := by
      simp only [System.act, Leader.act, LeaderState.restart, map_eq_some_iff] at acted
      obtain ⟨-, ⟨-, ⟨r, -, rfl⟩, rfl⟩, rfl⟩ := acted
      rfl
    have performed := done.leader
    rw [LeaderDone, idle] at performed
    exact performed.executedOnce inv.leader.holds.shared.issued
  · rintro node rfl
    have idle : (s'.followers node).shared.cycle = .idle := by
      simp only [System.act, Follower.act, FollowerState.restart] at acted
      split at acted
      · simp only [map_eq_some_iff] at acted
        obtain ⟨-, ⟨-, ⟨r, -, rfl⟩, rfl⟩, rfl⟩ := acted
        simp [System.setFollower]
      · simp at acted
    have performed := done.followers node
    rw [FollowerDone, idle] at performed
    have issued := inv.leader.holds.shared.issued_published
    exact performed.executedOnce ((inv.followers node).shared.copied.issued issued)

theorem restart_executedOnce_sample : ∃ s s' : System Nat Nat,
    Run sampleHandler sampleConfig ⟨true, true, false⟩ .init s ∧
      s.act sampleHandler sampleConfig (.follower "follower" .restart) = some s' ∧
      ExecutedOnce sampleHandler (s'.followers "follower").shared.rt.wal.logs
        (s'.followers "follower").shared.executed := by
  have ran := run_of_perform (show System.init.perform sampleHandler sampleConfig
    ⟨true, true, false⟩ sampleActions = some _ from rfl)
  exact ⟨_, _, ran, rfl, (restart_executedOnce rfl ran rfl rfl).2 "follower" rfl⟩

/-- A node that ends after writing a commit log does not execute it when it starts again. -/
theorem restart_skips_commit :
    (∃ s s' : System Nat Nat, Run sampleHandler sampleConfig ⟨true, false, false⟩ .init s ∧
      s.act sampleHandler sampleConfig (.leader .restart) = some s' ∧
      ¬ExecutedOnce sampleHandler s'.leader.shared.rt.wal.logs s'.leader.shared.executed) ∧
    ∃ s s' : System Nat Nat, Run sampleHandler sampleConfig ⟨true, false, false⟩ .init s ∧
      s.act sampleHandler sampleConfig (.follower "follower" .restart) = some s' ∧
      ¬ExecutedOnce sampleHandler (s'.followers "follower").shared.rt.wal.logs
        (s'.followers "follower").shared.executed := by
  have leads : System.init.perform sampleHandler sampleConfig ⟨true, false, false⟩
      (sampleActions.take 19) = some _ := rfl
  have follows : System.init.perform sampleHandler sampleConfig ⟨true, false, false⟩
      (sampleActions.take 32) = some _ := rfl
  refine ⟨⟨_, _, run_of_perform leads, rfl, ?_⟩, _, _, run_of_perform follows, rfl, ?_⟩
  · exact not_executedOnce_nil (l := ⟨1, .commit, .words [0, 0]⟩) (by decide) rfl
  · exact not_executedOnce_nil (l := ⟨1, .commit, .words [0, 0]⟩) (by decide) rfl

/-- What a follower has executed is a leading part of what the leader has executed. -/
theorem followers_execute_leading (orderly : mode.Orderly) (ran : Run h config mode .init s)
    (node : NodeID) :
    (s.followers node).shared.executed <+: s.leader.shared.executed ∧
      (s.leader.shared.executed.map Prod.fst).Nodup := by
  have inv := SystemInv.run ran
  have done := SystemDone.run orderly ran
  have shared := inv.leader.holds.shared
  have copied := (inv.followers node).shared.copied
  have leaderCalls := done.leader.published shared
  obtain ⟨finished, split, calls⟩ := done.followers node
  have leading : finished <+: commits s.leader.shared.published :=
    (show finished <+: commits _ from ⟨_, split.symm⟩).trans copied.leading
  constructor
  · have known : ∀ l ∈ (s.followers node).shared.rt.wal.logs, l ∈ s.leader.shared.rt.wal.logs :=
      fun l member => (mem_published.mp (copied.known l member)).1
    have calls' : List.Forall₂ (Executes h s.leader.shared.rt.wal.logs) finished
        (s.followers node).shared.executed := calls.imp fun _ _ executes => executes.mono known
    -- both sequences of calls follow the leader's commit logs, which determine them
    have front := forall₂_take finished.length leaderCalls
    rw [← prefix_iff_eq_take.mp leading] at front
    rw [right_unique_forall₂' (Executes.unique shared.issued) calls' front]
    exact take_prefix _ _
  · rw [Executes.indexes leaderCalls]
    exact (filter_sublist.map Log.index).nodup shared.issued_published.distinct

theorem followers_execute_leading_sample : ∃ s : System Nat Nat,
    Run sampleHandler sampleConfig ⟨false, false, false⟩ .init s ∧
      s.leader.shared.executed = [(1, 7), (3, 8)] ∧
      (s.followers "follower").shared.executed = [(1, 7)] ∧
      [(1, 7)] <+: [(1, 7), (3, 8)] := by
  have ran := run_of_perform (show System.init.perform sampleHandler sampleConfig
    ⟨false, false, false⟩ (sampleActions ++ samplePrepare 8 ++ sampleAnswer 2 ++ sampleCommit) =
      some _ from rfl)
  exact ⟨_, ran, rfl, rfl,
    (followers_execute_leading (by simp [Mode.Orderly]) ran "follower").1⟩

end

end SQLess.Kayak
