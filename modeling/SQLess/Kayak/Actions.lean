import SQLess.Kayak.LeaderCore
import SQLess.Kayak.FollowerCore

/-! What the actions can do, as relations; proofs about actions go through their cases. -/

namespace SQLess.Kayak

open Lib Option ApplyCall

variable {Req Data : Type}

section

variable {h : Handler Req Data} {config : Config} {s s' : LeaderState Req Data}

inductive ApplyCall.Steps (h : Handler Req Data) (config : Config) (s : LeaderState Req Data) :
    ApplyCall Req Data → LeaderState Req Data → List (ApplyCall Req Data) → Prop
  | refuse (req : Req) : Steps h config s (.check req) s []
  | check (req : Req) (data : Data) (encoded : h.encodePayload req = some data) :
      Steps h config s (.check req) s [.logPrepare req data]
  | logPrepare (req : Req) (data : Data) :
      Steps h config s (.logPrepare req data)
        { s with rt := { s.rt with nextIndex := s.rt.nextIndex + 1 } }
        [.writePrepare req ⟨s.rt.nextIndex, .prepare, .payload data⟩]
  | writePrepare (req : Req) (l : Log Data) (absent : s.rt.wal.get l.index = none) :
      Steps h config s (.writePrepare req l) { s with rt := s.rt.putLog l } [.markPending req l]
  | markPending (req : Req) (l : Log Data) :
      Steps h config s (.markPending req l) { s with rt := s.rt.markPendingPrepare l.index }
        [.applyRPC req l]
  | applyRPC (req : Req) (l : Log Data) :
      Steps h config s (.applyRPC req l) { s with sent := s.sent ++ [l] }
        [.poll req l (.send config.followers config.minPreparedFollowers)]
  | poll (req : Req) (l : Log Data) (t : Tracker) :
      Steps h config s (.poll req l t) s [.select req l t t.done]
  | complete (req : Req) (l : Log Data) (t : Tracker) (meets : Bool) (done : t.done = true) :
      Steps h config s (.select req l t meets) s [.collect req l t true]
  | timeout (req : Req) (l : Log Data) (t : Tracker) (meets : Bool) :
      Steps h config s (.select req l t meets) s [.collect req l t meets]
  | collect (req : Req) (l : Log Data) (t : Tracker) (meets : Bool)
      (enough : meets = true ∨ t.minCount ≤ t.errors.keys.card)
      (clean : errorSummary t.errors = none) :
      Steps h config s (.collect req l t meets) s [.enqueue req l t.errors]
  | fail (req : Req) (l : Log Data) (t : Tracker) (meets : Bool) :
      Steps h config s (.collect req l t meets) s [.logRollback l]
  | enqueue (req : Req) (l : Log Data) (replies : Replies) (idle : s.cycle = .idle) :
      Steps h config s (.enqueue req l replies) { s with cycle := .received req l.index replies }
        [.waitCommit l]
  | giveUp (req : Req) (l : Log Data) (replies : Replies) :
      Steps h config s (.enqueue req l replies) s [.finish l]
  | waitCommit (l : Log Data) : Steps h config s (.waitCommit l) s [.finish l]
  | logRollback (l : Log Data) :
      Steps h config s (.logRollback l)
        { s with rt := { s.rt with nextIndex := s.rt.nextIndex + 1 } }
        [.writeRollback l ⟨s.rt.nextIndex, .rollback, .words [l.index]⟩]
  | writeRollback (l rollbackLog : Log Data) (absent : s.rt.wal.get rollbackLog.index = none) :
      Steps h config s (.writeRollback l rollbackLog) { s with rt := s.rt.putLog rollbackLog }
        [.sendRollback l rollbackLog]
  | sendRollback (l rollbackLog : Log Data) :
      Steps h config s (.sendRollback l rollbackLog) { s with sent := s.sent ++ [rollbackLog] }
        [.finish l]
  | finish (l : Log Data) :
      Steps h config s (.finish l) { s with rt := s.rt.markPrepareFinished l.index } []

lemma ApplyCall.steps_of_step {t : ApplyCall Req Data}
    (acted : t.step h config go s = some (s', next)) : t.Steps h config s s' next := by
  cases t with
  | check req =>
    simp only [step] at acted
    split at acted
    · rename_i data encoded
      cases acted
      exact .check req data encoded
    · cases acted
      exact .refuse req
  | logPrepare req data =>
    cases acted
    exact .logPrepare req data
  | writePrepare req l =>
    simp only [step, ite_none_left_eq_some] at acted
    obtain ⟨absent, acted⟩ := acted
    cases acted
    exact .writePrepare req l (not_isSome_iff_eq_none.mp absent)
  | markPending req l =>
    cases acted
    exact .markPending req l
  | applyRPC req l =>
    cases acted
    exact .applyRPC req l
  | poll req l t =>
    cases acted
    exact .poll req l t
  | select req l t meets =>
    simp only [step] at acted
    split at acted
    · obtain ⟨done, acted⟩ := ite_none_right_eq_some.mp acted
      cases acted
      exact .complete req l t meets done
    · cases acted
      exact .timeout req l t meets
  | collect req l t meets =>
    simp only [step] at acted
    split at acted
    · rename_i clean
      cases acted
      split at clean
      · simp at clean
      · rename_i enough
        simp only [Bool.not_eq_true', Bool.not_eq_false, Bool.or_eq_true, decide_eq_true_eq]
          at enough
        exact .collect req l t meets enough clean
    · cases acted
      exact .fail req l t meets
  | enqueue req l replies =>
    simp only [step] at acted
    split at acted
    · split at acted
      · rename_i idle
        cases acted
        exact .enqueue req l replies idle
      · simp at acted
    · cases acted
      exact .giveUp req l replies
  | waitCommit l =>
    cases acted
    exact .waitCommit l
  | logRollback l =>
    cases acted
    exact .logRollback l
  | writeRollback l rollbackLog =>
    simp only [step, ite_none_left_eq_some] at acted
    obtain ⟨absent, acted⟩ := acted
    cases acted
    exact .writeRollback l rollbackLog (not_isSome_iff_eq_none.mp absent)
  | sendRollback l rollbackLog =>
    cases acted
    exact .sendRollback l rollbackLog
  | finish l =>
    cases acted
    exact .finish l

inductive ApplyCall.Answered (node : NodeID) (err : Option Err) :
    Log Data → ApplyCall Req Data → ApplyCall Req Data → Prop
  | poll (req : Req) (l : Log Data) (t : Tracker) (called : node ∈ t.calls) :
      Answered node err l (.poll req l t) (.poll req l (t.callSingle node err))
  | select (req : Req) (l : Log Data) (t : Tracker) (meets : Bool) (called : node ∈ t.calls) :
      Answered node err l (.select req l t meets) (.select req l (t.callSingle node err) meets)
  | collect (req : Req) (l : Log Data) (t : Tracker) (meets : Bool) (called : node ∈ t.calls) :
      Answered node err l (.collect req l t meets) (.collect req l (t.callSingle node err) meets)

lemma ApplyCall.answered_of_reply {t t' : ApplyCall Req Data}
    (tracked : t.tracked = some l) (replied : t.reply node err = some t') :
    t.Answered node err l t' := by
  cases t with
  | poll req _ t =>
    cases tracked
    obtain ⟨called, replied⟩ := ite_none_right_eq_some.mp replied
    cases replied
    exact .poll req l t called
  | select req _ t meets =>
    cases tracked
    obtain ⟨called, replied⟩ := ite_none_right_eq_some.mp replied
    cases replied
    exact .select req l t meets called
  | collect req _ t meets =>
    cases tracked
    obtain ⟨called, replied⟩ := ite_none_right_eq_some.mp replied
    cases replied
    exact .collect req l t meets called
  | _ => simp [ApplyCall.tracked] at tracked

inductive LeaderState.Cycles (s : LeaderState Req Data) : LeaderState Req Data → Prop
  | received (req : Req) (index : Nat) (replies : Replies)
      (stage : s.cycle = .received req index replies) :
      Cycles s { s with
        rt := { s.rt with nextIndex := s.rt.nextIndex + 1 }
        cycle := .write req index replies
          ⟨s.rt.nextIndex, .commit, .words [index, s.rt.lastCommit]⟩ }
  | write (req : Req) (index : Nat) (replies : Replies) (l : Log Data)
      (stage : s.cycle = .write req index replies l) (absent : s.rt.wal.get l.index = none) :
      Cycles s { s with
        rt := s.rt.putLog l
        cycle := .execute req l
        quorums := s.quorums ++ [(l.index, replies)] }
  | execute (req : Req) (l : Log Data) (stage : s.cycle = .execute req l) :
      Cycles s { s with cycle := .store l, executed := s.executed ++ [(l.index, req)] }
  | store (l : Log Data) (stage : s.cycle = .store l) :
      Cycles s { s with rt := { s.rt with lastCommit := l.index }, cycle := .send l }
  | send (l : Log Data) (stage : s.cycle = .send l) :
      Cycles s { s with cycle := .idle, sent := s.sent ++ [l] }

lemma LeaderState.cycles_of_commitCycle (acted : s.commitCycle = some s') : s.Cycles s' := by
  unfold LeaderState.commitCycle at acted
  split at acted
  · simp at acted
  · rename_i req index replies stage
    cases acted
    exact .received req index replies stage
  · rename_i req index replies l stage
    obtain ⟨absent, acted⟩ := ite_none_left_eq_some.mp acted
    cases acted
    exact .write req index replies l stage (not_isSome_iff_eq_none.mp absent)
  · rename_i req l stage
    cases acted
    exact .execute req l stage
  · rename_i l stage
    cases acted
    exact .store l stage
  · rename_i l stage
    cases acted
    exact .send l stage

inductive Leader.Acts (h : Handler Req Data) (config : Config) (accepted : NodeID → Finset Nat)
    (leader : Leader Req Data) : LeaderAction Req → Leader Req Data → Prop
  | apply (req : Req) :
      Acts h config accepted leader (.apply req) (leader.start (leader.shared, [.check req]))
  | call {i : Nat} {go : Bool} {t : ApplyCall Req Data} {s : LeaderState Req Data}
      {next : List (ApplyCall Req Data)} (found : leader.threads[i]? = some t)
      (steps : t.Steps h config leader.shared s next) :
      Acts h config accepted leader (.call i go) ⟨s, resume leader.threads i next⟩
  | reply {i : Nat} {node : NodeID} {err : Option Err} {l : Log Data} {t t' : ApplyCall Req Data}
      (found : leader.threads[i]? = some t) (answered : t.Answered node err l t')
      (success : err = none → l.index ∈ accepted node) :
      Acts h config accepted leader (.reply i node err)
        ⟨leader.shared, resume leader.threads i [t']⟩
  | commitCycle {s : LeaderState Req Data} (acted : leader.shared.commitCycle = some s) :
      Acts h config accepted leader .commitCycle ⟨s, leader.threads⟩
  | restart {s : LeaderState Req Data} (acted : leader.shared.restart = some s) :
      Acts h config accepted leader .restart ⟨s, []⟩

lemma Leader.acts_of_act {leader leader' : Leader Req Data}
    (acted : leader.act h config accepted action = some leader') :
    leader.Acts h config accepted action leader' := by
  obtain ⟨shared', threads'⟩ := leader'
  cases action with
  | apply req =>
    rw [← Option.some.inj acted]
    exact .apply req
  | call =>
    obtain ⟨t, next, found, stepped, threads⟩ := Pool.move_eq_some acted
    obtain rfl : threads' = _ := threads
    exact .call found (steps_of_step stepped)
  | reply =>
    rw [Leader.act] at acted
    obtain ⟨t, next, found, replied, threads⟩ := Pool.move_eq_some acted
    obtain rfl : threads' = _ := threads
    split at replied
    · rename_i l t' tracked answered
      obtain ⟨success, replied⟩ := ite_none_left_eq_some.mp replied
      cases replied
      refine .reply found (answered_of_reply tracked answered) ?_
      intro clean
      simpa [clean] using success
    · simp at replied
  | commitCycle =>
    obtain ⟨s, cycled, same⟩ := map_eq_some_iff.mp acted
    rw [← same]
    exact .commitCycle cycled
  | restart =>
    obtain ⟨s, restarted, same⟩ := map_eq_some_iff.mp acted
    rw [← same]
    exact .restart restarted

end

section

variable {h : Handler Req Data} {s s' : FollowerState Req Data}

inductive Task.Steps (h : Handler Req Data) (s : FollowerState Req Data) :
    Task Req Data → FollowerState Req Data → List (Task Req Data) → Prop
  -- a log that is refused, already stored or already resolved ends its call
  | drop (t : Task Req Data) (unfinished : ∀ l index, t ≠ .markFinished l index) :
      Steps h s t s []
  | apply (l : Log Data) (checkPrepare : Bool) (type : l.type = .prepare) :
      Steps h s (.followerApply l checkPrepare) s [.writePrepare l checkPrepare]
  | resolve (l : Log Data) (checkPrepare : Bool) (type : l.type = .commit ∨ l.type = .rollback) :
      Steps h s (.followerApply l checkPrepare) s [.getPrepareLog l]
  | ignore (l : Log Data) (checkPrepare : Bool) :
      Steps h s (.followerApply l checkPrepare) s [.finish l false]
  | writePrepare (l : Log Data) (checkPrepare : Bool) (absent : s.rt.wal.get l.index = none) :
      Steps h s (.writePrepare l checkPrepare) s [.putPrepare l checkPrepare]
  | putPrepare (l : Log Data) (checkPrepare : Bool) :
      Steps h s (.putPrepare l checkPrepare) { s with rt := s.rt.putLog l }
        [.markPending l checkPrepare]
  | markPending (l : Log Data) (checkPrepare : Bool) :
      Steps h s (.markPending l checkPrepare) { s with rt := s.rt.markPendingPrepare l.index }
        [.finish l checkPrepare]
  | wait (l : Log Data) (index : Nat) (blocked : Kayak.getPrepareLog s.rt.wal l = .blocked index) :
      Steps h s (.getPrepareLog l) { s with waitLogMap := insert index s.waitLogMap }
        [.getPrepareLog l]
  | getPrepareLog (l prepareLog : Log Data) (lastCommit : Nat)
      (located : Kayak.getPrepareLog s.rt.wal l = .done (lastCommit, prepareLog)) :
      Steps h s (.getPrepareLog l) s [.checkFinished l prepareLog lastCommit]
  | rollback (l prepareLog : Log Data) (lastCommit : Nat)
      (pending : prepareLog.index ∈ s.rt.pendingPrepares) (type : l.type = .rollback) :
      Steps h s (.checkFinished l prepareLog lastCommit) s [.writeRollback l prepareLog]
  | commit (l prepareLog : Log Data) (lastCommit : Nat)
      (pending : prepareLog.index ∈ s.rt.pendingPrepares) (type : l.type ≠ .rollback) :
      Steps h s (.checkFinished l prepareLog lastCommit) s [.commitResult l prepareLog lastCommit]
  | writeRollback (l prepareLog : Log Data) (absent : s.rt.wal.get l.index = none) :
      Steps h s (.writeRollback l prepareLog) s [.putRollback l prepareLog]
  | putRollback (l prepareLog : Log Data) :
      Steps h s (.putRollback l prepareLog) { s with rt := s.rt.putLog l }
        [.markFinished l prepareLog.index]
  | commitResult (l prepareLog : Log Data) (lastCommit : Nat) (data : Req)
      (decoded : h.doDecodePayload prepareLog.data = some data) :
      Steps h s (.commitResult l prepareLog lastCommit) s
        [.enqueue ⟨data, prepareLog.index, lastCommit, l⟩]
  | enqueue (req : CommitReq Req Data) (idle : s.cycle = .idle) :
      Steps h s (.enqueue req) { s with cycle := .received req } []
  | requeue (req : CommitReq Req Data) : Steps h s (.waitForLastCommit req) s [.enqueue req]
  | waitForLastCommit (req : CommitReq Req Data) :
      Steps h s (.waitForLastCommit req)
        { s with waitLogMap := insert req.lastCommit s.waitLogMap } [.waitForLastCommit req]
  | markFinished (l : Log Data) (prepareIndex : Nat) :
      Steps h s (.markFinished l prepareIndex)
        { s with rt := s.rt.markPrepareFinished prepareIndex } [.finish l false]
  | finish (l : Log Data) (checkPrepare : Bool) :
      Steps h s (.finish l checkPrepare)
        { s with
          rt := s.rt.updateNextIndex l
          accepted := if checkPrepare then insert l.index s.accepted else s.accepted } []

lemma Task.steps_of_step {t : Task Req Data} (acted : t.step h go s = some (s', next)) :
    t.Steps h s s' next := by
  cases t with
  | followerApply l checkPrepare =>
    simp only [Task.step] at acted
    split at acted
    · rename_i type
      split at acted
      · cases acted
        exact .drop _ (by simp)
      · split at acted
        · cases acted
          exact .drop _ (by simp)
        · cases acted
          exact .apply l checkPrepare type
    · rename_i type
      cases acted
      exact .resolve l checkPrepare (.inr type)
    · rename_i type
      cases acted
      exact .resolve l checkPrepare (.inl type)
    · cases acted
      exact .ignore l checkPrepare
  | writePrepare l checkPrepare =>
    simp only [Task.step] at acted
    split at acted
    · cases acted
      exact .drop _ (by simp)
    · rename_i absent
      cases acted
      exact .writePrepare l checkPrepare (not_isSome_iff_eq_none.mp absent)
  | putPrepare l checkPrepare =>
    cases acted
    exact .putPrepare l checkPrepare
  | markPending l checkPrepare =>
    cases acted
    exact .markPending l checkPrepare
  | getPrepareLog l =>
    simp only [Task.step] at acted
    split at acted
    · cases acted
      exact .drop _ (by simp)
    · rename_i index blocked
      cases acted
      exact .wait l index blocked
    · rename_i lastCommit prepareLog located
      cases acted
      exact .getPrepareLog l prepareLog lastCommit located
  | checkFinished l prepareLog lastCommit =>
    simp only [Task.step] at acted
    split at acted
    · cases acted
      exact .drop _ (by simp)
    · rename_i unfinished
      have pending : prepareLog.index ∈ s.rt.pendingPrepares := by
        simpa [Runtime.checkIfPrepareFinished] using unfinished
      split at acted
      · rename_i type
        cases acted
        exact .rollback l prepareLog lastCommit pending type
      · rename_i type
        cases acted
        exact .commit l prepareLog lastCommit pending type
  | writeRollback l prepareLog =>
    simp only [Task.step] at acted
    split at acted
    · cases acted
      exact .drop _ (by simp)
    · rename_i absent
      cases acted
      exact .writeRollback l prepareLog (not_isSome_iff_eq_none.mp absent)
  | putRollback l prepareLog =>
    cases acted
    exact .putRollback l prepareLog
  | commitResult l prepareLog lastCommit =>
    simp only [Task.step] at acted
    split at acted
    · cases acted
      exact .drop _ (by simp)
    · split at acted
      · cases acted
        exact .drop _ (by simp)
      · rename_i data decoded
        cases acted
        exact .commitResult l prepareLog lastCommit data decoded
  | enqueue req =>
    simp only [Task.step] at acted
    split at acted
    · rename_i idle
      cases acted
      exact .enqueue req idle
    · simp at acted
  | waitForLastCommit req =>
    simp only [Task.step] at acted
    split at acted
    · cases acted
      exact .requeue req
    · cases acted
      exact .waitForLastCommit req
  | markFinished l prepareIndex =>
    cases acted
    exact .markFinished l prepareIndex
  | finish l checkPrepare =>
    cases acted
    exact .finish l checkPrepare

inductive FollowerState.Cycles (s : FollowerState Req Data) :
    FollowerState Req Data → List (Task Req Data) → Prop
  | early (req : CommitReq Req Data) (stage : s.cycle = .received req) :
      Cycles s { s with cycle := .idle } [.waitForLastCommit req]
  | known (req : CommitReq Req Data) (stage : s.cycle = .received req) :
      Cycles s { s with cycle := .idle } []
  | received (req : CommitReq Req Data) (stage : s.cycle = .received req)
      (last : req.lastCommit = s.rt.lastCommit) (absent : s.rt.wal.get req.log.index = none) :
      Cycles s { s with cycle := .put req } []
  | put (req : CommitReq Req Data) (stage : s.cycle = .put req) :
      Cycles s { s with rt := s.rt.putLog req.log, cycle := .execute req } []
  | execute (req : CommitReq Req Data) (stage : s.cycle = .execute req) :
      Cycles s { s with
        cycle := .store req
        executed := s.executed ++ [(req.log.index, req.data)] } []
  | store (req : CommitReq Req Data) (stage : s.cycle = .store req) :
      Cycles s { s with rt := { s.rt with lastCommit := req.log.index }, cycle := .idle }
        [.markFinished req.log req.index]

lemma FollowerState.cycles_of_commitCycle (acted : s.commitCycle = some (s', next)) :
    s.Cycles s' next := by
  unfold FollowerState.commitCycle at acted
  split at acted
  · simp at acted
  · rename_i req stage
    split at acted
    · cases acted
      exact .early req stage
    · rename_i last
      split at acted
      · cases acted
        exact .known req stage
      · rename_i absent
        cases acted
        exact .received req stage (Classical.not_not.mp last)
          (not_isSome_iff_eq_none.mp absent)
  · rename_i req stage
    cases acted
    exact .put req stage
  · rename_i req stage
    cases acted
    exact .execute req stage
  · rename_i req stage
    cases acted
    exact .store req stage

inductive Follower.Acts (h : Handler Req Data) (sent : List (Log Data)) (wal : Wal Data)
    (f : Follower Req Data) : FollowerAction → Follower Req Data → Prop
  | task {i : Nat} {go : Bool} {t : Task Req Data} {s : FollowerState Req Data}
      {next : List (Task Req Data)} (found : f.threads[i]? = some t)
      (steps : t.Steps h f.shared s next) :
      Acts h sent wal f (.task i go) ⟨s, resume f.threads i next⟩
  | commitCycle {s : FollowerState Req Data} {next : List (Task Req Data)}
      (cycles : f.shared.Cycles s next) : Acts h sent wal f .commitCycle (f.start (s, next))
  | receive {action : FollowerAction} {l : Log Data} (checkPrepare : Bool)
      (origin : l ∈ sent ∨ ∃ index ∈ f.shared.waitLogMap, wal.get index = some l) :
      Acts h sent wal f action (f.start (f.shared, [.followerApply l checkPrepare]))
  | restart {r : Runtime Data} (created : newRuntime f.shared.rt.wal = some r) :
      Acts h sent wal f .restart ⟨{ f.shared with rt := r, waitLogMap := ∅, cycle := .idle }, []⟩

lemma Follower.acts_of_act {f f' : Follower Req Data}
    (acted : f.act h sent wal action = some f') : f.Acts h sent wal action f' := by
  cases action with
  | task =>
    obtain ⟨s, threads'⟩ := f'
    obtain ⟨t, next, found, stepped, threads⟩ := Pool.move_eq_some acted
    obtain rfl : threads' = _ := threads
    exact .task found (Task.steps_of_step stepped)
  | commitCycle =>
    obtain ⟨⟨s, next⟩, cycled, rfl⟩ := map_eq_some_iff.mp acted
    exact .commitCycle (FollowerState.cycles_of_commitCycle cycled)
  | deliver =>
    obtain ⟨l, found, rfl⟩ := map_eq_some_iff.mp acted
    exact .receive true (.inl (List.mem_of_getElem? found))
  | fetch index =>
    obtain ⟨waited, acted⟩ := ite_none_right_eq_some.mp acted
    obtain ⟨l, found, rfl⟩ := map_eq_some_iff.mp acted
    exact .receive false (.inr ⟨index, waited, found⟩)
  | restart =>
    obtain ⟨s, restarted, rfl⟩ := map_eq_some_iff.mp acted
    obtain ⟨r, created, rfl⟩ := map_eq_some_iff.mp restarted
    exact .restart created

end

end SQLess.Kayak
