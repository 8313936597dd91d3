import SQLess.Kayak.Replication

/-! Commit logs and the replies to their prepare logs. -/

namespace SQLess.Kayak

open Lib List LeaderState Option

variable {Req Data : Type}

structure TrackerOk (config : Config) (accepted : NodeID → Finset Nat) (index : Nat)
    (t : Tracker) : Prop where
  minCount : min config.minPreparedFollowers config.followers.length ≤ t.minCount
  calls : t.calls.Nodup
  waiting : ∀ node ∈ t.calls, node ∈ config.followers ∧ node ∉ t.errors.keys
  replied : ∀ node ∈ t.errors.keys, node ∈ config.followers
  complete : t.errors.keys.card = t.complete
  done : t.done = true → t.minCount ≤ t.complete
  accepted : ∀ node, t.errors.get node = some none → index ∈ accepted node

structure Quorum (config : Config) (accepted : NodeID → Finset Nat) (index : Nat)
    (replies : Replies) : Prop where
  enough : min config.minPreparedFollowers config.followers.length ≤ replies.keys.card
  replied : ∀ node ∈ replies.keys, node ∈ config.followers
  success : ∀ node ∈ replies.keys, replies.get node = some none
  accepted : ∀ node ∈ replies.keys, index ∈ accepted node

def CallQuorum (config : Config) (accepted : NodeID → Finset Nat) : ApplyCall Req Data → Prop
  | .poll _ l t => TrackerOk config accepted l.index t
  | .select _ l t meets =>
    TrackerOk config accepted l.index t ∧ (meets = true → t.minCount ≤ t.complete)
  | .collect _ l t meets =>
    TrackerOk config accepted l.index t ∧ (meets = true → t.minCount ≤ t.complete)
  | .enqueue _ l replies => Quorum config accepted l.index replies
  | _ => True

def CycleQuorum (config : Config) (accepted : NodeID → Finset Nat) : LeaderCycle Req Data → Prop
  | .received _ index replies => Quorum config accepted index replies
  | .write _ index replies _ => Quorum config accepted index replies
  | _ => True

def QuorumInv (config : Config) (accepted : NodeID → Finset Nat) : Leader Req Data → Prop :=
  Pool.Holds (fun s => CycleQuorum config accepted s.cycle)
    fun _ call => CallQuorum config accepted call

section

variable {config : Config} {accepted accepted' : NodeID → Finset Nat} {index : Nat} {t : Tracker}

lemma TrackerOk.send : TrackerOk config accepted index
    (.send config.followers config.minPreparedFollowers) := by
  refine ⟨?_, config.distinct.filter _, ?_, ?_, rfl, ?_, ?_⟩
  · simp only [Tracker.send]
    split <;> split <;> omega
  · intro node member
    exact ⟨member, by simp [Tracker.send]⟩
  · simp [Tracker.send]
  · intro zero
    simp only [Tracker.send, decide_eq_true_eq] at zero ⊢
    omega
  · simp [Tracker.send]

section

variable (ok : TrackerOk config accepted index t)
include ok

lemma TrackerOk.callSingle (called : node ∈ t.calls)
    (success : err = none → index ∈ accepted node) :
    TrackerOk config accepted index (t.callSingle node err) := by
  obtain ⟨follower, new⟩ := ok.waiting node called
  have counted : (insert node t.errors.keys).card = t.complete + 1 := by
    rw [Finset.card_insert_of_notMem new, ok.complete]
  refine ⟨ok.minCount, ok.calls.erase node, ?_, ?_, counted, ?_, ?_⟩
  · intro other member
    obtain ⟨different, waiting⟩ := ok.calls.mem_erase_iff.mp member
    obtain ⟨otherFollower, otherNew⟩ := ok.waiting other waiting
    refine ⟨otherFollower, ?_⟩
    change other ∉ insert node t.errors.keys
    simp [different, otherNew]
  · intro other member
    rcases Finset.mem_insert.mp member with same | earlier
    · exact same ▸ follower
    · exact ok.replied other earlier
  · intro done
    change t.minCount ≤ t.complete + 1
    simp only [Tracker.callSingle, Bool.or_eq_true, decide_eq_true_eq] at done
    rcases done with earlier | enough
    · have before := ok.done earlier
      omega
    · exact enough
  · intro other replied
    simp only [Tracker.callSingle, FiniteMap.get_insert] at replied
    by_cases same : other = node
    · rw [if_pos same, Option.some.injEq] at replied
      exact same ▸ success replied
    · rw [if_neg same] at replied
      exact ok.accepted other replied

lemma TrackerOk.quorum (enough : t.minCount ≤ t.complete) (summary : errorSummary t.errors = none) :
    Quorum config accepted index t.errors := by
  have success : ∀ node ∈ t.errors.keys, t.errors.get node = some none := by
    intro node member
    unfold errorSummary at summary
    split at summary
    · simp at summary
    · rename_i clean
      have present := (t.errors.mem_keys node).mp member
      obtain ⟨err, found⟩ := isSome_iff_exists.mp present
      cases err with
      | none => exact found
      | some => exact absurd ⟨node, member, by simp [found]⟩ clean
  refine ⟨?_, ok.replied, success, fun node member => ok.accepted node (success node member)⟩
  have bound := ok.minCount
  have count := ok.complete
  omega

lemma TrackerOk.mono
    (grows : ∀ node, accepted node ⊆ accepted' node) : TrackerOk config accepted' index t :=
  ⟨ok.minCount, ok.calls, ok.waiting, ok.replied, ok.complete, ok.done,
    fun node replied => grows node (ok.accepted node replied)⟩

end

lemma Quorum.mono (quorum : Quorum config accepted index replies)
    (grows : ∀ node, accepted node ⊆ accepted' node) : Quorum config accepted' index replies :=
  ⟨quorum.enough, quorum.replied, quorum.success,
    fun node member => grows node (quorum.accepted node member)⟩

end

section

variable {h : Handler Req Data} {config : Config} {accepted accepted' : NodeID → Finset Nat}
  {leader leader' : Leader Req Data}

lemma QuorumInv.mono (inv : QuorumInv config accepted leader)
    (grows : ∀ node, accepted node ⊆ accepted' node) : QuorumInv config accepted' leader := by
  obtain ⟨shared, each⟩ := inv
  refine ⟨?_, ?_⟩
  · cases stage : leader.shared.cycle with
    | received req index replies | write req index replies l =>
      rw [stage] at shared
      exact Quorum.mono shared grows
    | idle | execute req l | store l | send l => exact trivial
  · intro call member
    have known := each call member
    cases call with
    | poll => exact TrackerOk.mono known grows
    | select req l t meets | collect req l t meets => exact ⟨known.1.mono grows, known.2⟩
    | enqueue => exact Quorum.mono known grows
    | check req | logPrepare req data | writePrepare req l | markPending req l | applyRPC req l
    | waitCommit l | logRollback l | writeRollback l rollbackLog | sendRollback l rollbackLog
    | finish => exact trivial

lemma ApplyCall.Steps.quorum {call next s s'} (steps : call.Steps h config s s' next)
    (shared : CycleQuorum config accepted s.cycle) (known : CallQuorum config accepted call) :
    CycleQuorum config accepted s'.cycle ∧ ∀ t ∈ next, CallQuorum config accepted t := by
  cases steps with
  | applyRPC => exact ⟨shared, by simpa [CallQuorum] using TrackerOk.send⟩
  | poll req l t =>
    have tracker : TrackerOk config accepted l.index t := known
    exact ⟨shared, by simpa [CallQuorum] using ⟨tracker, tracker.done⟩⟩
  | complete req l t meets done =>
    exact ⟨shared, by simpa [CallQuorum] using ⟨known.1, known.1.done done⟩⟩
  | timeout => exact ⟨shared, by simpa [CallQuorum] using known⟩
  | collect req l t meets enough clean =>
    obtain ⟨tracker, met⟩ := known
    have count : t.minCount ≤ t.complete := by
      rcases enough with early | counted
      · exact met early
      · exact tracker.complete ▸ counted
    exact ⟨shared, by simpa [CallQuorum] using tracker.quorum count clean⟩
  | enqueue => exact ⟨known, by simp [CallQuorum]⟩
  | refuse req | check req data encoded | logPrepare req data | writePrepare req l absent
  | markPending req l | fail req l t meets | giveUp req l replies | waitCommit l | logRollback l
  | writeRollback l rollbackLog absent | sendRollback l rollbackLog | finish l =>
    exact ⟨shared, by simp [CallQuorum]⟩

lemma ApplyCall.Answered.quorum {call next : ApplyCall Req Data}
    (answered : call.Answered node err l next) (known : CallQuorum config accepted call)
    (success : err = none → l.index ∈ accepted node) : CallQuorum config accepted next := by
  cases answered with
  | poll req l t called => exact TrackerOk.callSingle known called success
  | select req l t meets called | collect req l t meets called =>
    obtain ⟨tracker, met⟩ := known
    refine ⟨tracker.callSingle called success, ?_⟩
    exact fun early => Nat.le_succ_of_le (met early)

lemma LeaderState.Cycles.quorum {s s' : LeaderState Req Data} (cycles : s.Cycles s')
    (shared : CycleQuorum config accepted s.cycle) : CycleQuorum config accepted s'.cycle := by
  cases cycles with
  | received req index replies stage =>
    rw [stage] at shared
    exact shared
  | write req index replies l stage absent | execute req l stage | store l stage
  | send => exact trivial

lemma QuorumInv.act (inv : QuorumInv config accepted leader)
    (acted : leader.act h config accepted action = some leader') :
    QuorumInv config accepted leader' := by
  cases Leader.acts_of_act acted with
  | apply =>
    exact Pool.Holds.start inv inv.shared (by simp [CallQuorum]) fun _ known => known
  | call found steps =>
    obtain ⟨shared, started⟩ :=
      steps.quorum inv.shared (inv.each _ (mem_of_getElem? found))
    exact Pool.Holds.resume inv shared started fun _ known => known
  | reply found answered success =>
    have known := answered.quorum (inv.each _ (mem_of_getElem? found)) success
    exact Pool.Holds.resume inv inv.shared (by simpa using known) fun _ known => known
  | commitCycle cycled =>
    exact ⟨(cycles_of_commitCycle cycled).quorum inv.shared, inv.each⟩
  | restart restarted =>
    obtain ⟨r, -, rfl⟩ := map_eq_some_iff.mp restarted
    exact ⟨trivial, by simp⟩

end

lemma Follower.act_accepted {f f' : Follower Req Data} {action sent wal}
    (acted : f.act h sent wal action = some f') : f.shared.accepted ⊆ f'.shared.accepted := by
  cases Follower.acts_of_act acted with
  | task found steps =>
    cases steps.effect with
    | pass _ _ _ _ accepted => exact accepted
    | putPrepare _ _ _ changed | markPending _ _ _ changed | putRollback _ _ _ changed
    | enqueue _ _ _ changed | markFinished _ _ _ changed =>
      rw [changed]
  | commitCycle cycles => cases cycles <;> exact Finset.Subset.refl _
  | receive checkPrepare origin | restart created => exact Finset.Subset.refl _

def System.accepted (s : System Req Data) (node : NodeID) : Finset Nat :=
  (s.followers node).shared.accepted

section

variable {h : Handler Req Data} {config : Config} {mode : Mode} {s s' : System Req Data}

lemma System.act_accepted (acted : s.act h config action = some s') (node) :
    s.accepted node ⊆ s'.accepted node := by
  rcases System.follower_cases acted node with same | ⟨followerAction, -, -, moved⟩
  · rw [System.accepted, System.accepted, same]
  · exact Follower.act_accepted moved

lemma QuorumInv.run (ran : Run h config mode .init s) : QuorumInv config s.accepted s.leader := by
  induction ran with
  | refl => exact ⟨trivial, by simp [System.init]⟩
  | tail _ stepped ih =>
    obtain ⟨action, -, acted⟩ := stepped
    have grows := System.act_accepted acted
    rcases System.act_cases acted with
      ⟨leaderAction, leader, -, moved, rfl⟩ | ⟨node, followerAction, f, -, -, -, rfl⟩
    · exact ih.act moved
    · exact ih.mono grows

lemma LeaderEffect.commit_written {action before after l} (ok : LeaderOk h before)
    (effect : LeaderEffect action before after) (written : l ∈ after.rt.wal.logs)
    (new : l ∉ before.rt.wal.logs) (committed : l.type = .commit) :
    ∃ req index replies, before.cycle = .write req index replies l ∧
      after.quorums = before.quorums ++ [(l.index, replies)] := by
  cases effect with
  | quiet wal => exact absurd (wal ▸ written) new
  | receive req index replies idle received =>
    subst received
    exact absurd written new
  | put other noCommit absent wal =>
    rw [wal, Wal.put_absent absent] at written
    rcases mem_append.mp written with earlier | same
    · exact absurd earlier new
    · rw [mem_singleton.mp same] at committed
      exact absurd committed noCommit
  | cycled acted =>
    cases cycles_of_commitCycle acted with
    | write req index replies other stage =>
      rcases Wal.mem_of_put written with earlier | same
      · exact absurd earlier new
      · exact ⟨req, index, replies, same ▸ stage, by rw [same]⟩
    | received req index replies stage | execute req other stage | store other stage
    | send => exact absurd written new
  | restarted crash acted =>
    obtain ⟨wal, -⟩ := restart_wal acted ok.issued
    exact absurd (wal ▸ written) new

/-- When the leader writes a commit log, enough distinct followers have its prepare log and
have replied without error, and no other log resolves the prepare log. -/
theorem commit_prepared (ran : Run h config mode .init s) (stepped : Step h config mode s s')
    {l : Log Data} (written : l ∈ s'.leader.shared.rt.wal.logs)
    (new : l ∉ s.leader.shared.rt.wal.logs) (committed : l.type = .commit) :
    ∃ pl ∈ s.leader.shared.rt.wal.logs, pl.type = .prepare ∧ l.Resolves pl.index ∧
      (∃ replies : Replies,
        s'.leader.shared.quorums = s.leader.shared.quorums ++ [(l.index, replies)] ∧
        min config.minPreparedFollowers config.followers.length ≤ replies.keys.card ∧
        ∀ node ∈ replies.keys, node ∈ config.followers ∧ replies.get node = some none ∧
          pl ∈ (s.followers node).shared.rt.wal.logs) ∧
      ∀ other ∈ s'.leader.shared.rt.wal.logs, other.Resolves pl.index → other = l := by
  have inv := SystemInv.run ran
  have quorums := QuorumInv.run ran
  have shared := inv.leader.holds.shared
  obtain ⟨action, -, acted⟩ := stepped
  have after := inv.act acted
  rcases System.act_cases acted with
    ⟨leaderAction, leader, -, moved, rfl⟩ | ⟨node, followerAction, f, -, -, moved, rfl⟩
  · obtain ⟨req, index, replies, stage, recorded⟩ :=
      (inv.leader.effect moved).commit_written shared written new committed
    have cycle := shared.cycle
    rw [stage] at cycle
    obtain ⟨-, ⟨pl, member, named, carries⟩, -, data, -⟩ := cycle
    have quorum : Quorum config s.accepted index replies := by
      have known := quorums.shared
      rw [stage] at known
      exact known
    have resolves : l.Resolves pl.index := ⟨.inl committed, by simp [data, LogData.word, named]⟩
    refine ⟨pl, member, carries.1, resolves, ⟨replies, recorded, quorum.enough, ?_⟩, ?_⟩
    · intro node replied
      refine ⟨quorum.replied node replied, quorum.success node replied, ?_⟩
      obtain ⟨copy, present, same⟩ :=
        (inv.followers node).shared.accepted index (quorum.accepted node replied)
      have known := (inv.followers node).shared.copied.known copy present
      have equal := shared.issued.eq_of_index (mem_published.mp known).1 member
        (by rw [same, named])
      exact equal ▸ present
    · intro other present names
      exact after.leader.holds.shared.issued.once other present l written pl.index names resolves
  · exact absurd written new

theorem commit_prepared_sample : ∃ s s' : System Nat Nat,
    Run sampleHandler sampleConfig ⟨true, false, false⟩ .init s ∧
      Step sampleHandler sampleConfig ⟨true, false, false⟩ s s' ∧
      s.leader.shared.rt.wal.logs = [⟨0, .prepare, .payload 7⟩] ∧
      s'.leader.shared.rt.wal.logs = [⟨0, .prepare, .payload 7⟩, ⟨1, .commit, .words [0, 0]⟩] ∧
      ∃ replies : Replies, s'.leader.shared.quorums = [(1, replies)] ∧
        1 ≤ replies.keys.card ∧ ∀ node ∈ replies.keys,
          ⟨0, .prepare, .payload 7⟩ ∈ (s.followers node).shared.rt.wal.logs := by
  have ran := run_of_perform (show System.init.perform sampleHandler sampleConfig
    ⟨true, false, false⟩ (sampleActions.take 18) = some _ from rfl)
  obtain ⟨pl, member, -, -, ⟨replies, recorded, enough, known⟩, -⟩ :=
    commit_prepared (l := ⟨1, .commit, .words [0, 0]⟩) ran ⟨.leader .commitCycle, rfl, rfl⟩
      (by decide) (by decide) rfl
  obtain rfl := mem_singleton.mp member
  have quorum : ((1 : Nat) : Int) ≤ replies.keys.card := enough
  exact ⟨_, _, ran, ⟨.leader .commitCycle, rfl, rfl⟩, rfl, rfl, replies, recorded,
    Int.ofNat_le.mp quorum, fun node replied => (known node replied).2.2⟩

end

end SQLess.Kayak
