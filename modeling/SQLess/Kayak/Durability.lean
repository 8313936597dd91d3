import SQLess.Kayak.Quorum

/-! The write-ahead logs of the followers, wherever nodes end and start again. -/

namespace SQLess.Kayak

open Lib List

variable {Req Data : Type} {h : Handler Req Data} {config : Config} {mode : Mode}

lemma FollowerInv.keeps_logs
    (issued : Issued pub) (inv : FollowerInv h pub f) (acted : f.act h sent wal action = some f') :
    ∀ l ∈ f.shared.rt.wal.logs, l ∈ f'.shared.rt.wal.logs := by
  cases Follower.acts_of_act acted with
  | task found steps =>
    exact (steps.keeps issued inv.shared (inv.each _ (mem_of_getElem? found))).grows
  | commitCycle cycles => exact (cycles.keeps issued inv.shared).grows
  | receive => exact fun _ member => member
  | restart created => exact fun _ member => (inv.shared.restart issued created).2 ▸ member

def System.logs (s : System Req Data) (node : NodeID) : List (Log Data) :=
  (s.followers node).shared.rt.wal.logs

variable {s s' : System Req Data} {l : Log Data}

lemma SystemInv.keeps_logs (inv : SystemInv h s) (acted : s.act h config action = some s') (node) :
    ∀ l ∈ (s.followers node).shared.rt.wal.logs, l ∈ (s'.followers node).shared.rt.wal.logs := by
  rcases System.follower_cases acted node with same | ⟨followerAction, -, -, moved⟩
  · exact fun _ member => by rwa [same]
  · exact (inv.followers node).keeps_logs inv.leader.holds.shared.issued_published moved

/-- No follower loses a log, logs with one index are the same on all followers, and the commit
logs of one of two followers are a leading part of those of the other. -/
theorem logs_agree (ran : Run h config mode .init s) (later : Run h config mode s s')
    (node node' : NodeID) : (∀ l ∈ s.logs node, l ∈ s'.logs node) ∧
      (∀ l ∈ s'.logs node, ∀ l' ∈ s'.logs node', l.index = l'.index → l = l') ∧
      (commits (s'.logs node) <+: commits (s'.logs node') ∨
        commits (s'.logs node') <+: commits (s'.logs node)) := by
  have kept : ∀ l ∈ s.logs node, l ∈ s'.logs node := by
    induction later with
    | refl => exact fun _ member => member
    | tail before stepped ih =>
      obtain ⟨action, -, acted⟩ := stepped
      intro l member
      exact (SystemInv.run (ran.trans before)).keeps_logs acted node l (ih l member)
  have inv := SystemInv.run (ran.trans later)
  have left := (inv.followers node).shared.copied
  have right := (inv.followers node').shared.copied
  refine ⟨kept, fun l member l' member' => ?_,
    prefix_or_prefix_of_prefix left.leading right.leading⟩
  exact inv.leader.holds.shared.issued_published.eq_of_index (left.known l member)
    (right.known l' member')

theorem logs_agree_restarted : ∃ s s' : System Nat Nat,
    s.act sampleHandler sampleConfig (.follower "follower" .restart) = some s' ∧
      s'.logs "follower" = [⟨0, .prepare, .payload 7⟩, ⟨1, .commit, .words [0, 0]⟩] ∧
      ∀ l ∈ s.logs "follower", l ∈ s'.logs "follower" := by
  have ran := run_of_perform (show System.init.perform sampleHandler sampleConfig
    ⟨true, false, false⟩ (sampleActions.take 32) = some _ from rfl)
  exact ⟨_, _, rfl, rfl,
    (logs_agree ran (.single ⟨.follower "follower" .restart, rfl, rfl⟩) _ "follower").1⟩

def Replicated (config : Config) (s : System Req Data) (l : Log Data) : Prop :=
  ∃ pl : Log Data, pl.type = .prepare ∧ l.Resolves pl.index ∧ ∃ nodes : Finset NodeID,
    min config.minPreparedFollowers config.followers.length ≤ nodes.card ∧
      ∀ node ∈ nodes, node ∈ config.followers ∧ pl ∈ s.logs node

lemma Replicated.act (replicated : Replicated config s l) (inv : SystemInv h s)
    (acted : s.act h config action = some s') : Replicated config s' l := by
  obtain ⟨pl, type, resolves, nodes, enough, stored⟩ := replicated
  exact ⟨pl, type, resolves, nodes, enough, fun node listed =>
    ⟨(stored node listed).1, inv.keeps_logs acted node pl (stored node listed).2⟩⟩

lemma replicated_written (inv : SystemInv h s) (quorums : QuorumInv config s.accepted s.leader)
    (stage : s.leader.shared.cycle = .write req index replies l)
    (committed : l.type = .commit) : Replicated config s l := by
  have shared := inv.leader.holds.shared
  have cycle := shared.cycle
  have quorum : CycleQuorum config s.accepted s.leader.shared.cycle := quorums.shared
  rw [stage] at cycle quorum
  obtain ⟨-, ⟨pl, member, named, carries⟩, -, data, -⟩ := cycle
  have resolves : l.Resolves pl.index := ⟨.inl committed, by simp [data, LogData.word, named]⟩
  refine ⟨pl, carries.1, resolves, replies.keys, quorum.enough, fun node replied => ?_⟩
  have follower := (inv.followers node).shared
  obtain ⟨copy, present, same⟩ := follower.accepted index (quorum.accepted node replied)
  have known := (mem_published.mp (follower.copied.known copy present)).1
  exact ⟨quorum.replied node replied,
    shared.issued.eq_of_index known member (same.trans named.symm) ▸ present⟩

/-- At every moment the request of every commit log of the leader is in the logs of enough
followers. -/
theorem committed_replicated (ran : Run h config mode .init s)
    (member : l ∈ s.leader.shared.rt.wal.logs) (committed : l.type = .commit) :
    Replicated config s l := by
  induction ran with
  | refl => cases member
  | @tail s s' before stepped ih =>
    obtain ⟨action, -, acted⟩ := stepped
    have inv := SystemInv.run before
    refine Replicated.act ?_ inv acted
    by_cases old : l ∈ s.leader.shared.rt.wal.logs
    · exact ih old
    · rcases System.act_cases acted with
        ⟨leaderAction, leader, -, moved, rfl⟩ | ⟨node, followerAction, f, -, -, -, rfl⟩
      · obtain ⟨req, index, replies, stage, -⟩ :=
          (inv.leader.effect moved).commit_written inv.leader.holds.shared member old committed
        exact replicated_written inv (QuorumInv.run before) stage committed
      · exact absurd member old

theorem committed_replicated_sample : ∃ s : System Nat Nat,
    Run sampleHandler sampleConfig ⟨true, false, false⟩ .init s ∧
      Replicated sampleConfig s ⟨1, .commit, .words [0, 0]⟩ := by
  have ran := run_of_perform (show System.init.perform sampleHandler sampleConfig
    ⟨true, false, false⟩ sampleActions = some _ from rfl)
  exact ⟨_, ran, committed_replicated ran (by decide) rfl⟩

end SQLess.Kayak
