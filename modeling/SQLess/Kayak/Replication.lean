import SQLess.Kayak.Follower
import SQLess.Kayak.Published
import SQLess.Kayak.SystemCore

/-!
Invariants of whole runs: the leader's own, and each follower's against what the leader has
published.
-/

namespace SQLess.Kayak

open Lib List Option

variable {Req Data : Type}

structure SystemInv (h : Handler Req Data) (s : System Req Data) : Prop where
  leader : LeaderInv h s.leader
  followers : ∀ node, FollowerInv h s.leader.shared.published (s.followers node)

section

variable {h : Handler Req Data} {config : Config} {mode : Mode} {s s' : System Req Data}

lemma SystemInv.init : SystemInv h (.init : System Req Data) :=
  ⟨.init, fun _ => .init⟩

lemma System.act_cases (acted : s.act h config action = some s') :
    (∃ leaderAction leader, action = .leader leaderAction ∧
      s.leader.act h config (fun node => (s.followers node).shared.accepted) leaderAction =
        some leader ∧ s' = { s with leader := leader }) ∨
      ∃ node followerAction f, action = .follower node followerAction ∧ node ∈ config.followers ∧
        (s.followers node).act h s.leader.shared.sent s.leader.shared.rt.wal followerAction =
          some f ∧ s' = s.setFollower node f := by
  cases action with
  | leader leaderAction =>
    simp only [System.act, map_eq_some_iff] at acted
    obtain ⟨leader, moved, rfl⟩ := acted
    exact .inl ⟨leaderAction, leader, rfl, moved, rfl⟩
  | follower node followerAction =>
    simp only [System.act] at acted
    split at acted
    · rename_i member
      simp only [map_eq_some_iff] at acted
      obtain ⟨f, moved, rfl⟩ := acted
      exact .inr ⟨node, followerAction, f, rfl, member, moved, rfl⟩
    · simp at acted

lemma System.follower_cases (acted : s.act h config action = some s') (node) :
    s'.followers node = s.followers node ∨
      ∃ followerAction, action = .follower node followerAction ∧ s'.leader = s.leader ∧
        (s.followers node).act h s.leader.shared.sent s.leader.shared.rt.wal followerAction =
          some (s'.followers node) := by
  rcases System.act_cases acted with
    ⟨leaderAction, leader, -, -, rfl⟩ | ⟨other, followerAction, f, rfl, -, moved, rfl⟩
  · exact .inl rfl
  · by_cases same : node = other
    · subst same
      exact .inr ⟨followerAction, rfl, rfl, by simpa [System.setFollower] using moved⟩
    · exact .inl (by simp [System.setFollower, same])

lemma SystemInv.act (inv : SystemInv h s) (acted : s.act h config action = some s') :
    SystemInv h s' := by
  have shared := inv.leader.holds.shared
  have more : LeaderInv h s'.leader ∧
      Extends s.leader.shared.published s'.leader.shared.published := by
    rcases System.act_cases acted with
      ⟨leaderAction, leader, -, moved, rfl⟩ | ⟨node, followerAction, f, -, -, -, rfl⟩
    · exact ⟨inv.leader.act moved, (inv.leader.effect moved).extends shared⟩
    · exact ⟨inv.leader, .refl _⟩
  refine ⟨more.1, ?_⟩
  intro node
  rcases System.follower_cases acted node with same | ⟨followerAction, -, leader, moved⟩
  · rw [same]
    exact (inv.followers node).published more.2
  · rw [leader]
    exact (inv.followers node).act shared.issued_published shared.sent
      (fun index l named found => shared.named_published named found) moved

lemma SystemInv.run (ran : Run h config mode .init s) : SystemInv h s := by
  induction ran with
  | refl => exact .init
  | tail _ stepped ih =>
    obtain ⟨action, -, acted⟩ := stepped
    exact ih.act acted

lemma run_of_perform (performed : s.perform h config mode actions = some s') :
    Run h config mode s s' := by
  induction actions generalizing s with
  | nil =>
    simp only [System.perform] at performed
    cases performed
    exact .refl
  | cons action rest ih =>
    simp only [System.perform] at performed
    split at performed
    · rename_i allowed
      split at performed
      · simp at performed
      · rename_i next acted
        exact .head ⟨action, allowed, acted⟩ (ih performed)
    · simp at performed

end

def sampleHandler : Handler Nat Nat where
  encodePayload := some
  decodePayload := some
  decode_encode := by simp

def sampleConfig : Config where
  leader := "leader"
  servers := ["leader", "follower"]
  distinct := by decide
  minPreparedFollowers := 1

def samplePrepare (req : Nat) : List (Action Nat) :=
  .leader (.apply req) :: List.replicate 5 (.leader (.call 0 true))

def sampleAnswer (k : Nat) : List (Action Nat) :=
  .follower "follower" (.deliver k) :: List.replicate 5 (.follower "follower" (.task 0 true)) ++
    [.leader (.reply 0 "follower" none)]

def sampleCommit : List (Action Nat) :=
  List.replicate 4 (.leader (.call 0 true)) ++ List.replicate 5 (.leader .commitCycle) ++
    List.replicate 2 (.leader (.call 0 true))

def sampleFollow (k : Nat) : List (Action Nat) :=
  .follower "follower" (.deliver k) :: List.replicate 5 (.follower "follower" (.task 0 true)) ++
    List.replicate 4 (.follower "follower" .commitCycle) ++
    List.replicate 2 (.follower "follower" (.task 0 true))

def sampleActions : List (Action Nat) :=
  samplePrepare 7 ++ sampleAnswer 0 ++ sampleCommit ++ sampleFollow 1

lemma tip_eq_max {logs : List (Log Data)}
    (chained : Chained Log.index Log.lastCommit 0 (commits logs)) :
    tip Log.index 0 (commits logs) = ((commits logs).map Log.index).max?.getD 0 := by
  rcases eq_nil_or_concat (commits logs) with none | ⟨before, last, snoc⟩
  · simp [none]
  · have greatest : ((commits logs).map Log.index).max? = some last.index := by
      rw [List.max?_eq_some_iff]
      refine ⟨mem_map_of_mem (by simp [snoc]), ?_⟩
      intro index member
      obtain ⟨l, present, rfl⟩ := mem_map.mp member
      have bound := (chained.of_mem present).2.2
      simpa [snoc] using bound
    rw [greatest]
    simp [snoc]

lemma ReadTo.next_eq_max {r : Runtime Data} (read : ReadTo w w.read r) :
    r.nextIndex = (w.logs.map fun l => l.index + 1).max?.getD 0 := by
  rcases read.next with ⟨nothing, zero⟩ | ⟨top, member, next⟩
  · have empty : w.logs = [] := by
      apply eq_nil_iff_forall_not_mem.mpr
      intro l member
      have present := Wal.mem_read.mpr member
      simp [nothing] at present
    simp [empty, zero]
  · have greatest : (w.logs.map fun l => l.index + 1).max? = some r.nextIndex := by
      rw [List.max?_eq_some_iff]
      refine ⟨?_, ?_⟩
      · rw [next]
        exact mem_map.mpr ⟨top, Wal.mem_read.mp member, rfl⟩
      · intro index listed
        obtain ⟨l, present, rfl⟩ := mem_map.mp listed
        exact read.above l (Wal.mem_read.mpr present)
    rw [greatest]
    rfl

lemma Copied.recovers {w : Wal Data} (issued : Issued pub) (copied : Copied pub w.logs) :
    ∃ r, recoverLogs w = .finished r ∧ ReadTo w w.read r := by
  rcases recoverLogs_cases (copied.issued issued) with finished | ⟨-, absent, committed⟩
  · exact finished
  · exfalso
    obtain ⟨first, rest, start⟩ := exists_cons_of_ne_nil committed
    have chained := (copied.issued issued).chained
    rw [start] at chained
    obtain ⟨zero, member, named⟩ := copied.linked first (by simp [start])
    exact Wal.get_eq_none.mp absent zero member (named.trans chained.1)

/-- The write-ahead log of a follower is read to its end, and what was read is what it holds. -/
theorem recoverLogs_finished {h : Handler Req Data} {config : Config} {mode : Mode}
    {s : System Req Data} (ran : Run h config mode .init s) (node : NodeID) :
    ∃ r, recoverLogs (s.followers node).shared.rt.wal = .finished r ∧
      r.wal = (s.followers node).shared.rt.wal ∧
      r.lastCommit = ((commits r.wal.logs).map Log.index).max?.getD 0 ∧
      (∀ index, index ∈ r.pendingPrepares ↔
        (∃ l ∈ r.wal.logs, l.index = index ∧ l.type = .prepare) ∧
          ∀ l ∈ r.wal.logs, ¬l.Resolves index) ∧
      r.nextIndex = (r.wal.logs.map fun l => l.index + 1).max?.getD 0 := by
  have inv := SystemInv.run ran
  have issued := inv.leader.holds.shared.issued_published
  have copied := (inv.followers node).shared.copied
  have own := copied.issued issued
  obtain ⟨r, finished, read⟩ := copied.recovers issued
  refine ⟨r, finished, read.wal, ?_, ?_, ?_⟩
  · rw [read.lastCommit, read_commits own, read.wal, tip_eq_max own.chained]
  · intro index
    rw [read.pending index, read.wal]
    simp only [Wal.mem_read]
  · rw [read.next_eq_max, read.wal]

theorem recoverLogs_finished_sample : ∃ s : System Nat Nat,
    Run sampleHandler sampleConfig ⟨true, false, false⟩ .init s ∧
      (s.followers "follower").shared.rt.wal.logs =
        [⟨0, .prepare, .payload 7⟩, ⟨1, .commit, .words [0, 0]⟩] ∧
      ∃ r, recoverLogs (s.followers "follower").shared.rt.wal = .finished r ∧
        r.lastCommit = 1 ∧ r.nextIndex = 2 := by
  have ran := run_of_perform (show System.init.perform sampleHandler sampleConfig
    ⟨true, false, false⟩ sampleActions = some _ from rfl)
  obtain ⟨r, finished, wal, lastCommit, -, next⟩ := recoverLogs_finished ran "follower"
  rw [wal] at lastCommit next
  exact ⟨_, ran, rfl, r, finished, lastCommit, next⟩

end SQLess.Kayak
