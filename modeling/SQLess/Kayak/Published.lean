import SQLess.Kayak.Leader

/-! What the leader does to its write-ahead log, and what the followers can see of it. -/

namespace SQLess.Kayak

open Lib List LeaderState

variable {Req Data : Type}

inductive LeaderEffect (action : LeaderAction Req) (s s' : LeaderState Req Data) : Prop
  | quiet (wal : s'.rt.wal = s.rt.wal) (cycle : s'.cycle = s.cycle)
      (executed : s'.executed = s.executed) (quorums : s'.quorums = s.quorums)
  | receive (req : Req) (index : Nat) (replies : Replies) (idle : s.cycle = .idle)
      (received : s' = { s with cycle := .received req index replies })
  | put (l : Log Data) (other : l.type ≠ .commit) (absent : s.rt.wal.get l.index = none)
      (wal : s'.rt.wal = s.rt.wal.put l) (cycle : s'.cycle = s.cycle)
      (executed : s'.executed = s.executed) (quorums : s'.quorums = s.quorums)
  | cycled (acted : s.commitCycle = some s')
  | restarted (crash : action = .restart) (acted : s.restart = some s')

section

variable {h : Handler Req Data} {config : Config} {leader leader' : Leader Req Data}

lemma ApplyCall.Steps.effect {t next s s'} (steps : t.Steps h config s s' next)
    (ok : CallOk h s t) (action) : LeaderEffect action s s' := by
  cases steps with
  | writePrepare req l absent => exact .put l (by simp [ok.1.1]) absent rfl rfl rfl rfl
  | writeRollback l rollbackLog absent =>
    exact .put rollbackLog (by simp [ok.2.2.1]) absent rfl rfl rfl rfl
  | enqueue req l replies idle => exact .receive req l.index replies idle rfl
  | _ => exact .quiet rfl rfl rfl rfl

lemma LeaderInv.effect (inv : LeaderInv h leader)
    (acted : leader.act h config accepted action = some leader') :
    LeaderEffect action leader.shared leader'.shared := by
  cases Leader.acts_of_act acted with
  | apply req | reply found answered success => exact .quiet rfl rfl rfl rfl
  | call found steps => exact steps.effect (inv.holds.each _ (mem_of_getElem? found)) _
  | commitCycle cycled => exact .cycled cycled
  | restart restarted => exact .restarted rfl restarted

end

section

variable {h : Handler Req Data} {s s' : LeaderState Req Data}

lemma published_eq (exposed : s.cycle.hidden = none) : s.published = s.rt.wal.logs := by
  simp [LeaderState.published, exposed]

section

variable (ok : LeaderOk h s)
include ok

lemma LeaderOk.published_execute (stage : s.cycle = .execute req l) :
    commits s.rt.wal.logs = commits s.published ++ [l] := by
  have cycle := ok.cycle
  rw [stage] at cycle
  obtain ⟨⟨before, last, -⟩, -⟩ := cycle
  have sorted := ok.issued.chained.pairwise
  have published : commits s.published =
      (commits s.rt.wal.logs).filter fun other => some other.index ≠ s.cycle.hidden := by
    simp only [commits, LeaderState.published, filter_filter, Bool.and_comm]
  rw [last] at sorted published
  have earlier : ∀ other ∈ before, other.index < l.index := by
    intro other member
    exact (pairwise_append.mp sorted).2.2 other member l (by simp)
  have kept : (before.filter fun other => some other.index ≠ s.cycle.hidden) = before := by
    rw [filter_eq_self]
    intro other member
    have below := earlier other member
    simp only [stage, LeaderCycle.hidden, ne_eq, Option.some.injEq, decide_eq_true_eq]
    omega
  rw [published, last, filter_append, kept]
  simp [stage, LeaderCycle.hidden]

lemma LeaderOk.leading : commits s.published <+: commits s.rt.wal.logs := by
  cases stage : s.cycle with
  | execute =>
    rw [ok.published_execute stage]
    exact prefix_append _ _
  | idle | received req index replies | write req index replies l | store l | send l =>
    rw [published_eq (by rw [stage]; rfl)]

lemma LeaderOk.issued_published : Issued s.published := by
  have written : ∀ l ∈ s.published, l ∈ s.rt.wal.logs := fun l member =>
    (mem_published.mp member).1
  refine ⟨?_, ?_, ?_, ?_, ok.issued.chained.leading ok.leading⟩
  · exact (filter_sublist.map Log.index).nodup ok.issued.distinct
  · exact fun l member => ok.issued.formed l (written l member)
  · intro l member index resolves
    obtain ⟨pl, present, named, type⟩ := ok.issued.prepared l (written l member) index resolves
    exact ⟨pl, ok.published_other present (by simp [type]), named, type⟩
  · exact fun l member l' member' => ok.issued.once l (written l member) l' (written l' member')

lemma LeaderOk.named_published (named : ∃ other ∈ s.published, other.Names index)
    (found : s.rt.wal.get index = some l) : l ∈ s.published := by
  obtain ⟨other, member, names⟩ := named
  obtain ⟨present, rfl⟩ := Wal.get_eq_some.mp found
  by_cases committed : l.type = .commit
  · rw [mem_published]
    refine ⟨present, ?_⟩
    intro hides
    cases stage : s.cycle with
    | execute req hidden =>
      -- the hidden log is the last commit log, and only later ones could name it
      have last := ok.published_execute stage
      have hiddenMember : hidden ∈ commits s.rt.wal.logs := by simp [last]
      rw [stage, LeaderCycle.hidden, Option.some.injEq] at hides
      have same := ok.issued.eq_of_index present (mem_commits.mp hiddenMember).1 hides
      have written := (mem_published.mp member).1
      rcases ok.issued.named written present names with prepared | ⟨later, pointer⟩
      · simp [committed] at prepared
      · have sorted := ok.issued.chained.pairwise
        have own := (ok.issued.chained.of_mem (mem_commits.mpr ⟨written, later⟩)).2.1
        rw [last] at sorted
        have before := (pairwise_append.mp sorted).2.2 other
          (mem_commits.mpr ⟨member, later⟩) hidden (by simp)
        rw [same] at pointer
        omega
    | idle | received req index replies | write req index replies l | store l | send l =>
      simp [stage, LeaderCycle.hidden] at hides
  · exact ok.published_other present committed

lemma LeaderOk.extends_exposed (wal : s'.rt.wal = s.rt.wal)
    (exposed : s'.cycle.hidden = none) : Extends s.published s'.published := by
  rw [published_eq exposed, wal]
  exact ⟨fun l member => (mem_published.mp member).1, ok.leading⟩

lemma LeaderOk.extends_cycled (acted : s.commitCycle = some s') :
    Extends s.published s'.published := by
  cases cycles_of_commitCycle acted with
  | received req index replies stage | execute req l stage | store l stage | send l stage =>
    exact ok.extends_exposed rfl rfl
  | write req index replies l stage absent =>
    have fresh := Wal.get_eq_none.mp absent
    have same : LeaderState.published
        { s with
          rt := s.rt.putLog l
          cycle := .execute req l
          quorums := s.quorums ++ [(l.index, replies)] } = s.published := by
      rw [published_eq (s := s) (by rw [stage]; rfl)]
      simp only [LeaderState.published, Runtime.putLog, Wal.put_absent absent,
        LeaderCycle.hidden, filter_append]
      rw [filter_eq_self.mpr (by simpa using fresh)]
      simp
    rw [same]
    exact .refl _

end

lemma restart_wal (acted : s.restart = some s') (issued : Issued s.rt.wal.logs) :
    s'.rt.wal = s.rt.wal ∧ s'.cycle = .idle ∧ s'.executed = s.executed ∧
      s'.quorums = s.quorums := by
  simp only [LeaderState.restart, Option.map_eq_some_iff] at acted
  obtain ⟨r, created, rfl⟩ := acted
  exact ⟨(newRuntime_readTo issued created).wal, rfl, rfl, rfl⟩

lemma LeaderEffect.extends (ok : LeaderOk h s) (effect : LeaderEffect action s s') :
    Extends s.published s'.published := by
  cases effect with
  | quiet wal cycle =>
    have same : s'.published = s.published := by simp only [LeaderState.published, wal, cycle]
    rw [same]
    exact .refl _
  | receive req index replies idle received =>
    subst received
    exact ok.extends_exposed rfl rfl
  | put l other absent wal cycle =>
    have grown : s'.published = s.published ++
        [l].filter fun new => some new.index ≠ s.cycle.hidden := by
      simp only [LeaderState.published, wal, cycle, Wal.put_absent absent, filter_append]
    rw [grown]
    refine ⟨fun old member => mem_append_left _ member, ?_⟩
    simp only [commits, filter_append]
    exact prefix_append _ _
  | cycled acted => exact ok.extends_cycled acted
  | restarted crash acted =>
    obtain ⟨wal, cycle, -, -⟩ := restart_wal acted ok.issued
    exact ok.extends_exposed wal (by rw [cycle]; rfl)

end

end SQLess.Kayak
