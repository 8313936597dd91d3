import SQLess.Kayak.Actions
import SQLess.Kayak.Recovery

/-! The logs of a follower, against the logs that the leader has published. -/

namespace SQLess.Kayak

open Lib List

variable {Req Data : Type}

variable {l : Log Data} {t : Task Req Data} {f : Follower Req Data}

structure Copied (pub logs : List (Log Data)) : Prop where
  known : ∀ l ∈ logs, l ∈ pub
  leading : commits logs <+: commits pub
  prepared : ∀ l ∈ logs, ∀ index, l.Resolves index → ∃ pl ∈ logs, pl.index = index
  linked : ∀ l ∈ commits logs, ∃ last ∈ logs, last.index = l.lastCommit

def Resolving (pub logs : List (Log Data)) (l pl : Log Data) : Prop :=
  l ∈ pub ∧ pl ∈ logs ∧ l.Resolves pl.index

def Linked (logs : List (Log Data)) (l : Log Data) (lastCommit : Nat) : Prop :=
  lastCommit = l.lastCommit ∧ ∃ last ∈ logs, last.index = lastCommit

structure ReqOk (h : Handler Req Data) (pub logs : List (Log Data)) (req : CommitReq Req Data) :
    Prop where
  known : req.log ∈ pub
  commit : req.log.type = .commit
  linked : Linked logs req.log req.lastCommit
  prepared : ∃ pl ∈ logs, pl.index = req.index ∧ req.log.Resolves pl.index ∧
    h.doDecodePayload pl.data = some req.data

def TaskOk (h : Handler Req Data) (pub logs : List (Log Data)) : Task Req Data → Prop
  | .followerApply l _ => l ∈ pub
  | .writePrepare l _ => l ∈ pub ∧ l.type = .prepare
  | .putPrepare l _ => l ∈ pub ∧ l.type = .prepare
  | .markPending l _ => l ∈ logs ∧ l.type = .prepare
  | .getPrepareLog l => l ∈ pub ∧ (l.type = .commit ∨ l.type = .rollback)
  | .checkFinished l pl lastCommit => Resolving pub logs l pl ∧
      (l.type = .commit → Linked logs l lastCommit)
  | .writeRollback l pl => Resolving pub logs l pl ∧ l.type = .rollback
  | .putRollback l pl => Resolving pub logs l pl ∧ l.type = .rollback
  | .commitResult l pl lastCommit => Resolving pub logs l pl ∧ l.type = .commit ∧
      Linked logs l lastCommit
  | .enqueue req => ReqOk h pub logs req
  | .waitForLastCommit req => ReqOk h pub logs req
  | .markFinished l prepareIndex => l ∈ logs ∧ l.Resolves prepareIndex
  | .finish l checkPrepare => checkPrepare = true → l ∈ logs

def CycleOk (h : Handler Req Data) (pub logs : List (Log Data)) (lastCommit : Nat) :
    CommitCycle Req Data → Prop
  | .idle => lastCommit = tip Log.index 0 (commits logs)
  | .received req => lastCommit = tip Log.index 0 (commits logs) ∧ ReqOk h pub logs req
  | .put req => lastCommit = tip Log.index 0 (commits logs) ∧ ReqOk h pub logs req ∧
      req.lastCommit = lastCommit
  | .execute req => ReqOk h pub logs req ∧
      ∃ before, commits logs = before ++ [req.log] ∧ lastCommit = tip Log.index 0 before
  | .store req => ReqOk h pub logs req ∧
      ∃ before, commits logs = before ++ [req.log] ∧ lastCommit = tip Log.index 0 before

structure FollowerOk (h : Handler Req Data) (pub : List (Log Data)) (s : FollowerState Req Data) :
    Prop where
  copied : Copied pub s.rt.wal.logs
  pending : ∀ index ∈ s.rt.pendingPrepares, ∃ l ∈ s.rt.wal.logs, l.index = index ∧ l.type = .prepare
  accepted : ∀ index ∈ s.accepted, ∃ l ∈ s.rt.wal.logs, l.index = index
  waited : ∀ index ∈ s.waitLogMap, ∃ l ∈ pub, l.Names index
  cycle : CycleOk h pub s.rt.wal.logs s.rt.lastCommit s.cycle

def FollowerInv (h : Handler Req Data) (pub : List (Log Data)) : Follower Req Data → Prop :=
  Pool.Holds (FollowerOk h pub) fun s t => TaskOk h pub s.rt.wal.logs t

section

variable {h : Handler Req Data} {pub pub' logs logs' : List (Log Data)}

lemma Resolving.mono (found : Resolving pub logs l pl) (known : ∀ l ∈ pub, l ∈ pub')
    (grows : ∀ l ∈ logs, l ∈ logs') : Resolving pub' logs' l pl :=
  ⟨known l found.1, grows pl found.2.1, found.2.2⟩

lemma Linked.mono (linked : Linked logs l lastCommit) (grows : ∀ l ∈ logs, l ∈ logs') :
    Linked logs' l lastCommit := by
  obtain ⟨named, last, member, same⟩ := linked
  exact ⟨named, last, grows last member, same⟩

lemma ReqOk.mono (ok : ReqOk h pub logs req) (known : ∀ l ∈ pub, l ∈ pub')
    (grows : ∀ l ∈ logs, l ∈ logs') : ReqOk h pub' logs' req := by
  obtain ⟨pl, member, carries⟩ := ok.prepared
  exact ⟨known _ ok.known, ok.commit, ok.linked.mono grows, pl, grows pl member, carries⟩

lemma TaskOk.mono (ok : TaskOk h pub logs t)
    (known : ∀ l ∈ pub, l ∈ pub') (grows : ∀ l ∈ logs, l ∈ logs') : TaskOk h pub' logs' t := by
  cases t with
  | followerApply l => exact known l ok
  | writePrepare l checkPrepare | putPrepare l checkPrepare | getPrepareLog l =>
    exact ⟨known l ok.1, ok.2⟩
  | markPending l checkPrepare | markFinished l prepareIndex => exact ⟨grows l ok.1, ok.2⟩
  | checkFinished =>
    exact ⟨ok.1.mono known grows, fun committed => (ok.2 committed).mono grows⟩
  | writeRollback l pl | putRollback l pl => exact ⟨ok.1.mono known grows, ok.2⟩
  | commitResult =>
    exact ⟨ok.1.mono known grows, ok.2.1, ok.2.2.mono grows⟩
  | enqueue req | waitForLastCommit req => exact ReqOk.mono ok known grows
  | finish l => exact fun checked => grows l (ok checked)

lemma CycleOk.mono (ok : CycleOk h pub logs lastCommit cycle)
    (known : ∀ l ∈ pub, l ∈ pub') (grows : ∀ l ∈ logs, l ∈ logs')
    (same : commits logs' = commits logs) : CycleOk h pub' logs' lastCommit cycle := by
  cases cycle with
  | idle =>
    change lastCommit = tip Log.index 0 (commits logs')
    rw [same]
    exact ok
  | received => exact ⟨by rw [same]; exact ok.1, ok.2.mono known grows⟩
  | put => exact ⟨by rw [same]; exact ok.1, ok.2.1.mono known grows, ok.2.2⟩
  | execute req | store req => exact ⟨ok.1.mono known grows, by rw [same]; exact ok.2⟩

lemma Copied.published (copied : Copied pub logs) (more : Extends pub pub') : Copied pub' logs :=
  ⟨fun l member => more.grows l (copied.known l member), copied.leading.trans more.leads,
    copied.prepared, copied.linked⟩

lemma FollowerInv.published (inv : FollowerInv h pub f)
    (more : Extends pub pub') : FollowerInv h pub' f := by
  have ok := inv.shared
  refine ⟨⟨ok.copied.published more, ok.pending, ok.accepted, ?_, ?_⟩, ?_⟩
  · intro index member
    obtain ⟨l, present, names⟩ := ok.waited index member
    exact ⟨l, more.grows l present, names⟩
  · exact ok.cycle.mono more.grows (fun _ member => member) rfl
  · exact fun t member => (inv.each t member).mono more.grows fun _ member => member

end

section

variable {h : Handler Req Data} {pub : List (Log Data)} {w : Wal Data}

lemma Copied.eq_of_index (issued : Issued pub) (copied : Copied pub logs)
    (known : l ∈ pub) (member : old ∈ logs) (same : old.index = l.index) : old = l :=
  issued.eq_of_index (copied.known old member) known same

lemma Copied.issued (issued : Issued pub) (copied : Copied pub w.logs) : Issued w.logs := by
  refine ⟨w.distinct, ?_, ?_, ?_, issued.chained.leading copied.leading⟩
  · exact fun l member => issued.formed l (copied.known l member)
  · intro l member index resolves
    obtain ⟨pl, present, named⟩ := copied.prepared l member index resolves
    obtain ⟨other, known, otherNamed, type⟩ :=
      issued.prepared l (copied.known l member) index resolves
    have same := copied.eq_of_index issued known present (by rw [named, otherNamed])
    exact ⟨pl, present, named, by rw [same, type]⟩
  · exact fun l member l' member' =>
      issued.once l (copied.known l member) l' (copied.known l' member')

lemma Copied.get_cases (issued : Issued pub) (copied : Copied pub w.logs) (known : l ∈ pub) :
    l ∈ w.logs ∨ w.get l.index = none := by
  cases found : w.get l.index with
  | none => exact .inr rfl
  | some =>
    obtain ⟨present, named⟩ := Wal.get_eq_some.mp found
    exact .inl (copied.eq_of_index issued known present named ▸ present)

lemma Copied.put_grows (issued : Issued pub) (copied : Copied pub w.logs)
    (known : l ∈ pub) : ∀ old ∈ w.logs, old ∈ (w.put l).logs := by
  rcases copied.get_cases issued known with present | absent
  · rw [Wal.put_present present]
    exact fun _ => id
  · exact Wal.put_grows absent

lemma Copied.mem_put (issued : Issued pub) (copied : Copied pub w.logs)
    (known : l ∈ pub) : l ∈ (w.put l).logs := by
  rcases copied.get_cases issued known with present | absent
  · rwa [Wal.put_present present]
  · exact Wal.mem_put absent

lemma Copied.put (issued : Issued pub) (copied : Copied pub w.logs)
    (known : l ∈ pub) (other : l.type ≠ .commit)
    (prepared : ∀ index, l.Resolves index → ∃ pl ∈ w.logs, pl.index = index) :
    Copied pub (w.put l).logs ∧ commits (w.put l).logs = commits w.logs := by
  rcases copied.get_cases issued known with present | absent
  · rw [Wal.put_present present]
    exact ⟨copied, rfl⟩
  · have same := commits_concat_other w.logs other
    rw [Wal.put_absent absent]
    refine ⟨⟨?_, by rw [same]; exact copied.leading, ?_, ?_⟩, same⟩
    · intro old member
      rcases mem_append.mp member with earlier | new
      · exact copied.known old earlier
      · rw [mem_singleton.mp new]
        exact known
    · intro old member index resolves
      have before : ∃ pl ∈ w.logs, pl.index = index := by
        rcases mem_append.mp member with earlier | new
        · exact copied.prepared old earlier index resolves
        · rw [mem_singleton.mp new] at resolves
          exact prepared index resolves
      obtain ⟨pl, present, named⟩ := before
      exact ⟨pl, mem_append_left _ present, named⟩
    · intro old member
      rw [same] at member
      obtain ⟨last, present, named⟩ := copied.linked old member
      exact ⟨last, mem_append_left _ present, named⟩

lemma Copied.next_commit (issued : Issued pub) (copied : Copied pub w.logs)
    (known : l ∈ pub) (committed : l.type = .commit)
    (last : l.lastCommit = tip Log.index 0 (commits w.logs)) :
    w.get l.index = none ∧ commits w.logs ++ [l] <+: commits pub := by
  constructor
  · rw [Wal.get_eq_none]
    intro old member same
    have equal := copied.eq_of_index issued known member same
    have written : l ∈ commits w.logs := mem_commits.mpr ⟨equal ▸ member, committed⟩
    obtain ⟨-, own, bound⟩ := (copied.issued issued).chained.of_mem written
    omega
  · exact issued.chained.next_leading copied.leading (mem_commits.mpr ⟨known, committed⟩) last

lemma Copied.put_commit (issued : Issued pub) (copied : Copied pub w.logs)
    (ok : ReqOk h pub w.logs req) (last : req.lastCommit = tip Log.index 0 (commits w.logs)) :
    Copied pub (w.put req.log).logs ∧
      commits (w.put req.log).logs = commits w.logs ++ [req.log] := by
  obtain ⟨named, lastLog, lastMember, lastNamed⟩ := ok.linked
  obtain ⟨pl, plMember, plNamed, resolves, -⟩ := ok.prepared
  obtain ⟨absent, next⟩ :=
    copied.next_commit issued ok.known ok.commit (by rw [← named, last])
  have snoc := commits_concat w.logs ok.commit
  rw [Wal.put_absent absent]
  refine ⟨⟨?_, by rw [snoc]; exact next, ?_, ?_⟩, snoc⟩
  · intro old member
    rcases mem_append.mp member with earlier | new
    · exact copied.known old earlier
    · rw [mem_singleton.mp new]
      exact ok.known
  · intro old member index names
    rcases mem_append.mp member with earlier | new
    · obtain ⟨other, present, same⟩ := copied.prepared old earlier index names
      exact ⟨other, mem_append_left _ present, same⟩
    · rw [mem_singleton.mp new] at names
      exact ⟨pl, mem_append_left _ plMember, resolves.index_eq names⟩
  · intro old member
    rw [snoc] at member
    rcases mem_append.mp member with earlier | new
    · obtain ⟨other, present, same⟩ := copied.linked old earlier
      exact ⟨other, mem_append_left _ present, same⟩
    · rw [mem_singleton.mp new]
      exact ⟨lastLog, mem_append_left _ lastMember, by rw [lastNamed, named]⟩

lemma getPrepareLog_published (issued : Issued pub) (known : l ∈ pub)
    (type : l.type = .commit ∨ l.type = .rollback) :
    (∃ index, getPrepareLog w l = .blocked index ∧ l.Names index) ∨
      ∃ lastCommit pl, getPrepareLog w l = .done (lastCommit, pl) ∧ Resolving pub w.logs l pl ∧
        (l.type = .commit → Linked w.logs l lastCommit) := by
  have named : ∃ index, l.Resolves index := by
    have other : l.type ≠ .prepare := by
      rcases type with committed | rolledBack
      · simp [committed]
      · simp [rolledBack]
    obtain ⟨index, resolves, -⟩ := (issued.formed l known).resolves other
    exact ⟨index, resolves⟩
  obtain ⟨index, resolves⟩ := named
  have word := resolves.2
  cases found : w.get index with
  | none => exact .inl ⟨index, by simp [getPrepareLog, word, found], .inl word⟩
  | some pl =>
    obtain ⟨present, indexed⟩ := Wal.get_eq_some.mp found
    have resolving : Resolving pub w.logs l pl := ⟨known, present, indexed ▸ resolves⟩
    cases second : l.data.word 1 with
    | none =>
      refine .inr ⟨0, pl, by simp [getPrepareLog, word, found, second], resolving, ?_⟩
      intro committed
      obtain ⟨-, -, last⟩ := issued.commit_words known committed
      simp [second] at last
    | some lastCommit =>
      have same : lastCommit = l.lastCommit := by simp [Log.lastCommit, second]
      cases last : w.get lastCommit with
      | none =>
        exact .inl ⟨lastCommit, by simp [getPrepareLog, word, found, second, last], .inr second⟩
      | some lastLog =>
        obtain ⟨lastMember, lastIndexed⟩ := Wal.get_eq_some.mp last
        exact .inr ⟨lastCommit, pl, by simp [getPrepareLog, word, found, second, last],
          resolving, fun _ => ⟨same, lastLog, lastMember, lastIndexed⟩⟩

end

section

variable {h : Handler Req Data} {pub : List (Log Data)} {s s' : FollowerState Req Data}

structure Kept (h : Handler Req Data) (pub : List (Log Data)) (s s' : FollowerState Req Data)
    (next : List (Task Req Data)) : Prop where
  ok : FollowerOk h pub s'
  started : ∀ t ∈ next, TaskOk h pub s'.rt.wal.logs t
  grows : ∀ l ∈ s.rt.wal.logs, l ∈ s'.rt.wal.logs

variable {next : List (Task Req Data)}

lemma FollowerOk.pass (ok : FollowerOk h pub s)
    (started : ∀ t ∈ next, TaskOk h pub s.rt.wal.logs t) : Kept h pub s s next :=
  ⟨ok, started, fun _ member => member⟩

lemma FollowerOk.wait (ok : FollowerOk h pub s) (known : l ∈ pub) (names : l.Names index) :
    FollowerOk h pub { s with waitLogMap := insert index s.waitLogMap } := by
  refine ⟨ok.copied, ok.pending, ok.accepted, ?_, ok.cycle⟩
  intro other member
  rcases Finset.mem_insert.mp member with new | earlier
  · exact ⟨l, known, new ▸ names⟩
  · exact ok.waited other earlier

lemma FollowerOk.put (issued : Issued pub) (ok : FollowerOk h pub s)
    (known : l ∈ pub) (other : l.type ≠ .commit)
    (prepared : ∀ index, l.Resolves index → ∃ pl ∈ s.rt.wal.logs, pl.index = index) :
    FollowerOk h pub { s with rt := s.rt.putLog l } := by
  obtain ⟨copied, same⟩ := ok.copied.put issued known other prepared
  have grows := ok.copied.put_grows issued known
  refine ⟨copied, ?_, ?_, ok.waited, ok.cycle.mono (fun _ member => member) grows same⟩
  · intro index member
    obtain ⟨pl, present, facts⟩ := ok.pending index member
    exact ⟨pl, grows pl present, facts⟩
  · intro index member
    obtain ⟨pl, present, named⟩ := ok.accepted index member
    exact ⟨pl, grows pl present, named⟩

lemma FollowerOk.finish (ok : FollowerOk h pub s)
    (stored : checkPrepare = true → l ∈ s.rt.wal.logs) : FollowerOk h pub { s with
      rt := s.rt.updateNextIndex l
      accepted := if checkPrepare then insert l.index s.accepted else s.accepted } := by
  rw [updateNextIndex_eq]
  refine ⟨ok.copied, ok.pending, ?_, ok.waited, ok.cycle⟩
  intro index member
  change index ∈ (if checkPrepare then insert l.index s.accepted else s.accepted) at member
  by_cases checked : checkPrepare = true
  · rw [if_pos checked] at member
    rcases Finset.mem_insert.mp member with new | earlier
    · exact ⟨l, stored checked, new.symm⟩
    · exact ok.accepted index earlier
  · rw [if_neg checked] at member
    exact ok.accepted index member

lemma Task.Steps.keeps (steps : t.Steps h s s' next) (issued : Issued pub) (ok : FollowerOk h pub s)
    (task : TaskOk h pub s.rt.wal.logs t) : Kept h pub s s' next := by
  cases steps with
  | drop => exact ok.pass (by simp)
  | apply l checkPrepare type | resolve l checkPrepare type =>
    exact ok.pass (by simpa [TaskOk] using ⟨task, type⟩)
  | ignore => exact ok.pass (by simp [TaskOk])
  | writePrepare l checkPrepare absent | writeRollback l pl absent | requeue req =>
    exact ok.pass (by simpa [TaskOk] using task)
  | putPrepare =>
    obtain ⟨known, type⟩ := task
    refine ⟨ok.put issued known (by simp [type]) ?_, ?_, ok.copied.put_grows issued known⟩
    · exact fun index resolves => absurd type resolves.not_prepare
    · simpa [TaskOk] using ⟨ok.copied.mem_put issued known, type⟩
  | markPending l =>
    obtain ⟨member, type⟩ := task
    refine ⟨⟨ok.copied, ?_, ok.accepted, ok.waited, ok.cycle⟩, ?_, fun _ member => member⟩
    · intro index marked
      rcases Finset.mem_insert.mp marked with new | earlier
      · exact ⟨l, member, new.symm, type⟩
      · exact ok.pending index earlier
    · simp only [mem_singleton, forall_eq, TaskOk]
      exact fun _ => member
  | wait l index blocked =>
    obtain ⟨known, type⟩ := task
    refine ⟨ok.wait known ?_, by simpa [TaskOk] using ⟨known, type⟩, fun _ member => member⟩
    rcases getPrepareLog_published (w := s.rt.wal) issued known type with
      ⟨other, waits, names⟩ | ⟨lastCommit, pl, located, -⟩
    · rw [blocked, Waiting.blocked.injEq] at waits
      exact waits ▸ names
    · simp [blocked] at located
  | getPrepareLog l pl lastCommit located =>
    obtain ⟨known, type⟩ := task
    refine ok.pass ?_
    rcases getPrepareLog_published (w := s.rt.wal) issued known type with
      ⟨index, waits, -⟩ | ⟨lastCommit', pl', found, resolving, linked⟩
    · simp [located] at waits
    · rw [located, Waiting.done.injEq, Prod.mk.injEq] at found
      obtain ⟨rfl, rfl⟩ := found
      simpa [TaskOk] using ⟨resolving, linked⟩
  | rollback l pl lastCommit pending type =>
    exact ok.pass (by simpa [TaskOk] using ⟨task.1, type⟩)
  | commit l pl lastCommit pending type =>
    obtain ⟨resolving, linked⟩ := task
    have committed : l.type = .commit := resolving.2.2.1.resolve_right type
    exact ok.pass (by simpa [TaskOk] using ⟨resolving, committed, linked committed⟩)
  | putRollback l pl =>
    obtain ⟨⟨known, present, resolves⟩, type⟩ := task
    refine ⟨ok.put issued known (by simp [type]) ?_, ?_, ok.copied.put_grows issued known⟩
    · exact fun index names => ⟨pl, present, resolves.index_eq names⟩
    · simpa [TaskOk] using ⟨ok.copied.mem_put issued known, resolves⟩
  | commitResult l pl lastCommit data decoded =>
    obtain ⟨⟨known, present, resolves⟩, committed, linked⟩ := task
    have request : ReqOk h pub s.rt.wal.logs ⟨data, pl.index, lastCommit, l⟩ :=
      ⟨known, committed, linked, pl, present, rfl, resolves, decoded⟩
    exact ok.pass (by simpa [TaskOk] using request)
  | enqueue req idle =>
    have cycle := ok.cycle
    rw [idle] at cycle
    exact ⟨⟨ok.copied, ok.pending, ok.accepted, ok.waited, cycle, task⟩, by simp,
      fun _ member => member⟩
  | waitForLastCommit req =>
    have request : ReqOk h pub s.rt.wal.logs req := task
    obtain ⟨index, -, word⟩ := issued.commit_words request.known request.commit
    refine ⟨ok.wait request.known (.inr ?_), by simpa [TaskOk] using request,
      fun _ member => member⟩
    rw [word, request.linked.1]
  | markFinished =>
    refine ⟨⟨ok.copied, ?_, ok.accepted, ok.waited, ok.cycle⟩, by simp [TaskOk],
      fun _ member => member⟩
    intro index marked
    exact ok.pending index (Finset.mem_of_mem_erase marked)
  | finish =>
    refine ⟨ok.finish task, by simp, ?_⟩
    rw [updateNextIndex_eq]
    exact fun _ member => member

lemma FollowerState.Cycles.keeps (cycles : s.Cycles s' next)
    (issued : Issued pub) (ok : FollowerOk h pub s) : Kept h pub s s' next := by
  have cycle := ok.cycle
  cases cycles with
  | early req stage =>
    rw [stage] at cycle
    exact ⟨⟨ok.copied, ok.pending, ok.accepted, ok.waited, cycle.1⟩,
      by simpa [TaskOk] using cycle.2, fun _ member => member⟩
  | known req stage =>
    rw [stage] at cycle
    exact ⟨⟨ok.copied, ok.pending, ok.accepted, ok.waited, cycle.1⟩, by simp,
      fun _ member => member⟩
  | received req stage last =>
    rw [stage] at cycle
    exact ⟨⟨ok.copied, ok.pending, ok.accepted, ok.waited, cycle.1, cycle.2, last⟩, by simp,
      fun _ member => member⟩
  | put req stage =>
    rw [stage] at cycle
    obtain ⟨settled, request, last⟩ := cycle
    obtain ⟨copied, snoc⟩ := ok.copied.put_commit issued request (by rw [last, settled])
    have grows := ok.copied.put_grows issued request.known
    refine ⟨⟨copied, ?_, ?_, ok.waited, ?_⟩, by simp, grows⟩
    · intro index member
      obtain ⟨pl, present, facts⟩ := ok.pending index member
      exact ⟨pl, grows pl present, facts⟩
    · intro index member
      obtain ⟨pl, present, named⟩ := ok.accepted index member
      exact ⟨pl, grows pl present, named⟩
    · exact ⟨request.mono (fun _ member => member) grows, _, snoc, settled⟩
  | execute req stage =>
    rw [stage] at cycle
    exact ⟨⟨ok.copied, ok.pending, ok.accepted, ok.waited, cycle⟩, by simp, fun _ member => member⟩
  | store req stage =>
    rw [stage] at cycle
    obtain ⟨request, before, snoc, -⟩ := cycle
    obtain ⟨pl, -, named, resolves, -⟩ := request.prepared
    have written : req.log ∈ commits s.rt.wal.logs := by simp [snoc]
    refine ⟨⟨ok.copied, ok.pending, ok.accepted, ok.waited, ?_⟩, ?_, fun _ member => member⟩
    · change req.log.index = tip Log.index 0 (commits s.rt.wal.logs)
      rw [snoc, tip_concat]
    · simpa [TaskOk] using ⟨(mem_commits.mp written).1, named ▸ resolves⟩

lemma FollowerOk.restart (issued : Issued pub) (ok : FollowerOk h pub s)
    (created : newRuntime s.rt.wal = some r) :
    FollowerOk h pub { s with rt := r, waitLogMap := ∅, cycle := .idle } ∧ r.wal = s.rt.wal := by
  have own := ok.copied.issued issued
  have read := newRuntime_readTo own created
  refine ⟨⟨?_, ?_, ?_, by simp, ?_⟩, read.wal⟩
  · rw [read.wal]
    exact ok.copied
  · intro index member
    obtain ⟨⟨l, present, facts⟩, -⟩ := (read.pending index).mp member
    refine ⟨l, ?_, facts⟩
    rw [read.wal]
    exact Wal.mem_read.mp present
  · rw [read.wal]
    exact ok.accepted
  · change r.lastCommit = tip Log.index 0 (commits r.wal.logs)
    rw [read.lastCommit, read.wal, read_commits own]

def Task.marks (index : Nat) : Task Req Data → Bool
  | .markPending l _ => l.index = index
  | _ => false

def Task.claims (index : Nat) : Task Req Data → Bool
  | .writeRollback _ pl => pl.index = index
  | .putRollback _ pl => pl.index = index
  | .commitResult _ pl _ => pl.index = index
  | .enqueue req => req.index = index
  | .waitForLastCommit req => req.index = index
  | _ => false

def Task.finishes (index : Nat) : Task Req Data → Bool
  | .markFinished _ prepareIndex => prepareIndex = index
  | _ => false

inductive TaskEffect (t : Task Req Data) (s s' : FollowerState Req Data)
    (next : List (Task Req Data)) : Prop
  | pass (wal : s'.rt.wal = s.rt.wal) (pending : s'.rt.pendingPrepares = s.rt.pendingPrepares)
      (cycle : s'.cycle = s.cycle) (executed : s'.executed = s.executed)
      (accepted : s.accepted ⊆ s'.accepted)
      (unmarked : ∀ t' ∈ next, ∀ index, t'.marks index = false)
      (claimed : ∀ t' ∈ next, ∀ index, t'.claims index = true →
        t.claims index = true ∨ index ∈ s.rt.pendingPrepares)
      (kept : ∀ index, t.finishes index = false)
  | putPrepare (l : Log Data) (checkPrepare : Bool) (stage : t = .putPrepare l checkPrepare)
      (written : s' = { s with rt := s.rt.putLog l }) (goes : next = [.markPending l checkPrepare])
  | markPending (l : Log Data) (checkPrepare : Bool) (stage : t = .markPending l checkPrepare)
      (marked : s' = { s with rt := s.rt.markPendingPrepare l.index })
      (goes : next = [.finish l checkPrepare])
  | putRollback (l pl : Log Data) (stage : t = .putRollback l pl)
      (written : s' = { s with rt := s.rt.putLog l }) (goes : next = [.markFinished l pl.index])
  | enqueue (req : CommitReq Req Data) (stage : t = .enqueue req) (idle : s.cycle = .idle)
      (received : s' = { s with cycle := .received req }) (goes : next = [])
  | markFinished (l : Log Data) (index : Nat) (stage : t = .markFinished l index)
      (finished : s' = { s with rt := s.rt.markPrepareFinished index })
      (goes : next = [.finish l false])

lemma Task.Steps.effect (steps : t.Steps h s s' next) : TaskEffect t s s' next := by
  have pass : (∀ t' ∈ next, ∀ index, t'.marks index = false) →
      (∀ t' ∈ next, ∀ index, t'.claims index = true →
        t.claims index = true ∨ index ∈ s.rt.pendingPrepares) →
      (∀ index, t.finishes index = false) → TaskEffect t s s next :=
    .pass rfl rfl rfl rfl (Finset.Subset.refl _)
  cases steps with
  | putPrepare l checkPrepare => exact .putPrepare l checkPrepare rfl rfl rfl
  | markPending l checkPrepare => exact .markPending l checkPrepare rfl rfl rfl
  | putRollback l pl => exact .putRollback l pl rfl rfl rfl
  | markFinished l index => exact .markFinished l index rfl rfl rfl
  | enqueue req idle => exact .enqueue req rfl idle rfl rfl
  | drop t unfinished =>
    refine pass (by simp) (by simp) ?_
    intro index
    cases t with
    | markFinished l prepareIndex => exact absurd rfl (unfinished l prepareIndex)
    | _ => rfl
  | rollback l pl lastCommit pending type | commit l pl lastCommit pending type =>
    refine pass (by simp [Task.marks]) ?_ (by simp [Task.finishes])
    intro t' member index claims
    rw [mem_singleton.mp member] at claims
    simp only [Task.claims, decide_eq_true_eq] at claims
    exact .inr (claims ▸ pending)
  | finish l checkPrepare =>
    rw [updateNextIndex_eq]
    refine .pass rfl rfl rfl rfl ?_ (by simp) (by simp) (by simp [Task.finishes])
    change s.accepted ⊆ if checkPrepare then insert l.index s.accepted else s.accepted
    split
    · exact Finset.subset_insert _ _
    · exact Finset.Subset.refl _
  | wait l index blocked | waitForLastCommit req =>
    refine .pass rfl rfl rfl rfl (Finset.Subset.refl _) ?_ ?_ ?_ <;>
      simp [Task.marks, Task.claims, Task.finishes]
  | apply l checkPrepare type | resolve l checkPrepare type | ignore l checkPrepare
  | writePrepare l checkPrepare absent | getPrepareLog l pl lastCommit located
  | writeRollback l pl absent | commitResult l pl lastCommit data decoded | requeue req =>
    refine pass ?_ ?_ ?_ <;> simp [Task.marks, Task.claims, Task.finishes]

lemma FollowerInv.init : FollowerInv h pub (⟨.init, []⟩ : Follower Req Data) := by
  refine ⟨⟨⟨?_, ?_, ?_, ?_⟩, ?_, ?_, ?_, ?_⟩, by simp⟩ <;>
    simp [FollowerState.init, Wal.empty, commits, CycleOk]

lemma FollowerInv.start (inv : FollowerInv h pub f) (kept : Kept h pub f.shared s' next) :
    FollowerInv h pub (f.start (s', next)) :=
  Pool.Holds.start inv kept.ok kept.started fun _ ok =>
    ok.mono (fun _ member => member) kept.grows

lemma FollowerInv.act (issued : Issued pub) (delivered : ∀ l ∈ sent, l ∈ pub)
    (fetched : ∀ index l, (∃ other ∈ pub, other.Names index) → wal.get index = some l → l ∈ pub)
    (inv : FollowerInv h pub f) (acted : f.act h sent wal action = some f') :
    FollowerInv h pub f' := by
  cases Follower.acts_of_act acted with
  | task found steps =>
    have kept := steps.keeps issued inv.shared (inv.each _ (mem_of_getElem? found))
    exact Pool.Holds.resume inv kept.ok kept.started fun _ ok =>
      ok.mono (fun _ member => member) kept.grows
  | commitCycle cycles => exact inv.start (cycles.keeps issued inv.shared)
  | @receive _ l checkPrepare origin =>
    have known : l ∈ pub := by
      rcases origin with sent | ⟨index, waited, found⟩
      · exact delivered l sent
      · exact fetched index l (inv.shared.waited index waited) found
    exact inv.start (inv.shared.pass (by simpa [TaskOk] using known))
  | restart created => exact ⟨(inv.shared.restart issued created).1, by simp⟩

end

end SQLess.Kayak
