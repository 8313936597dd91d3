import SQLess.Kayak.Actions
import SQLess.Kayak.Recovery

/-! The logs of the leader. -/

namespace SQLess.Kayak

open Lib List LeaderState LeaderCycle Leader

variable {Req Data : Type}

variable {l : Log Data} {index i : Nat} {req : Req} {t t' : ApplyCall Req Data}
  {s : LeaderState Req Data}

def Log.Carries (h : Handler Req Data) (l : Log Data) (req : Req) : Prop :=
  l.type = .prepare ∧ ∃ data, h.encodePayload req = some data ∧ l.data = .payload data

def CallOk (h : Handler Req Data) (s : LeaderState Req Data) : ApplyCall Req Data → Prop
  | .check _ => True
  | .logPrepare req data => h.encodePayload req = some data
  | .writePrepare req l => l.Carries h req ∧ l.index < s.rt.nextIndex
  | .markPending req l => l.Carries h req ∧ l ∈ s.rt.wal.logs
  | .applyRPC req l => l.Carries h req ∧ l ∈ s.rt.wal.logs
  | .poll req l _ => l.Carries h req ∧ l ∈ s.rt.wal.logs
  | .select req l _ _ => l.Carries h req ∧ l ∈ s.rt.wal.logs
  | .collect req l _ _ => l.Carries h req ∧ l ∈ s.rt.wal.logs
  | .enqueue req l _ => l.Carries h req ∧ l ∈ s.rt.wal.logs
  | .waitCommit _ => True
  | .logRollback l => l.type = .prepare ∧ l ∈ s.rt.wal.logs
  | .writeRollback l rollbackLog => l.type = .prepare ∧ l ∈ s.rt.wal.logs ∧
      rollbackLog.type = .rollback ∧ rollbackLog.data = .words [l.index] ∧
      l.index < rollbackLog.index ∧ rollbackLog.index < s.rt.nextIndex
  | .sendRollback _ rollbackLog => rollbackLog.type = .rollback ∧ rollbackLog ∈ s.rt.wal.logs
  | .finish _ => True

def LeaderCycleOk (h : Handler Req Data) (r : Runtime Data) : LeaderCycle Req Data → Prop
  | .idle => r.lastCommit = tip Log.index 0 (commits r.wal.logs)
  | .received req index _ => r.lastCommit = tip Log.index 0 (commits r.wal.logs) ∧
      ∃ pl ∈ r.wal.logs, pl.index = index ∧ pl.Carries h req
  | .write req index _ l => r.lastCommit = tip Log.index 0 (commits r.wal.logs) ∧
      (∃ pl ∈ r.wal.logs, pl.index = index ∧ pl.Carries h req) ∧
      l.type = .commit ∧ l.data = .words [index, r.lastCommit] ∧ index < l.index ∧
      r.lastCommit < l.index ∧ l.index < r.nextIndex
  | .execute req l => (∃ before, commits r.wal.logs = before ++ [l] ∧
      r.lastCommit = tip Log.index 0 before) ∧
      ∃ pl ∈ r.wal.logs, l.Resolves pl.index ∧ pl.Carries h req
  | .store l => ∃ before, commits r.wal.logs = before ++ [l] ∧
      r.lastCommit = tip Log.index 0 before
  | .send l => r.lastCommit = tip Log.index 0 (commits r.wal.logs) ∧ l ∈ r.wal.logs ∧
      l.type = .commit

def LeaderCycle.hidden : LeaderCycle Req Data → Option Nat
  | .execute _ l => some l.index
  | _ => none

def LeaderState.published (s : LeaderState Req Data) : List (Log Data) :=
  s.rt.wal.logs.filter fun l => some l.index ≠ s.cycle.hidden

structure LeaderOk (h : Handler Req Data) (s : LeaderState Req Data) : Prop where
  issued : Issued s.rt.wal.logs
  below : ∀ l ∈ s.rt.wal.logs, l.index < s.rt.nextIndex
  cycle : LeaderCycleOk h s.rt s.cycle
  sent : ∀ l ∈ s.sent, l ∈ s.published

def ApplyCall.owns (index : Nat) : ApplyCall Req Data → Bool
  | .markPending _ l => l.index = index
  | .applyRPC _ l => l.index = index
  | .poll _ l _ => l.index = index
  | .select _ l _ _ => l.index = index
  | .collect _ l _ _ => l.index = index
  | .enqueue _ l _ => l.index = index
  | .logRollback l => l.index = index
  | .writeRollback l _ => l.index = index
  | _ => false

def LeaderCycle.owns (index : Nat) : LeaderCycle Req Data → Nat
  | .received _ prepareIndex _ => if prepareIndex = index then 1 else 0
  | .write _ prepareIndex _ _ => if prepareIndex = index then 1 else 0
  | _ => 0

def Leader.owners (leader : Leader Req Data) (index : Nat) : Nat :=
  leader.threads.countP (ApplyCall.owns index) + leader.shared.cycle.owns index

structure LeaderInv (h : Handler Req Data) (leader : Leader Req Data) : Prop where
  holds : Pool.Holds (LeaderOk h) (CallOk h) leader
  alone : ∀ index, Leader.owners leader index ≤ 1
  unresolved : ∀ index, 0 < Leader.owners leader index →
    ∀ l ∈ leader.shared.rt.wal.logs, ¬l.Resolves index

lemma Log.Resolves.words (data : l.data = .words (first :: rest))
    (resolves : l.Resolves index) : first = index := by
  have word := resolves.2
  simpa [data, LogData.word] using word

lemma Issued.concat (issued : Issued logs) (fresh : ∀ old ∈ logs, old.index ≠ l.index)
    (formed : l.Formed)
    (resolves : ∀ index, l.Resolves index → (∃ pl ∈ logs, pl.index = index ∧ pl.type = .prepare) ∧
      ∀ old ∈ logs, ¬old.Resolves index)
    (last : l.type = .commit → l.lastCommit = tip Log.index 0 (commits logs) ∧
      tip Log.index 0 (commits logs) < l.index) : Issued (logs ++ [l]) := by
  refine ⟨?_, ?_, ?_, ?_, ?_⟩
  · rw [map_append, nodup_append]
    refine ⟨issued.distinct, by simp, ?_⟩
    intro index member other new same
    obtain ⟨old, present, named⟩ := mem_map.mp member
    rw [map_singleton, mem_singleton] at new
    exact fresh old present (by rw [named, same, new])
  · intro old member
    rcases mem_append.mp member with before | new
    · exact issued.formed old before
    · rw [mem_singleton.mp new]
      exact formed
  · intro old member index claims
    rcases mem_append.mp member with before | new
    · obtain ⟨pl, present, named, type⟩ := issued.prepared old before index claims
      exact ⟨pl, mem_append_left _ present, named, type⟩
    · rw [mem_singleton.mp new] at claims
      obtain ⟨⟨pl, present, named, type⟩, -⟩ := resolves index claims
      exact ⟨pl, mem_append_left _ present, named, type⟩
  · intro left leftMember right rightMember index leftClaims rightClaims
    rcases mem_append.mp leftMember with leftBefore | leftNew
    · rcases mem_append.mp rightMember with rightBefore | rightNew
      · exact issued.once left leftBefore right rightBefore index leftClaims rightClaims
      · rw [mem_singleton.mp rightNew] at rightClaims
        exact absurd leftClaims ((resolves index rightClaims).2 left leftBefore)
    · rcases mem_append.mp rightMember with rightBefore | rightNew
      · rw [mem_singleton.mp leftNew] at leftClaims
        exact absurd rightClaims ((resolves index leftClaims).2 right rightBefore)
      · rw [mem_singleton.mp leftNew, mem_singleton.mp rightNew]
  · by_cases committed : l.type = .commit
    · rw [commits_concat _ committed, chained_append]
      exact ⟨issued.chained, (last committed).1, (last committed).2, trivial⟩
    · rw [commits_concat_other _ committed]
      exact issued.chained

lemma Issued.unnamed {w : Wal Data} (issued : Issued w.logs)
    (absent : w.get index = none) : ∀ old ∈ w.logs, ¬old.Resolves index := by
  intro old member resolves
  obtain ⟨pl, present, named, -⟩ := issued.prepared old member index resolves
  exact Wal.get_eq_none.mp absent pl present named

lemma Log.Carries.formed (carries : l.Carries h req) : l.Formed := by
  obtain ⟨index, type, data⟩ := l
  obtain ⟨rfl, payload, -, rfl⟩ := carries
  exact .prepare index payload

section

variable {h : Handler Req Data} {s s' : LeaderState Req Data}

lemma CallOk.mono (ok : CallOk h s t)
    (grows : ∀ l ∈ s.rt.wal.logs, l ∈ s'.rt.wal.logs) (next : s.rt.nextIndex ≤ s'.rt.nextIndex) :
    CallOk h s' t := by
  cases t with
  | check req | waitCommit l | finish l => exact trivial
  | logPrepare => exact ok
  | writePrepare => exact ⟨ok.1, Nat.lt_of_lt_of_le ok.2 next⟩
  | markPending req l | applyRPC req l | poll req l t | select req l t meets
  | collect req l t meets | enqueue req l replies | logRollback l => exact ⟨ok.1, grows l ok.2⟩
  | writeRollback l =>
    obtain ⟨prepared, member, type, data, later, bound⟩ := ok
    exact ⟨prepared, grows l member, type, data, later, Nat.lt_of_lt_of_le bound next⟩
  | sendRollback => exact ⟨ok.1, grows _ ok.2⟩

lemma LeaderCycleOk.mono {r r' cycle} (ok : LeaderCycleOk h r cycle)
    (last : r'.lastCommit = r.lastCommit) (same : commits r'.wal.logs = commits r.wal.logs)
    (grows : ∀ l ∈ r.wal.logs, l ∈ r'.wal.logs) (next : r.nextIndex ≤ r'.nextIndex) :
    LeaderCycleOk h r' cycle := by
  cases cycle with
  | idle =>
    change r'.lastCommit = tip Log.index 0 (commits r'.wal.logs)
    rw [last, same]
    exact ok
  | received =>
    obtain ⟨settled, pl, member, prepared⟩ := ok
    exact ⟨by rw [last, same, settled], pl, grows pl member, prepared⟩
  | write =>
    obtain ⟨settled, ⟨pl, member, prepared⟩, type, data, later, above, bound⟩ := ok
    exact ⟨by rw [last, same, settled], ⟨pl, grows pl member, prepared⟩, type,
      by rw [last, data], later, by rw [last]; exact above, Nat.lt_of_lt_of_le bound next⟩
  | execute =>
    obtain ⟨⟨before, split, settled⟩, pl, member, prepared⟩ := ok
    exact ⟨⟨before, by rw [same, split], by rw [last, settled]⟩, pl, grows pl member, prepared⟩
  | store =>
    obtain ⟨before, split, settled⟩ := ok
    exact ⟨before, by rw [same, split], by rw [last, settled]⟩
  | send l =>
    obtain ⟨settled, member, type⟩ := ok
    exact ⟨by rw [last, same, settled], grows l member, type⟩

lemma mem_published : l ∈ s.published ↔ l ∈ s.rt.wal.logs ∧ some l.index ≠ s.cycle.hidden := by
  simp [published]

lemma published_mono (cycle : s'.cycle = s.cycle)
    (grows : ∀ l ∈ s.rt.wal.logs, l ∈ s'.rt.wal.logs) : ∀ l ∈ s.published, l ∈ s'.published := by
  intro l member
  rw [mem_published] at member ⊢
  rw [cycle]
  exact ⟨grows l member.1, member.2⟩

lemma LeaderCycleOk.hidden {r cycle} (ok : LeaderCycleOk h r cycle)
    (hides : cycle.hidden = some index) :
    ∃ before top, commits r.wal.logs = before ++ [top] ∧ top.index = index := by
  cases cycle with
  | execute req top =>
    obtain ⟨⟨before, last, -⟩, -⟩ := ok
    exact ⟨before, top, last, Option.some.inj hides⟩
  | idle | received req index replies | write req index replies top | store top | send top =>
    simp [LeaderCycle.hidden] at hides

lemma LeaderOk.published_other (ok : LeaderOk h s) (member : l ∈ s.rt.wal.logs)
    (other : l.type ≠ .commit) : l ∈ s.published := by
  rw [mem_published]
  refine ⟨member, ?_⟩
  intro hides
  obtain ⟨before, top, last, same⟩ := ok.cycle.hidden hides.symm
  have written : top ∈ commits s.rt.wal.logs := by simp [last]
  have equal := ok.issued.eq_of_index (mem_commits.mp written).1 member same
  exact other (equal ▸ (mem_commits.mp written).2)

structure LeaderFrame (s s' : LeaderState Req Data) : Prop where
  wal : s'.rt.wal = s.rt.wal
  next : s.rt.nextIndex ≤ s'.rt.nextIndex
  last : s'.rt.lastCommit = s.rt.lastCommit
  cycle : s'.cycle = s.cycle
  sent : ∀ l ∈ s'.sent, l ∈ s.sent ∨ l ∈ s.published

namespace LeaderFrame

lemma refl (s : LeaderState Req Data) : LeaderFrame s s :=
  ⟨rfl, Nat.le_refl _, rfl, rfl, fun _ member => .inl member⟩

lemma newIndex (s : LeaderState Req Data) :
    LeaderFrame s { s with rt := { s.rt with nextIndex := s.rt.nextIndex + 1 } } :=
  ⟨rfl, Nat.le_succ _, rfl, rfl, fun _ member => .inl member⟩

lemma mark (s : LeaderState Req Data) (pending : Finset Nat) :
    LeaderFrame s { s with rt := { s.rt with pendingPrepares := pending } } :=
  ⟨rfl, Nat.le_refl _, rfl, rfl, fun _ member => .inl member⟩

lemma send (visible : l ∈ s.published) : LeaderFrame s { s with sent := s.sent ++ [l] } := by
  refine ⟨rfl, Nat.le_refl _, rfl, rfl, ?_⟩
  intro other member
  rcases mem_append.mp member with before | new
  · exact .inl before
  · exact .inr (mem_singleton.mp new ▸ visible)

lemma grows (frame : LeaderFrame s s') : ∀ l ∈ s.rt.wal.logs, l ∈ s'.rt.wal.logs := by
  rw [frame.wal]
  exact fun _ member => member

lemma keeps (frame : LeaderFrame s s') (ok : LeaderOk h s) : LeaderOk h s' := by
  refine ⟨frame.wal ▸ ok.issued, ?_, ?_, ?_⟩
  · intro l member
    rw [frame.wal] at member
    exact Nat.lt_of_lt_of_le (ok.below l member) frame.next
  · rw [frame.cycle]
    exact ok.cycle.mono frame.last (by rw [frame.wal]) frame.grows frame.next
  · intro l member
    rcases frame.sent l member with before | new
    · exact published_mono frame.cycle frame.grows l (ok.sent l before)
    · exact published_mono frame.cycle frame.grows l new

end LeaderFrame

lemma LeaderOk.below_put (ok : LeaderOk h s) (bound : l.index < s.rt.nextIndex) :
    ∀ old ∈ (s.rt.wal.put l).logs, old.index < s.rt.nextIndex := by
  intro old member
  rcases Wal.mem_of_put member with before | new
  · exact ok.below old before
  · exact new ▸ bound

lemma LeaderOk.put (ok : LeaderOk h s) (absent : s.rt.wal.get l.index = none)
    (bound : l.index < s.rt.nextIndex) (other : l.type ≠ .commit) (formed : l.Formed)
    (resolves : ∀ index, l.Resolves index →
      (∃ pl ∈ s.rt.wal.logs, pl.index = index ∧ pl.type = .prepare) ∧
        ∀ old ∈ s.rt.wal.logs, ¬old.Resolves index) :
    LeaderOk h { s with rt := s.rt.putLog l } := by
  have issued := ok.issued.concat (Wal.get_eq_none.mp absent) formed resolves
    (fun committed => absurd committed other)
  rw [← Wal.put_absent absent] at issued
  have same : commits (s.rt.wal.put l).logs = commits s.rt.wal.logs := by
    rw [Wal.put_absent absent, commits_concat_other _ other]
  have grows := Wal.put_grows absent
  refine ⟨issued, ok.below_put bound, ok.cycle.mono rfl same grows (Nat.le_refl _), ?_⟩
  intro old member
  refine published_mono (s := s) ?_ grows old (ok.sent old member)
  rfl

lemma LeaderOk.putCommit (ok : LeaderOk h s)
    (stage : s.cycle = .write req index replies l) (absent : s.rt.wal.get l.index = none)
    (unresolved : ∀ old ∈ s.rt.wal.logs, ¬old.Resolves index) :
    l.Resolves index ∧ LeaderOk h { s with
      rt := s.rt.putLog l
      cycle := .execute req l
      quorums := s.quorums ++ [(l.index, replies)] } := by
  have cycle := ok.cycle
  rw [stage] at cycle
  obtain ⟨settled, ⟨pl, member, named, carries⟩, type, data, before, above, bound⟩ := cycle
  have resolves : l.Resolves index := ⟨.inl type, by simp [data, LogData.word]⟩
  have formed : l.Formed := by
    obtain ⟨at', _, _⟩ := l
    subst type data
    exact .commit at' index _ before
  have issued := ok.issued.concat (Wal.get_eq_none.mp absent) formed (by
      intro other names
      rw [names.index_eq resolves]
      exact ⟨⟨pl, member, named, carries.1⟩, unresolved⟩)
    (fun _ => ⟨by simp [Log.lastCommit, data, LogData.word, settled], settled ▸ above⟩)
  rw [← Wal.put_absent absent] at issued
  have snoc : commits (s.rt.wal.put l).logs = commits s.rt.wal.logs ++ [l] := by
    rw [Wal.put_absent absent, commits_concat _ type]
  have grows := Wal.put_grows absent
  refine ⟨resolves, issued, ok.below_put bound,
    ⟨⟨_, snoc, settled⟩, pl, grows pl member, named.symm ▸ resolves, carries⟩, ?_⟩
  intro old present
  obtain ⟨earlier, -⟩ := mem_published.mp (ok.sent old present)
  refine mem_published.mpr ⟨grows old earlier, ?_⟩
  simp only [LeaderCycle.hidden, ne_eq, Option.some.injEq]
  exact Wal.get_eq_none.mp absent old earlier

end

section

variable {h : Handler Req Data} {config : Config} {leader leader' : Leader Req Data}

lemma LeaderInv.owner_present (inv : LeaderInv h leader) (owned : 0 < Leader.owners leader index) :
    ∃ pl ∈ leader.shared.rt.wal.logs, pl.index = index := by
  by_cases called : 0 < leader.threads.countP (ApplyCall.owns index)
  · obtain ⟨t, member, owns⟩ := countP_pos_iff.mp called
    have ok := inv.holds.each t member
    cases t with
    | markPending req l | applyRPC req l | poll req l t | select req l t meets
    | collect req l t meets | enqueue req l replies | logRollback l =>
      exact ⟨l, ok.2, of_decide_eq_true owns⟩
    | writeRollback l => exact ⟨l, ok.2.1, of_decide_eq_true owns⟩
    | check req | logPrepare req data | writePrepare req l | waitCommit l
    | sendRollback l rollbackLog | finish l => simp [ApplyCall.owns] at owns
  · have cycled : 0 < leader.shared.cycle.owns index := by
      rw [owners] at owned
      omega
    have ok := inv.holds.shared.cycle
    cases stage : leader.shared.cycle with
    | received =>
      rw [stage] at ok cycled
      simp only [owns] at cycled
      split at cycled
      · rename_i same
        obtain ⟨-, pl, member, named, -⟩ := ok
        exact ⟨pl, member, named.trans same⟩
      · omega
    | write =>
      rw [stage] at ok cycled
      simp only [owns] at cycled
      split at cycled
      · rename_i same
        obtain ⟨-, ⟨pl, member, named, -⟩, -⟩ := ok
        exact ⟨pl, member, named.trans same⟩
      · omega
    | idle | execute req l | store l | send l => simp [stage, owns] at cycled

lemma owners_resume (s next) (found : leader.threads[i]? = some t) (index) :
    Leader.owners ⟨s, resume leader.threads i next⟩ index + [t].countP (ApplyCall.owns index) +
        leader.shared.cycle.owns index =
      Leader.owners leader index + next.countP (ApplyCall.owns index) + s.cycle.owns index := by
  have count := countP_resume next (ApplyCall.owns index) found
  simp only [owners]
  omega

section

variable (inv : LeaderInv h leader)
include inv

lemma LeaderInv.step (holds : Pool.Holds (LeaderOk h) (CallOk h) leader')
    (fewer : ∀ index, Leader.owners leader' index ≤ Leader.owners leader index)
    (resolved : ∀ l ∈ leader'.shared.rt.wal.logs, l ∉ leader.shared.rt.wal.logs →
      ∀ index, l.Resolves index → Leader.owners leader' index = 0) : LeaderInv h leader' := by
  refine ⟨holds, ?_, ?_⟩
  · intro index
    exact Nat.le_trans (fewer index) (inv.alone index)
  · intro index owned l member resolves
    have before : 0 < owners leader index := Nat.lt_of_lt_of_le owned (fewer index)
    by_cases old : l ∈ leader.shared.rt.wal.logs
    · exact inv.unresolved index before l old resolves
    · have none := resolved l member old index resolves
      omega

lemma LeaderInv.quiet {next} (found : leader.threads[i]? = some t)
    (wal : s.rt.wal = leader.shared.rt.wal) (bound : leader.shared.rt.nextIndex ≤ s.rt.nextIndex)
    (shared : LeaderOk h s) (new : ∀ t' ∈ next, CallOk h s t')
    (fewer : ∀ index, next.countP (ApplyCall.owns index) + s.cycle.owns index ≤
      [t].countP (ApplyCall.owns index) + leader.shared.cycle.owns index) :
    LeaderInv h ⟨s, resume leader.threads i next⟩ := by
  refine inv.step ⟨shared, ?_⟩ ?_ ?_
  · intro t' member
    rcases mem_resume member with started | kept
    · exact new t' started
    · exact (inv.holds.each t' kept).mono (by rw [wal]; exact fun _ member => member) bound
  · intro index
    have count := owners_resume s next found index
    have less := fewer index
    omega
  · intro l member old
    change l ∈ s.rt.wal.logs at member
    rw [wal] at member
    exact absurd member old

lemma LeaderInv.goes (found : leader.threads[i]? = some t)
    (frame : LeaderFrame leader.shared s) (new : CallOk h s t')
    (owns : ∀ index, t'.owns index = true → t.owns index = true) :
    LeaderInv h ⟨s, resume leader.threads i [t']⟩ := by
  refine inv.quiet found frame.wal frame.next (frame.keeps inv.holds.shared) (by simpa using new) ?_
  intro index
  rw [frame.cycle, countP_singleton, countP_singleton]
  by_cases owned : t'.owns index = true
  · rw [if_pos owned, if_pos (owns index owned)]
  · rw [if_neg owned]
    omega

lemma LeaderInv.ends (found : leader.threads[i]? = some t)
    (frame : LeaderFrame leader.shared s) : LeaderInv h ⟨s, resume leader.threads i []⟩ := by
  refine inv.quiet found frame.wal frame.next (frame.keeps inv.holds.shared) (by simp) ?_
  intro index
  rw [frame.cycle, countP_nil]
  omega

lemma LeaderInv.put (written : s = { leader.shared with rt := leader.shared.rt.putLog l })
    (absent : leader.shared.rt.wal.get l.index = none)
    (shared : LeaderOk h s) (new : CallOk h s t')
    (alone : ∀ index, owners ⟨s, resume leader.threads i [t']⟩ index ≤ 1)
    (unresolved : ∀ index, 0 < owners ⟨s, resume leader.threads i [t']⟩ index →
      (∀ old ∈ leader.shared.rt.wal.logs, ¬old.Resolves index) ∧ ¬l.Resolves index) :
    LeaderInv h ⟨s, resume leader.threads i [t']⟩ := by
  subst written
  refine ⟨⟨shared, ?_⟩, alone, ?_⟩
  · intro t'' member
    rcases mem_resume member with started | kept
    · rw [mem_singleton.mp started]
      exact new
    · exact (inv.holds.each t'' kept).mono (Wal.put_grows absent) (Nat.le_refl _)
  · intro index owned old member
    obtain ⟨before, last⟩ := unresolved index owned
    rcases Wal.mem_of_put member with earlier | top
    · exact before old earlier
    · exact top ▸ last

lemma LeaderInv.writePrepare (found : leader.threads[i]? = some (.writePrepare req l))
    (absent : leader.shared.rt.wal.get l.index = none)
    (written : s = { leader.shared with rt := leader.shared.rt.putLog l }) :
    LeaderInv h ⟨s, resume leader.threads i [.markPending req l]⟩ := by
  have shared := inv.holds.shared
  obtain ⟨carries, bound⟩ := inv.holds.each _ (mem_of_getElem? found)
  have inert : ∀ index, ¬l.Resolves index := fun _ resolves => resolves.not_prepare carries.1
  have unowned : owners leader l.index = 0 := by
    by_contra owned
    obtain ⟨pl, member, named⟩ := inv.owner_present (Nat.pos_of_ne_zero owned)
    exact Wal.get_eq_none.mp absent pl member named
  have cycle : s.cycle = leader.shared.cycle := by rw [written]
  have count := owners_resume s [.markPending req l] found
  simp only [countP_singleton, ApplyCall.owns, decide_eq_true_eq, Bool.false_eq_true,
    if_false, Nat.add_zero, cycle] at count
  refine inv.put written absent ?_ ?_ ?_ ?_
  · rw [written]
    exact shared.put absent bound (by simp [carries.1]) carries.formed fun index resolves =>
      absurd resolves (inert index)
  · rw [written]
    exact ⟨carries, Wal.mem_put absent⟩
  · intro index
    have total := count index
    have before := inv.alone index
    by_cases same : l.index = index
    · rw [if_pos same] at total
      rw [← same] at total ⊢
      omega
    · rw [if_neg same] at total
      omega
  · intro index owned
    refine ⟨?_, inert index⟩
    by_cases same : l.index = index
    · rw [← same]
      exact shared.issued.unnamed absent
    · have total := count index
      rw [if_neg same] at total
      exact inv.unresolved index (by omega)

lemma LeaderInv.writeRollback (found : leader.threads[i]? = some (.writeRollback l rollbackLog))
    (absent : leader.shared.rt.wal.get rollbackLog.index = none)
    (written : s = { leader.shared with rt := leader.shared.rt.putLog rollbackLog }) :
    LeaderInv h ⟨s, resume leader.threads i [.sendRollback l rollbackLog]⟩ := by
  obtain ⟨prepared, member, type, data, before, bound⟩ :=
    inv.holds.each _ (mem_of_getElem? found)
  have formed : rollbackLog.Formed := by
    obtain ⟨index, _, _⟩ := rollbackLog
    subst type data
    exact .rollback index l.index before
  have cycle : s.cycle = leader.shared.cycle := by rw [written]
  have count := owners_resume s [.sendRollback l rollbackLog] found
  simp only [countP_singleton, ApplyCall.owns, decide_eq_true_eq, Bool.false_eq_true,
    if_false, Nat.add_zero, cycle] at count
  have owned : 0 < owners leader l.index := by
    have total := count l.index
    rw [if_pos rfl] at total
    omega
  refine inv.put written absent ?_ ?_ ?_ ?_
  · rw [written]
    refine inv.holds.shared.put absent bound (by simp [type]) formed ?_
    intro index resolves
    rw [← resolves.words data]
    exact ⟨⟨l, member, rfl, prepared⟩, inv.unresolved l.index owned⟩
  · rw [written]
    exact ⟨type, Wal.mem_put absent⟩
  · intro index
    have total := count index
    have single := inv.alone index
    omega
  · intro index left
    have total := count index
    have single := inv.alone index
    refine ⟨inv.unresolved index (by omega), ?_⟩
    intro resolves
    rw [if_pos (resolves.words data)] at total
    omega

lemma LeaderInv.enqueue (found : leader.threads[i]? = some (.enqueue req l replies))
    (idle : leader.shared.cycle = .idle) :
    LeaderInv h ⟨{ leader.shared with cycle := .received req l.index replies },
      resume leader.threads i [.waitCommit l]⟩ := by
  have shared := inv.holds.shared
  obtain ⟨carries, written⟩ := inv.holds.each _ (mem_of_getElem? found)
  have settled := shared.cycle
  rw [idle] at settled
  refine inv.quiet found rfl (Nat.le_refl _)
    ⟨shared.issued, shared.below, ⟨settled, l, written, rfl, carries⟩, ?_⟩ (by simp [CallOk]) ?_
  · intro other member
    obtain ⟨present, -⟩ := mem_published.mp (shared.sent other member)
    exact mem_published.mpr ⟨present, by simp [LeaderCycle.hidden]⟩
  · intro index
    by_cases same : l.index = index <;> simp [ApplyCall.owns, owns, same]

lemma LeaderInv.call {next} (found : leader.threads[i]? = some t)
    (steps : t.Steps h config leader.shared s next) :
    LeaderInv h ⟨s, resume leader.threads i next⟩ := by
  have shared := inv.holds.shared
  have ok := inv.holds.each t (mem_of_getElem? found)
  cases steps with
  | refuse => exact inv.ends found (.refl _)
  | check req data encoded => exact inv.goes found (.refl _) encoded (by simp [ApplyCall.owns])
  | logPrepare req data =>
    exact inv.goes found (.newIndex _) ⟨⟨rfl, data, ok, rfl⟩, Nat.lt_succ_self _⟩
      (by simp [ApplyCall.owns])
  | writePrepare req l absent => exact inv.writePrepare found absent rfl
  | markPending => exact inv.goes found (.mark _ _) ok fun _ owned => owned
  | applyRPC =>
    have visible := shared.published_other ok.2 (by simp [ok.1.1])
    exact inv.goes found (.send visible) ok fun _ owned => owned
  | poll req l t | complete req l t meets done | timeout req l t meets
  | collect =>
    exact inv.goes found (.refl _) ok fun _ owned => owned
  | fail =>
    exact inv.goes found (.refl _) ⟨ok.1.1, ok.2⟩ fun _ owned => owned
  | enqueue req l replies idle => exact inv.enqueue found idle
  | giveUp req l replies | waitCommit l =>
    exact inv.goes found (.refl _) trivial (by simp [ApplyCall.owns])
  | logRollback l =>
    exact inv.goes found (.newIndex _)
      ⟨ok.1, ok.2, rfl, rfl, shared.below l ok.2, Nat.lt_succ_self _⟩ fun _ owned => owned
  | writeRollback l rollbackLog absent => exact inv.writeRollback found absent rfl
  | sendRollback =>
    have visible := shared.published_other ok.2 (by simp [ok.1])
    exact inv.goes found (.send visible) trivial (by simp [ApplyCall.owns])
  | finish => exact inv.ends found (.mark _ _)

lemma LeaderInv.reply (found : leader.threads[i]? = some t) (answered : t.Answered node err l t') :
    LeaderInv h ⟨leader.shared, resume leader.threads i [t']⟩ := by
  have ok := inv.holds.each t (mem_of_getElem? found)
  cases answered with
  | poll req l t called | select req l t meets called | collect req l t meets called =>
    exact inv.goes found (.refl _) ok fun _ owned => owned

lemma LeaderInv.cycled (shared : LeaderOk h s)
    (grows : ∀ l ∈ leader.shared.rt.wal.logs, l ∈ s.rt.wal.logs)
    (bound : leader.shared.rt.nextIndex ≤ s.rt.nextIndex)
    (fewer : ∀ index, s.cycle.owns index ≤ leader.shared.cycle.owns index)
    (resolved : ∀ l ∈ s.rt.wal.logs, l ∉ leader.shared.rt.wal.logs → ∀ index, l.Resolves index →
      s.cycle.owns index < leader.shared.cycle.owns index) : LeaderInv h ⟨s, leader.threads⟩ := by
  refine inv.step ⟨shared, fun t member => (inv.holds.each t member).mono grows bound⟩ ?_ ?_
  · intro index
    have less := fewer index
    simp only [owners]
    omega
  · intro l member new index resolves
    have less := resolved l member new index resolves
    have alone := inv.alone index
    simp only [owners] at alone ⊢
    omega

lemma LeaderInv.commitCycle
    (acted : leader.shared.commitCycle = some s) : LeaderInv h ⟨s, leader.threads⟩ := by
  have shared := inv.holds.shared
  have cycle := shared.cycle
  have written : ∀ l ∈ leader.shared.sent, l ∈ leader.shared.rt.wal.logs := fun l member =>
    (mem_published.mp (shared.sent l member)).1
  cases cycles_of_commitCycle acted with
  | received req index replies stage =>
    rw [stage] at cycle
    obtain ⟨settled, pl, member, named, carries⟩ := cycle
    have before := shared.below pl member
    have above : leader.shared.rt.lastCommit < leader.shared.rt.nextIndex := by
      rw [settled]
      exact tip_lt (by omega) fun l committed => shared.below l (mem_commits.mp committed).1
    refine inv.cycled ⟨shared.issued, ?_, ?_, ?_⟩ (fun _ member => member) (Nat.le_succ _) ?_
      (fun l present new => absurd present new)
    · exact fun l present => Nat.lt_succ_of_lt (shared.below l present)
    · exact ⟨settled, ⟨pl, member, named, carries⟩, rfl, rfl, named ▸ before, above,
        Nat.lt_succ_self _⟩
    · exact fun l sent => mem_published.mpr
        ⟨written l sent, by simp [LeaderCycle.hidden]⟩
    · intro index
      rw [stage]
      exact Nat.le_refl _
  | write req index replies l stage absent =>
    have owned : leader.shared.cycle.owns index = 1 := by simp [stage, owns]
    have unresolved : ∀ old ∈ leader.shared.rt.wal.logs, ¬old.Resolves index := by
      apply inv.unresolved index
      rw [owners, owned]
      omega
    obtain ⟨resolves, next⟩ := shared.putCommit stage absent unresolved
    refine inv.cycled next (Wal.put_grows absent) (Nat.le_refl _) (fun _ => Nat.zero_le _) ?_
    intro old present new other names
    rcases Wal.mem_of_put present with earlier | top
    · exact absurd earlier new
    · rw [top] at names
      rw [names.index_eq resolves, owned]
      exact Nat.zero_lt_one
  | execute req l stage =>
    rw [stage] at cycle
    refine inv.cycled ⟨shared.issued, shared.below, cycle.1, ?_⟩ (fun _ member => member)
      (Nat.le_refl _) (fun _ => Nat.zero_le _) (fun l present new => absurd present new)
    exact fun l sent => mem_published.mpr ⟨written l sent, by simp [LeaderCycle.hidden]⟩
  | store l stage =>
    rw [stage] at cycle
    obtain ⟨before, last, -⟩ := cycle
    obtain ⟨present, type⟩ := mem_commits.mp (show l ∈ commits _ by rw [last]; simp)
    refine inv.cycled ⟨shared.issued, shared.below, ⟨?_, present, type⟩, ?_⟩
      (fun _ member => member) (Nat.le_refl _) (fun _ => Nat.zero_le _)
      (fun l present new => absurd present new)
    · simp [last]
    · exact fun l sent => mem_published.mpr
        ⟨written l sent, by simp [LeaderCycle.hidden]⟩
  | send l stage =>
    rw [stage] at cycle
    refine inv.cycled ⟨shared.issued, shared.below, cycle.1, ?_⟩ (fun _ member => member)
      (Nat.le_refl _) (fun _ => Nat.zero_le _) (fun l present new => absurd present new)
    intro other member
    rw [mem_published]
    rcases mem_append.mp member with earlier | new
    · exact ⟨written other earlier, by simp [LeaderCycle.hidden]⟩
    · rw [mem_singleton.mp new]
      exact ⟨cycle.2.1, by simp [LeaderCycle.hidden]⟩

lemma LeaderInv.restart (acted : leader.shared.restart = some s) : LeaderInv h ⟨s, []⟩ := by
  have shared := inv.holds.shared
  simp only [LeaderState.restart, Option.map_eq_some_iff] at acted
  obtain ⟨r, created, rfl⟩ := acted
  have read := newRuntime_readTo shared.issued created
  refine ⟨⟨⟨?_, ?_, ?_, ?_⟩, by simp⟩, ?_, ?_⟩
  · rw [read.wal]
    exact shared.issued
  · intro l member
    change l ∈ r.wal.logs at member
    rw [read.wal] at member
    exact read.above l (Wal.mem_read.mpr member)
  · change r.lastCommit = tip Log.index 0 (commits r.wal.logs)
    rw [read.lastCommit, read.wal, read_commits shared.issued]
  · intro l member
    rw [mem_published]
    refine ⟨?_, by simp [LeaderCycle.hidden]⟩
    change l ∈ r.wal.logs
    rw [read.wal]
    exact (mem_published.mp (shared.sent l member)).1
  · intro index
    simp [owners, owns]
  · intro index owned
    simp [owners, owns] at owned

end

lemma LeaderInv.init : LeaderInv h (⟨.init, []⟩ : Leader Req Data) := by
  refine ⟨⟨⟨?_, ?_, ?_, ?_⟩, by simp⟩, ?_, ?_⟩
  · constructor <;> simp [LeaderState.init, Wal.empty, commits, Chained]
  · simp [LeaderState.init, Wal.empty]
  · simp [LeaderState.init, Wal.empty, LeaderCycleOk, commits]
  · simp [LeaderState.init]
  · intro index
    simp [owners, LeaderState.init, owns]
  · intro index owned
    simp [owners, LeaderState.init, owns] at owned

lemma LeaderInv.act (inv : LeaderInv h leader)
    (acted : leader.act h config accepted action = some leader') : LeaderInv h leader' := by
  cases acts_of_act acted with
  | apply req =>
    have holds : Pool.Holds (LeaderOk h) (CallOk h) (leader.start (leader.shared, [.check req])) :=
      inv.holds.start inv.holds.shared (by simp [CallOk]) fun _ ok => ok
    refine inv.step holds ?_ fun l member new => absurd member new
    intro index
    simp [owners, Pool.start, ApplyCall.owns]
  | call found steps => exact inv.call found steps
  | reply found answered => exact inv.reply found answered
  | commitCycle cycled => exact inv.commitCycle cycled
  | restart restarted => exact inv.restart restarted

end

end SQLess.Kayak
