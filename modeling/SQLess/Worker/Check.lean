import SQLess.SQLChain.Steps
import SQLess.Worker.CheckCore

/-! Replay protection of the check. -/

namespace SQLess.Worker

open List Call

open Lib (FiniteMap Pool Always run run_invariant)
open SQLess.Types (Crypto Request)

variable {Query : Type} {crypto : Crypto Query} {pool pool' : Pool Shared (Call Query)}

variable {i : Nat} {req : Request Query}

lemma verifySequence_eq_ok {db : Database} : db.verifySequence connID seqNo = .ok () ↔
      ∀ last, db.connSeqs.get connID = some last → last < seqNo := by
  rw [Database.verifySequence]
  cases db.connSeqs.get connID with
  | none => simp
  | some last =>
    by_cases old : seqNo ≤ last
    · simp [old]
    · simpa [old] using UInt64.not_le.mp old

/-- A call that no other call interrupts does what `check` does. -/
lemma Call.action_check (nowTime s) (rawReq : Option (Request Query)) : ∃ s' req,
    Relation.ReflTransGen (fun before after : Shared × Call Query =>
        before.2.action crypto nowTime before.1 = some (after.1, [after.2]))
      (s, .called rawReq) (s', .returned req (s.db.check crypto nowTime rawReq).2) ∧
    s'.db = (s.db.check crypto nowTime rawReq).1 := by
  unfold Database.check
  cases verified : s.db.verifyRequest crypto nowTime rawReq with
  | error => exact ⟨s, rawReq, .single (by simp [action, verified]), rfl⟩
  | ok req =>
    cases fresh : s.db.verifySequence req.header.connectionID req.header.seqNo with
    | error =>
      refine ⟨s, some req, .head (b := (s, .verifying req)) ?_ (.single ?_), ?_⟩
      all_goals simp [action, verified, fresh]
    | ok =>
      refine ⟨⟨s.db.recordSequence req.header.connectionID req.header.seqNo,
        s.recorded ++ [sequence req]⟩, some req, .head (b := (s, .verifying req)) ?_
          (.head (b := (s, .recording req)) ?_ (.single ?_)), ?_⟩
      all_goals simp [action, verified, fresh]

lemma Call.action_cases {nowTime s s'} {call : Call Query} {next}
    (acted : call.action crypto nowTime s = some (s', next)) :
    (s' = s ∧ call.succeeded = none ∧ ∃ later, next = [later] ∧ later.succeeded = none ∧
      ∀ req, later ≠ .recording req) ∨
    (∃ req, call = .verifying req ∧ s' = s ∧ next = [.recording req] ∧
      s.db.verifySequence req.header.connectionID req.header.seqNo = .ok ()) ∨
    ∃ req, call = .recording req ∧ next = [.returned (some req) (.ok ())] ∧
      s' = ⟨s.db.recordSequence req.header.connectionID req.header.seqNo,
        s.recorded ++ [sequence req]⟩ := by
  cases call with
  | called rawReq =>
    left
    simp only [action] at acted
    cases verified : s.db.verifyRequest crypto nowTime rawReq with
    | error =>
      simp only [verified] at acted
      cases acted
      exact ⟨rfl, rfl, _, rfl, by cases rawReq <;> rfl, nofun⟩
    | ok =>
      simp only [verified] at acted
      cases acted
      exact ⟨rfl, rfl, _, rfl, rfl, nofun⟩
  | verifying req =>
    simp only [action] at acted
    cases verified : s.db.verifySequence req.header.connectionID req.header.seqNo with
    | error =>
      left
      simp only [verified] at acted
      cases acted
      exact ⟨rfl, rfl, _, rfl, rfl, nofun⟩
    | ok =>
      simp only [verified] at acted
      cases acted
      exact .inr (.inl ⟨req, rfl, rfl, rfl, verified⟩)
  | recording req =>
    cases acted
    exact .inr (.inr ⟨req, rfl, rfl, rfl⟩)
  | returned => exact nomatch acted

lemma accepted_move {call next} (found : pool.threads[i]? = some call)
    (threads : pool'.threads = Lib.resume pool.threads i next) :
    (accepted pool' ++ [call].filterMap Call.succeeded).Perm
      (accepted pool ++ next.filterMap Call.succeeded) := by
  rw [accepted, accepted, threads, ← filterMap_append, ← filterMap_append]
  exact (Lib.resume_perm next found).filterMap succeeded

lemma accepted_step (event) (stepped : step crypto pool event = some pool')
    (recorded : (accepted pool).Perm pool.shared.recorded) :
    (accepted pool').Perm pool'.shared.recorded := by
  cases event with
  | check =>
    cases stepped
    simpa [accepted, Pool.start, filterMap_cons, succeeded] using recorded
  | step =>
    obtain ⟨call, next, found, acted, threads⟩ := Pool.move_eq_some stepped
    have moved := accepted_move found threads
    rcases action_cases acted with ⟨same, quiet, later, rfl, silent, -⟩ |
      ⟨req, rfl, same, rfl, -⟩ | ⟨req, rfl, rfl, same⟩
    · rw [same]
      simp only [filterMap_cons, filterMap_nil, quiet, silent, append_nil]
        at moved
      exact moved.trans recorded
    · rw [same]
      simp only [filterMap_cons, filterMap_nil, succeeded, append_nil]
        at moved
      exact moved.trans recorded
    · rw [same]
      simp only [filterMap_cons, filterMap_nil, succeeded, append_nil]
        at moved
      exact moved.trans (recorded.append_right _)

structure Ordered (pool : Pool Shared (Call Query)) : Prop where
  increasing : pool.shared.recorded.Pairwise fun p q => p.1 = q.1 → p.2 < q.2
  bounded : ∀ p ∈ pool.shared.recorded, ∃ last,
    pool.shared.db.connSeqs.get p.1 = some last ∧ p.2 ≤ last
  passed : ∀ req, .recording req ∈ pool.threads → ∀ last,
    pool.shared.db.connSeqs.get req.header.connectionID = some last → last < req.header.seqNo
  alone : ∀ connID, pool.threads.countP (Call.between connID) ≤ 1

lemma ordered_idle (db) : Ordered (idle db : Pool Shared (Call Query)) :=
  ⟨List.Pairwise.nil, fun _ mem => absurd mem not_mem_nil,
    fun _ mem => absurd mem not_mem_nil, fun _ => Nat.zero_le 1⟩

lemma between_eq_false {call : Call Query} (other : ∀ req, call ≠ .recording req) (connID) :
    call.between connID = false := by
  cases call with
  | recording req => exact absurd rfl (other req)
  | called rawReq | verifying req | returned rawReq result => rfl

lemma Ordered.quiet (ordered : Ordered pool)
    (found : pool.threads[i]? = some call) (other : ∀ req, later ≠ .recording req)
    (shared : pool'.shared = pool.shared)
    (threads : pool'.threads = Lib.resume pool.threads i [later]) : Ordered pool' := by
  refine ⟨?_, ?_, ?_, ?_⟩
  · rw [shared]
    exact ordered.increasing
  · rw [shared]
    exact ordered.bounded
  · intro req mem
    rw [threads] at mem
    rw [shared]
    rcases Lib.mem_resume mem with new | kept
    · exact absurd (mem_singleton.mp new).symm (other req)
    · exact ordered.passed req kept
  · intro connID
    have counted := Lib.countP_resume [later] (between connID) found
    have zero : List.countP (between connID) [later] = 0 := by
      simp [between_eq_false other]
    have before := ordered.alone connID
    rw [threads]
    omega

lemma Ordered.verified (ordered : Ordered pool) (found : pool.threads[i]? = some (.verifying req))
    (free : ∀ call ∈ pool.threads, call.between req.header.connectionID = false)
    (ok : pool.shared.db.verifySequence req.header.connectionID req.header.seqNo = .ok ())
    (shared : pool'.shared = pool.shared)
    (threads : pool'.threads = Lib.resume pool.threads i [.recording req]) : Ordered pool' := by
  refine ⟨?_, ?_, ?_, ?_⟩
  · rw [shared]
    exact ordered.increasing
  · rw [shared]
    exact ordered.bounded
  · intro req' mem
    rw [threads] at mem
    rw [shared]
    rcases Lib.mem_resume mem with new | kept
    · cases mem_singleton.mp new
      exact verifySequence_eq_ok.mp ok
    · exact ordered.passed req' kept
  · intro connID
    have counted := Lib.countP_resume [.recording req] (between connID) found
    rw [threads]
    by_cases same : req.header.connectionID = connID
    · subst same
      have none : pool.threads.countP (between req.header.connectionID) = 0 :=
        countP_eq_zero.mpr fun call mem => by simp [free call mem]
      have one : List.countP (between req.header.connectionID) [.recording req] ≤ 1 :=
        countP_le_length
      omega
    · have zero : List.countP (between connID) [.recording req] = 0 := by
        simp [between, same]
      have before := ordered.alone connID
      omega

lemma countP_recorded (found : pool.threads[i]? = some (.recording req)) (connID) :
    (Lib.resume pool.threads i [.returned (some req) (.ok ())]).countP (Call.between connID) +
      [Call.recording req].countP (Call.between connID) =
      pool.threads.countP (Call.between connID) := by
  have counted := Lib.countP_resume [.returned (some req) (.ok ())] (between connID) found
  simpa [between] using counted

lemma Ordered.other (ordered : Ordered pool) (found : pool.threads[i]? = some (.recording req))
    (mem : .recording req' ∈ Lib.resume pool.threads i [.returned (some req) (.ok ())]) :
    req'.header.connectionID ≠ req.header.connectionID := by
  intro same
  have here : 0 < (Lib.resume pool.threads i [.returned (some req) (.ok ())]).countP
      (between req.header.connectionID) :=
    countP_pos_iff.mpr ⟨.recording req', mem, by simp [between, same]⟩
  have one : [recording req].countP (between req.header.connectionID) = 1 := by
    simp [between]
  have most := ordered.alone req.header.connectionID
  have total := countP_recorded found req.header.connectionID
  omega

lemma Ordered.below (ordered : Ordered pool) (waiting : .recording req ∈ pool.threads)
    (mem : p ∈ pool.shared.recorded) (same : p.1 = req.header.connectionID) :
    p.2 < req.header.seqNo := by
  obtain ⟨last, found, most⟩ := ordered.bounded p mem
  rw [same] at found
  exact UInt64.lt_of_le_of_lt most (ordered.passed req waiting last found)

lemma Ordered.recorded (ordered : Ordered pool) (found : pool.threads[i]? = some (.recording req))
    (shared : pool'.shared = ⟨pool.shared.db.recordSequence req.header.connectionID
      req.header.seqNo, pool.shared.recorded ++ [sequence req]⟩) (threads : pool'.threads =
      Lib.resume pool.threads i [.returned (some req) (.ok ())]) : Ordered pool' := by
  have waiting := mem_of_getElem? found
  refine ⟨?_, ?_, ?_, ?_⟩
  · rw [shared]
    refine pairwise_append.mpr ⟨ordered.increasing, pairwise_singleton _ _, ?_⟩
    intro p mem q new same
    obtain rfl := mem_singleton.mp new
    exact ordered.below waiting mem same
  · rw [shared]
    intro p mem
    by_cases same : p.1 = req.header.connectionID
    · refine ⟨req.header.seqNo, by simp [Database.recordSequence, same], ?_⟩
      rcases mem_append.mp mem with old | new
      · exact UInt64.le_of_lt (ordered.below waiting old same)
      · obtain rfl := mem_singleton.mp new
        exact UInt64.le_refl _
    · rcases mem_append.mp mem with old | new
      · obtain ⟨last, found, most⟩ := ordered.bounded p old
        exact ⟨last, by simpa [Database.recordSequence, same] using found, most⟩
      · obtain rfl := mem_singleton.mp new
        exact absurd rfl same
  · intro req' mem last
    rw [threads] at mem
    rw [shared]
    simp only [Database.recordSequence, FiniteMap.get_insert, ordered.other found mem, if_false]
    rcases Lib.mem_resume mem with new | kept
    · exact nomatch mem_singleton.mp new
    · exact ordered.passed req' kept last
  · intro connID
    have most := ordered.alone connID
    have total := countP_recorded found connID
    rw [threads]
    omega

lemma ordered_step (pool event pool') (ordered : Ordered pool)
    (allowed : exclusive pool event = true) (stepped : step crypto pool event = some pool') :
    Ordered pool' := by
  cases event with
  | check rawReq =>
    cases stepped
    refine ⟨ordered.increasing, ordered.bounded, ?_, ?_⟩
    · intro req mem
      rcases mem_append.mp mem with kept | new
      · exact ordered.passed req kept
      · exact nomatch mem_singleton.mp new
    · intro connID
      have zero : List.countP (between connID) [called rawReq] = 0 := by
        simp [between]
      have before := ordered.alone connID
      simp only [Pool.start, countP_append]
      omega
  | step =>
    obtain ⟨call, next, found, acted, threads⟩ := Pool.move_eq_some stepped
    rcases action_cases acted with ⟨same, -, later, rfl, -, other⟩ |
      ⟨req, rfl, same, rfl, ok⟩ | ⟨req, rfl, rfl, same⟩
    · exact ordered.quiet found other same threads
    · refine ordered.verified found ?_ ok same threads
      simpa [exclusive, found] using allowed
    · exact ordered.recorded found same threads

/-- Where verifying and recording a sequence is not interleaved with others of the connection, no
two calls succeed with the same sequence. -/
theorem check_never_twice (crypto : Crypto Query) (db : Database) (events : List (Event Query))
    {pool : Pool Shared (Call Query)} (ran : run (step crypto) events (idle db) = some pool)
    (alone : Always (step crypto) (fun pool event => exclusive pool event = true) events
      (idle db)) :
    (accepted pool).Nodup ∧ (accepted pool).Perm pool.shared.recorded ∧
      pool.shared.recorded.Pairwise fun p q => p.1 = q.1 → p.2 < q.2 := by
  have holds : Ordered pool ∧ (accepted pool).Perm pool.shared.recorded := by
    refine run_invariant (fun pool => Ordered pool ∧ (accepted pool).Perm pool.shared.recorded)
      ?_ ⟨ordered_idle db, .refl _⟩ alone ran
    intro pool event pool' holds allowed stepped
    exact ⟨ordered_step pool event pool' holds.1 allowed stepped,
      accepted_step event stepped holds.2⟩
  obtain ⟨ordered, recorded⟩ := holds
  refine ⟨recorded.nodup_iff.mpr ?_, recorded, ordered.increasing⟩
  refine ordered.increasing.imp fun {p q} less same => ?_
  exact UInt64.lt_irrefl _ (same ▸ less (congrArg Prod.fst same))

namespace Sample

open SQLChain.Sample (crypto request)

def db : Database := ⟨10, ∅⟩

def first : Option (Request Nat) := some (request 1 5 .writeQuery [5])

def second : Option (Request Nat) := some (request 2 5 .writeQuery [6])

def whole (i : Nat) : List (Event Nat) := List.replicate 3 (.step i 6)

end Sample

theorem check_never_twice_sample :
    ∃ pool, run (step SQLChain.Sample.crypto) ([.check Sample.first] ++ Sample.whole 0 ++
        [.check Sample.second] ++ Sample.whole 1 ++ [.check Sample.first, .step 2 6, .step 2 6])
        (idle Sample.db) = some pool ∧
      accepted pool = [(1, 1), (1, 2)] ∧ (accepted pool).Nodup ∧
      pool.shared.recorded.Pairwise fun p q => p.1 = q.1 → p.2 < q.2 := by
  have ran : run (step SQLChain.Sample.crypto) ([.check Sample.first] ++ Sample.whole 0 ++
      [.check Sample.second] ++ Sample.whole 1 ++ [.check Sample.first, .step 2 6, .step 2 6])
      (idle Sample.db) = some _ := rfl
  obtain ⟨once, -, increasing⟩ := check_never_twice SQLChain.Sample.crypto Sample.db _ ran
    (by decide)
  exact ⟨_, ran, by decide, once, increasing⟩

theorem check_passes_twice :
    ((run (step SQLChain.Sample.crypto) [.check Sample.first, .check Sample.first, .step 0 6,
        .step 0 6, .step 1 6, .step 1 6, .step 0 6, .step 1 6] (idle Sample.db)).map
      accepted = some [(1, 1), (1, 1)]) ∧
    (run (step SQLChain.Sample.crypto) ([.check Sample.first, .check Sample.second, .step 0 6,
        .step 0 6, .step 1 6, .step 1 6, .step 1 6, .step 0 6, .check Sample.second] ++
        Sample.whole 2) (idle Sample.db)).map (fun pool => pool.shared.recorded) =
      some [(1, 2), (1, 1), (1, 2)] := by
  constructor <;> decide

end SQLess.Worker
