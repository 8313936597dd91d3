import SQLess.SQLChain.Steps
import SQLess.SQLChain.TurnsCore

/-! The way of a produced block into the chain. -/

namespace SQLess.SQLChain

open List

open Lib (Always run_invariant)
open SQLess.Types

variable {DB Query Pattern Value : Type}

def Setting.Signs (env : Setting DB Query Pattern Value) : Prop :=
  ∀ hash signature, env.crypto.env.signHash env.pk hash = some signature →
    env.crypto.env.verifySignature signature hash (env.crypto.env.pubKey env.pk) = true

structure Chain.Waits (crypto : Crypto Query) (c : Chain DB Query) (b : Block Query) : Prop where
  parent : b.parentHash = c.rt.head.head
  turn : c.rt.lastTurn ≤ c.rt.getHeightFromTime b.timestamp
  verified : b.verify crypto = some (.ok ())
  producer : b.producer = c.rt.server
  fresh : b.blockHash ≠ b.parentHash

namespace Chain

variable {crypto : Crypto Query} {e : Xenomint.Engine DB Query Pattern Value}
  {c c' : Chain DB Query} {b : Block Query}

lemma Waits.same (waits : Waits crypto c b) (same : SameBlocks c c')
    (turn : c'.rt.lastTurn ≤ c.rt.getHeightFromTime b.timestamp) : Waits crypto c' b := by
  refine ⟨?_, ?_, waits.verified, ?_, waits.fresh⟩
  · rw [same.head]
    exact waits.parent
  · rw [same.height]
    exact turn
  · rw [same.server]
    exact waits.producer

lemma Produced.waits {env : Setting DB Query Pattern Value} (signs : env.Signs)
    (made : Produced env.crypto env.pk c now p b)
    (turn : c.rt.lastTurn ≤ c.rt.getHeightFromTime now) (fresh : b.blockHash ≠ c.rt.head.head) :
    Waits env.crypto c b := by
  obtain ⟨signature, signed, verifier⟩ := made.signature
  refine ⟨made.parent, ?_, ?_, made.producer, made.parent ▸ fresh⟩
  · rw [made.timestamp]
    exact turn
  · refine Block.verify_eq_ok.mpr ⟨made.root, made.hash, ?_⟩
    rw [verifier]
    exact signs b.blockHash signature signed

lemma checkAt_cases (crypto) (e : Xenomint.Engine DB Query Pattern Value) (turn peers c b put) :
    SameBlocks c (c.checkAt crypto e turn peers b put) ∨
      ((c.checkAt crypto e turn peers b put).blocks = c.blocks ++ [b] ∧ put = true ∧
        (c.reading turn peers).Admits crypto e b) := by
  rcases checkAndPushNewBlock_checked crypto e (c.reading turn peers) b put with
    ⟨st, chain, -⟩ | ⟨st, accepted, -, stored⟩
  · left
    rw [checkAt, chain]
    exact ⟨rfl, rfl, rfl, rfl, rfl, rfl⟩
  · right
    refine ⟨?_, stored, accepted.admits⟩
    rw [checkAt, accepted.chain]
    exact setHead_blocks (c.reading turn peers) b

lemma checkAt_clock (crypto) (e : Xenomint.Engine DB Query Pattern Value) (turn peers)
    (c : Chain DB Query) (b put) :
    (c.checkAt crypto e turn peers b put).rt.nextTurn = c.rt.nextTurn ∧
      (c.checkAt crypto e turn peers b put).rt.chainInitTime = c.rt.chainInitTime ∧
      (c.checkAt crypto e turn peers b put).rt.period = c.rt.period := by
  rcases checkAndPushNewBlock_checked crypto e (c.reading turn peers) b put with
    ⟨st, chain, -⟩ | ⟨st, accepted, -⟩
  · rw [checkAt, chain]
    exact ⟨rfl, rfl, rfl⟩
  · rw [checkAt, accepted.chain]
    exact ⟨rfl, rfl, rfl⟩

lemma Waits.pushed (waits : Waits crypto c b) (turn peers) :
    b ∈ (c.checkAt crypto e turn peers b true).blocks := by
  have unknown : c.rt.head.head ≠ b.blockHash := by
    rw [← waits.parent]
    exact waits.fresh.symm
  have own : (c.reading turn peers).checkAndPushNewBlock crypto e b true =
      (c.reading turn peers).pushBlock b true :=
    checkAndPushNewBlock_own (c := c.reading turn peers) e unknown waits.parent waits.verified
      waits.producer true
  have pushed : (c.checkAt crypto e turn peers b true).blocks =
      ((c.reading turn peers).setHead b).blocks := by
    rw [checkAt, own, pushBlock_eq]
    rfl
  rw [pushed, setHead_blocks]
  simp

end Chain

def Runtime.age (r : Runtime Query) (now : Time) : Int := now - r.chainInitTime

structure Runtime.InRange (r : Runtime Query) (now : Time) : Prop where
  tick : 0 < r.tick
  period : 0 < r.period
  nextTurn : 0 ≤ r.nextTurn
  deadline : r.nextTurn * r.period < 2 ^ 63
  age : r.age now < 2 ^ 63
  height : r.age now / r.period < 2 ^ 31

lemma Runtime.InRange.turn_le {r : Runtime Query} (range : r.InRange now)
    (due : ¬0 < r.nextTick now) : r.lastTurn ≤ r.getHeightFromTime now := by
  obtain ⟨tick, period, nonneg, deadline, age, height⟩ := range
  have product : 0 ≤ r.nextTurn * r.period := Int.mul_nonneg nonneg period.le
  have whole : (r.nextTurn * r.period).bmod (2 ^ 64) = r.nextTurn * r.period :=
    Int.bmod_eq_of_le (by omega) (by omega)
  have reached : r.nextTurn * r.period ≤ r.age now := by
    simp only [nextTick, whole, BlockProducer.timeSub] at due
    unfold Runtime.age
    split_ifs at due <;> omega
  have elapsed : BlockProducer.timeSub now r.chainInitTime = r.age now := by
    unfold Runtime.age at reached age ⊢
    simp only [BlockProducer.timeSub]
    omega
  have turns : r.nextTurn ≤ r.age now / r.period := (Int.le_ediv_iff_mul_le period).mpr reached
  have heightEq : r.getHeightFromTime now = r.age now / r.period := by
    rw [getHeightFromTime, elapsed, Int.tdiv_eq_ediv_of_nonneg (by omega)]
    exact Int.bmod_eq_of_le (by omega) (by omega)
  have lastEq : r.lastTurn = r.nextTurn - 1 := Int.bmod_eq_of_le (by omega) (by omega)
  rw [heightEq, lastEq]
  omega

def MainCycle.held : MainCycle Query → List (Block Query)
  | .sending block => [block]
  | _ => []

def Processing.held : Processing Query → List (Block Query)
  | .waiting => []
  | .received block => [block]
  | .due block => [block]
  | .checking block _ _ => [block]

def MainCycle.Ready (rt : Runtime Query) : MainCycle Query → Prop
  | .producing now => rt.lastTurn ≤ rt.getHeightFromTime now
  | .fetched now p queries =>
    rt.lastTurn ≤ rt.getHeightFromTime now ∧ queries = p.queryTxs.map QueryAsTx.view
  | _ => True

lemma MainCycle.Ready.same {main : MainCycle Query} (ready : main.Ready rt)
    (turn : rt'.nextTurn = rt.nextTurn) (chainInitTime : rt'.chainInitTime = rt.chainInitTime)
    (period : rt'.period = rt.period) : main.Ready rt' := by
  have height : ∀ now, rt'.getHeightFromTime now = rt.getHeightFromTime now := by
    intro now
    rw [Runtime.getHeightFromTime, Runtime.getHeightFromTime, chainInitTime, period]
  have last : rt'.lastTurn = rt.lastTurn := by
    rw [Runtime.lastTurn, Runtime.lastTurn, turn]
  cases main with
  | producing now | fetched now p queries =>
    rw [MainCycle.Ready, last, height]
    exact ready
  | _ => trivial

namespace Server

def outstanding (s : Server DB Query) : List (Block Query) :=
  s.main.held ++ s.processing.held ++ s.stash ++ s.senders.flatten

lemma mem_outstanding {s : Server DB Query} : b ∈ s.outstanding ↔
      b ∈ s.main.held ∨ b ∈ s.processing.held ∨ b ∈ s.stash ∨ ∃ blocks ∈ s.senders, b ∈ blocks := by
  simp [outstanding]

def Fresh (env : Setting DB Query Pattern Value) (c : Chain DB Query) : MainCycle Query → Prop
  | .fetched now p _ => ∀ block ∈ (c.packBlock env.crypto env.pk now p).2.toOption,
      block.blockHash ≠ c.rt.head.head
  | _ => True

/-- Every produced block that is not in the chain is the one that is checked, and the store takes
it; or the checked block is not pushed. -/
def Unrivalled (env : Setting DB Query Pattern Value) (s : Server DB Query) (put : Bool) :
    Processing Query → Prop
  | .checking block turn peers => ∀ cut ∈ s.cuts, cut.block ∈ s.chain.blocks ∨
      (cut.block = block ∧ put = true) ∨
      (cut.block ≠ block ∧ ¬(put = true ∧
        (s.chain.reading turn peers).Admits env.crypto env.engine block))
  | _ => True

/-- While a produced block is outstanding, the turn does not leave it behind and no other block
is pushed. -/
def Calm (env : Setting DB Query Pattern Value) (s : Server DB Query) : Action Query → Prop
  | .turn now => s.chain.rt.InRange now
  | .pack => Fresh env s.chain s.main
  | .endTurn => ∀ cut ∈ s.cuts, cut.block ∈ s.chain.blocks ∨
      s.chain.endTurn.rt.lastTurn ≤ s.chain.rt.getHeightFromTime cut.block.timestamp
  | .push put => Unrivalled env s put s.processing
  | _ => True

def Keeps (crypto : Crypto Query) (s : Server DB Query) (b : Block Query) : Prop :=
  b ∈ s.chain.blocks ∨ (b ∈ s.outstanding ∧ s.chain.Waits crypto b)

structure Safe (crypto : Crypto Query) (s : Server DB Query) : Prop where
  kept : ∀ cut ∈ s.cuts, s.Keeps crypto cut.block
  queries : ∀ cut ∈ s.cuts, cut.queries = cut.block.queryTxs.map QueryAsTx.view
  ready : s.main.Ready s.chain.rt
  syncing : s.main = .syncing → s.cuts = []

section

variable {crypto : Crypto Query} {s s' : Server DB Query} {b : Block Query}

structure Quiet (s s' : Server DB Query) : Prop where
  blocks : Chain.SameBlocks s.chain s'.chain
  turn : s'.chain.rt.nextTurn = s.chain.rt.nextTurn
  held : ∀ b ∈ s.outstanding, b ∈ s'.outstanding

lemma Quiet.of_chain (chain : s'.chain = s.chain)
    (held : ∀ b ∈ s.outstanding, b ∈ s'.outstanding) : Quiet s s' := by
  refine ⟨?_, ?_, held⟩
  · rw [chain]
    exact ⟨rfl, rfl, rfl, rfl, rfl, rfl⟩
  · rw [chain]

lemma Quiet.lastTurn (quiet : Quiet s s') : s'.chain.rt.lastTurn = s.chain.rt.lastTurn := by
  rw [Runtime.lastTurn, Runtime.lastTurn, quiet.turn]

lemma Keeps.quiet (keeps : s.Keeps crypto b) (quiet : Quiet s s') : s'.Keeps crypto b := by
  rcases keeps with pushed | ⟨held, waits⟩
  · left
    rw [quiet.blocks.blocks]
    exact pushed
  · refine .inr ⟨quiet.held b held, waits.same quiet.blocks ?_⟩
    rw [quiet.lastTurn]
    exact waits.turn

lemma Safe.quiet (safe : s.Safe crypto) (quiet : Quiet s s') (cuts : s'.cuts = s.cuts)
    (ready : s'.main.Ready s.chain.rt) (syncing : s'.main = .syncing → s.main = .syncing) :
    s'.Safe crypto := by
  refine ⟨?_, ?_, ready.same quiet.turn quiet.blocks.chainInitTime quiet.blocks.period, ?_⟩
  · intro cut mem
    rw [cuts] at mem
    exact (safe.kept cut mem).quiet quiet
  · rw [cuts]
    exact safe.queries
  · rw [cuts]
    exact fun main => safe.syncing (syncing main)

lemma receive_quiet (s : Server DB Query) (b) (idle : s.processing = .waiting) :
    (s.receive b).chain = s.chain ∧ (s.receive b).main = s.main ∧ (s.receive b).cuts = s.cuts ∧
      ∀ b', b' = b ∨ b' ∈ s.outstanding → b' ∈ (s.receive b).outstanding := by
  unfold receive
  split_ifs with newer
  · refine ⟨rfl, rfl, rfl, ?_⟩
    intro b' held
    simp only [mem_outstanding, mem_append, mem_singleton] at held ⊢
    tauto
  · refine ⟨rfl, rfl, rfl, ?_⟩
    intro b' held
    simp only [mem_outstanding, idle, Processing.held, mem_singleton, not_mem_nil]
      at held ⊢
    tauto

lemma Safe.receive {s₀ : Server DB Query} (safe : s.Safe crypto) (chain : s₀.chain = s.chain)
    (cuts : s₀.cuts = s.cuts) (idle : s₀.processing = .waiting)
    (held : ∀ b' ∈ s.outstanding, b' = b ∨ b' ∈ s₀.outstanding)
    (ready : s₀.main.Ready s.chain.rt) (syncing : s₀.main = .syncing → s.main = .syncing) :
    (s₀.receive b).Safe crypto := by
  obtain ⟨sameChain, main, sameCuts, keeps⟩ := receive_quiet s₀ b idle
  refine safe.quiet (.of_chain (sameChain.trans chain) ?_) (sameCuts.trans cuts) ?_ ?_
  · exact fun b' mem => keeps b' (held b' mem)
  · rw [main]
    exact ready
  · rw [main]
    exact syncing

lemma mem_sent {senders : List (List (Block Query))}
    (sender : senders[i]? = some (block :: rest)) (sending : blocks ∈ senders) (mem : b ∈ blocks) :
    b = block ∨ ∃ blocks ∈ senders.set i rest, b ∈ blocks := by
  obtain ⟨j, found⟩ := mem_iff_getElem?.mp sending
  by_cases same : i = j
  · subst same
    rw [sender, Option.some.injEq] at found
    subst found
    rcases mem_cons.mp mem with here | later
    · exact .inl here
    · have bound : i < senders.length := (List.getElem?_eq_some_iff.mp sender).1
      exact .inr ⟨rest, mem_set bound rest, later⟩
  · refine .inr ⟨blocks, mem_iff_getElem?.mpr ⟨j, ?_⟩, mem⟩
    rw [List.getElem?_set_ne same]
    exact found

end

section

variable {env : Setting DB Query Pattern Value} {s s' : Server DB Query}

section

variable (safe : s.Safe env.crypto)
include safe

lemma Safe.deliver (stepped : s.processStep env (.deliver i) = some s') : s'.Safe env.crypto := by
  cases idle : s.processing with
  | waiting =>
    rcases sender : s.senders[i]? with _ | _ | ⟨block, rest⟩
    · simp [processStep, idle, sender] at stepped
    · simp [processStep, idle, sender] at stepped
    · simp only [processStep, idle, sender] at stepped
      cases stepped
      refine safe.receive rfl rfl rfl ?_ safe.ready id
      intro b held
      simp only [mem_outstanding, idle] at held ⊢
      rcases held with main | processing | stash | ⟨blocks, sending, mem⟩
      · exact .inr (.inl main)
      · exact .inr (.inr (.inl processing))
      · exact .inr (.inr (.inr (.inl stash)))
      · rcases mem_sent sender sending mem with here | later
        · exact .inl here
        · exact .inr (.inr (.inr (.inr later)))
  | _ => simp [processStep, idle] at stepped

lemma Safe.returnStash
    (stepped : s.processStep env .returnStash = some s') : s'.Safe env.crypto := by
  cases idle : s.processing with
  | waiting =>
    cases height : s.heights with
    | none => simp [processStep, idle, height] at stepped
    | some =>
      simp only [processStep, idle, height] at stepped
      cases stepped
      refine safe.quiet (.of_chain rfl ?_) rfl safe.ready id
      intro b held
      simp only [mem_outstanding, idle, mem_append, mem_singleton] at held ⊢
      rcases held with main | processing | stash | ⟨blocks, sender, mem⟩
      · exact .inl main
      · exact .inr (.inl processing)
      · exact .inr (.inr (.inr ⟨s.stash, .inr rfl, stash⟩))
      · exact .inr (.inr (.inr ⟨blocks, .inl sender, mem⟩))
  | _ => simp [processStep, idle] at stepped

lemma Safe.compare (stepped : s.processStep env .compare = some s') : s'.Safe env.crypto := by
  cases place : s.processing with
  | received block =>
    simp only [processStep, place] at stepped
    by_cases older : s.chain.rt.getHeightFromTime block.timestamp < s.chain.rt.lastTurn
    · simp only [if_pos older] at stepped
      cases stepped
      refine ⟨?_, safe.queries, safe.ready, safe.syncing⟩
      intro cut mem
      rcases safe.kept cut mem with pushed | ⟨held, waits⟩
      · exact .inl pushed
      · -- the block that is dropped is too old to be waiting
        have other : cut.block ≠ block := by
          intro same
          rw [← same] at older
          exact absurd waits.turn (not_le.mpr older)
        refine .inr ⟨?_, waits⟩
        simpa [mem_outstanding, place, Processing.held, other] using held
    · simp only [if_neg older] at stepped
      cases stepped
      refine safe.quiet (.of_chain rfl ?_) rfl safe.ready id
      intro b held
      simpa [mem_outstanding, place, Processing.held] using held
  | _ => simp [processStep, place] at stepped

lemma Safe.check (stepped : s.processStep env .check = some s') : s'.Safe env.crypto := by
  cases place : s.processing with
  | due =>
    simp only [processStep, place] at stepped
    cases stepped
    refine safe.quiet (.of_chain rfl ?_) rfl safe.ready id
    intro b held
    simpa [mem_outstanding, place, Processing.held] using held
  | _ => simp [processStep, place] at stepped

lemma Safe.push (calm : s.Calm env (.push put))
    (stepped : s.processStep env (.push put) = some s') : s'.Safe env.crypto := by
  cases place : s.processing with
  | checking block turn peers =>
    simp only [processStep, place] at stepped
    cases stepped
    simp only [Calm, place, Unrivalled] at calm
    obtain ⟨sameTurn, sameTime, samePeriod⟩ :=
      Chain.checkAt_clock env.crypto env.engine turn peers s.chain block put
    refine ⟨?_, safe.queries, safe.ready.same sameTurn sameTime samePeriod, safe.syncing⟩
    intro cut mem
    rcases Chain.checkAt_cases env.crypto env.engine turn peers s.chain block put with
      same | ⟨pushed, stored, admitted⟩
    · rcases safe.kept cut mem with there | ⟨held, waits⟩
      · left
        rw [same.blocks]
        exact there
      · rcases calm cut mem with there | ⟨own, stored⟩ | ⟨other, -⟩
        · left
          rw [same.blocks]
          exact there
        · left
          rw [own, stored]
          exact (own ▸ waits).pushed turn peers
        · refine .inr ⟨?_, waits.same same waits.turn⟩
          simpa [mem_outstanding, place, Processing.held, other] using held
    · left
      rw [pushed]
      rcases calm cut mem with there | ⟨own, -⟩ | ⟨-, refused⟩
      · exact mem_append_left _ there
      · simp [own]
      · exact absurd ⟨stored, admitted⟩ refused
  | _ => simp [processStep, place] at stepped

end

variable [DecidableEq Query]

section

variable (safe : s.Safe env.crypto)
include safe

lemma Safe.syncTurn (stepped : s.mainStep env (.syncTurn turn) = some s') : s'.Safe env.crypto := by
  cases main : s.main with
  | syncing =>
    simp only [mainStep, main] at stepped
    cases stepped
    have none := safe.syncing main
    refine ⟨?_, safe.queries, trivial, fun _ => none⟩
    intro cut mem
    simp [none] at mem
  | _ => simp [mainStep, main] at stepped

lemma Safe.synced (stepped : s.mainStep env .synced = some s') : s'.Safe env.crypto := by
  cases main : s.main with
  | syncing =>
    simp only [mainStep, main] at stepped
    cases stepped
    refine safe.quiet ⟨⟨rfl, rfl, rfl, rfl, rfl, rfl⟩, rfl, ?_⟩ rfl trivial nofun
    intro b held
    simpa [mem_outstanding, main, MainCycle.held] using held
  | _ => simp [mainStep, main] at stepped

lemma Safe.turn (range : s.chain.rt.InRange now)
    (stepped : s.mainStep env (.turn now) = some s') : s'.Safe env.crypto := by
  cases main : s.main with
  | waiting =>
    simp only [mainStep, main] at stepped
    by_cases early : 0 < s.chain.rt.nextTick now
    · simp [if_pos early] at stepped
    · simp only [if_neg early] at stepped
      cases stepped
      unfold runCurrentTurn
      split_ifs with mine
      · refine safe.quiet (.of_chain rfl ?_) rfl (range.turn_le early) nofun
        intro b held
        simpa [mem_outstanding, main, MainCycle.held] using held
      · refine safe.quiet (.of_chain rfl ?_) rfl trivial nofun
        intro b held
        simpa [mem_outstanding, main, MainCycle.held] using held
  | _ => simp [mainStep, main] at stepped

lemma Safe.fetch (stepped : s.mainStep env (.fetch p) = some s') : s'.Safe env.crypto := by
  cases main : s.main with
  | producing =>
    simp only [mainStep, main] at stepped
    by_cases packs : s.chain.Packs p
    · simp only [if_pos packs] at stepped
      cases stepped
      have ready := safe.ready
      rw [main] at ready
      refine safe.quiet ⟨⟨rfl, rfl, rfl, rfl, rfl, rfl⟩, rfl, ?_⟩ rfl ?_ ?_
      · intro b held
        simp only [mem_outstanding, main, MainCycle.held] at held ⊢
        split_ifs <;> exact held
      · dsimp only
        split_ifs
        · trivial
        · exact ⟨ready, packs.2.symm⟩
      · dsimp only
        split_ifs
        · simp
        · simp
    · simp [if_neg packs] at stepped
  | _ => simp [mainStep, main] at stepped

end

lemma Safe.pack (signs : env.Signs) (safe : s.Safe env.crypto) (calm : s.Calm env .pack)
    (stepped : s.mainStep env .pack = some s') : s'.Safe env.crypto := by
  cases main : s.main with
  | fetched now p queries =>
    have ready := safe.ready
    rw [main] at ready
    have same := Chain.packBlock_same env.crypto env.pk s.chain now p
    simp only [mainStep, main] at stepped
    simp only [Calm, main, Fresh] at calm
    generalize packed : s.chain.packBlock env.crypto env.pk now p = result at stepped same calm
    rcases result with ⟨c, err | block⟩
    · cases stepped
      refine safe.quiet ⟨same.1, same.2, ?_⟩ rfl trivial nofun
      intro b held
      simpa [mem_outstanding, main, MainCycle.held] using held
    · cases stepped
      have made := Chain.packBlock_produced (congrArg Prod.snd packed)
      have quiet : Quiet s { s with
          chain := c, main := .sending block, cuts := s.cuts ++ [⟨queries, block⟩] } := by
        refine ⟨same.1, same.2, ?_⟩
        intro b held
        simp only [mem_outstanding, main, MainCycle.held, not_mem_nil, false_or] at held
        exact mem_outstanding.mpr (.inr held)
      refine ⟨?_, ?_, trivial, nofun⟩
      · intro cut mem
        rcases mem_append.mp mem with before | new
        · exact (safe.kept cut before).quiet quiet
        · rw [mem_singleton.mp new]
          refine .inr ⟨mem_outstanding.mpr (.inl (by simp [MainCycle.held])), ?_⟩
          have waits := made.waits signs ready.1 (calm block rfl)
          exact waits.same same.1 (quiet.lastTurn ▸ waits.turn)
      · intro cut mem
        rcases mem_append.mp mem with before | new
        · exact safe.queries cut before
        · rw [mem_singleton.mp new, ready.2, made.queryTxs]
  | _ => simp [mainStep, main] at stepped

lemma Safe.send (safe : s.Safe env.crypto) (stepped : s.mainStep env .send = some s') :
    s'.Safe env.crypto := by
  cases main : s.main with
  | sending =>
    cases idle : s.processing with
    | waiting =>
      simp only [mainStep, main, idle] at stepped
      cases stepped
      refine safe.receive rfl rfl rfl ?_ trivial nofun
      intro b held
      simp only [mem_outstanding, main, idle, MainCycle.held, mem_singleton] at held ⊢
      exact held.imp_right .inr
    | _ => simp [mainStep, main, idle] at stepped
  | _ => simp [mainStep, main] at stepped

lemma Safe.endTurn (safe : s.Safe env.crypto) (calm : s.Calm env .endTurn)
    (stepped : s.mainStep env .endTurn = some s') : s'.Safe env.crypto := by
  cases main : s.main with
  | ending =>
    simp only [mainStep, main] at stepped
    cases stepped
    have same : Chain.SameBlocks s.chain s.chain.endTurn := ⟨rfl, rfl, rfl, rfl, rfl, rfl⟩
    refine ⟨?_, safe.queries, trivial, nofun⟩
    intro cut mem
    have pushed : cut.block ∈ s.chain.blocks → cut.block ∈ s.chain.endTurn.blocks := by
      rw [same.blocks]
      exact id
    rcases safe.kept cut mem with there | ⟨held, waits⟩
    · exact .inl (pushed there)
    · rcases calm cut mem with there | turn
      · exact .inl (pushed there)
      · refine .inr ⟨?_, waits.same same turn⟩
        simpa [mem_outstanding, main, MainCycle.held] using held
  | _ => simp [mainStep, main] at stepped

lemma Safe.publish (safe : s.Safe env.crypto) (stepped : s.mainStep env .publish = some s') :
    s'.Safe env.crypto := by
  cases main : s.main with
  | publishing =>
    cases free : s.heights with
    | none =>
      simp only [mainStep, main, free] at stepped
      cases stepped
      refine safe.quiet (.of_chain rfl ?_) rfl trivial nofun
      intro b held
      simpa [mem_outstanding, main, MainCycle.held] using held
    | some => simp [mainStep, main, free] at stepped
  | _ => simp [mainStep, main] at stepped

lemma Safe.step (signs : env.Signs) (safe : s.Safe env.crypto)
    (calm : s.Calm env action) (stepped : s.step env action = some s') : s'.Safe env.crypto := by
  have kept : ∀ b ∈ s.outstanding, b ∈ s.outstanding := fun _ held => held
  cases action with
  | query req isLeader | addResponse resp =>
    cases stepped
    exact safe.quiet ⟨⟨rfl, rfl, rfl, rfl, rfl, rfl⟩, rfl, kept⟩ rfl safe.ready id
  | ack ack put =>
    cases stepped
    refine safe.quiet ⟨Chain.verifyAndPushAckedQuery_same env.crypto s.chain ack put, ?_, kept⟩
      rfl safe.ready id
    obtain ⟨ai, chain⟩ := Chain.verifyAndPushAckedQuery_frame env.crypto s.chain ack put
    simp only [chain]
  | updatePeers peers =>
    cases stepped
    exact safe.quiet ⟨Chain.updatePeers_same s.chain peers,
      Chain.updatePeers_nextTurn s.chain.rt peers, kept⟩ rfl safe.ready id
  | advise =>
    cases stepped
    refine safe.quiet (.of_chain rfl ?_) rfl safe.ready id
    intro b held
    simp only [mem_outstanding] at held ⊢
    rcases held with main | processing | stash | ⟨blocks, sending, mem⟩
    · exact .inl main
    · exact .inr (.inl processing)
    · exact .inr (.inr (.inl stash))
    · exact .inr (.inr (.inr ⟨blocks, mem_append_left _ sending, mem⟩))
  | syncTurn => exact safe.syncTurn stepped
  | synced => exact safe.synced stepped
  | turn => exact safe.turn calm stepped
  | fetch => exact safe.fetch stepped
  | pack => exact safe.pack signs calm stepped
  | send => exact safe.send stepped
  | endTurn => exact safe.endTurn calm stepped
  | publish => exact safe.publish stepped
  | deliver => exact safe.deliver stepped
  | returnStash => exact safe.returnStash stepped
  | compare => exact safe.compare stepped
  | check => exact safe.check stepped
  | push => exact safe.push calm stepped

end

end Server

instance (r : Runtime Query) (now : Time) : Decidable (r.InRange now) :=
  decidable_of_iff (0 < r.tick ∧ 0 < r.period ∧ 0 ≤ r.nextTurn ∧ r.nextTurn * r.period < 2 ^ 63 ∧
      r.age now < 2 ^ 63 ∧ r.age now / r.period < 2 ^ 31)
    ⟨fun ⟨tick, period, nextTurn, deadline, age, height⟩ =>
      ⟨tick, period, nextTurn, deadline, age, height⟩,
      fun ⟨tick, period, nextTurn, deadline, age, height⟩ =>
        ⟨tick, period, nextTurn, deadline, age, height⟩⟩

instance (env : Setting DB Query Pattern Value) (c : Chain DB Query) :
    DecidablePred (Server.Fresh env c)
  | .fetched _ _ _ => inferInstanceAs (Decidable (∀ block ∈ _, _))
  | .syncing | .waiting | .producing _ | .sending _ | .ending | .publishing _ => .isTrue trivial

instance (crypto : Crypto Query) (e : Xenomint.Engine DB Query Pattern Value)
    (c : Chain DB Query) (b : Block Query) : Decidable (c.Admits crypto e b) :=
  inferInstanceAs (Decidable (_ ∧ _))

instance [DecidableEq Query] (env : Setting DB Query Pattern Value) (s : Server DB Query)
    (put : Bool) : DecidablePred (s.Unrivalled env put)
  | .checking _ _ _ => inferInstanceAs (Decidable (∀ cut ∈ _, _))
  | .waiting | .received _ | .due _ => .isTrue trivial

instance [DecidableEq Query] (env : Setting DB Query Pattern Value) (s : Server DB Query) :
    DecidablePred (s.Calm env)
  | .turn now => inferInstanceAs (Decidable (s.chain.rt.InRange now))
  | .pack => inferInstanceAs (Decidable (Server.Fresh env s.chain s.main))
  | .endTurn => inferInstanceAs (Decidable (∀ cut ∈ _, _))
  | .push put => inferInstanceAs (Decidable (s.Unrivalled env put s.processing))
  | .query _ _ | .addResponse _ | .ack _ _ | .updatePeers _ | .syncTurn _ | .synced | .fetch _
  | .send | .publish | .advise _ | .deliver _ | .returnStash | .compare | .check => .isTrue trivial

/-- In a calm run every query that was taken from the pool for a block is in a block of the
chain, once the block is nowhere on its way. -/
theorem cut_queries_kept [DecidableEq Query] (env : Setting DB Query Pattern Value)
    (signs : env.Signs) (start : Chain DB Query) {s : Server DB Query}
    {actions : List (Action Query)}
    (calm : Always (Server.step env) (Server.Calm env) actions (.start start))
    (ran : Lib.run (Server.step env) actions (.start start) = some s) :
    ∀ cut ∈ s.cuts, cut.block ∉ s.outstanding →
      ∃ b ∈ s.chain.blocks, ∀ q ∈ cut.queries, q ∈ b.queryTxs.map QueryAsTx.view := by
  have started : Server.Safe env.crypto (Server.start start) :=
    ⟨nofun, nofun, trivial, fun _ => rfl⟩
  have safe : s.Safe env.crypto :=
    run_invariant (Server.Safe env.crypto)
      (fun s action s' safe calm stepped => safe.step signs calm stepped) started calm ran
  intro cut mem gone
  rcases safe.kept cut mem with pushed | ⟨held, -⟩
  · refine ⟨cut.block, pushed, fun q taken => ?_⟩
    rw [safe.queries cut mem] at taken
    exact taken
  · exact absurd held gone

namespace Sample

def ownTurn : List (Action Nat) :=
  [.synced, .turn 10, .endTurn, .publish, .returnStash, .query write true, .turn 20,
    .fetch packing, .pack, .send]

def nextTurn (sender : Nat) : List (Action Nat) :=
  [.endTurn, .publish, .returnStash, .deliver sender, .compare, .check, .push true]

def lateBlock : List (Action Nat) :=
  [.advise (block "BBBBBBBB" 9000 10 [] []), .deliver 1, .compare, .check, .push true]

lemma signs : setting.Signs := by
  intro hash signature signed
  cases signed
  simp [setting, crypto, env]

end Sample

theorem cut_queries_kept_sample : ∃ s : Server Nat Nat,
      Lib.run (Server.step Sample.setting) (Sample.ownTurn ++ Sample.nextTurn 1)
        (.start (Sample.chain 0)) = some s ∧
      s.cuts.map Cut.queries = [[⟨Sample.write.view, (Sample.response Sample.write 0).view⟩]] ∧
      ∀ cut ∈ s.cuts, cut.block ∉ s.outstanding →
        ∃ b ∈ s.chain.blocks, ∀ q ∈ cut.queries, q ∈ b.queryTxs.map QueryAsTx.view := by
  have calm : Always (Server.step Sample.setting) (Server.Calm Sample.setting)
      (Sample.ownTurn ++ Sample.nextTurn 1) (.start (Sample.chain 0)) := by
    decide
  have ran : Lib.run (Server.step Sample.setting) (Sample.ownTurn ++ Sample.nextTurn 1)
      (.start (Sample.chain 0)) = some _ := rfl
  exact ⟨_, ran, by decide, cut_queries_kept Sample.setting Sample.signs _ calm ran⟩

/-- The block of the first turn arrives when the block of the second is stashed. -/
theorem cut_queries_lost : ∃ s : Server Nat Nat, Lib.run (Server.step Sample.setting)
        (Sample.ownTurn ++ Sample.lateBlock ++ Sample.nextTurn 2) (.start (Sample.chain 0)) =
          some s ∧
      s.cuts.map Cut.queries = [[⟨Sample.write.view, (Sample.response Sample.write 0).view⟩]] ∧
      s.outstanding.length = 0 ∧ (s.chain.blocks.map fun b => b.queryTxs.length) = [0, 0] ∧
      (s.chain.st.commitEx [] []).2.2.length = 0 :=
  ⟨_, rfl, by decide, by decide, by decide, by decide⟩

lemma find_spec {peers} (few : peers.length < 2 ^ 31) (found : find peers server = some i) :
    0 ≤ i ∧ i < peers.length ∧ peers[i.toNat]? = some server := by
  simp only [find, Option.map_eq_some_iff, Option.bind_eq_bind, Option.bind_eq_some_iff] at found
  obtain ⟨-, ⟨j, first, ⟨⟩⟩, rfl⟩ := found
  obtain ⟨inside, same, -⟩ := findIdx?_eq_some_iff_getElem.mp first
  have small : int32 j = j := Int.bmod_eq_of_le (by omega) (by omega)
  rw [small, Int.toNat_natCast, getElem?_eq_getElem inside, eq_of_beq same]
  exact ⟨by omega, by omega, rfl⟩

/-- A peer takes a block of another server only from the one server that finds itself in turn one
turn earlier. -/
theorem accepted_in_turn (crypto : Crypto Query) (e : Xenomint.Engine DB Query Pattern Value)
    {c : Chain DB Query} {b : Block Query} {put : Bool} (few : c.rt.peers.length < 2 ^ 31)
    (new : c.rt.head.head ≠ b.blockHash) (other : b.producer ≠ c.rt.server)
    (ran : (c.checkAndPushNewBlock crypto e b put).2 = .ok ()) (r : Runtime Query)
    (turn : r.nextTurn = c.rt.lastTurn) :
    (r.updatePeers c.rt.peers).isMyTurn = true ↔ r.server = b.producer := by
  have inTurn : find c.rt.peers b.producer = some c.rt.next := by
    unfold Chain.checkAndPushNewBlock at ran
    rw [if_neg fun known => new known.2] at ran
    split at ran
    · cases ran
    · split at ran
      · cases ran
      · cases ran
      · split at ran
        · cases ran
        · rename_i found
          split at ran
          · cases ran
          · rename_i agrees
            rw [found, Classical.not_not.mp agrees]
  obtain ⟨low, high, located⟩ := find_spec few inTurn
  have total : int32 c.rt.peers.length = c.rt.peers.length :=
    Int.bmod_eq_of_le (by omega) (by omega)
  have next : c.rt.next = r.nextTurn.tmod c.rt.peers.length := by
    rw [Runtime.next, total, if_pos (by omega), turn, Runtime.lastTurn]
  unfold Runtime.updatePeers
  cases found : find c.rt.peers r.server with
  | none =>
    -- a server that is no peer has no turn, and the producer is a peer
    have stranger : r.server ≠ b.producer := by
      intro same
      rw [same, inTurn] at found
      cases found
    simp [Runtime.isMyTurn, stranger]
  | some =>
    obtain ⟨-, -, placed⟩ := find_spec few found
    simp only [Runtime.isMyTurn, total, ← next, Bool.and_eq_true, decide_eq_true_eq]
    constructor
    · rintro ⟨-, rfl⟩
      exact Option.some.inj (placed.symm.trans located)
    · intro same
      rw [same, inTurn] at found
      exact ⟨by omega, Option.some.inj found⟩

open Sample in
theorem accepted_in_turn_sample : ((chain 0).endTurn.checkAndPushNewBlock crypto setting.engine
      (block "BBBBBBBB" 9000 10 [] []) true).2 = .ok () ∧
    ∀ server, (({ (chain 0).rt with server := server }).updatePeers
      ["AAAAAAAA", "BBBBBBBB"]).isMyTurn = true ↔ server = "BBBBBBBB" := by
  have ran : ((chain 0).endTurn.checkAndPushNewBlock crypto setting.engine
      (block "BBBBBBBB" 9000 10 [] []) true).2 = .ok () := by rfl
  have turn : (chain 0).rt.nextTurn = (chain 0).endTurn.rt.lastTurn := by decide
  exact ⟨ran, fun server => accepted_in_turn crypto setting.engine (by decide) (by decide)
    (by decide) ran { (chain 0).rt with server := server } turn⟩

end SQLess.SQLChain
