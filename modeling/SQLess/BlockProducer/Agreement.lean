import SQLess.BlockProducer.Preview

/-! Block producers that start from one genesis and receive blocks in different orders. -/

namespace SQLess.BlockProducer

open Lib List BlockNode

variable {env : Env} {received : BPBlock → Prop} {producing producing' : Prop}
  {config config' : Config} {c₀ c₁ c c' : Chain}

lemma Replays.unique {base txs left right} (first : Replays env base txs left)
    (second : Replays env base txs right) : left = right := by
  obtain ⟨s, ran, rfl⟩ := first fun _ => .byNodeID
  obtain ⟨s', ran', rfl⟩ := second fun _ => .byNodeID
  rw [ran, Except.ok.injEq] at ran'
  rw [ran']

lemma run_config (opened : Opened env config c₀) (run : Run env received producing c₀ c) :
    c.config = config := by
  obtain ⟨-, st, -, rfl⟩ := opened_eq opened
  exact (run.preserves (·.config = config) rfl rfl fun _ _ _ same effect =>
    effect.config_eq.trans same).2

/-- What two nodes made irreversible differs only if a head lies more than `confirms` blocks past
the last block they share. -/
theorem runs_finalise (free : CollisionFree env received) (seen : received config.genesis)
    (seen' : received config'.genesis) (opened : Opened env config c₀)
    (opened' : Opened env config' c₁) (run : Run env received producing c₀ c)
    (run' : Run env received producing' c₁ c') (last : Nat)
    (shared : c.headBranch.head.trail.take (last + 1) = c'.headBranch.head.trail.take (last + 1))
    (near : c.headBranch.head.count ≤ last + config.confirms)
    (near' : c'.headBranch.head.count ≤ last + config'.confirms) :
    c.lastIrre.trail <+: c'.lastIrre.trail ∨ c'.lastIrre.trail <+: c.lastIrre.trail := by
  have leading : ∀ {p config c₀ c}, received config.genesis → Opened env config c₀ →
      Run env received p c₀ c → c.headBranch.head.count ≤ last + config.confirms →
      c.lastIrre.trail <+: c.headBranch.head.trail.take (last + 1) := by
    intro p config c₀ c seen opened run near
    obtain ⟨headAt₀, anchored₀, settled₀⟩ := opened_anchored seen opened
    obtain ⟨headAt, anchored, settled, -⟩ := run_anchored free headAt₀ anchored₀ settled₀ run
    rw [Chain.Settled, run_config opened run] at settled
    rw [prefix_take_iff, trail_length]
    exact ⟨anchored.rooted _ (mem_of_getElem? headAt), by omega⟩
  exact prefix_or_prefix_of_prefix (leading seen opened run near)
    (shared ▸ leading seen' opened' run' near')

open Sample in
theorem runs_finalise_rival : ∃ c c' : Chain, c.lastIrre.trail = [1000, 1001] ∧
    c'.branches.length = 2 ∧
    (c.lastIrre.trail <+: c'.lastIrre.trail ∨ c'.lastIrre.trail <+: c.lastIrre.trail) := by
  have start : Run Sample.env (· ∈ [genesis [], first, rival, second]) True (chain [] 1)
      (receive first (chain [] 1)) := run_receive .refl first (by simp) (by decide) (by decide)
  have opened : Opened Sample.env (Sample.config [] 1) (chain [] 1) :=
    genesisChain_opened choice.immutableOrders (by decide) (by rfl)
  exact ⟨_, _, by decide, by decide, runs_finalise (collisionFree_of_list (by decide))
    (by exact .head _) (by exact .head _) opened opened
    (run_receive start second (by simp) (by decide) (by decide))
    (run_receive start rival (by simp) (by decide) (by decide)) 1 (by decide) (by decide)
    (by decide)⟩

/-- Nodes with the same last irreversible block have the same immutable state, and branches that
end in the same block have the same preview. -/
theorem runs_agree (free : CollisionFree env (Known config received))
    (content : SameTransactions (Known config received)) (plain : PlainBlocks received)
    (opened : Opened env config c₀)
    (distinct : DistinctProviders env (Known config received) config c₀.immutable.readonly)
    (run : Run env received False c₀ c) (run' : Run env received False c₀ c') :
    (c.lastIrre.count = c'.lastIrre.count → c.lastIrre.hash = c'.lastIrre.hash →
      c.immutable = c'.immutable) ∧
    ∀ b ∈ c.branches, ∀ b' ∈ c'.branches, b.head.count = b'.head.count →
      b.head.hash = b'.head.hash → b.preview = b'.preview := by
  have left := run_faithful free content plain opened distinct run
  have right := run_faithful free content plain opened distinct run'
  have same : c'.config = c.config := (run_config opened run').trans (run_config opened run).symm
  -- the hash of a block determines the transactions of all blocks up to it
  have agree : ∀ {n m : BlockNode}, n.Linked (ValidNode env (Known config received) c.config) →
      m.Linked (ValidNode env (Known config received) c'.config) → n.count = m.count →
      n.hash = m.hash → n.history = m.history := by
    intro n m linked linked' count hash
    rw [same] at linked'
    rw [history, history, linked.contents_eq linked' (content.node_eq free) count hash]
  refine ⟨fun count hash => ?_, fun b member b' member' count hash => ?_⟩
  · have first := left.replayed.immutable
    rw [agree left.anchored.irreLinked right.anchored.irreLinked count hash] at first
    rw [left.replayed.committed.eq, right.replayed.committed.eq,
      first.unique right.replayed.immutable]
  · have live := left.replayed.live b member
    have live' := right.replayed.live b' member'
    have first := live.preview
    rw [agree (left.anchored.linked b member) (right.anchored.linked b' member') count hash]
      at first
    rw [live.committed.eq, live'.committed.eq, first.unique live'.preview]

open Sample in
theorem runs_agree_rival : ∃ c c' : Chain, c.branches.map (·.head.hash) = [1005] ∧
    c'.branches.map (·.head.hash) = [1005, 1011] ∧ ∀ b ∈ c.branches, ∀ b' ∈ c'.branches,
      b.head.count = b'.head.count → b.head.hash = b'.head.hash → b.preview = b'.preview := by
  have start : Run Sample.env (· ∈ [paid, early, other]) False funded (receive paid funded) :=
    run_receive .refl paid (by simp) (by decide +kernel) (by decide +kernel)
  have run := run_receive start early (by simp) (by decide +kernel) (by decide +kernel)
  have run' := run_receive (run_receive start other (by simp) (by decide +kernel)
    (by decide +kernel)) early (by simp) (by decide +kernel) (by decide +kernel)
  have plain : PlainBlocks (· ∈ [paid, early, other]) := by
    unfold PlainBlocks
    decide +kernel
  exact ⟨_, _, by decide +kernel, by decide +kernel, (runs_agree
    (collisionFree_known (by decide +kernel)) (sameTransactions_known (by decide +kernel)) plain
    funded_opened (distinctProviders_known funded_providers (by decide +kernel)) run run').2⟩

end SQLess.BlockProducer
