import SQLess.SQLChain.AckIndex
import SQLess.SQLChain.Steps

/-! The acknowledgements of a node. -/

namespace SQLess.SQLChain

open List AckIndex

open Lib (Always run_invariant)
open SQLess.Types

variable {DB Query Pattern Value : Type}

def Acknowledges (height : Time → Int) (a : SignedAckHeader) (h : Int) (key : QueryKey) : Prop :=
  height a.header.response.request.timestamp = h ∧ a.header.getQueryKey = key

def AckIndex.Unacked (height : Time → Int) (packed : List SignedAckHeader) (i : AckIndex)
    (resp : SignedResponseHeader) : Prop :=
  i.ackAt (height resp.header.request.timestamp) resp.header.request.getQueryKey = none ∧
    ∀ a ∈ packed, ¬Acknowledges height a (height resp.header.request.timestamp)
      resp.header.request.getQueryKey

instance (height : Time → Int) (a : SignedAckHeader) (h : Int) (key : QueryKey) :
    Decidable (Acknowledges height a h key) :=
  inferInstanceAs (Decidable (_ ∧ _))

instance (height : Time → Int) (packed : List SignedAckHeader) (i : AckIndex)
    (resp : SignedResponseHeader) : Decidable (i.Unacked height packed resp) :=
  inferInstanceAs (Decidable (_ ∧ _))

structure AckIndex.Booked (height : Time → Int) (packed : List SignedAckHeader) (i : AckIndex) :
    Prop where
  sound : i.Sound
  filed : ∀ h key a, i.ackAt h key = some a → Acknowledges height a h key
  settled : ∀ a ∈ packed, ∀ h key, Acknowledges height a h key →
    i.respAt h key = none ∧ i.ackAt h key ≠ some a

namespace AckIndex

section

variable {height : Time → Int} {packed : List SignedAckHeader} {i i' : AckIndex}

section

variable (booked : Booked height packed i)
include booked

lemma Booked.unpacked (acked : i.ackAt h key = some a) : a ∉ packed :=
  fun packed => (booked.settled a packed h key (booked.filed h key a acked)).2 acked

lemma Booked.shrinks (shrinks : Shrinks i i') (sound : Sound i') : Booked height packed i' where
  sound := sound
  filed h key a acked := booked.filed h key a (shrinks.acks h key a acked)
  settled a mem h key acks :=
    ⟨shrinks.responses h key (booked.settled a mem h key acks).1,
      fun acked => (booked.settled a mem h key acks).2 (shrinks.acks h key a acked)⟩

lemma Booked.addResponse (unacked : Unacked height packed i resp) :
    Booked height packed (i.addResponse (height resp.header.request.timestamp) resp).1 := by
  obtain ⟨-, acks, responses⟩ :=
    addResponse_lookups i (height resp.header.request.timestamp) resp
  refine ⟨booked.sound.update fun _ => ?_, ?_, ?_⟩
  · exact MultiAckIndex.addResponse_balanced (booked.sound.disjoint _) unacked.1
  · intro h key a acked
    rw [acks] at acked
    exact booked.filed h key a acked
  · intro a mem h key acknowledges
    obtain ⟨none, other⟩ := booked.settled a mem h key acknowledges
    refine ⟨?_, ?_⟩
    · rcases responses h key with same | ⟨rfl, rfl⟩
      · rw [same]
        exact none
      · exact absurd acknowledges (unacked.2 a mem)
    · rw [acks]
      exact other

lemma Booked.addResponses (queryTxs : List (QueryAsTx Query))
    (unacked : ∀ v ∈ queryTxs, Unacked height packed i v.response) :
    Booked height packed (queryTxs.foldl (fun i v =>
      (i.addResponse (height v.response.header.request.timestamp) v.response).1) i) := by
  induction queryTxs generalizing i with
  | nil => exact booked
  | cons v rest ih =>
    refine ih (booked.addResponse (unacked v (by simp))) ?_
    intro w mem
    obtain ⟨-, acks, -⟩ :=
      addResponse_lookups i (height v.response.header.request.timestamp) v.response
    obtain ⟨free, other⟩ := unacked w (by simp [mem])
    refine ⟨?_, other⟩
    rw [acks]
    exact free

lemma Booked.register (ack) :
    Booked height packed (i.register (height ack.header.response.request.timestamp) ack).1 := by
  obtain ⟨acks, responses⟩ :=
    register_lookups i (height ack.header.response.request.timestamp) ack
  refine ⟨booked.sound.update fun _ => ?_, ?_, ?_⟩
  · exact MultiAckIndex.register_balanced (booked.sound.disjoint _) ack
  · intro h key a acked
    rcases acks h key a acked with before | ⟨rfl, rfl, rfl, -⟩
    · exact booked.filed h key a before
    · exact ⟨rfl, rfl⟩
  · intro a mem h key acknowledges
    obtain ⟨none, other⟩ := booked.settled a mem h key acknowledges
    refine ⟨responses h key none, fun acked => ?_⟩
    rcases acks h key a acked with before | ⟨rfl, rfl, rfl, found⟩
    · exact other before
    · -- the response of a packed acknowledgement is gone, so it cannot be registered again
      exact found none

lemma Booked.remove (ack) : Booked height (packed ++ [ack])
      (i.remove (height ack.header.response.request.timestamp) ack).1 := by
  obtain ⟨shrinks, noResp, noAck⟩ :=
    remove_lookups i (height ack.header.response.request.timestamp) ack booked.sound
  have shrunk := booked.shrinks shrinks
    (booked.sound.update fun _ => MultiAckIndex.remove_balanced (booked.sound.disjoint _) ack)
  refine ⟨shrunk.sound, shrunk.filed, ?_⟩
  intro a mem h key acknowledges
  rcases mem_append.mp mem with before | here
  · exact shrunk.settled a before h key acknowledges
  · rw [mem_singleton] at here
    subst here
    obtain ⟨rfl, rfl⟩ := acknowledges
    exact ⟨noResp, noAck⟩

lemma Booked.removes (acks) : Booked height (packed ++ acks) (acks.foldl (fun i v =>
      (i.remove (height v.header.response.request.timestamp) v).1) i) := by
  induction acks generalizing i packed with
  | nil =>
    rw [append_nil]
    exact booked
  | cons ack rest ih =>
    rw [append_cons]
    exact ih (booked.remove ack)

lemma Booked.pushed {b : Block Query}
    (unacked : ∀ v ∈ b.queryTxs, Unacked height packed i v.response) :
    Booked height (packed ++ b.acks) (i.pushed height b) :=
  (booked.addResponses b.queryTxs unacked).removes b.acks

lemma Booked.acks (h order) :
    Booked height packed (i.acks h order).1 ∧ ∀ a ∈ (i.acks h order).2, a ∉ packed := by
  obtain ⟨sound, same, indexed⟩ :=
    acksFrom_spec order i.barrier (h + 1 - i.barrier).toNat i booked.sound
  refine ⟨booked.shrinks same.shrinks sound, fun a mem => ?_⟩
  obtain ⟨x, key, acked⟩ := indexed a mem
  exact booked.unpacked acked

end

lemma newAckIndex_booked (height packed) : Booked height packed newAckIndex := by
  have empty : ∀ h key, newAckIndex.respAt h key = none ∧ newAckIndex.ackAt h key = none :=
    fun h key => ⟨rfl, rfl⟩
  refine ⟨newAckIndex_sound, ?_, ?_⟩
  · intro h key a acked
    rw [(empty h key).2] at acked
    cases acked
  · intro a _ h key _
    refine ⟨(empty h key).1, ?_⟩
    rw [(empty h key).2]
    simp

end

end AckIndex

def Chain.packed (c : Chain DB Query) : List SignedAckHeader := c.blocks.flatMap Block.acks

def Node.result (env : Setting DB Query Pattern Value) (n : Node DB Query) :
    Event Query → Except Err Unit
  | .addResponse resp => (n.chain.addResponse resp).2
  | .ack ack put => (n.chain.verifyAndPushAckedQuery env.crypto ack put).2
  | .produce now packing =>
    (n.chain.produceBlock env.crypto env.pk now packing).2.map fun _ => ()
  | .check block put => (n.chain.checkAndPushNewBlock env.crypto env.engine block put).2
  | _ => .ok ()

/-- No response comes after its acknowledgement, acknowledgements are of responses in the index and
get into the database, and no block packs one again. -/
def Node.Orderly (n : Node DB Query) : Event Query → Prop
  | .addResponse resp =>
    n.chain.ai.Unacked n.chain.rt.getHeightFromTime n.chain.packed resp
  | .ack ack put =>
    put = true ∧ ∀ resp ∈ n.chain.ai.respAt
        (n.chain.rt.getHeightFromTime ack.header.response.request.timestamp)
        ack.header.getQueryKey,
      resp.responseHash = ack.header.responseHash
  | .check block _ => block.parentHash = n.chain.rt.head.head →
      (∀ v ∈ block.queryTxs,
        n.chain.ai.Unacked n.chain.rt.getHeightFromTime n.chain.packed v.response) ∧
      block.blockHash ∉ n.chain.hashes ∧
      (block ∈ n.produced ∨ ∀ a ∈ block.acks, a ∉ n.chain.packed)
  | _ => True

instance [DecidableEq Query] (n : Node DB Query) :
    (event : Event Query) → Decidable (n.Orderly event)
  | .query _ _ => .isTrue trivial
  | .addResponse _ => inferInstanceAs (Decidable (AckIndex.Unacked _ _ _ _))
  | .ack _ _ => inferInstanceAs (Decidable (_ ∧ _))
  | .produce _ _ => .isTrue trivial
  | .check _ _ => inferInstanceAs (Decidable (_ → _))
  | .endTurn => .isTrue trivial
  | .setNextTurn _ => .isTrue trivial
  | .updatePeers _ => .isTrue trivial

/-- No acknowledgement is in two blocks, nor in the chain and a produced block that waits for
its place in it. -/
structure Node.Booked (n : Node DB Query) : Prop where
  booked : n.chain.ai.Booked n.chain.rt.getHeightFromTime n.chain.packed
  once : n.chain.blocks.Pairwise fun b b' => ∀ a ∈ b.acks, a ∉ b'.acks
  head : n.chain.rt.head.head ∈ n.chain.hashes
  parents : ∀ b ∈ n.produced, b.parentHash ∈ n.chain.hashes
  waiting : ∀ b ∈ n.produced, b.parentHash = n.chain.rt.head.head → ∀ a ∈ b.acks, a ∉ n.chain.packed

namespace Node

section

variable {n n' : Node DB Query}

lemma Booked.same (booked : n.Booked) (same : Chain.SameBlocks n.chain n'.chain)
    (produced : n'.produced = n.produced)
    (index : n'.chain.ai.Booked n.chain.rt.getHeightFromTime n.chain.packed) : n'.Booked := by
  have packed : n'.chain.packed = n.chain.packed := by
    rw [Chain.packed, Chain.packed, same.blocks]
  refine ⟨?_, ?_, ?_, ?_, ?_⟩
  · rw [same.height, packed]
    exact index
  · rw [same.blocks]
    exact booked.once
  · rw [same.head, same.hashes]
    exact booked.head
  · rw [produced, same.hashes]
    exact booked.parents
  · rw [produced, same.head, packed]
    exact booked.waiting

lemma Booked.produced (booked : n.Booked) (parent : b.parentHash = n.chain.rt.head.head)
    (unpacked : ∀ a ∈ b.acks, a ∉ n.chain.packed) :
    Booked { n with produced := n.produced ++ [b] } := by
  refine ⟨booked.booked, booked.once, booked.head, ?_, ?_⟩
  · intro b' mem
    rcases mem_append.mp mem with before | here
    · exact booked.parents b' before
    · rw [mem_singleton.mp here, parent]
      exact booked.head
  · intro b' mem
    rcases mem_append.mp mem with before | here
    · exact booked.waiting b' before
    · rw [mem_singleton.mp here]
      exact fun _ => unpacked

lemma Booked.accepted {e : Xenomint.Engine DB Query Pattern Value}
    (booked : n.Booked) (accepted : Chain.Accepted crypto e n.chain c b st)
    (unacked : ∀ v ∈ b.queryTxs, n.chain.ai.Unacked n.chain.rt.getHeightFromTime n.chain.packed
      v.response) (fresh : b.blockHash ∉ n.chain.hashes)
    (unpacked : b ∈ n.produced ∨ ∀ a ∈ b.acks, a ∉ n.chain.packed) :
    Booked { n with chain := c } := by
  have blocks : c.blocks = n.chain.blocks ++ [b] := by
    rw [accepted.chain]
    exact n.chain.setHead_blocks b
  have hashes : c.hashes = n.chain.hashes ++ [b.blockHash] := by
    rw [accepted.chain]
    exact n.chain.setHead_hashes b
  have packed : c.packed = n.chain.packed ++ b.acks := by
    simp [Chain.packed, blocks]
  have head : c.rt.head.head = b.blockHash := by
    rw [accepted.chain]
    exact n.chain.setHead_head b
  refine ⟨?_, ?_, ?_, ?_, ?_⟩
  · change c.ai.Booked c.rt.getHeightFromTime c.packed
    rw [packed, accepted.chain]
    exact booked.booked.pushed unacked
  · change c.blocks.Pairwise _
    rw [blocks, pairwise_append]
    refine ⟨booked.once, pairwise_singleton _ _, ?_⟩
    intro b' mem b'' last a inFirst inLast
    rw [mem_singleton] at last
    subst last
    have again : a ∈ n.chain.packed := mem_flatMap.mpr ⟨b', mem, inFirst⟩
    rcases unpacked with own | other
    · exact booked.waiting b'' own accepted.parent a inLast again
    · exact other a inLast again
  · change c.rt.head.head ∈ c.hashes
    rw [head, hashes]
    simp
  · change ∀ b' ∈ n.produced, b'.parentHash ∈ c.hashes
    intro b' mem
    rw [hashes]
    exact mem_append_left _ (booked.parents b' mem)
  · -- a block that waited for the old head never gets its place
    change ∀ b' ∈ n.produced, b'.parentHash = c.rt.head.head → _
    intro b' mem follows
    rw [head] at follows
    exact absurd (follows ▸ booked.parents b' mem) fresh

end

section

variable [DecidableEq Query] {env : Setting DB Query Pattern Value} {n n' : Node DB Query}

lemma Booked.produce (booked : n.Booked) (stepped : n.step env (.produce now p) = some n') :
    n'.Booked := by
  obtain ⟨-, chain, produced⟩ := step_produce stepped
  obtain ⟨index, unpacked⟩ :=
    booked.booked.acks (n.chain.rt.getHeightFromTime now) p.ackOrder
  have same := Chain.produceBlock_same env.crypto env.pk n.chain now p
  rw [← chain] at same
  have kept : n'.chain.ai.Booked n.chain.rt.getHeightFromTime n.chain.packed := by
    rcases Chain.produceBlock_ai env.crypto env.pk n.chain now p with ai | ai
    · rw [chain, ai]
      exact booked.booked
    · rw [chain, ai]
      exact index
  have before : Booked ⟨n'.chain, n.produced⟩ := booked.same same rfl kept
  rcases produced with ⟨b, made, produced⟩ | produced
  · obtain ⟨-, parent, -, -, -, acks, -⟩ := Chain.produceBlock_produced made
    have whole : n' = { (⟨n'.chain, n.produced⟩ : Node DB Query) with
        produced := n.produced ++ [b] } := by
      rw [← produced]
    rw [whole]
    refine before.produced ?_ ?_
    · rw [parent, same.head]
    · intro a mem
      rw [acks] at mem
      rw [Chain.packed, same.blocks]
      exact unpacked a mem
  · exact booked.same same produced kept

lemma Booked.step (booked : n.Booked) (orderly : n.Orderly event)
    (stepped : n.step env event = some n') : n'.Booked := by
  cases event with
  | query req isLeader | setNextTurn turn =>
    cases stepped
    exact booked.same ⟨rfl, rfl, rfl, rfl, rfl, rfl⟩ rfl booked.booked
  | addResponse =>
    cases stepped
    exact booked.same ⟨rfl, rfl, rfl, rfl, rfl, rfl⟩ rfl (booked.booked.addResponse orderly)
  | ack ack put =>
    cases stepped
    refine booked.same (Chain.verifyAndPushAckedQuery_same env.crypto n.chain ack put) rfl ?_
    rcases Chain.verifyAndPushAckedQuery_cases env.crypto n.chain ack put with
      same | ⟨_, rfl, registered, -⟩
    · rw [same]
      exact booked.booked
    · rw [registered]
      exact booked.booked.register ack
  | produce => exact booked.produce stepped
  | check block put =>
    obtain ⟨rfl, -⟩ := step_check stepped
    rcases Chain.checkAndPushNewBlock_checked env.crypto env.engine n.chain block put
      with ⟨st, chain, -⟩ | ⟨st, accepted, -⟩
    · simp only [chain]
      exact booked.same ⟨rfl, rfl, rfl, rfl, rfl, rfl⟩ rfl booked.booked
    · obtain ⟨unacked, fresh, unpacked⟩ := orderly accepted.parent
      exact booked.accepted accepted unacked fresh unpacked
  | endTurn =>
    cases stepped
    refine booked.same ⟨rfl, rfl, rfl, rfl, rfl, rfl⟩ rfl ?_
    exact booked.booked.shrinks (advance_shrinks _ _) (booked.booked.sound.advance _)
  | updatePeers peers =>
    cases stepped
    exact booked.same (Chain.updatePeers_same n.chain peers) rfl booked.booked

lemma Booked.failed (booked : n.Booked) (orderly : n.Orderly event)
    (stepped : n.step env event = some n') (failed : n.result env event = .error err) :
    AckIndex.Same n.chain.ai n'.chain.ai := by
  cases event with
  | addResponse resp =>
    cases stepped
    exact addResponse_error _ _ resp failed
  | ack ack put =>
    cases stepped
    rcases Chain.verifyAndPushAckedQuery_cases env.crypto n.chain ack put with
      same | ⟨registered, rfl, index, passes⟩
    · rw [same]
      exact .refl _
    · rw [index]
      cases result : (n.chain.ai.register
          (n.chain.rt.getHeightFromTime ack.header.response.request.timestamp) ack).2 with
      | error => exact register_error _ _ ack orderly.2 result
      | ok =>
        rw [Node.result, passes result orderly.1] at failed
        cases failed
  | produce now packing =>
    obtain ⟨-, chain, -⟩ := step_produce stepped
    rw [chain]
    rcases Chain.produceBlock_ai env.crypto env.pk n.chain now packing with ai | ai
    · rw [ai]
      exact .refl _
    · rw [ai]
      exact (acksFrom_spec _ _ _ _ booked.booked.sound).2.1
  | check block put =>
    obtain ⟨rfl, alive⟩ := step_check stepped
    rcases Chain.checkAndPushNewBlock_checked env.crypto env.engine n.chain block put
      with ⟨st, chain, -⟩ | ⟨-, -, passed | panics, -⟩
    · simp only [chain]
      exact .refl _
    · rw [Node.result, passed] at failed
      cases failed
    · exact absurd panics alive
  | query | endTurn | setNextTurn | updatePeers => cases failed

end

end Node

structure Chain.Loading.Uncached (l : Chain.Loading Query) : Prop where
  head : l.rt.head.node = none
  last : ∀ node, l.last = some node → node.blocks = []
  index : ∀ hash node, l.bi.get hash = some node → node.blocks = []

namespace Chain

lemma Loading.Uncached.add {l : Loading Query} (uncached : l.Uncached) (b)
    (parents : ∀ node, parent = some node → node.blocks = []) : (l.add b parent).Uncached := by
  have made : (newBlockNodeEx (l.rt.getHeightFromTime b.timestamp) b.blockHash none parent).blocks
      = [] := by
    cases parent with
    | none => rfl
    | some node => simp [newBlockNodeEx, BlockNode.blocks, parents node rfl]
  refine ⟨uncached.head, ?_, ?_⟩
  · intro node last
    cases last
    exact made
  · intro hash node indexed
    rw [Loading.add, Lib.FiniteMap.get_insert] at indexed
    split_ifs at indexed with here
    · cases indexed
      exact made
    · exact uncached.index hash node indexed

lemma Loading.Uncached.next {l l' : Loading Query}
    (uncached : l.Uncached) (read : l.next crypto b = .ok l') : l'.Uncached := by
  unfold Loading.next at read
  cases last : l.last with
  | none =>
    simp only [last] at read
    cases verified : b.verifyAsGenesis crypto with
    | error => simp [verified] at read
    | ok =>
      simp only [verified] at read
      cases read
      have started : Loading.Uncached ({ l with rt := l.rt.setGenesis b } : Loading Query) :=
        ⟨rfl, uncached.last, uncached.index⟩
      exact started.add b fun node absent => by cases absent
  | some node =>
    simp only [last] at read
    by_cases follows : b.parentHash = node.hash
    · simp only [if_pos follows] at read
      rcases verified : b.verify crypto with _ | err | _
      · simp [verified] at read
      · simp [verified] at read
      · simp only [verified] at read
        cases read
        refine uncached.add b ?_
        intro node' same
        cases same
        exact uncached.last node last
    · simp only [if_neg follows] at read
      cases parent : l.bi.get b.parentHash with
      | none => simp [parent] at read
      | some =>
        simp only [parent] at read
        cases read
        refine uncached.add b ?_
        intro node'' same
        cases same
        exact uncached.index _ _ parent

lemma Loading.Uncached.load (blocks) {l l' : Loading Query} (uncached : l.Uncached)
    (loaded : loadBlocks crypto blocks l = .ok l') : l'.Uncached := by
  induction blocks generalizing l with
  | nil =>
    cases loaded
    exact uncached
  | cons b rest ih =>
    rw [loadBlocks] at loaded
    cases read : l.next crypto b with
    | error => simp [read] at loaded
    | ok =>
      simp only [read] at loaded
      exact ih (uncached.next read) loaded

end Chain

lemma Node.Booked.opened {c : Chain DB Query} (index : c.ai.Booked c.rt.getHeightFromTime c.packed)
    (once : c.blocks.Pairwise fun b b' => ∀ a ∈ b.acks, a ∉ b'.acks)
    (head : c.rt.head.head ∈ c.hashes) : Node.Booked ⟨c, []⟩ :=
  ⟨index, once, head, fun _ mem => absurd mem not_mem_nil, fun _ mem => absurd mem not_mem_nil⟩

lemma Chain.pushGenesis_booked {c : Chain DB Query} (headless : c.rt.head.node = none)
    (index : c.ai = newAckIndex) (genesis) : Node.Booked ⟨{ c.setHead genesis with
      ai := c.ai.pushed c.rt.getHeightFromTime genesis }, []⟩ := by
  have blocks : (c.setHead genesis).blocks = [genesis] := by
    rw [setHead_blocks]
    simp [Chain.blocks, headless]
  have packed : (c.setHead genesis).packed = [] ++ genesis.acks := by
    simp [Chain.packed, blocks]
  have pushed := (newAckIndex_booked c.rt.getHeightFromTime []).pushed
    (b := genesis) fun _ _ => ⟨rfl, fun _ mem => absurd mem not_mem_nil⟩
  rw [← packed, ← index] at pushed
  have once : (c.setHead genesis).blocks.Pairwise fun b b' => ∀ a ∈ b.acks, a ∉ b'.acks := by
    rw [blocks]
    exact pairwise_singleton _ _
  have head : (c.setHead genesis).rt.head.head ∈ (c.setHead genesis).hashes := by
    rw [setHead_head, setHead_hashes]
    simp
  exact .opened pushed once head

lemma newChain_booked {c : Chain DB Query}
    (opened : Chain.newChain crypto config strg blkDB = .ok c) : Node.Booked ⟨c, []⟩ := by
  have initial : Chain.Loading.Uncached (⟨.newRunTime config, ∅, none, 0⟩ :
      Chain.Loading Query) := by
    refine ⟨?_, nofun, fun hash node indexed => ?_⟩
    · unfold Runtime.newRunTime
      cases config.genesis <;> rfl
    · simp at indexed
  simp only [Chain.newChain] at opened
  cases loaded : Chain.loadBlocks crypto blkDB.values ⟨.newRunTime config, ∅, none, 0⟩ with
  | error => simp [loaded] at opened
  | ok l =>
    have uncached := initial.load blkDB.values loaded
    simp only [loaded] at opened
    cases last : l.last with
    | some node =>
      simp only [last] at opened
      split at opened
      · cases opened
      cases opened
      refine .opened (newAckIndex_booked _ _) ?_ node.hash_mem_hashes
      change node.blocks.Pairwise _
      rw [uncached.last node last]
      exact .nil
    | none =>
      simp only [last] at opened
      cases given : config.genesis with
      | none => simp [given] at opened
      | some genesis =>
        simp only [given] at opened
        cases verified : genesis.verifyAsGenesis crypto with
        | error => simp [verified] at opened
        | ok =>
          simp only [verified, Chain.pushBlock_eq] at opened
          split at opened
          · cases opened
          rename_i pushed
          cases opened
          obtain ⟨rfl, -⟩ := Prod.mk.inj pushed
          exact Chain.pushGenesis_booked uncached.head rfl genesis

/-- On a chain driven in an orderly way, no key is in both maps of a height, the counters count the
maps, an operation that fails changes no lookup, and no acknowledgement is in two blocks. -/
theorem acks_once [DecidableEq Query] (env : Setting DB Query Pattern Value)
    (config : Config Query) (strg : DB) (blkDB : Lib.OrderedStore Nat (Block Query))
    {start : Chain DB Query} {n : Node DB Query} {events : List (Event Query)}
    (opened : Chain.newChain env.crypto config strg blkDB = .ok start)
    (orderly : Always (Node.step env) Node.Orderly events ⟨start, []⟩)
    (ran : Node.run env events ⟨start, []⟩ = some n) :
    (∀ h key, n.chain.ai.respAt h key = none ∨ n.chain.ai.ackAt h key = none) ∧
      n.chain.ai.responseCount = (n.chain.ai.total MultiAckIndex.respCard : BitVec 32) ∧
      n.chain.ai.ackCount = (n.chain.ai.total MultiAckIndex.ackCard : BitVec 32) ∧
      (∀ event n' err, n.Orderly event → n.step env event = some n' →
        n.result env event = .error err → AckIndex.Same n.chain.ai n'.chain.ai) ∧
      (n.chain.ai.total MultiAckIndex.respCard < 2 ^ 31 →
        n.chain.ai.responseCount.toInt = n.chain.ai.total MultiAckIndex.respCard) ∧
      (n.chain.ai.total MultiAckIndex.ackCard < 2 ^ 31 →
        n.chain.ai.ackCount.toInt = n.chain.ai.total MultiAckIndex.ackCard) ∧
      n.chain.blocks.Pairwise fun b b' => ∀ a ∈ b.acks, a ∉ b'.acks := by
  have booked : n.Booked :=
    run_invariant Node.Booked (fun n event n' booked orderly stepped => booked.step orderly stepped)
      (newChain_booked opened) orderly ran
  have exactly {count : BitVec 32} {size : Nat} (counted : count = size) (small : size < 2 ^ 31) :
      count.toInt = size := by
    rw [counted, BitVec.natCast_eq_ofNat, BitVec.toInt_eq_toNat_bmod, BitVec.toNat_ofNat,
      Nat.mod_eq_of_lt (by omega)]
    exact Int.bmod_eq_of_le (by omega) (by omega)
  refine ⟨booked.booked.sound.disjoint, booked.booked.sound.responses, booked.booked.sound.acks,
    ?_, exactly booked.booked.sound.responses, exactly booked.booked.sound.acks, booked.once⟩
  intro event n' err orderly stepped failed
  exact booked.failed orderly stepped failed

namespace Sample

def firstTx : QueryAsTx Nat := ⟨write, response write 0⟩

def secondTx : QueryAsTx Nat :=
  let req := request 2 15 .writeQuery [6]
  ⟨req, { response req 1 with header := { (response req 1).header with lastInsertID := 5 } }⟩

def packingOf (tx : QueryAsTx Nat) : Chain.Packing Nat :=
  ⟨[], [], fun h => if h = 0 then [write.header.getQueryKey] else [], [], [tx]⟩

def cutBlock (parent : Hash) (time : Time) (tx : QueryAsTx Nat) (acks : List SignedAckHeader) :
    Block Nat :=
  { block "AAAAAAAA" parent time [tx] acks with
    verifier := signed 7 (BitVec.ofInt 256 (9000 - time)) }

def ackedLater : List (Event Nat) :=
  [.query write true, .addResponse firstTx.response, .produce 10 (packingOf firstTx),
    .check (cutBlock 9000 10 firstTx []) true, .ack (ack firstTx.response) true,
    .query secondTx.request true, .addResponse secondTx.response,
    .produce 20 (packingOf secondTx),
    .check (cutBlock 8990 20 secondTx [ack firstTx.response]) true]

def ackedEarly : List (Event Nat) :=
  [.query write true, .addResponse firstTx.response, .ack (ack firstTx.response) true,
    .produce 10 (packingOf firstTx), .check (cutBlock 9000 10 firstTx [ack firstTx.response]) true,
    .query secondTx.request true, .produce 20 (packingOf secondTx),
    .check (cutBlock 8990 20 secondTx [ack firstTx.response]) true]

end Sample

theorem acks_once_sample :
    ∃ n : Node Nat Nat, Node.run Sample.setting Sample.ackedLater ⟨Sample.chain 0, []⟩ = some n ∧
      n.chain.blocks.map Block.acks = [[], [], [Sample.ack Sample.firstTx.response]] ∧
      n.chain.ai.responseCount = (n.chain.ai.total MultiAckIndex.respCard : BitVec 32) ∧
      n.chain.blocks.Pairwise fun b b' => ∀ a ∈ b.acks, a ∉ b'.acks := by
  have orderly : Always (Node.step Sample.setting) Node.Orderly Sample.ackedLater
      ⟨Sample.chain 0, []⟩ := by
    decide
  have ran : Node.run Sample.setting Sample.ackedLater ⟨Sample.chain 0, []⟩ = some _ := rfl
  obtain ⟨-, responses, -, -, -, -, once⟩ :=
    acks_once Sample.setting Sample.config 0 .empty (Sample.newChain_sample 0) orderly ran
  exact ⟨_, ran, by decide, responses, once⟩

/-- Pushing the first block adds the response again. -/
theorem acks_twice :
    (∃ n : Node Nat Nat, Node.run Sample.setting Sample.ackedEarly ⟨Sample.chain 0, []⟩ = some n ∧
      n.chain.blocks.map Block.acks = [[], [Sample.ack Sample.firstTx.response],
        [Sample.ack Sample.firstTx.response]]) ∧
    ∃ n : Node Nat Nat, Node.run Sample.setting [.addResponse Sample.firstTx.response,
          .ack (Sample.ack Sample.firstTx.response) true,
          .addResponse Sample.firstTx.response] ⟨Sample.chain 0, []⟩ = some n ∧
      (n.chain.ai.respAt 0 Sample.write.header.getQueryKey).isSome ∧
      (n.chain.ai.ackAt 0 Sample.write.header.getQueryKey).isSome :=
  ⟨⟨_, rfl, by decide⟩, _, rfl, rfl, rfl⟩

end SQLess.SQLChain
