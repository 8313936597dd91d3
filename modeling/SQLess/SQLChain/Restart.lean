import SQLess.SQLChain.Reload
import SQLess.Xenomint.Tally

/-! The sequence number after a restart. -/

namespace SQLess.SQLChain

open List

open Lib (FiniteMap OrderedStore playback)
open SQLess.Types
open Xenomint (State Engine Tallied Tallies execAll)

variable {DB Query Pattern Value : Type}

def EndsBy (b : Block Query) (seq : Nat) : Prop :=
  ∀ q ∈ b.queryTxs, q.request.header.queryType = .writeQuery →
    q.response.header.logOffset + q.request.queries.length ≤ seq

lemma EndsBy.mono {b : Block Query} (ends : EndsBy b seq) (le : seq ≤ seq') : EndsBy b seq' :=
  fun q member type => (ends q member type).trans le

section

variable {crypto : Crypto Query} {l l' : Chain.Loading Query}

lemma calcNextIDFrom_le (txs : List (QueryAsTx Query)) (id ok) :
    id ≤ (Block.calcNextIDFrom id ok txs).1 ∧
      (ok = true → (Block.calcNextIDFrom id ok txs).2 = true) ∧
      ∀ q ∈ txs, q.request.header.queryType = .writeQuery →
        q.response.header.logOffset + q.request.queries.length ≤
            (Block.calcNextIDFrom id ok txs).1 ∧ (Block.calcNextIDFrom id ok txs).2 = true := by
  induction txs generalizing id ok with
  | nil => simp [Block.calcNextIDFrom]
  | cons v rest ih =>
    rw [Block.calcNextIDFrom]
    by_cases type : v.request.header.queryType = .writeQuery
    · rw [if_pos type]
      obtain ⟨further, found, later⟩ :=
        ih (max id (v.response.header.logOffset + v.request.queries.length)) true
      refine ⟨(Nat.le_max_left _ _).trans further, fun _ => found rfl, ?_⟩
      intro q member kind
      rcases mem_cons.mp member with rfl | behind
      · exact ⟨(Nat.le_max_right _ _).trans further, found rfl⟩
      · exact later q behind kind
    · rw [if_neg type]
      obtain ⟨further, found, later⟩ := ih id ok
      refine ⟨further, found, ?_⟩
      intro q member kind
      rcases mem_cons.mp member with rfl | behind
      · exact absurd kind type
      · exact later q behind kind

lemma calcNextIDFrom_endsBy {txs : List (QueryAsTx Query)} {id seq ok} (start : id ≤ seq)
    (ends : ∀ q ∈ txs, q.request.header.queryType = .writeQuery →
      q.response.header.logOffset + q.request.queries.length ≤ seq) :
    (Block.calcNextIDFrom id ok txs).1 ≤ seq := by
  induction txs generalizing id ok with
  | nil => exact start
  | cons v rest ih =>
    have behind := fun q member => ends q (mem_cons_of_mem v member)
    rw [Block.calcNextIDFrom]
    by_cases type : v.request.header.queryType = .writeQuery
    · rw [if_pos type]
      exact ih (max_le start (ends v mem_cons_self type)) behind
    · rw [if_neg type]
      exact ih start behind

lemma next_added (loaded : l.next crypto b = .ok l') :
    ∃ rt parent, l' = Chain.Loading.add { l with rt := rt } b parent := by
  unfold Chain.Loading.next at loaded
  cases last : l.last with
  | none =>
    simp only [last] at loaded
    cases checked : b.verifyAsGenesis crypto with
    | error => simp [checked] at loaded
    | ok =>
      simp only [checked, Except.ok.injEq] at loaded
      exact ⟨l.rt.setGenesis b, none, by rw [← loaded, ← last]⟩
  | some node =>
    simp only [last] at loaded
    by_cases follows : b.parentHash = node.hash
    · simp only [if_pos follows] at loaded
      rcases checked : b.verify crypto with _ | err | _
      · simp [checked] at loaded
      · simp [checked] at loaded
      · simp only [checked, Except.ok.injEq] at loaded
        exact ⟨l.rt, some node, loaded.symm⟩
    · simp only [if_neg follows] at loaded
      cases found : l.bi.get b.parentHash with
      | none => simp [found] at loaded
      | some parent =>
        simp only [found, Except.ok.injEq] at loaded
        exact ⟨l.rt, some parent, loaded.symm⟩

lemma loadBlocks_id (loaded : Chain.loadBlocks crypto blocks l = .ok l') :
    l.id ≤ l'.id ∧ (∀ b ∈ blocks, EndsBy b l'.id) ∧
      ∀ seq, l.id ≤ seq → (∀ b ∈ blocks, EndsBy b seq) → l'.id ≤ seq := by
  induction blocks generalizing l with
  | nil =>
    cases loaded
    exact ⟨Nat.le_refl _, by simp, fun _ start _ => start⟩
  | cons b rest ih =>
    rw [Chain.loadBlocks] at loaded
    cases advanced : l.next crypto b with
    | error => simp [advanced] at loaded
    | ok between =>
      simp only [advanced] at loaded
      obtain ⟨further, ends, least⟩ := ih loaded
      obtain ⟨rt, parent, added⟩ := next_added advanced
      have id : between.id = if b.calcNextID.2 = true ∧ l.id < b.calcNextID.1 then
          b.calcNextID.1 else l.id := by
        rw [added]
        rfl
      obtain ⟨-, -, own⟩ := calcNextIDFrom_le b.queryTxs 0 false
      refine ⟨?_, ?_, ?_⟩
      · split_ifs at id <;> omega
      · intro b' member
        rcases mem_cons.mp member with rfl | behind
        · intro q inside type
          obtain ⟨le, found⟩ := own q inside type
          change _ ≤ b'.calcNextID.1 at le
          change b'.calcNextID.2 = true at found
          simp only [found, true_and] at id
          split_ifs at id <;> omega
        · exact ends b' behind
      · intro seq start all
        refine least seq ?_ fun b' member => all b' (mem_cons_of_mem b member)
        have top : b.calcNextID.1 ≤ seq :=
          calcNextIDFrom_endsBy (Nat.zero_le _) (all b mem_cons_self)
        split_ifs at id <;> omega

lemma loadBlocks_last (nonempty : blocks ≠ [])
    (loaded : Chain.loadBlocks crypto blocks l = .ok l') : ∃ node, l'.last = some node := by
  induction blocks generalizing l with
  | nil => exact absurd rfl nonempty
  | cons b rest ih =>
    rw [Chain.loadBlocks] at loaded
    cases advanced : l.next crypto b with
    | error => simp [advanced] at loaded
    | ok =>
      simp only [advanced] at loaded
      cases rest with
      | nil =>
        cases loaded
        obtain ⟨rt, parent, added⟩ := next_added advanced
        exact ⟨_, congrArg Chain.Loading.last added⟩
      | cons => exact ih (by simp) loaded

lemma newChain_stored {c : Chain DB Query} (nonempty : store.values ≠ [])
    (opened : Chain.newChain crypto config strg store = .ok c) :
    ∃ l, Chain.loadBlocks crypto store.values ⟨.newRunTime config, ∅, none, 0⟩ = .ok l ∧
      c.st = { State.newState config.isolationLevel strg with current := l.id } ∧
      c.blkDB = store := by
  cases loaded : Chain.loadBlocks crypto store.values ⟨.newRunTime config, ∅, none, 0⟩ with
  | error => simp [Chain.newChain, loaded] at opened
  | ok l =>
    obtain ⟨last, read⟩ := loadBlocks_last nonempty loaded
    simp only [Chain.newChain, loaded, read] at opened
    split at opened
    · cases opened
    cases opened
    exact ⟨l, rfl, rfl, rfl⟩

end

def Setting.traced (env : Setting DB Query Pattern Value) :
    Setting (DB × List Pattern) Query Pattern Value :=
  ⟨env.crypto, env.engine.traced, env.pk⟩

def Node.reopen (crypto : Crypto Query) (config : Config Query) (n : Node DB Query) :
    Option (Node DB Query) :=
  match Chain.newChain crypto config n.chain.st.strg n.chain.blkDB with
  | .error _ => none
  | .ok c => some { n with chain := c }

inductive Act (Query : Type) where
  | event (event : Event Query)
  | restart

/-- Every statement in the storage is one of a write in a stored block. -/
def Node.Covered (n : Node (DB × List Pattern) Query) : Prop :=
  ∀ i < n.chain.st.strg.2.length, ∃ b ∈ n.chain.blkDB.values, ∃ q ∈ b.queryTxs,
    q.request.header.queryType = .writeQuery ∧ q.response.header.logOffset ≤ i ∧
      i < q.response.header.logOffset + q.request.queries.length

def Node.Fair (e : Engine DB Query Pattern Value) (n : Node DB Query) : Event Query → Prop
  | .query req isLeader =>
    req.header.queryType = .writeQuery → 1 < req.queries.length →
      n.chain.st.level = .readUncommitted →
        ∃ response, (n.chain.st.query e req.view isLeader).2 = .ok response
  | .check block _ =>
    (block.producer = n.chain.rt.server → block ∈ n.produced) ∧
      (block.producer ≠ n.chain.rt.server →
        EndsBy block (n.chain.st.replayBlock e block.view).1.current)
  | _ => True

section

variable [DecidableEq Query]

def Node.live (env : Setting DB Query Pattern Value) (config : Config Query) (n : Node DB Query) :
    Act Query → Option (Node DB Query)
  | .event event => n.step env event
  | .restart => n.reopen env.crypto config

inductive Life (env : Setting (DB × List Pattern) Query Pattern Value) (config : Config Query) :
    List (Act Query) → Node (DB × List Pattern) Query → Node (DB × List Pattern) Query → Prop
  | nil (n : Node (DB × List Pattern) Query) : Life env config [] n n
  | event {event : Event Query} {acts : List (Act Query)}
      {n between n' : Node (DB × List Pattern) Query} (fair : n.Fair env.engine event)
      (stepped : n.live env config (.event event) = some between)
      (rest : Life env config acts between n') : Life env config (.event event :: acts) n n'
  | restart {acts : List (Act Query)} {n between n' : Node (DB × List Pattern) Query}
      (covered : n.Covered) (opened : n.live env config .restart = some between)
      (rest : Life env config acts between n') : Life env config (.restart :: acts) n n'

end

structure Kept (n : Node (DB × List Pattern) Query) : Prop where
  tallied : Tallied n.chain.st
  produced : ∀ b ∈ n.produced, EndsBy b n.chain.st.strg.2.length
  stored : ∀ b ∈ n.chain.blkDB.values, EndsBy b n.chain.st.strg.2.length
  nonempty : n.chain.blkDB.values ≠ []

section

variable {env : Setting DB Query Pattern Value} {config : Config Query}
  {n n' : Node (DB × List Pattern) Query}

lemma values_put_ne_nil (store : OrderedStore Nat (Block Query)) (key b) :
    (store.put key b).values ≠ [] := by
  rcases store with ⟨_ | ⟨first, rest⟩, ascending⟩
  · simp [OrderedStore.put, OrderedStore.values, Lib.putEntry]
  · simp only [OrderedStore.put, OrderedStore.values, Lib.putEntry]
    split_ifs <;> simp

lemma Kept.same (kept : Kept n) (blkDB : n'.chain.blkDB = n.chain.blkDB)
    (produced : n'.produced = n.produced) (tallies : Tallies n.chain.st n'.chain.st) : Kept n' := by
  refine ⟨tallies.tallied, ?_, ?_, blkDB ▸ kept.nonempty⟩
  · rw [produced]
    exact fun b member => (kept.produced b member).mono tallies.strg
  · rw [blkDB]
    exact fun b member => (kept.stored b member).mono tallies.strg

lemma Kept.accepted (kept : Kept n)
    (accepted : Chain.Accepted env.crypto env.engine.traced n.chain n'.chain b st)
    (produced : n'.produced = n.produced) (tallies : Tallies n.chain.st st)
    (ends : EndsBy b st.strg.2.length) : Kept n' := by
  have state : n'.chain.st = st := by rw [accepted.chain]
  have store : n'.chain.blkDB = (n.chain.setHead b).blkDB := by rw [accepted.chain]
  refine ⟨state ▸ tallies.tallied, ?_, ?_, ?_⟩
  · rw [produced, state]
    exact fun b member => (kept.produced b member).mono tallies.strg
  · rw [store, state]
    intro found member
    rcases OrderedStore.mem_values_put member with rfl | old
    · exact ends
    · exact (kept.stored found old).mono tallies.strg
  · rw [store]
    exact values_put_ne_nil _ _ _

lemma packs_endsBy [DecidableEq Query] {p} {c : Chain (DB × List Pattern) Query}
    (tallied : Tallied c.st) (packs : c.Packs p) (q) (member : q ∈ p.queryTxs)
    (type : q.request.header.queryType = .writeQuery) :
    q.response.header.logOffset + q.request.queries.length ≤ c.st.current := by
  have listed : q.view ∈ (c.st.commitEx p.failedOrder p.readOrder).2.2.map
      fun v => (⟨v.req, v.resp⟩ : Xenomint.QueryAsTx Query) :=
    packs.2 ▸ mem_map_of_mem member
  obtain ⟨v, pooled, same⟩ := mem_map.mp listed
  have request : v.req = q.request.view := congrArg Xenomint.QueryAsTx.request same
  have response : v.resp = q.response.view := congrArg Xenomint.QueryAsTx.response same
  simp only [State.commitEx] at pooled
  rcases mem_append.mp pooled with write | read
  · have ends := tallied.pooled v write
    rw [request, response] at ends
    exact ends
  · obtain ⟨hash, -, found⟩ := mem_filterMap.mp read
    have kind := tallied.reads hash v found
    rw [request] at kind
    exact absurd (type.symm.trans kind) (by simp)

lemma newChain_kept {start : Chain (DB × List Pattern) Query}
    (given : config.genesis = some genesis) (blank : genesis.queryTxs = [])
    (opened : Chain.newChain env.crypto config (empty, []) .empty = .ok start) :
    Kept ⟨start, []⟩ := by
  simp only [Chain.newChain, OrderedStore.values, OrderedStore.empty, map_nil,
    Chain.loadBlocks, given] at opened
  cases verified : genesis.verifyAsGenesis env.crypto with
  | error => simp [verified] at opened
  | ok =>
    simp only [verified, Chain.pushBlock_eq] at opened
    split at opened
    · cases opened
    rename_i pushed
    cases opened
    obtain ⟨rfl, -⟩ := Prod.mk.inj pushed
    refine ⟨Xenomint.newState_tallied config.isolationLevel (empty, []), by simp, ?_,
      values_put_ne_nil _ _ _⟩
    intro b member
    rcases OrderedStore.mem_values_put member with rfl | old
    · intro q inside
      rw [blank] at inside
      cases inside
    · cases old

lemma Kept.reopened_current (kept : Kept n)
    (covered : n.Covered)
    (opened : Chain.newChain env.crypto config n.chain.st.strg n.chain.blkDB = .ok c) :
    c.st = { State.newState config.isolationLevel n.chain.st.strg with
        current := n.chain.st.strg.2.length } ∧ c.blkDB = n.chain.blkDB := by
  obtain ⟨l, loaded, state, store⟩ := newChain_stored kept.nonempty opened
  obtain ⟨-, ends, least⟩ := loadBlocks_id loaded
  have upper := least n.chain.st.strg.2.length (Nat.zero_le _) kept.stored
  have lower : n.chain.st.strg.2.length ≤ l.id := by
    by_cases none : n.chain.st.strg.2.length = 0
    · omega
    · -- the last statement of the storage is in a block
      obtain ⟨b, stored, q, inside, type, -, last⟩ :=
        covered (n.chain.st.strg.2.length - 1) (by omega)
      have reached := ends b stored q inside type
      omega
  exact ⟨by rw [state, Nat.le_antisymm upper lower], store⟩

lemma Kept.reopen (kept : Kept n) (covered : n.Covered)
    (opened : n.reopen env.crypto config = some n') : Kept n' := by
  unfold Node.reopen at opened
  cases made : Chain.newChain env.crypto config n.chain.st.strg n.chain.blkDB with
  | error => simp [made] at opened
  | ok c =>
    simp only [made] at opened
    cases opened
    obtain ⟨state, store⟩ := kept.reopened_current covered made
    have strg : c.st.strg = n.chain.st.strg := by rw [state]; rfl
    refine ⟨?_, ?_, ?_, store ▸ kept.nonempty⟩
    · rw [state]
      exact Xenomint.newState_tallied _ _
    · rw [strg]
      exact kept.produced
    · rw [strg, store]
      exact kept.stored

variable [DecidableEq Query]

lemma Kept.produce (kept : Kept n)
    (stepped : n.step env.traced (.produce now p) = some n') : Kept n' := by
  obtain ⟨packs, chain, produced⟩ := Node.step_produce stepped
  have store := (Chain.produceBlock_same env.traced.crypto env.traced.pk n.chain now p).blkDB
  rw [← chain] at store
  have state : n'.chain.st = (n.chain.st.commitEx p.failedOrder p.readOrder).1 := by
    rw [chain]
    exact Chain.produceBlock_st env.traced.crypto env.traced.pk n.chain now p
  obtain ⟨tallies, flushed⟩ := kept.tallied.commitEx p.failedOrder p.readOrder
  rw [← state] at tallies flushed
  rcases produced with ⟨b, made, produced⟩ | produced
  · have old : Kept { n' with produced := n.produced } := kept.same store rfl tallies
    refine ⟨old.tallied, ?_, old.stored, old.nonempty⟩
    intro found member
    rw [produced] at member
    rcases mem_append.mp member with before | new
    · exact old.produced found before
    · rw [mem_singleton] at new
      subst new
      intro q inside type
      rw [(Chain.produceBlock_produced made).queryTxs] at inside
      rw [flushed]
      exact packs_endsBy kept.tallied packs q inside type
  · exact kept.same store produced tallies

lemma Kept.check (kept : Kept n) (fair : n.Fair env.engine.traced (.check block put))
    (stepped : n.step env.traced (.check block put) = some n') : Kept n' := by
  obtain ⟨own, other⟩ := fair
  obtain ⟨replayed, flushed⟩ := kept.tallied.replayBlock (e := env.engine) block.view
  have checked := Chain.checkAndPushNewBlock_checked env.crypto env.engine.traced n.chain block put
  have made : n'.chain = (n.chain.checkAndPushNewBlock env.crypto env.engine.traced block put).1 ∧
        n'.produced = n.produced := by
    obtain ⟨rfl, -⟩ := Node.step_check stepped
    exact ⟨rfl, rfl⟩
  rw [Chain.Checked, ← made.1] at checked
  rcases checked with ⟨st, chain, same | ⟨after, -⟩⟩ | ⟨st, accepted, -⟩
  · refine kept.same (by rw [chain]) made.2 ?_
    rw [chain, same]
    exact ⟨kept.tallied, Nat.le_refl _⟩
  · refine kept.same (by rw [chain]) made.2 ?_
    rw [chain, after]
    exact replayed
  · rcases accepted.replayed with ⟨mine, same⟩ | ⟨foreign, ran⟩
    · subst same
      exact kept.accepted accepted made.2 ⟨kept.tallied, Nat.le_refl _⟩
        (kept.produced block (own mine))
    · rw [ran] at replayed flushed other
      refine kept.accepted accepted made.2 replayed ?_
      have ends := other foreign
      rw [flushed rfl]
      exact ends

lemma Kept.step (kept : Kept n) (fair : n.Fair env.engine.traced event)
    (stepped : n.step env.traced event = some n') : Kept n' := by
  have idle : Tallies n.chain.st n.chain.st := ⟨kept.tallied, Nat.le_refl _⟩
  cases event with
  | query req isLeader =>
    cases stepped
    exact kept.same rfl rfl (kept.tallied.query isLeader fair)
  | addResponse resp | endTurn | setNextTurn turn | updatePeers peers =>
    cases stepped
    exact kept.same rfl rfl idle
  | ack ack put =>
    cases stepped
    have same := Chain.verifyAndPushAckedQuery_same env.crypto n.chain ack put
    obtain ⟨ai, chain⟩ := Chain.verifyAndPushAckedQuery_frame env.crypto n.chain ack put
    have state : (n.chain.verifyAndPushAckedQuery env.crypto ack put).1.st = n.chain.st := by
      rw [chain]
    exact kept.same same.blkDB rfl (state ▸ idle)
  | produce => exact kept.produce stepped
  | check => exact kept.check fair stepped

lemma Kept.life (life : Life env.traced config acts n n') (kept : Kept n) : Kept n' := by
  induction life with
  | nil => exact kept
  | event fair stepped rest ih => exact ih (kept.step fair stepped)
  | restart covered opened rest ih => exact ih (kept.reopen covered opened)

end

namespace Sample

def change : Request Nat := request 1 5 .writeQuery [100]

end Sample

end SQLess.SQLChain
