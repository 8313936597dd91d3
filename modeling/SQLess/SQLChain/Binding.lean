import SQLess.Merkle.Binding
import SQLess.SQLChain.Steps
import SQLess.Xenomint.Follower
import SQLess.Xenomint.Truncation

/-! What the hash of a block determines. -/

namespace SQLess.SQLChain

open List

open Lib (map_eq_of_map_eq)
open SQLess.Types
open Xenomint (Engine newQueries turns isNew replayBlock_executes execAll_traced)

variable {DB Query Pattern Value : Type}

inductive Preimage (Query : Type) where
  | queries (statements : List Query)
  | request (content : RequestHeader)
  | response (content : ResponseHeader)
  | ack (content : AckHeader)
  | header (content : Header)
  | merge (left right : Hash)
  deriving DecidableEq

def Preimage.hash (c : Crypto Query) : Preimage Query → Option Hash
  | .queries statements => c.queriesHash statements
  | .request content => c.requestHash content
  | .response content => c.responseHash content
  | .ack content => c.ackHash content
  | .header content => c.headerHash content
  | .merge left right => some (c.env.mergeTwoHash left right)

def leafPreimages (b : Block Query) : List (Preimage Query) :=
  (b.failedReqs.map fun r => .request r.header) ++
    (b.queryTxs.map fun q => .response q.response.header) ++ b.acks.map fun a => .ack a.header

def requests (b : Block Query) : List (Request Query) :=
  b.failedReqs ++ b.queryTxs.map QueryAsTx.request

def hashed (c : Crypto Query) (b : Block Query) : List (Preimage Query) :=
  .header b.header :: (leafPreimages b ++ ((requests b).map fun r => .request r.header) ++
    ((requests b).map fun r => .queries r.queries) ++
    (Merkle.merges c.env.mergeTwoHash b.leaves).map fun p => .merge p.1 p.2)

def CollisionFree (c : Crypto Query) (values : List (Preimage Query)) : Prop :=
  ∀ x ∈ values, x.hash c ≠ some 0 ∧ ∀ y ∈ values, x.hash c ≠ none → x.hash c = y.hash c → x = y

structure Signed (c : Crypto Query) (q : QueryAsTx Query) : Prop where
  statements : c.queriesHash q.request.queries = some q.request.header.queriesHash
  header : c.requestHash q.request.header = some q.request.verifier.dataHash
  signature : q.request.verifier.signatureValid c.env = true
  answered : q.response.header.requestHash = q.request.verifier.dataHash

/-- The checks of the carried hashes, which are not made. -/
structure Sealed (c : Crypto Query) (b : Block Query) : Prop where
  failed : ∀ r ∈ b.failedReqs, r.verify c = .ok ()
  queries : ∀ q ∈ b.queryTxs, q.request.verify c = .ok () ∧ q.response.verifyHash c = .ok () ∧
    q.response.header.requestHash = q.request.verifier.dataHash
  acks : ∀ a ∈ b.acks, a.verify c = .ok ()
  size : b.leaves.length ≤ 2 ^ 63

def contents (b : Block Query) : List (RequestHeader × List Query) ×
    List ((RequestHeader × List Query) × ResponseHeader) × List AckHeader :=
  (b.failedReqs.map fun r => (r.header, r.queries),
    b.queryTxs.map fun q => ((q.request.header, q.request.queries), q.response.header),
    b.acks.map fun a => a.header)

/-- The queries of a block that are executed from the sequence number `current` on. -/
def executed (current : Nat) : List (QueryAsTx Query) → List (QueryAsTx Query)
  | [] => []
  | q :: rest =>
    if q.request.header.queryType = .readQuery ∨ q.response.header.logOffset ≠ current then
      executed current rest
    else q :: executed (current + q.request.queries.length) rest

instance (c : Crypto Query) [DecidableEq Query] (values : List (Preimage Query)) :
    Decidable (CollisionFree c values) :=
  inferInstanceAs (Decidable (∀ x ∈ values, x.hash c ≠ some 0 ∧
    ∀ y ∈ values, x.hash c ≠ none → x.hash c = y.hash c → x = y))

section

variable {c : Crypto Query} {b b' : Block Query}

lemma CollisionFree.eq (free : CollisionFree c values) (mem : x ∈ values)
    (mem' : y ∈ values) (hash : x.hash c = some h) (hash' : y.hash c = some h) : x = y :=
  (free x mem).2 y mem' (by simp [hash]) (hash.trans hash'.symm)

lemma Sealed.requests (sealed : Sealed c b) : ∀ r ∈ requests b, r.verify c = .ok () := by
  intro r mem
  rcases mem_append.mp mem with failed | packed
  · exact sealed.failed r failed
  · obtain ⟨q, query, rfl⟩ := mem_map.mp packed
    exact (sealed.queries q query).1

lemma Sealed.leaves (sealed : Sealed c b) :
    (leafPreimages b).map (Preimage.hash c) = b.leaves.map some := by
  have failed : ∀ r ∈ b.failedReqs, c.requestHash r.header = some r.verifier.dataHash :=
    fun r mem => (Request.verify_eq_ok.mp (sealed.failed r mem)).2.1
  have queries : ∀ q ∈ b.queryTxs,
      c.responseHash q.response.header = some q.response.responseHash :=
    fun q mem => SignedResponseHeader.verifyHash_eq_ok.mp (sealed.queries q mem).2.1
  have acks : ∀ a ∈ b.acks, c.ackHash a.header = some a.hash :=
    fun a mem => ((HashSignVerifier.verify_eq_ok _ _ _).mp (sealed.acks a mem)).1
  simp only [leafPreimages, Block.leaves, map_append, map_map]
  exact congrArg₂ (· ++ ·) (congrArg₂ (· ++ ·) (map_congr_left failed)
    (map_congr_left queries)) (map_congr_left acks)

lemma Sealed.leaf_hash (sealed : Sealed c b) (mem : leaf ∈ b.leaves) :
    ∃ x ∈ leafPreimages b, x.hash c = some leaf := by
  have hash : some leaf ∈ (leafPreimages b).map (Preimage.hash c) := by
    rw [sealed.leaves]
    exact mem_map_of_mem mem
  exact mem_map.mp hash

lemma leafPreimages_subset (c) (b : Block Query) : leafPreimages b ⊆ hashed c b := by
  intro x mem
  simp only [hashed, mem_cons, mem_append]
  exact .inr (.inl (.inl (.inl mem)))

lemma merge_mem_hashed (mem : p ∈ Merkle.merges c.env.mergeTwoHash b.leaves) :
    Preimage.merge p.1 p.2 ∈ hashed c b := by
  simp only [hashed, mem_cons, mem_append]
  exact .inr (.inr (mem_map_of_mem (f := fun p : Hash × Hash => Preimage.merge p.1 p.2) mem))

lemma request_mem_hashed (mem : r ∈ requests b) :
    Preimage.request r.header ∈ hashed c b ∧ Preimage.queries r.queries ∈ hashed c b := by
  simp only [hashed, mem_cons, mem_append]
  constructor
  · exact .inr (.inl (.inl (.inr (mem_map_of_mem (f := fun r : Request Query =>
      Preimage.request r.header) mem))))
  · exact .inr (.inl (.inr (mem_map_of_mem (f := fun r : Request Query =>
      Preimage.queries r.queries) mem)))

lemma leafPreimages_not_merge (mem : x ∈ leafPreimages b) (left right) : x ≠ .merge left right := by
  simp only [leafPreimages, mem_append, mem_map] at mem
  rcases mem with (⟨r, -, rfl⟩ | ⟨q, -, rfl⟩) | ⟨a, -, rfl⟩
  · exact nofun
  · exact nofun
  · exact nofun

section

variable (free : CollisionFree c (hashed c b ++ hashed c b')) (sealed : Sealed c b)
  (sealed' : Sealed c b')

include free sealed sealed'

lemma leaves_eq_iff (same : b.computeMerkleRoot c = b'.computeMerkleRoot c) :
    b.leaves = b'.leaves ↔
      b.leaves = b'.leaves ∨ Merkle.selfPaired b.leaves ≠ Merkle.selfPaired b'.leaves := by
  have node : ∀ p ∈ Merkle.merges c.env.mergeTwoHash b.leaves ++
      Merkle.merges c.env.mergeTwoHash b'.leaves,
      Preimage.merge p.1 p.2 ∈ hashed c b ++ hashed c b' := by
    intro p mem
    rcases mem_append.mp mem with here | there
    · exact mem_append_left _ (merge_mem_hashed here)
    · exact mem_append_right _ (merge_mem_hashed there)
  have leaf : ∀ leaf ∈ b.leaves ++ b'.leaves, ∃ x ∈ hashed c b ++ hashed c b',
      x.hash c = some leaf ∧ ∀ left right, x ≠ .merge left right := by
    intro leaf mem
    rcases mem_append.mp mem with here | there
    · obtain ⟨x, found, hash⟩ := sealed.leaf_hash here
      exact ⟨x, mem_append_left _ (leafPreimages_subset c b found), hash,
        leafPreimages_not_merge found⟩
    · obtain ⟨x, found, hash⟩ := sealed'.leaf_hash there
      exact ⟨x, mem_append_right _ (leafPreimages_subset c b' found), hash,
        leafPreimages_not_merge found⟩
  have paired : Merkle.selfPaired b.leaves = Merkle.selfPaired b'.leaves := by
    refine (Merkle.root_eq_iff ?_ ?_ sealed.size sealed'.size).mp same
    · intro p mem q mem' same
      have equal := free.eq (node p mem) (node q mem') rfl (congrArg some same.symm)
      cases p
      cases q
      simpa using equal
    · intro hash mem p mem' same
      rcases Merkle.mem_leavesOf (mem_append.mp mem) with zero | listed
      · exact (free _ (node p mem')).1 (congrArg some (zero ▸ same.symm))
      · obtain ⟨x, found, value, other⟩ := leaf hash (mem_append.mpr listed)
        exact other p.1 p.2 (free.eq found (node p mem') value (congrArg some same.symm))
  simp [paired]

lemma leafPreimages_eq (same : b.leaves = b'.leaves) : leafPreimages b = leafPreimages b' := by
  have hashes : (leafPreimages b).map (Preimage.hash c) =
      (leafPreimages b').map (Preimage.hash c) := by
    rw [sealed.leaves, sealed'.leaves, same]
  have equal := map_eq_of_map_eq (g := id) (fun x mem y mem' hash => ?_) hashes
  · simpa using equal
  have computed : x.hash c ∈ b.leaves.map some := by
    rw [← sealed.leaves]
    exact mem_map_of_mem mem
  obtain ⟨leaf, -, value⟩ := mem_map.mp computed
  exact free.eq (mem_append_left _ (leafPreimages_subset c b mem))
    (mem_append_right _ (leafPreimages_subset c b' mem')) value.symm (hash ▸ value.symm)

lemma request_eq (mem : r ∈ requests b) (mem' : r' ∈ requests b')
    (same : r.header = r'.header) : (r.header, r.queries) = (r'.header, r'.queries) := by
  have statements := (Request.verify_eq_ok.mp (sealed.requests r mem)).1
  have statements' := (Request.verify_eq_ok.mp (sealed'.requests r' mem')).1
  rw [← same] at statements'
  have queries : Preimage.queries r.queries = .queries r'.queries :=
    free.eq (mem_append_left _ (request_mem_hashed mem).2)
      (mem_append_right _ (request_mem_hashed mem').2) statements statements'
  rw [same, Preimage.queries.inj queries]

lemma queryTx_eq (mem : q ∈ b.queryTxs) (mem' : q' ∈ b'.queryTxs)
    (same : q.response.header = q'.response.header) :
    (q.request.header, q.request.queries) = (q'.request.header, q'.request.queries) := by
  have packed : q.request ∈ requests b := mem_append_right _ (mem_map_of_mem mem)
  have packed' : q'.request ∈ requests b' := mem_append_right _ (mem_map_of_mem mem')
  obtain ⟨verified, -, answered⟩ := sealed.queries q mem
  obtain ⟨verified', -, answered'⟩ := sealed'.queries q' mem'
  -- the response names the request by its hash
  have header : (Preimage.request q.request.header : Preimage Query) =
      .request q'.request.header := by
    refine free.eq (mem_append_left _ (request_mem_hashed packed).1)
      (mem_append_right _ (request_mem_hashed packed').1)
      (Request.verify_eq_ok.mp verified).2.1 ?_
    rw [← answered, same, answered']
    exact (Request.verify_eq_ok.mp verified').2.1
  exact request_eq free sealed sealed' packed packed' (Preimage.request.inj header)

end

lemma leafPreimages_parts (same : leafPreimages b = leafPreimages b') :
    (b.failedReqs.map fun r => r.header) = (b'.failedReqs.map fun r => r.header) ∧
    (b.queryTxs.map fun q => q.response.header) = (b'.queryTxs.map fun q => q.response.header) ∧
    (b.acks.map fun a => a.header) = (b'.acks.map fun a => a.header) := by
  let request : Preimage Query → Option RequestHeader
    | .request content => some content
    | _ => none
  let response : Preimage Query → Option ResponseHeader
    | .response content => some content
    | _ => none
  let ack : Preimage Query → Option AckHeader
    | .ack content => some content
    | _ => none
  refine ⟨?_, ?_, ?_⟩
  · simpa [leafPreimages, request] using congrArg (List.filterMap request) same
  · simpa [leafPreimages, response] using congrArg (List.filterMap response) same
  · simpa [leafPreimages, ack] using congrArg (List.filterMap ack) same

lemma contents_eq_iff (free : CollisionFree c (hashed c b ++ hashed c b')) (sealed : Sealed c b)
    (sealed' : Sealed c b') : contents b = contents b' ↔ b.leaves = b'.leaves := by
  constructor
  · intro same
    obtain ⟨failed, others⟩ := Prod.mk.inj same
    obtain ⟨queries, acks⟩ := Prod.mk.inj others
    have preimages : leafPreimages b = leafPreimages b' := by
      have headers := congrArg (map fun p => (Preimage.request p.1 : Preimage Query)) failed
      have responses := congrArg (map fun p => (Preimage.response p.2 : Preimage Query)) queries
      have acknowledged := congrArg (map fun a => (Preimage.ack a : Preimage Query)) acks
      simp only [map_map] at headers responses acknowledged
      exact congrArg₂ (· ++ ·) (congrArg₂ (· ++ ·) headers responses) acknowledged
    have hashes := congrArg (map (Preimage.hash c)) preimages
    rw [sealed.leaves, sealed'.leaves] at hashes
    exact map_injective_iff.mpr (Option.some_injective _) hashes
  · intro same
    obtain ⟨failed, queries, acks⟩ :=
      leafPreimages_parts (leafPreimages_eq free sealed sealed' same)
    refine Prod.ext (map_eq_of_map_eq ?_ failed) (Prod.ext (map_eq_of_map_eq ?_ queries) acks)
    · intro r mem r' mem' header
      exact request_eq free sealed sealed' (mem_append_left _ mem) (mem_append_left _ mem') header
    · intro q mem q' mem' header
      exact Prod.ext (queryTx_eq free sealed sealed' mem mem' header) header

lemma executed_view (current) (txs : List (QueryAsTx Query)) :
    newQueries current (txs.map QueryAsTx.view) =
      (executed current txs).map fun q => ⟨q.request.view, q.response.view⟩ := by
  induction txs generalizing current with
  | nil => rfl
  | cons q rest ih =>
    have type : q.view.request.queryType = q.request.header.queryType := rfl
    have offset : q.view.response.logOffset = q.response.header.logOffset := rfl
    rw [executed, newQueries, map_cons, turns, type, offset]
    by_cases read : q.request.header.queryType = .readQuery
    · rw [if_pos read, if_pos (.inl read), ← ih, newQueries]
    · rw [if_neg read]
      by_cases here : q.response.header.logOffset = current
      · rw [if_pos here, if_neg (by simp [read, here]),
          filter_cons_of_pos (by simpa [isNew] using offset.trans here), map_cons, map_cons, ← ih]
        rfl
      · rw [if_neg here, if_pos (.inr here),
          filter_cons_of_neg (by simpa [isNew] using offset ▸ here), ← ih, newQueries]

lemma signed_iff (q : QueryAsTx Query) : Signed c q ↔ q.request.verify c = .ok () ∧
    q.response.header.requestHash = q.request.verifier.dataHash := by
  rw [Request.verify_eq_ok]
  exact ⟨fun signed => ⟨⟨signed.statements, signed.header, signed.signature⟩, signed.answered⟩,
    fun ⟨⟨statements, header, signature⟩, answered⟩ => ⟨statements, header, signature, answered⟩⟩

end

lemma checkAndPushNewBlock_executes {e : Engine DB Query Pattern Value}
    {c c' : Chain (DB × List Pattern) Query} (other : b.producer ≠ c.rt.server)
    (accepted : c.checkAndPushNewBlock crypto e.traced b put = (c', .ok ())) :
    c'.st = c.st ∨ c'.st.content.2 = c.st.content.2 ++
      e.patterns ((executed c.st.current b.queryTxs).flatMap fun q => q.request.queries) := by
  have checked := Chain.checkAndPushNewBlock_checked crypto e.traced c b put
  rw [accepted] at checked
  rcases checked with ⟨st, chain, kept | ⟨-, failed⟩⟩ | ⟨st, pushed, -⟩
  · cases chain
    exact .inl kept
  · exact absurd rfl failed
  · rcases pushed.replayed with ⟨own, -⟩ | ⟨-, ran⟩
    · exact absurd own other
    · have extended := execAll_traced (replayBlock_executes ran)
      rw [show b.view.queryTxs = b.queryTxs.map QueryAsTx.view from rfl, executed_view,
        flatMap_map] at extended
      have chain : c' = _ := pushed.chain
      rw [chain]
      exact .inr extended

namespace Sample

def written (key : Nat) (queries : List Nat) : Block Nat :=
  { block "BBBBBBBB" 9000 10 [⟨{ write with queries := queries }, response write 0⟩]
    [ack (response write 0)] with verifier := signed key 8990 }

lemma written_sealed (key) : Sealed crypto (written key [5]) := by
  have checked : Sealed crypto (written 8 [5]) := ⟨by decide, by decide, by decide, by decide⟩
  -- the signature of the block is not read
  exact ⟨checked.failed, checked.queries, checked.acks, checked.size⟩

end Sample

end SQLess.SQLChain
