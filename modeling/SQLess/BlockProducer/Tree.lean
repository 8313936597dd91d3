import SQLess.BlockProducer.Restart

/-! The tree of accepted blocks. -/

namespace SQLess.BlockProducer

open Lib List BlockNode

variable {n m : BlockNode} {c : Chain}

namespace BlockNode

def Ascending : BlockNode → Prop
  | .genesis _ _ => True
  | .child p h _ => p.Ascending ∧ p.height < h

instance decidableAscending : (n : BlockNode) → Decidable n.Ascending
  | .genesis _ _ => isTrue trivial
  | .child p h _ =>
    have := decidableAscending p
    inferInstanceAs (Decidable (p.Ascending ∧ p.height < h))

section

variable (ascending : n.Ascending)
include ascending

lemma Ascending.height_le (member : m ∈ n.path) : m.height ≤ n.height := by
  induction n with
  | genesis =>
    simp only [path, mem_singleton] at member
    rw [member]
  | child p h b ih =>
    obtain ⟨below, higher⟩ := ascending
    simp only [path, mem_append, mem_singleton] at member
    rcases member with earlier | rfl
    · have bound := ih below earlier
      change m.height ≤ h
      omega
    · exact Nat.le_refl _

lemma Ascending.of_mem (member : m ∈ n.path) : m.Ascending := by
  induction n with
  | genesis =>
    simp only [path, mem_singleton] at member
    rw [member]
    exact ascending
  | child p h b ih =>
    simp only [path, mem_append, mem_singleton] at member
    rcases member with earlier | rfl
    · exact ih ascending.1 earlier
    · exact ascending

lemma Ascending.ancestorFrom_eq (member : m ∈ n.path) : n.ancestorFrom m.height = some m := by
  induction n with
  | genesis =>
    simp only [path, mem_singleton] at member
    rw [member]
    simp [ancestorFrom, height]
  | child p h b ih =>
    obtain ⟨below, higher⟩ := ascending
    simp only [path, mem_append, mem_singleton] at member
    rcases member with earlier | rfl
    · have bound := below.height_le earlier
      simp only [ancestorFrom]
      rw [if_pos (by omega)]
      exact ih below earlier
    · simp [ancestorFrom, height]

lemma Ascending.ancestor_eq (member : m ∈ n.path) : n.ancestor m.height = some m := by
  have bound := ascending.height_le member
  rw [ancestor, if_neg (by omega)]
  exact ascending.ancestorFrom_eq member

end

end BlockNode

def Chain.heads (c : Chain) : List BlockNode := c.branches.map Branch.head

lemma pruneBranches_passed_eq {lastIrre origin i idx newBranch rest brs} (passed : origin < i) :
    (pruneBranches lastIrre origin newBranch i rest brs idx).1 =
      brs ++ rest.filter fun b => b.head.hasAncestor lastIrre := by
  induction rest generalizing i brs idx with
  | nil => simp [pruneBranches]
  | cons v rest ih =>
    simp only [pruneBranches, if_neg (Nat.ne_of_gt passed)]
    by_cases rooted : v.head.hasAncestor lastIrre = true
    · rw [if_pos rooted, ih (by omega)]
      simp [rooted]
    · rw [if_neg rooted, ih (by omega)]
      simp [rooted]

lemma pruneBranches_eq {lastIrre origin i idx newBranch rest brs} (ahead : i ≤ origin)
    (kept : newBranch.head.hasAncestor lastIrre = true) :
    (pruneBranches lastIrre origin newBranch i rest brs idx).1 =
      brs ++ (rest.set (origin - i) newBranch.commitPreview).filter
        fun b => b.head.hasAncestor lastIrre := by
  induction rest generalizing i brs idx with
  | nil => simp [pruneBranches]
  | cons v rest ih =>
    simp only [pruneBranches]
    by_cases here : i = origin
    · have placed : newBranch.commitPreview.head.hasAncestor lastIrre = true := kept
      rw [if_pos here, pruneBranches_passed_eq (by omega), here, Nat.sub_self, set_cons_zero]
      simp [placed]
    · have next : origin - i = origin - (i + 1) + 1 := by omega
      rw [if_neg here, next, set_cons_succ]
      by_cases rooted : v.head.hasAncestor lastIrre = true
      · rw [if_pos rooted, ih (by omega)]
        simp [rooted]
      · rw [if_neg rooted, ih (by omega)]
        simp [rooted]

lemma finishSwitch_heads (kept : br.head.hasAncestor switch.lastIrre = true) :
    (c.finishSwitch storage i br switch).heads =
      (c.heads.set i br.head).filter fun n => n.hasAncestor switch.lastIrre := by
  have pruned : (pruneBranches switch.lastIrre i br 0 c.branches [] 0).1 =
      (c.branches.set i br.commitPreview).filter fun b => b.head.hasAncestor switch.lastIrre := by
    rw [pruneBranches_eq (Nat.zero_le i) kept]
    rfl
  have cleared : ∀ branches : List Branch,
      (branches.map fun b => b.clearTxs switch.newIrres switch.expiredTxs).map Branch.head =
        branches.map Branch.head := by
    intro branches
    rw [map_map]
    exact map_congr_left fun b _ => b.clearTxs_head _ _
  have placed : br.head = br.commitPreview.head := rfl
  rw [Chain.heads, Chain.finishSwitch, cleared, pruned, Chain.heads, placed, ← map_set, filter_map]
  rfl

lemma setBranch_heads (found : c.branches[i]? = some v)
    (attempt : Attempt env known producing c.config v result origin) :
    (c.setBranch i origin).heads = c.heads := by
  rw [Chain.heads, Chain.setBranch, map_set, attempt.origin_head, ← Chain.heads]
  obtain ⟨inside, rfl⟩ := List.getElem?_eq_some_iff.mp found
  have listed : i < c.heads.length := by simpa [Chain.heads] using inside
  have same : c.heads[i] = c.branches[i].head := by simp [Chain.heads]
  rw [← same, set_getElem_self]

inductive TreeStep (env : Env) (known : BPBlock → Prop) (c c' : Chain) : Prop
  | kept (heads : c'.heads = c.heads) (lastIrre : c'.lastIrre = c.lastIrre)
      (blocks : c'.storage.blocks = c.storage.blocks)
  | extended (i v bl) (found : c.heads[i]? = some v)
      (valid : ValidNode env known c.config (c.config.heightOfTime bl.timestamp) bl)
      (link : bl.parentHash = v.hash)
      (moved : c.lastIrre.trail <+: c'.lastIrre.trail)
      (onPath : c'.lastIrre = c.lastIrre ∨ c'.lastIrre ∈ (c.config.newNode bl v).path)
      (heads : c'.heads = (c.heads.set i (c.config.newNode bl v)).filter
        fun n => n.hasAncestor c'.lastIrre)
      (blocks : c'.storage.blocks =
        (c.storage.insertBlock (c.config.heightOfTime bl.timestamp) bl).blocks)
  | forked (bl parent)
      (valid : ValidNode env known c.config (c.config.heightOfTime bl.timestamp) bl)
      (noHead : ∀ v ∈ c.heads, v.hash ≠ bl.parentHash)
      (unknown : c.knownBlock bl = false) (found : c.findParent bl = some parent)
      (lastIrre : c'.lastIrre = c.lastIrre)
      (heads : c'.heads = c.heads ++ [c.config.newNode bl parent])
      (blocks : c'.storage.blocks =
        (c.storage.insertBlock (c.config.heightOfTime bl.timestamp) bl).blocks)

section

variable {env : Env} {known : BPBlock → Prop} {producing : Prop} {config : Config} {c c' : Chain}

lemma heads_getElem? {i : Nat} (found : c.branches[i]? = some v) : c.heads[i]? = some v.head := by
  rw [Chain.heads, List.getElem?_map, found]
  rfl

lemma Effect.treeStep (free : CollisionFree env known) (headAt : c.HeadAt)
    (anchored : Anchored env known c) (deep : c.Deep)
    (effect : Effect env known producing c c') : TreeStep env known c c' := by
  have rooted := (effect.anchored free headAt anchored deep).1.rooted
  have moved := (effect.anchored free headAt anchored deep).2
  cases effect with
  | unchanged => exact .kept rfl rfl rfl
  | pooled tx =>
    refine .kept ?_ rfl rfl
    simp only [Chain.heads, map_map]
    exact map_congr_left fun b _ => b.addTx_head tx
  | attempted i v result origin found attempt
  | notSwitched orders i v br bl origin switch found attempt =>
    exact .kept (setBranch_heads found attempt) rfl rfl
  | grown i v br bl origin found seen attempt =>
    obtain ⟨head, link, hashed⟩ := attempt.extends
    refine .extended i v.head bl (heads_getElem? found) ⟨seen, hashed, rfl⟩ link moved (.inl rfl)
      ?_ rfl
    have heads : (c.branches.set i br.commitPreview).map Branch.head =
        c.heads.set i (c.config.newNode bl v.head) := by
      rw [map_set, ← head]
      rfl
    change (c.branches.set i br.commitPreview).map Branch.head = _
    rw [← heads, eq_comm, filter_eq_self]
    intro n member
    obtain ⟨b, present, rfl⟩ := mem_map.mp member
    exact hasAncestor_of_leading (rooted b present)
  | forked orders bl parent br seen verified noHead unknown found ran =>
    refine .forked bl parent ⟨seen, BPBlock.hash_of_verify verified, rfl⟩ ?_ unknown found rfl
      ?_ rfl
    · intro n member
      obtain ⟨v, present, rfl⟩ := mem_map.mp member
      exact noHead v present
    · rw [Chain.heads, map_append, map_singleton, newBranch_head ran]
      rfl
  | switched orders i v br bl origin switch found seen attempt higher prepared =>
    obtain ⟨head, link, hashed⟩ := attempt.extends
    have onPath := lastIrreversible_mem_path c.config.confirms br.head
    rw [← (prepareSwitch_eq_ok prepared).1] at onPath
    have kept := hasAncestor_of_leading (trail_prefix_of_mem onPath)
    refine .extended i v.head bl (heads_getElem? found) ⟨seen, hashed, rfl⟩ link moved
      (.inr (head ▸ onPath)) ?_ rfl
    rw [finishSwitch_heads kept, setBranch_heads found attempt, head]
    rfl

def Chain.Ascending (c : Chain) : Prop := ∀ n ∈ c.heads, n.Ascending

instance (c : Chain) : Decidable c.Ascending :=
  inferInstanceAs (Decidable (∀ n ∈ c.heads, n.Ascending))

abbrev AscendingRun (env : Env) (known : BPBlock → Prop) (producing : Prop) :
    Chain → Chain → Prop :=
  Relation.ReflTransGen fun c c' => Step env known producing c c' ∧ c'.Ascending

def Apart (n m : BlockNode) : Prop := ¬n.trail <+: m.trail ∧ ¬m.trail <+: n.trail

lemma Apart.symm (apart : Apart n m) : Apart m n := ⟨apart.2, apart.1⟩

instance : Std.Symm Apart := ⟨fun _ _ => Apart.symm⟩

structure Treelike (c : Chain) : Prop where
  rooted : ∀ n ∈ c.heads, c.config.genesisNode ∈ n.path
  ascending : c.Ascending
  antichain : c.heads.Pairwise Apart

lemma Treelike.eq_of_prefix (treelike : Treelike c) (left : n ∈ c.heads)
    (right : m ∈ c.heads) (leading : n.trail <+: m.trail) : n = m := by
  by_contra differ
  have apart := treelike.antichain.forall left right differ
  exact apart.1 leading

lemma Apart.child (apart : Apart v m) (bl) : Apart (config.newNode bl v) m := by
  have above : v.trail <+: (config.newNode bl v).trail := trail_prefix_newNode bl v
  refine ⟨fun leading => apart.1 (above.trans leading), fun leading => ?_⟩
  have whole : (config.newNode bl v).trail = v.trail ++ [bl.blockHash] :=
    trail_child v _ bl
  rw [whole, prefix_concat_iff] at leading
  rcases leading with same | below
  · apply apart.1
    rw [same]
    exact prefix_append _ _
  · exact apart.2 below

lemma pairwise_set {α relation} (symm : ∀ a b, relation a b → relation b a) {values : List α}
    {i old new} (found : values[i]? = some old) (kept : ∀ a, relation old a → relation new a)
    (holds : values.Pairwise relation) : (values.set i new).Pairwise relation := by
  induction values generalizing i with
  | nil => simp at found
  | cons first rest ih =>
    obtain ⟨apart, later⟩ := pairwise_cons.mp holds
    cases i with
    | zero =>
      simp only [List.getElem?_cons_zero] at found
      cases found
      exact pairwise_cons.mpr ⟨fun a member => kept a (apart a member), later⟩
    | succ =>
      simp only [List.getElem?_cons_succ] at found
      refine pairwise_cons.mpr ⟨?_, ih found later⟩
      intro a member
      rcases mem_or_eq_of_mem_set member with old | rfl
      · exact apart a old
      · exact symm _ _ (kept _ (symm _ _ (apart _ (mem_of_getElem? found))))

lemma Anchored.head_linked (anchored : Anchored env known c)
    (member : n ∈ c.heads) : n.Linked (ValidNode env known c.config) := by
  obtain ⟨b, present, rfl⟩ := mem_map.mp member
  exact anchored.linked b present

lemma knownBlock_of_mem (free : CollisionFree env known) (anchored : Anchored env known c)
    (ascending : c.Ascending) {bl height} (valid : ValidNode env known c.config height bl)
    (member : n ∈ c.heads) (onPath : m ∈ n.path) (same : m.hash = bl.blockHash) :
    c.knownBlock bl = true := by
  have linked := ((anchored.head_linked member).of_mem onPath).block
  have header : m.load.header = bl.header := free.header_eq _ _ _ _ linked valid same
  have level : c.config.heightOfTime bl.timestamp = m.height := by
    rw [linked.height, BPBlock.timestamp, BPBlock.timestamp, header]
  obtain ⟨b, present, rfl⟩ := mem_map.mp member
  rw [Chain.knownBlock, any_eq_true]
  refine ⟨b, present, ?_⟩
  rw [level, (ascending _ member).ancestor_eq onPath]
  simpa using same

lemma findParent_heads {bl parent} (found : c.findParent bl = some parent)
    (noHead : ∀ v ∈ c.heads, v.hash ≠ bl.parentHash) :
    ∃ v ∈ c.heads, parent ∈ v.path ∧ parent.hash = bl.parentHash ∧
      c.lastIrre.count ≤ parent.count ∧ parent.count < v.count := by
  obtain ⟨v, present, spec⟩ := findParent_spec found
    (fun v present => noHead v.head (mem_map_of_mem present))
  exact ⟨v.head, mem_map_of_mem present, spec⟩

lemma TreeStep.treelike (free : CollisionFree env known) (anchored : Anchored env known c)
    (treelike : Treelike c) (sameConfig : c'.config = c.config) (ascending : c'.Ascending)
    (step : TreeStep env known c c') : Treelike c' := by
  cases step with
  | kept heads =>
    refine ⟨?_, ascending, ?_⟩
    · rw [heads, sameConfig]
      exact treelike.rooted
    · rw [heads]
      exact treelike.antichain
  | extended i v bl found valid link moved onPath heads =>
    refine ⟨?_, ascending, ?_⟩
    · rw [heads, sameConfig]
      intro n member
      rcases mem_or_eq_of_mem_set (mem_of_mem_filter member) with kept | rfl
      · exact treelike.rooted n kept
      · exact mem_append_left _ (treelike.rooted v (mem_of_getElem? found))
    · rw [heads]
      refine List.Pairwise.filter _ ?_
      exact pairwise_set (fun _ _ => Apart.symm) found (fun _ apart => apart.child bl)
        treelike.antichain
  | forked bl parent valid noHead unknown found lastIrre heads =>
    obtain ⟨v, present, below, sameHash, -, lower⟩ := findParent_heads found noHead
    have missing : ∀ n ∈ c.heads, ∀ m ∈ n.path, m.hash ≠ bl.blockHash := by
      intro n member m onPath same
      rw [knownBlock_of_mem free anchored treelike.ascending valid member onPath same] at unknown
      simp at unknown
    have whole : (c.config.newNode bl parent).trail = parent.trail ++ [bl.blockHash] :=
      trail_child parent _ bl
    refine ⟨?_, ascending, ?_⟩
    · rw [heads, sameConfig]
      intro n member
      rcases mem_append.mp member with kept | added
      · exact treelike.rooted n kept
      · rw [mem_singleton.mp added]
        have root := treelike.rooted v present
        exact mem_append_left _ (mem_path_of_count_le below root (Nat.zero_le _))
    · rw [heads, pairwise_append]
      refine ⟨treelike.antichain, pairwise_singleton _ _, ?_⟩
      intro n member new added
      rw [mem_singleton.mp added]
      constructor
      · intro leading
        rw [whole, prefix_concat_iff] at leading
        rcases leading with same | shorter
        · have last : bl.blockHash ∈ n.trail := by
            rw [same]
            simp
          obtain ⟨m, onPath, hash⟩ := mem_map.mp last
          exact missing n member m onPath hash
        · have onV := shorter.trans (trail_prefix_of_mem below)
          obtain rfl := treelike.eq_of_prefix member present onV
          have length := shorter.length_le
          simp only [trail_length] at length
          omega
      · intro leading
        have last : bl.blockHash ∈ n.trail := by
          apply leading.subset
          rw [whole]
          simp
        obtain ⟨m, onPath, hash⟩ := mem_map.mp last
        exact missing n member m onPath hash

lemma trail_eq_of_hash (free : CollisionFree env known)
    (left : n.Linked (ValidNode env known config)) (right : m.Linked (ValidNode env known config))
    (leftRoot : config.genesisNode ∈ n.path) (rightRoot : config.genesisNode ∈ m.path)
    (leftUp : n.Ascending) (rightUp : m.Ascending) (same : n.hash = m.hash) :
    n.trail = m.trail := by
  have level : ∀ {a b : BlockNode}, a.Linked (ValidNode env known config) →
      b.Linked (ValidNode env known config) → a.hash = b.hash → a.height = b.height := by
    intro a b linked linked' equal
    rw [linked.block.height, linked'.block.height, BPBlock.timestamp, BPBlock.timestamp,
      free.header_eq _ _ _ _ linked.block linked'.block equal]
  have ground : ∀ {h : Nat} {b : BPBlock}, config.genesisNode ∈ (BlockNode.genesis h b).path →
      h = 0 := by
    intro h b root
    simp only [Config.genesisNode, newBlockNode, BlockNode.path, mem_singleton,
      BlockNode.genesis.injEq] at root
    exact root.1.symm
  have parentRoot : ∀ {p : BlockNode} {h : Nat} {b : BPBlock},
      config.genesisNode ∈ (BlockNode.child p h b).path → config.genesisNode ∈ p.path := by
    intro p h b root
    simpa [BlockNode.path, Config.genesisNode, newBlockNode] using root
  induction left generalizing m with
  | @genesis h b valid =>
    have low := ground leftRoot
    cases right with
    | genesis =>
      simp only [BlockNode.trail, BlockNode.path, map_singleton, same]
    | @child q k r parent valid' link =>
      have equal := level (.genesis valid) (.child parent valid' link) same
      have higher := rightUp.2
      simp only [BlockNode.height] at equal
      omega
  | @child p h b parent valid link ih =>
    cases right with
    | @genesis k r valid' =>
      have low := ground rightRoot
      have equal := level (.child parent valid link) (.genesis valid') same
      have higher := leftUp.2
      simp only [BlockNode.height] at equal
      omega
    | @child q k r parent' valid' link' =>
      have sameParent : p.hash = q.hash := by
        rw [← link, ← link']
        exact free.parentHash_eq _ _ _ _ valid valid' same
      have below := ih parent' (parentRoot leftRoot) (parentRoot rightRoot) leftUp.1 rightUp.1
        sameParent
      have last : b.blockHash = r.blockHash := same
      rw [trail_child, trail_child, below, last]

lemma applyBlock_known (free : CollisionFree env known) (rootless : Rootless known c.config)
    (anchored : Anchored env known c) (treelike : Treelike c) (member : v ∈ c.heads)
    (onPath : n ∈ v.path) (choice) : Chain.applyBlock env choice n.load c = .ok (.ok (), c) := by
  have linked := (anchored.head_linked member).of_mem onPath
  have noHead : ∀ w ∈ c.heads, w.hash ≠ n.load.parentHash := by
    intro w present same
    cases n with
    | genesis =>
      have root := path_getElem?_count onPath
      have genesis : v.path[0]? = some c.config.genesisNode :=
        path_getElem?_count (treelike.rooted v member)
      rw [BlockNode.count, genesis, Option.some.injEq] at root
      apply rootless w.load (anchored.head_linked present).block.seen
      change w.hash = _
      rw [same, ← root]
      rfl
    | child p =>
      cases linked with
      | child parent valid link =>
        have below : p ∈ v.path := mem_path_of_mem onPath
          (mem_append_left _ p.self_mem_path)
        have trails : w.trail = p.trail := by
          refine trail_eq_of_hash free (anchored.head_linked present) parent
            (treelike.rooted w present) ?_ (treelike.ascending w present)
            ((treelike.ascending v member).of_mem below) (same.trans link)
          exact mem_path_of_count_le below (treelike.rooted v member) (Nat.zero_le _)
        have leading : w.trail <+: v.trail := by
          rw [trails]
          exact trail_prefix_of_mem below
        obtain rfl := treelike.eq_of_prefix present member leading
        have upper := (trail_prefix_of_mem onPath).length_le
        have lower := congrArg List.length trails
        simp only [trail_length, BlockNode.count] at upper lower
        omega
  have absent : c.branches.zipIdx.find?
      (fun entry => entry.1.head.hash = n.load.parentHash) = none := by
    rw [List.find?_eq_none]
    intro entry listed
    have present := (mem_zipIdx' listed).2
    have differs := noHead entry.1.head
      (mem_map_of_mem (present ▸ getElem_mem (mem_zipIdx' listed).1))
    simpa using differs
  have known := knownBlock_of_mem free anchored treelike.ascending linked.block member onPath rfl
  simp only [Chain.applyBlock, absent, known, if_true]

lemma genesisChain_treelike (st) : Treelike (genesisChain config st) := by
  have heads : (genesisChain config st).heads = [config.genesisNode] := rfl
  refine ⟨?_, ?_, ?_⟩
  · rw [heads]
    intro n member
    rw [mem_singleton.mp member]
    exact self_mem_path _
  · rw [Chain.Ascending, heads]
    intro n member
    rw [mem_singleton.mp member]
    trivial
  · rw [heads]
    exact pairwise_singleton _ _

lemma ascendingRun_treelike (free : CollisionFree env known) (seen : known config.genesis)
    (opened : Opened env config c₀) (ascending : AscendingRun env known producing c₀ c) :
    c.config = config ∧ c.HeadAt ∧ Anchored env known c ∧ c.Settled ∧ Treelike c := by
  obtain ⟨headAt₀, anchored₀, settled₀⟩ := opened_anchored seen opened
  induction ascending with
  | refl =>
    obtain ⟨-, st, -, rfl⟩ := opened_eq opened
    exact ⟨rfl, headAt₀, anchored₀, settled₀, genesisChain_treelike st⟩
  | @tail middle last _ step ih =>
    obtain ⟨sameConfig, headAt, anchored, settled, treelike⟩ := ih
    obtain ⟨called, up⟩ := step
    have effect := step_effect headAt called
    have kept := effect.config_eq
    refine ⟨kept.trans sameConfig, effect.headAt headAt,
      (effect.anchored free headAt anchored settled.deep).1, effect.settled headAt settled, ?_⟩
    exact (effect.treeStep free headAt anchored settled.deep).treelike free anchored treelike
      kept up

lemma Treelike.antichain_iff (free : CollisionFree env known) (anchored : Anchored env known c)
    (treelike : Treelike c) : c.branches.Pairwise fun a b =>
      a.head.hasAncestor b.head = false ∧ b.head.hasAncestor a.head = false := by
  have apart : c.branches.Pairwise fun a b => Apart a.head b.head :=
    pairwise_map.mp treelike.antichain
  refine apart.imp_of_mem ?_
  intro a b left right differ
  constructor
  · rw [Bool.eq_false_iff]
    intro found
    exact differ.2 ((anchored.linked b right).trail_leading (anchored.linked a left)
      free.parentHash_eq found)
  · rw [Bool.eq_false_iff]
    intro found
    exact differ.1 ((anchored.linked a left).trail_leading (anchored.linked b right)
      free.parentHash_eq found)

/-- While every accepted block is higher than its parent, receiving a known block again changes
nothing, and no head is an ancestor of another. -/
theorem ascendingRun_known {c₀ : Chain} (free : CollisionFree env known)
    (seen : known config.genesis) (rootless : Rootless known config)
    (opened : Opened env config c₀) (ascending : AscendingRun env known producing c₀ c) :
    (∀ b ∈ c.branches, ∀ n ∈ b.head.path, ∀ choice,
      Chain.applyBlock env choice n.load c = .ok (.ok (), c)) ∧
    c.branches.Pairwise fun a b =>
      a.head.hasAncestor b.head = false ∧ b.head.hasAncestor a.head = false := by
  obtain ⟨sameConfig, -, anchored, -, treelike⟩ := ascendingRun_treelike free seen opened ascending
  refine ⟨?_, treelike.antichain_iff free anchored⟩
  intro b present n onPath choice
  exact applyBlock_known free (sameConfig ▸ rootless) anchored treelike
    (mem_map_of_mem present) onPath choice

end

namespace Sample

lemma ascending_receive (run : AscendingRun env known producing c c') (bl)
    (received : known bl) (verified : bl.verify env = some (.ok ()))
    (returned : Program.returns (Chain.applyBlock env choice bl) c' = true)
    (up : ∀ n ∈ (receive bl c').heads, n.Ascending) :
    AscendingRun env known producing c (receive bl c') :=
  run.tail ⟨step_applyBlock received verified returned, up⟩

def high : BPBlock := block 1000 1010 []

def low : BPBlock := block 1010 1005 []

noncomputable def descending : Chain := receive low (receive high (chain [] 2))

end Sample

open Sample in
theorem ascendingRun_known_forked :
    AscendingRun Sample.env (· ∈ [genesis [], first, rival]) False (chain [] 1) Sample.forked ∧
      Sample.forked.branches.length = 2 ∧
      receive first Sample.forked = Sample.forked ∧
      receive (genesis []) Sample.forked = Sample.forked := by
  have opened : Opened Sample.env (Sample.config [] 1) (chain [] 1) :=
    genesisChain_opened choice.immutableOrders (by decide) (by rfl)
  have rootless : Rootless (· ∈ [genesis [], first, rival]) (Sample.config [] 1) := by
    have checked : ∀ b ∈ [genesis [], first, rival], b.blockHash ≠ (genesis []).parentHash := by
      decide
    exact checked
  have ascending : AscendingRun Sample.env (· ∈ [genesis [], first, rival]) False (chain [] 1)
      Sample.forked :=
    ascending_receive (ascending_receive .refl first (by simp) (by decide) (by decide) (by decide))
      rival (by simp) (by decide) (by decide) (by decide)
  obtain ⟨again, -⟩ := ascendingRun_known (collisionFree_of_list (by decide))
    (by simp [Sample.config]) rootless opened ascending
  have live : ∃ b ∈ Sample.forked.branches, ∃ n ∈ b.head.path, ∃ m ∈ b.head.path,
      n.load = first ∧ m.load = genesis [] := by decide
  obtain ⟨b, present, n, onPath, m, onPath', tip, root⟩ := live
  refine ⟨ascending, by decide, ?_, ?_⟩
  · rw [receive, Program.after, ← tip, again b present n onPath choice]
  · rw [receive, Program.after, ← root, again b present m onPath' choice]

open Sample in
/-- Received again, the first block makes a branch of its own below the head of the other one. -/
theorem known_block_forked : Opened Sample.env (Sample.config [] 2) (chain [] 2) ∧
    Run Sample.env (· ∈ [genesis [], high, low]) False (chain [] 2) descending ∧
    (∃ b ∈ descending.branches, ∃ n ∈ b.head.path, n.load = high) ∧
    descending.branches.length = 1 ∧ (receive high descending).branches.length = 2 ∧
    descending.storage.blocks.map BlockRow.hash = [1000, 1010, 1005] ∧
    (receive high descending).storage.blocks.map BlockRow.hash = [1000, 1005, 1010] ∧
    ∃ a ∈ (receive high descending).branches, ∃ b ∈ (receive high descending).branches,
      a.head.hash ≠ b.head.hash ∧ a.head.hasAncestor b.head = true := by
  have opened : Opened Sample.env (Sample.config [] 2) (chain [] 2) :=
    genesisChain_opened choice.immutableOrders (by decide) (by rfl)
  have run : Run Sample.env (· ∈ [genesis [], high, low]) False (chain [] 2) descending :=
    run_receive (run_receive .refl high (by simp) (by decide) (by decide))
      low (by simp) (by decide) (by decide)
  exact ⟨opened, run, by decide, by decide, by decide, by decide, by decide, by decide⟩

end SQLess.BlockProducer
