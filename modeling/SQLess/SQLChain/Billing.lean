import Mathlib.Algebra.BigOperators.Group.Finset.Piecewise
import Mathlib.Algebra.Order.BigOperators.Group.List
import SQLess.SQLChain.Steps

/-!
The bill of a database (`billing` and `FetchBlock` in `sqlchain/chain.go`, `ancestor` in
`sqlchain/blockindex.go`).
-/

namespace SQLess.SQLChain

open Lib List
open SQLess.Types

variable {DB Query : Type}

def BlockNode.ancestors : BlockNode Query → List (BlockNode Query)
  | .root hash height block => [.root hash height block]
  | .child parent hash height block => .child parent hash height block :: parent.ancestors

def BlockNode.ancestor (n : BlockNode Query) (height : Int) : Option (BlockNode Query) :=
  if height < 0 ∨ n.height < height then none
  else
    (n.ancestors.dropWhile fun n => height < n.height).head?.filter fun n => height ≤ n.height

def Chain.fetchBlock (c : Chain DB Query) (height : Int) : Except Err (Option (Block Query)) :=
  match c.rt.head.node with
  | none => .error .panic
  | some head =>
    match head.ancestor height with
    | none => .ok none
    | some n =>
      match c.blkDB.get n.indexKey with
      | none => .error (.wrapped (.text "fetch block") .storage)
      | some b => .ok (some b)

def Chain.loadBlock (c : Chain DB Query) (n : BlockNode Query) : Except Err (Block Query) :=
  match n.load with
  | some b => .ok b
  | none =>
    match c.fetchBlock n.height with
    | .error err => .error err
    | .ok none => .error .panic
    | .ok (some b) => .ok b

structure Service where
  user : AccountAddress
  miner : AccountAddress
  amount : Nat
  failed : Bool

def queryService (env : Env) (tx : QueryAsTx Query) : Except Err Service :=
  match pubKeyHash env tx.request.verifier.signee with
  | .error err => .error (.types err)
  | .ok user => .ok
      { user := user
        miner := tx.response.header.responseAccount
        amount := if tx.request.header.queryType = .readQuery then tx.response.header.rowCount
          else (tx.response.header.affectedRows % 2 ^ 64).toNat
        failed := false }

def failedService (env : Env) (signee : Option PublicKey) (req : Request Query) :
    Except Err Service :=
  match pubKeyHash env signee with
  | .error err => .error (.types err)
  | .ok miner =>
    match pubKeyHash env req.verifier.signee with
    | .error err => .error (.types err)
    | .ok user => .ok ⟨user, miner, req.queries.length, true⟩

def services (env : Env) (b : Block Query) : Except Err (List Service) := do
  let queries ← b.queryTxs.mapM (queryService env)
  let failed ← b.failedReqs.mapM (failedService env b.verifier.signee)
  pure (queries ++ failed)

structure Bill where
  users : FiniteMap AccountAddress Nat
  miners : FiniteMap AccountAddress (FiniteMap AccountAddress Nat)

namespace Bill

def empty : Bill := ⟨∅, ∅⟩

def cost (bill : Bill) (user : AccountAddress) : Nat := (bill.users.get user).getD 0

def incomes (bill : Bill) (user : AccountAddress) : FiniteMap AccountAddress Nat :=
  (bill.miners.get user).getD ∅

def income (bill : Bill) (user miner : AccountAddress) : Nat :=
  ((bill.incomes user).get miner).getD 0

def renews (bill : Bill) (s : Service) : Bool :=
  s.failed && ((bill.incomes s.user).get s.miner).isNone

def found (bill : Bill) (s : Service) : FiniteMap AccountAddress Nat :=
  if bill.renews s then ∅ else bill.incomes s.user

def count (bill : Bill) (s : Service) : Bill where
  users := bill.users.insert s.user (bill.cost s.user + s.amount)
  miners := bill.miners.insert s.user
    ((bill.found s).insert s.miner (((bill.found s).get s.miner).getD 0 + s.amount))

def of (served : List Service) : Bill := served.foldl count empty

def Loses (bill : Bill) (s : Service) : Prop :=
  bill.renews s = true ∧ ∃ miner ∈ (bill.incomes s.user).keys, bill.income s.user miner ≠ 0

def NoneLost (served : List Service) (bill : Bill) : Prop :=
  Always (fun bill s => some (count bill s)) (fun bill s => ¬Loses bill s) served bill

end Bill

/-- The miners in the map of a user after services, of which the last comes first: a failed one of
another miner begins a new map. -/
def Service.listed (user : AccountAddress) : List Service → List AccountAddress
  | [] => []
  | s :: earlier =>
    if s.user ≠ user then listed user earlier
    else if s.failed = true ∧ s.miner ∉ listed user earlier then [s.miner]
    else s.miner :: listed user earlier

/-- The service begins a new map for a user that has been charged before. -/
def Service.Forgets (earlier : List Service) (s : Service) : Prop :=
  (s.failed = true ∧ s.miner ∉ listed s.user earlier) ∧
    ∃ t ∈ earlier, t.user = s.user ∧ t.amount ≠ 0

instance (earlier : List Service) (s : Service) : Decidable (s.Forgets earlier) :=
  inferInstanceAs (Decidable (_ ∧ _))

def NoneForgotten (served : List Service) : Prop :=
  Always (fun earlier s => some (s :: earlier)) (fun earlier s => ¬s.Forgets earlier) served []

instance (served : List Service) : Decidable (NoneForgotten served) :=
  decidableAlways _ _ served []

structure KeyOrder where
  list : Finset AccountAddress → List AccountAddress
  perm : ∀ keys, (list keys : Multiset AccountAddress) = keys.val

def Bill.list (order : KeyOrder) (minerOrder : AccountAddress → KeyOrder) (bill : Bill) :
    List (Option UserCost) :=
  (order.list bill.users.keys).map fun user => some
    { user := user
      cost := .ofNat (bill.cost user)
      miners := ((minerOrder user).list (bill.incomes user).keys).map fun miner =>
        some ⟨miner, .ofNat (bill.income user miner)⟩ }

def Chain.billing (env : Env) (c : Chain DB Query) (order : KeyOrder)
    (minerOrder : AccountAddress → KeyOrder) (receiver : AccountAddress) (version : Int)
    (lastBillingHeight h : Int) (node : Option (BlockNode Query)) :
    Except Err UpdateBillingHeader := do
  let iter := (node.elim [] BlockNode.ancestors).dropWhile fun n => h < n.height
  let counted ← (iter.takeWhile fun n => lastBillingHeight < n.height).mapM fun n =>
    c.loadBlock n >>= services env
  pure
    { receiver := receiver
      nonce := 0
      users := (Bill.of counted.flatten).list order minerOrder
      rangeFrom := (lastBillingHeight % 2 ^ 32).toNat
      rangeTo := (h % 2 ^ 32).toNat
      version := version }

def Service.earns (s : Service) (user miner : AccountAddress) : Nat :=
  if s.user = user ∧ s.miner = miner then s.amount else 0

def Chain.blockOf (c : Chain DB Query) (n : BlockNode Query) : Option (Block Query) :=
  n.load.or (c.blkDB.get n.indexKey)

def incomesListed (miners : List (Option MinerIncome)) : Nat :=
  (miners.map fun entry => entry.elim 0 fun entry => entry.income.toNat).sum

def incomeListed (users : List (Option UserCost)) (user miner : AccountAddress) : Nat :=
  (users.map fun entry => entry.elim 0 fun entry =>
    if entry.user = user then
      (entry.miners.map fun entry => entry.elim 0 fun entry =>
        if entry.miner = miner then entry.income.toNat else 0).sum
    else 0).sum

section

variable {bill : Bill} {s : Service} {user : AccountAddress}

lemma Bill.found_income (bill : Bill) (s) :
    ((bill.found s).get s.miner).getD 0 = bill.income s.user s.miner := by
  by_cases renewed : bill.renews s = true
  · have absent : (bill.incomes s.user).get s.miner = none := by
      simpa using (Bool.and_eq_true_iff.mp renewed).2
    simp [Bill.found, renewed, Bill.income, absent]
  · simp [Bill.found, renewed, Bill.income]

lemma Bill.incomes_count (bill : Bill) (s user) :
    (bill.count s).incomes user = if user = s.user then
      (bill.found s).insert s.miner (bill.income s.user s.miner + s.amount)
      else bill.incomes user := by
  rw [← bill.found_income s, Bill.incomes, Bill.count, FiniteMap.get_insert]
  by_cases same : user = s.user
  · simp [same]
  · simp [same, Bill.incomes]

lemma Bill.income_count (bill : Bill) (s user miner) : (bill.count s).income user miner =
      (if user = s.user then ((bill.found s).get miner).getD 0 else bill.income user miner) +
        s.earns user miner := by
  rw [Bill.income, Bill.incomes_count]
  by_cases same : user = s.user
  · by_cases here : miner = s.miner
    · simp [same, here, Service.earns, bill.found_income s]
    · simp [same, here, Service.earns, Ne.symm here]
  · simp [same, Service.earns, Ne.symm same, Bill.income]

lemma Bill.found_le (bill : Bill) (s miner) :
    ((bill.found s).get miner).getD 0 ≤ bill.income s.user miner := by
  rw [Bill.found]
  split
  · exact Nat.zero_le _
  · exact Nat.le_refl _

lemma Bill.found_eq_iff (bill : Bill) (s) :
    (∀ miner, ((bill.found s).get miner).getD 0 = bill.income s.user miner) ↔ ¬bill.Loses s := by
  rw [Bill.found, Bill.Loses]
  by_cases renewed : bill.renews s = true
  · simp only [renewed, if_true, true_and, not_exists, not_and, not_not]
    refine forall_congr' fun miner => ⟨fun nothing _ => nothing.symm, fun nothing => ?_⟩
    cases earned : (bill.incomes s.user).get miner with
    | none => simp [Bill.income, earned]
    | some => exact (nothing (FiniteMap.mem_keys_of_get earned)).symm
  · simp [renewed, Bill.income]

lemma Bill.income_count_le (bill : Bill) (s user miner) :
    (bill.count s).income user miner ≤ bill.income user miner + s.earns user miner := by
  rw [Bill.income_count]
  split
  · rename_i same
    exact Nat.add_le_add_right (same ▸ bill.found_le s miner) _
  · exact Nat.le_refl _

lemma Bill.counts_iff (bill : Bill) (s) : (∀ user miner, (bill.count s).income user miner =
      bill.income user miner + s.earns user miner) ↔ ¬bill.Loses s := by
  simp only [Bill.income_count, Nat.add_right_cancel_iff]
  rw [← bill.found_eq_iff s]
  constructor
  · intro exactly miner
    simpa using exactly s.user miner
  · intro kept user miner
    split
    · rename_i same
      rw [same, kept miner]
    · rfl

lemma Bill.income_foldl_le (bill : Bill) (served : List Service) (user miner) :
    (served.foldl Bill.count bill).income user miner ≤
      bill.income user miner + (served.map (·.earns user miner)).sum := by
  induction served generalizing bill with
  | nil => exact Nat.le_refl _
  | cons s rest ih =>
    have later := ih (bill.count s)
    have now := bill.income_count_le s user miner
    rw [foldl_cons, map_cons, sum_cons]
    omega

lemma Bill.complete_iff (bill : Bill) (served : List Service) :
    (∀ user miner, (served.foldl Bill.count bill).income user miner =
      bill.income user miner + (served.map (·.earns user miner)).sum) ↔
        Bill.NoneLost served bill := by
  induction served generalizing bill with
  | nil => simp [Bill.NoneLost, Always]
  | cons s rest ih =>
    rw [Bill.NoneLost, Always, ← bill.counts_iff s]
    simp only [foldl_cons, map_cons, sum_cons, Option.mem_def, Option.some.injEq, forall_eq']
    rw [← Bill.NoneLost, ← ih (bill.count s)]
    constructor
    · intro whole
      -- neither the first service nor the later ones can make up for what the others lose
      have bounds (user miner : AccountAddress) :=
        And.intro (bill.income_count_le s user miner)
          ((bill.count s).income_foldl_le rest user miner)
      refine ⟨fun user miner => ?_, fun user miner => ?_⟩
      · have := bounds user miner
        have := whole user miner
        omega
      · have := bounds user miner
        have := whole user miner
        omega
    · rintro ⟨now, later⟩ user miner
      rw [later user miner, now user miner, Nat.add_assoc]

/-- The map lists what the services have, and none of it is lost. -/
structure Bill.Lists (bill : Bill) (earlier : List Service) : Prop where
  keys : ∀ user miner, (bill.incomes user).get miner ≠ none ↔ miner ∈ Service.listed user earlier
  incomes : ∀ user miner, bill.income user miner = (earlier.map (·.earns user miner)).sum

lemma Bill.Lists.loses_iff (lists : bill.Lists earlier) (s : Service) :
    bill.Loses s ↔ s.Forgets earlier := by
  have renews : bill.renews s = true ↔
      s.failed = true ∧ s.miner ∉ Service.listed s.user earlier := by
    rw [← lists.keys, Bill.renews, Bool.and_eq_true, Option.isNone_iff_eq_none, not_not]
  rw [Bill.Loses, Service.Forgets, renews]
  refine and_congr_right fun _ => ⟨?_, ?_⟩
  · rintro ⟨miner, -, earned⟩
    rw [lists.incomes] at earned
    obtain ⟨_, member, positive⟩ := List.exists_mem_ne_zero_of_sum_ne_zero earned
    obtain ⟨t, among, rfl⟩ := mem_map.mp member
    by_cases own : t.user = s.user ∧ t.miner = miner
    · rw [Service.earns, if_pos own] at positive
      exact ⟨t, among, own.1, positive⟩
    · exact absurd (if_neg own) positive
  · rintro ⟨t, among, user, charged⟩
    have earned : bill.income s.user t.miner ≠ 0 := by
      rw [lists.incomes, ne_eq, List.sum_eq_zero_iff]
      intro nothing
      have amount := nothing _ (mem_map.mpr ⟨t, among, rfl⟩)
      rw [Service.earns, if_pos ⟨user, rfl⟩] at amount
      exact charged amount
    refine ⟨t.miner, ?_, earned⟩
    cases read : (bill.incomes s.user).get t.miner with
    | none => simp [Bill.income, read] at earned
    | some => exact FiniteMap.mem_keys_of_get read

lemma Bill.Lists.count (lists : bill.Lists earlier) (kept : ¬bill.Loses s) :
    (bill.count s).Lists (s :: earlier) := by
  refine ⟨fun user miner => ?_, fun user miner => ?_⟩
  · rw [Bill.incomes_count, Service.listed]
    by_cases same : user = s.user
    · subst same
      rw [if_pos rfl, FiniteMap.get_insert, if_neg (not_not.mpr rfl), Bill.found, Bill.renews]
      simp only [Bool.and_eq_true, Option.isNone_iff_eq_none, ← not_iff_not.mpr (lists.keys _ _),
        not_not]
      have listed := lists.keys s.user miner
      split_ifs <;> simp_all
    · rw [if_neg same, if_pos (Ne.symm same)]
      exact lists.keys user miner
  · rw [(bill.counts_iff s).mpr kept, lists.incomes, map_cons, sum_cons, Nat.add_comm]

lemma noneLost_iff (served) (lists : bill.Lists earlier) : Bill.NoneLost served bill ↔
    Always (fun earlier s => some (s :: earlier)) (fun earlier s => ¬s.Forgets earlier) served
      earlier := by
  induction served generalizing bill earlier with
  | nil => simp [Bill.NoneLost, Always]
  | cons s rest ih =>
    simp only [Bill.NoneLost, Always, Option.mem_def, Option.some.injEq, forall_eq',
      lists.loses_iff]
    refine and_congr_right fun kept => ?_
    exact ih (lists.count (lists.loses_iff s |>.not.mpr kept))

lemma Bill.cost_foldl (bill) (served : List Service) (user) :
    (served.foldl Bill.count bill).cost user =
      bill.cost user + (served.map fun s => if s.user = user then s.amount else 0).sum := by
  induction served generalizing bill with
  | nil => rfl
  | cons s rest ih =>
    have now : (bill.count s).cost user =
        bill.cost user + if s.user = user then s.amount else 0 := by
      by_cases same : s.user = user
      · simp [Bill.cost, Bill.count, same]
      · simp [Bill.cost, Bill.count, same, Ne.symm same]
    rw [foldl_cons, ih, now, map_cons, sum_cons, Nat.add_assoc]

def Bill.Balanced (bill : Bill) : Prop :=
  ∀ user, (bill.incomes user).sum id = bill.cost user

lemma Bill.Balanced.count (balanced : bill.Balanced) (kept : ¬bill.Loses s) :
    (bill.count s).Balanced := by
  intro user
  have cost := bill.cost_foldl [s] user
  simp only [foldl_cons, foldl_nil, map_cons, map_nil, sum_cons, sum_nil, Nat.add_zero] at cost
  rw [Bill.incomes_count, cost]
  by_cases same : user = s.user
  · have added := FiniteMap.sum_insert (bill.found s) id s.miner
      (bill.income s.user s.miner + s.amount)
    have read (o : Option Nat) : o.elim 0 id = o.getD 0 := by cases o <;> rfl
    have unchanged : (bill.found s).sum id = (bill.incomes s.user).sum id := by
      have keys : (bill.found s).keys ⊆ (bill.incomes s.user).keys := by
        rw [Bill.found]
        split
        · exact Finset.empty_subset _
        · exact Finset.Subset.refl _
      rw [FiniteMap.sum_eq_of_subset _ _ keys, FiniteMap.sum]
      refine Finset.sum_congr rfl fun miner _ => ?_
      rw [read, read, (bill.found_eq_iff s).mpr kept miner, Bill.income]
    rw [read, bill.found_income s, unchanged, balanced s.user] at added
    rw [if_pos same, if_pos same.symm, same]
    simp only [id] at added
    omega
  · rw [if_neg same, if_neg (Ne.symm same)]
    exact balanced user

lemma Bill.balanced_of_noneLost (kept : Bill.NoneLost served .empty) :
    (Bill.of served).Balanced := by
  refine run_invariant Bill.Balanced (fun bill s bill' balanced kept counted => ?_)
    (fun _ => rfl) kept (run_some Bill.count served .empty)
  cases counted
  exact balanced.count kept

lemma KeyOrder.sum (order : KeyOrder) (keys) (f : AccountAddress → Nat) :
    ((order.list keys).map f).sum = ∑ key ∈ keys, f key := by
  rw [Finset.sum, ← order.perm keys, Multiset.map_coe, Multiset.sum_coe]

lemma Bill.users_of_foldl (served : List Service)
    (earned : (Bill.of served).income user miner ≠ 0) : user ∈ (Bill.of served).users.keys := by
  revert earned
  refine List.foldlRecOn (motive := fun bill => bill.income user miner ≠ 0 →
    user ∈ bill.users.keys) served Bill.count (b := .empty) (fun earned => (earned rfl).elim) ?_
  intro bill kept s _ earned
  rw [Bill.income_count] at earned
  by_cases same : user = s.user
  · exact Finset.mem_insert.mpr (.inl same)
  · simp only [same, if_false, Service.earns, Ne.symm same, false_and, Nat.add_zero] at earned
    exact Finset.mem_insert_of_mem (kept earned)

variable {served : List Service} (small : (served.map Service.amount).sum < 2 ^ 64)

include small

lemma Bill.income_toNat (miner : AccountAddress) :
    (UInt64.ofNat ((Bill.of served).income user miner)).toNat =
      (Bill.of served).income user miner := by
  refine UInt64.toNat_ofNat_of_lt (Nat.lt_of_le_of_lt ?_ small)
  refine (Bill.income_foldl_le .empty served user miner).trans ?_
  refine (Nat.zero_add _).trans_le (sum_le_sum fun s _ => ?_)
  rw [Service.earns]
  split <;> omega

lemma Bill.cost_toNat : (UInt64.ofNat ((Bill.of served).cost user)).toNat =
    (Bill.of served).cost user := by
  refine UInt64.toNat_ofNat_of_lt (Nat.lt_of_le_of_lt ?_ small)
  rw [Bill.of, Bill.cost_foldl]
  refine (Nat.zero_add _).trans_le (sum_le_sum fun s _ => ?_)
  split <;> omega

lemma Bill.incomeListed_list (order : KeyOrder) (minerOrder) (user miner : AccountAddress) :
    incomeListed ((Bill.of served).list order minerOrder) user miner =
      (Bill.of served).income user miner := by
  simp only [incomeListed, Bill.list, map_map, Function.comp_def, Option.elim_some,
    KeyOrder.sum, Bill.income_toNat small, Finset.sum_ite_eq']
  split
  · rename_i listed
    split
    · rfl
    · rename_i absent
      rw [FiniteMap.mem_keys, Option.not_isSome_iff_eq_none] at absent
      rw [Bill.income, absent]
      rfl
  · rename_i unlisted
    by_contra earned
    exact unlisted (Bill.users_of_foldl served (Ne.symm earned))

lemma Bill.cost_list (member : some entry ∈ (Bill.of served).list order minerOrder) :
    entry.cost.toNat = (Bill.of served).cost entry.user ∧ incomesListed entry.miners =
        ((Bill.of served).incomes entry.user).sum id := by
  obtain ⟨user, -, same⟩ := mem_map.mp member
  cases same
  refine ⟨Bill.cost_toNat small, ?_⟩
  simp only [incomesListed, map_map, Function.comp_def, Option.elim_some, KeyOrder.sum,
    Bill.income_toNat small, FiniteMap.sum]
  refine Finset.sum_congr rfl fun miner _ => ?_
  rw [Bill.income]
  cases ((Bill.of served).incomes user).get miner <;> rfl

end

lemma takeWhile_dropWhile_eq_filter {height : α → Int} {nodes : List α}
    (falling : nodes.Pairwise fun n p => height p < height n) (low high) :
    (nodes.dropWhile fun n => high < height n).takeWhile (fun n => low < height n) =
      nodes.filter fun n => low < height n ∧ height n ≤ high := by
  induction nodes with
  | nil => rfl
  | cons n rest ih =>
    obtain ⟨lower, later⟩ := pairwise_cons.mp falling
    by_cases above : high < height n
    · simp [above, ih later]
    · have whole : rest.dropWhile (fun n => decide (high < height n)) = rest := by
        cases rest with
        | nil => rfl
        | cons p =>
          have := lower p mem_cons_self
          rw [dropWhile_cons_of_neg (by simp; omega)]
      have rest := ih later
      rw [whole] at rest
      rw [dropWhile_cons_of_neg (by simpa using above)]
      by_cases enough : low < height n
      · rw [takeWhile_cons_of_pos (by simpa using enough), rest,
          filter_cons_of_pos (by simp; omega)]
      · rw [takeWhile_cons_of_neg (by simpa using enough), eq_comm, filter_eq_nil_iff]
        intro p member
        rcases mem_cons.mp member with rfl | member
        · simp; omega
        · have := lower p member
          simp; omega

section

variable {c : Chain DB Query} {node n : BlockNode Query}

lemma BlockNode.ancestor_some {height} (located : node.ancestor height = some n) :
    n ∈ node.ancestors ∧ n.height = height := by
  rw [BlockNode.ancestor, Option.ite_none_left_eq_some, Option.filter_eq_some_iff] at located
  obtain ⟨-, first, enough⟩ := located
  have low := List.head?_dropWhile_not (fun n => decide (height < n.height)) node.ancestors
  rw [first] at low
  simp only [decide_eq_false_iff_not, decide_eq_true_eq] at low enough
  exact ⟨(dropWhile_sublist _).subset (mem_of_mem_head? first), by omega⟩

lemma Chain.loadBlock_ok (head : c.rt.head.node = some node)
    (increasing : node.ancestors.Pairwise fun n p => p.height < n.height)
    (member : n ∈ node.ancestors) (loaded : c.loadBlock n = .ok b) : c.blockOf n = some b := by
  rw [Chain.loadBlock] at loaded
  rw [Chain.blockOf]
  cases cached : n.load with
  | some => simpa [cached] using loaded
  | none =>
    simp only [cached, Chain.fetchBlock, head] at loaded
    cases located : node.ancestor n.height with
    | none => simp [located] at loaded
    | some found =>
      obtain ⟨inside, level⟩ := BlockNode.ancestor_some located
      have apart : (node.ancestors.map BlockNode.height).Nodup :=
        pairwise_map.mpr (increasing.imp fun lower => Int.ne_of_gt lower)
      obtain rfl : found = n := inj_on_of_nodup_map apart inside member level
      cases stored : c.blkDB.get found.indexKey with
      | none => simp [located, stored] at loaded
      | some => simpa [located, stored] using loaded

lemma mapM_forall₂ {f : α → Except ε β} (ran : items.mapM f = .ok results) :
    List.Forall₂ (fun item result => item ∈ items ∧ f item = .ok result) items results := by
  induction items generalizing results with
  | nil =>
    cases ran
    exact .nil
  | cons item rest ih =>
    rw [mapM_cons] at ran
    cases first : f item with
    | error =>
      rw [first] at ran
      cases ran
    | ok =>
      cases others : rest.mapM f with
      | error =>
        rw [first, others] at ran
        cases ran
      | ok =>
        rw [first, others] at ran
        cases ran
        exact .cons ⟨mem_cons_self, first⟩ ((ih others).imp fun _ _ found =>
          ⟨mem_cons_of_mem item found.1, found.2⟩)

end

/-- A bill counts the blocks above the last billed height up to the given one, each once. -/
theorem billing_complete_iff (env : Env) (c : Chain DB Query) (order : KeyOrder)
    (minerOrder : AccountAddress → KeyOrder) (receiver : AccountAddress) (version : Int)
    (lastBillingHeight h : Int) (node : BlockNode Query) (ub : UpdateBillingHeader)
    (head : c.rt.head.node = some node)
    (increasing : node.ancestors.Pairwise fun n parent => parent.height < n.height)
    (ran : c.billing env order minerOrder receiver version lastBillingHeight h (some node) =
      .ok ub) :
    ∃ counted : List (List Service),
      List.Forall₂ (fun n served => ∃ b, c.blockOf n = some b ∧ services env b = .ok served)
        (node.ancestors.filter fun n => lastBillingHeight < n.height ∧ n.height ≤ h) counted ∧
      ((counted.flatten.map Service.amount).sum < 2 ^ 64 →
        (((∀ user miner, incomeListed ub.users user miner =
            (counted.flatten.map (·.earns user miner)).sum) ∧
          ∀ entry, some entry ∈ ub.users → entry.cost.toNat = incomesListed entry.miners) ↔
        NoneForgotten counted.flatten)) := by
  rw [Chain.billing, Option.elim_some, takeWhile_dropWhile_eq_filter increasing] at ran
  cases mapped : (node.ancestors.filter fun n =>
      decide (lastBillingHeight < n.height ∧ n.height ≤ h)).mapM fun n =>
        c.loadBlock n >>= services env with
  | error =>
    rw [mapped] at ran
    cases ran
  | ok counted =>
    rw [mapped] at ran
    cases ran
    refine ⟨counted, (mapM_forall₂ mapped).imp ?_, fun small => ?_⟩
    · rintro n served ⟨inside, ok⟩
      cases loaded : c.loadBlock n with
      | error =>
        rw [loaded] at ok
        cases ok
      | ok b =>
        rw [loaded] at ok
        exact ⟨b, Chain.loadBlock_ok head increasing (mem_of_mem_filter inside) loaded, ok⟩
    · simp only [Bill.incomeListed_list small]
      have complete := Bill.complete_iff .empty counted.flatten
      simp only [show ∀ user miner, Bill.empty.income user miner = 0 from fun _ _ => rfl,
        Nat.zero_add] at complete
      have blank : Bill.empty.Lists [] :=
        ⟨fun _ _ => by simp [Service.listed, Bill.incomes, Bill.empty], fun _ _ => rfl⟩
      rw [NoneForgotten, ← noneLost_iff _ blank]
      refine ⟨fun right => complete.mp right.1, fun kept => ⟨complete.mpr kept, ?_⟩⟩
      intro entry member
      obtain ⟨cost, incomes⟩ := Bill.cost_list small member
      rw [cost, incomes, Bill.balanced_of_noneLost kept]

namespace Sample

def billed (account : AccountAddress) : Block Nat :=
  { block "AAAAAAAA" 9000 10 [⟨write, { response write 0 with
      header := { (response write 0).header with responseAccount := account } }⟩] [] with
    failedReqs := [request 2 6 .writeQuery [1, 2]] }

def billedChain (account : AccountAddress) : Chain Nat Nat := (chain 0).setHead (billed account)

def counting (account : AccountAddress) : List Service :=
  [⟨9, account, 1, false⟩, ⟨9, 8, 2, true⟩]

noncomputable def anyOrder : KeyOrder := ⟨Finset.toList, Finset.coe_toList⟩

end Sample

open Sample

theorem billing_complete_iff_single : ∃ ub,
    (billedChain 8).billing env anyOrder (fun _ => anyOrder) 0 1 0 1
      (billedChain 8).rt.head.node = .ok ub ∧ incomeListed ub.users 9 8 = 3 := by
  obtain ⟨counted, blocks, right⟩ := billing_complete_iff env (billedChain 8) anyOrder
    (fun _ => anyOrder) 0 1 0 1 _ ⟨0, 0, (Bill.of (counting 8)).list anyOrder _, 0, 1, 1⟩ rfl
    (by decide) rfl
  change List.Forall₂ _ [_] counted at blocks
  cases blocks with
  | cons first rest =>
    cases rest
    obtain ⟨b, found, served⟩ := first
    cases found
    cases served
    exact ⟨_, rfl, ((right (by decide)).mpr (by decide)).1 9 8⟩

/-- The income of the miner that has answered the query is lost. -/
theorem billing_loses_income : ∃ ub,
    (billedChain 5).billing env anyOrder (fun _ => anyOrder) 0 1 0 1
      (billedChain 5).rt.head.node = .ok ub ∧ incomeListed ub.users 9 5 = 0 ∧
      ∃ entry, some entry ∈ ub.users ∧ entry.cost = 3 ∧ incomesListed entry.miners = 2 := by
  have small : ((counting 5).map Service.amount).sum < 2 ^ 64 := by decide
  obtain ⟨entry, member, user⟩ : ∃ entry, some entry ∈
      (Bill.of (counting 5)).list anyOrder (fun _ => anyOrder) ∧ entry.user = 9 :=
    ⟨_, mem_map.mpr ⟨9, Finset.mem_toList.mpr (by decide), rfl⟩, rfl⟩
  obtain ⟨cost, incomes⟩ := Bill.cost_list small member
  rw [user] at cost incomes
  refine ⟨_, rfl, (Bill.incomeListed_list small anyOrder _ 9 5).trans (by decide), entry, member,
    ?_, incomes.trans (by decide)⟩
  exact UInt64.toNat_inj.mp (cost.trans (by decide))

end SQLess.SQLChain
