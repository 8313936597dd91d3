import SQLess.BlockProducer.Preview
import SQLess.BlockProducer.Refusal
import SQLess.BlockProducer.Selection

/-! Producing a block and validating it. -/

namespace SQLess.BlockProducer

open Lib Program List MetaState Transaction

variable {tx : Transaction} {index : MetaIndex} {create : SignedTx CreateDatabaseHeader}
  {addr : AccountAddress} {w br : Branch} {ts : Time} {signer : PrivateKey} {bl : BPBlock}

section

variable {env : Env} {order order' : MinerOrder} {height : Nat} {s s' t : MetaState}

structure SameIndex (s t : MetaState) : Prop where
  view : s.view = t.view
  leftClean : s.NoNil
  rightClean : t.NoNil

lemma SameIndex.sameView (same : SameIndex s t) : SameView s.readonly t.readonly s t :=
  ⟨same.view, same.leftClean, same.rightClean, rfl, rfl⟩

lemma SameView.sameIndex (s t) (same : SameView left right s t) : SameIndex s t :=
  ⟨same.view, same.leftClean, same.rightClean⟩

lemma storeBaseAccount_agrees (same : SameIndex s t) (k v) :
    Agree SameIndex (storeBaseAccount k v s) (storeBaseAccount k v t) := by
  simp only [storeBaseAccount, bind_run]
  have visible := same.leftClean.not_shadowed k
  have visible' := same.rightClean.not_shadowed k
  rcases loadOrStore_ok v visible with
    ⟨absent, stored⟩ | ⟨layer, o, present, -, loaded, written⟩
  · rcases loadOrStore_ok v visible' with ⟨_, stored'⟩ | ⟨_, o', present', _⟩
    · rw [stored, stored']
      refine ⟨rfl, ?_, s.setDirtyAccount_noNil same.leftClean k v,
        t.setDirtyAccount_noNil same.rightClean k v⟩
      rw [view_setDirtyAccount, view_setDirtyAccount, same.view]
    · rw [← same.view, absent] at present'
      simp at present'
  · rcases loadOrStore_ok v visible' with
      ⟨absent', _⟩ | ⟨layer', o', present', -, loaded', written'⟩
    · rw [← same.view, present] at absent'
      simp at absent'
    · rw [← same.view, present, Option.some.injEq] at present'
      subst present'
      simp only [loaded, loaded']
      split
      · exact ⟨rfl, same⟩
      · rcases safeAdd o.tokenBalance.wave v.tokenBalance.wave with wave | cb
        · exact ⟨rfl, same⟩
        · rcases safeAdd o.tokenBalance.particle v.tokenBalance.particle with particle | sb
          · exact ⟨rfl, same⟩
          · have left := written { o with tokenBalance := ⟨sb, cb⟩ }
            have right := written' { o with tokenBalance := ⟨sb, cb⟩ }
            exact ⟨rfl, by rw [left, right, same.view], s.setAccountIn_noNil same.leftClean _ _ _,
              t.setAccountIn_noNil same.rightClean _ _ _⟩

lemma SameMiners.congr (chosen : SameMiners order order' tx s t) (left : SameIndex s s'')
    (right : SameIndex t t') : SameMiners order order' tx s'' t' := by
  intro create wrapped
  rw [← selectMiners_eq left.sameView.providers (.inl (Eq.refl order)),
    ← selectMiners_eq right.sameView.providers (.inl (Eq.refl order'))]
  exact chosen create wrapped

lemma applyTransaction_agrees (same : SameIndex s t) (chosen : SameMiners order order' tx s t) :
    Agree SameIndex (applyTransaction env order height tx s)
      (applyTransaction env order' height tx t) := by
  induction tx with
  | baseAccount account => exact storeBaseAccount_agrees same account.address account
  | wrapper inner ih => exact ih chosen
  | _ =>
    exact (applyTransaction_similar env height rfl same.sameView chosen).mono SameView.sameIndex

lemma apply_agrees (same : SameIndex s t) (chosen : SameMiners order order' tx s t) :
    Agree SameIndex (apply env order tx height s) (apply env order' tx height t) := by
  refine ((expectedNonce_similar env tx s t same.sameView).mono SameView.sameIndex).bind ?_
  intro nextNonce after after' ran ran' later
  obtain rfl := expectedNonce_state ran
  obtain rfl := expectedNonce_state ran'
  split
  · exact ⟨rfl, later⟩
  · refine (applyTransaction_agrees later chosen).bind ?_
    intro _ body body' _ _ applied
    exact (increaseNonce_similar _ body body' applied.sameView).mono SameView.sameIndex

lemma SameIndex.fresh (clean : s.NoNil) : SameIndex ⟨newDirtyIndex, s.view⟩ s :=
  ⟨view_clean s.view, noNil_clean s.view, clean⟩

lemma selectMiners_none (selected : selectMiners order s req user = .ok none) (order') :
    selectMiners order' s req user = .ok none := by
  simp only [selectMiners] at selected ⊢
  split at selected
  · rename_i few
    rw [if_pos few]
    split at selected
    · rename_i designated
      rw [if_pos designated]
      exact selected
    · split at selected <;> simp at selected
  · simp at selected

lemma selectMiners_unpaid (selected : selectMiners order s req user = .ok (some miners)) :
    miners.map MinerInfo.unpaid = miners := by
  refine (map_congr_left ?_).trans (map_id miners)
  intro miner member
  obtain ⟨k, po, -, -, rfl⟩ := selectMiners_mem selected miner member
  rfl

lemma Applied.selected (applied : Applied env order height tx index index')
    (wrapped : tx.unwrap = .createDatabase create) :
    selectMiners order ⟨newDirtyIndex, index⟩ create.header create.header.owner = .ok none ∨
      ∃ profile, selectMiners order ⟨newDirtyIndex, index⟩ create.header create.header.owner =
          .ok (some profile.miners) ∧
        index'.databases.get (fromAccountAndNonce env create.header.owner create.header.nonce) =
          some profile := by
  obtain ⟨-, step, -⟩ := applied
  induction step with
  | unmatched _ selected =>
    simp only [unwrap, createDatabase.injEq] at wrapped
    rw [← wrapped]
    exact .inl selected
  | database signer priced staffed advanced selected cost supported adjusted encoded fresh =>
    rename_i tx index charged miners all token enc
    simp only [unwrap, createDatabase.injEq] at wrapped
    rw [← wrapped]
    refine .inr ⟨newSQLChainProfile env tx tx.header.owner miners enc, selected, ?_⟩
    simp only [MetaIndex.setAccount, MetaIndex.storeProfile, deleteProviders_databases]
    simp [MetaIndex.setDatabase, newSQLChainProfile]
  | wrapper step ih => exact ih wrapped
  | _ => simp [unwrap] at wrapped

lemma adjustAccountToken_applies (context) (clean : s.NoNil)
    (supported : tokenType.token? = some token)
    (adjusted : Adjusted change k amount token s.view index) :
    ∃ s', adjustAccountToken change context k amount tokenType s = .ok (.ok (), s') ∧
      s'.view = index ∧ s'.NoNil := by
  obtain ⟨account, balance, found, changed, rfl⟩ := adjusted
  rw [view_accounts_get] at found
  have loading := dirtyAccount_run clean k (.wrapped context .accountNotFound)
  simp only [found] at loading
  obtain ⟨loaded, first, view, kept, -⟩ := loading
  refine ⟨loaded.setDirtyAccount k (Account.withBalance account token balance), ?_, ?_, ?_⟩
  · simp [adjustAccountToken, bind_run, first, supported, changed, Account.withBalance]
  · rw [view_setDirtyAccount, view]
  · exact loaded.setDirtyAccount_noNil kept k _

lemma increaseNonce_applies (clean : s.NoNil) (found : s.view.accounts.get addr = some account) :
    ∃ s', increaseNonce addr s = .ok (.ok (), s') := by
  rw [view_accounts_get] at found
  have loading := dirtyAccount_run clean addr .accountNotFound
  simp only [found] at loading
  obtain ⟨loaded, first, -⟩ := loading
  simp only [increaseNonce, bind_run, first]
  exact ⟨_, rfl⟩

lemma Ledger.createDatabase_applies (clean : s.NoNil)
    (step : Ledger env order height tx s.view index)
    (wrapped : tx.unwrap = .createDatabase create) :
    selectMiners order ⟨newDirtyIndex, s.view⟩ create.header create.header.owner = .ok none ∨
      ∃ s', applyTransaction env order height tx s = .ok (.ok (), s') ∧ s'.view = index ∧
        s'.NoNil := by
  generalize viewed : s.view = before at step
  induction step with
  | unmatched signer selected =>
    simp only [Transaction.unwrap, Transaction.createDatabase.injEq] at wrapped
    rw [← wrapped]
    exact .inl selected
  | database signer priced staffed advanced selected cost supported adjusted encoded fresh =>
    rename_i tx index charged miners all token enc
    subst viewed
    obtain ⟨paid, ran, view, kept⟩ :=
      adjustAccountToken_applies "decrease account balance fail" clean supported adjusted
    rw [← selectMiners_view] at selected
    refine .inr ⟨storeProfile (newSQLChainProfile env tx tx.header.owner miners enc) paid, ?_,
      by rw [storeProfile_view, view], storeProfile_noNil _ kept⟩
    have unknown : paid.loadSQLChainObject
        (fromAccountAndNonce env tx.header.owner tx.header.nonce) = none := by
      obtain ⟨account, balance, -, -, rfl⟩ := adjusted
      rw [← paid.view_databases_get, view]
      exact fresh
    have creating : createProfile env tx tx.header.owner miners s =
        .ok (.ok (), storeProfile (newSQLChainProfile env tx tx.header.owner miners enc) paid) := by
      simp only [createProfile, bind_run, cost, orFail_ok_run, decreaseAccountToken, ran, encoded,
        get_run, unknown, modify_run]
    simp only [applyTransaction, matchProvidersWithUser, signer, ne_eq, not_true, if_false,
      priced, staffed, UInt64.not_lt.mpr advanced, get_bind_run, selected]
    simp only [bind_run, orFail_ok_run, creating]
  | wrapper step ih => exact ih wrapped viewed
  | _ => simp [Transaction.unwrap] at wrapped

lemma Applied.createDatabase_applies (clean : s.NoNil)
    (applied : Applied env order height tx s.view index)
    (wrapped : tx.unwrap = .createDatabase create) :
    selectMiners order ⟨newDirtyIndex, s.view⟩ create.header create.header.owner = .ok none ∨
      ∃ s', apply env order tx height s = .ok (.ok (), s') := by
  obtain ⟨expected, step, found⟩ := applied
  rcases step.createDatabase_applies clean wrapped with unmatched | ⟨middle, ran, rfl, kept⟩
  · exact .inl unmatched
  · obtain ⟨s', increased⟩ := increaseNonce_applies kept found
    refine .inr ⟨s', ?_⟩
    simp [apply, bind_run, expectedNonce_eq clean expected, ran, increased]

def Unambiguous (env : Env) (order : MinerOrder) (height : Nat) (tx : Transaction)
    (index : MetaIndex) : Prop :=
  ∀ index', Applied env order height tx index index' → ∀ order',
    SameMiners order order' tx ⟨newDirtyIndex, index⟩ ⟨newDirtyIndex, index⟩

/-- `holds` of every transaction that production tries, in the state in which it finds it,
when `packed` transactions are in the block. -/
def AtTurn (env : Env) (height packCount : Nat)
    (holds : MinerOrder → Transaction → MetaState → Prop) :
    Orders → List Transaction → Nat → MetaState → Prop
  | _, [], _, _ => True
  | orders, v :: rest, packed, s =>
    holds (orders 0) v s ∧
      match apply env (orders 0) v height s with
      | .error _ => True
      | .ok (.error _, s') => AtTurn env height packCount holds (orders.drop 1) rest packed s'
      | .ok (.ok (), s') => packed + 1 = packCount ∨
          AtTurn env height packCount holds (orders.drop 1) rest (packed + 1) s'

def Branch.pack (b : Branch) (v : Transaction) (preview : MetaState) : Branch :=
  ⟨b.head, preview, b.packed.add v, b.unpacked.delete v.hash⟩

inductive Produces (env : Env) (height packCount : Nat) :
    Orders → List Transaction → Nat → Branch → List Transaction → Branch → Prop
  | done {orders packed b} : Produces env height packCount orders [] packed b [] b
  | skip {orders v rest packed b new b' error preview}
      (refused : apply env (orders 0) v height b.preview = .ok (.error error, preview))
      (later : Produces env height packCount (orders.drop 1) rest packed
        { b with preview := preview } new b') :
      Produces env height packCount orders (v :: rest) packed b new b'
  | full {orders v rest packed b preview}
      (applied : apply env (orders 0) v height b.preview = .ok (.ok (), preview))
      (last : packed + 1 = packCount) :
      Produces env height packCount orders (v :: rest) packed b [v] (b.pack v preview)
  | pack {orders v rest packed b new b' preview}
      (applied : apply env (orders 0) v height b.preview = .ok (.ok (), preview))
      (more : packed + 1 ≠ packCount)
      (later : Produces env height packCount (orders.drop 1) rest (packed + 1)
        (b.pack v preview) new b') :
      Produces env height packCount orders (v :: rest) packed b (v :: new) b'

variable {packed : Nat} {orders : Orders} {txs new rest : List Transaction} {b b' w w' : Branch}
  {v : Transaction}

lemma packUnpacked_produces
    (ran : Branch.packUnpacked env height packCount orders txs out b = .ok (out', b')) :
    ∃ new, out' = out ++ new ∧ Produces env height packCount orders txs out.length b new b' := by
  induction txs generalizing orders out b with
  | nil =>
    simp only [Branch.packUnpacked] at ran
    cases ran
    exact ⟨[], by simp, .done⟩
  | cons v rest ih =>
    simp only [Branch.packUnpacked] at ran
    split at ran
    · simp at ran
    · rename_i error preview refused
      obtain ⟨new, rfl, later⟩ := ih ran
      exact ⟨new, rfl, .skip refused later⟩
    · rename_i preview applied
      split at ran
      · rename_i last
        cases ran
        exact ⟨[v], rfl, .full applied (by simpa using last)⟩
      · rename_i more
        obtain ⟨new, rfl, later⟩ := ih ran
        rw [length_append, length_singleton] at more later
        exact ⟨v :: new, by simp, .pack applied more later⟩

lemma Produces.atTurn_congr
    (produces : Produces env height packCount orders txs packed b new b') (clean : b.preview.NoNil)
    (same : ∀ order v s result s', s.NoNil → apply env order v height s = .ok (result, s') →
      (first order v s ↔ second order v s)) :
    AtTurn env height packCount first orders txs packed b.preview ↔
      AtTurn env height packCount second orders txs packed b.preview := by
  induction produces with
  | done => simp [AtTurn]
  | skip refused later ih =>
    simp only [AtTurn, refused]
    rw [same _ _ _ _ _ clean refused, ih (apply_noNil clean refused)]
  | full applied last =>
    simp only [AtTurn, applied, last, true_or]
    rw [same _ _ _ _ _ clean applied]
  | pack applied more later ih =>
    simp only [AtTurn, applied, more, false_or]
    rw [same _ _ _ _ _ clean applied]
    exact and_congr_right fun _ => ih (apply_noNil clean applied)

lemma AtTurn.and :
    AtTurn env height packCount (fun order v s => first order v s ∧ second order v s) orders txs
        packed s ↔ AtTurn env height packCount first orders txs packed s ∧
        AtTurn env height packCount second orders txs packed s := by
  induction txs generalizing orders packed s with
  | nil => simp [AtTurn]
  | cons v rest ih =>
    simp only [AtTurn]
    split
    · simp
    · rw [ih, and_and_and_comm]
    · rw [ih, and_and_and_comm, or_and_left]

structure Ready (txs : List Transaction) (b : Branch) : Prop where
  distinct : txs.Pairwise fun left right => left.hash ≠ right.hash
  pooled : ∀ v ∈ txs, b.unpacked.contains v.hash = true
  unknown : ∀ v ∈ txs, b.packed.contains v.hash = false

lemma Ready.tail (ready : Ready (v :: rest) b) : Ready rest b :=
  ⟨(pairwise_cons.mp ready.distinct).2, fun w member => ready.pooled w (mem_cons_of_mem v member),
    fun w member => ready.unknown w (mem_cons_of_mem v member)⟩

lemma Ready.pack (ready : Ready (v :: rest) b) (preview) : Ready rest (b.pack v preview) := by
  have other : ∀ w ∈ rest, w.hash ≠ v.hash := fun w member =>
    ((pairwise_cons.mp ready.distinct).1 w member).symm
  refine ⟨ready.tail.distinct, ?_, ?_⟩
  · intro w member
    have pooled := ready.tail.pooled w member
    simpa [Branch.pack, TxPool.contains, other w member] using pooled
  · intro w member
    have unknown := ready.tail.unknown w member
    simpa [Branch.pack, TxPool.contains, other w member] using unknown

structure Mirrors (b w : Branch) : Prop where
  preview : SameIndex b.preview w.preview
  packed : w.packed = b.packed
  unpacked : w.unpacked = b.unpacked

lemma Mirrors.pack {preview} (mirrors : Mirrors b w) (ready : Ready (v :: rest) b)
    (applied : apply env order v height b.preview = .ok (.ok (), preview))
    (chosen : SameMiners order order' v b.preview w.preview) :
    ∃ preview', packTx env order' height v w = .ok (.ok (), w.pack v preview') ∧
      Mirrors (b.pack v preview) (w.pack v preview') := by
  have agreed : Agree SameIndex (apply env order v height b.preview)
      (apply env order' v height w.preview) := apply_agrees mirrors.preview chosen
  rw [applied] at agreed
  rcases applied' : apply env order' v height w.preview with reason | ⟨result, preview'⟩
  · rw [applied'] at agreed
    exact agreed.elim
  · rw [applied'] at agreed
    obtain ⟨rfl, later⟩ := agreed
    refine ⟨preview', packTx_eq_ok.mpr ⟨.inl ?_, ?_, preview', applied', rfl⟩, later, ?_, ?_⟩
    · rw [mirrors.unpacked]
      exact ready.pooled v mem_cons_self
    · rw [mirrors.packed]
      exact ready.unknown v mem_cons_self
    · simp only [Branch.pack, mirrors.packed]
    · simp only [Branch.pack, mirrors.unpacked]

lemma Mirrors.skip {preview error} (mirrors : Mirrors b w)
    (refused : apply env order v height b.preview = .ok (.error error, preview))
    (clear : ¬LeavesTrace env order height v b.preview.view) :
    Mirrors { b with preview := preview } w := by
  have same : preview.view = b.preview.view := by
    by_contra differs
    exact clear ((apply_refused mirrors.preview.leftClean refused).mp differs)
  exact ⟨⟨same.trans mirrors.preview.view, apply_noNil mirrors.preview.leftClean refused,
    mirrors.preview.rightClean⟩, mirrors.packed, mirrors.unpacked⟩

lemma Unambiguous.sameMiners
    (unambiguous : Unambiguous env order height v b.preview.view) (mirrors : Mirrors b w)
    (applied : apply env order v height b.preview = .ok (.ok (), preview)) (order') :
    SameMiners order order' v b.preview w.preview := by
  refine (unambiguous _ (apply_applied applied) order').congr
    (SameIndex.fresh mirrors.preview.leftClean) ?_
  rw [mirrors.preview.view]
  exact SameIndex.fresh mirrors.preview.rightClean

lemma Produces.validated
    (produces : Produces env height packCount orders txs packed b new b') (ready : Ready txs b)
    (calm : AtTurn env height packCount (fun order v s => ¬LeavesTrace env order height v s.view ∧
      Unambiguous env order height v s.view) orders txs packed b.preview)
    (orders') (mirrors : Mirrors b w) :
    ∃ w', packTxs env height orders' new w = .ok (.ok (), w') ∧ Mirrors b' w' := by
  induction produces generalizing orders' w with
  | done => exact ⟨w, rfl, mirrors⟩
  | skip refused later ih =>
    simp only [AtTurn, refused] at calm
    exact ih ⟨ready.tail.distinct, ready.tail.pooled, ready.tail.unknown⟩ calm.2 orders'
      (mirrors.skip refused calm.1.1)
  | full applied =>
    simp only [AtTurn, applied] at calm
    obtain ⟨preview', ran, kept⟩ := mirrors.pack ready applied
      (calm.1.2.sameMiners mirrors applied (orders' 0))
    exact ⟨_, packTxs_cons.mpr ⟨_, ran, rfl⟩, kept⟩
  | pack applied more later ih =>
    simp only [AtTurn, applied, more, false_or] at calm
    obtain ⟨preview', ran, kept⟩ := mirrors.pack ready applied
      (calm.1.2.sameMiners mirrors applied (orders' 0))
    obtain ⟨w', ran', final⟩ := ih (ready.pack _) calm.2 (orders'.drop 1) kept
    exact ⟨w', packTxs_cons.mpr ⟨_, ran, ran'⟩, final⟩

def Orders.cons (order : MinerOrder) (orders : Orders) : Orders
  | 0 => order
  | n + 1 => orders n

lemma Orders.drop_cons (order orders) : (Orders.cons order orders).drop 1 = orders := rfl

lemma packTxs_miners {id profile} (ran : packTxs env height orders txs b = .ok (.ok (), b'))
    (found : b.preview.view.databases.get id = some profile) :
    ∃ profile', b'.preview.view.databases.get id = some profile' ∧
      profile'.miners.map MinerInfo.unpaid = profile.miners.map MinerInfo.unpaid := by
  induction txs generalizing orders b profile with
  | nil =>
    simp only [packTxs, pure_run, Except.ok.injEq, Prod.mk.injEq, true_and] at ran
    rw [← ran]
    exact ⟨profile, found, rfl⟩
  | cons v rest ih =>
    obtain ⟨between, first, later⟩ := packTxs_cons.mp ran
    obtain ⟨-, -, preview, applied, rfl⟩ := packTx_eq_ok.mp first
    obtain ⟨profile₁, found₁, change⟩ := (apply_applied applied).profile found
    obtain ⟨profile', found', same⟩ := ih later found₁
    exact ⟨profile', found', same.trans change.miners⟩

lemma sameMiners_of_packTxs
    (agrees : ∀ orders, ∃ w', packTxs env height orders (v :: rest) w = .ok (.ok (), w') ∧
      w'.preview.view = final) (order order') :
    SameMiners order order' v ⟨newDirtyIndex, w.preview.view⟩ ⟨newDirtyIndex, w.preview.view⟩ := by
  intro create wrapped
  have outcome : ∀ order,
      selectMiners order ⟨newDirtyIndex, w.preview.view⟩ create.header create.header.owner =
        .ok none ∨
      ∃ miners, selectMiners order ⟨newDirtyIndex, w.preview.view⟩ create.header
          create.header.owner = .ok (some miners) ∧
        ∃ profile, final.databases.get
          (fromAccountAndNonce env create.header.owner create.header.nonce) = some profile ∧
          profile.miners.map MinerInfo.unpaid = miners := by
    intro order
    obtain ⟨w', ran, rfl⟩ := agrees (fun _ => order)
    obtain ⟨between, first, later⟩ := packTxs_cons.mp ran
    obtain ⟨-, -, preview, applied, rfl⟩ := packTx_eq_ok.mp first
    rcases (apply_applied applied).selected wrapped with none | ⟨profile, selected, found⟩
    · exact .inl none
    · obtain ⟨profile', found', same⟩ := packTxs_miners later found
      exact .inr ⟨_, selected, profile', found', by rw [same, selectMiners_unpaid selected]⟩
  rcases outcome order with none | ⟨miners, selected, profile, found, same⟩
  · rw [none, selectMiners_none none order']
  · rcases outcome order' with none' | ⟨miners', selected', profile', found', same'⟩
    · rw [none', selectMiners_none none' order]
    · rw [found, Option.some.injEq] at found'
      rw [selected, selected', ← same, ← same', found']

lemma Produces.unambiguous
    (produces : Produces env height packCount orders txs packed b new b') (ready : Ready txs b)
    (clear : AtTurn env height packCount (fun order v s =>
      ¬LeavesTrace env order height v s.view) orders txs packed b.preview) (mirrors : Mirrors b w)
    (agrees : ∀ orders', ∃ w', packTxs env height orders' new w = .ok (.ok (), w') ∧
      w'.preview.view = b'.preview.view) :
    AtTurn env height packCount (fun order v s => Unambiguous env order height v s.view)
      orders txs packed b.preview := by
  induction produces generalizing w with
  | done => trivial
  | skip refused later ih =>
    simp only [AtTurn, refused] at clear ⊢
    refine ⟨?_, ih ⟨ready.tail.distinct, ready.tail.pooled, ready.tail.unknown⟩ clear.2
      (mirrors.skip refused clear.1) agrees⟩
    -- a transaction that is refused creates no database, unless it finds no miners at all
    intro index' ledger order' create wrapped
    rcases ledger.createDatabase_applies mirrors.preview.leftClean wrapped with
      unmatched | ⟨after, ran⟩
    · rw [unmatched, selectMiners_none unmatched order']
    · simp [refused] at ran
  | full applied last =>
    simp only [AtTurn, applied, last, true_or, and_true]
    intro index' ledger order'
    rw [mirrors.preview.view]
    exact sameMiners_of_packTxs agrees _ order'
  | pack applied more later ih =>
    rename_i orders v rest packed b new b' preview
    simp only [AtTurn, applied, more, false_or] at clear ⊢
    have chosen : ∀ order', SameMiners (orders 0) order' v
        ⟨newDirtyIndex, b.preview.view⟩ ⟨newDirtyIndex, b.preview.view⟩ := by
      rw [mirrors.preview.view]
      exact sameMiners_of_packTxs agrees (orders 0)
    have unambiguous : Unambiguous env (orders 0) height v b.preview.view :=
      fun _ _ => chosen
    refine ⟨unambiguous, ?_⟩
    obtain ⟨preview', first, kept⟩ := mirrors.pack ready applied
      (unambiguous.sameMiners mirrors applied (orders 0))
    refine ih (ready.pack preview) clear.2 kept ?_
    intro orders'
    obtain ⟨w', ran, same⟩ := agrees (Orders.cons (orders 0) orders')
    obtain ⟨between, first', rest'⟩ := packTxs_cons.mp ran
    rw [Orders.drop_cons] at rest'
    have first'' : packTx env (orders 0) height v w = .ok (.ok (), between) := first'
    rw [first, Except.ok.injEq, Prod.mk.injEq] at first''
    rw [← first''.2] at rest'
    exact ⟨w', rest', same⟩

lemma Produces.length_le (produces : Produces env height packCount orders txs packed b new b')
    (room : packed < packCount) : packed + new.length ≤ packCount := by
  induction produces with
  | done =>
    rw [length_nil]
    omega
  | skip refused later ih => exact ih room
  | full =>
    rw [length_singleton]
    omega
  | pack applied more later ih =>
    have bounded := ih (by omega)
    rw [length_cons]
    omega

def Branch.packCount (txs : List Transaction) : Nat := min maxTransactionsPerBlock txs.length

lemma produceBlock_produces
    (produced : b.produceBlock env orders txs height ts addr signer = .ok (.ok (br, bl), b')) :
    ∃ cpy, Produces env height (Branch.packCount txs) orders txs 0 b.makeArena bl.transactions cpy ∧
      br = { cpy with head := newBlockNode height bl (some b.head) } ∧
      bl.header.parentHash = b.head.hash ∧ bl.transactions.length ≤ maxTransactionsPerBlock := by
  obtain ⟨cpy, packed, rfl, -, -, linked, -⟩ := Branch.produceBlock_eq_ok produced
  obtain ⟨new, same, produces⟩ := packUnpacked_produces packed
  rw [nil_append] at same
  refine ⟨cpy, by rw [same]; exact produces, rfl, linked, ?_⟩
  rw [same]
  rcases txs with _ | ⟨v, rest⟩
  · cases produces
    exact Nat.zero_le _
  · have room : 0 < Branch.packCount (v :: rest) := by
      simp [Branch.packCount, maxTransactionsPerBlock]
    have bounded := produces.length_le room
    have limit : Branch.packCount (v :: rest) ≤ maxTransactionsPerBlock := Nat.min_le_left _ _
    omega

lemma applyBlock_produced (parent : bl.header.parentHash = b.head.hash)
    (small : bl.transactions.length ≤ maxTransactionsPerBlock) :
    b.applyBlock env orders (newBlockNode height bl (some b.head)) = .ok (.ok br, b') ↔
      ∃ w, packTxs env height orders bl.transactions b.makeArena = .ok (.ok (), w) ∧
        br = { w with head := newBlockNode height bl (some b.head) } ∧ b' = b.shareReadonly w := by
  have link : b.head.hash = (newBlockNode height bl (some b.head)).load.parentHash := parent.symm
  have fits : (newBlockNode height bl (some b.head)).txCount ≤ maxTransactionsPerBlock := small
  rw [Branch.applyBlock_eq_ok]
  constructor
  · rintro ⟨-, -, validated⟩
    exact validated
  · exact fun validated => ⟨link, fits, validated⟩

/-- The transaction is no base account that its nonce lets through. -/
def Unfounded (env : Env) (tx : Transaction) (index : MetaIndex) : Prop :=
  tx.isBaseAccount = true → ¬ExpectedNonce env tx index

lemma Unfounded.apply_base {result} (unfounded : Unfounded env tx s.view) (clean : s.NoNil)
    (ran : apply env order tx height s = .ok (result, s')) :
    s'.NoNil ∧ s'.readonly = s.readonly := by
  cases kind : tx.isBaseAccount with
  | false => exact BlockProducer.apply_base kind clean ran
  | true =>
    have same : s' = s := by
      rcases result with error | value
      · exact apply_unexpected (unfounded kind) ran
      · obtain ⟨-, -, expected, -⟩ := (apply_applied ran).inv
        exact absurd expected (unfounded kind)
    rw [same]
    exact ⟨clean, rfl⟩

lemma Produces.base (produces : Produces env height packCount orders txs packed b new b')
    (unfounded : AtTurn env height packCount (fun _ v s => Unfounded env v s.view) orders txs
      packed b.preview) (clean : b.preview.NoNil) :
    b'.preview.readonly = b.preview.readonly := by
  induction produces with
  | done => rfl
  | skip refused later ih =>
    simp only [AtTurn, refused] at unfounded
    obtain ⟨clean', kept⟩ := unfounded.1.apply_base clean refused
    exact (ih unfounded.2 clean').trans kept
  | full applied => exact (unfounded.1.apply_base clean applied).2
  | pack applied more later ih =>
    simp only [AtTurn, applied, more, false_or] at unfounded
    obtain ⟨clean', kept⟩ := unfounded.1.apply_base clean applied
    exact (ih unfounded.2 clean').trans kept

lemma atTurn_unfounded (plain : ∀ tx ∈ txs, tx.isBaseAccount = false) :
    AtTurn env height packCount (fun _ v s => Unfounded env v s.view) orders txs packed s := by
  induction txs generalizing orders packed s with
  | nil => trivial
  | cons v rest ih =>
    rw [forall_mem_cons] at plain
    refine ⟨fun founded => absurd founded (by simp [plain.1]), ?_⟩
    split
    · trivial
    · exact ih plain.2
    · exact .inr (ih plain.2)

lemma produceBlock_origin {v origin : Branch}
    (unfounded : AtTurn env h (Branch.packCount txs) (fun _ v s => Unfounded env v s.view) orders
      txs 0 v.makeArena.preview)
    (ran : v.produceBlock env orders txs h ts addr signer = .ok (result, origin)) : origin = v := by
  simp only [Branch.produceBlock] at ran
  split at ran
  · simp at ran
  · rename_i out cpy packing
    obtain ⟨_, -, produced⟩ := packUnpacked_produces packing
    have base := produced.base unfounded (noNil_clean v.preview.readonly)
    have kept : v.shareReadonly cpy = v := by
      rw [Branch.shareReadonly, base]
      rfl
    split at ran
    · simp at ran
    · cases ran
      rw [kept]
    · cases ran
      rw [kept]

/-- Every validator accepts the block and ends in the producer's view and pools. -/
def Branch.Validated (env : Env) (height : Nat) (b br : Branch) (bl : BPBlock) : Prop :=
  ∀ orders, ∃ br' b',
    b.applyBlock env orders (newBlockNode height bl (some b.head)) = .ok (.ok br', b') ∧
      br'.preview.view = br.preview.view ∧ br'.packed = br.packed ∧ br'.unpacked = br.unpacked

lemma Ready.of_sorted (sorted : b.SortedUnpacked env txs)
    (separate : ∀ hash, b.unpacked.contains hash = true → b.packed.contains hash = false) :
    Ready txs b.makeArena := by
  have pooled : ∀ v ∈ txs, b.unpacked.get v.hash = some v := fun v => (sorted.mem v).mp
  refine ⟨?_, ?_, ?_⟩
  · refine sorted.nodup.imp_of_mem ?_
    intro left right leftMember rightMember differs same
    have found := pooled left leftMember
    rw [same, pooled right rightMember, Option.some.injEq] at found
    exact differs found.symm
  · exact fun v member => TxPool.contains_eq_true.mpr ⟨v, pooled v member⟩
  · exact fun v member => separate v.hash (TxPool.contains_eq_true.mpr ⟨v, pooled v member⟩)

/-- Producer and validators agree and refused transactions leave the view as it was, exactly if no
transaction leaves a trace and no new database depends on the order of the providers. -/
lemma produceBlock_agrees_iff (sorted : b.SortedUnpacked env txs)
    (separate : ∀ hash, b.unpacked.contains hash = true → b.packed.contains hash = false)
    (produced : b.produceBlock env orders txs height ts addr signer = .ok (.ok (br, bl), b')) :
    (b.Validated env height br bl ∧
      AtTurn env height (Branch.packCount txs) (fun order v s => ∀ error after,
        apply env order v height s = .ok (.error error, after) → after.view = s.view)
        orders txs 0 b.makeArena.preview) ↔
    AtTurn env height (Branch.packCount txs) (fun order v s =>
      ¬LeavesTrace env order height v s.view ∧ Unambiguous env order height v s.view)
      orders txs 0 b.makeArena.preview := by
  obtain ⟨cpy, produces, rfl, parent, small⟩ := produceBlock_produces produced
  have ready := Ready.of_sorted sorted separate
  have clean : b.makeArena.preview.NoNil := noNil_clean b.preview.readonly
  have mirrors : Mirrors b.makeArena b.makeArena := ⟨⟨rfl, clean, clean⟩, rfl, rfl⟩
  rw [produces.atTurn_congr clean fun order v s result s' kept ran => apply_untraced kept ran]
  constructor
  · rintro ⟨validated, clear⟩
    refine AtTurn.and.mpr ⟨clear, produces.unambiguous ready clear mirrors ?_⟩
    intro orders'
    obtain ⟨br', b', accepted, same, -⟩ := validated orders'
    obtain ⟨w, ran, rfl, -⟩ := (applyBlock_produced parent small).mp accepted
    exact ⟨w, ran, same⟩
  · intro calm
    refine ⟨?_, (AtTurn.and.mp calm).1⟩
    intro orders'
    obtain ⟨w, ran, final⟩ := produces.validated ready calm orders' mirrors
    exact ⟨_, _, (applyBlock_produced parent small).mpr ⟨w, ran, rfl, rfl⟩,
      final.preview.view.symm, final.packed, final.unpacked⟩

lemma unambiguous_of_unwrap (other : ∀ create, tx.unwrap ≠ .createDatabase create) :
    Unambiguous env order height tx index :=
  fun _ _ _ create wrapped => absurd wrapped (other create)

lemma sortedUnpacked_of_keys (nodup : txs.Nodup)
    (pooled : ∀ tx ∈ txs, b.unpacked.get tx.hash = some tx)
    (listed : b.unpacked.txs.keys ⊆ (txs.map Transaction.hash).toFinset)
    (sorted : txs.Pairwise fun left right => Branch.txBefore env right left = false) :
    b.SortedUnpacked env txs := by
  refine ⟨nodup, fun tx => ⟨pooled tx, ?_⟩, sorted⟩
  intro found
  obtain ⟨other, member, same⟩ :=
    mem_map.mp (mem_toFinset.mp (listed (FiniteMap.mem_keys_of_get found)))
  have read := pooled other member
  rw [same, found, Option.some.injEq] at read
  rwa [read]

end

namespace Sample

noncomputable def submit (tx : Transaction) (c : Chain) : Chain :=
  Program.after (Chain.processAddTxReq env true tx) c

noncomputable def busy : Branch :=
  (submit (pay 1 2 7 20) (submit (pay 1 2 1 10) funded)).headBranch

end Sample

namespace Sample

noncomputable def indebted : Branch := (submit (pay 1 2 1 1000) funded).headBranch

noncomputable def haunted : Branch := indebted.addTx (pay 2 3 0 0)

end Sample

end SQLess.BlockProducer
