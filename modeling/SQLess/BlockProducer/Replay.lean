import SQLess.BlockProducer.Branch
import SQLess.BlockProducer.ChainCore
import SQLess.BlockProducer.MetaState

/-! Replaying transactions on a state. -/

namespace SQLess.BlockProducer

open Lib List MetaState Program

variable {env : Env} {orders : Orders} {base : MetaIndex} {s s' : MetaState}

variable {tx : Transaction} {rest : List (Transaction × Nat)} {middle : MetaIndex} {b b' : Branch}

variable {height : Nat} {first second txs : List (Transaction × Nat)} {order : MinerOrder}
  {result : MetaIndex}

lemma SameView.refl (clean : s.NoNil) : SameView s.readonly s.readonly s s :=
  ⟨rfl, clean, clean, rfl, rfl⟩

lemma SameView.fresh (clean : s.NoNil) (view : s.view = base) :
    SameView s.readonly base s ⟨newDirtyIndex, base⟩ :=
  ⟨by rw [view, view_clean], clean, noNil_clean base, rfl, rfl⟩

lemma apply_base {result} (plain : tx.isBaseAccount = false) (clean : s.NoNil)
    (ran : apply env order tx height s = .ok (result, s')) :
    s'.NoNil ∧ s'.readonly = s.readonly := by
  have agreed := apply_similar env height plain (SameView.refl clean) (.inl (Eq.refl order))
  rw [ran] at agreed
  exact ⟨agreed.2.leftClean, agreed.2.leftBase⟩

lemma apply_not_fatal (plain : tx.isBaseAccount = false) (clean : s.NoNil) :
    apply env order tx height s ≠ .error .fatal := by
  intro ran
  have agreed := apply_similar env height plain (SameView.refl clean) (.inl (Eq.refl order))
  rw [ran] at agreed
  exact agreed

lemma Orders.drop_zero (orders : Orders) : orders.drop 0 = orders := rfl

lemma Orders.drop_drop (orders : Orders) (n m) : (orders.drop n).drop m = orders.drop (n + m) := by
  funext index
  simp only [Orders.drop]
  congr 1
  omega

def Orders.shift (orders : Orders) (n : Nat) : Orders := fun index => orders (index - n)

lemma Orders.shift_drop (orders : Orders) (n) : (orders.shift n).drop n = orders := by
  funext index
  simp [Orders.shift, Orders.drop]

lemma applyIrreversible_cons : applyIrreversible env orders ((tx, height) :: rest) s = .ok s' ↔
      ∃ between, apply env (orders 0) tx height s = .ok (.ok (), between) ∧
        applyIrreversible env (orders.drop 1) rest between = .ok s' := by
  simp only [applyIrreversible]
  rcases apply env (orders 0) tx height s with reason | ⟨error | value, between⟩ <;> simp

lemma applyIrreversible_append : applyIrreversible env orders (first ++ second) s = .ok s' ↔
      ∃ between, applyIrreversible env orders first s = .ok between ∧
        applyIrreversible env (orders.drop first.length) second between = .ok s' := by
  induction first generalizing orders s with
  | nil => simp [applyIrreversible, Orders.drop_zero]
  | cons entry rest ih =>
    obtain ⟨tx, height⟩ := entry
    simp only [cons_append, applyIrreversible_cons, ih, Orders.drop_drop,
      length_cons, Nat.add_comm 1]
    constructor
    · rintro ⟨between, applied, middle, ran, later⟩
      exact ⟨middle, ⟨between, applied, ran⟩, later⟩
    · rintro ⟨middle, ⟨between, applied, ran⟩, later⟩
      exact ⟨between, applied, middle, ran, later⟩

def Plain (txs : List (Transaction × Nat)) : Prop := ∀ entry ∈ txs, entry.1.isBaseAccount = false

lemma Plain.head (plain : Plain ((tx, height) :: rest)) : tx.isBaseAccount = false :=
  plain (tx, height) mem_cons_self

lemma Plain.tail (plain : Plain (entry :: rest)) : Plain rest :=
  fun later member => plain later (mem_cons_of_mem _ member)

lemma Plain.left (plain : Plain (first ++ second)) : Plain first :=
  fun entry member => plain entry (mem_append_left _ member)

lemma Plain.right (plain : Plain (first ++ second)) : Plain second :=
  fun entry member => plain entry (mem_append_right _ member)

lemma applyIrreversible_similar (plain : Plain txs) (same : SameView left right s t)
    (ordered : orders = orders' ∨ ∀ part s', part <+: txs → applyIrreversible env orders part s =
      .ok s' → s'.view.DistinctNodeIDs) (ran : applyIrreversible env orders txs s = .ok s') :
    ∃ t', applyIrreversible env orders' txs t = .ok t' ∧ SameView left right s' t' := by
  induction txs generalizing orders orders' s t with
  | nil =>
    simp only [applyIrreversible, Except.ok.injEq] at ran
    exact ⟨t, rfl, ran ▸ same⟩
  | cons entry rest ih =>
    obtain ⟨tx, height⟩ := entry
    obtain ⟨between, applied, later⟩ := applyIrreversible_cons.mp ran
    have now : orders 0 = orders' 0 ∨ s.view.DistinctNodeIDs := by
      rcases ordered with rfl | distinct
      · exact .inl rfl
      · exact .inr (distinct [] s nil_prefix rfl)
    have agreed := apply_similar env height plain.head same now
    rw [applied] at agreed
    rcases applied' : apply env (orders' 0) tx height t with reason | ⟨result, between'⟩
    · rw [applied'] at agreed
      exact agreed.elim
    · rw [applied'] at agreed
      obtain ⟨rfl, related⟩ := agreed
      have further : orders.drop 1 = orders'.drop 1 ∨ ∀ part s', part <+: rest →
          applyIrreversible env (orders.drop 1) part between = .ok s' →
            s'.view.DistinctNodeIDs := by
        rcases ordered with rfl | distinct
        · exact .inl rfl
        · refine .inr fun part s' leading partRan => ?_
          exact distinct ((tx, height) :: part) s' (cons_prefix_cons.mpr ⟨rfl, leading⟩)
            (applyIrreversible_cons.mpr ⟨between, applied, partRan⟩)
      obtain ⟨t', ran', final⟩ := ih plain.tail related further later
      exact ⟨t', applyIrreversible_cons.mpr ⟨between', applied', ran'⟩, final⟩

lemma applyIrreversible_base (plain : Plain txs)
    (clean : s.NoNil) (ran : applyIrreversible env orders txs s = .ok s') :
    s'.NoNil ∧ s'.readonly = s.readonly := by
  obtain ⟨t', ran', same⟩ :=
    applyIrreversible_similar plain (SameView.refl clean) (.inl (Eq.refl orders)) ran
  exact ⟨same.leftClean, same.leftBase⟩

def Replays (env : Env) (base : MetaIndex) (txs : List (Transaction × Nat))
    (result : MetaIndex) : Prop :=
  ∀ orders, ∃ s, applyIrreversible env orders txs ⟨newDirtyIndex, base⟩ = .ok s ∧ s.view = result

def DistinctAlong (env : Env) (base : MetaIndex) (txs : List (Transaction × Nat)) : Prop :=
  ∀ orders part s, part <+: txs →
    applyIrreversible env orders part ⟨newDirtyIndex, base⟩ = .ok s → s.view.DistinctNodeIDs

lemma DistinctAlong.left
    (distinct : DistinctAlong env base (first ++ second)) : DistinctAlong env base first := by
  intro orders part s leading ran
  exact distinct orders part s (leading.trans (prefix_append first second)) ran

lemma Replays.nil (env base) : Replays env base [] base :=
  fun _ => ⟨_, rfl, view_clean base⟩

lemma replays_of_run (plain : Plain txs)
    (distinct : DistinctAlong env base txs) (clean : s.NoNil) (view : s.view = base)
    (ran : applyIrreversible env orders txs s = .ok s') : Replays env base txs s'.view := by
  intro orders'
  have same := SameView.fresh clean view
  have ordered : orders = orders' ∨ ∀ part s', part <+: txs →
      applyIrreversible env orders part s = .ok s' → s'.view.DistinctNodeIDs := by
    refine .inr fun part s' leading partRan => ?_
    have plainPart : Plain part := fun entry member => plain entry (leading.subset member)
    obtain ⟨t, freshRan, related⟩ :=
      applyIrreversible_similar plainPart same (.inl (Eq.refl orders)) partRan
    rw [related.view]
    exact distinct orders part t leading freshRan
  obtain ⟨t, freshRan, related⟩ := applyIrreversible_similar plain same ordered ran
  exact ⟨t, freshRan, related.view.symm⟩

lemma Replays.run (replays : Replays env base txs result) (plain : Plain txs) (clean : s.NoNil)
    (view : s.view = base) (orders) :
    ∃ s', applyIrreversible env orders txs s = .ok s' ∧ s'.view = result ∧ s'.NoNil ∧
      s'.readonly = s.readonly := by
  obtain ⟨t, freshRan, viewed⟩ := replays orders
  have same : SameView base s.readonly ⟨newDirtyIndex, base⟩ s :=
    ⟨by rw [view, view_clean], noNil_clean base, clean, rfl, rfl⟩
  obtain ⟨s', ran, related⟩ :=
    applyIrreversible_similar plain same (.inl (Eq.refl orders)) freshRan
  exact ⟨s', ran, by rw [← related.view, viewed], related.rightClean, related.rightBase⟩

lemma Replays.append
    (before : Replays env base first middle) (after : Replays env middle second result)
    (plain : Plain (first ++ second)) : Replays env base (first ++ second) result := by
  intro orders
  obtain ⟨between, ran, viewed, clean, -⟩ :=
    before.run plain.left (noNil_clean base) (view_clean base) orders
  obtain ⟨s', later, final, -, -⟩ :=
    after.run plain.right clean viewed (orders.drop first.length)
  exact ⟨s', applyIrreversible_append.mpr ⟨between, ran, later⟩, final⟩

lemma Replays.after
    (whole : Replays env base (first ++ second) result) (before : Replays env base first middle)
    (plain : Plain (first ++ second)) : Replays env middle second result := by
  intro orders
  obtain ⟨s', ran, viewed⟩ := whole (orders.shift first.length)
  obtain ⟨between, started, later⟩ := applyIrreversible_append.mp ran
  obtain ⟨between', started', viewed'⟩ := before (orders.shift first.length)
  obtain rfl : between = between' := Except.ok.inj (started.symm.trans started')
  have clean := (applyIrreversible_base plain.left (noNil_clean base) started).1
  rw [Orders.shift_drop] at later
  obtain ⟨t, freshRan, related⟩ := applyIrreversible_similar plain.right
    (SameView.fresh clean viewed') (.inl (Eq.refl orders)) later
  exact ⟨t, freshRan, by rw [← related.view, viewed]⟩

lemma Replays.before
    (whole : Replays env base (first ++ second) result) (plain : Plain (first ++ second))
    (distinct : DistinctAlong env base (first ++ second)) (orders : Orders) :
    ∃ middle, Replays env base first middle := by
  obtain ⟨s', ran, -⟩ := whole orders
  obtain ⟨between, started, -⟩ := applyIrreversible_append.mp ran
  exact ⟨between.view, replays_of_run plain.left distinct.left (noNil_clean base)
    (view_clean base) started⟩

lemma DistinctAlong.after
    (distinct : DistinctAlong env base (first ++ second)) (before : Replays env base first middle)
    (plain : Plain (first ++ second)) : DistinctAlong env middle second := by
  intro orders part s leading ran
  obtain ⟨between, started, viewed, clean, -⟩ := before.run plain.left
    (noNil_clean base) (view_clean base) (orders.shift first.length)
  have plainPart : Plain part :=
    fun entry member => plain.right entry (leading.subset member)
  have same : SameView middle between.readonly ⟨newDirtyIndex, middle⟩ between :=
    ⟨by rw [viewed, view_clean], noNil_clean middle, clean, rfl, rfl⟩
  obtain ⟨s', ran', related⟩ :=
    applyIrreversible_similar plainPart same (.inl (Eq.refl orders)) ran
  rw [related.view]
  refine distinct _ (first ++ part) s' ((prefix_append_right_inj first).mpr leading)
    (applyIrreversible_append.mpr ⟨between, started, ?_⟩)
  rw [Orders.shift_drop]
  exact ran'

lemma packTxs_replay {txs} (ran : packTxs env height orders txs b = .ok (.ok (), b')) :
    applyIrreversible env orders (txs.map fun tx => (tx, height)) b.preview = .ok b'.preview := by
  induction txs generalizing orders b with
  | nil =>
    rw [packTxs_nil.mp ran]
    rfl
  | cons v rest ih =>
    obtain ⟨between, first, later⟩ := packTxs_cons.mp ran
    obtain ⟨-, -, preview, applied, rfl⟩ := packTx_eq_ok.mp first
    have replayed := ih later
    exact applyIrreversible_cons.mpr ⟨preview, applied, replayed⟩

lemma packBlocks_replay (ran : packBlocks env orders nodes b = .ok (.ok (), b')) :
    applyIrreversible env orders (nodes.flatMap BlockNode.txs) b.preview = .ok b'.preview := by
  induction nodes generalizing orders b with
  | nil =>
    rw [packBlocks_nil.mp ran]
    rfl
  | cons n rest ih =>
    obtain ⟨-, between, first, later⟩ := packBlocks_cons.mp ran
    rw [flatMap_cons, applyIrreversible_append]
    refine ⟨between.preview, packTxs_replay first, ?_⟩
    have replayed := ih later
    simpa [BlockNode.txs, BlockNode.txCount] using replayed

lemma packTx_cases (env order height v b) :
    (∃ error b', packTx env order height v b = .ok (.error error, b') ∧ b'.preview = b.preview) ∨
      packTx env order height v b = onPreview (apply env order v height)
        ⟨b.head, b.preview, b.packed.add v, b.unpacked.delete v.hash⟩ := by
  simp only [packTx, get_bind_run]
  by_cases pooled : b.unpacked.contains v.hash = true
  · simp only [pooled, if_true, modify_bind_run, get_bind_run]
    split
    · exact .inl ⟨_, _, rfl, rfl⟩
    · exact .inr rfl
  · rw [TxPool.delete_of_not_contains (Bool.eq_false_iff.mpr pooled)]
    simp only [pooled, Bool.false_eq_true, if_false]
    cases v.verify env with
    | error error => exact .inl ⟨error, b, rfl, rfl⟩
    | ok =>
      simp only [bind_run, orFail_ok_run, get_run]
      split
      · exact .inl ⟨_, _, rfl, rfl⟩
      · exact .inr rfl

lemma packTx_base {v result} (plain : v.isBaseAccount = false) (clean : b.preview.NoNil)
    (ran : packTx env order height v b = .ok (result, b')) :
    b'.preview.NoNil ∧ b'.preview.readonly = b.preview.readonly := by
  rcases packTx_cases env order height v b with ⟨error, failed, ran', same⟩ | applying
  · rw [ran, Except.ok.injEq, Prod.mk.injEq] at ran'
    rw [ran'.2, same]
    exact ⟨clean, rfl⟩
  · rw [applying, onPreview] at ran
    split at ran
    · simp at ran
    · rename_i applied preview finished
      cases ran
      exact apply_base plain clean finished

lemma packTx_not_fatal (plain : v.isBaseAccount = false) (clean : b.preview.NoNil) :
    packTx env order height v b ≠ .error .fatal := by
  intro ran
  rcases packTx_cases env order height v b with ⟨error, failed, ran', -⟩ | applying
  · simp [ran] at ran'
  · rw [applying, onPreview] at ran
    split at ran
    · rename_i reason halted
      rw [Except.error.inj ran] at halted
      exact apply_not_fatal plain clean halted
    · simp at ran

lemma packTxs_base {txs result} (plain : ∀ tx ∈ txs, tx.isBaseAccount = false)
    (clean : b.preview.NoNil) (ran : packTxs env height orders txs b = .ok (result, b')) :
    b'.preview.readonly = b.preview.readonly := by
  induction txs generalizing orders b with
  | nil =>
    simp only [packTxs, pure_run, Except.ok.injEq, Prod.mk.injEq] at ran
    rw [ran.2]
  | cons v rest ih =>
    rw [packTxs, bind_run] at ran
    rcases first : packTx env (orders 0) height v b with reason | ⟨error | value, between⟩
    · simp [first] at ran
    · simp only [first] at ran
      cases ran
      exact (packTx_base (plain v mem_cons_self) clean first).2
    · simp only [first] at ran
      have packed := packTx_base (plain v mem_cons_self) clean first
      have later := ih (fun tx member => plain tx (mem_cons_of_mem _ member)) packed.1 ran
      rw [later, packed.2]

lemma packTxs_not_fatal {txs} (plain : ∀ tx ∈ txs, tx.isBaseAccount = false)
    (clean : b.preview.NoNil) : packTxs env height orders txs b ≠ .error .fatal := by
  induction txs generalizing orders b with
  | nil => simp [packTxs]
  | cons v rest ih =>
    intro ran
    rw [packTxs, bind_run] at ran
    rcases first : packTx env (orders 0) height v b with reason | ⟨error | value, between⟩
    · simp only [first, Except.error.injEq] at ran
      rw [ran] at first
      exact packTx_not_fatal (plain v mem_cons_self) clean first
    · simp [first] at ran
    · simp only [first] at ran
      exact ih (fun tx member => plain tx (mem_cons_of_mem _ member))
        (packTx_base (plain v mem_cons_self) clean first).1 ran

lemma packBlocks_not_fatal (plain : Plain (nodes.flatMap BlockNode.txs))
    (clean : b.preview.NoNil) : packBlocks env orders nodes b ≠ .error .fatal := by
  induction nodes generalizing orders b with
  | nil => simp [packBlocks]
  | cons n rest ih =>
    rw [flatMap_cons] at plain
    have here : ∀ tx ∈ n.load.transactions, tx.isBaseAccount = false := by
      intro tx member
      exact plain.left (tx, n.height) (mem_map_of_mem member)
    intro ran
    simp only [packBlocks] at ran
    split at ran
    · simp at ran
    · rw [bind_run] at ran
      rcases first : packTxs env n.height orders n.load.transactions b with
        reason | ⟨error | value, between⟩
      · simp only [first, Except.error.injEq] at ran
        rw [ran] at first
        exact packTxs_not_fatal here clean first
      · simp [first] at ran
      · simp only [first] at ran
        have kept := applyIrreversible_base plain.left clean (packTxs_replay first)
        exact ih plain.right kept.1 ran

end SQLess.BlockProducer
