import SQLess.BlockProducer.Production
import SQLess.BlockProducer.Refinement

/-! What transactions leave behind that are refused, or applied and not committed. -/

namespace SQLess.BlockProducer

open Lib Program

variable {o o' : State}

inductive MetaState.Reached (env : Env) : MetaState → Prop
  | load (readonly : MetaIndex) : Reached env ⟨newDirtyIndex, readonly⟩
  | apply {s s' order tx height result} (reached : Reached env s)
      (ran : BlockProducer.apply env order tx height s = .ok (result, s')) : Reached env s'
  | commit {s} (reached : Reached env s) : Reached env s.commit
  | clean {s} (reached : Reached env s) : Reached env s.clean
  | makeCopy {s} (reached : Reached env s) : Reached env s.makeCopy

lemma MetaState.Reached.noNil {env : Env} {s : MetaState} (reached : s.Reached env) : s.NoNil := by
  induction reached with
  | load readonly => exact noNil_clean readonly
  | apply _ ran clean => exact apply_noNil clean ran
  | commit => exact noNil_clean _
  | clean => exact noNil_clean _
  | makeCopy => exact noNil_clean _

/-- A refused transaction changes nothing, unless it is refused after a write. -/
theorem refused_keeps_view {env : Env} {order : MinerOrder} {tx : Transaction} {height : Nat}
    {s s' : MetaState} {error : Err} (clean : s.NoNil)
    (ran : apply env order tx height s = .ok (.error error, s')) :
    s'.view = s.view ↔ ¬LeavesTrace env order height tx s.view := by
  rw [← apply_refused clean ran, Classical.not_not]

namespace Sample

def purse : MetaState :=
  ⟨newDirtyIndex, ⟨((∅ : FiniteMap AccountAddress Account).insert 1 ⟨1, ⟨100, 0⟩, 1⟩).insert 3
    (Account.new 3), ∅, ∅⟩⟩

end Sample

open Sample in
/-- A payment that account 1 cannot afford, to an account that exists. -/
theorem refused_keeps_view_purse :
    ∃ s, apply Sample.env (choice.branchOrders 0) (pay 1 3 1 1000) 10 purse =
        .ok (.error .insufficientBalance, s) ∧ s.view = purse.view := by
  have ran : apply Sample.env (choice.branchOrders 0) (pay 1 3 1 1000) 10 purse =
      .ok (.error .insufficientBalance, _) := rfl
  refine ⟨_, ran, (refused_keeps_view (MetaState.noNil_clean _) ran).mpr ?_⟩
  rintro ⟨-, spoils | orphaned⟩
  · cases spoils with
    | transfer _ _ _ _ newcomer =>
      rw [MetaState.view_clean] at newcomer
      exact absurd newcomer (by decide)
  · cases orphaned

open Sample in
/-- The same payment to an account that does not exist: the call leaves the account. -/
theorem refused_leaves_account : purse.Reached Sample.env ∧
      ∃ s, apply Sample.env (choice.branchOrders 0) (pay 1 2 1 1000) 10 purse =
          .ok (.error .insufficientBalance, s) ∧
        purse.view.accounts.get 2 = none ∧ s.view.accounts.get 2 = some (Account.new 2) :=
  ⟨.load _, _, rfl, by decide, by decide⟩

namespace Objects

variable {env : Env}

def AllPlain (env : Env) : List Call → State → Prop
  | [], _ => True
  | call :: rest, o =>
    Plain env o call.tx ∧
      ∀ result o', apply env call.order call.tx call.height o = .ok (result, o') →
        AllPlain env rest o'

lemma applyAll_frame (separate : Separate o) (plain : AllPlain env calls o)
    (ran : applyAll env calls o = .ok o') : Separate o' ∧ Frame o o' := by
  induction calls generalizing o with
  | nil =>
    cases ran
    exact ⟨separate, .refl _⟩
  | cons call rest ih =>
    rw [applyAll] at ran
    rcases applied : apply env call.order call.tx call.height o with reason | ⟨result, between⟩
    · simp [applied] at ran
    · rw [applied] at ran
      have step := apply_implemented separate plain.1 call.order call.height
      obtain ⟨-, good⟩ := step.eq_ok applied
      obtain ⟨after, frame⟩ := ih good.separate (plain.2 result between applied) ran
      exact ⟨after, good.frame.trans frame⟩

lemma Separate.of_clean (allocated : Allocated o.toLayers o.mem)
    (clean : o.dirty = newDirtyObjects) : Separate o := by
  refine ⟨allocated, ?_, ?_, ?_⟩ <;> simp [clean, newDirtyObjects]

lemma Apart.of_clean (clean : o.dirty = newDirtyObjects) (l) : Apart o l := by
  simp [Apart, clean, newDirtyObjects]

lemma Allocated.clean (allocated : Allocated o.toLayers o.mem) :
    Allocated o.clean.toLayers o.mem := by
  refine ⟨fun i has => ?_, fun r has => ?_, fun r has => ?_⟩
  · exact allocated.accounts i (.inr (has.resolve_left (by simp [State.clean, newDirtyObjects])))
  · exact allocated.databases r (.inr (has.resolve_left (by simp [State.clean, newDirtyObjects])))
  · exact allocated.providers r (.inr (has.resolve_left (by simp [State.clean, newDirtyObjects])))

lemma Frame.clean (separate : Separate o) (frame : Frame o o') :
    o'.clean.values = o.clean.values := by
  have layers : o'.clean.toLayers = o.clean.toLayers := by
    simp [State.clean, frame.readonly]
  rw [State.values, layers]
  refine frame.values separate.allocated.clean ?_
  rintro k i found (⟨k', has⟩ | ⟨k', has⟩)
  · simp [State.clean, newDirtyObjects] at has
  · exact separate.apart k k' _ found has

lemma Separate.transport (separate : Separate ⟨l, o.mem⟩) (frame : Frame o o') :
    Separate ⟨l, o'.mem⟩ :=
  ⟨frame.allocated separate.allocated, separate.objects, separate.distinct, separate.apart⟩

lemma Frame.apart (frame : Frame o o') (allocated : Allocated l o.mem)
    (apart : Apart ⟨l, o.mem⟩ o.toLayers) : Apart ⟨l, o'.mem⟩ o'.toLayers := by
  rintro k i found (⟨k', has⟩ | ⟨k', has⟩)
  · obtain ⟨own, before⟩ := frame.owned k' i has (allocated.accounts i (.inl ⟨k, found⟩))
    exact apart k i found (.inl ⟨own, before⟩)
  · rw [frame.readonly] at has
    exact apart k i found (.inr ⟨k', has⟩)

/-- Without a base account that its nonce lets through, and with account objects that the dirty
layer alone points to, a sequence of calls changes no other state, and a transaction gives equal
states from equal ones. -/
theorem uncommitted_isolated {o : State} (separate : Separate o) :
    (∀ calls o', AllPlain env calls o → applyAll env calls o = .ok o' →
      o'.readonly = o.readonly ∧ o'.mem.txs = o.mem.txs ∧ o'.clean.values = o.clean.values ∧
      (o.dirty = newDirtyObjects → o'.clean.values.view = o.values.view) ∧
      ∀ l, Allocated l o.mem → Apart o l → l.values o'.mem = l.values o.mem) ∧
    ∀ order t height result o₁ l, Plain env o t →
      apply env order t height o = .ok (result, o₁) →
      l.values o.mem = o.values → Separate ⟨l, o.mem⟩ → Apart o l → Apart ⟨l, o.mem⟩ o.toLayers →
      ∃ o₂, apply env order t height ⟨l, o₁.mem⟩ = .ok (result, o₂) ∧
        o₂.values = o₁.values ∧ o₁.toLayers.values o₂.mem = o₁.values ∧
        o₂.mem.txs = o.mem.txs := by
  constructor
  · intro calls o' plain ran
    obtain ⟨-, frame⟩ := applyAll_frame separate plain ran
    have same := frame.clean separate
    refine ⟨frame.readonly, frame.txs, same, ?_, fun l => frame.values⟩
    intro clean
    have unchanged : o.clean = o := by rw [State.clean, ← clean]
    rw [same, unchanged]
  · intro order t height result o₁ l plain ran equal separate' apart apart'
    obtain ⟨ran', good⟩ := (apply_implemented separate plain order height).eq_ok ran
    have shown : l.values o₁.mem = o.values :=
      (good.frame.values separate'.allocated apart).trans equal
    have plain' : Plain env ⟨l, o₁.mem⟩ t := by
      unfold Plain
      rw [State.values, shown, good.frame.txs]
      exact plain
    have second := apply_implemented (separate'.transport good.frame) plain' order height
    rw [State.values, shown, good.frame.txs] at second
    obtain ⟨o₂, ran₂, same, good₂⟩ := second.of_eq_ok ran'
    have still := good₂.frame.values good.separate.allocated
      (good.frame.apart separate'.allocated apart')
    exact ⟨o₂, ran₂, same, still, good₂.frame.txs.trans good.frame.txs⟩

end Objects

namespace Sample

open Objects

def unused : SQLChainProfile :=
  ⟨databaseID 0, 0, 0, 0, 0, 0, 0, [], [], [], ⟨[], 0, 0, 0, .zero, "", false, .zero, 0⟩⟩

def holding (account : Account) (txs : Nat → Transaction) : State where
  dirty := newDirtyObjects
  readonly := ⟨(∅ : FiniteMap AccountAddress AccountRef).insert account.address (.object 0), ∅, ∅⟩
  mem :=
    { accounts := ⟨fun _ => account, 1⟩
      databases := ⟨fun _ => unused, 0⟩
      providers := ⟨fun _ => ⟨0, 0, 0, .zero, [], 0, 0, 0, ""⟩, 0⟩
      txs := ⟨txs, 2⟩ }

lemma holding_separate (account txs) : Separate (holding account txs) := by
  refine .of_clean ⟨?_, ?_, ?_⟩ rfl
  · rintro i (⟨k, has⟩ | ⟨k, has⟩)
    · simp [holding, newDirtyObjects] at has
    · simp only [holding, FiniteMap.get_insert, FiniteMap.get_empty] at has
      split at has
      · cases has
        exact Nat.one_pos
      · simp at has
  · rintro r (⟨k, has⟩ | ⟨k, has⟩) <;> simp [holding, newDirtyObjects] at has
  · rintro r (⟨k, has⟩ | ⟨k, has⟩) <;> simp [holding, newDirtyObjects] at has

def shows (s : MetaState) (k : AccountAddress) : Option (UInt64 × AccountNonce) :=
  (s.view.accounts.get k).map fun account => (account.tokenBalance.particle, account.nextNonce)

noncomputable def run (t : Nat) (o : State) : Outcome State Err Unit :=
  Objects.apply env (choice.branchOrders 0) t 10 o

noncomputable def call : Call := ⟨choice.branchOrders 0, 0, 10⟩

lemma applyAll_call (ran : run 0 o = .ok (.ok (), o')) : applyAll env [call] o = .ok o' := by
  rw [run] at ran
  simp only [applyAll, call, ran]

def payer : State := holding ⟨1, ⟨100, 0⟩, 1⟩ fun _ => pay 1 2 1 10

def owed : State := holding (Account.new 3) fun _ => founder 3 50

def founding : State :=
  holding (Account.new 3) fun t => if t = 0 then founder 5 100 else pay 5 1 1 10

end Sample

namespace Objects

open Sample in
theorem uncommitted_isolated_paid :
    (∃ o', applyAll Sample.env [call] payer = .ok o' ∧ shows o'.values 2 = some (10, 0) ∧
      o'.clean.values.view = payer.values.view) ∧
    ∃ o₁ o₂, run 0 payer = .ok (.ok (), o₁) ∧
      run 0 ⟨payer.toLayers, o₁.mem⟩ = .ok (.ok (), o₂) ∧ o₂.values = o₁.values := by
  have ran : run 0 payer = .ok (.ok (), _) := rfl
  have separate : Separate payer := holding_separate _ _
  have plain : Plain Sample.env payer 0 := .inl rfl
  obtain ⟨sequence, twice⟩ := uncommitted_isolated separate
  obtain ⟨-, -, -, view, -⟩ := sequence [call] _ ⟨plain, fun _ _ _ => trivial⟩ (applyAll_call ran)
  obtain ⟨o₂, ran₂, same, -⟩ := twice _ 0 10 _ _ _ plain ran rfl separate
    (.of_clean rfl _) (.of_clean rfl _)
  exact ⟨⟨_, applyAll_call ran, rfl, view rfl⟩, _, o₂, ran, ran₂, same⟩

open Sample in
/-- A base account for an account of the read-only layer that a transfer has created: the shared
object gets the balance. -/
theorem uncommitted_leaks :
    (∃ o', applyAll Sample.env [call] owed = .ok o' ∧ shows owed.values 3 = some (0, 0) ∧
      shows o'.clean.values 3 = some (50, 0) ∧
      shows (owed.toLayers.values o'.mem) 3 = some (50, 0)) ∧
    (∃ o₁ o₂, run 0 founding = .ok (.ok (), o₁) ∧
      run 0 ⟨founding.toLayers, o₁.mem⟩ = .ok (.ok (), o₂) ∧
      (embedded (o₁.mem.txs.read 0)).map Account.nextNonce = some 1 ∧
      shows o₁.values 5 = some (100, 1) ∧ shows o₂.values 5 = some (100, 2) ∧
      shows (o₁.toLayers.values o₂.mem) 5 = some (100, 2)) ∧
    ∃ o₁ o₂ o₃ o₄, run 0 founding = .ok (.ok (), o₁) ∧ run 1 o₁ = .ok (.ok (), o₂) ∧
      run 0 ⟨founding.toLayers, o₂.mem⟩ = .ok (.ok (), o₃) ∧
      run 1 o₃ = .ok (.error .invalidAccountNonce, o₄) := by
  refine ⟨⟨_, applyAll_call rfl, ?_⟩, ⟨_, _, rfl, rfl, ?_⟩, _, _, _, _, rfl, rfl, rfl, rfl⟩
  · decide
  · decide

def applyValues (env : Env) (txs : Nat → Transaction) : List Call → MetaState →
    Except Halt MetaState
  | [], s => .ok s
  | call :: rest, s =>
    match BlockProducer.apply env call.order (txs call.tx) call.height s with
    | .error reason => .error reason
    | .ok (_, s) => applyValues env txs rest s

/-- Without base accounts, transactions on pointers end as on values: with the same values or with
the same panic. -/
theorem applyAll_refines {calls : List Call} (separate : Separate o)
    (plain : ∀ call ∈ calls, embedded (o.mem.txs.read call.tx) = none) :
    (applyAll env calls o).map State.values = applyValues env o.mem.txs.read calls o.values := by
  induction calls generalizing o with
  | nil => rfl
  | cons call rest ih =>
    have here : Plain env o call.tx := .inl (plain call List.mem_cons_self)
    have step := apply_implemented separate here call.order call.height
    rw [applyAll, applyValues]
    rcases ran : apply env call.order call.tx call.height o with reason | ⟨result, after⟩
    · rw [ran] at step
      rcases ran' : BlockProducer.apply env call.order (o.mem.txs.read call.tx) call.height
        o.values with reason' | outcome
      · rw [ran'] at step
        exact congrArg Except.error step
      · rw [ran'] at step
        exact step.elim
    · obtain ⟨ran', good⟩ := step.eq_ok ran
      have same := good.frame.txs
      rw [ran', ← same]
      refine ih good.separate fun later member => ?_
      rw [same]
      exact plain later (List.mem_cons_of_mem call member)

open Sample in
theorem applyAll_refines_paid :
    ((applyAll Sample.env [call, call] payer).map fun o => shows o.values 2) =
      .ok (some (10, 0)) ∧ (applyAll Sample.env [call, call] payer).map State.values =
        applyValues Sample.env payer.mem.txs.read [call, call] payer.values :=
  ⟨rfl, applyAll_refines (holding_separate _ _) fun _ _ => rfl⟩

end Objects

end SQLess.BlockProducer
