import SQLess.BlockProducer.ObjectsCore
import SQLess.Lib.Refinement

/-!
The state with pointers implements the state over values, for transactions without a base account.
-/

namespace SQLess.BlockProducer.Objects

open Lib Program FiniteMap MetaState

namespace Layers

variable {l : Layers} {m m' : Memory}

def HasAccount (l : Layers) (r : AccountRef) : Prop :=
  (∃ k, l.dirty.accounts.get k = some (some r)) ∨ ∃ k, l.readonly.accounts.get k = some r

def HasDatabase (l : Layers) (r : Nat) : Prop :=
  (∃ k, l.dirty.databases.get k = some (some r)) ∨ ∃ k, l.readonly.databases.get k = some r

def HasProvider (l : Layers) (r : Nat) : Prop :=
  (∃ k, l.dirty.provider.get k = some (some r)) ∨ ∃ k, l.readonly.provider.get k = some r

lemma map_dirty_eq {entries : FiniteMap K (Option R)} {f g : R → V}
    (same : ∀ k r, entries.get k = some (some r) → f r = g r) :
    entries.map (Option.map f) = entries.map (Option.map g) := by
  apply FiniteMap.ext
  intro k
  rcases found : entries.get k with _ | _ | r
  · simp [found]
  · simp [found]
  · simp [found, same k r found]

lemma map_eq {entries : FiniteMap K R} {f g : R → V}
    (same : ∀ k r, entries.get k = some r → f r = g r) : entries.map f = entries.map g := by
  apply FiniteMap.ext
  intro k
  rcases found : entries.get k with _ | r
  · simp [found]
  · simp [found, same k r found]

lemma values_eq (accounts : ∀ r, l.HasAccount r → m'.account r = m.account r)
    (databases : ∀ r, l.HasDatabase r → m'.databases.read r = m.databases.read r)
    (providers : ∀ r, l.HasProvider r → m'.providers.read r = m.providers.read r) :
    l.values m' = l.values m := by
  unfold values
  rw [map_dirty_eq fun k r found => accounts r (.inl ⟨k, found⟩),
    map_eq fun k r found => accounts r (.inr ⟨k, found⟩),
    map_dirty_eq fun k r found => databases r (.inl ⟨k, found⟩),
    map_eq fun k r found => databases r (.inr ⟨k, found⟩),
    map_dirty_eq fun k r found => providers r (.inl ⟨k, found⟩),
    map_eq fun k r found => providers r (.inr ⟨k, found⟩)]

end Layers

structure Allocated (l : Layers) (m : Memory) : Prop where
  accounts : ∀ i, l.HasAccount (.object i) → i < m.accounts.size
  databases : ∀ r, l.HasDatabase r → r < m.databases.size
  providers : ∀ r, l.HasProvider r → r < m.providers.size

structure Separate (o : State) : Prop where
  allocated : Allocated o.toLayers o.mem
  objects : ∀ k r, o.dirty.accounts.get k = some (some r) → ∃ i, r = .object i
  distinct : ∀ k k' r, o.dirty.accounts.get k = some (some r) →
    o.dirty.accounts.get k' = some (some r) → k = k'
  apart : ∀ k k' r, o.dirty.accounts.get k = some (some r) → o.readonly.accounts.get k' ≠ some r

structure Frame (before after : State) : Prop where
  readonly : after.readonly = before.readonly
  txs : after.mem.txs = before.mem.txs
  size : before.mem.accounts.size ≤ after.mem.accounts.size
  kept : ∀ i < before.mem.accounts.size,
    (∀ k, before.dirty.accounts.get k ≠ some (some (.object i))) →
    after.mem.accounts.read i = before.mem.accounts.read i
  owned : ∀ k i, after.dirty.accounts.get k = some (some (.object i)) →
    i < before.mem.accounts.size → ∃ k', before.dirty.accounts.get k' = some (some (.object i))
  databases : before.mem.databases.Extends after.mem.databases
  providers : before.mem.providers.Extends after.mem.providers

lemma Frame.refl (o) : Frame o o :=
  ⟨rfl, rfl, Nat.le_refl _, fun _ _ _ => rfl, fun k _ found _ => ⟨k, found⟩, .refl _, .refl _⟩

lemma Frame.trans (left : Frame first second) (right : Frame second third) : Frame first third := by
  refine ⟨right.readonly.trans left.readonly, right.txs.trans left.txs,
    left.size.trans right.size, ?_, ?_, left.databases.trans right.databases,
    left.providers.trans right.providers⟩
  · intro i old free
    rw [right.kept i (Nat.lt_of_lt_of_le old left.size), left.kept i old free]
    intro k found
    obtain ⟨k', own⟩ := left.owned k i found old
    exact free k' own
  · intro k i found old
    obtain ⟨k', between⟩ := right.owned k i found (Nat.lt_of_lt_of_le old left.size)
    exact left.owned k' i between old

def Apart (o : State) (l : Layers) : Prop :=
  ∀ k i, o.dirty.accounts.get k = some (some (.object i)) → ¬l.HasAccount (.object i)

lemma Frame.values {before after} (frame : Frame before after)
    (allocated : Allocated l before.mem) (apart : Apart before l) :
    l.values after.mem = l.values before.mem := by
  apply Layers.values_eq
  · intro r has
    cases r with
    | object i =>
      exact frame.kept i (allocated.accounts i has) fun k found => apart k i found has
    | embedded => simp only [Memory.account, frame.txs]
  · exact fun r has => frame.databases.read r (allocated.databases r has)
  · exact fun r has => frame.providers.read r (allocated.providers r has)

lemma Frame.allocated {before after} (frame : Frame before after)
    (allocated : Allocated l before.mem) : Allocated l after.mem :=
  ⟨fun i has => Nat.lt_of_lt_of_le (allocated.accounts i has) frame.size,
    fun r has => Nat.lt_of_lt_of_le (allocated.databases r has) frame.databases.size,
    fun r has => Nat.lt_of_lt_of_le (allocated.providers r has) frame.providers.size⟩

structure Good (start o : State) : Prop where
  separate : Separate o
  frame : Frame start o

namespace State

variable (o : State) (k : AccountAddress)

def putAccount (v : Account) : State :=
  (o.allocAccount v).storeAccount k (.object o.mem.accounts.size)

def putDatabase (k : DatabaseID) (v : SQLChainProfile) : State :=
  (o.allocDatabase v).storeDatabase k o.mem.databases.size

def putProvider (v : ProviderProfile) : State :=
  (o.allocProvider v).storeProvider k o.mem.providers.size

lemma values_storeAccount (r) :
    (o.storeAccount k r).values = o.values.setDirtyAccount k (o.mem.account r) := by
  simp only [values, Layers.values, storeAccount, setDirtyAccount,
    map_insert, Option.map_some]

lemma putAccount_cases {o : State} {k k' v r}
    (found : (o.putAccount k v).dirty.accounts.get k' = some (some r)) :
    (k' = k ∧ r = .object o.mem.accounts.size) ∨ o.dirty.accounts.get k' = some (some r) := by
  simp only [putAccount, storeAccount, get_insert] at found
  split at found
  · rename_i same
    exact .inl ⟨same, by simpa using found.symm⟩
  · exact .inr found

lemma values_storeDatabase (k r) :
    (o.storeDatabase k r).values = o.values.setDirtyDatabase k (o.mem.databases.read r) := by
  simp only [values, Layers.values, storeDatabase, setDirtyDatabase,
    map_insert, Option.map_some]

lemma values_storeProvider (r) :
    (o.storeProvider k r).values = o.values.setDirtyProvider k (o.mem.providers.read r) := by
  simp only [values, Layers.values, storeProvider, setDirtyProvider,
    map_insert, Option.map_some]

lemma values_deleteProvider :
    (o.deleteProviderObject k).values = o.values.deleteProviderObject k := by
  simp only [values, Layers.values, deleteProviderObject, MetaState.deleteProviderObject,
    map_insert, Option.map_none]

end State

namespace Good

variable {start o : State} (good : Good start o)

include good

lemma allocAccount (v) : Good start (o.allocAccount v) ∧ (o.allocAccount v).values = o.values := by
  obtain ⟨⟨allocated, objects, distinct, apart⟩, frame⟩ := good
  refine ⟨⟨⟨⟨?_, allocated.databases, allocated.providers⟩, objects, distinct, apart⟩, ?_⟩, ?_⟩
  · exact fun i has => Nat.lt_succ_of_lt (allocated.accounts i has)
  · refine { frame with size := Nat.le_succ_of_le frame.size, kept := ?_ }
    intro i old free
    rw [← frame.kept i old free]
    exact Heap.read_alloc_old v (Nat.lt_of_lt_of_le old frame.size)
  · refine Layers.values_eq ?_ (fun _ _ => rfl) fun _ _ => rfl
    intro r has
    cases r with
    | object i => exact Heap.read_alloc_old v (allocated.accounts i has)
    | embedded => rfl

lemma putAccount (k v) :
    Good start (o.putAccount k v) ∧ (o.putAccount k v).values = o.values.setDirtyAccount k v := by
  have new : ¬o.HasAccount (.object o.mem.accounts.size) := fun has =>
    Nat.lt_irrefl _ (good.separate.allocated.accounts _ has)
  obtain ⟨⟨separate, frame⟩, same⟩ := good.allocAccount v
  refine ⟨⟨⟨⟨?_, separate.allocated.databases, separate.allocated.providers⟩, ?_, ?_, ?_⟩, ?_⟩, ?_⟩
  · rintro i (⟨k', found⟩ | has)
    · rcases State.putAccount_cases found with ⟨-, here⟩ | old
      · cases here
        exact Nat.lt_succ_self _
      · exact separate.allocated.accounts i (.inl ⟨k', old⟩)
    · exact separate.allocated.accounts i (.inr has)
  · intro k' r found
    rcases State.putAccount_cases found with ⟨-, here⟩ | old
    · exact ⟨_, here⟩
    · exact separate.objects k' r old
  · intro k₁ k₂ r found₁ found₂
    rcases State.putAccount_cases found₁ with ⟨rfl, rfl⟩ | old₁
    · rcases State.putAccount_cases found₂ with ⟨rfl, -⟩ | old₂
      · rfl
      · exact absurd (.inl ⟨k₂, old₂⟩) new
    · rcases State.putAccount_cases found₂ with ⟨rfl, rfl⟩ | old₂
      · exact absurd (.inl ⟨k₁, old₁⟩) new
      · exact separate.distinct k₁ k₂ r old₁ old₂
  · intro k₁ k₂ r found below
    rcases State.putAccount_cases found with ⟨-, rfl⟩ | old
    · exact new (.inr ⟨k₂, below⟩)
    · exact separate.apart k₁ k₂ r old below
  · refine { frame with owned := ?_ }
    intro k' i found old
    rcases State.putAccount_cases found with ⟨-, here⟩ | before
    · cases here
      exact absurd old (Nat.not_lt.mpr good.frame.size)
    · exact frame.owned k' i before old
  · rw [State.putAccount, State.values_storeAccount, same]
    simp [State.allocAccount, Memory.account]

lemma writeAccount (found : o.dirty.accounts.get k = some (some r)) (v) :
    Good start (o.writeAccount r v) ∧ (o.writeAccount r v).values = o.values.setDirtyAccount k v :=
      by
  obtain ⟨i, rfl⟩ := good.separate.objects k r found
  obtain ⟨⟨allocated, objects, distinct, apart⟩, frame⟩ := good
  refine ⟨⟨⟨⟨allocated.accounts, allocated.databases, allocated.providers⟩, objects, distinct,
    apart⟩, ?_⟩, ?_⟩
  · refine { frame with kept := ?_ }
    intro j old free
    rw [← frame.kept j old free]
    refine Heap.read_write_other v ?_
    rintro rfl
    obtain ⟨k', own⟩ := frame.owned k j found old
    exact free k' own
  · have other : ∀ r, r ≠ .object i → (o.mem.setAccount (.object i) v).account r =
        o.mem.account r := by
      intro r different
      cases r with
      | object => exact Heap.read_write_other v fun same => different (by rw [same])
      | embedded => rfl
    have below : o.readonly.accounts.map (o.mem.setAccount (.object i) v).account =
        o.readonly.accounts.map o.mem.account :=
      Layers.map_eq fun k' r has => other r fun same => apart k k' _ found (same ▸ has)
    have dirty : o.dirty.accounts.map (Option.map (o.mem.setAccount (.object i) v).account) =
        (o.dirty.accounts.map (Option.map o.mem.account)).insert k (some v) := by
      apply FiniteMap.ext
      intro k'
      by_cases same : k' = k
      · subst same
        simp [found, Memory.setAccount, Memory.account]
      · simp only [get_map, get_insert, if_neg same]
        rcases has : o.dirty.accounts.get k' with _ | _ | r
        · rfl
        · rfl
        · have different : r ≠ .object i := fun equal => same (distinct k' k r has (equal ▸ found))
          simp [other r different]
    simp only [State.values, Layers.values, State.writeAccount, setDirtyAccount, below,
      dirty]
    rfl

lemma allocDatabase (v) :
    Good start (o.allocDatabase v) ∧ (o.allocDatabase v).values = o.values := by
  obtain ⟨⟨allocated, objects, distinct, apart⟩, frame⟩ := good
  refine ⟨⟨⟨⟨allocated.accounts, ?_, allocated.providers⟩, objects, distinct, apart⟩, ?_⟩, ?_⟩
  · exact fun r has => Nat.lt_succ_of_lt (allocated.databases r has)
  · exact { frame with databases := frame.databases.alloc v }
  · refine Layers.values_eq (fun r _ => by cases r <;> rfl) ?_ fun _ _ => rfl
    exact fun r has => Heap.read_alloc_old v (allocated.databases r has)

lemma putDatabase (k v) : Good start (o.putDatabase k v) ∧
      (o.putDatabase k v).values = o.values.setDirtyDatabase k v := by
  obtain ⟨⟨⟨allocated, objects, distinct, apart⟩, frame⟩, same⟩ := good.allocDatabase v
  refine ⟨⟨⟨⟨allocated.accounts, ?_, allocated.providers⟩, objects, distinct, apart⟩, ?_⟩, ?_⟩
  · rintro r (⟨k', found⟩ | has)
    · simp only [State.putDatabase, State.storeDatabase, get_insert] at found
      split at found
      · cases found
        exact Nat.lt_succ_self _
      · exact allocated.databases r (.inl ⟨k', found⟩)
    · exact allocated.databases r (.inr has)
  · exact { frame with }
  · rw [State.putDatabase, State.values_storeDatabase, same]
    simp [State.allocDatabase]

lemma putProvider (k v) : Good start (o.putProvider k v) ∧
      (o.putProvider k v).values = o.values.setDirtyProvider k v := by
  obtain ⟨⟨allocated, objects, distinct, apart⟩, frame⟩ := good
  refine ⟨⟨⟨⟨allocated.accounts, allocated.databases, ?_⟩, objects, distinct, apart⟩, ?_⟩, ?_⟩
  · rintro r (⟨k', found⟩ | has)
    · simp only [State.putProvider, State.storeProvider, get_insert] at found
      split at found
      · cases found
        exact Nat.lt_succ_self _
      · exact Nat.lt_succ_of_lt (allocated.providers r (.inl ⟨k', found⟩))
    · exact Nat.lt_succ_of_lt (allocated.providers r (.inr has))
  · exact { frame with providers := frame.providers.alloc v }
  · have same : (o.allocProvider v).values = o.values := by
      refine Layers.values_eq (fun r _ => by cases r <;> rfl) (fun _ _ => rfl) ?_
      exact fun r has => Heap.read_alloc_old v (allocated.providers r has)
    rw [State.putProvider, State.values_storeProvider, same]
    simp [State.allocProvider]

lemma deleteProvider (k) : Good start (o.deleteProviderObject k) ∧
      (o.deleteProviderObject k).values = o.values.deleteProviderObject k := by
  obtain ⟨⟨allocated, objects, distinct, apart⟩, frame⟩ := good
  refine ⟨⟨⟨⟨allocated.accounts, allocated.databases, ?_⟩, objects, distinct, apart⟩, ?_⟩,
    o.values_deleteProvider k⟩
  · rintro r (⟨k', found⟩ | has)
    · simp only [State.deleteProviderObject, get_insert] at found
      split at found
      · cases found
      · exact allocated.providers r (.inl ⟨k', found⟩)
    · exact allocated.providers r (.inr has)
  · exact { frame with }

end Good

end SQLess.BlockProducer.Objects
