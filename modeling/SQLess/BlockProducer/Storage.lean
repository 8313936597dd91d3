import SQLess.BlockProducer.BlockNode
import SQLess.BlockProducer.StorageCore

/-! Loading blocks from storage. -/

namespace SQLess.BlockProducer

open Lib List FiniteMap

variable {loaded : BlockIndex} {rows : List BlockRow}

structure ValidRow (valid : Nat → BPBlock → Prop) (row : BlockRow) : Prop where
  block : valid row.height row.encoded
  hash : row.hash = row.encoded.blockHash
  parent : row.parent = row.encoded.parentHash

structure Loaded (valid : Nat → BPBlock → Prop) (rows : List BlockRow) (loaded : BlockIndex) :
    Prop where
  linked : ∀ hash n, loaded.index.get hash = some n → n.hash = hash ∧ n.Linked valid
  heads : ∀ hash n, loaded.headsIndex.get hash = some n → loaded.index.get hash = some n
  listed : ∀ hash n, loaded.index.get hash = some n → ∃ row ∈ rows, row.hash = hash
  roots : ∀ row ∈ rows, row.height = 0 →
    rows.head? = some row ∧ loaded.index.get row.hash = some (.genesis 0 row.encoded)
  children : ∀ row ∈ rows, row.height ≠ 0 → ∃ pn, loaded.index.get row.parent = some pn ∧
    loaded.index.get row.hash = some (.child pn row.height row.encoded)

variable {valid : Nat → BPBlock → Prop}

lemma loaded_nil : Loaded valid [] ⟨∅, ∅⟩ := by
  constructor <;> simp

lemma loadBlockRow_cases {after row} (ran : loadBlockRow loaded row = .ok after) :
    (row.height = 0 ∧ loaded.index.keys = ∅ ∧
      after = ⟨loaded.index.insert row.hash (.genesis 0 row.encoded),
        loaded.headsIndex.insert row.hash (.genesis 0 row.encoded)⟩) ∨
    row.height ≠ 0 ∧ ∃ pn, loaded.index.get row.parent = some pn ∧
      after = ⟨loaded.index.insert row.hash (.child pn row.height row.encoded),
        (loaded.headsIndex.erase row.parent).insert row.hash
          (.child pn row.height row.encoded)⟩ := by
  unfold loadBlockRow at ran
  split at ran
  · rename_i atRoot
    split at ran
    · simp at ran
    · rename_i noKeys
      exact .inl ⟨atRoot, Classical.not_not.mp noKeys, (Except.ok.inj ran).symm⟩
  · rename_i high
    split at ran
    · simp at ran
    · rename_i pn parentAt
      exact .inr ⟨high, pn, parentAt, (Except.ok.inj ran).symm⟩

lemma Loaded.nothing
    (holds : Loaded valid rows loaded) (noKeys : loaded.index.keys = ∅) : rows = [] := by
  rcases rows with _ | ⟨first, rest⟩
  · rfl
  · have present : ∃ n, loaded.index.get first.hash = some n := by
      by_cases low : first.height = 0
      · exact ⟨_, (holds.roots first mem_cons_self low).2⟩
      · obtain ⟨pn, -, found⟩ := holds.children first mem_cons_self low
        exact ⟨_, found⟩
    obtain ⟨n, found⟩ := present
    have key := mem_keys_of_get found
    simp [noKeys] at key

lemma Loaded.root (holds : Loaded valid [] loaded) (ok : ValidRow valid row)
    (atRoot : row.height = 0) :
    Loaded valid [row] ⟨loaded.index.insert row.hash (.genesis 0 row.encoded),
      loaded.headsIndex.insert row.hash (.genesis 0 row.encoded)⟩ := by
  have empty : ∀ hash, loaded.index.get hash = none := by
    intro hash
    cases found : loaded.index.get hash with
    | none => rfl
    | some n =>
      obtain ⟨old, member, -⟩ := holds.listed hash n found
      simp at member
  refine ⟨?_, ?_, ?_, ?_, ?_⟩
  · intro hash n found
    simp only [get_insert, empty] at found
    split at found
    · rename_i same
      rw [← Option.some.inj found, same, ok.hash]
      exact ⟨rfl, .genesis (atRoot ▸ ok.block)⟩
    · simp at found
  · intro hash n found
    simp only [get_insert] at found ⊢
    split at found
    · rename_i same
      rw [if_pos same, found]
    · have impossible := holds.heads hash n found
      simp [empty] at impossible
  · intro hash n found
    simp only [get_insert, empty] at found
    split at found
    · rename_i same
      exact ⟨row, by simp, same.symm⟩
    · simp at found
  · intro old member _
    rw [mem_singleton.mp member]
    exact ⟨rfl, by simp⟩
  · intro old member high
    exact absurd (mem_singleton.mp member ▸ atRoot) high

section

variable (holds : Loaded valid rows loaded)
include holds

lemma Loaded.child (ok : ValidRow valid row) (fresh : ∀ old ∈ rows, old.hash ≠ row.hash)
    (high : row.height ≠ 0) (parentAt : loaded.index.get row.parent = some pn) :
    Loaded valid (rows ++ [row]) ⟨loaded.index.insert row.hash (.child pn row.height row.encoded),
        (loaded.headsIndex.erase row.parent).insert row.hash
          (.child pn row.height row.encoded)⟩ := by
  have kept : ∀ hash n, loaded.index.get hash = some n →
      (loaded.index.insert row.hash (.child pn row.height row.encoded)).get hash = some n := by
    intro hash n found
    obtain ⟨old, member, same⟩ := holds.listed hash n found
    have other : hash ≠ row.hash := same ▸ fresh old member
    simp [other, found]
  refine ⟨?_, ?_, ?_, ?_, ?_⟩
  · intro hash n found
    simp only [get_insert] at found
    split at found
    · rename_i same
      obtain ⟨parentHash, parentLinked⟩ := holds.linked _ _ parentAt
      rw [← Option.some.inj found, same, ok.hash]
      exact ⟨rfl, .child parentLinked ok.block (by rw [parentHash, ok.parent])⟩
    · exact holds.linked hash n found
  · intro hash n found
    simp only [get_insert, get_erase] at found ⊢
    split at found
    · rename_i same
      rw [if_pos same, found]
    · rename_i other
      split at found
      · simp at found
      · rw [if_neg other]
        exact holds.heads hash n found
  · intro hash n found
    simp only [get_insert] at found
    split at found
    · rename_i same
      exact ⟨row, by simp, same.symm⟩
    · obtain ⟨old, member, same⟩ := holds.listed hash n found
      exact ⟨old, by simp [member], same⟩
  · intro old member low
    rcases mem_append.mp member with earlier | same
    · obtain ⟨first, found⟩ := holds.roots old earlier low
      refine ⟨?_, kept _ _ found⟩
      rw [List.head?_append, first]
      rfl
    · rw [mem_singleton.mp same] at low
      exact absurd low high
  · intro old member above
    rcases mem_append.mp member with earlier | same
    · obtain ⟨parent, located, found⟩ := holds.children old earlier above
      exact ⟨parent, kept _ _ located, kept _ _ found⟩
    · rw [mem_singleton.mp same]
      exact ⟨pn, kept _ _ parentAt, by simp⟩

lemma loaded_snoc {row after} (ok : ValidRow valid row)
    (fresh : ∀ old ∈ rows, old.hash ≠ row.hash) (ran : loadBlockRow loaded row = .ok after) :
    Loaded valid (rows ++ [row]) after := by
  rcases loadBlockRow_cases ran with ⟨atRoot, noKeys, rfl⟩ | ⟨high, pn, parentAt, rfl⟩
  · obtain rfl := holds.nothing noKeys
    exact holds.root ok atRoot
  · exact holds.child ok fresh high parentAt

lemma loaded_foldlM {rest after} (ok : ∀ row ∈ rest, ValidRow valid row)
    (distinct : ((rows ++ rest).map BlockRow.hash).Nodup)
    (ran : rest.foldlM loadBlockRow loaded = .ok after) : Loaded valid (rows ++ rest) after := by
  induction rest generalizing rows loaded with
  | nil =>
    simp only [foldlM_nil, Pure.pure, Except.pure, Except.ok.injEq] at ran
    rw [← ran, append_nil]
    exact holds
  | cons row rest ih =>
    rw [foldlM_cons] at ran
    cases started : loadBlockRow loaded row with
    | error => simp [started, Bind.bind, Except.bind] at ran
    | ok between =>
      have later : rest.foldlM loadBlockRow between = .ok after := by
        simpa [started, Bind.bind, Except.bind] using ran
      have fresh : ∀ old ∈ rows, old.hash ≠ row.hash := by
        intro old member same
        rw [map_append, nodup_append] at distinct
        exact distinct.2.2 old.hash (mem_map_of_mem member) row.hash (by simp) same
      have next := loaded_snoc holds (ok row mem_cons_self) fresh started
      have whole := ih next (fun old member => ok old (mem_cons_of_mem _ member))
        (by simpa using distinct) later
      simpa using whole

end

lemma loadBlocks_spec (ok : ∀ row ∈ st.blocks, ValidRow valid row)
    (distinct : (st.blocks.map BlockRow.hash).Nodup)
    (ran : loadBlocks st irreHash = .ok (lastIrre, heads)) :
    ∃ loaded, Loaded valid st.blocks loaded ∧ loaded.index.get irreHash = some lastIrre ∧
      heads = loaded.headsIndex := by
  unfold loadBlocks at ran
  split at ran
  · simp at ran
  · rename_i loaded folded
    split at ran
    · simp at ran
    · rename_i irre found
      cases ran
      exact ⟨loaded, by simpa using loaded_foldlM loaded_nil ok (by simpa using distinct) folded,
        found, rfl⟩

end SQLess.BlockProducer
