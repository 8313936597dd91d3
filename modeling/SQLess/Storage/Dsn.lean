import Mathlib.Data.List.TakeWhile
import SQLess.Lib.FiniteMap

/-! Connection strings (`storage/dsn.go`), which are joined and split without any escaping. -/

namespace SQLess.Storage

open List

open Lib (FiniteMap)

abbrev Text := List Char

def splitN (sep : Char) (s : Text) : Text × Option Text :=
  match s.dropWhile (· != sep) with
  | [] => (s, none)
  | _ :: rest => (s.takeWhile (· != sep), some rest)

def trimPrefix (front s : Text) : Text :=
  if front <+: s then s.drop front.length else s

structure DSN where
  filename : Text
  params : FiniteMap Text Text

def parseParam (params : FiniteMap Text Text) (v : Text) : Except Text (FiniteMap Text Text) :=
  match splitN '=' v with
  | (key, some value) => .ok (params.insert key value)
  | (_, none) => .error ("unrecognized parameter: ".toList ++ v)

def newDSN (s : Text) : Except Text DSN :=
  match splitN '?' s with
  | (filename, none) => .ok ⟨trimPrefix "file:".toList filename, ∅⟩
  | (filename, some params) =>
    ((params.splitOn '&').foldlM parseParam ∅).map (⟨trimPrefix "file:".toList filename, ·⟩)

namespace DSN

def format (dsn : DSN) (order : List Text) : Text :=
  if order = [] then "file:".toList ++ dsn.filename
  else "file:".toList ++ dsn.filename ++ '?' ::
    ['&'].intercalate (order.map fun k => k ++ '=' :: (dsn.params.get k).getD [])

def addParam (dsn : DSN) (key value : Text) : DSN :=
  { dsn with params := if value = [] then dsn.params.erase key else dsn.params.insert key value }

def clone (dsn : DSN) : DSN := ⟨dsn.filename, dsn.params⟩

def Lists (dsn : DSN) (order : List Text) : Prop :=
  order.Nodup ∧ ∀ key, key ∈ order ↔ key ∈ dsn.params.keys

end DSN

inductive DSNStep where
  | addParam (key value : Text)
  | clone
  | reopen

def AtReopen (holds : DSN → Prop) : DSN → List DSNStep → Prop
  | _, [] => True
  | dsn, .addParam key value :: steps => AtReopen holds (dsn.addParam key value) steps
  | dsn, .clone :: steps => AtReopen holds dsn.clone steps
  | dsn, .reopen :: steps => holds dsn ∧ AtReopen holds dsn steps

def DSN.RoundTrips (dsn : DSN) : Prop :=
  ∀ order, dsn.Lists order → newDSN (dsn.format order) = .ok dsn

def DSN.Separable (dsn : DSN) : Prop :=
  ∀ key value, dsn.params.get key = some value → '&' ∉ value

lemma splitN_of_not_mem (absent : sep ∉ front) (rest) :
    splitN sep (front ++ sep :: rest) = (front, some rest) := by
  have skipped : ∀ c ∈ front, (c != sep) = true := fun c mem =>
    bne_iff_ne.2 fun same => absent (same ▸ mem)
  simp [splitN, dropWhile_append_of_pos skipped, takeWhile_append_of_pos skipped]

lemma splitN_eq_self (absent : sep ∉ s) : splitN sep s = (s, none) := by
  have skipped : ∀ c ∈ s, (c != sep) = true := fun c mem =>
    bne_iff_ne.2 fun same => absent (same ▸ mem)
  simp [splitN, dropWhile_eq_nil_iff.2 skipped]

lemma mem_of_splitN (split : splitN sep s = (front, some rest)) : ∀ c ∈ rest, c ∈ s := by
  intro c mem
  unfold splitN at split
  cases dropped : s.dropWhile (· != sep) with
  | nil => simp [dropped] at split
  | cons =>
    simp only [dropped, Prod.mk.injEq, Option.some.injEq] at split
    refine (dropWhile_sublist (· != sep)).mem ?_
    rw [dropped, split.2]
    exact mem_cons_of_mem _ mem

lemma not_mem_of_mem_splitOn {s : Text} : ∀ part ∈ s.splitOn sep, sep ∉ part := by
  induction s with
  | nil => simp
  | cons c s ih =>
    simp only [List.splitOn] at ih ⊢
    rw [splitOnP_cons_eq_if_modifyHead]
    split
    · simpa using ih
    · rename_i different
      cases parts : s.splitOnP (· == sep) with
      | nil => simp
      | cons =>
        rw [parts] at ih
        have apart : sep ≠ c := fun same => different (by simp [same])
        simpa [apart] using ih

lemma separable_insert {params : FiniteMap Text Text}
    (before : ∀ key value, params.get key = some value → '&' ∉ value) (clean : '&' ∉ v) (k) :
    ∀ key value, (params.insert k v).get key = some value → '&' ∉ value := by
  intro key value found
  rw [FiniteMap.get_insert] at found
  split at found
  · cases found
    exact clean
  · exact before key value found

lemma foldlM_parseParam_values {parts : List Text} (apart : ∀ part ∈ parts, '&' ∉ part)
    (before : ∀ key value, params.get key = some value → '&' ∉ value)
    (parsed : parts.foldlM parseParam params = .ok params') :
    ∀ key value, params'.get key = some value → '&' ∉ value := by
  induction parts generalizing params with
  | nil =>
    cases parsed
    exact before
  | cons part parts ih =>
    rw [foldlM_cons] at parsed
    have here := apart part mem_cons_self
    rcases split : splitN '=' part with ⟨k, _ | v⟩
    · simp [parseParam, split, bind, Except.bind] at parsed
    · simp only [parseParam, split, bind, Except.bind] at parsed
      refine ih (fun other mem => apart other (mem_cons_of_mem _ mem)) ?_ parsed
      exact separable_insert before (fun mem => here (mem_of_splitN split _ mem)) k

lemma foldlM_parseParam (dsn : DSN) {order : List Text} (params) (keys : ∀ key ∈ order, '=' ∉ key)
    (listed : ∀ key ∈ order, key ∈ dsn.params.keys) :
    ∃ params', (order.map fun k => k ++ '=' :: (dsn.params.get k).getD []).foldlM
        parseParam params = .ok params' ∧
      ∀ key, params'.get key = if key ∈ order then dsn.params.get key else params.get key := by
  induction order generalizing params with
  | nil => exact ⟨params, rfl, by simp⟩
  | cons k order ih =>
    obtain ⟨value, found⟩ := Option.isSome_iff_exists.1
      ((dsn.params.mem_keys k).1 (listed k mem_cons_self))
    obtain ⟨params', parsed, get⟩ := ih (params.insert k value)
      (fun key mem => keys key (mem_cons_of_mem _ mem))
      (fun key mem => listed key (mem_cons_of_mem _ mem))
    refine ⟨params', ?_, ?_⟩
    · rw [map_cons, foldlM_cons, parseParam, splitN_of_not_mem (keys k mem_cons_self), found]
      exact parsed
    · intro key
      rw [get, FiniteMap.get_insert]
      grind

lemma newDSN_file (filename) (noMark : '?' ∉ filename) : '?' ∉ "file:".toList ++ filename ∧
      trimPrefix "file:".toList ("file:".toList ++ filename) = filename := by
  constructor
  · simpa using noMark
  · simp [trimPrefix]

lemma newDSN_format_iff {dsn : DSN} (noMark : '?' ∉ dsn.filename)
    (keys : ∀ key ∈ dsn.params.keys, '&' ∉ key ∧ '=' ∉ key) : dsn.RoundTrips ↔ dsn.Separable := by
  obtain ⟨unmarked, trimmed⟩ := newDSN_file dsn.filename noMark
  constructor
  · intro same key value found
    have listed : dsn.Lists dsn.params.keys.toList := by simp [DSN.Lists, Finset.nodup_toList]
    have parsed := same _ listed
    have nonempty : dsn.params.keys.toList ≠ [] := by
      simpa [Finset.eq_empty_iff_forall_notMem] using ⟨key, FiniteMap.mem_keys_of_get found⟩
    rw [DSN.format, if_neg nonempty, newDSN, splitN_of_not_mem unmarked] at parsed
    cases folded : List.foldlM parseParam ∅ (List.splitOn '&' (['&'].intercalate
        (dsn.params.keys.toList.map fun k => k ++ '=' :: (dsn.params.get k).getD []))) with
    | error => simp [folded, Except.map] at parsed
    | ok =>
      simp only [folded, Except.map, Except.ok.injEq] at parsed
      refine foldlM_parseParam_values not_mem_of_mem_splitOn (by simp) folded key value ?_
      rw [← found, ← parsed]
  · intro separable order listed
    by_cases empty : order = []
    · have none : dsn.params = ∅ := by
        ext key
        have := listed.2 key
        simp_all [dsn.params.mem_keys]
      rw [DSN.format, if_pos empty, newDSN, splitN_eq_self unmarked]
      simp only [trimmed]
      rw [← none]
    · rw [DSN.format, if_neg empty, newDSN, splitN_of_not_mem unmarked]
      simp only [trimmed]
      rw [splitOn_intercalate _ _ (by simpa using empty)]
      · obtain ⟨params, folded, get⟩ := foldlM_parseParam dsn ∅
          (fun key mem => (keys key ((listed.2 key).1 mem)).2) fun key mem => (listed.2 key).1 mem
        have same : params = dsn.params := by
          ext key : 1
          rw [get]
          split
          · rfl
          · have absent := mt (listed.2 key).2 ‹_›
            rw [dsn.params.mem_keys, Option.not_isSome_iff_eq_none] at absent
            simp [absent]
        simp only [folded, Except.map, same]
      · intro part mem
        obtain ⟨k, inOrder, rfl⟩ := mem_map.1 mem
        have inKeys := (listed.2 k).1 inOrder
        obtain ⟨value, found⟩ := Option.isSome_iff_exists.1 ((dsn.params.mem_keys k).1 inKeys)
        simpa [found, (keys k inKeys).1] using separable k value found

lemma DSN.addParam_keys {dsn : DSN} (mem : other ∈ (dsn.addParam key value).params.keys) :
    other = key ∨ other ∈ dsn.params.keys := by
  simp only [DSN.addParam, FiniteMap.mem_keys] at mem ⊢
  split at mem
  · rw [FiniteMap.get_erase] at mem
    split at mem <;> simp_all
  · rw [FiniteMap.get_insert] at mem
    split at mem <;> simp_all

/-- Along any steps the parameters come back from their connection string exactly if no value
holds an ampersand when it is formatted. -/
theorem dsn_round_trips_iff {dsn : DSN} (noMark : '?' ∉ dsn.filename)
    (keys : ∀ key ∈ dsn.params.keys, '&' ∉ key ∧ '=' ∉ key) {steps : List DSNStep}
    (stepKeys : ∀ key value, .addParam key value ∈ steps → '&' ∉ key ∧ '=' ∉ key) :
    AtReopen DSN.RoundTrips dsn steps ↔ AtReopen DSN.Separable dsn steps := by
  induction steps generalizing dsn with
  | nil => exact Iff.rfl
  | cons step steps ih =>
    have later : ∀ key value, .addParam key value ∈ steps → '&' ∉ key ∧ '=' ∉ key :=
      fun key value mem => stepKeys key value (mem_cons_of_mem _ mem)
    cases step with
    | addParam key value =>
      refine ih noMark (fun other mem => ?_) later
      rcases DSN.addParam_keys mem with rfl | old
      · exact stepKeys _ value mem_cons_self
      · exact keys other old
    | clone => exact ih noMark keys later
    | reopen => rw [AtReopen, AtReopen, newDSN_format_iff noMark keys, ih noMark keys later]

def cryptoSteps (key : String) : List DSNStep :=
  [.addParam "_crypto_key".toList key.toList, .reopen, .addParam "cache".toList "shared".toList,
    .clone, .reopen]

theorem dsn_round_trips_plain_key :
    AtReopen DSN.RoundTrips ⟨"db".toList, ∅⟩ (cryptoSteps "secret") := by
  refine (dsn_round_trips_iff (by decide) (by simp) ?_).2 ?_
  · intro key value mem
    simp only [cryptoSteps, mem_cons, DSNStep.addParam.injEq, reduceCtorEq, not_mem_nil,
      false_or, or_false] at mem
    rcases mem with ⟨rfl, rfl⟩ | ⟨rfl, rfl⟩ <;> decide
  · have keyed := separable_insert
      (by simp : ∀ key value, (∅ : FiniteMap Text Text).get key = some value → _)
       (by decide : '&' ∉ "secret".toList)
    exact ⟨keyed _, separable_insert (keyed _) (by decide : '&' ∉ "shared".toList) _, trivial⟩

theorem dsn_key_cut :
    let dsn := (⟨"db".toList, ∅⟩ : DSN).addParam "_crypto_key".toList "a&b=c".toList
    (newDSN (dsn.format ["_crypto_key".toList])).toOption.map (fun dsn =>
        (dsn.params.get "_crypto_key".toList, dsn.params.get "b".toList)) =
      some (some "a".toList, some "c".toList) := by
  decide

end SQLess.Storage
