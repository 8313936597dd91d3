import Mathlib.Data.List.Induction
import SQLess.Kayak.WalCore

/-! Writes to the write-ahead log are atomic under crashes. -/

namespace SQLess.Kayak.LevelDB

open List LevelDBWal Attempt

open Lib (OrderedStore bigEndian_lt_iff bigEndian_inj)

variable {j : UInt64} {l l' : Log} {p : LevelDBWal}

lemma toNat_lt (index : UInt64) : index.toNat < 256 ^ 8 := by
  have bound := index.toNat_lt
  omega

lemma headerKey_inj : headerKey i = headerKey j ↔ i = j := by
  rw [headerKey, headerKey, append_cancel_left_eq, uint64ToBytes, uint64ToBytes,
    bigEndian_inj (toNat_lt i) (toNat_lt j), UInt64.toNat_inj]

lemma dataKey_inj : dataKey i = dataKey j ↔ i = j := by
  rw [dataKey, dataKey, append_cancel_left_eq, uint64ToBytes, uint64ToBytes,
    bigEndian_inj (toNat_lt i) (toNat_lt j), UInt64.toNat_inj]

lemma headerKey_ne_dataKey (i j) : headerKey i ≠ dataKey j := by
  simp [headerKey, dataKey, logHeaderKeyPrefix, logDataKeyPrefix]

lemma headerKey_lt_iff : headerKey i < headerKey j ↔ i < j := by
  simp only [headerKey, logHeaderKeyPrefix, cons_append, nil_append,
    cons_lt_cons_iff, lt_irrefl, true_and, false_or, uint64ToBytes]
  rw [bigEndian_lt_iff (toNat_lt i) (toNat_lt j), UInt64.lt_iff_toNat_lt]

lemma isPrefixOf_headerKey (i) : logHeaderKeyPrefix.isPrefixOf (headerKey i) = true := by
  simp [headerKey, logHeaderKeyPrefix]

lemma not_isPrefixOf_dataKey (i) : logHeaderKeyPrefix.isPrefixOf (dataKey i) = false := rfl

def stored (c : Codec) (l : Log) : Option Log :=
  match c.encodeData l.data with
  | none => none
  | some data =>
    if (c.encodeHeader (l.withDataLength data).toLogHeader).isSome then
      some (l.withDataLength data)
    else none

def Attempt.completed (c : Codec) (attempt : Attempt) : Option Log :=
  if 2 ≤ attempt.puts then attempt.log.bind (stored c) else none

def present (c : Codec) (history : List Attempt) (i : UInt64) : Option Log :=
  history.findSome? fun attempt => (attempt.completed c).filter fun l => l.index = i

lemma stored_some (complete : stored c l = some l') :
    ∃ data header, c.encodeData l.data = some data ∧ l' = l.withDataLength data ∧
      c.encodeHeader l'.toLogHeader = some header := by
  unfold stored at complete
  cases encoded : c.encodeData l.data with
  | none => simp [encoded] at complete
  | some data =>
    simp only [encoded, Option.ite_none_right_eq_some, Option.some.injEq] at complete
    obtain ⟨some, rfl⟩ := complete
    obtain ⟨header, encoded'⟩ := Option.isSome_iff_exists.mp some
    exact ⟨data, header, rfl, rfl, encoded'⟩

lemma stored_index (complete : stored c l = some l') : l'.index = l.index := by
  obtain ⟨data, header, -, rfl, -⟩ := stored_some complete
  rfl

lemma present_append (c history attempt i) : present c (history ++ [attempt]) i =
      (present c history i).or ((attempt.completed c).filter fun l => l.index = i) := by
  simp [present, List.findSome?_append]

structure Holds (c : Codec) (db : DB) (history : List Attempt) : Prop where
  header : ∀ i, db.get (headerKey i) =
    (present c history i).bind fun l => c.encodeHeader l.toLogHeader
  data : ∀ i l, present c history i = some l → db.get (dataKey i) = c.encodeData l.data
  named : ∀ i l, present c history i = some l → ∃ l', stored c l' = some l ∧ l.index = i
  keys : ∀ entry ∈ db.entries, (∃ i, entry.1 = headerKey i) ∨ ∃ i, entry.1 = dataKey i

section

variable {c : Codec} {db : DB} {history : List Attempt}

lemma holds_empty (c) : Holds c .empty [] where
  header := fun _ => rfl
  data := by simp [present]
  named := by simp [present]
  keys := by simp [OrderedStore.empty]

lemma Holds.congr (holds : Holds c db history)
    (same : ∀ i, present c history' i = present c history i) : Holds c db history' where
  header := fun i => by rw [same]; exact holds.header i
  data := fun i l found => holds.data i l (same i ▸ found)
  named := fun i l found => holds.named i l (same i ▸ found)
  keys := holds.keys

lemma present_same
    (old : ∀ l, attempt.completed c = some l → (present c history l.index).isSome) (i) :
    present c (history ++ [attempt]) i = present c history i := by
  rw [present_append]
  cases found : present c history i with
  | some => rfl
  | none =>
    cases completed : attempt.completed c with
    | none => rfl
    | some l =>
      have other : l.index ≠ i := by
        rintro rfl
        simpa [found] using old l completed
      simp [other]

lemma Holds.header_none (holds : Holds c db history) :
    db.get (headerKey i) = none ↔ present c history i = none := by
  rw [holds.header i]
  cases found : present c history i with
  | none => simp
  | some l =>
    obtain ⟨l', complete, -⟩ := holds.named i l found
    obtain ⟨data, header, -, -, encoded⟩ := stored_some complete
    simp [encoded]

lemma Holds.putData (holds : Holds c db history) (absent : present c history i = none) (bytes) :
    Holds c (db.put (dataKey i) bytes) history where
  header := by
    intro j
    rw [OrderedStore.get_put, if_neg (headerKey_ne_dataKey j i)]
    exact holds.header j
  data := by
    intro j l found
    have other : dataKey j ≠ dataKey i := by
      rw [ne_eq, dataKey_inj]
      rintro rfl
      rw [absent] at found
      cases found
    rw [OrderedStore.get_put, if_neg other]
    exact holds.data j l found
  named := holds.named
  keys := by
    intro entry member
    rcases Lib.mem_putEntry member with rfl | old
    · exact .inr ⟨i, rfl⟩
    · exact holds.keys entry old

lemma Holds.putHeader {data header n} (holds : Holds c db history)
    (absent : present c history l.index = none) (encoded : c.encodeData l.data = some data)
    (encoded' : c.encodeHeader (l.withDataLength data).toLogHeader = some header) (whole : 2 ≤ n) :
    Holds c ((db.put (dataKey l.index) data).put (headerKey l.index) header)
      (history ++ [⟨some l, n⟩]) := by
  have completed : completed c ⟨some l, n⟩ = some (l.withDataLength data) := by
    simp [completed, whole, stored, encoded, encoded']
  have here : present c (history ++ [⟨some l, n⟩]) l.index = some (l.withDataLength data) := by
    rw [present_append, absent, completed, Option.none_or, Option.filter_some,
      if_pos (decide_eq_true (by rfl))]
  have elsewhere {i : UInt64} (other : i ≠ l.index) :
      present c (history ++ [⟨some l, n⟩]) i = present c history i := by
    rw [present_append, completed, Option.filter_some,
      if_neg (fun same => other (of_decide_eq_true same).symm), Option.or_none]
  have between := holds.putData absent data
  refine ⟨?_, ?_, ?_, ?_⟩
  · intro i
    rw [OrderedStore.get_put]
    by_cases same : i = l.index
    · rw [if_pos (headerKey_inj.mpr same), same, here]
      exact encoded'.symm
    · rw [if_neg fun equal => same (headerKey_inj.mp equal), elsewhere same]
      exact between.header i
  · intro i l' found
    rw [OrderedStore.get_put, if_neg (headerKey_ne_dataKey l.index i).symm]
    by_cases same : i = l.index
    · rw [same, here] at found
      cases found
      rw [same, OrderedStore.get_put, if_pos rfl]
      exact encoded.symm
    · rw [elsewhere same] at found
      exact between.data i l' found
  · intro i l' found
    by_cases same : i = l.index
    · rw [same, here] at found
      cases found
      exact ⟨l, by simp [stored, encoded, encoded'], same.symm⟩
    · rw [elsewhere same] at found
      exact holds.named i l' found
  · intro entry member
    rcases Lib.mem_putEntry member with rfl | old
    · exact .inl ⟨l.index, rfl⟩
    · exact between.keys entry old

lemma writePuts_cases (c db l) : (∃ bytes, db.get (headerKey l.index) = some bytes ∧
        writePuts c db l = ([], .error .alreadyExists)) ∨
      (db.get (headerKey l.index) = none ∧ stored c l = none ∧ ∃ puts err,
        writePuts c db l = (puts, .error err) ∧
          (puts = [] ∨ ∃ data, puts = [(dataKey l.index, data)])) ∨
      (db.get (headerKey l.index) = none ∧ ∃ data header, c.encodeData l.data = some data ∧
        c.encodeHeader (l.withDataLength data).toLogHeader = some header ∧
        writePuts c db l = ([(dataKey l.index, data), (headerKey l.index, header)], .ok ())) := by
  unfold writePuts stored
  cases db.get (headerKey l.index) with
  | some bytes => exact .inl ⟨bytes, rfl, rfl⟩
  | none =>
    refine .inr ?_
    cases c.encodeData l.data with
    | none => exact .inl ⟨rfl, rfl, _, _, rfl, .inl rfl⟩
    | some data =>
      cases encoded : c.encodeHeader (l.withDataLength data).toLogHeader with
      | none => exact .inl ⟨rfl, by simp [encoded], [(dataKey l.index, data)],
          .wrapped "encode log header failed" .codec, by simp [encoded], .inr ⟨data, rfl⟩⟩
      | some header => exact .inr ⟨rfl, data, header, rfl, encoded, by simp [encoded]⟩

lemma Holds.attempt (holds : Holds c db history) (attempt) :
    Holds c (attempt.apply c db) (history ++ [attempt]) := by
  obtain ⟨log, n⟩ := attempt
  cases log with
  | none =>
    refine holds.congr (present_same fun l completed => ?_)
    simp [Attempt.completed] at completed
  | some l =>
    rw [Attempt.apply]
    dsimp only
    rcases writePuts_cases c db l with ⟨bytes, found, puts⟩ |
      ⟨found, failing, puts, err, written, few⟩ | ⟨found, data, header, encoded, encoded', puts⟩
    · have isPresent : (present c history l.index).isSome := by
        rw [Option.isSome_iff_ne_none, ne_eq, ← holds.header_none, found]
        simp
      rw [puts, take_nil]
      refine holds.congr (present_same fun l' completed => ?_)
      simp only [Attempt.completed, Option.ite_none_right_eq_some, Option.bind_some] at completed
      rw [stored_index completed.2]
      exact isPresent
    · have absent := holds.header_none.mp found
      have nothing (l' : Log) (completed : Attempt.completed c ⟨some l, n⟩ = some l') :
          (present c history l'.index).isSome := by
        simp [Attempt.completed, failing] at completed
      rw [written]
      rcases few with rfl | ⟨data, rfl⟩
      · rw [take_nil]
        exact holds.congr (present_same nothing)
      · cases n with
        | zero => exact holds.congr (present_same nothing)
        | succ =>
          rw [take_succ_cons, take_nil]
          exact (holds.putData absent data).congr (present_same nothing)
    · have absent := holds.header_none.mp found
      rw [puts]
      have early (few : n < 2) (l' : Log) (completed : Attempt.completed c ⟨some l, n⟩ = some l') :
          (present c history l'.index).isSome := by
        rw [Attempt.completed, if_neg (Nat.not_le.mpr few)] at completed
        cases completed
      rcases n with _ | _ | n
      · exact holds.congr (present_same (early (by omega)))
      · exact (holds.putData absent data).congr (present_same (early (by omega)))
      · rw [take_of_length_le (by simp)]
        exact holds.putHeader absent encoded encoded' (Nat.le_add_left 2 n)

lemma holds_afterAttempts (c history) : Holds c (afterAttempts c history) history := by
  induction history using List.reverseRecOn with
  | nil => exact holds_empty c
  | append_singleton history attempt ih =>
    rw [afterAttempts, foldl_append]
    exact ih.attempt attempt

lemma Holds.header_some (holds : Holds c db history) (found : present c history i = some l) :
    ∃ bytes, c.encodeHeader l.toLogHeader = some bytes ∧ db.get (headerKey i) = some bytes := by
  obtain ⟨l', complete, -⟩ := holds.named i l found
  obtain ⟨data, bytes, -, -, encoded⟩ := stored_some complete
  exact ⟨bytes, encoded, by rw [holds.header, found, Option.bind_some, encoded]⟩

lemma Holds.load (holds : Holds c db history) (found : present c history i = some l)
    (header : db.get (headerKey i) = some bytes) : load c db bytes = .ok l := by
  obtain ⟨l', complete, rfl⟩ := holds.named i l found
  obtain ⟨data, header', encoded, rfl, encoded'⟩ := stored_some complete
  have stored := holds.data _ _ found
  rw [holds.header, found, Option.bind_some, encoded', Option.some.injEq] at header
  subst header
  have sameData : (l'.withDataLength data).data = l'.data := rfl
  rw [sameData, encoded] at stored
  rw [LevelDB.load, c.decode_header _ _ encoded']
  simp only [stored, c.decode_data _ _ encoded]
  rfl

lemma Holds.get (holds : Holds c p.db history) (opened : p.closed = false) (i) :
    p.get c i = (present c history i).elim (.error .notExists) .ok := by
  rw [LevelDBWal.get, opened, if_neg Bool.false_ne_true]
  cases found : present c history i with
  | none =>
    rw [holds.header_none.mpr found]
    rfl
  | some =>
    cases header : p.db.get (headerKey i) with
    | none =>
      rw [holds.header_none, found] at header
      cases header
    | some => exact holds.load found header

lemma reads_done (opened : p.closed = false) (done : p.alreadyRead = true) (n) :
    p.reads c n = List.replicate n (.error .eof) := by
  induction n with
  | zero => rfl
  | succ n ih =>
    have now : p.read c = (p, .error .eof) := by simp [LevelDBWal.read, opened, done]
    rw [reads, now, ih, replicate_succ]

lemma reads_eq (opened : p.closed = false) (unread : p.alreadyRead = false)
    (left : p.it.getD (headers p.db) = values) (n) :
    p.reads c n = (values.map (load c p.db)).take n ++
      List.replicate (n - values.length) (.error .eof) := by
  induction n generalizing p values with
  | zero => simp [reads]
  | succ n ih =>
    cases values with
    | nil =>
      have now : p.read c = ({ p with it := none, alreadyRead := true }, .error .eof) := by
        simp [LevelDBWal.read, opened, unread, left]
      rw [reads, now,
        reads_done (p := { p with it := none, alreadyRead := true }) opened rfl]
      simp [replicate_succ]
    | cons value rest =>
      have now : p.read c = ({ p with it := some rest }, load c p.db value) := by
        simp [LevelDBWal.read, opened, unread, left]
      rw [reads, now, ih (p := { p with it := some rest }) opened unread rfl]
      simp

lemma Holds.entries (holds : Holds c db history) :
    ∃ logs : List Log, (∀ l ∈ logs, present c history l.index = some l) ∧
      (logs.map fun l => (headerKey l.index, (c.encodeHeader l.toLogHeader).getD [])) =
        db.entries.filter fun entry => logHeaderKeyPrefix.isPrefixOf entry.1 := by
  have each (entry : Bytes × Bytes)
      (member : entry ∈ db.entries.filter fun entry => logHeaderKeyPrefix.isPrefixOf entry.1) :
      ∃ l : Log, present c history l.index = some l ∧
        (headerKey l.index, (c.encodeHeader l.toLogHeader).getD []) = entry := by
    obtain ⟨inside, selected⟩ := mem_filter.mp member
    obtain ⟨key, value⟩ := entry
    have found := OrderedStore.get_eq_some.mpr inside
    rcases holds.keys _ inside with ⟨i, rfl⟩ | ⟨i, rfl⟩
    · rw [holds.header i, Option.bind_eq_some_iff] at found
      obtain ⟨l, isPresent, encoded⟩ := found
      obtain ⟨l', -, rfl⟩ := holds.named i l isPresent
      exact ⟨l, isPresent, by rw [encoded]; rfl⟩
    · rw [not_isPrefixOf_dataKey] at selected
      cases selected
  generalize (db.entries.filter fun entry => logHeaderKeyPrefix.isPrefixOf entry.1) = entries
    at each
  induction entries with
  | nil => exact ⟨[], by simp, rfl⟩
  | cons entry rest ih =>
    obtain ⟨l, here, rfl⟩ := each entry mem_cons_self
    obtain ⟨logs, others, rfl⟩ := ih fun entry member => each entry (mem_cons_of_mem _ member)
    refine ⟨l :: logs, ?_, rfl⟩
    intro l' member
    rcases mem_cons.mp member with rfl | later
    · exact here
    · exact others l' later

lemma Holds.headers (holds : Holds c db history) :
    ∃ logs : List Log, (headers db).map (LevelDB.load c db) = logs.map .ok ∧
      (logs.Pairwise fun left right => left.index < right.index) ∧
      ∀ i l, present c history i = some l ↔ l ∈ logs ∧ l.index = i := by
  obtain ⟨logs, all, entries⟩ := holds.entries
  have member (i : UInt64) (l : Log) : present c history i = some l ↔ l ∈ logs ∧ l.index = i := by
    constructor
    · intro found
      obtain ⟨bytes, -, header⟩ := holds.header_some found
      have selected : (headerKey i, bytes) ∈ db.entries.filter fun entry =>
          logHeaderKeyPrefix.isPrefixOf entry.1 :=
        mem_filter.mpr ⟨OrderedStore.get_eq_some.mp header, isPrefixOf_headerKey i⟩
      rw [← entries] at selected
      obtain ⟨l', inside, same⟩ := mem_map.mp selected
      obtain rfl : l'.index = i := headerKey_inj.mp (congrArg Prod.fst same)
      rw [all l' inside, Option.some.injEq] at found
      exact ⟨found ▸ inside, found ▸ rfl⟩
    · rintro ⟨member, rfl⟩
      exact all l member
  refine ⟨logs, ?_, ?_, member⟩
  · rw [LevelDB.headers, ← entries, map_map, map_map]
    refine map_congr_left fun l inside => ?_
    obtain ⟨bytes, encoded, header⟩ := holds.header_some (all l inside)
    have loaded := holds.load (all l inside) header
    simpa [encoded] using loaded
  · have ordered := db.ascending.filter fun entry => logHeaderKeyPrefix.isPrefixOf entry.1
    rw [← entries, pairwise_map] at ordered
    exact ordered.imp headerKey_lt_iff.mp

lemma write_eq (opened : p.closed = false) (l) :
    (p.write c (some l)).1.db = putAll p.db (writePuts c p.db l).1 ∧
      (p.write c (some l)).2 = (writePuts c p.db l).2 := by
  rw [write, opened, if_neg Bool.false_ne_true]
  exact ⟨rfl, rfl⟩

lemma write_apply (opened : p.closed = false) (l) :
    (p.write c (some l)).1.db = Attempt.apply c p.db ⟨some l, 2⟩ := by
  have few : (writePuts c p.db l).1.length ≤ 2 := by
    rcases writePuts_cases c p.db l with ⟨_, -, puts⟩ | ⟨-, -, _, _, puts, rfl | ⟨_, rfl⟩⟩ |
      ⟨-, _, _, -, -, puts⟩
    · simp [puts]
    · simp [puts]
    · simp [puts]
    · simp [puts]
  have all := take_of_length_le few
  rw [(write_eq opened l).1, apply]
  dsimp only
  rw [all]

lemma Holds.write_present (holds : Holds c p.db history) (opened : p.closed = false)
    (found : present c history l.index = some old) :
    (p.write c (some l)).2 = .error .alreadyExists ∧ (p.write c (some l)).1.db = p.db := by
  obtain ⟨bytes, -, header⟩ := holds.header_some found
  rw [(write_eq opened l).1, (write_eq opened l).2, writePuts, header]
  exact ⟨rfl, rfl⟩

lemma Holds.write_absent (holds : Holds c p.db history)
    (opened : p.closed = false) (absent : present c history l.index = none) :
    (p.write c (some l)).2 = .ok () ↔ (stored c l).isSome := by
  have free := holds.header_none.mpr absent
  rw [(write_eq opened l).2]
  rcases writePuts_cases c p.db l with ⟨bytes, found, -⟩ | ⟨-, failing, puts, err, written, -⟩ |
    ⟨-, data, header, encoded, encoded', written⟩
  · rw [free] at found
    cases found
  · simp [written, failing]
  · simp [written, stored, encoded, encoded']

lemma present_from (absent : present c history l.index = none) (complete : stored c l = some l')
    (later) : present c (history ++ ⟨some l, 2⟩ :: later) l.index = some l' := by
  have completed : completed c ⟨some l, 2⟩ = some l' := by
    rw [completed, if_pos (by rfl)]
    exact complete
  unfold present at absent ⊢
  rw [List.findSome?_append, absent, Option.none_or, List.findSome?_cons, completed,
    Option.filter_some, if_pos (decide_eq_true (stored_index complete))]

end

/-- Whatever calls of `Write` were cut short, `Get` finds the first log under an index that was
written in full, and a reopened log is read by increasing index. -/
theorem writes_atomic (c : Codec) (history : List Attempt) (p : LevelDBWal)
    (db : p.db = afterAttempts c history) (opened : p.closed = false) :
    (∀ i, p.get c i = (present c history i).elim (.error .notExists) .ok) ∧
    (∃ logs : List Log, (∀ n, (LevelDBWal.newLevelDBWal p.db).reads c n =
        (logs.map .ok).take n ++ List.replicate (n - logs.length) (.error .eof)) ∧
      (logs.Pairwise fun left right => left.index < right.index) ∧
      ∀ i l, present c history i = some l ↔ l ∈ logs ∧ l.index = i) ∧
    (∀ l, (p.write c (some l)).2 = .ok () → ∃ l', stored c l = some l' ∧
      ∀ (later : List Attempt) (q : LevelDBWal),
        q.db = later.foldl (Attempt.apply c) (p.write c (some l)).1.db → q.closed = false →
          q.get c l.index = .ok l') ∧
    (∀ l, present c history l.index = none → (stored c l).isSome →
      (p.write c (some l)).2 = .ok ()) ∧
    ∀ l old, present c history l.index = some old →
      (p.write c (some l)).2 = .error .alreadyExists ∧ (p.write c (some l)).1.db = p.db := by
  have holds : Holds c p.db history := db ▸ holds_afterAttempts c history
  refine ⟨holds.get opened, ?_, ?_, fun l absent => (holds.write_absent opened absent).mpr,
    fun l old found => holds.write_present opened found⟩
  · obtain ⟨logs, loaded, ordered, member⟩ := holds.headers
    refine ⟨logs, fun n => ?_, ordered, member⟩
    have counted : (headers p.db).length = logs.length := by
      simpa using congrArg List.length loaded
    rw [reads_eq (p := LevelDBWal.newLevelDBWal p.db) rfl rfl rfl, ← counted]
    exact congrArg (fun results => results.take n ++ _) loaded
  · intro l returned
    have absent : present c history l.index = none := by
      cases found : present c history l.index with
      | none => rfl
      | some =>
        rw [(holds.write_present opened found).1] at returned
        cases returned
    obtain ⟨l', complete⟩ :=
      Option.isSome_iff_exists.mp ((holds.write_absent opened absent).mp returned)
    refine ⟨l', complete, ?_⟩
    intro later q reached stillOpen
    have ahead : q.db = afterAttempts c (history ++ ⟨some l, 2⟩ :: later) := by
      rw [reached, write_apply opened, db]
      simp only [afterAttempts, foldl_append, foldl_cons]
    have holds' : Holds c q.db (history ++ ⟨some l, 2⟩ :: later) :=
      ahead ▸ holds_afterAttempts c _
    rw [holds'.get stillOpen, present_from absent complete]
    rfl

def tableCodec (table : List LogHeader) : Codec where
  encodeData := some
  decodeData := some
  encodeHeader := fun header => (table.findIdx? (· = header)).map fun place =>
    List.replicate place 0
  decodeHeader := fun bytes => table[bytes.length]?
  decode_data := fun _ _ same => same.symm
  decode_header := by
    intro header bytes encoded
    obtain ⟨place, found, rfl⟩ := Option.map_eq_some_iff.mp encoded
    obtain ⟨inside, same, -⟩ := List.findIdx?_eq_some_iff_getElem.mp found
    rw [length_replicate, List.getElem?_eq_getElem inside, of_decide_eq_true same]

def sampleHeader (dataLength : UInt64) : LogHeader := ⟨7, 0, logPrepare, "leader", dataLength⟩

theorem writes_atomic_cut : ∃ p : LevelDBWal,
      p.db = afterAttempts (tableCodec [sampleHeader 2]) [⟨some ⟨sampleHeader 0, [1]⟩, 1⟩] ∧
      p.closed = false ∧
      p.get (tableCodec [sampleHeader 2]) 7 = .error .notExists ∧
      (p.write (tableCodec [sampleHeader 2]) (some ⟨sampleHeader 0, [8, 9]⟩)).2 = .ok () ∧
      (p.write (tableCodec [sampleHeader 2]) (some ⟨sampleHeader 0, [8, 9]⟩)).1.get
        (tableCodec [sampleHeader 2]) 7 = .ok ⟨sampleHeader 2, [8, 9]⟩ := by
  obtain ⟨gets, -, keeps, writes, -⟩ := writes_atomic (tableCodec [sampleHeader 2])
    [⟨some ⟨sampleHeader 0, [1]⟩, 1⟩] (.newLevelDBWal _) rfl rfl
  have written := writes ⟨sampleHeader 0, [8, 9]⟩ rfl rfl
  obtain ⟨l, complete, found⟩ := keeps ⟨sampleHeader 0, [8, 9]⟩ written
  cases complete
  exact ⟨_, rfl, rfl, gets 7, written, found [] _ rfl rfl⟩

end SQLess.Kayak.LevelDB
