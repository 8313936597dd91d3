import Mathlib.Algebra.Ring.Nat
import Mathlib.Data.List.Basic
import Mathlib.Tactic.Common

/-! The encrypted connection of `crypto/etls/conn.go` over a cipher that works byte by byte. -/

namespace SQLess.Etls

open List

abbrev Bytes := List UInt8

def ivLen : Nat := 16

abbrev IV := { iv : Bytes // iv.length = ivLen }

def magicBytes : Bytes := [0xC0, 0x4E]

structure Cipher (σ : Type) where
  newStream : Bytes → σ
  encrypt : σ → UInt8 → σ × UInt8
  decrypt : σ → UInt8 → σ × UInt8
  decrypt_encrypt : ∀ s x, decrypt s (encrypt s x).2 = ((encrypt s x).1, x)

variable {σ : Type}

def xorKeyStream (step : σ → UInt8 → σ × UInt8) : σ → Bytes → σ × Bytes
  | s, [] => (s, [])
  | s, x :: xs =>
    let (next, y) := step s x
    let (last, ys) := xorKeyStream step next xs
    (last, y :: ys)

variable (c : Cipher σ)

def writes (iv : IV) : Option σ → List Bytes → Bytes
  | _, [] => []
  | none, b :: bs =>
    let (s, header) := xorKeyStream c.encrypt (c.newStream iv) magicBytes
    let (next, sent) := xorKeyStream c.encrypt s b
    iv ++ header ++ sent ++ writes iv (some next) bs
  | some s, b :: bs =>
    let (next, sent) := xorKeyStream c.encrypt s b
    sent ++ writes iv (some next) bs

/-- What a `Read` of the underlying connection returns: up to `n` bytes, perhaps with an error. -/
structure Arrival where
  n : Nat
  err : Bool

def readFull (need : Nat) : List Arrival → Bytes → Option ((Bytes × Bool) × List Arrival × Bytes)
  | arrivals, wire =>
    if need = 0 then some (([], false), arrivals, wire)
    else match arrivals with
      | [] => none
      | a :: arrivals =>
        let got := wire.take (min need a.n)
        let left := wire.drop (min need a.n)
        if a.err then some ((got, got.length < need), arrivals, left)
        else (readFull (need - got.length) arrivals left).map fun r =>
          ((got ++ r.1.1, r.1.2), r.2)

structure CryptoConn (σ : Type) where
  wire : Bytes
  decStream : Option σ

def readData (s : σ) (wire : Bytes) (b : Bytes) : List Arrival → Option
    (CryptoConn σ × Bytes × Bool)
  | [] => none
  | a :: _ =>
    let got := wire.take (min b.length a.n)
    let left := wire.drop (min b.length a.n)
    -- with an error the buffer is returned as it was
    if a.err then some (⟨left, some s⟩, b.take got.length, true)
    else
      let (next, plain) := xorKeyStream c.decrypt s got
      some (⟨left, some next⟩, plain, false)

def CryptoConn.read (conn : CryptoConn σ) (b : Bytes) (arrivals : List Arrival) :
    Option (CryptoConn σ × Bytes × Bool) :=
  match conn.decStream with
  | some s => readData c s conn.wire b arrivals
  | none =>
    match readFull (ivLen + magicBytes.length) arrivals conn.wire with
    | none => none
    | some ((_, true), _, wire) => some (⟨wire, none⟩, [], true)
    | some ((buf, false), arrivals, wire) =>
      let (s, header) := xorKeyStream c.decrypt (c.newStream (buf.take ivLen)) (buf.drop ivLen)
      if header ≠ magicBytes then some (⟨wire, some s⟩, [], true)
      else readData c s wire b arrivals

def CryptoConn.reads (conn : CryptoConn σ) : List (Bytes × List Arrival) → CryptoConn σ × Bytes
  | [] => (conn, [])
  | (b, arrivals) :: calls =>
    match conn.read c b arrivals with
    | none => (conn, [])
    | some (next, reported, _) =>
      let (last, later) := next.reads calls
      (last, reported ++ later)

def arrived (arrivals : List Arrival) : Nat := ((arrivals.takeWhile (!·.err)).map (·.n)).sum

/-- No bytes come with an error, and no error after a part of the header. -/
structure Orderly (arrivals : List Arrival) : Prop where
  quiet : ∀ a ∈ arrivals, a.err = true → a.n = 0
  whole : arrivals.any (·.err) → arrived arrivals = 0 ∨ ivLen + magicBytes.length ≤ arrived arrivals

def afterHeader : List (Bytes × List Arrival) → List (Bytes × List Arrival)
  | [] => []
  | (_, arrivals) :: calls =>
    if ivLen + magicBytes.length ≤ arrived arrivals then calls.takeWhile (!·.2.isEmpty)
    else if arrivals.any (·.err) then afterHeader calls
    else []

def Takes (call : Bytes × List Arrival) : Prop :=
  call.1 ≠ [] ∧ ∃ a ∈ call.2.head?, 0 < a.n

variable {c}

lemma xorKeyStream_append (step : σ → UInt8 → σ × UInt8) (s : σ) (xs ys) :
    xorKeyStream step s (xs ++ ys) = let first := xorKeyStream step s xs
      let second := xorKeyStream step first.1 ys
      (second.1, first.2 ++ second.2) := by
  induction xs generalizing s with
  | nil => rfl
  | cons x xs ih => simp [xorKeyStream, ih]

lemma length_xorKeyStream (step : σ → UInt8 → σ × UInt8) (s : σ) (xs) :
    (xorKeyStream step s xs).2.length = xs.length := by
  induction xs generalizing s with
  | nil => rfl
  | cons x xs ih => simp [xorKeyStream, ih]

lemma writes_some (iv) (s : σ) (bs) :
    writes c iv (some s) bs = (xorKeyStream c.encrypt s bs.flatten).2 := by
  induction bs generalizing s with
  | nil => rfl
  | cons b bs ih => simp [writes, ih, xorKeyStream_append]

lemma take_encrypted (s : σ) (data : Bytes) (n : Nat) :
    let front := xorKeyStream c.encrypt s (data.take n)
    xorKeyStream c.decrypt s ((xorKeyStream c.encrypt s data).2.take n) = (front.1, data.take n) ∧
      (xorKeyStream c.encrypt s data).2.drop n =
        (xorKeyStream c.encrypt front.1 (data.drop n)).2 := by
  induction data generalizing s n with
  | nil => simp [xorKeyStream]
  | cons x data ih =>
    cases n with
    | zero => simp [xorKeyStream]
    | succ => simp [xorKeyStream, c.decrypt_encrypt, ih]

lemma readFull_spec (ran : readFull need arrivals wire = some ((buf, failed), rest, left)) :
    buf ++ left = wire ∧ (failed = false → buf.length = need) ∧ rest ⊆ arrivals := by
  induction arrivals generalizing need wire buf with
  | nil =>
    unfold readFull at ran
    grind
  | cons a arrivals ih =>
    unfold readFull at ran
    by_cases empty : need = 0
    · grind
    · by_cases err : a.err = true
      · simp only [empty, err, if_false, if_true, Option.some.injEq, Prod.mk.injEq] at ran
        obtain ⟨⟨rfl, rfl⟩, rfl, rfl⟩ := ran
        refine ⟨take_append_drop _ _, fun full => ?_, subset_cons_self _ _⟩
        have := of_decide_eq_false full
        simp only [length_take] at this ⊢
        omega
      · simp only [empty, err, if_false, Bool.false_eq_true] at ran
        obtain ⟨⟨⟨more, failed'⟩, rest', left'⟩, again, same⟩ := Option.map_eq_some_iff.1 ran
        cases same
        obtain ⟨whole, length, inside⟩ := ih again
        refine ⟨by rw [append_assoc, whole, take_append_drop], fun full => ?_,
          List.Subset.trans inside (subset_cons_self _ _)⟩
        have := length full
        simp only [length_append, length_take] at this ⊢
        omega

lemma readFull_ends (quiet : ∀ a ∈ arrivals, a.err = true → a.n = 0) (long : need ≤ wire.length) :
    match readFull need arrivals wire with
    | none => arrived arrivals < need ∧ arrivals.any (·.err) = false
    | some ((buf, true), _) => arrived arrivals < need ∧ arrivals.any (·.err) = true ∧
      buf.length = arrived arrivals
    | some ((_, false), _) => need ≤ arrived arrivals := by
  induction arrivals generalizing need wire with
  | nil =>
    unfold readFull
    by_cases empty : need = 0
    · simp [empty]
    · simp [empty, arrived, Nat.pos_of_ne_zero empty]
  | cons a arrivals ih =>
    unfold readFull
    by_cases empty : need = 0
    · simp [empty]
    · by_cases err : a.err = true
      · simp [empty, err, quiet a (by simp) err, arrived, Nat.pos_of_ne_zero empty]
      · have got : (wire.take (min need a.n)).length = min need a.n := by
          rw [length_take]
          omega
        have rest := @ih (need - min need a.n) (wire.drop (min need a.n))
          (fun a' mem => quiet a' (by simp [mem])) (by rw [length_drop]; omega)
        have total : arrived (a :: arrivals) = a.n + arrived arrivals := by simp [arrived, err]
        simp only [empty, err, if_false, Bool.false_eq_true, got, any_cons, Bool.false_or, total]
        rcases filled : readFull (need - min need a.n) arrivals (wire.drop (min need a.n)) with
          _ | ⟨⟨buf, _ | _⟩, rest', left⟩
        · rw [filled] at rest
          exact ⟨by omega, rest.2⟩
        · rw [filled] at rest
          change need - min need a.n ≤ arrived arrivals at rest
          change need ≤ a.n + arrived arrivals
          omega
        · rw [filled] at rest
          obtain ⟨fewer, some, length⟩ := rest
          refine ⟨by omega, some, ?_⟩
          rw [length_append, got, length]
          omega

lemma readData_spec {s data b reported arrivals err next}
    (ran : readData c s (xorKeyStream c.encrypt s data).2 b arrivals = some (next, reported, err))
    (quiet : ∀ a ∈ arrivals, a.err = true → a.n = 0) :
    ∃ s' later, next = ⟨(xorKeyStream c.encrypt s' later).2, some s'⟩ ∧ reported ++ later = data :=
      by
  cases arrivals with
  | nil => simp [readData] at ran
  | cons a =>
    obtain ⟨plain, left⟩ := take_encrypted (c := c) s data (min b.length a.n)
    by_cases failed : a.err = true
    · simp only [readData, failed, if_true, Option.some.injEq, Prod.mk.injEq] at ran
      obtain ⟨rfl, rfl, rfl⟩ := ran
      refine ⟨s, data, ?_, ?_⟩
      · simp [quiet a (by simp) failed]
      · simp [quiet a (by simp) failed]
    · simp only [readData, failed, Bool.false_eq_true, if_false, plain, left, Option.some.injEq,
        Prod.mk.injEq] at ran
      obtain ⟨rfl, rfl, -⟩ := ran
      exact ⟨_, _, rfl, take_append_drop _ _⟩

lemma writes_none (iv b bs) : writes c iv none (b :: bs) =
      iv ++ (xorKeyStream c.encrypt (c.newStream iv) (magicBytes ++ (b :: bs).flatten)).2 := by
  simp [writes, writes_some, xorKeyStream_append]

lemma header_fits (c : Cipher σ) (iv b bs) :
    ivLen + magicBytes.length ≤ (writes c iv none (b :: bs)).length := by
  rw [writes_none, length_append, iv.2, length_xorKeyStream, length_append]
  omega

def header (c : Cipher σ) (wire : Bytes) : σ × Bytes :=
  xorKeyStream c.decrypt (c.newStream (wire.take ivLen)) ((wire.drop ivLen).take magicBytes.length)

lemma header_append (left) (length : buf.length = ivLen + magicBytes.length) :
    xorKeyStream c.decrypt (c.newStream (buf.take ivLen)) (buf.drop ivLen) =
      header c (buf ++ left) := by
  have more : ivLen ≤ buf.length := by omega
  rw [header, take_append_of_le_length more, drop_append_of_le_length more,
    take_append_of_le_length (by simp [length])]
  congr 1
  exact (take_of_length_le (by simp [length])).symm

inductive Ahead (c : Cipher σ) (iv : IV) (bs : List Bytes) : CryptoConn σ → Bytes → Prop where
  | fresh : Ahead c iv bs ⟨writes c iv none bs, none⟩ bs.flatten
  | stream (s : σ) (data : Bytes) :
      Ahead c iv bs ⟨(xorKeyStream c.encrypt s data).2, some s⟩ data

lemma Ahead.read {iv bs conn next data b reported arrivals err} (ahead : Ahead c iv bs conn data)
    (ran : conn.read c b arrivals = some (next, reported, err)) (orderly : Orderly arrivals) :
    ∃ later, reported ++ later = data ∧ Ahead c iv bs next later := by
  cases ahead with
  | stream =>
    obtain ⟨s', later, rfl, whole⟩ := readData_spec ran orderly.quiet
    exact ⟨later, whole, .stream s' later⟩
  | fresh =>
    simp only [CryptoConn.read] at ran
    rcases filled : readFull (ivLen + magicBytes.length) arrivals (writes c iv none bs) with
      _ | ⟨⟨buf, failed⟩, rest, left⟩
    · simp [filled] at ran
    obtain ⟨parts, length, inside⟩ := readFull_spec filled
    cases failed with
    | true =>
      simp only [filled, Option.some.injEq, Prod.mk.injEq] at ran
      obtain ⟨rfl, rfl, -⟩ := ran
      have nothing : buf = [] := by
        cases bs with
        | nil => exact (append_eq_nil_iff.mp parts).1
        | cons first bs =>
          have ends := readFull_ends orderly.quiet (header_fits c iv first bs)
          rw [filled] at ends
          obtain ⟨fewer, some, taken⟩ := ends
          exact length_eq_zero_iff.mp (taken.trans ((orderly.whole some).resolve_right (by omega)))
      rw [nothing, nil_append] at parts
      exact ⟨_, rfl, parts ▸ .fresh⟩
    | false =>
      have length := length rfl
      cases bs with
      | nil =>
        have := congrArg List.length parts
        simp [writes, length, ivLen] at this
      | cons first bs =>
        rw [writes_none] at parts
        obtain ⟨plain, stream⟩ := take_encrypted (c := c) (c.newStream iv)
          (magicBytes ++ (first :: bs).flatten) magicBytes.length
        rw [take_left] at plain
        rw [take_left, drop_left] at stream
        have checked : header c (buf ++ left) =
            ((xorKeyStream c.encrypt (c.newStream iv) magicBytes).1, magicBytes) := by
          rw [parts, header, take_left' iv.2, drop_left' iv.2, plain]
        have skipped : (buf ++ left).drop (ivLen + magicBytes.length) = left :=
          drop_left' length
        rw [parts, ← drop_drop, drop_left' iv.2, stream] at skipped
        simp only [filled, header_append left length, checked, ne_eq, not_true_eq_false,
          if_false] at ran
        rw [← skipped] at ran
        obtain ⟨s', later, rfl, whole⟩ :=
          readData_spec ran fun a mem => orderly.quiet a (inside mem)
        exact ⟨later, whole, .stream s' later⟩

lemma Ahead.reads (ahead : Ahead c iv bs conn data)
    (orderly : ∀ call ∈ calls, Orderly call.2) : (conn.reads c calls).2 <+: data := by
  induction calls generalizing conn data with
  | nil => exact nil_prefix
  | cons call calls ih =>
    obtain ⟨b, arrivals⟩ := call
    rw [CryptoConn.reads]
    rcases ran : conn.read c b arrivals with _ | ⟨next, reported, err⟩
    · exact nil_prefix
    · obtain ⟨later, rfl, onward⟩ := ahead.read ran (orderly _ (mem_cons_self ..))
      exact (prefix_append_right_inj reported).2
        (ih onward fun call mem => orderly call (mem_cons_of_mem _ mem))

lemma reads_eq_nil_iff (calls) (s : σ) (wire) (orderly : ∀ call ∈ calls, Orderly call.2) :
    (CryptoConn.reads c ⟨wire, some s⟩ calls).2 = [] ↔
      wire = [] ∨ ∀ call ∈ calls.takeWhile (!·.2.isEmpty), ¬Takes call := by
  induction calls generalizing s wire with
  | nil => simp [CryptoConn.reads]
  | cons call calls ih =>
    obtain ⟨b, _ | ⟨a, arrivals⟩⟩ := call
    · simp [CryptoConn.reads, CryptoConn.read, readData]
    · have rest := fun s wire => ih s wire fun call mem => orderly call (mem_cons_of_mem _ mem)
      have quiet := (orderly (b, a :: arrivals) (mem_cons_self ..)).quiet a (mem_cons_self ..)
      by_cases failed : a.err = true
      · simp [CryptoConn.reads, CryptoConn.read, readData, failed, quiet failed, Takes, rest]
      · have takes : Takes (b, a :: arrivals) ↔ min b.length a.n ≠ 0 := by
          simp only [Takes, head?_cons, Option.mem_some, exists_eq_left', ne_eq,
            ← length_eq_zero_iff]
          omega
        simp only [CryptoConn.reads, CryptoConn.read, readData, failed, Bool.false_eq_true,
          if_false]
        rw [append_eq_nil_iff, rest, ← length_eq_zero_iff, length_xorKeyStream, length_take,
          takeWhile_cons_of_pos (by rfl), forall_mem_cons, takes, drop_eq_nil_iff,
          ← length_eq_zero_iff]
        by_cases nothing : min b.length a.n = 0
        · simp [nothing]
        · simp only [nothing, ne_eq, not_false_iff, not_true, false_and, or_false]
          omega

lemma bad_reads (long : ivLen + magicBytes.length ≤ wire.length)
    (bad : (header c wire).2 ≠ magicBytes) (orderly : ∀ call ∈ calls, Orderly call.2) :
    (CryptoConn.reads c ⟨wire, none⟩ calls).2 = [] ↔
      wire.length = ivLen + magicBytes.length ∨ ∀ call ∈ afterHeader calls, ¬Takes call := by
  induction calls with
  | nil => simp [CryptoConn.reads, afterHeader]
  | cons call calls ih =>
    obtain ⟨b, arrivals⟩ := call
    have rest : ∀ call ∈ calls, Orderly call.2 := fun call mem =>
      orderly call (mem_cons_of_mem _ mem)
    have first := orderly _ (mem_cons_self ..)
    have ends := readFull_ends first.quiet long
    rw [CryptoConn.reads, CryptoConn.read, afterHeader]
    rcases filled : readFull (ivLen + magicBytes.length) arrivals wire with
      _ | ⟨⟨buf, _ | _⟩, rest', left⟩
    · rw [filled] at ends
      rw [if_neg (Nat.not_le.mpr ends.1), if_neg (by simp [ends.2])]
      simp
    · obtain ⟨parts, length, -⟩ := readFull_spec filled
      rw [filled] at ends
      rw [← parts] at bad
      simp only [header_append left (length rfl), bad, ne_eq, not_false_iff, if_true, nil_append,
        reads_eq_nil_iff calls _ _ rest, if_pos (show ivLen + magicBytes.length ≤ _ from ends)]
      rw [← parts, length_append, length rfl, ← length_eq_zero_iff]
      simp
    · obtain ⟨parts, -, -⟩ := readFull_spec filled
      rw [filled] at ends
      obtain ⟨fewer, some, taken⟩ := ends
      have nothing : buf = [] :=
        length_eq_zero_iff.mp (taken.trans ((first.whole some).resolve_right (by omega)))
      rw [nothing, nil_append] at parts
      rw [if_neg (Nat.not_le.mpr fewer), if_pos some]
      simp only [nil_append, parts]
      exact ih rest

def shift : Cipher Unit where
  newStream _ := ()
  encrypt _ x := ((), x + 1)
  decrypt _ x := ((), x - 1)
  decrypt_encrypt _ x := by simp

end SQLess.Etls
