import Mathlib.Data.List.Basic
import Mathlib.Tactic.Common

/-! Data in the addresses of numbered host names, of `route/ipv6.go`. -/

namespace SQLess.Route

open List

abbrev Bytes := List UInt8

inductive Err where
  | notMultiple
  | emptyIPList
  | unexpectedIP (ip : Bytes)
  | lookup (text : String)

def toIPv6 (input : Bytes) : Except Err (List Bytes) :=
  if input.length % 16 ≠ 0 then .error .notMultiple
  else .ok ((range (input.length / 16)).map fun i => (input.drop (i * 16)).take 16)

def fromIPv6 (ips : List Bytes) : Bytes := ips.flatMap fun ip => (ip ++ replicate 16 0).take 16

abbrev Answers := Nat → Except String (List Bytes)

def hostName (index : Nat) (domain : String) : String :=
  (if index < 10 then "0" else "") ++ toString index ++ "." ++ domain

namespace Answers

variable (a : Answers)

def found (index : Nat) : Bool := (a index).isOk

def firstAddress (index : Nat) : Except Err Bytes :=
  match a index with
  | .ok (ip :: _) => if ip.length = 16 then .ok ip else .error (.unexpectedIP ip)
  | _ => .error .emptyIPList

def addressOf (index : Nat) : Bytes := (a.firstAddress index).toOption.getD []

def Taken (index : Nat) : Prop := a.firstAddress index = .ok (a.addressOf index)

def successCount (i : Nat) : Nat := (range' (i * 5) 5).countP a.found

/-- The loop over the groups from the group `i` on; `none` if it goes on after `fuel` groups. -/
def groupsFrom : Nat → Nat → List Bytes → Option (Except Err Bytes)
  | 0, _, _ => none
  | fuel + 1, i, allIPv6 =>
    match (range' (i * 5) (a.successCount i)).mapM a.firstAddress with
    | .error err => some (.error err)
    | .ok ips =>
      let allIPv6 := allIPv6 ++ ips
      if allIPv6 = [] then
        match a 0 with
        | .error err => some (.error (.lookup err))
        | .ok _ => some (.ok [])
      else if a.successCount i < 5 then some (.ok (fromIPv6 allIPv6))
      else groupsFrom fuel (i + 1) allIPv6

end Answers

def answers (f : String → Except String (List Bytes)) (domain : String) : Answers :=
  fun index => f (hostName index domain)

def fromDomain (f : String → Except String (List Bytes)) (domain : String) (fuel : Nat) :
    Option (Except Err Bytes) :=
  (answers f domain).groupsFrom fuel 0 []

namespace Answers

variable {a : Answers} {i k : Nat}

lemma Taken.answer (taken : a.Taken n) : (a.addressOf n).length = 16 ∧
    ∃ rest, a n = .ok (a.addressOf n :: rest) := by
  unfold Taken firstAddress at taken
  grind

lemma Taken.found (taken : a.Taken n) : a.found n = true := by
  obtain ⟨-, rest, answer⟩ := taken.answer
  rw [Answers.found, answer]
  rfl

lemma mapM_firstAddress {ns : List Nat} (ips) :
    ns.mapM a.firstAddress = .ok ips ↔ (∀ n ∈ ns, a.Taken n) ∧ ips = ns.map a.addressOf := by
  induction ns generalizing ips with
  | nil => simp [pure, Except.pure, eq_comm]
  | cons n ns ih =>
    rw [mapM_cons, forall_mem_cons, map_cons]
    cases here : a.firstAddress n with
    | error => simp [Taken, here, bind, Except.bind]
    | ok ip =>
      have same : a.addressOf n = ip := by simp [addressOf, here, Except.toOption]
      cases rest : ns.mapM a.firstAddress with
      | error =>
        have none := fun all => (ih (ns.map a.addressOf)).mpr ⟨all, rfl⟩
        simp only [rest, reduceCtorEq, imp_false] at none
        simp [bind, Except.bind, none]
      | ok =>
        obtain ⟨all, rfl⟩ := (ih _).mp rest
        have own : a.Taken n := by rw [Taken, here, same]
        rw [and_iff_right ⟨own, all⟩, same]
        simp [bind, Except.bind, pure, Except.pure, eq_comm]

lemma fromIPv6_map {ns : List Nat} (taken : ∀ n ∈ ns, a.Taken n) :
    fromIPv6 (ns.map a.addressOf) = ns.flatMap a.addressOf := by
  rw [fromIPv6, flatMap_map]
  refine flatMap_congr fun n member => ?_
  have size := (taken n member).answer.1
  rw [take_append_of_le_length (by omega), take_of_length_le (by omega)]

lemma successCount_le (a : Answers) (i) : a.successCount i ≤ 5 := by
  rw [successCount]
  simpa using countP_le_length (p := a.found) (l := range' (i * 5) 5)

lemma group_split (small : c ≤ 5) :
    range' (i * 5) c ++ range' (i * 5 + c) (5 - c) = range' (i * 5) 5 := by
  rw [range'_append_1, Nat.add_sub_cancel' small]

lemma others_fail (taken : ∀ n ∈ range' (i * 5) (a.successCount i), a.Taken n) :
    ∀ n ∈ range' (i * 5 + a.successCount i) (5 - a.successCount i), a.found n = false := by
  have parts : (range' (i * 5) (a.successCount i) ++
      range' (i * 5 + a.successCount i) (5 - a.successCount i)).countP a.found =
        a.successCount i := by
    rw [group_split (successCount_le a i)]
    rfl
  rw [countP_append, countP_eq_length.mpr fun n member => (taken n member).found,
    length_range'] at parts
  have none := countP_eq_zero.mp (Nat.add_eq_left.mp parts)
  exact fun n member => by simpa using none n member

lemma range_join (s c) : range s ++ range' s c = range (s + c) := by
  rw [range_eq_range', range_eq_range', ← range'_append_1, Nat.zero_add]

lemma groupsFrom_ok (before : ∀ n < i * 5, a.Taken n)
    (ran : a.groupsFrom fuel i ((range (i * 5)).map a.addressOf) = some (.ok out)) :
    ∃ k, 1 ≤ k ∧ (∀ m, k ≤ m → m / 5 = k / 5 → a.found m = false) ∧
      (∀ n < k, a.Taken n) ∧ out = (range k).flatMap a.addressOf := by
  induction fuel generalizing i with
  | zero => cases ran
  | succ fuel ih =>
    rw [groupsFrom] at ran
    cases collected : (range' (i * 5) (a.successCount i)).mapM a.firstAddress with
    | error => simp [collected] at ran
    | ok =>
      obtain ⟨taken, rfl⟩ := (mapM_firstAddress _).mp collected
      have most := successCount_le a i
      have all : ∀ n < i * 5 + a.successCount i, a.Taken n := by
        intro n below
        by_cases earlier : n < i * 5
        · exact before n earlier
        · exact taken n (mem_range'_1.mpr ⟨by omega, below⟩)
      simp only [collected, ← map_append, range_join] at ran
      split at ran
      · rename_i none
        have empty : i * 5 + a.successCount i = 0 := by simpa using none
        have zero : a.found 0 = false := others_fail taken 0 (mem_range'_1.mpr (by omega))
        unfold found at zero
        cases answer : a 0 <;> simp_all [Except.isOk, Except.toBool]
      · rename_i some
        split at ran
        · refine ⟨i * 5 + a.successCount i, ?_, ?_, all, ?_⟩
          · by_contra zero
            exact some (by simp; omega)
          · exact fun m above same => others_fail taken m (mem_range'_1.mpr (by omega))
          · cases ran
            exact fromIPv6_map fun n member => all n (mem_range.mp member)
        · rw [show i * 5 + a.successCount i = (i + 1) * 5 by omega] at ran all
          exact ih all ran

lemma successCount_eq (small : c ≤ 5) (first : ∀ n, i * 5 ≤ n → n < i * 5 + c → a.found n = true)
    (rest : ∀ n, i * 5 + c ≤ n → n < i * 5 + 5 → a.found n = false) : a.successCount i = c := by
  have all : (range' (i * 5) c).countP a.found = c := by
    rw [countP_eq_length.mpr fun n member => first n (mem_range'_1.mp member).1
      (mem_range'_1.mp member).2, length_range']
  have none : (range' (i * 5 + c) (5 - c)).countP a.found = 0 := by
    refine countP_eq_zero.mpr fun n member => ?_
    have inside := mem_range'_1.mp member
    simp [rest n inside.1 (by omega)]
  rw [successCount, ← group_split small, countP_append, all, none, Nat.add_zero]

lemma groupsFrom_some (all) (fails : a.found k = false)
    (start : i ≤ k / 5) (reached : k / 5 < i + fuel) :
    ∃ result, a.groupsFrom fuel i all = some result := by
  induction fuel generalizing i all with
  | zero => omega
  | succ fuel ih =>
    rw [groupsFrom]
    split
    · exact ⟨_, rfl⟩
    · simp only
      split
      · split <;> exact ⟨_, rfl⟩
      · split
        · exact ⟨_, rfl⟩
        · rename_i full
          refine ih _ ?_ (by omega)
          by_contra last
          have whole : a.successCount i = (range' (i * 5) 5).length := by
            have := successCount_le a i
            rw [length_range']
            omega
          have answered := countP_eq_length.mp whole k (mem_range'_1.mpr (by omega))
          rw [fails] at answered
          cases answered

lemma groupsFrom_complete (fuel) (positive : 1 ≤ k)
    (fails : ∀ m, k ≤ m → m / 5 = k / 5 → a.found m = false)
    (taken : ∀ n < k, a.Taken n) (start : i ≤ k / 5) (reached : k / 5 < i + fuel) :
    a.groupsFrom fuel i ((range (i * 5)).map a.addressOf) =
      some (.ok ((range k).flatMap a.addressOf)) := by
  induction fuel generalizing i with
  | zero => omega
  | succ fuel ih =>
    have count : a.successCount i = min 5 (k - i * 5) :=
      successCount_eq (by omega) (fun n _ below => (taken n (by omega)).found)
        fun n above below => fails n (by omega) (by omega)
    have collected : (range' (i * 5) (a.successCount i)).mapM a.firstAddress = _ :=
      (mapM_firstAddress _).mpr
        ⟨fun n member => taken n (by have := mem_range'_1.mp member; omega), rfl⟩
    rw [groupsFrom, collected]
    simp only [← map_append, range_join]
    rw [if_neg (by simp; omega)]
    by_cases last : k / 5 = i
    · rw [if_pos (by omega), show i * 5 + a.successCount i = k by omega,
        fromIPv6_map fun n member => taken n (mem_range.mp member)]
    · rw [if_neg (by omega), show i * 5 + a.successCount i = (i + 1) * 5 by omega]
      exact ih (by omega) (by omega)

lemma groupsFrom_hole (fails : a.found k = false) (least : ∀ n < k, a.found n = true)
    (later : k < m) (group : m / 5 = k / 5) (answered : a.found m = true)
    (enough : k / 5 < fuel) : ∃ err, a.groupsFrom fuel 0 [] = some (.error err) := by
  obtain ⟨result, ran⟩ := groupsFrom_some [] fails (Nat.zero_le _) (by omega : k / 5 < 0 + fuel)
  cases result with
  | error err => exact ⟨err, ran⟩
  | ok =>
    obtain ⟨k', -, fails', taken, -⟩ := groupsFrom_ok (i := 0) (by simp) ran
    have same : k' = k := by
      by_contra differs
      rcases Nat.lt_or_gt_of_ne differs with below | above
      · exact absurd (fails' k' (Nat.le_refl k') rfl) (by simp [least k' below])
      · exact absurd (taken k above).found (by simp [fails])
    subst same
    exact absurd (fails' m (Nat.le_of_lt later) group) (by simp [answered])

lemma flatMap_chunks (bytes : Bytes) (n) :
    ((range n).flatMap fun i => (bytes.drop (i * 16)).take 16) = bytes.take (n * 16) := by
  induction n with
  | zero => simp
  | succ n ih => rw [range_succ, flatMap_append, ih, flatMap_singleton, Nat.succ_mul, take_add]

lemma groupsFrom_published (size : bytes.length = k * 16)
    (positive : 1 ≤ k) (published : ∀ n < k, a n = .ok [(bytes.drop (n * 16)).take 16])
    (absent : ∀ n, k ≤ n → a.found n = false) (enough : k / 5 < fuel) :
    a.groupsFrom fuel 0 [] = some (.ok bytes) := by
  have taken : ∀ n < k, a.firstAddress n = .ok ((bytes.drop (n * 16)).take 16) := by
    intro n below
    simp only [firstAddress, published n below]
    exact if_pos (by rw [length_take, length_drop]; omega)
  have same : ∀ n < k, a.addressOf n = (bytes.drop (n * 16)).take 16 := by
    intro n below
    simp [addressOf, taken n below, Except.toOption]
  have read := groupsFrom_complete (i := 0) fuel positive (fun m above _ => absent m above)
    (fun n below => by rw [Taken, taken n below, same n below]) (Nat.zero_le _) (by omega)
  rwa [flatMap_congr fun n member => same n (mem_range.mp member), flatMap_chunks,
    take_of_length_le (by omega)] at read

end Answers

/-- What is read is what was published, without holes. -/
theorem seed_data_exact (f : String → Except String (List Bytes)) (domain : String) :
    let a := answers f domain
    (∀ fuel out, fromDomain f domain fuel = some (.ok out) → ∃ k, 1 ≤ k ∧ a.found k = false ∧
      (∀ n < k, (a.addressOf n).length = 16 ∧
        ∃ rest, f (hostName n domain) = .ok (a.addressOf n :: rest)) ∧
      out = (range k).flatMap a.addressOf) ∧
    (∀ k m, a.found k = false → (∀ n < k, a.found n = true) → k < m → m / 5 = k / 5 →
      a.found m = true → ∀ fuel, k / 5 < fuel →
        ∃ err, fromDomain f domain fuel = some (.error err)) ∧
    ∀ bytes, bytes ≠ [] → bytes.length % 16 = 0 → ∃ ips, toIPv6 bytes = .ok ips ∧
      ((∀ n ip, ips[n]? = some ip → f (hostName n domain) = .ok [ip]) →
        (∀ n, ips.length ≤ n → a.found n = false) →
          ∀ fuel, ips.length / 5 < fuel → fromDomain f domain fuel = some (.ok bytes)) := by
  intro a
  refine ⟨fun fuel out ran => ?_, fun k m fails least later group answered fuel enough => ?_,
    fun bytes some whole => ?_⟩
  · obtain ⟨k, positive, fails, taken, rfl⟩ := Answers.groupsFrom_ok (i := 0) (by simp) ran
    exact ⟨k, positive, fails k (Nat.le_refl k) rfl, fun n below => (taken n below).answer, rfl⟩
  · exact Answers.groupsFrom_hole fails least later group answered enough
  · refine ⟨_, if_neg (by simpa using whole), fun published absent fuel enough => ?_⟩
    rw [length_map, length_range] at absent enough
    have positive : 0 < bytes.length := length_pos_iff.mpr some
    refine Answers.groupsFrom_published (by omega) (by omega) (fun n below => ?_) absent enough
    exact published n _ (by rw [getElem?_map, getElem?_range below]; rfl)

def Sample.lookup (hosts : List String) (host : String) : Except String (List Bytes) :=
  if host ∈ hosts then .ok [replicate 16 1] else .error "no such host"

open Sample in
theorem seed_data_exact_hole :
    (∃ k, 1 ≤ k ∧ (answers (lookup ["00.d"]) "d").found k = false ∧
      replicate 16 1 = (range k).flatMap (answers (lookup ["00.d"]) "d").addressOf) ∧
    ∃ err, fromDomain (lookup ["00.d", "02.d"]) "d" 1 = some (.error err) := by
  obtain ⟨k, positive, fails, -, out⟩ :=
    (seed_data_exact (lookup ["00.d"]) "d").1 1 (replicate 16 1) (by rfl)
  exact ⟨⟨k, positive, fails, out⟩, (seed_data_exact (lookup ["00.d", "02.d"]) "d").2.1 1 2
    (by decide) (by decide) (by decide) (by decide) (by decide) 1 (by decide)⟩

end SQLess.Route
