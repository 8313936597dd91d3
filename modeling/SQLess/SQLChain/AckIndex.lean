import Mathlib.Data.BitVec
import Mathlib.Tactic.Ring
import SQLess.SQLChain.AckIndexCore

/-! The index of acknowledgements keeps its two maps apart and counts them. -/

namespace SQLess.SQLChain

open List MultiAckIndex

open Lib (FiniteMap)
open SQLess.Types

namespace MultiAckIndex

def respCard (mi : MultiAckIndex) : Nat := mi.respIndex.keys.card

def ackCard (mi : MultiAckIndex) : Nat := mi.ackIndex.keys.card

def Disjoint (mi : MultiAckIndex) : Prop :=
  ∀ key, mi.respIndex.get key = none ∨ mi.ackIndex.get key = none

structure Balanced (mi : MultiAckIndex) (change : Change) : Prop where
  disjoint : change.mi.Disjoint
  responses : (change.mi.respCard : BitVec 32) = (mi.respCard : BitVec 32) + change.responses
  acks : (change.mi.ackCard : BitVec 32) = (mi.ackCard : BitVec 32) + change.acks

lemma Balanced.idle (disjoint : mi.Disjoint) (result) : Balanced mi ⟨mi, 0, 0, result⟩ :=
  ⟨disjoint, (add_zero _).symm, (add_zero _).symm⟩

lemma card_erase_word {map : FiniteMap QueryKey V} (found : map.get key = some value) :
    ((map.erase key).keys.card : BitVec 32) = (map.keys.card : BitVec 32) + -1 := by
  have card := congrArg (Nat.cast : Nat → BitVec 32) (FiniteMap.card_erase found)
  rw [Nat.cast_add, Nat.cast_one] at card
  rw [← card]
  ring

lemma card_insert_word {map : FiniteMap QueryKey V} (value) (absent : map.get key = none) :
    ((map.insert key value).keys.card : BitVec 32) = (map.keys.card : BitVec 32) + 1 := by
  rw [FiniteMap.card_insert value absent, Nat.cast_add, Nat.cast_one]

variable {mi : MultiAckIndex}

lemma addResponse_cases (resp mi) : (∃ result, addResponse resp mi = ⟨mi, 0, 0, result⟩) ∨
      (mi.respIndex.get resp.header.request.getQueryKey = none ∧ addResponse resp mi = ⟨{ mi with
          respIndex := mi.respIndex.insert resp.header.request.getQueryKey resp }, 1, 0, .ok ()⟩) :=
            by
  simp only [addResponse]
  cases found : mi.respIndex.get resp.header.request.getQueryKey with
  | none => exact .inr ⟨rfl, rfl⟩
  | some oresp =>
    left
    by_cases other : oresp.responseHash ≠ resp.responseHash
    · exact ⟨_, if_pos other⟩
    · exact ⟨_, if_neg other⟩

lemma register_cases (ack mi) : (∃ err, register ack mi = ⟨mi, 0, 0, .error err⟩) ∨
      ∃ resp result, mi.respIndex.get ack.header.getQueryKey = some resp ∧
        register ack mi = ⟨⟨mi.respIndex.erase ack.header.getQueryKey,
          mi.ackIndex.insert ack.header.getQueryKey ack⟩, -1, 1, result⟩ ∧
        (resp.responseHash = ack.header.responseHash → result = .ok ()) := by
  simp only [register]
  cases found : mi.respIndex.get ack.header.getQueryKey with
  | none => exact .inl ⟨_, rfl⟩
  | some resp =>
    refine .inr ⟨resp, _, rfl, rfl, ?_⟩
    intro same
    rw [if_neg (not_not.mpr same)]

lemma remove_cases (ack mi) :
    (∃ resp, mi.respIndex.get ack.header.getQueryKey = some resp ∧ remove ack mi =
        ⟨{ mi with respIndex := mi.respIndex.erase ack.header.getQueryKey }, -1, 0, .ok ()⟩) ∨
    (mi.respIndex.get ack.header.getQueryKey = none ∧
      ((∃ oack, mi.ackIndex.get ack.header.getQueryKey = some oack ∧ oack.hash = ack.hash ∧
        remove ack mi =
          ⟨{ mi with ackIndex := mi.ackIndex.erase ack.header.getQueryKey }, 0, -1, .ok ()⟩) ∨
      ((∀ oack, mi.ackIndex.get ack.header.getQueryKey = some oack → oack.hash ≠ ack.hash) ∧
        ∃ err, remove ack mi = ⟨mi, 0, 0, .error err⟩))) := by
  simp only [remove]
  cases found : mi.respIndex.get ack.header.getQueryKey with
  | some resp => exact .inl ⟨resp, rfl, rfl⟩
  | none =>
    refine .inr ⟨rfl, ?_⟩
    cases acked : mi.ackIndex.get ack.header.getQueryKey with
    | none => exact .inr ⟨by simp, _, rfl⟩
    | some oack =>
      by_cases other : oack.hash = ack.hash
      · exact .inl ⟨oack, rfl, other, if_neg (not_not.mpr other)⟩
      · refine .inr ⟨?_, _, if_pos other⟩
        rintro _ ⟨⟩
        exact other

lemma addResponse_balanced (disjoint : mi.Disjoint)
    (unacked : mi.ackIndex.get resp.header.request.getQueryKey = none) :
    Balanced mi (addResponse resp mi) := by
  rcases addResponse_cases resp mi with ⟨result, idle⟩ | ⟨absent, added⟩
  · rw [idle]
    exact .idle disjoint result
  · rw [added]
    refine ⟨?_, card_insert_word resp absent, (add_zero _).symm⟩
    intro key
    by_cases same : key = resp.header.request.getQueryKey
    · exact .inr (same ▸ unacked)
    · simpa [same] using disjoint key

lemma register_balanced (disjoint : mi.Disjoint) (ack) : Balanced mi (register ack mi) := by
  rcases register_cases ack mi with ⟨err, idle⟩ | ⟨resp, result, found, moved, -⟩
  · rw [idle]
    exact .idle disjoint _
  · have absent : mi.ackIndex.get ack.header.getQueryKey = none := by
      rcases disjoint ack.header.getQueryKey with none | none
      · simp [found] at none
      · exact none
    rw [moved]
    refine ⟨?_, card_erase_word found, card_insert_word ack absent⟩
    intro key
    by_cases same : key = ack.header.getQueryKey
    · simp [same]
    · simpa [same] using disjoint key

lemma remove_balanced (disjoint : mi.Disjoint) (ack) : Balanced mi (remove ack mi) := by
  rcases remove_cases ack mi with
    ⟨resp, found, removed⟩ | ⟨-, ⟨oack, found, -, removed⟩ | ⟨-, err, idle⟩⟩
  · rw [removed]
    refine ⟨?_, card_erase_word found, (add_zero _).symm⟩
    intro key
    by_cases same : key = ack.header.getQueryKey
    · simp [same]
    · simpa [same] using disjoint key
  · rw [removed]
    refine ⟨?_, (add_zero _).symm, card_erase_word found⟩
    intro key
    by_cases same : key = ack.header.getQueryKey
    · simp [same]
    · simpa [same] using disjoint key
  · rw [idle]
    exact .idle disjoint _

end MultiAckIndex

namespace AckIndex

variable (i : AckIndex)

def multi (h : Int) : MultiAckIndex := (i.hi.get h).getD ⟨∅, ∅⟩

def respAt (h : Int) (key : QueryKey) : Option SignedResponseHeader :=
  (i.multi h).respIndex.get key

def ackAt (h : Int) (key : QueryKey) : Option SignedAckHeader :=
  (i.multi h).ackIndex.get key

def total (size : MultiAckIndex → Nat) : Nat := i.hi.sum size

structure Sound (i : AckIndex) : Prop where
  disjoint : ∀ h, (i.multi h).Disjoint
  responses : i.responseCount = (i.total MultiAckIndex.respCard : BitVec 32)
  acks : i.ackCount = (i.total MultiAckIndex.ackCard : BitVec 32)
  barrier : ∀ h < i.barrier, i.hi.get h = none

structure Same (i i' : AckIndex) : Prop where
  multi : ∀ h, i'.multi h = i.multi h
  barrier : i'.barrier = i.barrier
  responses : i'.responseCount = i.responseCount
  acks : i'.ackCount = i.ackCount

lemma Same.refl : Same i i := ⟨fun _ => rfl, rfl, rfl, rfl⟩

lemma Same.trans {i i' i''} (first : Same i i') (second : Same i' i'') : Same i i'' :=
  ⟨fun h => (second.multi h).trans (first.multi h), second.barrier.trans first.barrier,
    second.responses.trans first.responses, second.acks.trans first.acks⟩

lemma newAckIndex_sound : newAckIndex.Sound := by
  refine ⟨fun h key => .inl rfl, rfl, rfl, fun h _ => rfl⟩

section

variable {i i' : AckIndex} {h : Int}

lemma load_expired (expired : h < i.barrier) :
    i.load h = (i, .error (.wrapped (.loadingIndex h i.barrier) .queryExpired)) := by
  rw [load, if_pos expired]

lemma load_live (live : ¬h < i.barrier) :
    ∃ i', i.load h = (i', .ok (i.multi h)) ∧ Same i i' ∧ i'.hi = i.hi.insert h (i.multi h) := by
  rw [load, if_neg live]
  cases found : i.hi.get h with
  | some mi =>
    have here : i.multi h = mi := by rw [multi, found]; rfl
    exact ⟨i, by rw [here], .refl i, by rw [here, FiniteMap.insert_of_get found]⟩
  | none =>
    have here : i.multi h = ⟨∅, ∅⟩ := by rw [multi, found]; rfl
    refine ⟨{ i with hi := i.hi.insert h ⟨∅, ∅⟩, multiIndexCount := i.multiIndexCount + 1 },
      by rw [here], ⟨?_, rfl, rfl, rfl⟩, by rw [here]⟩
    intro x
    by_cases same : x = h
    · simp [multi, same, found]
    · simp [multi, same]

lemma total_insert (hi : FiniteMap Int MultiAckIndex) (h mi size) (none : size ⟨∅, ∅⟩ = 0) :
    (hi.insert h mi).sum size + size ((hi.get h).getD ⟨∅, ∅⟩) = hi.sum size + size mi := by
  have sums := hi.sum_insert size h mi
  cases found : hi.get h with
  | none => simpa [found, none] using sums
  | some => simpa [found] using sums

lemma Same.sound (same : Same i i') (sound : Sound i)
    (hi : ∃ h, ¬h < i.barrier ∧ i'.hi = i.hi.insert h (i.multi h)) : Sound i' := by
  obtain ⟨h, live, hi⟩ := hi
  have totals : ∀ size : MultiAckIndex → Nat, size ⟨∅, ∅⟩ = 0 → i'.total size = i.total size := by
    intro size none
    have sums := total_insert i.hi h (i.multi h) size none
    have here : (i.hi.get h).getD ⟨∅, ∅⟩ = i.multi h := rfl
    rw [here] at sums
    rw [total, total, hi]
    omega
  refine ⟨fun x => same.multi x ▸ sound.disjoint x, ?_, ?_, ?_⟩
  · rw [same.responses, sound.responses, totals _ rfl]
  · rw [same.acks, sound.acks, totals _ rfl]
  · intro x below
    rw [same.barrier] at below
    have other : x ≠ h := by
      rintro rfl
      exact live below
    rw [hi, FiniteMap.get_insert, if_neg other]
    exact sound.barrier x below

end

section

variable {i : AckIndex} {h : Int} {op : MultiAckIndex → Change}

lemma update_expired (expired : h < i.barrier) :
    i.update h op = (i, .error (.wrapped (.loadingIndex h i.barrier) .queryExpired)) := by
  rw [update, load_expired expired]

structure Updated (i : AckIndex) (h : Int) (change : Change) (i' : AckIndex) : Prop where
  hi : i'.hi = i.hi.insert h change.mi
  barrier : i'.barrier = i.barrier
  responses : i'.responseCount = i.responseCount + change.responses
  acks : i'.ackCount = i.ackCount + change.acks

lemma update_live (live : ¬h < i.barrier) (op) : (i.update h op).2 = (op (i.multi h)).result ∧
      Updated i h (op (i.multi h)) (i.update h op).1 := by
  obtain ⟨loaded, load, same, hi⟩ := load_live live
  refine ⟨by simp only [update, load], ?_⟩
  simp only [update, load]
  refine ⟨?_, same.barrier, ?_, ?_⟩
  · simp only [hi]
    apply FiniteMap.ext
    intro x
    by_cases here : x = h <;> simp [here]
  · rw [same.responses]
  · rw [same.acks]

lemma Updated.multi (updated : Updated i h change i') (x) :
    i'.multi x = if x = h then change.mi else i.multi x := by
  rw [AckIndex.multi, updated.hi, FiniteMap.get_insert]
  by_cases here : x = h
  · simp [here]
  · simp [here, AckIndex.multi]

lemma total_word {hi : FiniteMap Int MultiAckIndex} (none : size ⟨∅, ∅⟩ = 0)
    (grown : (size mi : BitVec 32) = (size ((hi.get h).getD ⟨∅, ∅⟩) : BitVec 32) + delta) :
    (((hi.insert h mi).sum size : Nat) : BitVec 32) = ((hi.sum size : Nat) : BitVec 32) + delta :=
      by
  have sums := congrArg (Nat.cast : Nat → BitVec 32) (total_insert hi h mi size none)
  push_cast at sums
  rw [grown] at sums
  apply add_right_cancel (b := (size ((hi.get h).getD ⟨∅, ∅⟩) : BitVec 32))
  rw [sums]
  ring

lemma Sound.updated (sound : Sound i) (live : ¬h < i.barrier)
    (balanced : (i.multi h).Balanced change) (updated : Updated i h change i') : Sound i' := by
  refine ⟨?_, ?_, ?_, ?_⟩
  · intro x
    rw [updated.multi]
    by_cases here : x = h
    · rw [if_pos here]
      exact balanced.disjoint
    · rw [if_neg here]
      exact sound.disjoint x
  · rw [updated.responses, sound.responses, total, total, updated.hi]
    exact (total_word rfl balanced.responses).symm
  · rw [updated.acks, sound.acks, total, total, updated.hi]
    exact (total_word rfl balanced.acks).symm
  · intro x below
    rw [updated.barrier] at below
    have other : x ≠ h := by
      rintro rfl
      exact live below
    rw [updated.hi, FiniteMap.get_insert, if_neg other]
    exact sound.barrier x below

lemma Sound.update (sound : Sound i)
    (balanced : ¬h < i.barrier → (i.multi h).Balanced (op (i.multi h))) :
    Sound (i.update h op).1 := by
  by_cases expired : h < i.barrier
  · rw [update_expired expired]
    exact sound
  · exact sound.updated expired (balanced expired) (update_live expired op).2

end

section

variable {i : AckIndex} {h : Int}

lemma update_idle (idle : op (i.multi h) = ⟨i.multi h, 0, 0, result⟩) :
    Same i (i.update h op).1 := by
  by_cases expired : h < i.barrier
  · rw [update_expired expired]
    exact .refl i
  · obtain ⟨-, updated⟩ := update_live expired op
    rw [idle] at updated
    refine ⟨?_, updated.barrier, updated.responses.trans (add_zero _),
      updated.acks.trans (add_zero _)⟩
    intro x
    rw [updated.multi]
    by_cases here : x = h
    · rw [if_pos here, here]
    · rw [if_neg here]

lemma Sound.none_expired (sound : Sound i) (expired : h < i.barrier) (key) :
    i.respAt h key = none ∧ i.ackAt h key = none := by
  simp [respAt, ackAt, multi, sound.barrier h expired]

lemma addResponse_lookups (i : AckIndex) (h resp) : (i.addResponse h resp).1.barrier = i.barrier ∧
      (∀ x key, (i.addResponse h resp).1.ackAt x key = i.ackAt x key) ∧
      ∀ x key, (i.addResponse h resp).1.respAt x key = i.respAt x key ∨
        (x = h ∧ key = resp.header.request.getQueryKey) := by
  rcases addResponse_cases resp (i.multi h) with ⟨result, idle⟩ | ⟨-, added⟩
  · have same := update_idle idle
    refine ⟨same.barrier, fun x key => ?_, fun x key => .inl ?_⟩
    · exact congrArg (fun mi => mi.ackIndex.get key) (same.multi x)
    · exact congrArg (fun mi => mi.respIndex.get key) (same.multi x)
  · by_cases expired : h < i.barrier
    · rw [addResponse, update_expired expired]
      exact ⟨rfl, fun _ _ => rfl, fun _ _ => .inl rfl⟩
    · obtain ⟨-, updated⟩ := update_live expired (MultiAckIndex.addResponse resp)
      rw [added] at updated
      refine ⟨updated.barrier, ?_, ?_⟩
      · intro x key
        rw [ackAt, addResponse, updated.multi]
        by_cases here : x = h
        · rw [if_pos here, here, ackAt]
        · rw [if_neg here, ackAt]
      · intro x key
        rw [respAt, addResponse, updated.multi]
        by_cases here : x = h
        · by_cases same : key = resp.header.request.getQueryKey
          · exact .inr ⟨here, same⟩
          · simp [here, same, respAt]
        · simp [here, respAt]

lemma register_lookups (i : AckIndex) (h ack) :
    (∀ x key a, (i.register h ack).1.ackAt x key = some a → i.ackAt x key = some a ∨
      (x = h ∧ key = ack.header.getQueryKey ∧ a = ack ∧ i.respAt h key ≠ none)) ∧
    ∀ x key, i.respAt x key = none → (i.register h ack).1.respAt x key = none := by
  rcases register_cases ack (i.multi h) with
    ⟨err, idle⟩ | ⟨resp, result, found, moved, -⟩
  · have same := update_idle idle
    refine ⟨fun x key a acked => .inl ?_, fun x key none => ?_⟩
    · rw [ackAt, ← same.multi x]
      exact acked
    · rw [respAt, register, same.multi x]
      exact none
  · by_cases expired : h < i.barrier
    · rw [register, update_expired expired]
      exact ⟨fun _ _ _ acked => .inl acked, fun _ _ none => none⟩
    · obtain ⟨-, updated⟩ := update_live expired (MultiAckIndex.register ack)
      rw [moved] at updated
      refine ⟨?_, ?_⟩
      · intro x key a acked
        rw [ackAt, register, updated.multi] at acked
        by_cases here : x = h
        · rw [if_pos here] at acked
          by_cases same : key = ack.header.getQueryKey
          · simp only [FiniteMap.get_insert, if_pos same, Option.some.injEq] at acked
            refine .inr ⟨here, same, acked.symm, ?_⟩
            rw [same, respAt, found]
            simp
          · simp only [FiniteMap.get_insert, if_neg same] at acked
            exact .inl (here ▸ acked)
        · rw [if_neg here] at acked
          exact .inl acked
      · intro x key none
        rw [respAt, register, updated.multi]
        by_cases here : x = h
        · rw [if_pos here, FiniteMap.get_erase, ← here]
          split_ifs
          · rfl
          · exact none
        · rw [if_neg here]
          exact none

lemma addResponse_error (i h resp) (failed : (i.addResponse h resp).2 = .error err) :
    Same i (i.addResponse h resp).1 := by
  by_cases expired : h < i.barrier
  · rw [addResponse, update_expired expired]
    exact .refl i
  · rcases addResponse_cases resp (i.multi h) with ⟨result, idle⟩ | ⟨-, added⟩
    · exact update_idle idle
    · obtain ⟨result, -⟩ := update_live expired (MultiAckIndex.addResponse resp)
      rw [addResponse, result, added] at failed
      cases failed

lemma register_error (i h ack)
    (matching : ∀ resp, i.respAt h ack.header.getQueryKey = some resp → resp.responseHash =
      ack.header.responseHash)
    (failed : (i.register h ack).2 = .error err) : Same i (i.register h ack).1 := by
  by_cases expired : h < i.barrier
  · rw [register, update_expired expired]
    exact .refl i
  · rcases register_cases ack (i.multi h) with
      ⟨_, idle⟩ | ⟨resp, result, found, moved, ok⟩
    · exact update_idle idle
    · obtain ⟨returned, -⟩ := update_live expired (MultiAckIndex.register ack)
      rw [register, returned, moved] at failed
      rw [ok (matching resp found)] at failed
      cases failed

structure Shrinks (i i' : AckIndex) : Prop where
  acks : ∀ x key a, i'.ackAt x key = some a → i.ackAt x key = some a
  responses : ∀ x key, i.respAt x key = none → i'.respAt x key = none

lemma Shrinks.refl (i) : Shrinks i i :=
  ⟨fun _ _ _ acked => acked, fun _ _ none => none⟩

lemma Same.shrinks (same : Same i i') : Shrinks i i' := by
  refine ⟨fun x key a acked => ?_, fun x key none => ?_⟩
  · rw [ackAt, ← same.multi x]
    exact acked
  · rw [respAt, same.multi x]
    exact none

lemma Updated.shrinks (updated : Updated i h change i')
    (acks : ∀ key a, change.mi.ackIndex.get key = some a → (i.multi h).ackIndex.get key = some a)
    (responses : ∀ key, (i.multi h).respIndex.get key = none → change.mi.respIndex.get key = none) :
    Shrinks i i' := by
  refine ⟨fun x key a acked => ?_, fun x key none => ?_⟩
  · rw [ackAt, updated.multi] at acked
    by_cases here : x = h
    · rw [if_pos here] at acked
      exact here ▸ acks key a acked
    · rw [if_neg here] at acked
      exact acked
  · rw [respAt, updated.multi]
    by_cases here : x = h
    · rw [if_pos here]
      exact responses key (here ▸ none)
    · rw [if_neg here]
      exact none

lemma remove_lookups (i h ack) (sound : Sound i) :
    Shrinks i (i.remove h ack).1 ∧ (i.remove h ack).1.respAt h ack.header.getQueryKey = none ∧
      (i.remove h ack).1.ackAt h ack.header.getQueryKey ≠ some ack := by
  by_cases expired : h < i.barrier
  · obtain ⟨noResp, noAck⟩ := sound.none_expired expired ack.header.getQueryKey
    rw [remove, update_expired expired]
    exact ⟨.refl i, noResp, by simp [noAck]⟩
  · obtain ⟨-, updated⟩ := update_live expired (MultiAckIndex.remove ack)
    rcases remove_cases ack (i.multi h) with
      ⟨resp, found, removed⟩ | ⟨none, ⟨oack, found, same, removed⟩ | ⟨other, err, idle⟩⟩
    · have unacked : (i.multi h).ackIndex.get ack.header.getQueryKey = none := by
        rcases sound.disjoint h ack.header.getQueryKey with none | none
        · simp [found] at none
        · exact none
      rw [removed] at updated
      refine ⟨updated.shrinks (fun _ _ acked => acked) ?_, ?_, ?_⟩
      · intro key none
        simp [none]
      · rw [respAt, remove, updated.multi]
        simp
      · rw [ackAt, remove, updated.multi]
        simp [unacked]
    · rw [removed] at updated
      refine ⟨updated.shrinks ?_ (fun _ none => none), ?_, ?_⟩
      · intro key a acked
        by_cases here : key = ack.header.getQueryKey
        · simp [here] at acked
        · simpa [here] using acked
      · rw [respAt, remove, updated.multi]
        simp [none]
      · rw [ackAt, remove, updated.multi]
        simp
    · have same := update_idle idle
      refine ⟨same.shrinks, ?_, ?_⟩
      · rw [respAt, remove, same.multi]
        exact none
      · rw [ackAt, remove, same.multi]
        intro acked
        exact other ack acked rfl

end

lemma acksFrom_spec (order x count i) (sound : Sound i) :
    Sound (acksFrom order x count i).1 ∧ Same i (acksFrom order x count i).1 ∧
      ∀ ack ∈ (acksFrom order x count i).2, ∃ h key, i.ackAt h key = some ack := by
  induction count generalizing x i with
  | zero => exact ⟨sound, .refl i, by simp [acksFrom]⟩
  | succ count ih =>
    by_cases expired : x < i.barrier
    · rw [acksFrom, load_expired expired]
      exact ih (x + 1) i sound
    · obtain ⟨loaded, load, same, hi⟩ := load_live expired
      obtain ⟨sound', same', listed⟩ :=
        ih (x + 1) loaded (same.sound sound ⟨x, expired, hi⟩)
      rw [acksFrom, load]
      refine ⟨sound', same.trans same', ?_⟩
      intro ack member
      rcases mem_append.mp member with here | later
      · obtain ⟨key, -, found⟩ := mem_filterMap.mp here
        exact ⟨x, key, found⟩
      · obtain ⟨h, key, found⟩ := listed ack later
        refine ⟨h, key, ?_⟩
        rw [ackAt, ← same.multi h]
        exact found

lemma deleteFrom_spec (hi x count) :
    (∀ h, (deleteFrom hi x count).1.get h = if x ≤ h ∧ h < x + count then none else hi.get h) ∧
    ∀ size : MultiAckIndex → Nat,
      (deleteFrom hi x count).1.sum size + ((deleteFrom hi x count).2.map size).sum =
        hi.sum size := by
  induction count generalizing hi x with
  | zero =>
    refine ⟨fun h => ?_, fun size => by simp [deleteFrom]⟩
    rw [if_neg (by omega)]
    rfl
  | succ count ih =>
    obtain ⟨gone, sums⟩ := ih (hi.erase x) (x + 1)
    refine ⟨?_, ?_⟩
    · intro h
      have bounds : (x ≤ h ∧ h < x + ((count + 1 : Nat) : Int)) ↔
          h = x ∨ (x + 1 ≤ h ∧ h < x + 1 + count) := by
        push_cast
        omega
      rw [deleteFrom, gone h, FiniteMap.get_erase]
      simp only [bounds]
      by_cases here : h = x <;> simp [here]
    · intro size
      have erased := hi.sum_erase size x
      have later := sums size
      rw [deleteFrom]
      simp only [map_append, sum_append]
      cases found : hi.get x with
      | none =>
        simp only [found, Option.elim_none, Option.toList_none, map_nil, sum_nil] at erased ⊢
        omega
      | some =>
        simp only [found, Option.elim_some, Option.toList_some, map_cons, map_nil,
          sum_cons, sum_nil] at erased ⊢
        omega

lemma advance_multi (h x) : (i.advance h).multi x = i.multi x ∨ (i.advance h).multi x = ⟨∅, ∅⟩ := by
  have gone := (deleteFrom_spec i.hi i.barrier (h - i.barrier).toNat).1 x
  simp only [multi, advance, gone]
  by_cases within : i.barrier ≤ x ∧ x < i.barrier + (h - i.barrier).toNat
  · rw [if_pos within]
    exact .inr rfl
  · rw [if_neg within]
    exact .inl rfl

lemma advance_shrinks (h) : Shrinks i (i.advance h) := by
  refine ⟨fun x key a acked => ?_, fun x key none => ?_⟩
  · rcases advance_multi i h x with same | gone
    · rw [ackAt, same] at acked
      exact acked
    · simp [ackAt, gone] at acked
  · rcases advance_multi i h x with same | gone
    · rw [respAt, same]
      exact none
    · simp [respAt, gone]

lemma Sound.advance {i} (sound : Sound i) (h) : Sound (i.advance h) := by
  obtain ⟨gone, sums⟩ := deleteFrom_spec i.hi i.barrier (h - i.barrier).toNat
  refine ⟨?_, ?_, ?_, ?_⟩
  · intro x
    rcases advance_multi i h x with same | none
    · rw [same]
      exact sound.disjoint x
    · rw [none]
      exact fun key => .inl rfl
  · rw [total, AckIndex.advance, sound.responses, total, ← sums, Nat.cast_add]
    exact add_sub_cancel_right _ _
  · rw [total, AckIndex.advance, sound.acks, total, ← sums, Nat.cast_add]
    exact add_sub_cancel_right _ _
  · intro x below
    change (deleteFrom i.hi i.barrier (h - i.barrier).toNat).1.get x = none
    change x < h at below
    rw [gone x]
    by_cases old : x < i.barrier
    · rw [sound.barrier x old]
      split_ifs <;> rfl
    · rw [if_pos (by omega)]

end AckIndex

end SQLess.SQLChain
