import Mathlib.Data.List.Basic
import Mathlib.Tactic.Common

/-! Subscriptions on the bus. -/

namespace SQLess.Chainbus

open List

variable {Topic : Type} [DecidableEq Topic]

structure EventHandler where
  number : Nat
  flagOnce : Bool
deriving DecidableEq

structure ChainBus (Topic : Type) where
  handlers : Topic → List EventHandler
  subscribed : Nat

def ChainBus.new : ChainBus Topic := ⟨fun _ => [], 0⟩

inductive Event (Topic : Type) where
  | subscribe (topic : Topic)
  | subscribeOnce (topic : Topic)
  | publish (topic : Topic)

def publishFrom : Nat → List EventHandler → List EventHandler →
    List EventHandler × List EventHandler
  | _, [], live => (live, [])
  | i, handler :: rest, live =>
    -- an index out of range removes nothing
    let live := if handler.flagOnce then live.eraseIdx i else live
    let (live, calls) := publishFrom (i + 1) rest live
    (live, handler :: calls)

variable (bus : ChainBus Topic) (handlers : List EventHandler)

def publish : List EventHandler × List EventHandler :=
  publishFrom 0 handlers handlers

/-- What `Publish` is to do: call every handler and keep those that are not once. -/
def publishSpec : List EventHandler × List EventHandler :=
  (handlers.filter fun handler => !handler.flagOnce, handlers)

def ChainBus.set (topic : Topic) (handlers : List EventHandler) : ChainBus Topic :=
  { bus with handlers := fun other => if other = topic then handlers else bus.handlers other }

def ChainBus.doSubscribe (topic : Topic) (flagOnce : Bool) : ChainBus Topic :=
  { bus.set topic (bus.handlers topic ++ [⟨bus.subscribed, flagOnce⟩]) with
    subscribed := bus.subscribed + 1 }

def calls (publish : List EventHandler → List EventHandler × List EventHandler) (topic : Topic) :
    List (Event Topic) → ChainBus Topic → List (List EventHandler)
  | [], _ => []
  | .subscribe t :: rest, bus => calls publish topic rest (bus.doSubscribe t false)
  | .subscribeOnce t :: rest, bus => calls publish topic rest (bus.doSubscribe t true)
  | .publish t :: rest, bus =>
    let (live, called) := publish (bus.handlers t)
    if t = topic then called :: calls publish topic rest (bus.set t live)
    else calls publish topic rest (bus.set t live)

/-- Every `Publish` on the topic that is followed by another one finds at most one once handler
that was subscribed since the one before it; `pending` were before the events. -/
def Single (topic : Topic) : Nat → List (Event Topic) → Prop
  | _, [] => True
  | pending, .subscribe _ :: rest => Single topic pending rest
  | pending, .subscribeOnce t :: rest =>
    Single topic (if t = topic then pending + 1 else pending) rest
  | pending, .publish t :: rest =>
    if t = topic then (pending ≤ 1 ∨ .publish topic ∉ rest) ∧ Single topic 0 rest
    else Single topic pending rest

def once : Nat := handlers.countP fun handler => handler.flagOnce

lemma publishFrom_calls (i copy live) : (publishFrom i copy live).2 = copy := by
  induction copy generalizing i live with
  | nil => rfl
  | cons handler rest ih => simp only [publishFrom, ih]

lemma publishFrom_append (i first second live)
    (permanent : ∀ handler ∈ first, handler.flagOnce = false) :
    (publishFrom i (first ++ second) live).1 = (publishFrom (i + first.length) second live).1 := by
  induction first generalizing i with
  | nil => rfl
  | cons handler rest ih =>
    rw [forall_mem_cons] at permanent
    simp only [cons_append, publishFrom, permanent.1, Bool.false_eq_true, if_false, length_cons]
    rw [ih _ permanent.2]
    congr 2
    omega

lemma take_publishFrom (n i copy live) (before : n ≤ i) :
    (publishFrom i copy live).1.take n = live.take n := by
  induction copy generalizing i live with
  | nil => rfl
  | cons handler rest ih =>
    simp only [publishFrom]
    rw [ih _ _ (by omega)]
    split
    · by_cases inside : i < live.length
      · rw [eraseIdx_eq_take_drop_succ, take_append_of_le_length (by simp; omega),
          take_take, Nat.min_eq_left before]
      · rw [eraseIdx_of_length_le (by omega)]
    · rfl

lemma split_once : (∀ handler ∈ handlers, handler.flagOnce = false) ∨
      ∃ first handler second, handlers = first ++ handler :: second ∧ handler.flagOnce = true ∧
        ∀ other ∈ first, other.flagOnce = false := by
  cases found : handlers.find? fun handler => handler.flagOnce with
  | none => exact .inl (by simpa using found)
  | some handler =>
    obtain ⟨flag, first, second, whole, before⟩ := List.find?_eq_some_iff_append.mp found
    exact .inr ⟨first, handler, second, whole, flag, by simpa using before⟩

lemma filter_permanent {handlers : List EventHandler}
    (permanent : ∀ handler ∈ handlers, handler.flagOnce = false) :
    (handlers.filter fun handler => !handler.flagOnce) = handlers :=
  filter_eq_self.mpr fun handler member => by simp [permanent handler member]

lemma once_permanent {handlers} (permanent : ∀ handler ∈ handlers, handler.flagOnce = false) :
    once handlers = 0 :=
  countP_eq_zero.mpr fun handler member => by simp [permanent handler member]

lemma publish_live_iff : (publish handlers).1 = (publishSpec handlers).1 ↔ once handlers ≤ 1 := by
  simp only [publish, publishSpec]
  rcases split_once handlers with permanent | ⟨first, handler, second, rfl, flag, before⟩
  · have walked := publishFrom_append 0 handlers [] handlers permanent
    rw [append_nil] at walked
    rw [walked, filter_permanent permanent, once_permanent permanent]
    exact ⟨fun _ => Nat.zero_le 1, fun _ => rfl⟩
  · have erased : (first ++ handler :: second).eraseIdx (0 + first.length) = first ++ second := by
      rw [Nat.zero_add, eraseIdx_append_of_length_le (Nat.le_refl _), Nat.sub_self]
      rfl
    rw [publishFrom_append 0 first _ _ before]
    simp only [publishFrom, flag, if_true, erased, once, countP_append, countP_cons,
      filter_append, filter_cons, Bool.not_true, Bool.false_eq_true, if_false]
    rw [filter_permanent before, show first.countP (fun handler => handler.flagOnce) = 0 from
      once_permanent before]
    rcases split_once second with permanent | ⟨middle, other, third, rfl, flag', between⟩
    · have walked := publishFrom_append (0 + first.length + 1) second [] (first ++ second) permanent
      rw [append_nil] at walked
      rw [walked, filter_permanent permanent, show second.countP (fun handler => handler.flagOnce) =
        0 from once_permanent permanent]
      exact ⟨fun _ => (Nat.le_refl _), fun _ => rfl⟩
    · -- the second once handler now stands one position before the one that is removed
      rw [publishFrom_append _ middle _ _ between]
      have kept := take_publishFrom (first.length + (middle.length + 1))
        (0 + first.length + 1 + middle.length) (other :: third)
        (first ++ (middle ++ other :: third)) (by omega)
      have stays : other ∈ (publishFrom (0 + first.length + 1 + middle.length) (other :: third)
          (first ++ (middle ++ other :: third))).1 := by
        refine mem_of_mem_take (i := first.length + (middle.length + 1)) ?_
        rw [kept, take_length_add_append, take_length_add_append]
        simp
      constructor
      · intro same
        rw [same] at stays
        rcases mem_append.mp stays with early | filtered
        · simp [before other early] at flag'
        · simp [flag'] at filtered
      · intro few
        simp only [countP_append, countP_cons, flag', if_true] at few
        omega

lemma doSubscribe_handlers (t topic flagOnce) :
    (bus.doSubscribe t flagOnce).handlers topic = if topic = t then
      bus.handlers topic ++ [⟨bus.subscribed, flagOnce⟩] else bus.handlers topic := by
  by_cases same : topic = t <;> simp [ChainBus.doSubscribe, ChainBus.set, same]

lemma doSubscribe_handlers_inj {code spec : ChainBus Topic}
    (numbers : code.subscribed = spec.subscribed) (t topic flagOnce) :
    (code.doSubscribe t flagOnce).handlers topic = (spec.doSubscribe t flagOnce).handlers topic ↔
      code.handlers topic = spec.handlers topic := by
  rw [doSubscribe_handlers, doSubscribe_handlers, numbers]
  split
  · exact append_left_inj _
  · rfl

lemma calls_ne {code spec : ChainBus Topic} (numbers : code.subscribed = spec.subscribed)
    (differ : code.handlers topic ≠ spec.handlers topic) (again : .publish topic ∈ events) :
    calls publish topic events code ≠ calls publishSpec topic events spec := by
  induction events generalizing code spec with
  | nil => simp at again
  | cons event rest ih =>
    cases event with
    | subscribe t | subscribeOnce t =>
      refine ih (congrArg (· + 1) numbers) ?_ (by simpa using again)
      rwa [ne_eq, doSubscribe_handlers_inj numbers]
    | publish t =>
      by_cases here : t = topic
      · subst here
        simp only [calls, if_true, ne_eq, List.cons.injEq, not_and]
        intro called
        exact absurd ((publishFrom_calls _ _ _).symm.trans called) differ
      · simp only [calls, here, if_false]
        have elsewhere : topic ≠ t := Ne.symm here
        refine ih numbers ?_ (by simpa [elsewhere] using again)
        simpa [ChainBus.set, elsewhere] using differ

lemma calls_unpublished {publish topic events} (quiet : .publish topic ∉ events) :
    calls publish topic events bus = [] := by
  induction events generalizing bus with
  | nil => rfl
  | cons event rest ih =>
    rw [mem_cons, not_or] at quiet
    cases event with
    | subscribe t | subscribeOnce t => exact ih _ quiet.2
    | publish t =>
      have other : t ≠ topic := fun same => quiet.1 (same ▸ rfl)
      simp only [calls, other, if_false]
      exact ih _ quiet.2

lemma single_unpublished {events : List (Event Topic)} (pending)
    (quiet : .publish topic ∉ events) : Single topic pending events := by
  induction events generalizing pending with
  | nil => trivial
  | cons event rest ih =>
    rw [mem_cons, not_or] at quiet
    cases event with
    | subscribe t | subscribeOnce t => exact ih _ quiet.2
    | publish t =>
      have other : t ≠ topic := fun same => quiet.1 (same ▸ rfl)
      simp only [Single, other, if_false]
      exact ih _ quiet.2

lemma calls_eq_iff (events) {code spec : ChainBus Topic}
    (numbers : code.subscribed = spec.subscribed) (same : code.handlers topic =
      spec.handlers topic) : calls publish topic events code = calls publishSpec topic events spec ↔
      Single topic (once (code.handlers topic)) events := by
  induction events generalizing code spec with
  | nil => simp [calls, Single]
  | cons event rest ih =>
    cases event with
    | subscribe t =>
      rw [calls, calls, Single, ih (congrArg (· + 1) numbers)
        ((doSubscribe_handlers_inj numbers t topic false).mpr same), doSubscribe_handlers]
      split
      · simp [once]
      · rfl
    | subscribeOnce t =>
      rw [calls, calls, Single, ih (congrArg (· + 1) numbers)
        ((doSubscribe_handlers_inj numbers t topic true).mpr same), doSubscribe_handlers]
      by_cases here : t = topic
      · simp [once, here]
      · simp [here, Ne.symm here]
    | publish t =>
      by_cases here : t = topic
      · subst here
        have called : (publish (code.handlers t)).2 = (publishSpec (spec.handlers t)).2 :=
          (publishFrom_calls _ _ _).trans same
        simp only [calls, Single, if_true, List.cons.injEq, called, true_and]
        have settled : once (publishSpec (code.handlers t)).1 = 0 := by
          simp [once, publishSpec]
        by_cases few : once (code.handlers t) ≤ 1
        · have live := (publish_live_iff _).mpr few
          rw [ih (by exact numbers) (by simpa [ChainBus.set, ← same] using live)]
          simp [ChainBus.set, live, settled, few]
        · by_cases again : .publish t ∈ rest
          · have differ : (publish (code.handlers t)).1 ≠ (publishSpec (code.handlers t)).1 :=
              fun live => few ((publish_live_iff _).mp live)
            simp only [few, again, not_true_eq_false, or_self, false_and, iff_false]
            refine calls_ne (by exact numbers) ?_ again
            simpa [ChainBus.set, ← same] using differ
          · rw [calls_unpublished _ again, calls_unpublished _ again]
            simp [again, single_unpublished 0 again]
      · have elsewhere : topic ≠ t := Ne.symm here
        simp only [calls, Single, here, if_false]
        rw [ih (by exact numbers) (by simpa [ChainBus.set, elsewhere] using same)]
        simp [ChainBus.set, elsewhere]

/-- The handlers of a topic are called as they should be exactly if no `Publish` but the last one
comes after two `SubscribeOnce` since the one before. -/
theorem subscriptions_honoured_iff (topic : Topic) (events : List (Event Topic)) :
    calls publish topic events .new = calls publishSpec topic events .new ↔ Single topic 0 events :=
  calls_eq_iff events rfl rfl

/-- The second of two once handlers is called by the next `Publish` too, and the permanent one is
not. -/
theorem once_handler_called_twice :
    calls publish () [.subscribeOnce (), .subscribeOnce (), .subscribe (), .publish (), .publish ()]
        .new = [[⟨0, true⟩, ⟨1, true⟩, ⟨2, false⟩], [⟨1, true⟩]] ∧
      calls publishSpec ()
        [.subscribeOnce (), .subscribeOnce (), .subscribe (), .publish (), .publish ()] .new =
        [[⟨0, true⟩, ⟨1, true⟩, ⟨2, false⟩], [⟨2, false⟩]] := by
  decide

end SQLess.Chainbus
