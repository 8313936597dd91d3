import SQLess.BlockProducer.MetaState

/-! The miners that are selected for a request. -/

namespace SQLess.BlockProducer

open Lib List MetaState

variable (s : MetaState) (req : CreateDatabaseHeader)

def MetaState.offer (user m : AccountAddress) : Option MinerInfo :=
  (s.loadProviderObject m).bind fun po => (filterMiner po req user).toOption

def MetaState.offers (user : AccountAddress) : List MinerInfo :=
  req.resourceMeta.targetMiners.filterMap (s.offer req user)

def MetaState.usable (user : AccountAddress) : List AccountAddress :=
  req.resourceMeta.targetMiners.filter fun m => (s.offer req user m).isSome

def MetaState.Provides (user : AccountAddress) (miner : MinerInfo) : Prop :=
  ∃ k po, s.loadProviderObject k = some po ∧ Suits po req user ∧ miner = newMinerInfo po

section

variable {s : MetaState} {req : CreateDatabaseHeader} {user : AccountAddress} {order : MinerOrder}
  {miners : List MinerInfo}

lemma offer_eq_some : s.offer req user m = some miner ↔
      ∃ po, s.loadProviderObject m = some po ∧ Suits po req user ∧ miner = newMinerInfo po := by
  rw [offer, Option.bind_eq_some_iff]
  refine exists_congr fun po => and_congr_right fun _ => ?_
  rw [filterMiner_toOption]

lemma length_offers : (s.offers req user).length = (s.usable req user).length := by
  rw [offers, length_filterMap_eq_countP, countP_eq_length_filter]
  rfl

lemma matchTargetMiners_mem (targets miners err) :
    ∀ miner ∈ (matchTargetMiners s req user targets miners err).1,
      miner ∈ miners ∨ s.Provides req user miner := by
  induction targets generalizing miners err with
  | nil => exact fun miner member => .inl member
  | cons m rest ih =>
    simp only [matchTargetMiners]
    split
    · exact ih miners _
    · rename_i po registered
      split
      · split
        · exact fun miner member => .inl member
        · exact ih miners _
      · rename_i found matched
        obtain ⟨suits, rfl⟩ := filterMiner_ok.mp matched
        have extended : ∀ miner ∈ miners ++ [newMinerInfo po],
            miner ∈ miners ∨ s.Provides req user miner := by
          intro miner member
          rcases mem_append.mp member with earlier | last
          · exact .inl earlier
          · exact .inr ⟨m, po, registered, suits, mem_singleton.mp last⟩
        split
        · exact extended
        · intro miner member
          rcases ih _ _ miner member with earlier | provided
          · exact extended miner earlier
          · exact .inr provided

lemma matchTargetMiners_miners (targets miners err)
    (few : miners.length < req.resourceMeta.node.toNat) :
    (matchTargetMiners s req user targets miners err).1 =
      (miners ++ targets.filterMap (s.offer req user)).take req.resourceMeta.node.toNat := by
  induction targets generalizing miners err with
  | nil =>
    rw [filterMap_nil, append_nil, take_of_length_le few.le]
    rfl
  | cons m rest ih =>
    simp only [matchTargetMiners]
    split
    · rename_i absent
      have none : s.offer req user m = none := by simp [offer, absent]
      rw [filterMap_cons_none none]
      exact ih miners _ few
    · rename_i po registered
      split
      · rename_i error refused
        have none : s.offer req user m = none := by
          simp [offer, registered, refused, Except.toOption]
        rw [if_neg few.ne, filterMap_cons_none none]
        exact ih miners _ few
      · rename_i miner matched
        have found : s.offer req user m = some miner := by
          simp [offer, registered, matched, Except.toOption]
        rw [filterMap_cons_some found, append_cons miners miner (rest.filterMap (s.offer req user))]
        split
        · rename_i enough
          exact (take_left' enough).symm
        · rename_i more
          have length : (miners ++ [miner]).length = miners.length + 1 := by simp
          exact ih _ _ (by omega)

lemma designated_eq (staffed : 0 < req.resourceMeta.node.toNat) :
    (matchTargetMiners s req user req.resourceMeta.targetMiners [] none).1 =
      (s.offers req user).take req.resourceMeta.node.toNat :=
  matchTargetMiners_miners req.resourceMeta.targetMiners [] none staffed

lemma filterNMiners_ok (filtered : filterNMiners order s req user minerCount = .ok miners) :
    miners.length = minerCount ∧ ∃ rest, ((miners ++ rest : List MinerInfo) : Multiset MinerInfo) =
      s.candidates req user := by
  rw [filterNMiners_candidates] at filtered
  split at filtered
  · simp at filtered
  · rename_i enough
    rw [Nat.not_lt] at enough
    rw [← Except.ok.inj filtered]
    have length : (order.list (s.candidates req user)).length = (s.candidates req user).card := by
      rw [← Multiset.coe_card, order.perm]
    refine ⟨?_, (order.list (s.candidates req user)).drop minerCount, ?_⟩
    · rw [length_take, length, Nat.min_eq_left enough]
    · rw [take_append_drop, order.perm]

lemma mem_of_filterNMiners
    (filtered : filterNMiners order s req user minerCount = .ok miners) (member : miner ∈ miners) :
    ∃ k po, k ∉ req.resourceMeta.targetMiners ∧ s.view.provider.get k = some po ∧
      Suits po req user ∧ miner = newMinerInfo po := by
  obtain ⟨-, rest, listed⟩ := filterNMiners_ok filtered
  rw [← mem_candidates, ← listed, Multiset.mem_coe]
  exact mem_append_left rest member

lemma node_pos {node : UInt16} (staffed : node ≠ 0) : 0 < node.toNat := by
  rw [Nat.pos_iff_ne_zero]
  intro zero
  exact staffed (UInt16.toNat_inj.mp zero)

lemma selectMiners_mem (selected : selectMiners order s req user = .ok (some miners)) :
    ∀ miner ∈ miners, s.Provides req user miner := by
  have designated : ∀ miner ∈
      (matchTargetMiners s req user req.resourceMeta.targetMiners [] none).1,
      s.Provides req user miner := by
    intro miner member
    rcases matchTargetMiners_mem _ _ _ miner member with none | provided
    · simp at none
    · exact provided
  simp only [selectMiners] at selected
  split at selected
  · split at selected
    · split at selected <;> simp at selected
    · split at selected
      · simp at selected
      · rename_i further filtered
        rw [← Option.some.inj (Except.ok.inj selected)]
        intro miner member
        rcases mem_append.mp member with first | second
        · exact designated miner first
        · obtain ⟨k, po, -, found, suits, same⟩ := mem_of_filterNMiners filtered second
          rw [view_provider_get] at found
          exact ⟨k, po, found, suits, same⟩
  · rw [← Option.some.inj (Except.ok.inj selected)]
    exact designated

lemma selectMiners_some (staffed : 0 < req.resourceMeta.node.toNat)
    (selected : selectMiners order s req user = .ok (some miners)) :
    (req.resourceMeta.node.toNat ≤ (s.usable req user).length ∧
      miners = (s.offers req user).take req.resourceMeta.node.toNat) ∨
    ((s.usable req user).length < req.resourceMeta.node.toNat ∧
      req.resourceMeta.targetMiners.length < req.resourceMeta.node.toNat ∧
      ∃ further, filterNMiners order s req user
          (req.resourceMeta.node.toNat - (s.usable req user).length) = .ok further ∧
        miners = s.offers req user ++ further) := by
  simp only [selectMiners, designated_eq staffed, length_take, length_offers] at selected
  split at selected
  · rename_i few
    have less : (s.usable req user).length < req.resourceMeta.node.toNat := by omega
    split at selected
    · split at selected <;> simp at selected
    · rename_i searched
      split at selected
      · simp at selected
      · rename_i further filtered
        rw [Nat.min_eq_right less.le] at filtered
        refine .inr ⟨less, Nat.not_le.mp searched, further, filtered, ?_⟩
        rw [← Option.some.inj (Except.ok.inj selected),
          take_of_length_le (by rw [length_offers]; exact less.le)]
  · rename_i enough
    refine .inl ⟨by omega, ?_⟩
    exact (Option.some.inj (Except.ok.inj selected)).symm

lemma selectMiners_length (staffed : 0 < req.resourceMeta.node.toNat)
    (selected : selectMiners order s req user = .ok (some miners)) :
    miners.length = req.resourceMeta.node.toNat := by
  rcases selectMiners_some staffed selected with
    ⟨enough, rfl⟩ | ⟨few, -, further, filtered, rfl⟩
  · rw [length_take, length_offers, Nat.min_eq_left enough]
  · rw [length_append, (filterNMiners_ok filtered).1, length_offers]
    omega

lemma selectMiners_unmatched (selected : selectMiners order s req user = .ok none) :
    (s.usable req user).length < req.resourceMeta.node.toNat ∧
      req.resourceMeta.node.toNat ≤ req.resourceMeta.targetMiners.length := by
  simp only [selectMiners] at selected
  split at selected
  · rename_i few
    have staffed : 0 < req.resourceMeta.node.toNat := by omega
    rw [designated_eq staffed, length_take, length_offers] at few
    split at selected
    · rename_i designated
      exact ⟨by omega, designated⟩
    · split at selected <;> simp at selected
  · simp at selected

end

end SQLess.BlockProducer
