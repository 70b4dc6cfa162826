import Spacewalk.Foundation.Run
import Spacewalk.Relay.Pallet

/-!
# Enactment of tier-1 set updates

An update of the tier-1 set is meant to take effect exactly at its enactment height: until
then the set that was active at the time of the call stays active, from then on the new set
is used (`TakesEffectExactly`).

Storage has room for two sets and one height.  An update that is made before the previous
one was enacted moves the set that never became active into the old slot, from where it is
used at once; an update that repeats the stored set with a later height brings the old set
back (`unenacted_set_becomes_active`).  `takes_effect_exactly_iff` says for every call of
every sequence of updates when this does not happen.
-/

namespace Spacewalk.Relay

open Foundation

/-- A tier-1 set that the pallet accepts: within the limits, without repeated organization ids
and without repeated public keys. -/
structure Accepted (cfg : Config) (tier1 : Tier1Set) : Prop where
  validators_le : tier1.validators.length ≤ cfg.validatorLimit
  organizations_le : tier1.organizations.length ≤ cfg.organizationLimit
  nodup_ids : (tier1.organizations.map Organization.id).Nodup
  nodup_keys : (tier1.validators.map Validator.publicKey).Nodup

/-- The storage after an accepted update. -/
def updated (s : State) (tier1 : Tier1Set) (height : BlockNumber) : State :=
  if tier1 = s.new then { s with newValidatorsEnactmentBlockHeight := height }
  else { old := s.new, new := tier1, newValidatorsEnactmentBlockHeight := height }

/-- Exact outcome of an update. -/
theorem returns_updateTier1ValidatorSet {cfg : Config} {validators : List Validator}
    {organizations : List Organization} {height : BlockNumber} {s s' : State} {u : Unit} :
    Returns (updateTier1ValidatorSet cfg validators organizations height) s u s' ↔
      Accepted cfg ⟨validators, organizations⟩ ∧
        s' = updated s ⟨validators, organizations⟩ height := by
  have hids := length_eq_length_tally_iff (organizations.map Organization.id)
  have hkeys := length_eq_length_tally_iff (validators.map Validator.publicKey)
  rw [List.length_map] at hids hkeys
  have hsame : (organizations ≠ s.new.organizations ∨ validators ≠ s.new.validators) ↔
      (⟨validators, organizations⟩ : Tier1Set) ≠ s.new := by
    cases hnew : s.new
    simp only [ne_eq, Tier1Set.mk.injEq]
    tauto
  simp only [updateTier1ValidatorSet, returns_rules, ensure_eq_ok, returns_ite, returns_set, hids,
    hkeys, updated]
  constructor
  · rintro ⟨-, _, ⟨-, rfl⟩, -, _, ⟨-, rfl⟩, -, _, ⟨hid, rfl⟩, -, _, ⟨hkey, rfl⟩, _, _, ⟨rfl, rfl⟩,
      -, _, ⟨hv, rfl⟩, -, _, ⟨ho, rfl⟩, hcases⟩
    refine ⟨⟨hv, ho, hid, hkey⟩, ?_⟩
    rcases hcases with ⟨hne, rfl⟩ | ⟨heq, rfl⟩
    · rw [if_neg (hsame.mp hne)]
    · rw [if_pos (not_not.mp (mt hsame.mpr heq))]
  · rintro ⟨⟨hv, ho, hid, hkey⟩, rfl⟩
    refine ⟨(), s, ⟨(Nat.mod_le _ _).trans hv, rfl⟩, (), s, ⟨(Nat.mod_le _ _).trans ho, rfl⟩, (), s,
      ⟨hid, rfl⟩, (), s, ⟨hkey, rfl⟩, s, s, ⟨rfl, rfl⟩, (), s, ⟨hv, rfl⟩, (), s, ⟨ho, rfl⟩, ?_⟩
    by_cases hnew : (⟨validators, organizations⟩ : Tier1Set) = s.new
    · exact Or.inr ⟨fun hne => hsame.mp hne hnew, by rw [if_pos hnew]⟩
    · exact Or.inl ⟨hsame.mpr hnew, by rw [if_neg hnew]⟩

/-- A tier-1 set as `validatorsAndOrgs` returns it: a set without validators or without
organizations is refused. -/
def checked (tier1 : Tier1Set) : Except DispatchError Tier1Set := do
  ensure (tier1.validators ≠ []) (err .noValidatorsRegistered)
  ensure (tier1.organizations ≠ []) (err .noOrganizationsRegistered)
  return tier1

theorem validatorsAndOrgs_eq (s : State) (b : BlockNumber) :
    validatorsAndOrgs s b =
      if s.newValidatorsEnactmentBlockHeight ≤ b then checked s.new else checked s.old := by
  by_cases h : s.newValidatorsEnactmentBlockHeight ≤ b
  · simp [validatorsAndOrgs, checked, h]
  · simp [validatorsAndOrgs, checked, h]

/-! ## Sequences of updates -/

/-- A call of `update_tier_1_validator_set` at a block. -/
structure UpdateCall where
  block : BlockNumber
  tier1 : Tier1Set
  enactmentBlockHeight : BlockNumber

/-- A successful call, made no earlier than the previous one. -/
def UpdateStep (cfg : Config) (s : State × BlockNumber) (call : UpdateCall)
    (s' : State × BlockNumber) : Prop :=
  s.2 ≤ call.block ∧ s'.2 = call.block ∧
    Returns (updateTier1ValidatorSet cfg call.tier1.validators call.tier1.organizations
      call.enactmentBlockHeight) s.1 () s'.1

/-- After the call and as long as no further call is made, the set that was active at the
block of the call stays active before the enactment height, and the new set is active from
then on. -/
def TakesEffectExactly (s s' : State) (call : UpdateCall) : Prop :=
  ∀ b, call.block ≤ b →
    (b < call.enactmentBlockHeight → validatorsAndOrgs s' b = validatorsAndOrgs s call.block) ∧
    (call.enactmentBlockHeight ≤ b → validatorsAndOrgs s' b = checked call.tier1)

/-- The call takes effect at once, or both stored sets answer alike, or the call replaces the
stored new set exactly if that set is active already. -/
def EnactmentSafe (s : State) (call : UpdateCall) : Prop :=
  call.enactmentBlockHeight ≤ call.block ∨ checked s.old = checked s.new ∨
    (call.tier1 ≠ s.new ↔ s.newValidatorsEnactmentBlockHeight ≤ call.block)

theorem validatorsAndOrgs_updated_of_ge {s : State} {tier1 : Tier1Set} {h b : BlockNumber}
    (hb : h ≤ b) : validatorsAndOrgs (updated s tier1 h) b = checked tier1 := by
  rw [validatorsAndOrgs_eq]
  by_cases hnew : tier1 = s.new
  · simp [updated, hnew, hb]
  · simp [updated, hnew, hb]

theorem validatorsAndOrgs_updated_of_lt {s : State} {tier1 : Tier1Set} {h b : BlockNumber}
    (hb : b < h) :
    validatorsAndOrgs (updated s tier1 h) b =
      if tier1 = s.new then checked s.old else checked s.new := by
  rw [validatorsAndOrgs_eq]
  by_cases hnew : tier1 = s.new
  · simp [updated, hnew, Nat.not_le.mpr hb]
  · simp [updated, hnew, Nat.not_le.mpr hb]

/-- One call takes effect exactly at its height iff it is safe. -/
theorem takesEffectExactly_updated_iff (s : State) (call : UpdateCall) :
    TakesEffectExactly s (updated s call.tier1 call.enactmentBlockHeight) call ↔
      EnactmentSafe s call := by
  have hafter : ∀ b, call.enactmentBlockHeight ≤ b →
      validatorsAndOrgs (updated s call.tier1 call.enactmentBlockHeight) b =
        checked call.tier1 := fun b => validatorsAndOrgs_updated_of_ge
  -- before the height the answer does not depend on the block
  have hbefore : (∀ b, call.block ≤ b → b < call.enactmentBlockHeight →
        validatorsAndOrgs (updated s call.tier1 call.enactmentBlockHeight) b =
          validatorsAndOrgs s call.block) ↔
      call.enactmentBlockHeight ≤ call.block ∨
        (if call.tier1 = s.new then checked s.old else checked s.new) =
          validatorsAndOrgs s call.block := by
    constructor
    · intro h
      rcases Nat.lt_or_ge call.block call.enactmentBlockHeight with hlt | hge
      · right
        rw [← validatorsAndOrgs_updated_of_lt hlt]
        exact h call.block le_rfl hlt
      · exact Or.inl hge
    · rintro (hge | heq) b hb hlt
      · exact absurd (hlt.trans_le hge) (Nat.not_lt.mpr hb)
      · rw [validatorsAndOrgs_updated_of_lt hlt, heq]
  have hsplit : TakesEffectExactly s (updated s call.tier1 call.enactmentBlockHeight) call ↔
      ∀ b, call.block ≤ b → b < call.enactmentBlockHeight →
        validatorsAndOrgs (updated s call.tier1 call.enactmentBlockHeight) b =
          validatorsAndOrgs s call.block :=
    ⟨fun h b hb => (h b hb).1, fun h b hb => ⟨h b hb, hafter b⟩⟩
  rw [hsplit, hbefore, EnactmentSafe, validatorsAndOrgs_eq]
  by_cases hnew : call.tier1 = s.new <;>
    by_cases hheight : s.newValidatorsEnactmentBlockHeight ≤ call.block <;>
    simp [hnew, hheight, eq_comm]

/-- In every sequence of successful updates, from any storage and at any blocks: all updates
take effect exactly at their enactment heights iff all of them are safe in the state in which
they are made. -/
theorem takes_effect_exactly_iff (cfg : Config) (s₀ : State × BlockNumber)
    (calls : List UpdateCall) :
    (∀ before call after s s', calls = before ++ call :: after →
      Run (UpdateStep cfg) s₀ before s → UpdateStep cfg s call s' →
        TakesEffectExactly s.1 s'.1 call) ↔
    (∀ before call after s s', calls = before ++ call :: after →
      Run (UpdateStep cfg) s₀ before s → UpdateStep cfg s call s' →
        EnactmentSafe s.1 call) := by
  have hcall : ∀ (s s' : State × BlockNumber) (call : UpdateCall), UpdateStep cfg s call s' →
      (TakesEffectExactly s.1 s'.1 call ↔ EnactmentSafe s.1 call) := by
    rintro s s' call ⟨-, -, hreturns⟩
    rw [(returns_updateTier1ValidatorSet.mp hreturns).2]
    exact takesEffectExactly_updated_iff s.1 call
  constructor
  · intro h before call after s s' hcalls hrun hstep
    exact (hcall s s' call hstep).mp (h before call after s s' hcalls hrun hstep)
  · intro h before call after s s' hcalls hrun hstep
    exact (hcall s s' call hstep).mpr (h before call after s s' hcalls hrun hstep)

/-! ## An update before the enactment of the previous one -/

/-- The limits of the runtime. -/
def sampleConfig : Config := ⟨255, 255, true, by decide⟩

/-- A tier-1 set with one validator of one organization. -/
def singleton (key : UInt8) : Tier1Set := ⟨[⟨[], [key], 0⟩], [⟨0, []⟩]⟩

theorem accepted_singleton (key : UInt8) : Accepted sampleConfig (singleton key) := by
  constructor
  · exact Nat.le_add_left 1 254
  · exact Nat.le_add_left 1 254
  · exact List.nodup_singleton _
  · exact List.nodup_singleton _

/-- The storage at genesis: the first set is active, the old set is empty. -/
def sampleGenesis : State := ⟨singleton 1, ⟨[], []⟩, 0⟩

/-- At block 1 the second set is announced for block 10, at block 2 the third set for block
20.  From block 2 on the second set is used, although the first one was active and the second
one was to take effect at block 10. -/
theorem unenacted_set_becomes_active :
    ∃ s₁ s₂ : State × BlockNumber,
      Run (UpdateStep sampleConfig) (sampleGenesis, 0) [⟨1, singleton 2, 10⟩] s₁ ∧
      UpdateStep sampleConfig s₁ ⟨2, singleton 3, 20⟩ s₂ ∧
      validatorsAndOrgs s₁.1 2 = .ok (singleton 1) ∧
      validatorsAndOrgs s₂.1 2 = .ok (singleton 2) ∧
      ¬ TakesEffectExactly s₁.1 s₂.1 ⟨2, singleton 3, 20⟩ := by
  refine ⟨(updated sampleGenesis (singleton 2) 10, 1),
    (updated (updated sampleGenesis (singleton 2) 10) (singleton 3) 20, 2), ?_, ?_, ?_, ?_, ?_⟩
  · exact .single ⟨Nat.zero_le 1, rfl,
      returns_updateTier1ValidatorSet.mpr ⟨accepted_singleton 2, rfl⟩⟩
  · exact ⟨Nat.le_succ 1, rfl, returns_updateTier1ValidatorSet.mpr ⟨accepted_singleton 3, rfl⟩⟩
  · decide
  · decide
  · intro h
    exact absurd ((h 2 le_rfl).1 (by decide)) (by decide)

end Spacewalk.Relay
