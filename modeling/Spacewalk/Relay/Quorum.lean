import Mathlib.Data.Finset.Powerset
import Spacewalk.Relay.Enactment

/-!
# Soundness of Stellar proofs

What an accepted proof shows.  Validation is inverted once (`validateStellarTransaction_ok`,
`checkForValidQuorumSet_ok_iff`): an accepted proof has envelopes of more than half of the
validators of more than two thirds of as many organizations as are registered.

Two consequences are drawn.

* The organizations that are counted are those named by the validators, and nothing compares
  them with the registered organizations.  `proofs_sound_iff` says for which tier-1 sets every
  accepted proof is supported by more than two thirds of the *registered* organizations;
  `unregistered_organization_counts` is a set for which it is not.
* If every validator's organization is registered, two accepted proofs for the same slot share
  a validator (`accepted_proofs_intersect`).
-/

namespace Spacewalk.Relay

open Foundation Stellar
open scoped Classical

/-! ## Majorities of organizations -/

variable (lib : StellarLib) (validators : List Validator) (network : Network) (P : Validator → Prop)
  (o : OrganizationId)

/-- The organizations named by the validators. -/
noncomputable def organizationIds : Finset OrganizationId :=
  (validators.map Validator.organizationId).toFinset

noncomputable def membersOf : Finset Validator :=
  validators.toFinset.filter fun w => w.organizationId = o

/-- The validators of an organization that satisfy `P`. -/
noncomputable def supportersOf : Finset Validator :=
  (membersOf validators o).filter P

/-- More than half of the validators of the organization satisfy `P`. -/
def HasMajority : Prop :=
  (membersOf validators o).card < 2 * (supportersOf validators P o).card

/-- The organizations of `orgs` in which more than half of the validators satisfy `P`. -/
noncomputable def majorityOrgs (orgs : Finset OrganizationId) : Finset OrganizationId :=
  orgs.filter (HasMajority validators P)

section

variable {validators : List Validator} {P Q : Validator → Prop} {o : OrganizationId}
  {orgs : Finset OrganizationId}

theorem mem_supportersOf {w : Validator} :
    w ∈ supportersOf validators P o ↔ w ∈ validators ∧ w.organizationId = o ∧ P w := by
  rw [supportersOf, Finset.mem_filter, membersOf, Finset.mem_filter, List.mem_toFinset, and_assoc]

theorem mem_organizationIds :
    o ∈ organizationIds validators ↔ ∃ w ∈ validators, w.organizationId = o := by
  rw [organizationIds, List.mem_toFinset, List.mem_map]

theorem HasMajority.mono (h : HasMajority validators P o)
    (hPQ : ∀ w ∈ validators, P w → Q w) : HasMajority validators Q o := by
  have hsub : supportersOf validators P o ⊆ supportersOf validators Q o := by
    intro w hw
    obtain ⟨hmem, horg, hP⟩ := mem_supportersOf.mp hw
    exact mem_supportersOf.mpr ⟨hmem, horg, hPQ w hmem hP⟩
  have hcard := Finset.card_le_card hsub
  unfold HasMajority at h ⊢
  omega

/-- If all validators of an organization satisfy `P`, they are a majority of it. -/
theorem HasMajority.of_forall {w : Validator} (hw : w ∈ validators)
    (hP : ∀ w' ∈ validators, w'.organizationId = w.organizationId → P w') :
    HasMajority validators P w.organizationId := by
  have hall : supportersOf validators P w.organizationId =
      membersOf validators w.organizationId := by
    refine Finset.filter_true_of_mem fun w' hw' => ?_
    obtain ⟨hmem, horg⟩ := Finset.mem_filter.mp hw'
    exact hP w' (List.mem_toFinset.mp hmem) horg
  have hpos : 0 < (membersOf validators w.organizationId).card :=
    Finset.card_pos.mpr ⟨w, Finset.mem_filter.mpr ⟨List.mem_toFinset.mpr hw, rfl⟩⟩
  rw [HasMajority, hall]
  omega

/-- An organization with a majority has a validator in it. -/
theorem HasMajority.exists_mem (h : HasMajority validators P o) :
    ∃ w ∈ validators, w.organizationId = o ∧ P w := by
  have hpos : 0 < (supportersOf validators P o).card := by
    unfold HasMajority at h
    omega
  obtain ⟨w, hw⟩ := Finset.card_pos.mp hpos
  exact ⟨w, mem_supportersOf.mp hw⟩

/-- Two majorities of one organization share a validator. -/
theorem HasMajority.exists_common (hP : HasMajority validators P o)
    (hQ : HasMajority validators Q o) : ∃ w ∈ validators, P w ∧ Q w := by
  unfold HasMajority at hP hQ
  have hinter : (supportersOf validators P o ∩ supportersOf validators Q o).Nonempty :=
    Finset.inter_nonempty_of_card_lt_card_add_card (Finset.filter_subset _ _)
      (Finset.filter_subset _ _) (by omega)
  obtain ⟨w, hw⟩ := hinter
  rw [Finset.mem_inter, mem_supportersOf, mem_supportersOf] at hw
  exact ⟨w, hw.1.1, hw.1.2.2, hw.2.2.2⟩

/-- The number of occurrences of an organization among filtered validators, as a number of
its members. -/
theorem count_filter_map (hnodup : validators.Nodup) (p : Validator → Bool) (o : OrganizationId) :
    ((validators.filter p).map Validator.organizationId).count o =
      (supportersOf validators (fun w => p w = true) o).card := by
  have hlist : ((validators.filter p).map Validator.organizationId).count o =
      (validators.filter fun w => decide (w.organizationId = o) && p w).length := by
    rw [List.count_eq_countP, List.countP_map, List.countP_filter, List.countP_eq_length_filter]
    rfl
  have hset : supportersOf validators (fun w => p w = true) o =
      (validators.filter fun w => decide (w.organizationId = o) && p w).toFinset := by
    ext w
    simp [mem_supportersOf]
  rw [hlist, hset, List.toFinset_card_of_nodup (hnodup.filter _)]

theorem count_map (hnodup : validators.Nodup) (o : OrganizationId) :
    (validators.map Validator.organizationId).count o = (membersOf validators o).card := by
  have h := count_filter_map hnodup (fun _ => true) o
  simpa [supportersOf] using h

end

/-! ## Inversion of the quorum check -/

section

variable {lib : StellarLib} {validators : List Validator} {envelopes : List ScpEnvelope}
  {orgsLength : Nat}

/-- Counting the organizations with enough validators succeeds when all of them are known. -/
theorem requirementReached_eq_ok {totals : List (OrganizationId × Nat)} {f : OrganizationId → Nat}
    {m : List (OrganizationId × Nat)} (h : ∀ p ∈ m, countOf totals p.1 = some (f p.1)) :
    requirementReached totals m =
      .ok (m.filter fun p => decide (p.2 * 2 > f p.1)).length := by
  induction m with
  | nil => rfl
  | cons p m ih =>
    obtain ⟨o, n⟩ := p
    have hrest := ih fun p hp => h p (List.mem_cons_of_mem _ hp)
    have ho := h (o, n) List.mem_cons_self
    simp only [requirementReached, ho, okOr, hrest]
    by_cases hn : n * 2 > f o
    · simp [hn, bind, Except.bind, pure, Except.pure]
    · simp [hn, bind, Except.bind, pure, Except.pure]

/-- The quorum check asks for a majority of the targeted validators in more than two thirds
of as many organizations as are registered. -/
theorem checkForValidQuorumSet_ok_iff (hnodup : validators.Nodup) :
    checkForValidQuorumSet lib envelopes validators orgsLength = .ok () ↔
      2 * orgsLength < 3 * (majorityOrgs validators (fun w => isTargeted lib envelopes w = true)
        (organizationIds validators)).card := by
  set T := validators.filter (isTargeted lib envelopes) with hT
  have htargeted := represents_tally (T.map Validator.organizationId)
  have htotal := represents_tally (validators.map Validator.organizationId)
  have hsub : ∀ o ∈ T.map Validator.organizationId, o ∈ validators.map Validator.organizationId := by
    intro o ho
    obtain ⟨w, hw, rfl⟩ := List.mem_map.mp ho
    exact List.mem_map_of_mem (List.mem_of_mem_filter hw)
  have hreached : requirementReached (validatorCountPerOrg validators)
      (targetedOrganizationMap lib envelopes validators) =
      .ok ((targetedOrganizationMap lib envelopes validators).filter fun p =>
        decide (p.2 * 2 > (validators.map Validator.organizationId).count p.1)).length := by
    apply requirementReached_eq_ok (f := fun o => (validators.map Validator.organizationId).count o)
    rintro ⟨o, n⟩ hp
    exact htotal.countOf (hsub o ((htargeted.mem_iff o n).mp hp).1)
  -- the counted organizations are those with a majority of targeted validators
  have hcount : ((targetedOrganizationMap lib envelopes validators).filter fun p =>
        decide (p.2 * 2 > (validators.map Validator.organizationId).count p.1)).length =
      (majorityOrgs validators (fun w => isTargeted lib envelopes w = true)
        (organizationIds validators)).card := by
    have hlen := htargeted.length_filter fun o n =>
      decide (n * 2 > (validators.map Validator.organizationId).count o)
    rw [targetedOrganizationMap, ← hT, hlen]
    congr 1
    ext o
    simp only [Finset.mem_filter, List.mem_toFinset, majorityOrgs, HasMajority, decide_eq_true_eq,
      hT, count_filter_map hnodup, count_map hnodup, gt_iff_lt]
    constructor
    · rintro ⟨ho, hlt⟩
      exact ⟨List.mem_toFinset.mpr (hsub o ho), by omega⟩
    · rintro ⟨-, hlt⟩
      obtain ⟨w, hw, rfl, htarget⟩ := HasMajority.exists_mem (P := fun w =>
        isTargeted lib envelopes w = true) hlt
      refine ⟨List.mem_map_of_mem (List.mem_filter.mpr ⟨hw, htarget⟩), by omega⟩
  have hle : ((targetedOrganizationMap lib envelopes validators).filter fun p =>
        decide (p.2 * 2 > (validators.map Validator.organizationId).count p.1)).length ≤
      (targetedOrganizationMap lib envelopes validators).length := List.length_filter_le _ _
  simp only [checkForValidQuorumSet, except_rules, hreached, Except.ok.injEq, exists_eq_left',
    gt_iff_lt, hcount]
  rw [hcount] at hle
  constructor
  · rintro ⟨-, -, hlt⟩
    omega
  · intro hlt
    exact ⟨(), by omega, by omega⟩

end

/-! ## What an accepted proof contains -/

/-- A proof that a transaction was executed on the Stellar network. -/
structure StellarProof where
  transactionEnvelope : TransactionEnvelope
  envelopes : List ScpEnvelope
  transactionSet : TransactionSetType

/-- The pallet accepts the proof at the block. -/
def Validates (cfg : Config) (s : State) (blockNumber : BlockNumber) (proof : StellarProof) :
    Prop :=
  validateStellarTransaction lib cfg s blockNumber proof.transactionEnvelope proof.envelopes
    proof.transactionSet = .ok ()

/-- The envelope is validly signed and externalizes or confirms the value, whose transaction
set hash is `hash`, for the slot. -/
structure Endorses (lib : StellarLib) (network : Network) (slotIndex : Nat) (value : Value)
    (hash : Hash) (envelope : ScpEnvelope) : Prop where
  slot_eq : envelope.statement.slotIndex = slotIndex
  signed : verifySignature lib envelope network = .ok true
  value_eq : ∃ nH, getExternalizedInfo envelope = .ok (value, nH)
  hash_eq : lib.stellarValueTxSetHash value = some hash

/-- The list has an endorsing envelope with the validator's node id. -/
def VouchedBy (slotIndex : Nat) (value : Value) (hash : Hash) (envelopes : List ScpEnvelope)
    (validator : Validator) : Prop :=
  ∃ envelope ∈ envelopes, lib.toEncoding envelope.statement.nodeId = validator.publicKey ∧
    Endorses lib network slotIndex value hash envelope

section

variable {lib : StellarLib} {cfg : Config} {validators : List Validator} {network : Network}
  {value : Value} {hash : Hash} {slotIndex : Nat} {envelopes : List ScpEnvelope} {w : Validator}
  {nH : UInt32}

theorem isTargeted_iff :
    isTargeted lib envelopes w = true ↔
      ∃ envelope ∈ envelopes, lib.toEncoding envelope.statement.nodeId = w.publicKey := by
  simp [isTargeted]

/-- The envelopes that pass are envelopes of the list that endorse the value. -/
theorem validateEnvelopes_endorses {validated : List ScpEnvelope}
    (h : validateEnvelopes lib validators network value hash slotIndex envelopes nH = .ok validated) :
    ∀ e ∈ validated, e ∈ envelopes ∧ Endorses lib network slotIndex value hash e := by
  induction envelopes generalizing nH validated with
  | nil =>
    simp only [validateEnvelopes, Except.ok.injEq] at h
    simp [← h]
  | cons envelope envelopes ih =>
    simp only [validateEnvelopes, except_ite_eq_ok] at h
    rcases h with ⟨-, h⟩ | ⟨-, h⟩
    · simp only [except_rules, getTxSetHash] at h
      obtain ⟨-, hslot, _, hsigned, -, rfl, ⟨v, n⟩, hinfo, hash', hhash, -, rfl, -, rfl, nH', -,
        rest, hrest, rfl⟩ := h
      intro e he
      rcases List.mem_cons.mp he with rfl | he
      · exact ⟨List.mem_cons_self, hslot.symm, hsigned, ⟨n, hinfo⟩, hhash⟩
      · obtain ⟨hmem, hgood⟩ := ih hrest e he
        exact ⟨List.mem_cons_of_mem _ hmem, hgood⟩
    · intro e he
      obtain ⟨hmem, hgood⟩ := ih h e he
      exact ⟨List.mem_cons_of_mem _ hmem, hgood⟩

/-- Envelopes of validators that endorse the value with one `n_h` all pass. -/
theorem validateEnvelopes_of_endorses
    (hnode : ∀ e ∈ envelopes, isNodeIdExist lib e validators = true)
    (hgood : ∀ e ∈ envelopes, Endorses lib network slotIndex value hash e)
    (hinfo : ∀ e ∈ envelopes, getExternalizedInfo e = .ok (value, nH)) :
    validateEnvelopes lib validators network value hash slotIndex envelopes nH =
      .ok envelopes := by
  induction envelopes with
  | nil => rfl
  | cons envelope envelopes ih =>
    have hrest := ih (fun e he => hnode e (List.mem_cons_of_mem _ he))
      (fun e he => hgood e (List.mem_cons_of_mem _ he))
      (fun e he => hinfo e (List.mem_cons_of_mem _ he))
    have hhead := hgood envelope List.mem_cons_self
    have hcompare : compareNH nH nH = .ok nH := by
      unfold compareNH
      split
      · rfl
      · split <;> simp
    rw [validateEnvelopes, if_pos (hnode envelope List.mem_cons_self)]
    simp only [except_rules, getTxSetHash]
    exact ⟨(), hhead.slot_eq.symm, true, hhead.signed, (), rfl, _,
      hinfo envelope List.mem_cons_self, hash, hhead.hash_eq, (), rfl, (), rfl, nH, hcompare,
      envelopes, hrest, rfl⟩

/-- An accepted proof: the transaction is in the transaction set, and for the slot and the
value of the first externalize message, which carries the hash of the transaction set, more
than two thirds of as many organizations as are registered have a majority of validators
with an endorsing envelope. -/
theorem Validates.supported {s : State} {b : BlockNumber} {proof : StellarProof}
    {tier1 : Tier1Set} (h : Validates lib cfg s b proof)
    (hactive : validatorsAndOrgs s b = .ok tier1)
    (hnodup : tier1.validators.Nodup) :
    (∃ tx ∈ proof.transactionSet.txes,
      lib.getHash tx cfg.network = lib.getHash proof.transactionEnvelope cfg.network) ∧
    ∃ first value nH hash,
      proof.envelopes.find? isExternalized = some first ∧
      getExternalizedInfo first = .ok (value, nH) ∧
      lib.getTxSetHash proof.transactionSet = some hash ∧
      2 * tier1.organizations.length < 3 * (majorityOrgs tier1.validators
        (VouchedBy lib cfg.network first.statement.slotIndex value hash proof.envelopes)
        (organizationIds tier1.validators)).card := by
  simp only [Validates, validateStellarTransaction, except_rules, hactive, Except.ok.injEq,
    exists_eq_left', List.any_eq_true, decide_eq_true_eq] at h
  obtain ⟨-, -, -, hincluded, first, hfirst, ⟨value, nH⟩, hinfo, hash, hhash, validated, hvalidated,
    hquorum⟩ := h
  have hinfo : getExternalizedInfo first = .ok (value, nH) := by
    cases hcase : getExternalizedInfo first with
    | error e => simp [hcase, Except.toOption] at hinfo
    | ok info => simpa [hcase, Except.toOption] using hinfo
  refine ⟨hincluded, first, value, nH, hash, hfirst, hinfo, hhash, ?_⟩
  rw [checkForValidQuorumSet_ok_iff hnodup] at hquorum
  refine hquorum.trans_le (Nat.mul_le_mul_left 3 (Finset.card_le_card ?_))
  intro o ho
  obtain ⟨hmem, hmajority⟩ := Finset.mem_filter.mp ho
  refine Finset.mem_filter.mpr ⟨hmem, hmajority.mono ?_⟩
  intro w _ htarget
  obtain ⟨e, he, hkey⟩ := isTargeted_iff.mp htarget
  obtain ⟨hin, hgood⟩ := validateEnvelopes_endorses hvalidated e he
  exact ⟨e, hin, hkey, hgood⟩

end

/-! ## Support by registered organizations -/

/-- The registered organizations of a tier-1 set. -/
noncomputable def registeredIds (tier1 : Tier1Set) : Finset OrganizationId :=
  (tier1.organizations.map Organization.id).toFinset

/-- The transaction is in the transaction set, and for one slot and one value that carries the
hash of the transaction set, more than two thirds of the registered organizations have a
majority of validators with an endorsing envelope in the proof. -/
structure ProofSound (lib : StellarLib) (network : Network) (tier1 : Tier1Set)
    (proof : StellarProof) : Prop where
  included : ∃ tx ∈ proof.transactionSet.txes,
    lib.getHash tx network = lib.getHash proof.transactionEnvelope network
  supported : ∃ slotIndex value hash, lib.getTxSetHash proof.transactionSet = some hash ∧
    2 * (registeredIds tier1).card < 3 * (majorityOrgs tier1.validators
      (VouchedBy lib network slotIndex value hash proof.envelopes) (registeredIds tier1)).card

/-- No organization is registered, or all organizations that validators name are, or they
name too few organizations for any proof to be accepted. -/
def CountsRegistered (tier1 : Tier1Set) : Prop :=
  tier1.organizations = [] ∨
    (∀ w ∈ tier1.validators, w.organizationId ∈ registeredIds tier1) ∨
    3 * (organizationIds tier1.validators).card ≤ 2 * tier1.organizations.length

theorem Accepted.nodup_validators {cfg : Config} {tier1 : Tier1Set} (h : Accepted cfg tier1) :
    tier1.validators.Nodup :=
  h.nodup_keys.of_map _

theorem Accepted.card_registeredIds {cfg : Config} {tier1 : Tier1Set} (h : Accepted cfg tier1) :
    (registeredIds tier1).card = tier1.organizations.length := by
  rw [registeredIds, List.toFinset_card_of_nodup h.nodup_ids, List.length_map]

theorem checked_eq_ok {tier1 tier1' : Tier1Set} :
    checked tier1 = .ok tier1' ↔
      tier1.validators ≠ [] ∧ tier1.organizations ≠ [] ∧ tier1 = tier1' := by
  simp [checked]

theorem organizations_ne_nil_of_active {s : State} {b : BlockNumber} {tier1 : Tier1Set}
    (h : validatorsAndOrgs s b = .ok tier1) : tier1.organizations ≠ [] := by
  rw [validatorsAndOrgs_eq, except_ite_eq_ok, checked_eq_ok, checked_eq_ok] at h
  rcases h with ⟨-, -, horgs, rfl⟩ | ⟨-, -, horgs, rfl⟩
  · exact horgs
  · exact horgs

/-- Proofs are sound when the counted organizations are registered ones. -/
theorem Validates.sound {lib : StellarLib} {cfg : Config} {s : State} {b : BlockNumber}
    {proof : StellarProof} {tier1 : Tier1Set} (h : Validates lib cfg s b proof)
    (hactive : validatorsAndOrgs s b = .ok tier1) (hacc : Accepted cfg tier1)
    (hcounts : CountsRegistered tier1) : ProofSound lib cfg.network tier1 proof := by
  obtain ⟨hincluded, first, value, nH, hash, -, -, hhash, hquorum⟩ :=
    h.supported hactive hacc.nodup_validators
  refine ⟨hincluded, first.statement.slotIndex, value, hash, hhash, ?_⟩
  rcases hcounts with hnone | hreg | hfew
  · exact absurd hnone (organizations_ne_nil_of_active hactive)
  · rw [hacc.card_registeredIds]
    refine hquorum.trans_le (Nat.mul_le_mul_left 3 (Finset.card_le_card ?_))
    intro o ho
    obtain ⟨hmem, hmajority⟩ := Finset.mem_filter.mp ho
    obtain ⟨w, hw, rfl⟩ := mem_organizationIds.mp hmem
    exact Finset.mem_filter.mpr ⟨hreg w hw, hmajority⟩
  · have hle : (majorityOrgs tier1.validators
        (VouchedBy lib cfg.network first.statement.slotIndex value hash proof.envelopes)
        (organizationIds tier1.validators)).card ≤ (organizationIds tier1.validators).card :=
      Finset.card_le_card (Finset.filter_subset _ _)
    omega

/-! ### Proofs signed by chosen validators -/

/-- A library in which the `i`-th node id encodes as the `i`-th key and every signature is
valid. -/
def listedLib (keys : List Bytes) : StellarLib where
  toEncoding n := keys.getD n.toNat []
  verifySignature _ _ _ := true
  networkId _ := []
  statementToXdr _ := []
  getHash _ _ := 0
  getTxSetHash _ := some 0
  stellarValueTxSetHash _ := some 0
  decodeBase64 bytes := some bytes
  transactionEnvelopeFromXdr _ := none
  envelopesFromXdr _ := none
  transactionSetFromXdr _ := none
  toBase58 _ := []

/-- The externalize message of the `i`-th node. -/
def listedEnvelope (i : Nat) : ScpEnvelope :=
  ⟨⟨BitVec.ofNat 256 i, 0, .scpStExternalize [] 0 []⟩, List.replicate 64 0⟩

/-- A proof with the messages of the first `n` nodes. -/
def listedProof (n : Nat) : StellarProof :=
  ⟨.default [], (List.range n).map listedEnvelope, ⟨[.default []], []⟩⟩

section

variable {keys : List Bytes}

theorem toEncoding_listedEnvelope {i : Nat} (hi : i < keys.length) (hlen : keys.length < usizeMax) :
    (listedLib keys).toEncoding (listedEnvelope i).statement.nodeId = keys.get ⟨i, hi⟩ := by
  have hsmall : i < 2 ^ 256 := by
    have : usizeMax < 2 ^ 256 := by decide
    omega
  have hnode : (BitVec.ofNat 256 i).toNat = i := by
    rw [BitVec.toNat_ofNat, Nat.mod_eq_of_lt hsmall]
  simp [listedLib, listedEnvelope, hnode, hi]

/-- The validators with an envelope in a listed proof are those whose keys are listed. -/
theorem exists_listedEnvelope_iff (hlen : keys.length < usizeMax) (key : Bytes) :
    (∃ e ∈ (listedProof keys.length).envelopes,
      (listedLib keys).toEncoding e.statement.nodeId = key) ↔ key ∈ keys := by
  simp only [listedProof, List.mem_map, List.mem_range, exists_exists_and_eq_and]
  constructor
  · rintro ⟨i, hi, rfl⟩
    rw [toEncoding_listedEnvelope hi hlen]
    exact List.get_mem keys ⟨i, hi⟩
  · intro hkey
    obtain ⟨⟨i, hi⟩, hget⟩ := List.get_of_mem hkey
    exact ⟨i, hi, by rw [toEncoding_listedEnvelope hi hlen, hget]⟩

/-- A listed proof is accepted if the listed validators pass the quorum check. -/
theorem validates_listedProof {cfg : Config} {s : State} {b : BlockNumber} {tier1 : Tier1Set}
    (hactive : validatorsAndOrgs s b = .ok tier1) (hne : keys ≠ [])
    (hlen : keys.length < usizeMax)
    (hkeys : ∀ key ∈ keys, ∃ w ∈ tier1.validators, w.publicKey = key)
    (hquorum : checkForValidQuorumSet (listedLib keys) (listedProof keys.length).envelopes
      tier1.validators tier1.organizations.length = .ok ()) :
    Validates (listedLib keys) cfg s b (listedProof keys.length) := by
  have hpledge : ∀ e ∈ (listedProof keys.length).envelopes, ∃ i < keys.length,
      e = listedEnvelope i := by
    intro e he
    obtain ⟨i, hi, rfl⟩ := List.mem_map.mp he
    exact ⟨i, List.mem_range.mp hi, rfl⟩
  have hfirst : (listedProof keys.length).envelopes.find? isExternalized =
      some (listedEnvelope 0) := by
    cases keys with
    | nil => exact absurd rfl hne
    | cons key keys =>
      rw [listedProof, List.length_cons, List.range_succ_eq_map, List.map_cons,
        List.find?_cons_of_pos (by rfl)]
  have hvalidated : validateEnvelopes (listedLib keys) tier1.validators cfg.network [] 0 0
      (listedProof keys.length).envelopes 0 = .ok (listedProof keys.length).envelopes := by
    apply validateEnvelopes_of_endorses
    · intro e he
      have hkey := (exists_listedEnvelope_iff hlen _).mp ⟨e, he, rfl⟩
      obtain ⟨w, hw, heq⟩ := hkeys _ hkey
      simp only [isNodeIdExist, List.any_eq_true, decide_eq_true_eq]
      exact ⟨w, hw, heq⟩
    · intro e he
      obtain ⟨i, -, rfl⟩ := hpledge e he
      exact ⟨rfl, rfl, ⟨0, rfl⟩, rfl⟩
    · intro e he
      obtain ⟨i, -, rfl⟩ := hpledge e he
      rfl
  have hroom : 0 < usizeMax - (listedProof keys.length).envelopes.length := by
    rw [listedProof, List.length_map, List.length_range]
    omega
  simp only [Validates, validateStellarTransaction, except_rules, hactive, hfirst]
  exact ⟨(), hroom, (), rfl, tier1, rfl, listedEnvelope 0, rfl, ([], 0), rfl, 0, rfl, _,
    hvalidated, hquorum⟩

end

/-- The validators of the organizations in `L`. -/
noncomputable def validatorsOf (tier1 : Tier1Set) (L : Finset OrganizationId) : List Validator :=
  tier1.validators.filter fun w => decide (w.organizationId ∈ L)

/-- The keys of the validators of the organizations in `L`. -/
noncomputable def keysOf (tier1 : Tier1Set) (L : Finset OrganizationId) : List Bytes :=
  (validatorsOf tier1 L).map Validator.publicKey

section

variable {cfg : Config} {tier1 : Tier1Set} {L : Finset OrganizationId}

theorem length_keysOf_lt (hacc : Accepted cfg tier1) : (keysOf tier1 L).length < usizeMax := by
  have hle : (validatorsOf tier1 L).length ≤ tier1.validators.length := List.length_filter_le _ _
  have hlimit := hacc.validators_le
  have hsmall := cfg.validatorLimit_lt
  rw [keysOf, List.length_map]
  omega

/-- Keys are not shared, so a validator with a chosen key is of a chosen organization. -/
theorem publicKey_mem_keysOf_iff (hacc : Accepted cfg tier1) {w : Validator}
    (hw : w ∈ tier1.validators) : w.publicKey ∈ keysOf tier1 L ↔ w.organizationId ∈ L := by
  simp only [keysOf, validatorsOf, List.mem_map, List.mem_filter, decide_eq_true_eq]
  constructor
  · rintro ⟨w', ⟨hw', hL⟩, hkey⟩
    rwa [← List.inj_on_of_nodup_map hacc.nodup_keys hw' hw hkey]
  · intro hL
    exact ⟨w, ⟨hw, hL⟩, rfl⟩

theorem isTargeted_listed_iff (hacc : Accepted cfg tier1) {w : Validator}
    (hw : w ∈ tier1.validators) :
    isTargeted (listedLib (keysOf tier1 L)) (listedProof (keysOf tier1 L).length).envelopes w =
      true ↔ w.organizationId ∈ L := by
  rw [isTargeted_iff, exists_listedEnvelope_iff (length_keysOf_lt hacc),
    publicKey_mem_keysOf_iff hacc hw]

/-- All validators of the chosen organizations are targeted, no others. -/
theorem majorityOrgs_listed (hacc : Accepted cfg tier1)
    (hL : L ⊆ organizationIds tier1.validators) :
    majorityOrgs tier1.validators (fun w => isTargeted (listedLib (keysOf tier1 L))
      (listedProof (keysOf tier1 L).length).envelopes w = true)
      (organizationIds tier1.validators) = L := by
  ext o
  rw [majorityOrgs, Finset.mem_filter]
  constructor
  · rintro ⟨-, hmajority⟩
    obtain ⟨w, hw, rfl, htarget⟩ := hmajority.exists_mem
    exact (isTargeted_listed_iff hacc hw).mp htarget
  · intro ho
    refine ⟨hL ho, ?_⟩
    obtain ⟨w, hw, rfl⟩ := mem_organizationIds.mp (hL ho)
    refine HasMajority.of_forall hw fun w' hw' horg => ?_
    rw [isTargeted_listed_iff hacc hw', horg]
    exact ho

/-- A set that names enough organizations, one of them unregistered, has an accepted proof
that just reaches the two thirds with the unregistered organization. -/
theorem exists_unsound (hacc : Accepted cfg tier1) (h : ¬ CountsRegistered tier1) :
    ∃ lib s b proof, validatorsAndOrgs s b = .ok tier1 ∧ Validates lib cfg s b proof ∧
      ¬ ProofSound lib cfg.network tier1 proof := by
  simp only [CountsRegistered, not_or, not_forall, not_le] at h
  obtain ⟨horgs, ⟨w₀, hw₀, hunregistered⟩, hmany⟩ := h
  have hw₀mem : w₀.organizationId ∈ organizationIds tier1.validators :=
    mem_organizationIds.mpr ⟨w₀, hw₀, rfl⟩
  -- as few organizations as suffice, the unregistered one among them
  obtain ⟨L, hL₀, hLsub, hLcard⟩ := Finset.exists_subsuperset_card_eq
    (n := 2 * tier1.organizations.length / 3 + 1) (Finset.singleton_subset_iff.mpr hw₀mem)
    (by rw [Finset.card_singleton]; omega) (by omega)
  have hw₀L : w₀.organizationId ∈ L := Finset.singleton_subset_iff.mp hL₀
  have hactive : validatorsAndOrgs ⟨tier1, tier1, 0⟩ 0 = .ok tier1 := by
    rw [validatorsAndOrgs_eq, if_pos (le_refl 0), checked_eq_ok]
    exact ⟨List.ne_nil_of_mem hw₀, horgs, rfl⟩
  have hne : keysOf tier1 L ≠ [] :=
    List.ne_nil_of_mem ((publicKey_mem_keysOf_iff hacc hw₀).mpr hw₀L)
  have hkeys : ∀ key ∈ keysOf tier1 L, ∃ w ∈ tier1.validators, w.publicKey = key := by
    intro key hkey
    obtain ⟨w, hw, rfl⟩ := List.mem_map.mp hkey
    exact ⟨w, List.mem_of_mem_filter hw, rfl⟩
  have hquorum : checkForValidQuorumSet (listedLib (keysOf tier1 L))
      (listedProof (keysOf tier1 L).length).envelopes tier1.validators
      tier1.organizations.length = .ok () := by
    rw [checkForValidQuorumSet_ok_iff hacc.nodup_validators, majorityOrgs_listed hacc hLsub]
    omega
  refine ⟨_, _, _, _, hactive, validates_listedProof hactive hne (length_keysOf_lt hacc) hkeys
    hquorum, ?_⟩
  rintro ⟨-, slotIndex, value, hash, -, hsupport⟩
  -- a registered organization with a majority is chosen, and not the unregistered one
  have hsub : majorityOrgs tier1.validators (VouchedBy (listedLib (keysOf tier1 L)) cfg.network
      slotIndex value hash (listedProof (keysOf tier1 L).length).envelopes)
      (registeredIds tier1) ⊆ L.erase w₀.organizationId := by
    intro o ho
    obtain ⟨hreg, hmajority⟩ := Finset.mem_filter.mp ho
    obtain ⟨w, hw, rfl, e, he, hkey, -⟩ := hmajority.exists_mem
    rw [Finset.mem_erase]
    refine ⟨fun heq => hunregistered (heq ▸ hreg), ?_⟩
    exact (isTargeted_listed_iff hacc hw).mp (isTargeted_iff.mpr ⟨e, he, hkey⟩)
  have hcard := Finset.card_le_card hsub
  rw [Finset.card_erase_of_mem hw₀L] at hcard
  rw [hacc.card_registeredIds] at hsupport
  omega

end

/-- Let a tier-1 set be accepted by an update.  Every proof that is accepted while the set is
active is supported by more than two thirds of the registered organizations iff the set counts
registered organizations only. -/
theorem proofs_sound_iff (cfg : Config) (tier1 : Tier1Set) (height : BlockNumber)
    (s₀ s₁ : State)
    (hupdate : Returns (updateTier1ValidatorSet cfg tier1.validators tier1.organizations height)
      s₀ () s₁) :
    (∀ lib s b proof, validatorsAndOrgs s b = .ok tier1 → Validates lib cfg s b proof →
      ProofSound lib cfg.network tier1 proof) ↔ CountsRegistered tier1 := by
  have hacc : Accepted cfg tier1 := (returns_updateTier1ValidatorSet.mp hupdate).1
  constructor
  · intro hsound
    by_contra hcounts
    obtain ⟨lib, s, b, proof, hactive, hvalid, hunsound⟩ := exists_unsound hacc hcounts
    exact hunsound (hsound lib s b proof hactive hvalid)
  · intro hcounts lib s b proof hactive hvalid
    exact hvalid.sound hactive hacc hcounts

/-- A set with one validator, of the registered organization 0. -/
theorem proofs_sound_iff_singleton :
    Returns (updateTier1ValidatorSet sampleConfig (singleton 1).validators
      (singleton 1).organizations 5) sampleGenesis () (updated sampleGenesis (singleton 1) 5) ∧
    ((∀ lib s b proof, validatorsAndOrgs s b = .ok (singleton 1) →
      Validates lib sampleConfig s b proof →
        ProofSound lib sampleConfig.network (singleton 1) proof) ↔
      CountsRegistered (singleton 1)) := by
  have hupdate : Returns (updateTier1ValidatorSet sampleConfig (singleton 1).validators
      (singleton 1).organizations 5) sampleGenesis () (updated sampleGenesis (singleton 1) 5) :=
    returns_updateTier1ValidatorSet.mpr ⟨accepted_singleton 1, rfl⟩
  exact ⟨hupdate, proofs_sound_iff sampleConfig (singleton 1) 5 _ _ hupdate⟩

/-- One validator of the organization 7, while only the organization 0 is registered. -/
def strayTier1 : Tier1Set := ⟨[⟨[], [1], 7⟩], [⟨0, []⟩]⟩

/-- The set is accepted, and an envelope of its validator is an accepted proof, although no
validator belongs to the registered organization. -/
theorem unregistered_organization_counts :
    ∃ s₁, Returns (updateTier1ValidatorSet sampleConfig strayTier1.validators
        strayTier1.organizations 5) sampleGenesis () s₁ ∧
      validatorsAndOrgs s₁ 5 = .ok strayTier1 ∧
      Validates (listedLib [[1]]) sampleConfig s₁ 5 (listedProof 1) ∧
      ¬ ProofSound (listedLib [[1]]) sampleConfig.network strayTier1 (listedProof 1) := by
  refine ⟨⟨strayTier1, singleton 1, 5⟩, ?_, ?_, ?_, ?_⟩
  · exact returns_updateTier1ValidatorSet.mpr
      ⟨⟨by decide, by decide, by decide, by decide⟩, rfl⟩
  · decide
  · unfold Validates
    decide +kernel
  · rintro ⟨-, slotIndex, value, hash, -, hsupport⟩
    have hnone : majorityOrgs strayTier1.validators (VouchedBy (listedLib [[1]])
        sampleConfig.network slotIndex value hash (listedProof 1).envelopes)
        (registeredIds strayTier1) = ∅ := by
      refine Finset.filter_eq_empty_iff.mpr fun o ho hmajority => ?_
      obtain ⟨w, hw, rfl, -⟩ := hmajority.exists_mem
      rw [registeredIds, List.mem_toFinset] at ho
      rw [strayTier1, List.mem_singleton] at hw
      subst hw
      exact absurd ho (by decide)
    rw [hnone, Finset.card_empty] at hsupport
    omega

/-! ## Quorum intersection -/

/-- The slot of a proof, that of its first externalize message. -/
def StellarProof.slotIndex (proof : StellarProof) : Option Nat :=
  (proof.envelopes.find? isExternalized).map fun envelope => envelope.statement.slotIndex

/-- The externalized value of a proof, that of its first externalize message. -/
def StellarProof.externalizedValue (proof : StellarProof) : Option Value :=
  (proof.envelopes.find? isExternalized).bind fun envelope =>
    (getExternalizedInfo envelope).toOption.map Prod.fst

/-- The validator's node id has a validly signed envelope in the list. -/
def SignedBy (envelopes : List ScpEnvelope) (validator : Validator) (envelope : ScpEnvelope) :
    Prop :=
  envelope ∈ envelopes ∧ lib.toEncoding envelope.statement.nodeId = validator.publicKey ∧
    verifySignature lib envelope network = .ok true

/-- No validator signed statements with different values for one slot. -/
def NoEquivocation (validators : List Validator) (envelopes : List ScpEnvelope) : Prop :=
  ∀ w ∈ validators, ∀ e₁ e₂ v₁ v₂ n₁ n₂, SignedBy lib network envelopes w e₁ →
    SignedBy lib network envelopes w e₂ → e₁.statement.slotIndex = e₂.statement.slotIndex →
    getExternalizedInfo e₁ = .ok (v₁, n₁) → getExternalizedInfo e₂ = .ok (v₂, n₂) → v₁ = v₂

/-- Two sets of more than two thirds of the registered organizations share one, and two
majorities of its validators share a validator. -/
theorem exists_common_validator {tier1 : Tier1Set} {P Q : Validator → Prop}
    (hreg : ∀ w ∈ tier1.validators, w.organizationId ∈ registeredIds tier1)
    (hP : 2 * tier1.organizations.length <
      3 * (majorityOrgs tier1.validators P (organizationIds tier1.validators)).card)
    (hQ : 2 * tier1.organizations.length <
      3 * (majorityOrgs tier1.validators Q (organizationIds tier1.validators)).card) :
    ∃ w ∈ tier1.validators, P w ∧ Q w := by
  have hsub : organizationIds tier1.validators ⊆ registeredIds tier1 := by
    intro o ho
    obtain ⟨w, hw, rfl⟩ := mem_organizationIds.mp ho
    exact hreg w hw
  have hle : (registeredIds tier1).card ≤ tier1.organizations.length := by
    have h := List.toFinset_card_le (tier1.organizations.map Organization.id)
    rwa [List.length_map] at h
  have hinter : (majorityOrgs tier1.validators P (organizationIds tier1.validators) ∩
      majorityOrgs tier1.validators Q (organizationIds tier1.validators)).Nonempty :=
    Finset.inter_nonempty_of_card_lt_card_add_card ((Finset.filter_subset _ _).trans hsub)
      ((Finset.filter_subset _ _).trans hsub) (by omega)
  obtain ⟨o, ho⟩ := hinter
  obtain ⟨ho₁, ho₂⟩ := Finset.mem_inter.mp ho
  exact (Finset.mem_filter.mp ho₁).2.exists_common (Finset.mem_filter.mp ho₂).2

/-- If public keys are distinct and every validator's organization is registered, two accepted
proofs for one slot have validly signed envelopes of a common validator.  If moreover no
validator signs different values for one slot, both proofs carry the same externalized value
and the same transaction set hash. -/
theorem accepted_proofs_intersect (lib : StellarLib) (cfg : Config) (tier1 : Tier1Set)
    (hkeys : (tier1.validators.map Validator.publicKey).Nodup)
    (hreg : ∀ w ∈ tier1.validators, w.organizationId ∈ registeredIds tier1)
    (s₁ s₂ : State) (b₁ b₂ : BlockNumber) (proof₁ proof₂ : StellarProof)
    (hactive₁ : validatorsAndOrgs s₁ b₁ = .ok tier1)
    (hactive₂ : validatorsAndOrgs s₂ b₂ = .ok tier1)
    (hvalid₁ : Validates lib cfg s₁ b₁ proof₁) (hvalid₂ : Validates lib cfg s₂ b₂ proof₂)
    (hslot : proof₁.slotIndex = proof₂.slotIndex) :
    (∃ w ∈ tier1.validators, ∃ e₁ e₂, SignedBy lib cfg.network proof₁.envelopes w e₁ ∧
      SignedBy lib cfg.network proof₂.envelopes w e₂) ∧
    (NoEquivocation lib cfg.network tier1.validators (proof₁.envelopes ++ proof₂.envelopes) →
      (∃ value, proof₁.externalizedValue = some value ∧
        proof₂.externalizedValue = some value) ∧
      ∃ hash, lib.getTxSetHash proof₁.transactionSet = some hash ∧
        lib.getTxSetHash proof₂.transactionSet = some hash) := by
  have hnodup : tier1.validators.Nodup := hkeys.of_map _
  obtain ⟨-, first₁, v₁, n₁, hash₁, hfirst₁, hinfo₁, hhash₁, hquorum₁⟩ :=
    hvalid₁.supported hactive₁ hnodup
  obtain ⟨-, first₂, v₂, n₂, hash₂, hfirst₂, hinfo₂, hhash₂, hquorum₂⟩ :=
    hvalid₂.supported hactive₂ hnodup
  obtain ⟨w, hw, ⟨e₁, he₁, hkey₁, hgood₁⟩, ⟨e₂, he₂, hkey₂, hgood₂⟩⟩ :=
    exists_common_validator hreg hquorum₁ hquorum₂
  refine ⟨⟨w, hw, e₁, e₂, ⟨he₁, hkey₁, hgood₁.signed⟩, ⟨he₂, hkey₂, hgood₂.signed⟩⟩, ?_⟩
  intro hhonest
  -- the common validator's envelopes are for the same slot
  have hslots : first₁.statement.slotIndex = first₂.statement.slotIndex := by
    simpa [StellarProof.slotIndex, hfirst₁, hfirst₂] using hslot
  obtain ⟨m₁, hvalue₁⟩ := hgood₁.value_eq
  obtain ⟨m₂, hvalue₂⟩ := hgood₂.value_eq
  have hvalue : v₁ = v₂ :=
    hhonest w hw e₁ e₂ v₁ v₂ m₁ m₂ ⟨List.mem_append_left _ he₁, hkey₁, hgood₁.signed⟩
      ⟨List.mem_append_right _ he₂, hkey₂, hgood₂.signed⟩
      (by rw [hgood₁.slot_eq, hgood₂.slot_eq, hslots]) hvalue₁ hvalue₂
  subst hvalue
  have hhash : hash₁ = hash₂ := Option.some.inj (hgood₁.hash_eq.symm.trans hgood₂.hash_eq)
  subst hhash
  refine ⟨⟨v₁, ?_, ?_⟩, hash₁, hhash₁, hhash₂⟩
  · simp [StellarProof.externalizedValue, hfirst₁, hinfo₁, Except.toOption]
  · simp [StellarProof.externalizedValue, hfirst₂, hinfo₂, Except.toOption]

/-- The same proof twice, with one validator. -/
theorem accepted_proofs_intersect_singleton :
    ∃ w ∈ (singleton 1).validators, ∃ e₁ e₂,
      SignedBy (listedLib [[1]]) sampleConfig.network (listedProof 1).envelopes w e₁ ∧
      SignedBy (listedLib [[1]]) sampleConfig.network (listedProof 1).envelopes w e₂ := by
  have hactive : validatorsAndOrgs sampleGenesis 0 = .ok (singleton 1) := by decide
  have hvalid : Validates (listedLib [[1]]) sampleConfig sampleGenesis 0 (listedProof 1) := by
    unfold Validates
    decide +kernel
  have hreg : ∀ w ∈ (singleton 1).validators, w.organizationId ∈ registeredIds (singleton 1) := by
    intro w hw
    rw [singleton, List.mem_singleton] at hw
    subst hw
    exact List.mem_toFinset.mpr (List.mem_singleton.mpr rfl)
  exact (accepted_proofs_intersect (listedLib [[1]]) sampleConfig (singleton 1)
    (List.nodup_singleton _) hreg sampleGenesis sampleGenesis 0 0 _ _ hactive hactive hvalid hvalid
    rfl).1

end Spacewalk.Relay
