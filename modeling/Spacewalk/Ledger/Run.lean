import Spacewalk.Ledger.IssueCalls
import Spacewalk.Ledger.RedeemCalls
import Spacewalk.Ledger.ReplaceCalls
import Spacewalk.Runtime.Replay

/-!
# Runs of the chain

Every successful extrinsic is a transition, the registration or recovery of a vault or a
withdrawal from a closed pool (`dispatch_effect`), and a step of the environment leaves the books.  From this the
invariants of the chain follow: a linear relation between the accounts that holds for every
balanced entry, and that liquidations and recoveries keep, holds in every state of every run
(`Relation.holds`).  The status of a vault goes through few steps only (`vault_lives`).
-/

namespace Spacewalk.Ledger

open Foundation VaultRegistry Staking Issue Redeem Replace
open Function (update update_of_ne)
open Security (nextId)

variable {B : Type} {R : Runtime B} {s s' : Chain B} {o : Origin} {u : Unit} {call : RuntimeCall}

/-! ## Effects of extrinsics -/

/-- The spare tokens that a call makes a vault give away without having promised them. -/
def callTaken (call : RuntimeCall) (s : Chain B) : VaultId → ℤ :=
  match call with
  | .replace (.executeReplace id _ _ _) => takenBy (s.replace.replaceRequests id)
  | _ => 0

/-- What a successful extrinsic does. -/
inductive Effect (R : Runtime B) (s : Chain B) : Origin → RuntimeCall → Chain B → Prop
  | transition {o : Origin} {call : RuntimeCall} {s' : Chain B} :
      Transition R s (callTaken call s) s' → Effect R s o call s'
  | registers {a : AccountId} {p : VaultCurrencyPair} {n : ℕ} {s' : Chain B} :
      Registers R ⟨a, p⟩ n s s' →
      Effect R s (.signed a) (.vaultRegistry (.registerVault p n)) s'
  | recovers {a : AccountId} {p : VaultCurrencyPair} {s' : Chain B} : Recovers R ⟨a, p⟩ s s' →
      Effect R s (.signed a) (.vaultRegistry (.recoverVaultId p)) s'
  | withdraws {a : AccountId} {v : VaultId} {n : ℕ} {index : Option Nonce} {s' : Chain B} :
      ClosedWithdrawal R v (min (index.getD 0) (s.staking.nonce v)) n s s' →
      Effect R s (.signed a) (.nomination (.withdrawCollateral v n index)) s'

/-- A call of root that only sets a value leaves the books. -/
theorem Effect.configured {f : Chain B → Chain B} (hs : Keyed s) (htaken : callTaken call s = 0)
    (hf : Frame R s (f s)) (h : Returns (do ensureRoot o; modify f : ChainM B Unit) s u s') :
    Effect R s o call s' := by
  simp only [returns_steps] at h
  obtain ⟨_, -, rfl⟩ := h
  refine .transition ?_
  rw [htaken]
  exact hf.transition hs

section

variable (hR : R.tokens.Lawful) (hs : Sound s)

include hR hs

theorem vaultRegistry_effect {call : VaultRegistry.Call}
    (h : Returns (call.dispatch R o) s u s') : Effect R s o (.vaultRegistry call) s' := by
  cases call with
  | registerVault p n =>
    obtain ⟨a, rfl, hregisters⟩ := registerVault_registers hR hs h
    exact .registers hregisters
  | depositCollateral p n => exact .transition (depositCollateral_transition hR hs h)
  | withdrawCollateral p n => exact .transition (withdrawCollateral_transition hR hs h)
  | registerPublicKey key =>
    simp only [VaultRegistry.Call.dispatch, registerPublicKey, returns_steps] at h
    obtain ⟨_, -, _, ⟨-, rfl⟩⟩ := h
    exact .transition (Frame.transition
      ⟨⟨rfl, rfl, rfl, rfl, rfl⟩, rfl, rfl, rfl, rfl, rfl, rfl, rfl⟩ hs.keyed)
  | acceptNewIssues p a => exact .transition (acceptNewIssues_transition hs h)
  | setCustomSecureThreshold p t => exact .transition (setCustomSecureThreshold_transition hs h)
  | reportUndercollateralizedVault v =>
    exact .transition (reportUndercollateralizedVault_transition hR hs h)
  | setSecureCollateralThreshold p t =>
    simp only [VaultRegistry.Call.dispatch, setSecureCollateralThreshold, addRewardCurrency,
      returns_rules, returns_zoom, returns_ite, returns_set] at h
    obtain ⟨_, _, ⟨-, rfl⟩, _, _, rfl, _, ⟨_, _, ⟨rfl, rfl⟩,
      ⟨-, -, rfl⟩ | ⟨-, _, _, ⟨-, rfl⟩, rfl⟩⟩, rfl⟩ := h
    · exact .transition (Frame.transition
        ⟨⟨rfl, rfl, rfl, rfl, rfl⟩, rfl, rfl, rfl, rfl, rfl, rfl, rfl⟩ hs.keyed)
    · exact .transition (Frame.transition
        ⟨⟨rfl, rfl, rfl, rfl, rfl⟩, rfl, rfl, rfl, rfl, rfl, rfl, rfl⟩ hs.keyed)
  | recoverVaultId p =>
    obtain ⟨a, rfl, hrecovers⟩ := recoverVaultId_recovers (R := R) hs h
    exact .recovers hrecovers
  | _ =>
    exact .configured hs.keyed rfl
      ⟨⟨rfl, rfl, rfl, rfl, rfl⟩, rfl, rfl, rfl, rfl, rfl, rfl, rfl⟩ h

theorem nomination_effect {call : Nomination.Call} (h : Returns (call.dispatch R o) s u s') :
    Effect R s o (.nomination call) s' := by
  cases call with
  | setNominationEnabled e =>
    exact .configured hs.keyed rfl
      ⟨⟨rfl, rfl, rfl, rfl, rfl⟩, rfl, rfl, rfl, rfl, rfl, rfl, rfl⟩ h
  | optInToNomination p =>
    simp only [Nomination.Call.dispatch, Nomination.optInToNomination, returns_guards,
      returns_set] at h
    obtain ⟨_, -, _, -, -, -, -, rfl⟩ := h
    exact .transition (Frame.transition
      ⟨⟨rfl, rfl, rfl, rfl, rfl⟩, rfl, rfl, rfl, rfl, rfl, rfl, rfl⟩ hs.keyed)
  | optOutOfNomination p => exact .transition (optOutOfNomination_transition hs h)
  | depositCollateral v n => exact .transition (nominationDeposit_transition hs hR h)
  | withdrawCollateral v n index =>
    obtain ⟨a, rfl, ⟨-, hmoves⟩ | hclosed⟩ := nominationWithdraw_cases hs hR h
    · exact .transition (.ofFunds (neg_mem (Holding.backing v n).mem) hmoves)
    · exact .withdraws hclosed

theorem issue_effect {call : Issue.Call} (h : Returns (call.dispatch R o) s u s') :
    Effect R s o (.issue call) s' := by
  cases call with
  | requestIssue n v => exact .transition (requestIssue_transition hR hs h)
  | executeIssue id envelope scp set =>
    obtain ⟨r', -, hsettled⟩ := executeIssue_settled hR hs.keyed h
    exact .transition hsettled.transition
  | cancelIssue id =>
    obtain ⟨r, r', -, -, -, hsettled⟩ := cancelIssue_settled hR hs.keyed h
    exact .transition hsettled.transition
  | _ =>
    exact .configured hs.keyed rfl
      ⟨⟨rfl, rfl, rfl, rfl, rfl⟩, rfl, rfl, rfl, rfl, rfl, rfl, rfl⟩ h

theorem redeem_effect {call : Redeem.Call} (h : Returns (call.dispatch R o) s u s') :
    Effect R s o (.redeem call) s' := by
  cases call with
  | requestRedeem n key v => exact .transition (requestRedeem_transition hR hs h)
  | liquidationRedeem p n => exact .transition (liquidationRedeem_transition hR hs h)
  | executeRedeem id envelope scp set =>
    obtain ⟨r, -, -, hsettled⟩ := executeRedeem_settled hR hs.keyed h
    exact .transition hsettled.transition
  | cancelRedeem id reimburse =>
    obtain ⟨r, status, -, -, -, hsettled⟩ := cancelRedeem_settled hR hs.keyed h
    exact .transition hsettled.transition
  | mintTokensForReimbursedRedeem p id =>
    obtain ⟨r, -, -, hsettled⟩ := mintTokensForReimbursedRedeem_settled hR hs.keyed h
    exact .transition hsettled.transition
  | selfRedeem p n => exact .transition (selfRedeem_transition hR hs.keyed h)
  | _ =>
    exact .configured hs.keyed rfl
      ⟨⟨rfl, rfl, rfl, rfl, rfl⟩, rfl, rfl, rfl, rfl, rfl, rfl, rfl⟩ h

theorem replace_effect {call : Replace.Call} (h : Returns (call.dispatch R o) s u s') :
    Effect R s o (.replace call) s' := by
  cases call with
  | requestReplace p n => exact .transition (requestReplace_transition hR hs h)
  | withdrawReplace p n => exact .transition (withdrawReplace_transition hR hs h)
  | acceptReplace p v n m key => exact .transition (acceptReplace_transition hR hs h)
  | executeReplace id envelope scp set =>
    obtain ⟨r, -, -, hsettled⟩ := executeReplace_settled hR hs h
    exact .transition hsettled.transition
  | cancelReplace id =>
    obtain ⟨r, hstored, hpending, hsettled⟩ := cancelReplace_settled hR hs h
    have htaken : Write.taken (.replace id { r with status := .cancelled }) s = 0 := by
      rw [Write.taken, hstored, takenBy, if_neg (by simp [hpending])]
    have htransition := hsettled.transition
    rw [htaken] at htransition
    exact .transition htransition
  | _ =>
    exact .configured hs.keyed rfl
      ⟨⟨rfl, rfl, rfl, rfl, rfl⟩, rfl, rfl, rfl, rfl, rfl, rfl, rfl⟩ h

/-- What a successful extrinsic does. -/
theorem dispatch_effect (h : Returns (call.dispatch R o) s u s') : Effect R s o call s' := by
  cases call with
  | vaultRegistry call => exact vaultRegistry_effect hR hs h
  | nomination call => exact nomination_effect hR hs h
  | issue call => exact issue_effect hR hs h
  | redeem call => exact redeem_effect hR hs h
  | replace call => exact replace_effect hR hs h

end

/-! ## Well-formed states -/

variable {W : Set CurrencyId} {record : Record} {w : Write} {v : VaultId} {id : H256}

theorem Effect.sound (h : Effect R s o call s') (hs : Sound s) : Sound s' := by
  cases h with
  | transition h => exact h.sound hs
  | registers h => exact h.posts.sound hs
  | recovers h => exact h.posts.sound hs
  | withdraws h => exact h.sound hs

theorem environment_status (h : EnvironmentStep R W s s') : statusOf s' = statusOf s :=
  statusOf_congr (by rw [h.vaultRegistry])

theorem environment_sound (h : EnvironmentStep R W s s') (hs : Sound s) : Sound s' where
  keyed := hs.keyed.congr (by rw [h.vaultRegistry]) (by rw [h.vaultRegistry])
  whole := by
    rw [h.totalCurrentStake]
    exact hs.whole
  unopened := by
    rw [h.totalCurrentStake, h.nonce]
    exact hs.unopened
  unregistered := by
    rw [h.totalCurrentStake, environment_status h]
    exact hs.unregistered
  distinct := by
    rw [h.replace]
    exact hs.distinct

theorem step_sound (hR : R.tokens.Lawful) (h : Step R W s record s') (hs : Sound s) : Sound s' := by
  cases h with
  | extrinsic h => exact (dispatch_effect hR hs h).sound hs
  | environment h => exact environment_sound h hs

theorem genesis_sound (h : IsGenesis s) : Sound s where
  keyed := by
    refine ⟨?_, ?_, ?_, ?_⟩ <;> simp [h.vaults, h.liquidationVaults]
  whole key := by
    rw [h.staking]
    exact dvd_zero _
  unopened k v _ := by
    rw [h.staking]
    rfl
  unregistered k v _ := by
    rw [h.staking]
    rfl
  distinct := by simp [h.replaces]

/-! ## Fresh identifiers -/

/-- The identifier belongs to a request. -/
def Used (s : Chain B) (id : H256) : Prop :=
  s.issue.issueRequests id ≠ none ∨ s.redeem.redeemRequests id ≠ none ∨
    s.replace.replaceRequests id ≠ none

theorem Used.congr (h : SameRequests s s') : Used s' id ↔ Used s id := by
  rw [Used, Used, h.issues, h.redeems, h.replaces]

theorem Write.used_apply (h : Used (w.apply s) id) : Used s id ∨ id = w.id := by
  by_cases hid : id = w.id
  · exact .inr hid
  · left
    cases w with
    | issue id' r =>
      have hne : id ≠ id' := hid
      simpa [Used, Write.apply, Chain.mapIssue, hne] using h
    | redeem id' r =>
      have hne : id ≠ id' := hid
      simpa [Used, Write.apply, Chain.mapRedeem, hne] using h
    | replace id' r =>
      have hne : id ≠ id' := hid
      simpa [Used, Write.apply, Chain.mapReplace, hne] using h

theorem Settles.used (h : Settles s w) : Used s w.id := by
  cases h with
  | issue hget _ _ => exact .inl (by simp [Write.id, hget])
  | redeem hget _ => exact .inr (.inl (by simp [Write.id, hget]))
  | replace hget _ _ _ _ => exact .inr (.inr (by simp [Write.id, hget]))

/-- A request with an unused identifier replaces nothing. -/
theorem Write.replaced_eq_zero (h : ¬ Used s w.id) : w.replaced s = 0 := by
  simp only [Used, not_or, not_not] at h
  obtain ⟨hissue, hredeem, hreplace⟩ := h
  cases w with
  | issue id r => exact congrArg issuePosting hissue
  | redeem id r => exact congrArg redeemPosting hredeem
  | replace id r => exact congrArg replacePosting hreplace

theorem Write.nonce_apply (w : Write) (s : Chain B) : (w.apply s).security = s.security := by
  cases w <;> rfl

theorem drawnBetween_opens {s₁ : Chain B} (hid : w.id = nextId R s) (h : SameRequests s s₁) :
    drawnBetween R s (w.apply (drawn s₁)) = some w.id := by
  have hnonce : (w.apply (drawn s₁)).security.nonce = s.security.nonce + 1 := by
    rw [w.nonce_apply, ← h.drawn]
    rfl
  have hne : s.security.nonce + 1 ≠ s.security.nonce := by
    simp
  rw [drawnBetween, hnonce, if_neg hne, hid]

/-- A call writes at most one request: one that it settles, or one with the next identifier. -/
theorem dispatch_requests (hR : R.tokens.Lawful) (hs : Sound s)
    (hcall : Returns (call.dispatch R o) s () s') :
    ∃ s₁, SameRequests s s₁ ∧ (s' = s₁ ∨ (∃ w, Settles s w ∧ s' = w.apply s₁) ∨
      ∃ w : Write, w.id = nextId R s ∧ s' = w.apply (drawn s₁)) := by
  cases dispatch_effect hR hs hcall with
  | registers h => exact ⟨s', h.posts.toSameRequests, .inl rfl⟩
  | recovers h => exact ⟨s', h.posts.toSameRequests, .inl rfl⟩
  | withdraws h => exact ⟨s', h.toSameRequests, .inl rfl⟩
  | transition h =>
    generalize callTaken _ s = taken at h
    cases h with
    | internal _ _ h => exact ⟨s', h.toSameRequests, .inl rfl⟩
    | settles w hw _ _ h => exact ⟨_, h.toSameRequests, .inr (.inl ⟨w, hw, rfl⟩)⟩
    | opens w _ hnext _ _ h => exact ⟨_, h.toSameRequests, .inr (.inr ⟨w, hnext, rfl⟩)⟩
    | activates _ h _ => exact ⟨s', h.toSameRequests, .inl rfl⟩
    | liquidates _ h h' =>
      exact ⟨s', h.toSameRequests.trans h'.posts.toSameRequests, .inl rfl⟩
    | refunds h => exact ⟨s', h.toSameRequests, .inl rfl⟩

/-- A request that is there after a step was there before it, or its identifier was drawn. -/
theorem step_used (hR : R.tokens.Lawful) (hs : Sound s) (h : Step R W s record s')
    (hid : Used s' id) : Used s id ∨ record.drawn = some id := by
  cases h with
  | environment h =>
    left
    rwa [Used, h.issue, h.redeem, h.replace] at hid
  | extrinsic hcall =>
    obtain ⟨s₁, hsame, rfl | ⟨w, hw, rfl⟩ | ⟨w, hnext, rfl⟩⟩ := dispatch_requests hR hs hcall
    · exact .inl ((Used.congr hsame).mp hid)
    · rcases Write.used_apply hid with hused | rfl
      · exact .inl ((Used.congr hsame).mp hused)
      · exact .inl hw.used
    · rcases Write.used_apply hid with hused | rfl
      · exact .inl ((Used.congr hsame).mp hused)
      · exact .inr (drawnBetween_opens hnext hsame)

theorem genesis_requested (h : IsGenesis s) : requested s = 0 := by
  funext account
  simp [requested, posted_apply, h.issues, h.redeems, h.replaces, issuePosting, redeemPosting,
    replacePosting]

theorem genesis_unused (h : IsGenesis s) (id : H256) : ¬ Used s id := by
  simp [Used, h.issues, h.redeems, h.replaces]

section

variable {step : Chain B → Record → Chain B → Prop} {I : Chain B → Prop} {s₀ : Chain B}
  {records : List Record}

/-- Every state of a run is well formed. -/
theorem run_sound (hR : R.tokens.Lawful) (hle : ∀ s l s', step s l s' → Step R W s l s')
    (hrun : Run step s₀ records s) (hgenesis : IsGenesis s₀) : Sound s :=
  hrun.invariant (fun _ _ _ hs h => step_sound hR (hle _ _ _ h) hs) (genesis_sound hgenesis)

/-- An invariant of well-formed states. -/
theorem run_invariant (hR : R.tokens.Lawful) (hle : ∀ s l s', step s l s' → Step R W s l s')
    (hstep : ∀ s l s', Sound s → I s → step s l s' → I s') (hrun : Run step s₀ records s)
    (hgenesis : IsGenesis s₀) (h₀ : I s₀) : Sound s ∧ I s := by
  refine hrun.invariant (I := fun s => Sound s ∧ I s) ?_ ⟨genesis_sound hgenesis, h₀⟩
  rintro s l s' ⟨hs, hI⟩ h
  exact ⟨step_sound hR (hle s l s' h) hs, hstep s l s' hs hI h⟩

/-- An invariant of well-formed states, if no identifier is drawn twice: then every new request
has an unused identifier. -/
theorem run_invariant_of_nodup (hR : R.tokens.Lawful)
    (hle : ∀ s l s', step s l s' → Step R W s l s')
    (hstep : ∀ s l s', Sound s → I s → step s l s' → (∀ id, l.drawn = some id → ¬ Used s id) →
      I s')
    (hrun : Run step s₀ records s) (hnodup : (drawnIds records).Nodup) (hgenesis : IsGenesis s₀)
    (h₀ : I s₀) : (Sound s ∧ I s) ∧ ∀ id, Used s id → id ∈ drawnIds records := by
  have hinv := hrun.invariant_of_nodup (f := Record.drawn)
    (I := fun s A => (Sound s ∧ I s) ∧ ∀ id, Used s id → id ∈ A) ?_ hnodup (A := ∅)
    ⟨⟨genesis_sound hgenesis, h₀⟩, fun id hid => absurd hid (genesis_unused hgenesis id)⟩
    (fun _ _ => Set.notMem_empty _)
  · simpa [drawnIds] using hinv
  rintro s l s' A ⟨⟨hs, hI⟩, hused⟩ h hnew
  refine ⟨⟨step_sound hR (hle s l s' h) hs, ?_⟩, ?_⟩
  · exact hstep s l s' hs hI h fun id hid hu => hnew id hid (hused id hu)
  · intro id hid
    rcases step_used hR hs (hle s l s' h) hid with hu | hdrawn
    · exact .inl (hused id hu)
    · exact .inr hdrawn

end

/-! ## Registered vaults -/

theorem statusOf_write (w : Write) (s : Chain B) : statusOf (w.apply s) = statusOf s :=
  statusOf_congr (by rw [(w.apply_vaultRegistry s).1])

/-- A transition registers no vault. -/
theorem Transition.registered {taken : VaultId → ℤ} (h : Transition R s taken s')
    (hv : statusOf s' v ≠ none) : statusOf s v ≠ none := by
  cases h with
  | internal _ _ h => rwa [h.status] at hv
  | settles w _ _ _ h => rwa [statusOf_write, h.status] at hv
  | @opens _ _ s₁ w _ _ _ _ h =>
    rw [statusOf_write] at hv
    rw [← h.status]
    exact hv
  | @activates w _ _ _ hw _ hstatus =>
    rw [hstatus] at hv
    by_cases heq : v = w
    · subst heq
      simp [hw]
    · rwa [update_of_ne heq] at hv
  | @liquidates _ _ d s₁ _ _ h h' =>
    rw [h'.status] at hv
    rw [← h.status]
    by_cases heq : v = d.id
    · subst heq
      simp [h'.stored.statusOf_eq]
    · rwa [update_of_ne heq] at hv
  | refunds h => rwa [statusOf_congr h.vaults] at hv

/-- A vault that is registered after a step was registered before it, or in it. -/
theorem step_registered (hR : R.tokens.Lawful) (hs : Sound s) (h : Step R W s record s')
    (hv : statusOf s' v ≠ none) : statusOf s v ≠ none ∨
      ∃ n, record.event =
        .extrinsic (.signed v.accountId) (.vaultRegistry (.registerVault v.currencies n)) := by
  cases h with
  | environment h =>
    rw [environment_status h] at hv
    exact .inl hv
  | extrinsic hcall =>
    cases dispatch_effect hR hs hcall with
    | transition h => exact .inl (h.registered hv)
    | @registers a p n _ h =>
      rw [h.status] at hv
      by_cases heq : v = ⟨a, p⟩
      · subst heq
        exact .inr ⟨n, rfl⟩
      · rw [update_of_ne heq] at hv
        exact .inl hv
    | @recovers a p _ h =>
      left
      rw [h.status] at hv
      by_cases heq : v = ⟨a, p⟩
      · subst heq
        simp [h.liquidated]
      · rwa [update_of_ne heq] at hv
    | withdraws h =>
      rw [statusOf_congr h.vaults] at hv
      exact .inl hv

/-- Every vault was registered by its account. -/
theorem run_registered (hR : R.tokens.Lawful) {s₀ : Chain B} {records : List Record}
    (hrun : Run (Step R W) s₀ records s) (hs₀ : Sound s₀) (hv : statusOf s v ≠ none) :
    statusOf s₀ v ≠ none ∨ ∃ record ∈ records, ∃ n, record.event =
      .extrinsic (.signed v.accountId) (.vaultRegistry (.registerVault v.currencies n)) := by
  induction hrun with
  | nil => exact .inl hv
  | @cons s t u l ls hstep _ ih =>
    rcases ih (step_sound hR hstep hs₀) hv with ht | ⟨record, hmem, hrecord⟩
    · rcases step_registered hR hs₀ hstep ht with hs | hrecord
      · exact .inl hs
      · exact .inr ⟨l, List.mem_cons_self, hrecord⟩
    · exact .inr ⟨record, List.mem_cons_of_mem l hmem, hrecord⟩

/-! ## The status of a vault -/

/-- A vault is registered and recovered by its account.  While it is active, a call can make it
accept new issue requests or not, and a call can liquidate it. -/
inductive Lives (v : VaultId) : Option VaultStatus → Event → Option VaultStatus → Prop
  | stays (status : Option VaultStatus) (event : Event) : Lives v status event status
  | registers (n : ℕ) : Lives v none (.extrinsic (.signed v.accountId)
      (.vaultRegistry (.registerVault v.currencies n))) (some (.active true))
  | recovers : Lives v (some .liquidated) (.extrinsic (.signed v.accountId)
      (.vaultRegistry (.recoverVaultId v.currencies))) (some (.active true))
  | accepts (a a' : Bool) (o : Origin) (call : RuntimeCall) :
      Lives v (some (.active a)) (.extrinsic o call) (some (.active a'))
  | liquidates (a : Bool) (o : Origin) (call : RuntimeCall) :
      Lives v (some (.active a)) (.extrinsic o call) (some .liquidated)

theorem Lives.of_eq {status status' : Option VaultStatus} {event : Event} (h : status' = status) :
    Lives v status event status' :=
  h ▸ .stays _ event

/-- Only the status of one vault changes. -/
theorem Lives.of_update {σ : VaultId → Option VaultStatus} {w : VaultId} {status : Option VaultStatus}
    {event : Event} (h : Lives w (σ w) event status) : Lives v (σ v) event (update σ w status v) := by
  by_cases hv : v = w
  · subst hv
    rwa [Function.update_self]
  · exact .of_eq (update_of_ne hv _ _)

theorem step_lives (hR : R.tokens.Lawful) (hs : Sound s) (h : Step R W s record s') :
    Lives v (statusOf s v) record.event (statusOf s' v) := by
  cases h with
  | environment h => exact .of_eq (congrFun (environment_status h) v)
  | extrinsic hcall =>
    cases dispatch_effect hR hs hcall with
    | registers h =>
      rw [h.status]
      exact .of_update (h.unregistered ▸ .registers _)
    | recovers h =>
      rw [h.status]
      exact .of_update (h.liquidated ▸ .recovers)
    | withdraws h => exact .of_eq (congrFun (statusOf_congr h.vaults) v)
    | transition h =>
      generalize callTaken _ s = taken at h
      cases h with
      | internal _ _ h => exact .of_eq (congrFun h.status v)
      | settles w _ _ _ h => exact .of_eq (congrFun ((statusOf_write w _).trans h.status) v)
      | @opens _ _ s₁ w _ _ _ _ h =>
        exact .of_eq (congrFun ((statusOf_write w (drawn s₁)).trans h.status) v)
      | refunds h => exact .of_eq (congrFun (statusOf_congr h.vaults) v)
      | activates hactive _ hstatus =>
        rw [hstatus]
        exact .of_update (hactive ▸ .accepts _ _ _ _)
      | @liquidates _ _ d s₁ _ _ h h' =>
        -- what comes before the tokens are moved leaves the status
        rw [h'.status, h.status]
        refine .of_update ?_
        rw [← h.status, h'.stored.statusOf_eq]
        cases hstatus : d.status with
        | active a => exact .liquidates a _ _
        | liquidated => exact absurd hstatus h'.active

/-- A linear relation between the accounts, which may depend on which vaults are liquidated, with
a condition on its value: it vanishes on every balanced entry, a liquidation keeps the
condition, and it sees the issuance of the currencies `W` only. -/
structure Relation (R : Runtime B) (W : Set CurrencyId) (good : ℤ → Prop)
    (f : (VaultId → Option VaultStatus) → Posting →+ ℤ) : Prop where
  status : ∀ σ σ', (∀ v, σ' v = some .liquidated ↔ σ v = some .liquidated) → f σ' = f σ
  entry : ∀ σ δ, Entry R σ δ → f σ δ = 0
  liquidates : ∀ σ (d : Vault) (b : Posting), σ d.id ≠ some .liquidated →
    (∀ i, b (.vault d.id i) = (d.item i : ℤ)) → d.toBeReplacedTokens = 0 → good (f σ b) →
    good (f (update σ d.id (some .liquidated)) (b + movedTokens d))
  environment : ∀ σ δ, (∀ account, (∀ c, account = .issuance c → c ∈ W) → δ account = 0) →
    f σ δ = 0

/-- The value of a relation in a state. -/
noncomputable def valueOf (R : Runtime B) (f : (VaultId → Option VaultStatus) → Posting →+ ℤ)
    (s : Chain B) : ℤ :=
  f (statusOf s) (balances R s)

section Relation

variable {good : ℤ → Prop} {f : (VaultId → Option VaultStatus) → Posting →+ ℤ} {T : Set VaultId}
  {δ : Posting}

theorem balances_write (w : Write) (h : Posts R T δ s s') :
    balances R (w.apply s') = balances R s + δ + (w.posting - w.replaced s) := by
  rw [balances, balances, w.recorded_apply, w.requested_apply, h.balance,
    h.toSameRequests.requested_eq, w.replaced_congr h.toSameRequests]
  abel

theorem balances_drawn (s : Chain B) : balances R (drawn s) = balances R s := by
  rw [balances, balances, recorded_drawn]
  rfl

theorem Posts.balances_eq (h : Posts R T δ s s') : balances R s' = balances R s + δ := by
  rw [balances, balances, h.balance, h.toSameRequests.requested_eq]
  abel

/-- The account counts requests. -/
def Account.isRequest : Account → Bool
  | .issueTokens _ | .issueGriefing _ | .redeemTokens _ | .redeemEscrow _ _ | .replaceIn _
  | .replaceOut _ | .replaceGriefing _ => true
  | .reserved _ _ | .issuance _ | .stake _ | .closed _ | .total _ | .vault _ _ | .system _ _ =>
    false

section

variable {account : Account} (h : account.isRequest = false)

include h

theorem issuePosting_of_not_isRequest (r : Option IssueRequest) : issuePosting r account = 0 := by
  cases r with
  | none => rfl
  | some r =>
    rw [issuePosting]
    split_ifs
    · cases account <;> simp_all [Account.isRequest]
    · rfl

theorem redeemPosting_of_not_isRequest (r : Option RedeemRequest) :
    redeemPosting r account = 0 := by
  cases r with
  | none => rfl
  | some r =>
    rw [redeemPosting]
    split_ifs
    · cases account <;> simp_all [Account.isRequest]
    · rfl

theorem replacePosting_of_not_isRequest (r : Option ReplaceRequest) :
    replacePosting r account = 0 := by
  cases r with
  | none => rfl
  | some r =>
    rw [replacePosting]
    split_ifs
    · cases account <;> simp_all [Account.isRequest]
    · rfl

theorem Write.replaced_of_not_isRequest (w : Write) (s : Chain B) : w.replaced s account = 0 := by
  cases w with
  | issue id r => exact issuePosting_of_not_isRequest h _
  | redeem id r => exact redeemPosting_of_not_isRequest h _
  | replace id r => exact replacePosting_of_not_isRequest h _

theorem requested_of_not_isRequest (s : Chain B) : requested s account = 0 := by
  simp [requested, posted_apply, issuePosting_of_not_isRequest h, redeemPosting_of_not_isRequest h,
    replacePosting_of_not_isRequest h]

/-- What is not a request is recorded by the pallets. -/
theorem balances_of_not_isRequest (s : Chain B) : balances R s account = recorded R s account := by
  rw [balances, Pi.add_apply, requested_of_not_isRequest h, add_zero]

end

@[simp] theorem balances_vault (s : Chain B) (v : VaultId) (i : VaultItem) :
    balances R s (.vault v i) = recorded R s (.vault v i) :=
  balances_of_not_isRequest rfl s

@[simp] theorem balances_system (s : Chain B) (p : VaultCurrencyPair) (i : SystemItem) :
    balances R s (.system p i) = recorded R s (.system p i) :=
  balances_of_not_isRequest rfl s

@[simp] theorem balances_issuance (s : Chain B) (c : CurrencyId) :
    balances R s (.issuance c) = recorded R s (.issuance c) :=
  balances_of_not_isRequest rfl s

@[simp] theorem balances_reserved (s : Chain B) (c : CurrencyId) (a : AccountId) :
    balances R s (.reserved c a) = recorded R s (.reserved c a) :=
  balances_of_not_isRequest rfl s

@[simp] theorem balances_total (s : Chain B) (p : VaultCurrencyPair) :
    balances R s (.total p) = recorded R s (.total p) :=
  balances_of_not_isRequest rfl s

@[simp] theorem balances_stake (s : Chain B) (v : VaultId) :
    balances R s (.stake v) = recorded R s (.stake v) :=
  balances_of_not_isRequest rfl s

@[simp] theorem balances_closed (s : Chain B) (v : VaultId) :
    balances R s (.closed v) = recorded R s (.closed v) :=
  balances_of_not_isRequest rfl s

@[simp] theorem Write.replaced_vault (w : Write) (s : Chain B) (v : VaultId) (i : VaultItem) :
    w.replaced s (.vault v i) = 0 :=
  w.replaced_of_not_isRequest rfl s

@[simp] theorem Write.replaced_system (w : Write) (s : Chain B) (p : VaultCurrencyPair) (i : SystemItem) :
    w.replaced s (.system p i) = 0 :=
  w.replaced_of_not_isRequest rfl s

@[simp] theorem Write.replaced_issuance (w : Write) (s : Chain B) (c : CurrencyId) :
    w.replaced s (.issuance c) = 0 :=
  w.replaced_of_not_isRequest rfl s

@[simp] theorem Write.replaced_reserved (w : Write) (s : Chain B) (c : CurrencyId) (a : AccountId) :
    w.replaced s (.reserved c a) = 0 :=
  w.replaced_of_not_isRequest rfl s

@[simp] theorem Write.replaced_total (w : Write) (s : Chain B) (p : VaultCurrencyPair) :
    w.replaced s (.total p) = 0 :=
  w.replaced_of_not_isRequest rfl s

@[simp] theorem Write.replaced_stake (w : Write) (s : Chain B) (v : VaultId) :
    w.replaced s (.stake v) = 0 :=
  w.replaced_of_not_isRequest rfl s

@[simp] theorem Write.replaced_closed (w : Write) (s : Chain B) (v : VaultId) :
    w.replaced s (.closed v) = 0 :=
  w.replaced_of_not_isRequest rfl s

/-- A balanced posting keeps the value. -/
theorem valueOf_posts (h : Posts R T δ s s') (hδ : f (statusOf s) δ = 0)
    (hstatus : f (statusOf s') = f (statusOf s)) : valueOf R f s' = valueOf R f s := by
  rw [valueOf, valueOf, hstatus, h.balances_eq, map_add, hδ, add_zero]

namespace Relation

variable (hf : Relation R W good f)

include hf

theorem journal_eq_zero {σ : VaultId → Option VaultStatus} (hδ : δ ∈ journal R σ) : f σ δ = 0 :=
  journal_le_ker (hf.entry σ) δ hδ

theorem funds_eq_zero {σ : VaultId → Option VaultStatus} (hδ : δ ∈ funds R) : f σ δ = 0 :=
  hf.journal_eq_zero (funds_le_journal hδ)

/-- A liquidation keeps the condition. -/
theorem value_liquidates {d : Vault} {s₁ : Chain B} (hδ : δ ∈ funds R)
    (hmoves : Moves R T
      (-on (.vault d.id .toBeReplaced) (recorded R s (.vault d.id .toBeReplaced)) + δ) s s₁)
    (hmoved : TokensMoved R d s₁ s') (hgood : good (valueOf R f s)) : good (valueOf R f s') := by
  have hactive : statusOf s d.id ≠ some .liquidated := by
    rw [← hmoves.status, hmoved.stored.statusOf_eq]
    simpa using hmoved.active
  -- first no tokens are to be replaced any more
  have hfirst : valueOf R f s₁ = valueOf R f s := by
    refine valueOf_posts hmoves.toPosts ?_ (by rw [hmoves.status])
    rw [map_add, map_neg, hf.entry _ _ (.replacing d.id _ hactive), hf.funds_eq_zero hδ]
    rfl
  have hitems : ∀ i, balances R s₁ (.vault d.id i) = (d.item i : ℤ) := by
    intro i
    rw [balances_vault, hmoved.stored.recorded_eq]
  have hreplaced : d.toBeReplacedTokens = 0 := by
    obtain ⟨-, -, -, hzero⟩ := funds_tokens (v := d.id) (p := d.id.currencies) hδ
    have hitem := hmoved.stored.recorded_eq (R := R) .toBeReplaced
    rw [hmoves.balance] at hitem
    simp only [Pi.add_apply, Pi.neg_apply, Pi.single_eq_same, hzero, add_zero, add_neg_cancel,
      Vault.item] at hitem
    exact_mod_cast hitem.symm
  rw [valueOf, hmoved.status, hmoved.posts.balances_eq]
  refine hf.liquidates _ d _ ?_ hitems hreplaced (by rwa [← hfirst] at hgood)
  rwa [hmoves.status]

/-- A transition keeps the condition, if a request that is overwritten does. -/
theorem transition {taken : VaultId → ℤ} (h : Transition R s taken s')
    (hfresh : ∀ w : Write, drawnBetween R s s' = some w.id → good (valueOf R f s) →
      good (valueOf R f s - f (statusOf s) (w.replaced s)))
    (hgood : good (valueOf R f s)) : good (valueOf R f s') := by
  cases h with
  | internal hδ _ h =>
    rwa [valueOf_posts h.toPosts (hf.journal_eq_zero hδ) (by rw [h.status])]
  | settles w hw hδ _ h =>
    rw [valueOf, statusOf_write, h.status, balances_write w h.toPosts, add_assoc, map_add,
      hf.journal_eq_zero hδ, add_zero]
    exact hgood
  | @opens T δ s₁ w _ hid hδ _ h =>
    have hvalue : valueOf R f (w.apply (drawn s₁)) =
        valueOf R f s - f (statusOf s) (w.replaced s) := by
      have hdrawn : w.apply (drawn s₁) = drawn (w.apply s₁) := by
        cases w <;> rfl
      have hsum : balances R s + δ + (w.posting - w.replaced s) =
          balances R s - w.replaced s + (δ + w.posting) := by abel
      rw [hdrawn, valueOf, balances_drawn, balances_write w h.toPosts, hsum]
      change f (statusOf (w.apply s₁)) _ = _
      rw [statusOf_write, h.status, map_add, hf.journal_eq_zero hδ, add_zero, map_sub]
      rfl
    rw [hvalue]
    exact hfresh w (drawnBetween_opens hid h.toSameRequests) hgood
  | @activates v a a' _ hv h hstatus =>
    rwa [valueOf_posts h (map_zero _) (hf.status _ _ ?_)]
    intro w
    rw [hstatus]
    by_cases hw : w = v
    · subst hw
      simp [hv]
    · simp [hw]
  | liquidates hδ h h' => exact hf.value_liquidates hδ h h' hgood
  | @refunds v n _ h =>
    have hbalance : balances R s' = balances R s + (on (.closed v) (scale * n) -
        on (.stake v) (scale * n) - on (.total v.currencies) n) := by
      rw [balances, balances, h.balance, h.toSameRequests.requested_eq]
      abel
    rw [valueOf, statusOf_congr h.vaults, hbalance, map_add, hf.funds_eq_zero (refunded_mem v n),
      add_zero]
    exact hgood

theorem registers {n : ℕ} (h : Registers R v n s s') : valueOf R f s' = valueOf R f s := by
  refine valueOf_posts h.posts (hf.entry _ _ (.funds (.backing v n))) (hf.status _ _ ?_)
  intro w
  rw [h.status]
  by_cases hw : w = v
  · subst hw
    simp [h.unregistered]
  · simp [hw]

theorem closedWithdrawal {k : Nonce} {n : ℕ} (h : ClosedWithdrawal R v k n s s') :
    valueOf R f s' = valueOf R f s := by
  have hbalance : balances R s' = balances R s -
      (on (.reserved v.currencies.collateral v.accountId) n + on (.closed v) (scale * n)) := by
    rw [balances, balances, h.balance, h.toSameRequests.requested_eq]
    abel
  rw [valueOf, valueOf, statusOf_congr h.vaults, hbalance, map_sub,
    hf.entry _ _ (.funds (.closed v n)), sub_zero]

theorem environmentStep (h : EnvironmentStep R W s s') : valueOf R f s' = valueOf R f s := by
  have hsum : balances R s' = balances R s + (recorded R s' - recorded R s) := by
    rw [balances, balances, requested, requested, h.issue, h.redeem, h.replace]
    abel
  have hzero : f (statusOf s) (recorded R s' - recorded R s) = 0 := by
    refine hf.environment _ _ fun account haccount => ?_
    rw [Pi.sub_apply, sub_eq_zero]
    cases account <;>
      simp [recorded, getLiquidationVault, h.reserved, h.totalCurrentStake, h.nonce,
        h.vaultRegistry]
    exact h.issuance _ (haccount _ rfl)
  rw [valueOf, valueOf, environment_status h, hsum, map_add, hzero, add_zero]

/-- A step keeps the condition, if a request that is overwritten does and the recovery of a vault
does. -/
theorem step (hR : R.tokens.Lawful) (hs : Sound s) (h : Step R W s record s')
    (hfresh : ∀ w : Write, record.drawn = some w.id → good (valueOf R f s) →
      good (valueOf R f s - f (statusOf s) (w.replaced s)))
    (hrecovers : ∀ a p, record.event = .extrinsic (.signed a) (.vaultRegistry (.recoverVaultId p)) →
      Recovers R ⟨a, p⟩ s s' → good (valueOf R f s) →
      good (f (update (statusOf s) ⟨a, p⟩ (some (.active true))) (balances R s)))
    (hgood : good (valueOf R f s)) : good (valueOf R f s') := by
  cases h with
  | environment h => rwa [hf.environmentStep h]
  | extrinsic hcall =>
    cases dispatch_effect hR hs hcall with
    | transition h => exact hf.transition h hfresh hgood
    | registers h => rwa [hf.registers h]
    | @recovers a p _ h =>
      rw [valueOf, h.status, h.posts.balances_eq, add_zero]
      exact hrecovers a p rfl h hgood
    | withdraws h => rwa [hf.closedWithdrawal h]

variable {step : Chain B → Record → Chain B → Prop} {s₀ : Chain B} {records : List Record}
  (hR : R.tokens.Lawful) (hle : ∀ s l s', step s l s' → Step R W s l s')
  (hrecovers : ∀ s l s' a p, step s l s' →
    l.event = .extrinsic (.signed a) (.vaultRegistry (.recoverVaultId p)) →
    Recovers R ⟨a, p⟩ s s' → good (valueOf R f s) →
    good (f (update (statusOf s) ⟨a, p⟩ (some (.active true))) (balances R s)))
  (hrun : Run step s₀ records s) (hgenesis : IsGenesis s₀) (h₀ : good (valueOf R f s₀))

include hR hle hrecovers hrun hgenesis h₀

/-- A relation that overwritten requests and recoveries keep holds in every state of a run. -/
theorem holds (hreplaced : ∀ s (w : Write), Sound s → good (valueOf R f s) →
      good (valueOf R f s - f (statusOf s) (w.replaced s))) : good (valueOf R f s) := by
  refine (run_invariant (I := fun s => good (valueOf R f s)) hR hle ?_ hrun hgenesis h₀).2
  intro s l s' hs hgood h
  exact hf.step hR hs (hle s l s' h) (fun w _ => hreplaced s w hs)
    (fun a p => hrecovers s l s' a p h) hgood

/-- A relation that recoveries keep holds in every state of a run that draws no identifier
twice. -/
theorem holds_of_nodup (hnodup : (drawnIds records).Nodup) : good (valueOf R f s) := by
  refine (run_invariant_of_nodup (I := fun s => good (valueOf R f s)) hR hle ?_ hrun hnodup
    hgenesis h₀).1.2
  intro s l s' hs hgood h hunused
  refine hf.step hR hs (hle s l s' h) ?_ (fun a p => hrecovers s l s' a p h) hgood
  intro w hw hgood
  rwa [Write.replaced_eq_zero (hunused w.id hw), map_zero, sub_zero]

end Relation

end Relation

end Spacewalk.Ledger
