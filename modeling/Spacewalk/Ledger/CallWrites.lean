import Spacewalk.Ledger.Surroundings
import Spacewalk.Ledger.Requests

/-!
# Which requests a call writes

Three pallets keep requests.  A call writes requests of at most one kind (`writtenKind`): the calls
that open, execute or cancel a request write its kind, and all others write none.  The redeem pallet
also keeps the amounts of cancelled requests, and a call writes that of at most one request
(`writtenAmount`).

`Writes` is the frame: only requests of some kinds and the amounts of some requests change.
`dispatch_writes` says that a call writes what these functions give.  Behind it stands the frame of
the vault registry, `SameSurroundings`; a call adds to it what it does itself.
-/

namespace Spacewalk.Ledger

open Foundation Function VaultRegistry Issue Redeem Replace
open Stellar (Bytes)

variable {B : Type} {R : Runtime B} {W : Set CurrencyId} {s s' : Chain B} {u : Unit} {o : Origin}
  {k : RequestKind}

def SameOf (k : RequestKind) (s s' : Chain B) : Prop :=
  match k with
  | .issue => s'.issue.issueRequests = s.issue.issueRequests
  | .redeem => s'.redeem.redeemRequests = s.redeem.redeemRequests
  | .replace => s'.replace.replaceRequests = s.replace.replaceRequests

instance sameOf_refl (k : RequestKind) : Std.Refl (SameOf (B := B) k) :=
  ⟨fun _ => by cases k <;> rfl⟩

instance sameOf_trans (k : RequestKind) : IsTrans (Chain B) (SameOf k) := by
  refine ⟨fun _ _ _ h h' => ?_⟩
  cases k <;> exact Eq.trans h' h

theorem sameOf_of_surroundings (h : SameSurroundings s s') : SameOf k s s' := by
  cases k with
  | issue => exact congrArg (fun t => t.issue.issueRequests) h
  | redeem => exact congrArg (fun t => t.redeem.redeemRequests) h
  | replace => exact congrArg (fun t => t.replace.replaceRequests) h

/-- What leaves the surroundings leaves the requests. -/
theorem sameOf_of {α : Type} {m : ChainM B α} (h : Respects SameSurroundings m) :
    Respects (SameOf k) m :=
  fun s a s' hm => sameOf_of_surroundings (h s a s' hm)

/-- At most the requests of some kinds and the cancelled amounts of some requests were written. -/
structure Writes (K : Set RequestKind) (C : Set H256) (s s' : Chain B) : Prop where
  requests : ∀ k, k ∉ K → SameOf k s s'
  amounts : ∀ id, id ∉ C → s'.redeem.cancelledRedeemAmount id = s.redeem.cancelledRedeemAmount id

section

variable {K : Set RequestKind} {C : Set H256}

instance writes_refl (K : Set RequestKind) (C : Set H256) : Std.Refl (Writes (B := B) K C) :=
  ⟨fun s => ⟨fun k _ => refl_of (SameOf k) s, fun _ _ => rfl⟩⟩

instance writes_trans (K : Set RequestKind) (C : Set H256) : IsTrans (Chain B) (Writes K C) :=
  ⟨fun _ _ _ h h' => ⟨fun k hk => trans_of (SameOf k) (h.requests k hk) (h'.requests k hk),
    fun id hid => (h'.amounts id hid).trans (h.amounts id hid)⟩⟩

theorem writes_of_same (hissue : s'.issue.issueRequests = s.issue.issueRequests)
    (hredeem : s'.redeem.redeemRequests = s.redeem.redeemRequests)
    (hreplace : s'.replace.replaceRequests = s.replace.replaceRequests)
    (hamount : s'.redeem.cancelledRedeemAmount = s.redeem.cancelledRedeemAmount) :
    Writes K C s s' := by
  refine ⟨fun k _ => ?_, fun id _ => congrFun hamount id⟩
  cases k with
  | issue => exact hissue
  | redeem => exact hredeem
  | replace => exact hreplace

/-- What leaves the surroundings writes nothing here. -/
theorem writes_of {α : Type} {m : ChainM B α} (h : Respects SameSurroundings m) :
    Respects (Writes K C) m := by
  intro s a s' hm
  have hsame := h s a s' hm
  exact ⟨fun k _ => sameOf_of_surroundings hsame,
    fun id _ => congrArg (fun t => t.redeem.cancelledRedeemAmount id) hsame⟩

theorem mapIssue_writes (hk : .issue ∈ K) (f : Issue.Storage → Issue.Storage) :
    Respects (Writes K C) (modify (Chain.mapIssue f) : ChainM B Unit) := by
  refine .modify fun s => ⟨fun k hne => ?_, fun _ _ => rfl⟩
  cases k with
  | issue => exact absurd hk hne
  | _ => rfl

/-- A change of the redeem storage that leaves the cancelled amounts. -/
theorem mapRedeem_writes (hk : .redeem ∈ K) {f : Redeem.Storage → Redeem.Storage}
    (hf : ∀ s, (f s).cancelledRedeemAmount = s.cancelledRedeemAmount) :
    Respects (Writes K C) (modify (Chain.mapRedeem f) : ChainM B Unit) := by
  refine .modify fun s => ⟨fun k hne => ?_, fun id _ => congrFun (hf s.redeem) id⟩
  cases k with
  | redeem => exact absurd hk hne
  | _ => rfl

theorem setRedeemStatus_respects (hk : .redeem ∈ K) (id : H256) (status : RedeemRequestStatus) :
    Respects (Writes K C) (setRedeemStatus id status : ChainM B Unit) :=
  mapRedeem_writes hk fun _ => rfl

theorem mapReplace_writes (hk : .replace ∈ K) (f : Replace.Storage → Replace.Storage) :
    Respects (Writes K C) (modify (Chain.mapReplace f) : ChainM B Unit) := by
  refine .modify fun s => ⟨fun k hne => ?_, fun _ _ => rfl⟩
  cases k with
  | replace => exact absurd hk hne
  | _ => rfl

theorem setCancelledRedeemAmount_writes {id : H256} (hid : id ∈ C) (value : Option (ℕ × CurrencyId)) :
    Respects (Writes K C) (setCancelledRedeemAmount id value : ChainM B Unit) := by
  refine .modify fun s => ⟨fun k _ => by cases k <;> rfl, fun id' hne => ?_⟩
  have hother : id' ≠ id := fun heq => hne (by rwa [heq])
  exact update_of_ne hother _ _

theorem writes_steady : Steady R (Writes K C) :=
  steady_of_surroundings fun _ _ hsame => ⟨fun _ _ => sameOf_of_surroundings hsame,
    fun id _ => congrArg (fun t => t.redeem.cancelledRedeemAmount id) hsame⟩

theorem writes_drawing : Drawing R (Writes K C) :=
  drawing_of (fun _ => writes_of_same rfl rfl rfl rfl) (fun _ _ => writes_of_same rfl rfl rfl rfl)
    fun _ _ => writes_of_same rfl rfl rfl rfl

end

theorem Settled.issueRequests {id : H256} {r : IssueRequest} (h : Settled R s (.issue id r) s') :
    s'.issue.issueRequests = update s.issue.issueRequests id (some r) := by
  obtain ⟨-, T, δ, s₁, -, -, hmoves, rfl⟩ := h
  exact congrArg (fun requests => update requests id (some r)) hmoves.issues

theorem Settled.redeemRequests {id : H256} {r : RedeemRequest} (h : Settled R s (.redeem id r) s') :
    s'.redeem.redeemRequests = update s.redeem.redeemRequests id (some r) := by
  obtain ⟨-, T, δ, s₁, -, -, hmoves, rfl⟩ := h
  exact congrArg (fun requests => update requests id (some r)) hmoves.redeems

theorem Settled.replaceRequests {id : H256} {r : ReplaceRequest}
    (h : Settled R s (.replace id r) s') :
    s'.replace.replaceRequests = update s.replace.replaceRequests id (some r) := by
  obtain ⟨-, T, δ, s₁, -, -, hmoves, rfl⟩ := h
  exact congrArg (fun requests => update requests id (some r)) hmoves.replaces

theorem getSecureId_sameOf : Respects (SameOf k) (Security.getSecureId R) :=
  .bind (.modify fun _ => by cases k <;> rfl) fun _ => .gets fun _ => .pure _

/-! ## The vault registry and nomination -/

section

variable {K : Set RequestKind} {C : Set H256}

/-- A call of root that sets a value elsewhere. -/
theorem configure_writes {f : Chain B → Chain B} (hf : ∀ s, Writes K C s (f s)) :
    Respects (Writes K C) (do ensureRoot o; modify f : ChainM B Unit) :=
  .lift fun _ => .modify hf

theorem vaultRegistry_writes (call : VaultRegistry.Call) :
    Respects (Writes K C) (call.dispatch R o) := by
  have hupdate : ∀ d f, Respects (Writes K C) (Vault.update d f : ChainM B Vault) :=
    vaultUpdate_respects fun _ _ => writes_of_same rfl rfl rfl rfl
  cases call with
  | registerVault p n =>
    refine .lift fun a => .reads fun _ => .bind (.modify fun s => ?_) fun _ => ?_
    · exact writes_of_same rfl rfl rfl rfl
    · exact writes_steady.tryDepositCollateral _ _
  | depositCollateral p n =>
    exact writes_of (surroundings_of fun σ => (surroundings_copies σ).depositCollateralCall p n)
  | withdrawCollateral p n =>
    exact writes_of (surroundings_of fun σ => (surroundings_copies σ).withdrawCollateralCall p n)
  | registerPublicKey key =>
    refine .lift fun a => .gets fun s => .lift fun _ => .modify fun s => ?_
    exact writes_of_same rfl rfl rfl rfl
  | acceptNewIssues p a =>
    refine .lift fun a => .reads fun d => ?_
    refine .bind (hupdate d _) fun _ => ?_
    exact .bind (writes_of (withdrawAllRewardsFromVault_surroundings _)) fun _ =>
      updateRewardStake_respects (fun _ _ => writes_of_same rfl rfl rfl rfl) _
  | setCustomSecureThreshold p t =>
    refine writes_of (surroundings_of fun σ => ?_)
    exact (surroundings_copies (R := R) σ).setCustomSecureThreshold p t fun _ _ _ => trivial
  | reportUndercollateralizedVault v =>
    refine .reads fun d => .gets fun s => .lift fun t => ?_
    refine .reads fun b => .lift fun _ => ?_
    exact .bind (writes_of (liquidateVault_surroundings _)) fun _ => .pure _
  | setSecureCollateralThreshold p t =>
    refine .lift fun _ => .bind (.modify fun s => ?_) fun _ => ?_
    · exact writes_of_same rfl rfl rfl rfl
    · exact writes_of (staking_surroundings _)
  | recoverVaultId p =>
    refine .lift fun a => .reads fun b => .lift fun _ => ?_
    refine .reads fun d => .lift fun _ => ?_
    exact .bind (hupdate d _) fun _ => .pure _
  | _ => exact configure_writes fun _ => writes_of_same rfl rfl rfl rfl

theorem nomination_writes (call : Nomination.Call) :
    Respects (Writes K C) (call.dispatch R o) := by
  refine writes_of (surroundings_of fun σ => ?_)
  refine (surroundings_copies σ).nominationCall (fun v => keeps_of ?_) (fun _ _ hs => hs) call
  refine .bind (withdrawAllRewardsFromVault_surroundings v) fun _ => ?_
  refine .bind (staking_surroundings _) fun _ => ?_
  exact .bind (updateRewardStake_respects (fun _ _ => rfl) v) fun _ => .pure _

/-! ## All calls -/

def writtenKind : RuntimeCall → Option RequestKind
  | .issue (.requestIssue _ _) | .issue (.executeIssue _ _ _ _) | .issue (.cancelIssue _) =>
    some .issue
  | .redeem (.requestRedeem _ _ _) | .redeem (.executeRedeem _ _ _ _) | .redeem (.cancelRedeem _ _)
  | .redeem (.mintTokensForReimbursedRedeem _ _) => some .redeem
  | .replace (.acceptReplace _ _ _ _ _) | .replace (.executeReplace _ _ _ _)
  | .replace (.cancelReplace _) => some .replace
  | _ => none

/-- The request whose cancelled amount a call writes. -/
def writtenAmount : RuntimeCall → Option H256
  | .redeem (.cancelRedeem id _) | .redeem (.mintTokensForReimbursedRedeem _ id) => some id
  | _ => none

theorem issue_writes {call : Issue.Call} (hK : ∀ k, writtenKind (.issue call) = some k → k ∈ K) :
    Respects (Writes K C) (call.dispatch R o) := by
  cases call with
  | requestIssue n v =>
    exact writes_steady.requestIssue writes_drawing (fun _ _ => mapIssue_writes (hK _ rfl) _) n v
  | executeIssue id e x t =>
    refine writes_steady.executeIssue (fun _ _ _ => ?_) writes_drawing
      (fun _ _ => mapIssue_writes (hK _ rfl) _) id e x t
    refine .reads fun fee => .lift fun rest => ?_
    exact .bind (mapIssue_writes (hK _ rfl) _) fun _ => .pure _
  | cancelIssue id => exact writes_steady.cancelIssue (fun _ _ => mapIssue_writes (hK _ rfl) _) id
  | _ => exact configure_writes fun _ => writes_of_same rfl rfl rfl rfl

theorem redeem_writes {call : Redeem.Call} (hK : ∀ k, writtenKind (.redeem call) = some k → k ∈ K)
    (hC : ∀ id, writtenAmount (.redeem call) = some id → id ∈ C) :
    Respects (Writes K C) (call.dispatch R o) := by
  cases call with
  | requestRedeem n a v =>
    exact writes_steady.requestRedeem writes_drawing
      (fun _ _ => mapRedeem_writes (hK _ rfl) fun _ => rfl) n a v
  | liquidationRedeem p n => exact writes_steady.liquidationRedeem p n
  | executeRedeem id e x t =>
    exact writes_steady.executeRedeem (setRedeemStatus_respects (hK _ rfl)) writes_drawing id e x t
  | cancelRedeem id b =>
    exact writes_steady.cancelRedeem (setRedeemStatus_respects (hK _ rfl))
      (setCancelledRedeemAmount_writes (hC _ rfl)) b
  | mintTokensForReimbursedRedeem p id =>
    exact writes_steady.mintTokensForReimbursedRedeem
      (setCancelledRedeemAmount_writes (hC _ rfl)) (setRedeemStatus_respects (hK _ rfl)) p
  | selfRedeem p n => exact writes_steady.selfRedeem p n
  | _ => exact configure_writes fun _ => writes_of_same rfl rfl rfl rfl

theorem replace_writes {call : Replace.Call}
    (hK : ∀ k, writtenKind (.replace call) = some k → k ∈ K) :
    Respects (Writes K C) (call.dispatch R o) := by
  cases call with
  | requestReplace p n => exact writes_steady.requestReplace p n
  | withdrawReplace p n => exact writes_steady.withdrawReplace p n
  | acceptReplace p v n c a =>
    exact writes_steady.acceptReplace writes_drawing (fun _ _ => mapReplace_writes (hK _ rfl) _)
      p v n c a
  | executeReplace id e x t =>
    exact writes_steady.executeReplace (fun _ _ => mapReplace_writes (hK _ rfl) _) id e x t
  | cancelReplace id => exact writes_steady.cancelReplace (fun _ _ => mapReplace_writes (hK _ rfl) _) id
  | _ => exact configure_writes fun _ => writes_of_same rfl rfl rfl rfl

/-- A call writes requests of its kind and the cancelled amount of its request. -/
theorem dispatch_writes (call : RuntimeCall) :
    Respects (Writes {k | writtenKind call = some k} {id | writtenAmount call = some id})
      (call.dispatch R o) := by
  cases call with
  | vaultRegistry call => exact vaultRegistry_writes call
  | nomination call => exact nomination_writes call
  | issue call => exact issue_writes fun _ hk => hk
  | redeem call => exact redeem_writes (fun _ hk => hk) fun _ hid => hid
  | replace call => exact replace_writes fun _ hk => hk

end

/-- A call leaves the requests of the kinds that it does not write. -/
theorem dispatch_sameOf {call : RuntimeCall} (h : Returns (call.dispatch R o) s u s')
    (hk : writtenKind call ≠ some k) : SameOf k s s' :=
  (dispatch_writes call s u s' h).requests k hk

theorem environment_sameOf (h : EnvironmentStep R W s s') : SameOf k s s' := by
  cases k with
  | issue => exact congrArg Issue.Storage.issueRequests h.issue
  | redeem => exact congrArg Redeem.Storage.redeemRequests h.redeem
  | replace => exact congrArg Replace.Storage.replaceRequests h.replace

end Spacewalk.Ledger
