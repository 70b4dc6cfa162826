import Spacewalk.Ledger.Run
import Spacewalk.Runtime.Replay

/-!
# The life of a request

A request is opened with an identifier that is drawn for it, and is then executed or cancelled.  A
completed request stays completed, and so does a redeem request that was cancelled; an issue or a
replace request that was cancelled can still be executed once.

A request is executed against a payment whose memo is its shortened identifier.  As long as the
shortened identifiers of a run differ, no payment is credited twice, whatever the pallet
(`payments_credited_once`).
-/

namespace Spacewalk.Ledger

open Foundation Function Issue Redeem Replace
open Stellar (Bytes getTextMemoFromTxEnv)

variable {B : Type} {R : Runtime B} {W : Set CurrencyId} {s s' : Chain B} {u : Unit} {o : Origin}
  {id : H256} {envelope : Bytes} {w : Write}

/-! ## Requests -/

/-- The pallets that keep requests. -/
inductive RequestKind where
  | issue
  | redeem
  | replace
  deriving DecidableEq, Repr

variable {k : RequestKind}

/-- There is a request. -/
def Present (s : Chain B) : RequestKind → H256 → Prop
  | .issue, id => s.issue.issueRequests id ≠ none
  | .redeem, id => s.redeem.redeemRequests id ≠ none
  | .replace, id => s.replace.replaceRequests id ≠ none

/-- A request is completed, or it is a redeem request that was reimbursed or retried. -/
def Terminal (s : Chain B) : RequestKind → H256 → Prop
  | .issue, id => ∃ r, s.issue.issueRequests id = some r ∧ r.status = .completed
  | .redeem, id => ∃ r, s.redeem.redeemRequests id = some r ∧
      (r.status = .completed ∨ (∃ b, r.status = .reimbursed b) ∨ r.status = .retried)
  | .replace, id => ∃ r, s.replace.replaceRequests id = some r ∧ r.status = .completed

/-- No two pallets keep a request with the same identifier. -/
def Exclusive (s : Chain B) : Prop :=
  ∀ id k k', Present s k id → Present s k' id → k = k'

theorem terminal_redeem_iff :
    Terminal s .redeem id ↔ ∃ r, s.redeem.redeemRequests id = some r ∧ r.status ≠ .pending := by
  refine exists_congr fun r => and_congr_right fun _ => ?_
  cases r.status <;> simp

theorem Terminal.present (h : Terminal s k id) : Present s k id := by
  cases k <;> obtain ⟨r, hr, -⟩ := h <;> simp [Present, hr]

theorem used_iff_present : Used s id ↔ ∃ k, Present s k id := by
  constructor
  · rintro (h | h | h)
    · exact ⟨.issue, h⟩
    · exact ⟨.redeem, h⟩
    · exact ⟨.replace, h⟩
  · rintro ⟨k, h⟩
    cases k
    · exact .inl h
    · exact .inr (.inl h)
    · exact .inr (.inr h)

theorem SameRequests.present (h : SameRequests s s') : Present s' k id ↔ Present s k id := by
  cases k <;> simp only [Present, h.issues, h.redeems, h.replaces]

theorem SameRequests.terminal (h : SameRequests s s') : Terminal s' k id ↔ Terminal s k id := by
  cases k <;> simp only [Terminal, h.issues, h.redeems, h.replaces]

/-- The pallet whose request is written. -/
def Write.kind : Write → RequestKind
  | issue _ _ => .issue
  | redeem _ _ => .redeem
  | replace _ _ => .replace

/-- Writing a request leaves the requests with other identifiers as they are. -/
theorem Write.apply_of_ne (w : Write) (hid : id ≠ w.id) :
    (Present (w.apply s) k id ↔ Present s k id) ∧ (Terminal (w.apply s) k id ↔ Terminal s k id) := by
  cases w with
  | issue id' r =>
    have hne : id ≠ id' := hid
    cases k <;> simp [Present, Terminal, Write.apply, Chain.mapIssue, hne]
  | redeem id' r =>
    have hne : id ≠ id' := hid
    cases k <;> simp [Present, Terminal, Write.apply, Chain.mapRedeem, hne]
  | replace id' r =>
    have hne : id ≠ id' := hid
    cases k <;> simp [Present, Terminal, Write.apply, Chain.mapReplace, hne]

/-- Writing a request leaves the other pallets as they are. -/
theorem Write.apply_of_kind_ne (w : Write) (hk : k ≠ w.kind) :
    (Present (w.apply s) k id ↔ Present s k id) ∧ (Terminal (w.apply s) k id ↔ Terminal s k id) := by
  cases w <;> cases k <;> first | exact absurd rfl hk | exact ⟨Iff.rfl, Iff.rfl⟩

theorem Write.present_self (w : Write) : Present (w.apply s) w.kind w.id := by
  cases w <;> simp [Present, Write.apply, Write.kind, Write.id, Chain.mapIssue, Chain.mapRedeem,
    Chain.mapReplace]

/-- A request that is settled was there. -/
theorem Settles.present (h : Settles s w) : Present s w.kind w.id := by
  cases h with
  | issue hget | redeem hget | replace hget => simp [Present, Write.kind, Write.id, hget]

/-- Settling a request leaves terminal requests terminal. -/
theorem Settles.terminal (h : Settles s w) (ht : Terminal s k id) : Terminal (w.apply s) k id := by
  by_cases hid : id = w.id
  · by_cases hk : k = w.kind
    · subst hid hk
      cases h with
      | issue hget hopen | replace hget hopen =>
        obtain ⟨r, hr, hcompleted⟩ := ht
        obtain rfl := Option.mem_unique hget hr
        exact absurd hcompleted hopen
      | @redeem id r r' hget hstatus =>
        exact terminal_redeem_iff.mpr ⟨r', by simp [Write.apply, Write.id, Chain.mapRedeem], hstatus⟩
    · exact (w.apply_of_kind_ne hk).2.mpr ht
  · exact (w.apply_of_ne hid).2.mpr ht

/-! ## Steps -/

section

variable {record : Record}

/-- The same requests are there, and terminal requests stay terminal. -/
def KeepsRequests (s s' : Chain B) : Prop :=
  ∀ k id, (Present s' k id ↔ Present s k id) ∧ (Terminal s k id → Terminal s' k id)

/-- A request is there that was not there before, or that overwrites one. -/
def OpensRequest (s s' : Chain B) (kind : RequestKind) (opened : H256) : Prop :=
  ∀ k id, (Present s' k id ↔ Present s k id ∨ (k = kind ∧ id = opened)) ∧
    (id ≠ opened → Terminal s k id → Terminal s' k id)

theorem SameRequests.keeps (h : SameRequests s s') : KeepsRequests s s' :=
  fun _ _ => ⟨h.present, h.terminal.mpr⟩

theorem KeepsRequests.of_settles {s₁ : Chain B} (hw : Settles s w) (h : SameRequests s s₁) :
    KeepsRequests s (w.apply s₁) := by
  have hsymm : SameRequests s₁ s :=
    ⟨h.issues.symm, h.redeems.symm, h.replaces.symm, h.drawn.symm, h.system.symm⟩
  have hw₁ := hw.congr hsymm
  refine fun k id => ⟨?_, fun ht => hw₁.terminal (h.terminal.mpr ht)⟩
  rw [← h.present]
  by_cases hid : id = w.id
  · by_cases hk : k = w.kind
    · subst hid hk
      exact iff_of_true w.present_self hw₁.present
    · exact (w.apply_of_kind_ne hk).1
  · exact (w.apply_of_ne hid).1

theorem OpensRequest.of_apply (w : Write) {s₁ : Chain B} (h : SameRequests s s₁) :
    OpensRequest s (w.apply (drawn s₁)) w.kind w.id := by
  have hpresent : ∀ {k id}, Present (drawn s₁) k id ↔ Present s k id := by
    intro k id
    rw [← h.present]
    cases k <;> rfl
  have hterminal : ∀ {k id}, Terminal (drawn s₁) k id ↔ Terminal s k id := by
    intro k id
    rw [← h.terminal]
    cases k <;> rfl
  refine fun k id => ⟨?_, fun hid ht => (w.apply_of_ne hid).2.mpr (hterminal.mpr ht)⟩
  rw [← hpresent]
  by_cases hid : id = w.id
  · by_cases hk : k = w.kind
    · subst hid hk
      exact iff_of_true w.present_self (.inr ⟨rfl, rfl⟩)
    · simp [(w.apply_of_kind_ne hk).1, hk]
  · simp [(w.apply_of_ne hid).1, hid]

/-- What a step does to the requests: at most it opens one, with the identifier that it draws. -/
theorem step_requests (hR : R.tokens.Lawful) (hs : Sound s) (h : Step R W s record s') :
    KeepsRequests s s' ∨ ∃ kind opened, record.drawn = some opened ∧
      OpensRequest s s' kind opened := by
  cases h with
  | environment h =>
    refine .inl fun k id => ⟨?_, ?_⟩ <;> cases k <;>
      simp only [Present, Terminal, h.issue, h.redeem, h.replace, imp_self]
  | extrinsic hcall =>
    cases dispatch_effect hR hs hcall with
    | registers h => exact .inl h.posts.toSameRequests.keeps
    | recovers h => exact .inl h.posts.toSameRequests.keeps
    | withdraws h => exact .inl h.toSameRequests.keeps
    | transition h =>
      generalize callTaken _ s = taken at h
      cases h with
      | internal _ _ h => exact .inl h.toSameRequests.keeps
      | settles w hw _ _ h => exact .inl (.of_settles hw h.toSameRequests)
      | opens w _ hnext _ _ h =>
        exact .inr ⟨w.kind, w.id, drawnBetween_opens hnext h.toSameRequests,
          .of_apply w h.toSameRequests⟩
      | activates _ h _ => exact .inl h.toSameRequests.keeps
      | liquidates _ h h' =>
        refine .inl fun k id => ⟨?_, fun ht => ?_⟩
        · exact h'.posts.toSameRequests.present.trans h.toSameRequests.present
        · exact h'.posts.toSameRequests.terminal.mpr (h.toSameRequests.terminal.mpr ht)
      | refunds h => exact .inl h.toSameRequests.keeps

/-- A terminal request stays terminal, unless its identifier is drawn again. -/
theorem step_terminal (hR : R.tokens.Lawful) (hs : Sound s) (h : Step R W s record s')
    (hdrawn : record.drawn ≠ some id) (ht : Terminal s k id) : Terminal s' k id := by
  rcases step_requests hR hs h with hkeeps | ⟨kind, opened, hopened, hopens⟩
  · exact (hkeeps k id).2 ht
  · refine (hopens k id).2 ?_ ht
    rintro rfl
    exact hdrawn hopened

/-- Requests of different pallets have different identifiers, if no identifier in use is drawn. -/
theorem step_exclusive (hR : R.tokens.Lawful) (hs : Sound s) (h : Step R W s record s')
    (hunused : ∀ id, record.drawn = some id → ¬ Used s id) (he : Exclusive s) : Exclusive s' := by
  intro id k k' hk hk'
  rcases step_requests hR hs h with hkeeps | ⟨kind, opened, hopened, hopens⟩
  · exact he id k k' ((hkeeps k id).1.mp hk) ((hkeeps k' id).1.mp hk')
  · have hnew : ∀ {k''}, Present s k'' opened → False := fun h =>
      hunused opened hopened (used_iff_present.mpr ⟨_, h⟩)
    rcases (hopens k id).1.mp hk with hk | ⟨rfl, rfl⟩
    · rcases (hopens k' id).1.mp hk' with hk' | ⟨rfl, rfl⟩
      · exact he id k k' hk hk'
      · exact (hnew hk).elim
    · rcases (hopens k' id).1.mp hk' with hk' | ⟨rfl, -⟩
      · exact (hnew hk').elim
      · rfl

end

/-! ## Calls -/

/-- The request that a call executes, and the encoded payment for it. -/
def executedRequest : RuntimeCall → Option (RequestKind × H256 × Bytes)
  | .issue (.executeIssue id envelope _ _) => some (.issue, id, envelope)
  | .redeem (.executeRedeem id envelope _ _) => some (.redeem, id, envelope)
  | .replace (.executeReplace id envelope _ _) => some (.replace, id, envelope)
  | _ => none

def cancelledRequest : RuntimeCall → Option (RequestKind × H256)
  | .issue (.cancelIssue id) => some (.issue, id)
  | .redeem (.cancelRedeem id _) => some (.redeem, id)
  | .replace (.cancelReplace id) => some (.replace, id)
  | _ => none

/-- The text memo of an encoded transaction. -/
def envelopeMemo (R : Runtime B) (envelope : Bytes) : Option Bytes :=
  (Relay.constructFromRawEncodedXdr R.stellar R.stellar.transactionEnvelopeFromXdr
    envelope).toOption.bind getTextMemoFromTxEnv

/-- The text memo that belongs to a request. -/
def requestMemo (R : Runtime B) (id : H256) : Bytes := (R.stellar.toBase58 id).take 28

theorem validatePayment_memo {scp set : Bytes} {tx : Stellar.TransactionEnvelope}
    (h : StellarRelay.validatePayment R id envelope scp set s = .ok tx) :
    envelopeMemo R envelope = some (requestMemo R id) := by
  simp only [StellarRelay.validatePayment, Relay.ensureTransactionMemoMatchesHash,
    Relay.ensureTransactionMemoMatches, Stellar.deriveShortenedRequestId, except_rules] at h
  obtain ⟨tx', htx, _, -, _, -, _, ⟨memo, hmemo, text, htext, rfl⟩, -⟩ := h
  rw [envelopeMemo, htx]
  split_ifs at hmemo
  obtain rfl := Except.ok.inj hmemo
  exact htext

section

variable {scp set : Bytes}

theorem executeIssue_memo (h : Returns (executeIssue R o id envelope scp set) s u s') :
    envelopeMemo R envelope = some (requestMemo R id) := by
  simp only [executeIssue, returns_steps] at h
  obtain ⟨_, -, _, -, _, hvalidate, -⟩ := h
  exact validatePayment_memo hvalidate

theorem executeRedeem_memo (h : Returns (executeRedeem R o id envelope scp set) s u s') :
    envelopeMemo R envelope = some (requestMemo R id) := by
  simp only [executeRedeem, returns_steps] at h
  obtain ⟨_, -, _, -, _, hvalidate, -⟩ := h
  exact validatePayment_memo hvalidate

theorem executeReplace_memo (h : Returns (executeReplace R o id envelope scp set) s u s') :
    envelopeMemo R envelope = some (requestMemo R id) := by
  simp only [executeReplace, returns_steps] at h
  obtain ⟨_, -, _, -, _, hvalidate, -⟩ := h
  exact validatePayment_memo hvalidate

end

section

variable {call : RuntimeCall} (hR : R.tokens.Lawful) (hs : Sound s)
  (h : Returns (call.dispatch R o) s u s')

include hR hs h

/-- An executed request was not terminal and is, and its payment has its memo. -/
theorem executed_terminal (hcall : executedRequest call = some (k, id, envelope)) :
    Present s k id ∧ ¬ Terminal s k id ∧ Terminal s' k id ∧
      envelopeMemo R envelope = some (requestMemo R id) := by
  unfold executedRequest at hcall
  split at hcall
  · cases hcall
    obtain ⟨r', hcompleted, hw, T, δ, s₁, -, -, -, rfl⟩ := executeIssue_settled hR hs.keyed h
    refine ⟨hw.present, ?_, ⟨r', update_self _ _ _, hcompleted⟩, executeIssue_memo h⟩
    rintro ⟨r, hr, hterminal⟩
    cases hw with
    | issue hget hopen _ =>
      obtain rfl := Option.mem_unique hget hr
      exact hopen hterminal
  · cases hcall
    obtain ⟨r, hr, hpending, hw, T, δ, s₁, -, -, -, rfl⟩ := executeRedeem_settled hR hs.keyed h
    refine ⟨hw.present, ?_, ⟨_, update_self _ _ _, .inl rfl⟩, executeRedeem_memo h⟩
    intro hterminal
    obtain ⟨r', hr', hstatus⟩ := terminal_redeem_iff.mp hterminal
    obtain rfl := Option.mem_unique hr hr'
    exact hstatus hpending
  · cases hcall
    obtain ⟨r, hr, hopen, hw, T, δ, s₁, -, -, -, rfl⟩ := executeReplace_settled hR hs h
    refine ⟨hw.present, ?_, ⟨_, update_self _ _ _, rfl⟩, executeReplace_memo h⟩
    rintro ⟨r', hr', hterminal⟩
    obtain rfl := Option.mem_unique hr hr'
    exact hopen hterminal
  · cases hcall

/-- A cancelled request was there and not terminal. -/
theorem cancelled_not_terminal (hcall : cancelledRequest call = some (k, id)) :
    Present s k id ∧ ¬ Terminal s k id := by
  unfold cancelledRequest at hcall
  split at hcall
  · cases hcall
    obtain ⟨r, _, hr, hpending, -, hw, -⟩ := cancelIssue_settled hR hs.keyed h
    refine ⟨hw.present, ?_⟩
    rintro ⟨r', hr', hterminal⟩
    obtain rfl := Option.mem_unique hr hr'
    simp [hpending] at hterminal
  · cases hcall
    obtain ⟨r, _, hr, hpending, -, hw, -⟩ := cancelRedeem_settled hR hs.keyed h
    refine ⟨hw.present, fun hterminal => ?_⟩
    obtain ⟨r', hr', hstatus⟩ := terminal_redeem_iff.mp hterminal
    obtain rfl := Option.mem_unique hr hr'
    exact hstatus hpending
  · cases hcall
    obtain ⟨r, hr, hpending, hw, -⟩ := cancelReplace_settled hR hs h
    refine ⟨hw.present, ?_⟩
    rintro ⟨r', hr', hterminal⟩
    obtain rfl := Option.mem_unique hr hr'
    simp [hpending] at hterminal
  · cases hcall

end

/-! ## Runs -/

/-- The request that a step executes, and the encoded payment for it. -/
def Executes (record : Record) (k : RequestKind) (id : H256) (envelope : Bytes) : Prop :=
  ∃ o call, record.event = .extrinsic o call ∧ executedRequest call = some (k, id, envelope)

/-- A step executes or cancels a request. -/
def ActsOn (record : Record) (k : RequestKind) (id : H256) : Prop :=
  (∃ envelope, Executes record k id envelope) ∨
    ∃ o call, record.event = .extrinsic o call ∧ cancelledRequest call = some (k, id)

/-- The state is well formed, its requests have identifiers in a list, and those of different
pallets differ. -/
structure Identified (s : Chain B) (ids : List H256) : Prop where
  sound : Sound s
  exclusive : Exclusive s
  used : ∀ id, Used s id → id ∈ ids

section

variable {record : Record} {records : List Record} {ids : List H256}

theorem Identified.step (hR : R.tokens.Lawful) (hs : Identified s ids) (h : Step R W s record s')
    (hdrawn : ∀ id, record.drawn = some id → id ∉ ids) :
    Identified s' (ids ++ record.drawn.toList) where
  sound := step_sound hR h hs.sound
  exclusive := step_exclusive hR hs.sound h
    (fun id hid hused => hdrawn id hid (hs.used id hused)) hs.exclusive
  used id hid := by
    rcases step_used hR hs.sound h hid with hused | hnew
    · exact List.mem_append_left _ (hs.used id hused)
    · exact List.mem_append_right _ (by simp [hnew])

theorem drawnIds_cons (record : Record) (records : List Record) :
    drawnIds (record :: records) = record.drawn.toList ++ drawnIds records := by
  cases hdrawn : record.drawn <;> simp [drawnIds, hdrawn]

/-- A request that a step acts on was there and not terminal. -/
theorem ActsOn.not_terminal (hR : R.tokens.Lawful) (hs : Sound s) (h : Step R W s record s')
    (hacts : ActsOn record k id) : Present s k id ∧ ¬ Terminal s k id := by
  rcases hacts with ⟨envelope, o, call, hevent, hcall⟩ | ⟨o, call, hevent, hcall⟩
  · cases h with
    | environment => cases hevent
    | extrinsic hreturns =>
      cases hevent
      obtain ⟨hpresent, hterminal, -⟩ := executed_terminal hR hs hreturns hcall
      exact ⟨hpresent, hterminal⟩
  · cases h with
    | environment => cases hevent
    | extrinsic hreturns =>
      cases hevent
      exact cancelled_not_terminal hR hs hreturns hcall

/-- A request that is executed was there and is terminal then, and its payment has its memo. -/
theorem Executes.terminal (hR : R.tokens.Lawful) (hs : Sound s) (h : Step R W s record s')
    (hexecutes : Executes record k id envelope) :
    Present s k id ∧ Terminal s' k id ∧ envelopeMemo R envelope = some (requestMemo R id) := by
  obtain ⟨o, call, hevent, hcall⟩ := hexecutes
  cases h with
  | environment => cases hevent
  | extrinsic hreturns =>
    cases hevent
    obtain ⟨hpresent, -, hterminal, hmemo⟩ := executed_terminal hR hs hreturns hcall
    exact ⟨hpresent, hterminal, hmemo⟩

/-- A step draws a new identifier in a run whose identifiers differ. -/
theorem drawn_not_mem (hnodup : (ids ++ drawnIds (record :: records)).Nodup) :
    ∀ id, record.drawn = some id → id ∉ ids := by
  intro id hid hmem
  rw [drawnIds_cons] at hnodup
  exact (List.nodup_append.mp hnodup).2.2 id hmem id (by simp [hid]) rfl

/-- A terminal request stays terminal in a run that does not draw its identifier again, and no step
of the run acts on a request with its identifier. -/
theorem run_terminal (hR : R.tokens.Lawful) (hrun : Run (Step R W) s records s')
    (hs : Identified s ids) (hnodup : (ids ++ drawnIds records).Nodup) (ht : Terminal s k id) :
    Terminal s' k id ∧ ∀ record ∈ records, ∀ k', ¬ ActsOn record k' id := by
  induction hrun generalizing ids with
  | nil => exact ⟨ht, by simp⟩
  | @cons s t u l ls hl _ ih =>
    have hdrawn := drawn_not_mem hnodup
    rw [drawnIds_cons, ← List.append_assoc] at hnodup
    have hmem : id ∈ ids := hs.used id (used_iff_present.mpr ⟨k, ht.present⟩)
    have ht' := step_terminal hR hs.sound hl (fun hid => hdrawn id hid hmem) ht
    obtain ⟨hterminal, hrest⟩ := ih (hs.step hR hl hdrawn) hnodup ht'
    refine ⟨hterminal, fun record hrecord k' hacts => ?_⟩
    rcases List.mem_cons.mp hrecord with rfl | hrecord
    · obtain ⟨hpresent, hopen⟩ := hacts.not_terminal hR hs.sound hl
      obtain rfl := hs.exclusive id k k' ht.present hpresent
      exact hopen ht
    · exact hrest record hrecord k' hacts

/-- Executed requests have identifiers that were drawn, and payments with their memos. -/
theorem run_executes (hR : R.tokens.Lawful) (hrun : Run (Step R W) s records s')
    (hs : Identified s ids) (hnodup : (ids ++ drawnIds records).Nodup) :
    ∀ record ∈ records, ∀ k id envelope, Executes record k id envelope →
      id ∈ ids ++ drawnIds records ∧ envelopeMemo R envelope = some (requestMemo R id) := by
  induction hrun generalizing ids with
  | nil => simp
  | @cons s t u l ls hl _ ih =>
    have hdrawn := drawn_not_mem hnodup
    rw [drawnIds_cons, ← List.append_assoc] at hnodup ⊢
    intro record hrecord k id envelope hexecutes
    rcases List.mem_cons.mp hrecord with rfl | hrecord
    · obtain ⟨hpresent, -, hmemo⟩ := hexecutes.terminal hR hs.sound hl
      have hmem := hs.used id (used_iff_present.mpr ⟨k, hpresent⟩)
      exact ⟨List.mem_append_left _ (List.mem_append_left _ hmem), hmemo⟩
    · exact ih (hs.step hR hl hdrawn) hnodup record hrecord k id envelope hexecutes

/-- Two steps that execute requests do not use payments with the same memo. -/
def CreditsOther (R : Runtime B) (record record' : Record) : Prop :=
  ∀ k id envelope k' id' envelope', Executes record k id envelope →
    Executes record' k' id' envelope' → envelopeMemo R envelope ≠ envelopeMemo R envelope'

theorem run_creditsOther (hR : R.tokens.Lawful) (hrun : Run (Step R W) s records s')
    (hs : Identified s ids) (hnodup : ((ids ++ drawnIds records).map (requestMemo R)).Nodup) :
    records.Pairwise (CreditsOther R) := by
  induction hrun generalizing ids with
  | nil => exact .nil
  | @cons s t u l ls hl hls ih =>
    have hids := hnodup.of_map
    have ht := hs.step hR hl (drawn_not_mem hids)
    rw [drawnIds_cons, ← List.append_assoc] at hnodup hids
    refine List.pairwise_cons.mpr ⟨?_, ih ht hnodup⟩
    intro later hlater k id envelope k' id' envelope' hexecutes hexecutes' hsame
    -- Equal memos belong to equal identifiers, but the first request is terminal from here on.
    obtain ⟨hpresent, hterminal, hmemo⟩ := hexecutes.terminal hR hs.sound hl
    obtain ⟨hmem', hmemo'⟩ := run_executes hR hls ht hids later hlater k' id' envelope' hexecutes'
    have hmem := List.mem_append_left (drawnIds ls)
      (List.mem_append_left l.drawn.toList (hs.used id (used_iff_present.mpr ⟨k, hpresent⟩)))
    have hshort : requestMemo R id = requestMemo R id' := by
      rw [hmemo, hmemo'] at hsame
      exact Option.some.inj hsame
    obtain rfl := List.inj_on_of_nodup_map hnodup hmem hmem' hshort
    obtain ⟨-, hnone⟩ := run_terminal hR hls ht hids hterminal
    exact hnone later hlater k' (.inl ⟨envelope', hexecutes'⟩)

theorem genesis_identified (h : IsGenesis s) : Identified s [] where
  sound := genesis_sound h
  exclusive id k _ hk _ := absurd (used_iff_present.mpr ⟨k, hk⟩) (genesis_unused h id)
  used id hid := absurd hid (genesis_unused h id)

/-- The identifiers of the requests that there are in a run were drawn. -/
theorem run_identified (hR : R.tokens.Lawful) (hrun : Run (Step R W) s records s')
    (hs : Identified s ids) (hnodup : (ids ++ drawnIds records).Nodup) :
    Identified s' (ids ++ drawnIds records) := by
  induction hrun generalizing ids with
  | nil => simpa [drawnIds] using hs
  | @cons s t u l ls hl _ ih =>
    have hdrawn := drawn_not_mem hnodup
    rw [drawnIds_cons, ← List.append_assoc] at hnodup ⊢
    exact ih (hs.step hR hl hdrawn) hnodup

/-! ### Invariants of the steps so far -/

section

variable {ℓ : Type} {step : Chain B → ℓ → Chain B → Prop} {g : ℓ → Record} {l : ℓ} {log : List ℓ}

theorem drawnIds_concat (log : List ℓ) (l : ℓ) :
    drawnIds ((log ++ [l]).map g) = drawnIds (log.map g) ++ (g l).drawn.toList := by
  cases hdrawn : (g l).drawn <;> simp [drawnIds, hdrawn]

/-- If no identifier is drawn twice, a step draws one that is not in use. -/
theorem Identified.drawn_fresh (hs : Identified s (drawnIds (log.map g)))
    (hnodup : (drawnIds ((log ++ [l]).map g)).Nodup) {id : H256} (hid : (g l).drawn = some id) :
    id ∉ drawnIds (log.map g) ∧ ¬ Used s id := by
  rw [drawnIds_concat] at hnodup
  have hnew : id ∉ drawnIds (log.map g) := by
    intro hmem
    exact (List.nodup_append.mp hnodup).2.2 id hmem id (by simp [hid]) rfl
  exact ⟨hnew, fun hused => hnew (hs.used id hused)⟩

/-- An invariant of the state and of the labels so far, in runs from genesis whose request
identifiers differ: every step may use that the state is well formed and that the identifier that it
draws is not in use. -/
theorem identified_invariant (hR : R.tokens.Lawful)
    (hle : ∀ s l s', step s l s' → Step R W s (g l) s') {P : Chain B → List ℓ → Prop}
    {s₀ : Chain B} (hgenesis : IsGenesis s₀) (h₀ : P s₀ [])
    (hstep : ∀ s log l s', Sound s → P s log → step s l s' →
      (∀ id, (g l).drawn = some id → ¬ Used s id) → P s' (log ++ [l]))
    (hrun : Run step s₀ log s) (hnodup : (drawnIds (log.map g)).Nodup) :
    Identified s (drawnIds (log.map g)) ∧ P s log := by
  have hinv := hrun.invariant_log
    (I := fun s log => (drawnIds (log.map g)).Nodup → Identified s (drawnIds (log.map g)) ∧ P s log) ?_
    fun _ => ⟨genesis_identified hgenesis, h₀⟩
  · exact hinv hnodup
  · intro s log l s' hs h hnodup
    have hbefore : (drawnIds (log.map g)).Nodup := by
      rw [drawnIds_concat] at hnodup
      exact (List.nodup_append.mp hnodup).1
    obtain ⟨hidentified, hP⟩ := hs hbefore
    have hfresh : ∀ id, (g l).drawn = some id → id ∉ drawnIds (log.map g) ∧ ¬ Used s id :=
      fun id hid => hidentified.drawn_fresh hnodup hid
    rw [drawnIds_concat]
    exact ⟨hidentified.step hR (hle s l s' h) fun id hid => (hfresh id hid).1,
      hstep s log l s' hidentified.sound hP h fun id hid => (hfresh id hid).2⟩

end

end

/-- In a run whose shortened request identifiers differ, no two executions use payments with the
same memo, and no step acts on a request that was terminal before. -/
theorem payments_credited_once (R : Runtime B) (hR : R.tokens.Lawful) (W : Set CurrencyId)
    (s₀ s : Chain B) (records : List Record) (hgenesis : IsGenesis s₀)
    (hrun : Run (Step R W) s₀ records s)
    (hids : ((drawnIds records).map (requestMemo R)).Nodup) :
    records.Pairwise (CreditsOther R) ∧
      ∀ (t : Chain B) (before after : List Record), records = before ++ after →
        Run (Step R W) s₀ before t → Run (Step R W) t after s →
          ∀ k id, Terminal t k id → ∀ record ∈ after, ¬ ActsOn record k id := by
  refine ⟨run_creditsOther hR hrun (genesis_identified hgenesis) hids, ?_⟩
  rintro t before after rfl hbefore hafter k id hterminal record hrecord
  have hnodup := hids.of_map
  rw [drawnIds, List.filterMap_append] at hnodup
  have ht := run_identified hR hbefore (genesis_identified hgenesis)
    (List.nodup_append.mp hnodup).1
  exact (run_terminal hR hafter ht hnodup hterminal).2 record hrecord k

/-- The tokens that are to be redeemed are paid out. -/
def paying : Record := signed 1 (.redeem (.executeRedeem 2 (paymentFor 2 4) [] (paymentFor 2 4)))

/-- An issue and a redeem request are executed, with different payments. -/
theorem payments_credited_once_paying :
    ∃ s, Run (Step sampleRuntime ∅) sampleGenesis (redeeming ++ [paying]) s ∧
      Executes paying .redeem 2 (paymentFor 2 4) ∧ Terminal s .redeem 2 ∧
      (redeeming ++ [paying]).Pairwise (CreditsOther sampleRuntime) := by
  obtain ⟨s, hrun, r, hr, hcompleted⟩ : ∃ s,
      Run (Step sampleRuntime ∅) sampleGenesis (redeeming ++ [paying]) s ∧ ∃ r,
        s.redeem.redeemRequests 2 = some r ∧ r.status = .completed :=
    run_of_replay environmentStep_refl (by decide +kernel)
  refine ⟨s, hrun, ⟨_, _, rfl, rfl⟩, ⟨r, hr, .inl hcompleted⟩, ?_⟩
  exact (payments_credited_once sampleRuntime sampleRuntime_lawful ∅ sampleGenesis s
    (redeeming ++ [paying]) sampleGenesis_isGenesis hrun (by decide)).1

end Spacewalk.Ledger
