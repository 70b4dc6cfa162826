import Spacewalk.Clients.OpenRequests

/-!
# Incoming payments for issue requests

The vault client polls Horizon for the transactions of its account that came after a cursor
(`fetch_horizon_and_process_new_transactions` in `clients/wallet/src/horizon/horizon.rs`).  It saves
the envelopes of transactions that pay for an open issue request (`IssueFilter::is_relevant` in
`clients/vault/src/issue.rs`) and moves the cursor behind the last transaction, so that no
transaction is seen twice.

The envelopes are saved in a map with one place for every ledger, and the last one stays
(`recordAll_eq_some`).  Every payment is therefore saved exactly if relevant transactions of a
ledger have the same envelope (`no_payment_lost_iff`); with two of them in one ledger the first is
lost (`payment_in_same_ledger_lost`).
-/

namespace Spacewalk.Clients

open Foundation Currency Function
open Stellar (TransactionEnvelope)

/-! ## The loop -/

/-- The part of an issue request that the filter reads. -/
structure OpenIssue where
  asset : CurrencyId
  deriving DecidableEq

/-- The open issue requests by their identifiers. -/
abbrev IssueRequestsMap := List (H256 × OpenIssue)

/-- The identifiers of issue requests by their memos. -/
abbrev IssueIdLookup := List (Stellar.Bytes × H256)

/-- The envelopes that are to be executed, one for every ledger. -/
abbrev LedgerTxEnvMap := Slot → Option TransactionEnvelope

/-- The filter for payments to the vault. -/
structure IssueFilter where
  vaultAddress : PublicKey

/-- The transaction has the memo of an open issue request and pays its asset to the vault. -/
def IssueFilter.isRelevant (filter : IssueFilter) (issueRequests : IssueRequestsMap)
    (memosToIssueIds : IssueIdLookup) (tx : TransactionResponse) : Bool :=
  match tx.memoText with
  | none => false
  | some memoText =>
    match memosToIssueIds.lookup memoText with
    | none => false
    | some issueId =>
      match issueRequests.lookup issueId with
      | none => false
      | some request =>
        match tx.toEnvelope with
        | none => false
        | some txEnv =>
          match assetConversionLookup request.asset with
          | some asset => decide (getPaymentAmountForAssetTo txEnv filter.vaultAddress asset > 0)
          | none => false

/-- Save the envelope of a relevant transaction, if it can be decoded. -/
def recordTransaction (isRelevant : TransactionResponse → Bool) (ledgerEnvMap : LedgerTxEnvMap)
    (tx : TransactionResponse) : LedgerTxEnvMap :=
  if isRelevant tx then
    match tx.toEnvelope with
    | some txEnv => update ledgerEnvMap tx.ledger (some txEnv)
    | none => ledgerEnvMap
  else ledgerEnvMap

/-- The variables of the loop. -/
structure Fetch where
  txsIter : TransactionsResponseIter
  ledgerEnvMap : LedgerTxEnvMap
  lastCursor : PagingToken

/-- A turn of the loop.  The cursor moves at the end of a page. -/
def Fetch.turn (isRelevant : TransactionResponse → Bool) (fetch : Fetch) :
    Fetch ⊕ (PagingToken × LedgerTxEnvMap) :=
  match fetch.txsIter.next with
  | (none, _) => .inr (fetch.lastCursor, fetch.ledgerEnvMap)
  | (some tx, txsIter) =>
    .inl ⟨txsIter, recordTransaction isRelevant fetch.ledgerEnvMap tx,
      if txsIter.records.isEmpty then tx.pagingToken else fetch.lastCursor⟩

/-- Save the relevant transactions behind the cursor.  The server has the pages behind the cursor,
in ascending order.  Returns the new cursor and the map, or an error if the first page cannot be
fetched; the number of records bounds the number of turns. -/
def fetchHorizonAndProcessNewTransactions (client : HorizonClient) (ledgerEnvMap : LedgerTxEnvMap)
    (issueMap : IssueRequestsMap) (memosToIssueIds : IssueIdLookup) (filter : IssueFilter)
    (lastCursor : PagingToken) : Option (Except Unit (PagingToken × LedgerTxEnvMap)) :=
  if issueMap.isEmpty || memosToIssueIds.isEmpty then some (.ok (lastCursor, ledgerEnvMap))
  else
    match getAllTransactionsIter client with
    | none => some (.error ())
    | some txsIter =>
      (loop (Fetch.turn (filter.isRelevant issueMap memosToIssueIds))
        (txsIter.remaining.length + 1) ⟨txsIter, ledgerEnvMap, lastCursor⟩).map .ok

/-! ## What is saved -/

section

variable {isRelevant : TransactionResponse → Bool} {txs : List TransactionResponse}
  {ledgerEnvMap : LedgerTxEnvMap} {tx : TransactionResponse} {slot : Slot}

/-- Save the relevant ones of some transactions. -/
def recordAll (isRelevant : TransactionResponse → Bool) (txs : List TransactionResponse)
    (ledgerEnvMap : LedgerTxEnvMap) : LedgerTxEnvMap :=
  txs.foldl (recordTransaction isRelevant) ledgerEnvMap

theorem recordTransaction_of_ne (h : isRelevant tx = true → tx.ledger ≠ slot) :
    recordTransaction isRelevant ledgerEnvMap tx slot = ledgerEnvMap slot := by
  unfold recordTransaction
  split
  · next hrelevant =>
    cases tx.toEnvelope with
    | none => rfl
    | some txEnv => exact update_of_ne (h hrelevant).symm _ _
  · rfl

theorem recordTransaction_self {txEnv : TransactionEnvelope} (hrelevant : isRelevant tx = true)
    (henvelope : tx.toEnvelope = some txEnv) :
    recordTransaction isRelevant ledgerEnvMap tx tx.ledger = some txEnv := by
  simp [recordTransaction, hrelevant, henvelope]

/-- A place to which no relevant transaction belongs is left alone. -/
theorem recordAll_of_ne (h : ∀ tx ∈ txs, isRelevant tx = true → tx.ledger ≠ slot) :
    recordAll isRelevant txs ledgerEnvMap slot = ledgerEnvMap slot := by
  induction txs generalizing ledgerEnvMap with
  | nil => rfl
  | cons tx txs ih =>
    rw [recordAll, List.foldl_cons]
    exact (ih fun tx' htx' => h tx' (List.mem_cons_of_mem tx htx')).trans
      (recordTransaction_of_ne (h tx List.mem_cons_self))

/-- In the place of a ledger stands the envelope of one of its relevant transactions, namely of the
last one. -/
theorem recordAll_eq_some (hdecodes : ∀ tx ∈ txs, isRelevant tx = true → tx.toEnvelope ≠ none)
    (h : ∃ tx ∈ txs, isRelevant tx = true ∧ tx.ledger = slot) :
    ∃ tx ∈ txs, isRelevant tx = true ∧ tx.ledger = slot ∧
      recordAll isRelevant txs ledgerEnvMap slot = tx.toEnvelope := by
  induction txs generalizing ledgerEnvMap with
  | nil => simp at h
  | cons tx txs ih =>
    rw [recordAll, List.foldl_cons]
    by_cases hlater : ∃ tx' ∈ txs, isRelevant tx' = true ∧ tx'.ledger = slot
    · obtain ⟨tx', hmem, hrest⟩ :=
        ih (fun tx' htx' => hdecodes tx' (List.mem_cons_of_mem tx htx')) hlater
      exact ⟨tx', List.mem_cons_of_mem tx hmem, hrest⟩
    · -- no later transaction of the ledger is relevant, so the first one is, and it stays
      obtain ⟨tx', hmem, hrelevant, rfl⟩ := h
      rcases List.mem_cons.mp hmem with rfl | hmem
      · refine ⟨tx', List.mem_cons_self, hrelevant, rfl, ?_⟩
        obtain ⟨txEnv, henvelope⟩ :=
          Option.ne_none_iff_exists'.mp (hdecodes tx' List.mem_cons_self hrelevant)
        have hlater : ∀ tx ∈ txs, isRelevant tx = true → tx.ledger ≠ tx'.ledger :=
          fun tx htx hrel heq => hlater ⟨tx, htx, hrel, heq⟩
        rw [henvelope, ← recordTransaction_self hrelevant henvelope]
        exact recordAll_of_ne hlater
      · exact absurd ⟨tx', hmem, hrelevant, rfl⟩ hlater

/-- All relevant transactions are saved exactly if those of a ledger have the same envelope. -/
theorem recordAll_complete_iff (hdecodes : ∀ tx ∈ txs, isRelevant tx = true → tx.toEnvelope ≠ none) :
    (∀ tx ∈ txs, isRelevant tx = true →
      recordAll isRelevant txs ledgerEnvMap tx.ledger = tx.toEnvelope) ↔
      ∀ tx ∈ txs, ∀ tx' ∈ txs, isRelevant tx = true → isRelevant tx' = true →
        tx.ledger = tx'.ledger → tx.toEnvelope = tx'.toEnvelope := by
  constructor
  · intro h tx htx tx' htx' hrelevant hrelevant' hledger
    rw [← h tx htx hrelevant, ← h tx' htx' hrelevant', hledger]
  · intro h tx htx hrelevant
    obtain ⟨tx', htx', hrelevant', hledger, hsaved⟩ :=
      recordAll_eq_some hdecodes ⟨tx, htx, hrelevant, rfl⟩
    rw [hsaved]
    exact h tx' htx' tx htx hrelevant' hrelevant hledger

end

/-! ## The result of the loop -/

section

variable {isRelevant : TransactionResponse → Bool} {fetch fetch' : Fetch}

/-- The cursor behind some transactions. -/
def cursorAfter (txs : List TransactionResponse) (lastCursor : PagingToken) : PagingToken :=
  (txs.getLast?.map TransactionResponse.pagingToken).getD lastCursor

theorem fetchTurn_length (h : fetch.turn isRelevant = .inl fetch') :
    fetch'.txsIter.remaining.length < fetch.txsIter.remaining.length := by
  unfold Fetch.turn at h
  split at h
  · cases h
  · next hnext =>
    cases h
    exact next_length hnext

theorem fetch_exits (isRelevant : TransactionResponse → Bool) (fetch : Fetch) :
    ∃ result, loop (Fetch.turn isRelevant) (fetch.txsIter.remaining.length + 1) fetch = some result ∧
      Exits (Fetch.turn isRelevant) fetch result :=
  exists_loop_eq_some (I := fun _ => True) (fun fetch => fetch.txsIter.remaining.length)
    (fun _ _ _ h => ⟨trivial, fetchTurn_length h⟩) trivial (Nat.lt_succ_self _)

/-- The loop saves the visible transactions, and moves the cursor behind them. -/
theorem exits_fetch {result : PagingToken × LedgerTxEnvMap}
    (h : Exits (Fetch.turn isRelevant) fetch result)
    (hpages : ∀ page ∈ fetch.txsIter.client.pages, page ≠ []) :
    result = (cursorAfter fetch.txsIter.visible fetch.lastCursor,
      recordAll isRelevant fetch.txsIter.visible fetch.ledgerEnvMap) := by
  induction h with
  | @exit fetch result hexit =>
    unfold Fetch.turn at hexit
    rcases next_visible hpages with ⟨hnil, iter', hnext⟩ | ⟨tx, iter', hnext, -⟩
    · rw [hnext] at hexit
      cases hexit
      rw [hnil]
      rfl
    · rw [hnext] at hexit
      cases hexit
  | @next fetch fetch' result hturn hrest ih =>
    unfold Fetch.turn at hturn
    rcases next_visible hpages with ⟨-, iter', hnext⟩ | ⟨tx, iter', hnext, hvisible, hpages'⟩
    · rw [hnext] at hturn
      cases hturn
    · rw [hnext] at hturn
      cases hturn
      rw [ih hpages', hvisible]
      refine Prod.ext ?_ rfl
      -- the last transaction leaves an empty page, and only then the cursor matters
      change cursorAfter iter'.visible (if iter'.records.isEmpty then tx.pagingToken
        else fetch.lastCursor) = cursorAfter (tx :: iter'.visible) fetch.lastCursor
      cases hrest : iter'.visible with
      | nil =>
        have hrecords : iter'.records = [] := (List.append_eq_nil_iff.mp hrest).1
        simp [cursorAfter, hrecords]
      | cons tx' txs =>
        rw [cursorAfter, cursorAfter, List.getLast?_cons_cons,
          List.getLast?_eq_some_getLast (List.cons_ne_nil tx' txs)]
        rfl

end

/-- Without failures all records of the pages are visible. -/
theorem visible_nil (pages : List (List TransactionResponse)) :
    visible pages [] = pages.flatten := by
  induction pages with
  | nil => rfl
  | cons page pages ih => simp [visible, ih]

/-- The loop returns, with the relevant ones of all transactions saved. -/
theorem fetch_returns {pages : List (List TransactionResponse)}
    (hpages : ∀ page ∈ pages, page ≠ []) (ledgerEnvMap : LedgerTxEnvMap)
    {issueMap : IssueRequestsMap} (hissues : issueMap ≠ []) {memosToIssueIds : IssueIdLookup}
    (hmemos : memosToIssueIds ≠ []) (filter : IssueFilter) (lastCursor : PagingToken) :
    fetchHorizonAndProcessNewTransactions ⟨pages, []⟩ ledgerEnvMap issueMap memosToIssueIds filter
        lastCursor =
      some (.ok (cursorAfter pages.flatten lastCursor,
        recordAll (filter.isRelevant issueMap memosToIssueIds) pages.flatten ledgerEnvMap)) := by
  have hiter : getAllTransactionsIter ⟨pages, []⟩ = some ⟨pages.headD [], ⟨pages.tail, []⟩⟩ := rfl
  obtain ⟨hvisible, htail⟩ := getAllTransactionsIter_visible hiter
  have hpages' : ∀ page ∈ pages.tail, page ≠ [] := fun page hpage =>
    hpages page (List.mem_of_mem_tail hpage)
  obtain ⟨result, hloop, hexits⟩ := fetch_exits (filter.isRelevant issueMap memosToIssueIds)
    ⟨⟨pages.headD [], ⟨pages.tail, []⟩⟩, ledgerEnvMap, lastCursor⟩
  have hresult := exits_fetch hexits hpages'
  rw [hvisible, visible_nil] at hresult
  have hsome : ¬ (issueMap.isEmpty || memosToIssueIds.isEmpty) = true := by
    simp [hissues, hmemos]
  rw [fetchHorizonAndProcessNewTransactions, if_neg hsome, hiter]
  change (loop _ _ _).map Except.ok = _
  rw [hloop, hresult]
  rfl

/-- A relevant transaction can be decoded. -/
theorem IssueFilter.toEnvelope_ne_none {filter : IssueFilter} {issueMap : IssueRequestsMap}
    {memosToIssueIds : IssueIdLookup} {tx : TransactionResponse}
    (h : filter.isRelevant issueMap memosToIssueIds tx = true) : tx.toEnvelope ≠ none := by
  intro hnone
  simp only [IssueFilter.isRelevant, hnone] at h
  split at h
  · cases h
  · split at h
    · cases h
    · split at h <;> cases h

/-- The loop returns, every relevant transaction of the pages is in the map, and the cursor is that
of the last transaction, if and only if relevant transactions of a ledger have the same envelope. -/
theorem no_payment_lost_iff (pages : List (List TransactionResponse))
    (hpages : ∀ page ∈ pages, page ≠ []) (ledgerEnvMap : LedgerTxEnvMap)
    (issueMap : IssueRequestsMap) (hissues : issueMap ≠ []) (memosToIssueIds : IssueIdLookup)
    (hmemos : memosToIssueIds ≠ []) (filter : IssueFilter) (lastCursor : PagingToken) :
    (∃ cursor ledgerEnvMap',
      fetchHorizonAndProcessNewTransactions ⟨pages, []⟩ ledgerEnvMap issueMap memosToIssueIds filter
        lastCursor = some (.ok (cursor, ledgerEnvMap')) ∧
      (∀ tx ∈ pages.flatten, filter.isRelevant issueMap memosToIssueIds tx = true →
        ∃ txEnv, tx.toEnvelope = some txEnv ∧ ledgerEnvMap' tx.ledger = some txEnv) ∧
      ∀ tx, pages.flatten.getLast? = some tx → cursor = tx.pagingToken) ↔
    ∀ tx ∈ pages.flatten, ∀ tx' ∈ pages.flatten,
      filter.isRelevant issueMap memosToIssueIds tx = true →
      filter.isRelevant issueMap memosToIssueIds tx' = true →
      tx.ledger = tx'.ledger → tx.toEnvelope = tx'.toEnvelope := by
  have hdecodes : ∀ tx ∈ pages.flatten, filter.isRelevant issueMap memosToIssueIds tx = true →
      tx.toEnvelope ≠ none := fun _ _ h => IssueFilter.toEnvelope_ne_none h
  have hreturns := fetch_returns hpages ledgerEnvMap hissues hmemos filter lastCursor
  rw [← recordAll_complete_iff hdecodes]
  constructor
  · rintro ⟨cursor, ledgerEnvMap', hfetch, hsaved, -⟩ tx htx hrelevant
    rw [hreturns] at hfetch
    cases hfetch
    obtain ⟨txEnv, henvelope, hmap⟩ := hsaved tx htx hrelevant
    rw [henvelope]
    exact hmap
  · intro hsaved
    refine ⟨_, _, hreturns, ?_, ?_⟩
    · intro tx htx hrelevant
      obtain ⟨txEnv, henvelope⟩ := Option.ne_none_iff_exists'.mp (hdecodes tx htx hrelevant)
      exact ⟨txEnv, henvelope, henvelope ▸ hsaved tx htx hrelevant⟩
    · intro tx htx
      simp [cursorAfter, htx]

/-- A payment of the given number of stroops to the account 7, with the memo [1], in ledger 5. -/
def issuePayment (stroops : Int64) (pagingToken : PagingToken) : TransactionResponse :=
  ⟨some 1, some 3, true, some [1], some (.envelopeTypeTx
    ⟨.memoText [1], [.payment (.keyTypeEd25519 7) .assetTypeNative stroops], []⟩ []), 5, pagingToken⟩

/-- One open issue request for lumens, with the memo [1]. -/
def openIssues : IssueRequestsMap := [(9, ⟨.stellar .stellarNative⟩)]

def issueMemos : IssueIdLookup := [([1], 9)]

/-- A payment on the second page is saved. -/
theorem no_payment_lost_second_page :
    ∃ cursor ledgerEnvMap', fetchHorizonAndProcessNewTransactions
        ⟨[[issuePayment 0 1], [issuePayment 10 2]], []⟩ (fun _ => none) openIssues issueMemos ⟨7⟩ 0 =
          some (.ok (cursor, ledgerEnvMap')) ∧
      (∀ tx ∈ [[issuePayment 0 1], [issuePayment 10 2]].flatten,
        IssueFilter.isRelevant ⟨7⟩ openIssues issueMemos tx = true →
        ∃ txEnv, tx.toEnvelope = some txEnv ∧ ledgerEnvMap' tx.ledger = some txEnv) ∧
      ∀ tx, [[issuePayment 0 1], [issuePayment 10 2]].flatten.getLast? = some tx →
        cursor = tx.pagingToken :=
  (no_payment_lost_iff [[issuePayment 0 1], [issuePayment 10 2]] (by decide) (fun _ => none)
    openIssues (by decide) issueMemos (by decide) ⟨7⟩ 0).mpr (by decide +kernel)

/-- Two payments in one ledger: the cursor moves behind both, and only the second is saved. -/
theorem payment_in_same_ledger_lost :
    IssueFilter.isRelevant ⟨7⟩ openIssues issueMemos (issuePayment 10 1) = true ∧
      IssueFilter.isRelevant ⟨7⟩ openIssues issueMemos (issuePayment 20 2) = true ∧
      ∃ ledgerEnvMap', fetchHorizonAndProcessNewTransactions
          ⟨[[issuePayment 10 1, issuePayment 20 2]], []⟩ (fun _ => none) openIssues issueMemos ⟨7⟩ 0 =
            some (.ok (2, ledgerEnvMap')) ∧
        ledgerEnvMap' 5 = (issuePayment 20 2).toEnvelope ∧
        ledgerEnvMap' 5 ≠ (issuePayment 10 1).toEnvelope := by
  refine ⟨by decide +kernel, by decide +kernel, _, rfl, ?_, ?_⟩
  · decide +kernel
  · decide +kernel

end Spacewalk.Clients
