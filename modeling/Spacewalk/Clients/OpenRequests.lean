import Spacewalk.Clients.Operations
import Spacewalk.Foundation.Loop
import Spacewalk.Runtime.Replay

/-!
# Open requests after a restart

When a vault client starts, it looks at the requests that are still open
(`clients/vault/src/requests/execution.rs`).  It goes through the history of its Stellar account, and
executes the requests that it finds paid there.  For all others it starts a task that pays.

The iterator over the history ends where a request to Horizon fails, as it ends with the history.  So
a request is paid again if its payment is not on a page that is fetched before the first failure, or
is not recognised there (`no_second_payment_iff`).
-/

namespace Spacewalk.Clients

open Foundation Stellar Currency

/-! ## Open requests -/

/-- The kinds of requests that a vault pays for. -/
inductive RequestType where
  | redeem
  | replace
  deriving DecidableEq

/-- The part of an open request that the client compares with the history. -/
structure Request where
  hash : H256
  amount : Nat
  asset : StellarAsset
  stellarAddress : PublicKey
  requestType : RequestType
  deriving DecidableEq

/-- Requests by their shortened identifiers. -/
abbrev RequestMap := List (Stellar.Bytes × Request)

/-- The request with a shortened identifier. -/
def RequestMap.get (requests : RequestMap) (memo : Stellar.Bytes) : Option Request :=
  (requests.find? fun entry => entry.1 = memo).map Prod.snd

/-- Add a request, in the place of one with the same shortened identifier. -/
def RequestMap.insert (requests : RequestMap) (entry : Stellar.Bytes × Request) : RequestMap :=
  entry :: requests.filter fun other => other.1 ≠ entry.1

section

variable (lib : StellarLib) (client : HorizonClient) (record : TransactionResponse)
  (openRedeems : List Request) (request : Request) (openReplaces : List Request)

/-- The shortened identifier of a request. -/
def shortenedRequestId : Stellar.Bytes := (lib.toBase58 request.hash).take 28

/-- The open requests by their shortened identifiers. -/
def retrieveOpenRedeemReplaceRequests : RequestMap :=
  ((openRedeems ++ openReplaces).map fun x => (shortenedRequestId lib x, x)).foldl
    RequestMap.insert []

/-- The request that a record pays for. -/
def getRequestForStellarTx (tx : TransactionResponse) (requests : RequestMap) : Option Request := do
  let memoText ← tx.memoText
  let request ← requests.get memoText
  let envelope ← tx.toEnvelope
  let paidAmount := getPaymentAmountForAssetTo envelope request.stellarAddress request.asset
  if paidAmount ≥ request.amount then some request else none

/-- The variables of the scan: the iterator, the requests that have not been found, and the tasks
that execute requests with their payments. -/
structure Scan where
  iter : TransactionsResponseIter
  requests : RequestMap
  executions : List (Request × TransactionEnvelope)

/-- Start the task that executes a request, if the payment can be decoded.  Returns the shortened
identifier. -/
def spawnTaskToExecuteOpenRequest (transaction : TransactionResponse)
    (executions : List (Request × TransactionEnvelope)) :
    Stellar.Bytes × List (Request × TransactionEnvelope) :=
  (shortenedRequestId lib request,
    match transaction.toEnvelope with
    | some envelope => executions ++ [(request, envelope)]
    | none => executions)

def Scan.turn (scan : Scan) :
    Scan ⊕ (RequestMap × List (Request × TransactionEnvelope)) :=
  match scan.iter.next with
  | (none, _) => .inr (scan.requests, scan.executions)
  | (some transaction, iter) =>
    if scan.requests.isEmpty then .inr (scan.requests, scan.executions)
    else
      match getRequestForStellarTx transaction scan.requests with
      | some request =>
        let (hashAsMemo, executions) :=
          spawnTaskToExecuteOpenRequest lib request transaction scan.executions
        .inl ⟨iter, scan.requests.filter fun entry => entry.1 ≠ hashAsMemo, executions⟩
      | none => .inl { scan with iter }

/-- Start the tasks for the requests that are paid in the history.  Returns the other requests and
the tasks. -/
def spawnTasksToExecuteOpenRequests (requests : RequestMap) :
    Option (RequestMap × List (Request × TransactionEnvelope)) :=
  match getAllTransactionsIter client with
  | some iter => loop (Scan.turn lib) (iter.remaining.length + 1) ⟨iter, requests, []⟩
  | none => some (requests, [])

structure OpenRequestTasks where
  /-- Requests to be executed with a payment that was found. -/
  executions : List (Request × TransactionEnvelope)
  /-- Requests to be paid and executed. -/
  payments : List Request

/-- Start the tasks for all open requests. -/
def executeOpenRequests : Option OpenRequestTasks := do
  let (requests, executions) ← spawnTasksToExecuteOpenRequests lib client
    (retrieveOpenRedeemReplaceRequests lib openRedeems openReplaces)
  return ⟨executions, requests.map Prod.snd⟩

/-! ## Payments in the history -/

/-- The stroops that an operation transfers to an account, the creation of the account included. -/
def paidStroops (recipient : PublicKey) (asset : StellarAsset) : OperationBody → Int
  | .createAccount destination startingBalance =>
    if destination = recipient ∧ asset = .assetTypeNative then startingBalance.toInt else 0
  | body => (transferredStroops recipient asset body).getD 0

/-- A record has the shortened identifier of a request as its text memo, and pays for the request. -/
def PaidBy : Prop :=
  record.memoText = some (shortenedRequestId lib request) ∧
    ∃ envelope, record.toEnvelope = some envelope ∧
      request.amount ≤ ((txOperations envelope).map
        (paidStroops request.stellarAddress request.asset)).sum.toNat * decimalsConversionRate

/-- The client recognises a record as the payment for a request. -/
def recognises : Bool :=
  match record.memoText, record.toEnvelope with
  | some memo, some envelope => memo = shortenedRequestId lib request ∧
      request.amount ≤ getPaymentAmountForAssetTo envelope request.stellarAddress request.asset
  | _, _ => false

end

/-- The records on the pages that are fetched before the first failure. -/
def visible : List (List TransactionResponse) → List Bool → List TransactionResponse
  | [], _ => []
  | _ :: _, false :: _ => []
  | page :: pages, answers => page ++ visible pages answers.tail

/-! ## The requests that are left -/

section

variable {lib : StellarLib} {requests : RequestMap} {entry : Stellar.Bytes × Request}
  {tx : TransactionResponse} {request : Request}

/-- The requests are kept by their shortened identifiers, each only once. -/
structure Keyed (lib : StellarLib) (requests : RequestMap) : Prop where
  nodup : (requests.map Prod.fst).Nodup
  key : ∀ entry ∈ requests, entry.1 = shortenedRequestId lib entry.2

theorem Keyed.filter (h : Keyed lib requests) (p : Stellar.Bytes × Request → Bool) :
    Keyed lib (requests.filter p) where
  nodup := h.nodup.sublist (List.filter_sublist.map Prod.fst)
  key entry hentry := h.key entry (List.mem_of_mem_filter hentry)

theorem Keyed.insert (h : Keyed lib requests) (request : Request) :
    Keyed lib (requests.insert (shortenedRequestId lib request, request)) where
  nodup := by
    have hfilter := h.filter fun other => other.1 ≠ shortenedRequestId lib request
    refine List.nodup_cons.mpr ⟨?_, hfilter.nodup⟩
    simp
  key entry hentry := by
    rcases List.mem_cons.mp hentry with rfl | hentry
    · rfl
    · exact h.key entry (List.mem_of_mem_filter hentry)

theorem foldl_insert_keyed (l : List Request) (h : Keyed lib requests) :
    Keyed lib ((l.map fun x => (shortenedRequestId lib x, x)).foldl RequestMap.insert requests) := by
  induction l generalizing requests with
  | nil => exact h
  | cons request l ih => exact ih (h.insert request)

theorem mem_foldl_insert (l : List Request)
    (h : entry ∈ (l.map fun x => (shortenedRequestId lib x, x)).foldl RequestMap.insert requests) :
    entry.2 ∈ l ∨ entry ∈ requests := by
  induction l generalizing requests with
  | nil => exact .inr h
  | cons request l ih =>
    rcases ih h with hmem | hmem
    · exact .inl (List.mem_cons_of_mem _ hmem)
    · rcases List.mem_cons.mp hmem with rfl | hmem
      · exact .inl List.mem_cons_self
      · exact .inr (List.mem_of_mem_filter hmem)

theorem retrieve_keyed (openRedeems openReplaces : List Request) :
    Keyed lib (retrieveOpenRedeemReplaceRequests lib openRedeems openReplaces) :=
  foldl_insert_keyed _ ⟨List.nodup_nil, by simp⟩

theorem mem_of_mem_retrieve {openRedeems openReplaces : List Request}
    (h : entry ∈ retrieveOpenRedeemReplaceRequests lib openRedeems openReplaces) :
    entry.2 ∈ openRedeems ++ openReplaces :=
  (mem_foldl_insert _ h).resolve_right (by simp)

theorem recognises_eq_true :
    recognises lib tx request = true ↔
      ∃ envelope, tx.memoText = some (shortenedRequestId lib request) ∧
        tx.toEnvelope = some envelope ∧
        request.amount ≤
          getPaymentAmountForAssetTo envelope request.stellarAddress request.asset := by
  unfold recognises
  split
  · next memo envelope hmemo henvelope => simp [hmemo, henvelope]
  · next hnone =>
    simp only [Bool.false_eq_true, false_iff]
    rintro ⟨envelope, hmemo, henvelope, -⟩
    exact hnone _ _ hmemo henvelope

/-- A record pays for the one request that it is recognised for. -/
theorem getRequestForStellarTx_eq_some (hkeyed : Keyed lib requests) :
    getRequestForStellarTx tx requests = some request ↔
      (shortenedRequestId lib request, request) ∈ requests ∧ recognises lib tx request = true := by
  have hget : ∀ memo, requests.get memo = some request ↔ (memo, request) ∈ requests := by
    intro memo
    simp only [RequestMap.get, Option.map_eq_some_iff]
    constructor
    · rintro ⟨entry, hfind, rfl⟩
      have hmemo := List.find?_some hfind
      obtain rfl : entry.1 = memo := by simpa using hmemo
      exact List.mem_of_find?_eq_some hfind
    · intro hmem
      cases hfind : requests.find? fun entry => entry.1 = memo with
      | none => simpa using List.find?_eq_none.mp hfind _ hmem
      | some entry =>
        have hmemo : entry.1 = memo := by simpa using List.find?_some hfind
        have heq := List.inj_on_of_nodup_map hkeyed.nodup (List.mem_of_find?_eq_some hfind) hmem hmemo
        exact ⟨entry, rfl, by rw [heq]⟩
  rw [recognises_eq_true]
  simp only [getRequestForStellarTx, bind, Option.bind_eq_some_iff]
  constructor
  · rintro ⟨memo, hmemo, request', hrequest', envelope, henvelope, hpaid⟩
    split_ifs at hpaid with hle
    obtain rfl := Option.some.inj hpaid
    have hmem := (hget memo).mp hrequest'
    have hkey : memo = shortenedRequestId lib request' := hkeyed.key _ hmem
    exact ⟨hkey ▸ hmem, envelope, hkey ▸ hmemo, henvelope, hle⟩
  · rintro ⟨hmem, envelope, hmemo, henvelope, hle⟩
    exact ⟨_, hmemo, request, (hget _).mpr hmem, envelope, henvelope, if_pos hle⟩

/-- The requests that a record does not pay for. -/
theorem filter_recognised (hkeyed : Keyed lib requests)
    (h : getRequestForStellarTx tx requests = some request) :
    (requests.filter fun entry => entry.1 ≠ shortenedRequestId lib request) =
      requests.filter fun entry => !recognises lib tx entry.2 := by
  obtain ⟨hmem, hrecognised⟩ := (getRequestForStellarTx_eq_some hkeyed).mp h
  refine List.filter_congr fun entry hentry => ?_
  have hiff : entry.1 = shortenedRequestId lib request ↔ recognises lib tx entry.2 = true := by
    constructor
    · intro hkey
      rwa [List.inj_on_of_nodup_map hkeyed.nodup hentry hmem hkey]
    · intro hentry'
      obtain ⟨_, hmemo, -⟩ := recognises_eq_true.mp hrecognised
      obtain ⟨_, hmemo', -⟩ := recognises_eq_true.mp hentry'
      rw [hkeyed.key entry hentry]
      exact Option.mem_unique hmemo' hmemo
  simp [hiff]

theorem filter_unrecognised (hkeyed : Keyed lib requests)
    (h : getRequestForStellarTx tx requests = none) :
    requests = requests.filter fun entry => !recognises lib tx entry.2 := by
  refine (List.filter_eq_self.mpr fun entry hentry => ?_).symm
  by_contra hrecognised
  have hmem : (shortenedRequestId lib entry.2, entry.2) ∈ requests := by
    rwa [← hkeyed.key entry hentry]
  have hsome := (getRequestForStellarTx_eq_some hkeyed).mpr ⟨hmem, by simpa using hrecognised⟩
  simp [h] at hsome

end

section

variable {lib : StellarLib} {iter iter' : TransactionsResponseIter} {requests : RequestMap}
  {executions : List (Request × TransactionEnvelope)}

/-- The records that the iterator returns. -/
def TransactionsResponseIter.visible (iter : TransactionsResponseIter) : List TransactionResponse :=
  iter.records ++ Clients.visible iter.client.pages iter.client.answers

/-- The iterator returns the records on the pages before the first failure. -/
theorem next_visible (hpages : ∀ page ∈ iter.client.pages, page ≠ []) :
    iter.visible = [] ∧ (∃ iter', iter.next = (none, iter')) ∨
      ∃ record iter', iter.next = (some record, iter') ∧ iter.visible = record :: iter'.visible ∧
        ∀ page ∈ iter'.client.pages, page ≠ [] := by
  obtain ⟨records, ⟨pages, answers⟩⟩ := iter
  cases records with
  | cons record records => exact .inr ⟨record, ⟨records, ⟨pages, answers⟩⟩, rfl, rfl, hpages⟩
  | nil =>
    cases pages with
    | nil =>
      refine .inl ⟨rfl, ?_⟩
      rcases answers with _ | ⟨_ | _, answers⟩ <;> exact ⟨_, rfl⟩
    | cons page pages =>
      cases page with
      | nil => exact absurd rfl (hpages [] List.mem_cons_self)
      | cons record records =>
        have hpages' : ∀ page ∈ pages, page ≠ [] := fun page hpage =>
          hpages page (List.mem_cons_of_mem _ hpage)
        rcases answers with _ | ⟨_ | _, answers⟩
        · exact .inr ⟨record, ⟨records, ⟨pages, []⟩⟩, rfl, rfl, hpages'⟩
        · exact .inl ⟨rfl, _, rfl⟩
        · exact .inr ⟨record, ⟨records, ⟨pages, answers⟩⟩, rfl, rfl, hpages'⟩

/-- The scan leaves the requests that no visible record is recognised for. -/
theorem exits_requests {scan : Scan} {result : RequestMap × List (Request × TransactionEnvelope)}
    (h : Exits (Scan.turn lib) scan result) (hkeyed : Keyed lib scan.requests)
    (hpages : ∀ page ∈ scan.iter.client.pages, page ≠ []) :
    result.1 = scan.requests.filter fun entry =>
      scan.iter.visible.all fun record => !recognises lib record entry.2 := by
  induction h with
  | @exit scan result hexit =>
    unfold Scan.turn at hexit
    rcases next_visible hpages with ⟨hnil, iter', hnext⟩ | ⟨record, iter', hnext, -⟩
    · rw [hnext] at hexit
      cases hexit
      simp [hnil]
    · simp only [hnext] at hexit
      split_ifs at hexit with hempty
      · cases hexit
        simp [List.isEmpty_iff.mp hempty]
      · split at hexit <;> cases hexit
  | @next scan scan' result hnext' hrest ih =>
    unfold Scan.turn at hnext'
    rcases next_visible hpages with ⟨-, iter', hnext⟩ | ⟨record, iter', hnext, hvisible, hpages'⟩
    · simp [hnext] at hnext'
    · simp only [hnext] at hnext'
      split_ifs at hnext' with hempty
      have hsplit : (scan.requests.filter fun entry =>
          scan.iter.visible.all fun record => !recognises lib record entry.2) =
          (scan.requests.filter fun entry => !recognises lib record entry.2).filter fun entry =>
            iter'.visible.all fun record => !recognises lib record entry.2 := by
        simp only [hvisible, List.all_cons, List.filter_filter, Bool.and_comm]
      split at hnext'
      · next request hrequest =>
        cases hnext'
        rw [ih (hkeyed.filter _) hpages', hsplit, ← filter_recognised hkeyed hrequest]
        rfl
      · next hrequest =>
        cases hnext'
        rw [ih hkeyed hpages', hsplit, ← filter_unrecognised hkeyed hrequest]

/-- Every turn of the scan uses up a record. -/
theorem scanTurn_length {scan scan' : Scan} (h : scan.turn lib = .inl scan') :
    scan'.iter.remaining.length < scan.iter.remaining.length := by
  unfold Scan.turn at h
  split at h
  · cases h
  · next hnext =>
    have hlt := next_length hnext
    split_ifs at h
    split at h <;> cases h <;> exact hlt

theorem scan_exits (lib : StellarLib) (scan : Scan) :
    ∃ result, loop (Scan.turn lib) (scan.iter.remaining.length + 1) scan = some result ∧
      Exits (Scan.turn lib) scan result :=
  exists_loop_eq_some (I := fun _ => True) (fun scan => scan.iter.remaining.length)
    (fun _ _ _ h => ⟨trivial, scanTurn_length h⟩) trivial (Nat.lt_succ_self _)

end

section

variable {pages : List (List TransactionResponse)} {answers : List Bool}

theorem getAllTransactionsIter_visible {iter : TransactionsResponseIter}
    (h : getAllTransactionsIter ⟨pages, answers⟩ = some iter) :
    iter.visible = visible pages answers ∧ iter.client.pages = pages.tail := by
  rcases answers with _ | ⟨_ | _, answers⟩
  all_goals
    cases pages <;> cases h <;> exact ⟨rfl, rfl⟩

/-- Tasks are started, and a payment is started for every request that no visible record is
recognised for. -/
theorem executeOpenRequests_spec (lib : StellarLib) (hpages : ∀ page ∈ pages, page ≠ [])
    (answers : List Bool) (openRedeems openReplaces : List Request) :
    ∃ tasks, executeOpenRequests lib ⟨pages, answers⟩ openRedeems openReplaces = some tasks ∧
      ∀ request, request ∈ tasks.payments ↔
        (shortenedRequestId lib request, request) ∈
            retrieveOpenRedeemReplaceRequests lib openRedeems openReplaces ∧
          ∀ record ∈ visible pages answers, recognises lib record request = false := by
  have hkeyed : Keyed lib (retrieveOpenRedeemReplaceRequests lib openRedeems openReplaces) :=
    retrieve_keyed openRedeems openReplaces
  have hpayments : ∀ records : List TransactionResponse, ∀ request,
      request ∈ ((retrieveOpenRedeemReplaceRequests lib openRedeems openReplaces).filter
        fun entry => records.all fun record => !recognises lib record entry.2).map Prod.snd ↔
      (shortenedRequestId lib request, request) ∈
          retrieveOpenRedeemReplaceRequests lib openRedeems openReplaces ∧
        ∀ record ∈ records, recognises lib record request = false := by
    intro records request
    simp only [List.mem_map, List.mem_filter, List.all_eq_true, Bool.not_eq_true']
    constructor
    · rintro ⟨entry, ⟨hmem, hnone⟩, rfl⟩
      rw [← hkeyed.key entry hmem]
      exact ⟨hmem, hnone⟩
    · rintro ⟨hmem, hnone⟩
      exact ⟨_, ⟨hmem, hnone⟩, rfl⟩
  unfold executeOpenRequests spawnTasksToExecuteOpenRequests
  cases hiter : getAllTransactionsIter ⟨pages, answers⟩ with
  | none =>
    have hnil : visible pages answers = [] := by
      rcases answers with _ | ⟨_ | _, answers⟩
      · cases hiter
      · cases pages <;> rfl
      · cases hiter
    refine ⟨_, rfl, fun request => ?_⟩
    simpa [hnil] using hpayments [] request
  | some iter =>
    obtain ⟨hvisible, htail⟩ := getAllTransactionsIter_visible hiter
    have hpages' : ∀ page ∈ iter.client.pages, page ≠ [] := by
      rw [htail]
      exact fun page hpage => hpages page (List.mem_of_mem_tail hpage)
    obtain ⟨result, hloop, hexits⟩ := scan_exits lib
      ⟨iter, retrieveOpenRedeemReplaceRequests lib openRedeems openReplaces, []⟩
    have hrequests := exits_requests hexits hkeyed hpages'
    refine ⟨⟨result.2, result.1.map Prod.snd⟩, ?_, fun request => ?_⟩
    · simp only [bind, Option.bind]
      rw [hloop]
      rfl
    · rw [hrequests, hvisible]
      exact hpayments _ request

end

/-- No payment is started for an open request that is paid in the history, if and only if every such
request is recognised on a page that is fetched before the first failure. -/
theorem no_second_payment_iff (lib : StellarLib) (pages : List (List TransactionResponse))
    (hpages : ∀ page ∈ pages, page ≠ []) (answers : List Bool)
    (openRedeems openReplaces : List Request) :
    (∃ tasks, executeOpenRequests lib ⟨pages, answers⟩ openRedeems openReplaces = some tasks ∧
        ∀ request ∈ openRedeems ++ openReplaces,
          (∃ record ∈ pages.flatten, PaidBy lib record request) → request ∉ tasks.payments) ↔
      ∀ request, (shortenedRequestId lib request, request) ∈
          retrieveOpenRedeemReplaceRequests lib openRedeems openReplaces →
        (∃ record ∈ pages.flatten, PaidBy lib record request) →
          ∃ record ∈ visible pages answers, recognises lib record request = true := by
  obtain ⟨tasks, htasks, hpayments⟩ :=
    executeOpenRequests_spec lib hpages answers openRedeems openReplaces
  constructor
  · rintro ⟨tasks', htasks', hnone⟩ request hopen hpaid
    obtain rfl := Option.mem_unique htasks htasks'
    by_contra! hunseen
    refine hnone request (mem_of_mem_retrieve hopen) hpaid ((hpayments request).mpr ⟨hopen, ?_⟩)
    intro record hrecord
    simpa using hunseen record hrecord
  · intro hseen
    refine ⟨tasks, htasks, fun request _ hpaid hpayment => ?_⟩
    obtain ⟨hopen, hnone⟩ := (hpayments request).mp hpayment
    obtain ⟨record, hrecord, hrecognised⟩ := hseen request hopen hpaid
    simp [hnone record hrecord] at hrecognised

/-- An open redeem request of one lumen. -/
def sampleRequest : Request := ⟨2, 1000000000000, .assetTypeNative, 7, .redeem⟩

/-- A transaction with the shortened identifier of the request. -/
def samplePaying (body : OperationBody) : TransactionResponse :=
  ⟨some 1, some 3, true, some (shortenedRequestId sampleStellar sampleRequest),
    some (.envelopeTypeTx ⟨.memoNone, [body], []⟩ []), 0, 0⟩

/-- The payment of one lumen for the request. -/
def samplePaid : TransactionResponse :=
  samplePaying (.payment (.keyTypeEd25519 7) .assetTypeNative 10000000)

theorem samplePaid_paidBy : PaidBy sampleStellar samplePaid sampleRequest :=
  ⟨rfl, _, rfl, by decide⟩

/-- The payment is on the first page, and the request for the second page fails. -/
theorem no_second_payment_iff_first_page :
    ∃ tasks, executeOpenRequests sampleStellar ⟨[[samplePaid], [samplePaid]], [true, false]⟩
        [sampleRequest] [] = some tasks ∧
      ∀ request ∈ [sampleRequest] ++ [],
        (∃ record ∈ [[samplePaid], [samplePaid]].flatten,
          PaidBy sampleStellar record request) → request ∉ tasks.payments := by
  refine (no_second_payment_iff sampleStellar [[samplePaid], [samplePaid]] (by decide)
    [true, false] [sampleRequest] []).mpr ?_
  intro request hopen _
  obtain rfl : request = sampleRequest := by simpa using mem_of_mem_retrieve hopen
  exact ⟨samplePaid, by decide, by decide⟩

/-- The first request to Horizon fails.  A payment is started although the history has one. -/
theorem second_payment_after_failure :
    PaidBy sampleStellar samplePaid sampleRequest ∧
      ∃ tasks, executeOpenRequests sampleStellar ⟨[[samplePaid]], [false]⟩ [sampleRequest] [] =
        some tasks ∧ sampleRequest ∈ tasks.payments :=
  ⟨samplePaid_paidBy, _, rfl, by decide⟩

end Spacewalk.Clients
