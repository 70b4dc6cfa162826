import Spacewalk.Stellar.Xdr

/-!
# The account history on Horizon

The history of an account comes from a Horizon server, page by page
(`clients/wallet/src/horizon/responses.rs`).  `TransactionsResponseIter` holds the rest of the page
that was fetched last, and fetches the next page when it runs out.  A request to the server can
fail; the iterator then ends.

A record is what the accessors of `TransactionResponse` decode from the answer of the server.
-/

namespace Spacewalk.Clients

open Stellar (TransactionEnvelope)

/-- A key on the Stellar network. -/
abbrev PublicKey := BitVec 256

/-- The number of a transaction among those of its source account. -/
abbrev SequenceNumber := Int

/-- The number of a ledger. -/
abbrev Slot := Nat

/-- The place of a record in the history. -/
abbrev PagingToken := Nat

/-- A record of the history. -/
structure TransactionResponse where
  /-- The source account, if it can be decoded. -/
  sourceAccount : Option PublicKey
  /-- The sequence number, if it can be decoded. -/
  sourceAccountSequence : Option SequenceNumber
  memoTypeText : Bool
  memo : Option Stellar.Bytes
  /-- The transaction, if it can be decoded. -/
  toEnvelope : Option TransactionEnvelope
  ledger : Slot
  pagingToken : PagingToken
  deriving DecidableEq

/-- The memo of a record, if it is a text. -/
def TransactionResponse.memoText (response : TransactionResponse) : Option Stellar.Bytes :=
  if response.memoTypeText then response.memo else none

/-- A Horizon server: the pages that it has not returned, and whether the next requests succeed.
The requests after these succeed. -/
structure HorizonClient where
  pages : List (List TransactionResponse)
  answers : List Bool
  deriving DecidableEq

/-- Request the next page.  After the last page there is an empty one. -/
def HorizonClient.getFromUrl (client : HorizonClient) :
    Option (List TransactionResponse) × HorizonClient :=
  match client.answers with
  | false :: answers => (none, { client with answers })
  | answers => (some (client.pages.headD []), ⟨client.pages.tail, answers.tail⟩)

/-- The rest of a page, and the server for the next one. -/
structure TransactionsResponseIter where
  records : List TransactionResponse
  client : HorizonClient
  deriving DecidableEq

/-- An iterator over all transactions of the account, the latest first. -/
def getAllTransactionsIter (client : HorizonClient) : Option TransactionsResponseIter :=
  match client.getFromUrl with
  | (some records, client) => some ⟨records, client⟩
  | (none, _) => none

variable (iter : TransactionsResponseIter)

namespace TransactionsResponseIter

/-- The first record of the page. -/
def getTopRecord : Option TransactionResponse × TransactionsResponseIter :=
  match iter.records with
  | [] => (none, iter)
  | record :: records => (some record, { iter with records })

/-- Go to the next page, unless the request fails. -/
def jumpToNextPage : Option Unit × TransactionsResponseIter :=
  match iter.client.getFromUrl with
  | (some records, client) => (some (), ⟨records, client⟩)
  | (none, client) => (none, { iter with client })

def next : Option TransactionResponse × TransactionsResponseIter :=
  match iter.getTopRecord with
  | (some record, iter) => (some record, iter)
  | (none, iter) =>
    match iter.jumpToNextPage with
    | (none, iter) => (none, iter)
    | (some (), iter) => iter.getTopRecord

/-- The last record of the page. -/
def nextBack : Option TransactionResponse × TransactionsResponseIter :=
  (iter.records.getLast?, { iter with records := iter.records.dropLast })

/-- The record in the middle of the page. -/
def middle : Option TransactionResponse × TransactionsResponseIter :=
  let idx := iter.records.length / 2
  (iter.records[idx]?, { iter with records := iter.records.eraseIdx idx })

/-- Keep the first half of the page. -/
def removeLastHalfRecords : TransactionsResponseIter :=
  let idx := iter.records.length / 2
  if idx ≠ 0 then { iter with records := iter.records.take idx } else iter

/-- Keep the last half of the page. -/
def removeFirstHalfRecords : TransactionsResponseIter :=
  let idx := iter.records.length / 2
  if idx ≠ 0 then { iter with records := iter.records.drop idx } else iter

/-- The records that have not been looked at. -/
def remaining : List TransactionResponse :=
  iter.records ++ iter.client.pages.flatten

end TransactionsResponseIter

/-! ## The records that are left -/

section

variable {iter iter' : TransactionsResponseIter}

theorem flatten_headD_tail (pages : List (List TransactionResponse)) :
    pages.headD [] ++ pages.tail.flatten = pages.flatten := by
  cases pages <;> simp

theorem jumpToNextPage_length {o : Option Unit} (h : iter.jumpToNextPage = (o, iter')) :
    iter'.remaining.length ≤ iter.remaining.length := by
  unfold TransactionsResponseIter.jumpToNextPage HorizonClient.getFromUrl at h
  split at h
  · next hfetch =>
    split at hfetch
    · cases hfetch
    · cases hfetch
      cases h
      rw [TransactionsResponseIter.remaining, TransactionsResponseIter.remaining,
        flatten_headD_tail, List.length_append]
      exact Nat.le_add_left _ _
  · next hfetch =>
    split at hfetch
    · cases hfetch
      cases h
      exact le_rfl
    · cases hfetch

theorem getTopRecord_length {r : TransactionResponse} (h : iter.getTopRecord = (some r, iter')) :
    iter'.remaining.length < iter.remaining.length := by
  unfold TransactionsResponseIter.getTopRecord at h
  split at h
  · cases h
  · next hrecords =>
    cases h
    simp [TransactionsResponseIter.remaining, hrecords]

theorem next_length {r : TransactionResponse} (h : iter.next = (some r, iter')) :
    iter'.remaining.length < iter.remaining.length := by
  unfold TransactionsResponseIter.next at h
  split at h
  · next htop =>
    cases h
    exact getTopRecord_length htop
  · next iter₁ htop =>
    obtain rfl : iter = iter₁ := by
      unfold TransactionsResponseIter.getTopRecord at htop
      split at htop <;> cases htop
      rfl
    split at h
    · cases h
    · next hjump => exact (getTopRecord_length h).trans_le (jumpToNextPage_length hjump)

end

end Spacewalk.Clients
