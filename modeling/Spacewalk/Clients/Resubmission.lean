import Spacewalk.Clients.Horizon
import Spacewalk.Foundation.Loop

/-!
# Looking for a transaction in the history

Before a wallet submits a transaction again, it looks for it in the history of its account
(`clients/wallet/src/resubmissions.rs`).  The own sequence numbers decrease along the history, so
`isTransactionAlreadySubmitted` searches every page by halves.  In every turn it looks at the first,
the middle and the last record of what is left of the page.

The search is right unless it drops the match.  When it keeps the first half of the page, the record
in the middle has been removed, and half of the other records can be one too few
(`DropsMatch`, `submitted_iff_not_dropped`).
-/

namespace Spacewalk.Clients

open Foundation
open TransactionsResponseIter (remaining removeFirstHalfRecords removeLastHalfRecords)

/-- The part of a transaction that is looked for. -/
structure Transaction where
  seqNum : SequenceNumber
  memo : Stellar.Memo
  deriving DecidableEq

/-! ## The search -/

/-- Whether a record was sent from the account with a key. -/
def isSourceAccountMatch (publicKey : PublicKey) (response : TransactionResponse) : Bool :=
  response.sourceAccount = some publicKey

variable (tx : Transaction) (response : TransactionResponse) (iter : TransactionsResponseIter)
  (publicKey : PublicKey)

/-- Whether a record has the text memo of a transaction. -/
def isMemoMatch : Bool :=
  match response.memoText, tx.memo with
  | some responseMemo, .memoText txMemo => responseMemo = txMemo
  | _, _ => false

/-- Compare a transaction with a record: whether the memos are the same if the source accounts and
the sequence numbers are.  The error is the sequence number of a record that was sent from the own
account. -/
def checkTransactionMatch : Except (Option SequenceNumber) Bool :=
  if ! isSourceAccountMatch publicKey response then .error none
  else
    match response.sourceAccountSequence with
    | none => .error none
    | some sourceAccountSequence =>
      if tx.seqNum = sourceAccountSequence then .ok (isMemoMatch tx response)
      else .error (some sourceAccountSequence)

/-- Compare with the record in the middle of the page, and keep the half of the page that can have
a match. -/
def checkMiddleTransactionMatch (tx : Transaction) (publicKey : PublicKey) :
    Option Bool × TransactionsResponseIter :=
  match iter.middle with
  | (none, iter) => (none, iter)
  | (some response, iter) =>
    match checkTransactionMatch tx response publicKey with
    | .ok res => (some res, iter)
    | .error (some sourceAccountSequence) =>
      if tx.seqNum > sourceAccountSequence then (none, iter.removeLastHalfRecords)
      else (none, iter.removeFirstHalfRecords)
    | .error none => (none, iter)

/-- Compare with the last record of the page, and go to the next page if a match can only be
there. -/
def checkLastTransactionMatch (tx : Transaction) (publicKey : PublicKey) :
    Option Bool × TransactionsResponseIter :=
  match iter.nextBack with
  | (none, iter) => (none, iter)
  | (some response, iter) =>
    match checkTransactionMatch tx response publicKey with
    | .ok res => (some res, iter)
    | .error (some sourceAccountSequence) =>
      if tx.seqNum < sourceAccountSequence then
        match iter.jumpToNextPage with
        | (none, iter) => (some false, iter)
        | (some (), iter) => (none, iter)
      else (none, iter)
    | .error none => (none, iter)

def searchTurn (iter : TransactionsResponseIter) : TransactionsResponseIter ⊕ Bool :=
  match iter.next with
  | (none, _) => .inr false
  | (some response, iter) =>
    match checkTransactionMatch tx response publicKey with
    | .ok res => .inr res
    | .error none => .inl iter
    | .error (some topSequenceNum) =>
      if tx.seqNum > topSequenceNum then .inr false
      else
        match checkMiddleTransactionMatch iter tx publicKey with
        | (some result, _) => .inr result
        | (none, iter) =>
          match checkLastTransactionMatch iter tx publicKey with
          | (some result, _) => .inr result
          | (none, iter) => .inl iter

/-- Whether a transaction is in the history of the account.  Every turn of the search looks at a
record, so the number of records bounds the number of turns. -/
def isTransactionAlreadySubmitted (client : HorizonClient) (publicKey : PublicKey)
    (tx : Transaction) : Option Bool :=
  match getAllTransactionsIter client with
  | none => some false
  | some iter => loop (searchTurn tx publicKey) (iter.remaining.length + 1) iter

/-! ## Matches -/

section

variable {tx : Transaction} {key : PublicKey} {r r' : TransactionResponse}
  {l : List TransactionResponse} {n : SequenceNumber} {b : Bool}

/-- The sequence number of a record that was sent from the account with a key. -/
def ownSequence (key : PublicKey) (r : TransactionResponse) : Option SequenceNumber :=
  if isSourceAccountMatch key r then r.sourceAccountSequence else none

/-- A record of the own account with the sequence number and the text memo of a transaction. -/
def Matches (tx : Transaction) (key : PublicKey) (r : TransactionResponse) : Prop :=
  r.sourceAccount = some key ∧ r.sourceAccountSequence = some tx.seqNum ∧
    ∃ text, tx.memo = .memoText text ∧ r.memoText = some text

/-- The own sequence numbers decrease along the records. -/
def Ordered (key : PublicKey) (l : List TransactionResponse) : Prop :=
  l.Pairwise fun r r' => ∀ n ∈ ownSequence key r, ∀ n' ∈ ownSequence key r', n' < n

theorem isMemoMatch_eq_true :
    isMemoMatch tx r = true ↔ ∃ text, tx.memo = .memoText text ∧ r.memoText = some text := by
  unfold isMemoMatch
  split
  · next responseMemo txMemo hresponse htx =>
    rw [hresponse, htx]
    simp
  · next hnone =>
    simp only [Bool.false_eq_true, false_iff]
    rintro ⟨text, htx, hresponse⟩
    exact hnone text text hresponse htx

theorem matches_iff :
    Matches tx key r ↔ ownSequence key r = some tx.seqNum ∧ isMemoMatch tx r = true := by
  rw [isMemoMatch_eq_true, Matches, ownSequence, ← and_assoc]
  refine and_congr_left' ?_
  simp only [isSourceAccountMatch, decide_eq_true_eq]
  split_ifs with hown <;> simp [hown]

theorem checkTransactionMatch_eq :
    checkTransactionMatch tx r key =
      match ownSequence key r with
      | none => .error none
      | some n => if tx.seqNum = n then .ok (isMemoMatch tx r) else .error (some n) := by
  unfold checkTransactionMatch ownSequence
  cases isSourceAccountMatch key r with
  | false => rfl
  | true => cases r.sourceAccountSequence <;> rfl

theorem checkTransactionMatch_ok :
    checkTransactionMatch tx r key = .ok b ↔
      ownSequence key r = some tx.seqNum ∧ isMemoMatch tx r = b := by
  rw [checkTransactionMatch_eq]
  cases hown : ownSequence key r with
  | none => simp
  | some n =>
    by_cases heq : tx.seqNum = n
    · simp [heq]
    · simp [heq, Ne.symm heq]

theorem checkTransactionMatch_some :
    checkTransactionMatch tx r key = .error (some n) ↔
      ownSequence key r = some n ∧ tx.seqNum ≠ n := by
  rw [checkTransactionMatch_eq]
  cases hown : ownSequence key r with
  | none => simp
  | some m =>
    by_cases heq : tx.seqNum = m
    · simp only [heq, if_true, Option.some.injEq, reduceCtorEq, false_iff, not_and, not_not]
      exact id
    · simp only [heq, if_false, Except.error.injEq, Option.some.injEq, iff_self_and]
      rintro rfl
      exact heq

theorem checkTransactionMatch_none :
    checkTransactionMatch tx r key = .error none ↔ ownSequence key r = none := by
  rw [checkTransactionMatch_eq]
  cases hown : ownSequence key r with
  | none => simp
  | some m =>
    by_cases heq : tx.seqNum = m <;> simp [heq]

/-- The own sequence numbers before a record are larger, and those after it are smaller. -/
theorem Ordered.around {before after : List TransactionResponse}
    (h : Ordered key (before ++ r :: after)) (hn : ownSequence key r = some n) :
    (∀ r' ∈ before, ∀ m, ownSequence key r' = some m → n < m) ∧
      ∀ r' ∈ after, ∀ m, ownSequence key r' = some m → m < n := by
  obtain ⟨-, hcons, hbefore⟩ := List.pairwise_append.mp h
  refine ⟨fun r' hr' m hm => ?_, fun r' hr' m hm => ?_⟩
  · exact hbefore r' hr' r List.mem_cons_self m hm n hn
  · exact (List.pairwise_cons.mp hcons).1 r' hr' n hn m hm

/-- Two records of the own account with the same sequence number are the same. -/
theorem Ordered.unique (h : Ordered key l) (hr : r ∈ l) (hr' : r' ∈ l)
    (hn : ownSequence key r = some n) (hn' : ownSequence key r' = some n) : r = r' := by
  obtain ⟨before, after, rfl⟩ := List.append_of_mem hr
  obtain ⟨hbefore, hafter⟩ := h.around hn
  rcases List.mem_append.mp hr' with hmem | hmem
  · exact absurd (hbefore r' hmem n hn') (lt_irrefl n)
  · rcases List.mem_cons.mp hmem with rfl | hmem
    · rfl
    · exact absurd (hafter r' hmem n hn') (lt_irrefl n)

/-- The first record that has the own account and the sequence number decides the search. -/
theorem Ordered.decided (h : Ordered key l) (hr : r ∈ l)
    (hok : checkTransactionMatch tx r key = .ok b) : b = true ↔ ∃ r ∈ l, Matches tx key r := by
  obtain ⟨hn, rfl⟩ := checkTransactionMatch_ok.mp hok
  constructor
  · intro hmemo
    exact ⟨r, hr, matches_iff.mpr ⟨hn, hmemo⟩⟩
  · rintro ⟨r', hr', hmatches⟩
    obtain ⟨hn', hmemo⟩ := matches_iff.mp hmatches
    rwa [h.unique hr hr' hn hn']

end

/-! ## A turn of the search -/

/-- A record stands directly before the middle of an even number of records, with others before it,
and an own record with a smaller sequence number is in the middle. -/
def BeforeMiddle (key : PublicKey) (records : List TransactionResponse) (r : TransactionResponse) :
    Prop :=
  ∃ before mid after, records = before ++ r :: mid :: after ∧ before.length = after.length ∧
    before ≠ [] ∧ ∃ n, ownSequence key mid = some n ∧ n < tx.seqNum

/-- The iterator has the records in order, no request fails, and no page is empty. -/
structure Searchable (key : PublicKey) (iter : TransactionsResponseIter) : Prop where
  ordered : Ordered key iter.remaining
  answers : iter.client.answers = []
  pages_ne_nil : ∀ page ∈ iter.client.pages, page ≠ []

/-- The second iterator has some of the records of the first. -/
structure Narrows (iter iter' : TransactionsResponseIter) : Prop where
  sublist : iter'.remaining.Sublist iter.remaining
  answers : iter'.client.answers = iter.client.answers
  pages : iter'.client.pages ⊆ iter.client.pages

section

variable {tx : Transaction} {key : PublicKey} {iter iter' iter'' : TransactionsResponseIter}
  {r : TransactionResponse} {b : Bool}

theorem Narrows.refl (iter : TransactionsResponseIter) : Narrows iter iter :=
  ⟨.refl _, rfl, fun _ h => h⟩

theorem Narrows.trans (h : Narrows iter iter') (h' : Narrows iter' iter'') : Narrows iter iter'' :=
  ⟨h'.sublist.trans h.sublist, h'.answers.trans h.answers, fun _ hp => h.pages (h'.pages hp)⟩

theorem Narrows.searchable (h : Narrows iter iter') (hs : Searchable key iter) :
    Searchable key iter' :=
  ⟨hs.ordered.sublist h.sublist, h.answers.trans hs.answers,
    fun page hpage => hs.pages_ne_nil page (h.pages hpage)⟩

/-- Fewer records of the page are left. -/
theorem Narrows.of_records {records : List TransactionResponse}
    (h : records.Sublist iter.records) : Narrows iter { iter with records } :=
  ⟨h.append_right _, rfl, fun _ h => h⟩

theorem jumpToNextPage_of_answers (hanswers : iter.client.answers = []) :
    iter.jumpToNextPage =
      (some (), ⟨iter.client.pages.headD [], ⟨iter.client.pages.tail, []⟩⟩) := by
  simp [TransactionsResponseIter.jumpToNextPage, HorizonClient.getFromUrl, hanswers]

/-- The next page has the records that remain after the page. -/
theorem narrows_jump (hanswers : iter.client.answers = []) :
    Narrows iter ⟨iter.client.pages.headD [], ⟨iter.client.pages.tail, []⟩⟩ where
  sublist := by
    simp only [remaining, flatten_headD_tail]
    exact List.sublist_append_right _ _
  answers := hanswers.symm
  pages _ hpage := List.mem_of_mem_tail hpage

/-- The last record of the page, and what is done with the others. -/
theorem checkLast_concat {init : List TransactionResponse} {last : TransactionResponse}
    {client : HorizonClient} (hanswers : client.answers = []) :
    checkLastTransactionMatch ⟨init ++ [last], client⟩ tx key =
      match checkTransactionMatch tx last key with
      | .ok res => (some res, ⟨init, client⟩)
      | .error (some n) =>
        if tx.seqNum < n then (none, ⟨client.pages.headD [], ⟨client.pages.tail, []⟩⟩)
        else (none, ⟨init, client⟩)
      | .error none => (none, ⟨init, client⟩) := by
  simp only [checkLastTransactionMatch, TransactionsResponseIter.nextBack, List.getLast?_concat,
    List.dropLast_concat]
  split
  · rfl
  · rw [jumpToNextPage_of_answers hanswers]
  · rfl

/-- The last record decides the search only if it is an own one with the sequence number. -/
theorem checkLast_some (hs : Searchable key iter)
    (h : checkLastTransactionMatch iter tx key = (some b, iter')) :
    ∃ r ∈ iter.remaining, checkTransactionMatch tx r key = .ok b := by
  obtain ⟨records, client⟩ := iter
  rcases records.eq_nil_or_concat with rfl | ⟨init, last, rfl⟩
  · cases h
  · rw [List.concat_eq_append] at *
    rw [checkLast_concat hs.answers] at h
    split at h
    · next hok =>
      cases h
      have hmem : last ∈ init ++ [last] ++ client.pages.flatten := by simp
      exact ⟨last, hmem, hok⟩
    · split at h <;> cases h
    · cases h

/-- If the last record does not decide the search, then every match is left. -/
theorem checkLast_none (hs : Searchable key iter)
    (h : checkLastTransactionMatch iter tx key = (none, iter')) :
    Narrows iter iter' ∧ ∀ r ∈ iter.remaining, Matches tx key r → r ∈ iter'.remaining := by
  obtain ⟨records, client⟩ := iter
  rcases records.eq_nil_or_concat with rfl | ⟨init, last, rfl⟩
  · cases h
    exact ⟨.refl _, fun r hr _ => hr⟩
  · rw [List.concat_eq_append] at *
    have hordered : Ordered key (init ++ last :: client.pages.flatten) := by
      simpa [remaining] using hs.ordered
    have hinit : Narrows ⟨init ++ [last], client⟩ ⟨init, client⟩ :=
      .of_records (List.sublist_append_left init [last])
    -- A match other than the last record is before it or on a later page.
    have hkept : ∀ r ∈ (TransactionsResponseIter.mk (init ++ [last]) client).remaining,
        r ≠ last → r ∈ (TransactionsResponseIter.mk init client).remaining := by
      intro r hr hne
      simpa [remaining, hne] using hr
    have hne : ∀ n, ownSequence key last = n → n ≠ some tx.seqNum →
        ∀ r, Matches tx key r → r ≠ last := by
      rintro n hn hne r hmatches rfl
      exact hne (hn ▸ (matches_iff.mp hmatches).1)
    rw [checkLast_concat hs.answers] at h
    split at h
    · cases h
    · next n hsome =>
      obtain ⟨hn, hnot⟩ := checkTransactionMatch_some.mp hsome
      have hlast := hne _ hn (by simpa using Ne.symm hnot)
      split at h
      · -- The records of the page have larger sequence numbers.
        next hlt =>
        cases h
        refine ⟨narrows_jump hs.answers, fun r hr hmatches => ?_⟩
        rw [remaining, flatten_headD_tail]
        rcases List.mem_append.mp (hkept r hr (hlast r hmatches)) with hmem | hmem
        · have hseq := (hordered.around hn).1 r hmem _ (matches_iff.mp hmatches).1
          exact absurd hlt hseq.not_gt
        · exact hmem
      · cases h
        exact ⟨hinit, fun r hr hmatches => hkept r hr (hlast r hmatches)⟩
    · next hnone =>
      cases h
      have hlast := hne _ (checkTransactionMatch_none.mp hnone) (by simp)
      exact ⟨hinit, fun r hr hmatches => hkept r hr (hlast r hmatches)⟩

/-- The record in the middle of the page, and what is done with the others. -/
theorem checkMiddle_append {before after : List TransactionResponse} {mid : TransactionResponse}
    {client : HorizonClient}
    (hlength : before.length = (before.length + (after.length + 1)) / 2) :
    checkMiddleTransactionMatch ⟨before ++ mid :: after, client⟩ tx key =
      match checkTransactionMatch tx mid key with
      | .ok res => (some res, ⟨before ++ after, client⟩)
      | .error (some n) =>
        if tx.seqNum > n then
          (none, removeLastHalfRecords ⟨before ++ after, client⟩)
        else (none, removeFirstHalfRecords ⟨before ++ after, client⟩)
      | .error none => (none, ⟨before ++ after, client⟩) := by
  have hget : (before ++ mid :: after)[before.length]? = some mid := by simp
  have herase : (before ++ mid :: after).eraseIdx before.length = before ++ after := by
    rw [List.eraseIdx_append_of_length_le le_rfl]
    simp
  simp only [checkMiddleTransactionMatch, TransactionsResponseIter.middle, List.length_append,
    List.length_cons, ← hlength, hget, herase]

/-- A page is empty, or it has a middle. -/
theorem exists_middle (records : List TransactionResponse) :
    records = [] ∨ ∃ before mid after, records = before ++ mid :: after ∧
      before.length = (before.length + (after.length + 1)) / 2 := by
  by_cases hnil : records = []
  · exact .inl hnil
  · have hlt : records.length / 2 < records.length := by
      have hpos := List.length_pos_iff.mpr hnil
      omega
    refine .inr ⟨records.take (records.length / 2), records[records.length / 2],
      records.drop (records.length / 2 + 1), ?_, ?_⟩
    · rw [List.getElem_cons_drop, List.take_append_drop]
    · rw [List.length_take, List.length_drop]
      omega

theorem narrows_removeLastHalfRecords (iter : TransactionsResponseIter) :
    Narrows iter iter.removeLastHalfRecords := by
  unfold removeLastHalfRecords
  dsimp only
  split_ifs
  · exact .of_records (List.take_sublist _ _)
  · exact .refl iter

theorem narrows_removeFirstHalfRecords (iter : TransactionsResponseIter) :
    Narrows iter iter.removeFirstHalfRecords := by
  unfold removeFirstHalfRecords
  dsimp only
  split_ifs
  · exact .of_records (List.drop_sublist _ _)
  · exact .refl iter

theorem removeFirstHalfRecords_client (iter : TransactionsResponseIter) :
    iter.removeFirstHalfRecords.client = iter.client := by
  unfold removeFirstHalfRecords
  dsimp only
  split_ifs <;> rfl

section

variable {before after : List TransactionResponse} {mid : TransactionResponse}
  {client : HorizonClient} {n : SequenceNumber}

theorem beforeMiddle_iff (hlength : before.length = (before.length + (after.length + 1)) / 2) :
    BeforeMiddle tx key (before ++ mid :: after) r ↔
      ∃ init, before = init ++ [r] ∧ init.length = after.length ∧ init ≠ [] ∧
        ∃ n, ownSequence key mid = some n ∧ n < tx.seqNum := by
  constructor
  · rintro ⟨before', mid', after', heq, hlength', hne, hmid⟩
    have hsplit : before ++ mid :: after = (before' ++ [r]) ++ mid' :: after' := by simp [heq]
    have htotal := congrArg List.length hsplit
    simp only [List.length_append, List.length_cons, List.length_nil] at htotal
    obtain ⟨rfl, hrest⟩ := List.append_inj hsplit (by
      simp only [List.length_append, List.length_cons, List.length_nil]
      omega)
    obtain ⟨rfl, rfl⟩ := List.cons.inj hrest
    exact ⟨before', rfl, hlength', hne, hmid⟩
  · rintro ⟨init, rfl, hlength', hne, hmid⟩
    exact ⟨init, mid, after, by simp, hlength', hne, hmid⟩

/-- The record in the middle decides the search only if it is an own one with the sequence
number. -/
theorem checkMiddle_some (h : checkMiddleTransactionMatch iter tx key = (some b, iter')) :
    (∃ r ∈ iter.remaining, checkTransactionMatch tx r key = .ok b) ∧
      ∀ r, ¬ BeforeMiddle tx key iter.records r := by
  obtain ⟨records, client⟩ := iter
  rcases exists_middle records with rfl | ⟨before, mid, after, rfl, hlength⟩
  · cases h
  · rw [checkMiddle_append hlength] at h
    split at h
    · next hok =>
      cases h
      have hmem : mid ∈ before ++ mid :: after ++ client.pages.flatten := by simp
      refine ⟨⟨mid, hmem, hok⟩, fun r hr => ?_⟩
      obtain ⟨_, -, -, -, n, hn, hlt⟩ := (beforeMiddle_iff hlength).mp hr
      obtain ⟨hn', -⟩ := checkTransactionMatch_ok.mp hok
      exact hlt.ne (Option.mem_unique hn hn')
    · split at h <;> cases h
    · cases h

/-- If the number of records was even, then the first half of the page lacks the record before the
middle. -/
theorem removeLastHalfRecords_even {init : List TransactionResponse}
    (hlength : init.length = after.length) (hne : init ≠ []) :
    removeLastHalfRecords ⟨init ++ [r] ++ after, client⟩ =
      ⟨init, client⟩ := by
  have hhalf : (init ++ [r] ++ after).length / 2 = init.length := by
    simp only [List.length_append, List.length_cons, List.length_nil]
    omega
  simp only [removeLastHalfRecords, hhalf]
  rw [if_pos (by simpa using hne), List.append_assoc, List.take_left]

/-- Otherwise it has the records before the middle. -/
theorem removeLastHalfRecords_append
    (hlength : before.length = (before.length + (after.length + 1)) / 2) (hr : r ∈ before) :
    r ∈ (removeLastHalfRecords ⟨before ++ after, client⟩).records ∨
      ∃ init, before = init ++ [r] ∧ init.length = after.length ∧ init ≠ [] := by
  rcases before.eq_nil_or_concat with rfl | ⟨init, last, hconcat⟩
  · cases hr
  · rw [List.concat_eq_append] at hconcat
    subst hconcat
    have hinit : init.length = after.length ∨ init.length + 1 = after.length := by
      simp only [List.length_append, List.length_cons, List.length_nil] at hlength
      omega
    have hmem : r ∈ init ∨ r = last := by
      simpa using hr
    rcases hinit with heven | hodd
    · by_cases hnil : init = []
      · -- There were only two records, and the other one is left.
        left
        subst hnil
        obtain rfl := List.length_eq_zero_iff.mp heven.symm
        simpa [removeLastHalfRecords] using hr
      · rcases hmem with hmem | rfl
        · left
          rw [removeLastHalfRecords_even heven hnil]
          exact hmem
        · exact .inr ⟨init, rfl, heven, hnil⟩
    · left
      have hlast : (init ++ [last]).length = init.length + 1 := by simp
      have hhalf : (init ++ [last] ++ after).length / 2 = (init ++ [last]).length := by
        rw [List.length_append]
        omega
      simp only [removeLastHalfRecords, hhalf]
      rw [if_pos (by simp), List.take_left]
      exact hr

theorem removeFirstHalfRecords_append
    (hlength : before.length = (before.length + (after.length + 1)) / 2) (hr : r ∈ after) :
    r ∈ (removeFirstHalfRecords ⟨before ++ after, client⟩).records := by
  unfold removeFirstHalfRecords
  dsimp only
  split_ifs
  · rw [List.drop_append_of_le_length (by rw [List.length_append]; omega)]
    exact List.mem_append_right _ hr
  · exact List.mem_append_right _ hr

/-- If the record in the middle does not decide the search, then a match is left unless it stood
directly before the middle. -/
theorem checkMiddle_none (hs : Searchable key iter)
    (h : checkMiddleTransactionMatch iter tx key = (none, iter')) :
    Narrows iter iter' ∧ ∀ r ∈ iter.remaining, Matches tx key r →
      (r ∈ iter'.remaining ↔ ¬ BeforeMiddle tx key iter.records r) := by
  obtain ⟨records, client⟩ := iter
  rcases exists_middle records with rfl | ⟨before, mid, after, rfl, hlength⟩
  · cases h
    refine ⟨.refl _, fun r hr _ => iff_of_true hr ?_⟩
    rintro ⟨before, mid, after, heq, -⟩
    simp at heq
  · have hordered : Ordered key (before ++ mid :: (after ++ client.pages.flatten)) := by
      simpa [remaining] using hs.ordered
    have hnarrows : Narrows ⟨before ++ mid :: after, client⟩ ⟨before ++ after, client⟩ :=
      .of_records ((List.sublist_cons_self mid after).append_left before)
    have hcases : ∀ r ∈ (TransactionsResponseIter.mk (before ++ mid :: after) client).remaining,
        r = mid ∨ r ∈ before ∨ r ∈ after ++ client.pages.flatten := by
      intro r hr
      simp only [remaining, List.mem_append, List.mem_cons] at hr ⊢
      tauto
    simp only [beforeMiddle_iff hlength]
    rw [checkMiddle_append hlength] at h
    split at h
    · cases h
    · next n hsome =>
      obtain ⟨hn, hne⟩ := checkTransactionMatch_some.mp hsome
      obtain ⟨hlarger, hsmaller⟩ := hordered.around hn
      split at h
      · next hgt =>
        -- A match is before the middle.
        cases h
        refine ⟨hnarrows.trans (narrows_removeLastHalfRecords _), fun r hr hmatches => ?_⟩
        have hseq := (matches_iff.mp hmatches).1
        have hafter : r ∉ after ++ client.pages.flatten := by
          intro hmem
          exact absurd (hsmaller r hmem _ hseq) hgt.not_gt
        have hbefore : r ∈ before := by
          rcases hcases r hr with rfl | hmem | hmem
          · exact absurd (Option.mem_unique hseq hn) hne
          · exact hmem
          · exact absurd hmem hafter
        have hinit : ∀ init, before = init ++ [r] → r ∉ init := by
          rintro init rfl hmem
          rw [List.append_assoc] at hordered
          exact absurd ((hordered.around hseq).1 r hmem _ hseq) (lt_irrefl _)
        by_cases heven : ∃ init, before = init ++ [r] ∧ init.length = after.length ∧ init ≠ []
        · obtain ⟨init, rfl, hlength', hnil⟩ := heven
          refine iff_of_false ?_ (not_not.mpr ⟨init, rfl, hlength', hnil, n, hn, hgt⟩)
          rw [removeLastHalfRecords_even hlength' hnil, remaining,
            List.mem_append, not_or]
          exact ⟨hinit init rfl, fun hmem => hafter (List.mem_append_right _ hmem)⟩
        · refine iff_of_true ?_ ?_
          · refine List.mem_append_left _ ?_
            exact (removeLastHalfRecords_append hlength hbefore).resolve_right heven
          · rintro ⟨init, heq, hlength', hnil, -⟩
            exact heven ⟨init, heq, hlength', hnil⟩
      · next hle =>
        -- A match is after the middle.
        cases h
        refine ⟨hnarrows.trans (narrows_removeFirstHalfRecords _), fun r hr hmatches => ?_⟩
        have hseq := (matches_iff.mp hmatches).1
        have hlt : tx.seqNum < n := lt_of_le_of_ne (not_lt.mp hle) hne
        refine iff_of_true ?_ ?_
        · rcases hcases r hr with rfl | hmem | hmem
          · exact absurd (Option.mem_unique hseq hn) hne
          · exact absurd (hlarger r hmem _ hseq) hlt.not_gt
          · rcases List.mem_append.mp hmem with hmem | hmem
            · exact List.mem_append_left _ (removeFirstHalfRecords_append hlength hmem)
            · exact List.mem_append_right _ (by rwa [removeFirstHalfRecords_client])
        · rintro ⟨_, -, -, -, n', hn', hlt'⟩
          obtain rfl := Option.mem_unique hn hn'
          exact hle hlt'
    · next hnone =>
      cases h
      have hmid := checkTransactionMatch_none.mp hnone
      refine ⟨hnarrows, fun r hr hmatches => iff_of_true ?_ ?_⟩
      · rcases hcases r hr with rfl | hmem | hmem
        · have hseq := (matches_iff.mp hmatches).1
          simp [hmid] at hseq
        · exact List.mem_append_left _ (List.mem_append_left _ hmem)
        · rw [remaining, List.append_assoc]
          exact List.mem_append_right _ hmem
      · rintro ⟨_, -, -, -, n, hn, -⟩
        simp [hmid] at hn

end

/-- The page from which the next record comes. -/
def TransactionsResponseIter.page (iter : TransactionsResponseIter) : List TransactionResponse :=
  if iter.records = [] then iter.client.pages.headD [] else iter.records

/-- The search drops a match in its next turn. -/
def DropsMatch (tx : Transaction) (key : PublicKey) (iter : TransactionsResponseIter) : Prop :=
  ∃ top records r, iter.page = top :: records ∧ ownSequence key top ≠ none ∧ Matches tx key r ∧
    BeforeMiddle tx key records r

theorem mem_remaining_of_page (h : r ∈ iter.page) : r ∈ iter.remaining := by
  unfold TransactionsResponseIter.page at h
  split_ifs at h
  · rw [remaining, ← flatten_headD_tail iter.client.pages]
    exact List.mem_append_right _ (List.mem_append_left _ h)
  · exact List.mem_append_left _ h

theorem next_cases (hs : Searchable key iter) :
    (iter.remaining = [] ∧ iter.page = [] ∧ ∃ iter', iter.next = (none, iter')) ∨
      ∃ top iter', iter.next = (some top, iter') ∧ iter.remaining = top :: iter'.remaining ∧
        iter.page = top :: iter'.records ∧ Narrows iter iter' := by
  obtain ⟨records, ⟨pages, answers⟩⟩ := iter
  obtain rfl : answers = [] := hs.answers
  have hpages := hs.pages_ne_nil
  cases records with
  | cons top records =>
    exact .inr ⟨top, ⟨records, ⟨pages, []⟩⟩, rfl, rfl, rfl, .of_records (List.sublist_cons_self _ _)⟩
  | nil =>
    cases pages with
    | nil => exact .inl ⟨rfl, rfl, _, rfl⟩
    | cons page pages =>
      cases page with
      | nil => exact absurd rfl (hpages [] List.mem_cons_self)
      | cons top records =>
        refine .inr ⟨top, ⟨records, ⟨pages, []⟩⟩, rfl, rfl, rfl, ?_, rfl, ?_⟩
        · exact List.sublist_cons_self _ _
        · exact fun _ hpage => List.mem_cons_of_mem _ hpage

theorem BeforeMiddle.mem {records : List TransactionResponse} (h : BeforeMiddle tx key records r) :
    r ∈ records := by
  obtain ⟨before, mid, after, rfl, -⟩ := h
  simp

section

variable {top : TransactionResponse} {n : SequenceNumber}

/-- A match after an own record has a smaller sequence number. -/
theorem lt_of_matches (hs : Searchable key iter) (hremaining : iter.remaining = top :: iter'.remaining)
    (hn : ownSequence key top = some n) (hr : r ∈ iter'.remaining) (hmatches : Matches tx key r) :
    tx.seqNum < n := by
  have hordered := hs.ordered
  rw [hremaining] at hordered
  exact (List.pairwise_cons.mp hordered).1 r hr n hn _ (matches_iff.mp hmatches).1

/-- The search drops the match if the match stands directly before the middle. -/
theorem dropsMatch_iff (hs : Searchable key iter)
    (hremaining : iter.remaining = top :: iter'.remaining) (hpage : iter.page = top :: iter'.records)
    (htop : ownSequence key top ≠ none) (hr : r ∈ iter.remaining) (hmatches : Matches tx key r) :
    DropsMatch tx key iter ↔ BeforeMiddle tx key iter'.records r := by
  constructor
  · rintro ⟨top', records, r', hpage', -, hmatches', hmiddle⟩
    obtain ⟨rfl, rfl⟩ := List.cons.inj (hpage'.symm.trans hpage)
    have hr' : r' ∈ iter.remaining := by
      rw [hremaining]
      exact List.mem_cons_of_mem _ (List.mem_append_left _ hmiddle.mem)
    obtain rfl := hs.ordered.unique hr' hr (matches_iff.mp hmatches').1 (matches_iff.mp hmatches).1
    exact hmiddle
  · intro hmiddle
    exact ⟨top, iter'.records, r, hpage, htop, hmatches, hmiddle⟩

/-- A turn that does not look at the middle does not drop a match. -/
theorem not_dropsMatch (hs : Searchable key iter)
    (hremaining : iter.remaining = top :: iter'.remaining) (hpage : iter.page = top :: iter'.records)
    (htop : ∀ n, ownSequence key top = some n → n ≤ tx.seqNum) : ¬ DropsMatch tx key iter := by
  rintro ⟨top', records, r, hpage', hown, hmatches, hmiddle⟩
  obtain ⟨rfl, rfl⟩ := List.cons.inj (hpage'.symm.trans hpage)
  obtain ⟨n, hn⟩ := Option.ne_none_iff_exists'.mp hown
  have hmem : r ∈ iter'.remaining := List.mem_append_left _ hmiddle.mem
  exact absurd (htop n hn) (lt_of_matches hs hremaining hn hmem hmatches).not_ge

end

/-- A turn that ends the search gives the right result, and drops no match. -/
theorem searchTurn_exit (hs : Searchable key iter) (h : searchTurn tx key iter = .inr b) :
    (b = true ↔ ∃ r ∈ iter.remaining, Matches tx key r) ∧ ¬ DropsMatch tx key iter := by
  unfold searchTurn at h
  rcases next_cases hs with ⟨hnil, hpage, iter', hnext⟩ | ⟨top, iter', hnext, hremaining, hpage, hnarrows⟩
  · rw [hnext] at h
    cases h
    refine ⟨by simp [hnil], ?_⟩
    rintro ⟨top, records, r, hpage', -⟩
    simp [hpage] at hpage'
  · have hmem : ∀ r ∈ iter'.remaining, r ∈ iter.remaining := fun r hr => hnarrows.sublist.subset hr
    have hs' := hnarrows.searchable hs
    simp only [hnext] at h
    split at h
    · next res hok =>
      cases h
      have hown := (checkTransactionMatch_ok.mp hok).1
      refine ⟨hs.ordered.decided (by rw [hremaining]; exact List.mem_cons_self) hok, ?_⟩
      refine not_dropsMatch hs hremaining hpage fun n hn => ?_
      exact (Option.mem_unique hn hown).le
    · cases h
    · next n hsome =>
      obtain ⟨hn, hne⟩ := checkTransactionMatch_some.mp hsome
      have htop : ownSequence key top ≠ none := by simp [hn]
      split at h
      · -- The transaction is newer than the records that are left.
        next hgt =>
        cases h
        refine ⟨iff_of_false Bool.false_ne_true ?_, ?_⟩
        · rintro ⟨r, hr, hmatches⟩
          rw [hremaining] at hr
          rcases List.mem_cons.mp hr with rfl | hr
          · exact hne (Option.some.inj ((matches_iff.mp hmatches).1.symm.trans hn))
          · exact absurd hgt (lt_of_matches hs hremaining hn hr hmatches).not_gt
        · refine not_dropsMatch hs hremaining hpage fun m hm => ?_
          exact (Option.mem_unique hm hn).trans_le hgt.le
      · split at h
        · next hmiddle =>
          cases h
          obtain ⟨⟨r, hr, hok⟩, hnot⟩ := checkMiddle_some hmiddle
          refine ⟨hs.ordered.decided (hmem r hr) hok, ?_⟩
          rintro ⟨_, records, r', hpage', -, -, hbefore⟩
          obtain ⟨-, rfl⟩ := List.cons.inj (hpage'.symm.trans hpage)
          exact hnot r' hbefore
        · next iter₂ hmiddle =>
          obtain ⟨hnarrows₂, hkept⟩ := checkMiddle_none hs' hmiddle
          split at h
          · next hlast =>
            cases h
            obtain ⟨r, hr, hok⟩ := checkLast_some (hnarrows₂.searchable hs') hlast
            have hr' := hmem r (hnarrows₂.sublist.subset hr)
            refine ⟨hs.ordered.decided hr' hok, ?_⟩
            rintro ⟨_, records, r', hpage', -, hmatches, hbefore⟩
            obtain ⟨-, rfl⟩ := List.cons.inj (hpage'.symm.trans hpage)
            have hmem' : r' ∈ iter'.remaining := List.mem_append_left _ hbefore.mem
            obtain rfl := hs.ordered.unique hr' (hmem r' hmem') (checkTransactionMatch_ok.mp hok).1
              (matches_iff.mp hmatches).1
            exact (hkept r hmem' hmatches).mp hr hbefore
          · cases h

/-- A turn that does not end the search uses up a record, and afterwards a match is left unless the
search drops it. -/
theorem searchTurn_next (hs : Searchable key iter) (h : searchTurn tx key iter = .inl iter') :
    Narrows iter iter' ∧ iter'.remaining.length < iter.remaining.length ∧
      ∀ r ∈ iter.remaining, Matches tx key r →
        (r ∈ iter'.remaining ↔ ¬ DropsMatch tx key iter) := by
  unfold searchTurn at h
  rcases next_cases hs with ⟨hnil, hpage, _, hnext⟩ | ⟨top, iter₁, hnext, hremaining, hpage, hnarrows⟩
  · rw [hnext] at h
    cases h
  · have hs₁ := hnarrows.searchable hs
    have hlt : iter₁.remaining.length < iter.remaining.length := by simp [hremaining]
    simp only [hnext] at h
    split at h
    · cases h
    · next hnone =>
      cases h
      have hown := checkTransactionMatch_none.mp hnone
      refine ⟨hnarrows, hlt, fun r hr hmatches => iff_of_true ?_ ?_⟩
      · rw [hremaining] at hr
        refine (List.mem_cons.mp hr).resolve_left ?_
        rintro rfl
        simpa [hown] using (matches_iff.mp hmatches).1
      · exact not_dropsMatch hs hremaining hpage (by simp [hown])
    · next n hsome =>
      obtain ⟨hn, hne⟩ := checkTransactionMatch_some.mp hsome
      split at h
      · cases h
      · split at h
        · cases h
        · next iter₂ hmiddle =>
          obtain ⟨hnarrows₂, hkept⟩ := checkMiddle_none hs₁ hmiddle
          split at h
          · cases h
          · next iter₃ hlast =>
            cases h
            obtain ⟨hnarrows₃, hleft⟩ := checkLast_none (hnarrows₂.searchable hs₁) hlast
            have hnarrows₁ := hnarrows₂.trans hnarrows₃
            refine ⟨hnarrows.trans hnarrows₁, hnarrows₁.sublist.length_le.trans_lt hlt,
              fun r hr hmatches => ?_⟩
            rw [dropsMatch_iff hs hremaining hpage (by simp [hn]) hr hmatches]
            have hr₁ : r ∈ iter₁.remaining := by
              rw [hremaining] at hr
              refine (List.mem_cons.mp hr).resolve_left ?_
              rintro rfl
              exact hne (Option.some.inj ((matches_iff.mp hmatches).1.symm.trans hn))
            rw [← hkept r hr₁ hmatches]
            exact ⟨fun hr₃ => hnarrows₃.sublist.subset hr₃, fun hr₂ => hleft r hr₂ hmatches⟩

end

/-! ## The end of the search -/

section

variable {tx : Transaction} {key : PublicKey} {iter iter' : TransactionsResponseIter}

/-- What the search finds is there. -/
theorem exits_sound {b : Bool} (hs : Searchable key iter) (h : Exits (searchTurn tx key) iter b)
    (hb : b = true) : ∃ r ∈ iter.remaining, Matches tx key r := by
  induction h with
  | exit hexit => exact (searchTurn_exit hs hexit).1.mp hb
  | next hnext _ ih =>
    obtain ⟨hnarrows, -, -⟩ := searchTurn_next hs hnext
    obtain ⟨r, hr, hmatches⟩ := ih (hnarrows.searchable hs) hb
    exact ⟨r, hnarrows.sublist.subset hr, hmatches⟩

/-- The search gives the right result if and only if it never drops the match. -/
theorem exits_right_iff {b : Bool} (hs : Searchable key iter)
    (h : Exits (searchTurn tx key) iter b) :
    (b = true ↔ ∃ r ∈ iter.remaining, Matches tx key r) ↔
      ∀ iter', Reaches (searchTurn tx key) iter iter' → ¬ DropsMatch tx key iter' := by
  induction h with
  | @exit iter b hexit =>
    obtain ⟨hright, hnot⟩ := searchTurn_exit hs hexit
    refine iff_of_true hright fun iter' hreaches => ?_
    rcases Reaches.cases_head hreaches with rfl | ⟨iter₁, hnext, -⟩
    · exact hnot
    · simp [hexit] at hnext
  | @next iter iter₁ b hnext hrest ih =>
    obtain ⟨hnarrows, -, hleft⟩ := searchTurn_next hs hnext
    have hs₁ := hnarrows.searchable hs
    have hreached : (∀ iter', Reaches (searchTurn tx key) iter iter' → ¬ DropsMatch tx key iter') ↔
        ¬ DropsMatch tx key iter ∧
          ∀ iter', Reaches (searchTurn tx key) iter₁ iter' → ¬ DropsMatch tx key iter' := by
      refine ⟨fun hall => ⟨hall _ (.refl _ _), fun iter' h => hall iter' (h.head hnext)⟩, ?_⟩
      rintro ⟨hnot, hall⟩ iter' hreaches
      rcases Reaches.cases_head hreaches with rfl | ⟨iter₂, hnext', hreaches⟩
      · exact hnot
      · obtain rfl := Sum.inl.inj (hnext.symm.trans hnext')
        exact hall iter' hreaches
    rw [hreached, ← ih hs₁]
    by_cases hdrops : DropsMatch tx key iter
    · -- The match is not found any more.
      refine iff_of_false (fun hright => ?_) fun hboth => hboth.1 hdrops
      obtain ⟨top, records, r, hpage, -, hmatches, hmiddle⟩ := id hdrops
      have hr : r ∈ iter.remaining := by
        refine mem_remaining_of_page ?_
        rw [hpage]
        exact List.mem_cons_of_mem _ hmiddle.mem
      have hb := hright.mpr ⟨r, hr, hmatches⟩
      obtain ⟨r', hr', hmatches'⟩ := exits_sound hs₁ hrest hb
      exact (hleft r' (hnarrows.sublist.subset hr') hmatches').mp hr' hdrops
    · rw [and_iff_right hdrops]
      refine iff_congr Iff.rfl ⟨?_, ?_⟩
      · rintro ⟨r, hr, hmatches⟩
        exact ⟨r, (hleft r hr hmatches).mpr hdrops, hmatches⟩
      · rintro ⟨r, hr, hmatches⟩
        exact ⟨r, hnarrows.sublist.subset hr, hmatches⟩

end

/-- The iterator before the search, if no request fails. -/
def searchStart (pages : List (List TransactionResponse)) : TransactionsResponseIter :=
  ⟨pages.headD [], ⟨pages.tail, []⟩⟩

/-- If no request fails, the search ends with the right result, if and only if no turn of it drops
the match. -/
theorem submitted_iff_not_dropped (key : PublicKey) (tx : Transaction)
    (pages : List (List TransactionResponse)) (hpages : ∀ page ∈ pages, page ≠ [])
    (hordered : Ordered key pages.flatten) :
    (∃ b, isTransactionAlreadySubmitted ⟨pages, []⟩ key tx = some b ∧
        (b = true ↔ ∃ r ∈ pages.flatten, Matches tx key r)) ↔
      ∀ iter, Reaches (searchTurn tx key) (searchStart pages) iter → ¬ DropsMatch tx key iter := by
  have hremaining : (searchStart pages).remaining = pages.flatten := flatten_headD_tail pages
  have hs : Searchable key (searchStart pages) :=
    ⟨by rwa [hremaining], rfl, fun page hpage => hpages page (List.mem_of_mem_tail hpage)⟩
  obtain ⟨b, hloop, hexits⟩ := exists_loop_eq_some (I := Searchable key)
    (fun iter => iter.remaining.length) (fun iter iter' hs hnext => by
      obtain ⟨hnarrows, hlt, -⟩ := searchTurn_next hs hnext
      exact ⟨hnarrows.searchable hs, hlt⟩) hs (Nat.lt_succ_self _)
  have hsubmitted : isTransactionAlreadySubmitted ⟨pages, []⟩ key tx = some b := hloop
  rw [← exits_right_iff hs hexits, hremaining, hsubmitted]
  simp only [Option.some.injEq, exists_eq_left']

/-- A record with a text memo. -/
def sampleRecord (source : PublicKey) (n : SequenceNumber) : TransactionResponse :=
  ⟨some source, some n, true, some [n.toNat.toUInt8], none, 0, 0⟩

def sampleTransaction (n : SequenceNumber) : Transaction := ⟨n, .memoText [n.toNat.toUInt8]⟩

/-- The own transaction with the number 2 is found behind a foreign one. -/
theorem submitted_iff_not_dropped_small :
    isTransactionAlreadySubmitted ⟨[[sampleRecord 1 3, sampleRecord 2 9], [sampleRecord 1 2]], []⟩ 1
        (sampleTransaction 2) = some true ∧
      ∀ iter, Reaches (searchTurn (sampleTransaction 2) 1)
          (searchStart [[sampleRecord 1 3, sampleRecord 2 9], [sampleRecord 1 2]]) iter →
        ¬ DropsMatch (sampleTransaction 2) 1 iter := by
  have hfound : isTransactionAlreadySubmitted
      ⟨[[sampleRecord 1 3, sampleRecord 2 9], [sampleRecord 1 2]], []⟩ 1 (sampleTransaction 2) =
        some true := by
    decide +kernel
  refine ⟨hfound, ?_⟩
  refine (submitted_iff_not_dropped 1 (sampleTransaction 2)
    [[sampleRecord 1 3, sampleRecord 2 9], [sampleRecord 1 2]] (by decide) ?_).mp
      ⟨true, hfound, iff_of_true rfl ⟨sampleRecord 1 2, by simp, rfl, rfl, _, rfl, rfl⟩⟩
  unfold Ordered
  decide +kernel

/-- Five own transactions on a page. -/
def fiveRecords : List TransactionResponse :=
  [sampleRecord 1 5, sampleRecord 1 4, sampleRecord 1 3, sampleRecord 1 2, sampleRecord 1 1]

/-- The search does not find the third of the transactions. -/
theorem third_of_five_overlooked :
    Ordered 1 [fiveRecords].flatten ∧ sampleRecord 1 3 ∈ [fiveRecords].flatten ∧
      Matches (sampleTransaction 3) 1 (sampleRecord 1 3) ∧
      isTransactionAlreadySubmitted ⟨[fiveRecords], []⟩ 1 (sampleTransaction 3) = some false := by
  refine ⟨?_, by simp [fiveRecords], ⟨rfl, rfl, _, rfl, rfl⟩, by decide +kernel⟩
  unfold Ordered
  decide +kernel

end Spacewalk.Clients
