import Spacewalk.Ledger.Run
import Spacewalk.Runtime.Replay

/-!
# Request identifiers

`get_secure_id` hashes the index of the extrinsic, a nonce that it increments, and the hash of the
parent block.  The three encodings have fixed widths, so bytes with different nonces differ.  The
nonce counts the identifiers that were drawn: a call that fails is rolled back with its nonce, and
every other call draws at most one identifier (`HashingStep.draws`).

As long as the hash does not collide on the bytes that were hashed, every stored request has the hash
of bytes with a smaller nonce, and the next identifier is new.
-/

namespace Spacewalk.Ledger

open Foundation Function
open Security (nextId)
open Stellar (Bytes)

/-! ## The hashed bytes -/

/-- The encoding of an unsigned integer: its bytes, from the least significant one on. -/
def littleEndian : ℕ → ℕ → Bytes
  | 0, _ => []
  | width + 1, n => UInt8.ofNat (n % 256) :: littleEndian width (n / 256)

@[simp] theorem length_littleEndian (width n : ℕ) : (littleEndian width n).length = width := by
  induction width generalizing n with
  | zero => rfl
  | succ width ih => simp [littleEndian, ih]

/-- The integer that bytes encode. -/
def ofLittleEndian : Bytes → ℕ
  | [] => 0
  | byte :: bytes => byte.toNat + 256 * ofLittleEndian bytes

theorem ofLittleEndian_littleEndian {width n : ℕ} (h : n < 256 ^ width) :
    ofLittleEndian (littleEndian width n) = n := by
  induction width generalizing n with
  | zero =>
    rw [pow_zero, Nat.lt_one_iff] at h
    exact h.symm
  | succ width ih =>
    rw [pow_succ'] at h
    simp only [littleEndian, ofLittleEndian, ih (Nat.div_lt_of_lt_mul h), UInt8.toNat_ofNat']
    omega

/-- What `get_secure_id` hashes: a `u32`, a `U256` and the bytes of an `H256`. -/
def secureBytes (extrinsicIndex : ℕ) (nonce : BitVec 256) (parentHash : H256) : Bytes :=
  littleEndian 4 extrinsicIndex ++ littleEndian 32 nonce.toNat ++
    (littleEndian 32 parentHash.toNat).reverse

theorem nonce_eq_of_secureBytes_eq {i j : ℕ} {m n : BitVec 256} {p q : H256}
    (h : secureBytes i m p = secureBytes j n q) : m = n := by
  have hlength : (littleEndian 4 i ++ littleEndian 32 m.toNat).length =
      (littleEndian 4 j ++ littleEndian 32 n.toNat).length := by simp
  obtain ⟨hfront, -⟩ := List.append_inj h hlength
  obtain ⟨-, hnonce⟩ := List.append_inj hfront (by simp)
  have hvalue := congrArg ofLittleEndian hnonce
  rw [ofLittleEndian_littleEndian m.isLt, ofLittleEndian_littleEndian n.isLt] at hvalue
  exact BitVec.eq_of_toNat_eq hvalue

/-! ## Runs with failed extrinsics -/

variable {B : Type} {R : Runtime B} {W : Set CurrencyId} {s s' s₀ : Chain B} {l : Record × Bytes}
  {log : List (Record × Bytes)} {sha256 : Bytes → H256}

/-- The bytes behind the next identifier. -/
def nextBytes (s : Chain B) : Bytes :=
  secureBytes s.system.extrinsicIndex (s.security.nonce + 1) s.system.parentHash

/-- A step of a block: an extrinsic that fails leaves the state as it was.  The label shows the bytes
that `get_secure_id` hashes in the step, if it is called. -/
inductive HashingStep (R : Runtime B) (W : Set CurrencyId) :
    Chain B → Record × Bytes → Chain B → Prop
  | step {s s' : Chain B} {record : Record} : Step R W s record s' →
      HashingStep R W s (record, nextBytes s) s'
  | fails {s : Chain B} {origin : Origin} {call : RuntimeCall} {e : DispatchError} :
      Fails (call.dispatch R origin) s e →
      HashingStep R W s (⟨.extrinsic origin call, none⟩, nextBytes s) s

/-- The bytes whose hashes were drawn. -/
def hashedBytes (log : List (Record × Bytes)) : List Bytes :=
  log.filterMap fun l => l.1.drawn.map fun _ => l.2

/-- A step draws no identifier, or it draws the next one and increments the nonce. -/
theorem step_draws {record : Record} (hR : R.tokens.Lawful) (hs : Sound s)
    (h : Step R W s record s') :
    record.drawn = none ∧ s'.security.nonce = s.security.nonce ∨
      record.drawn = some (nextId R s) ∧ s'.security.nonce = s.security.nonce + 1 := by
  cases h with
  | environment h => exact .inl ⟨rfl, h.drawn⟩
  | extrinsic hcall =>
    obtain ⟨s₁, hsame, rfl | ⟨w, -, rfl⟩ | ⟨w, hnext, rfl⟩⟩ := dispatch_requests hR hs hcall
    · exact .inl ⟨if_pos hsame.drawn, hsame.drawn⟩
    · have hnonce : (w.apply s₁).security.nonce = s.security.nonce := by
        rw [w.nonce_apply, hsame.drawn]
      exact .inl ⟨if_pos hnonce, hnonce⟩
    · refine .inr ⟨(drawnBetween_opens hnext hsame).trans (congrArg some hnext), ?_⟩
      rw [w.nonce_apply, ← hsame.drawn]
      rfl

/-- The bytes of the label are those that are hashed; a step that draws no identifier adds no request,
and one that does adds none with another identifier. -/
theorem HashingStep.draws (hR : R.tokens.Lawful) (hs : Sound s) (h : HashingStep R W s l s') :
    l.2 = nextBytes s ∧ Sound s' ∧
      (l.1.drawn = none ∧ s'.security.nonce = s.security.nonce ∧ (∀ id, Used s' id → Used s id) ∨
        l.1.drawn = some (nextId R s) ∧ s'.security.nonce = s.security.nonce + 1 ∧
          ∀ id, Used s' id → Used s id ∨ id = nextId R s) := by
  cases h with
  | fails _ => exact ⟨rfl, hs, .inl ⟨rfl, rfl, fun _ hid => hid⟩⟩
  | step hstep =>
    refine ⟨rfl, step_sound hR hstep hs, ?_⟩
    rcases step_draws hR hs hstep with ⟨hnone, hnonce⟩ | ⟨hsome, hnonce⟩
    · refine .inl ⟨hnone, hnonce, fun id hid => (step_used hR hs hstep hid).resolve_right ?_⟩
      simp [hnone]
    · refine .inr ⟨hsome, hnonce, fun id hid => ?_⟩
      refine (step_used hR hs hstep hid).imp_right fun hdrawn => ?_
      exact Option.mem_unique hdrawn hsome

/-! ## The invariant -/

/-- After `log`, the nonce is the number of draws, the hashed bytes have the nonces from one to that
number, and every request has the hash of some of them. -/
structure Numbered (sha256 : Bytes → H256) (s : Chain B) (log : List (Record × Bytes)) : Prop where
  sound : Sound s
  nonce : s.security.nonce = BitVec.ofNat 256 (hashedBytes log).length
  hashed : ∀ bytes ∈ hashedBytes log, ∃ i k p, k < (hashedBytes log).length ∧
    bytes = secureBytes i (BitVec.ofNat 256 k + 1) p
  used : ∀ id, Used s id → ∃ bytes ∈ hashedBytes log, sha256 bytes = id

/-- The hash that `get_secure_id` uses. -/
def HashesWith (R : Runtime B) (sha256 : Bytes → H256) : Prop :=
  ∀ i n p, R.secureHash i n p = sha256 (secureBytes i n p)

theorem Numbered.step (hR : R.tokens.Lawful) (hhash : HashesWith R sha256)
    (hs : Numbered sha256 s log) (h : HashingStep R W s l s') :
    Numbered sha256 s' (log ++ [l]) := by
  obtain ⟨hlabel, hsound, ⟨hnone, hnonce, hused⟩ | ⟨hsome, hnonce, hused⟩⟩ := h.draws hR hs.sound
  · have hbytes : hashedBytes (log ++ [l]) = hashedBytes log := by simp [hashedBytes, hnone]
    refine ⟨hsound, ?_, ?_, fun id hid => ?_⟩
    · rw [hbytes, hnonce, hs.nonce]
    · rw [hbytes]
      exact hs.hashed
    · rw [hbytes]
      exact hs.used id (hused id hid)
  · have hbytes : hashedBytes (log ++ [l]) = hashedBytes log ++ [nextBytes s] := by
      simp [hashedBytes, hsome, hlabel]
    refine ⟨hsound, ?_, ?_, fun id hid => ?_⟩
    · rw [hbytes, hnonce, hs.nonce, List.length_append, BitVec.ofNat_add]
      rfl
    · rw [hbytes]
      simp only [List.mem_append, List.mem_singleton, List.length_append, List.length_singleton]
      rintro bytes (hmem | rfl)
      · obtain ⟨i, k, p, hk, rfl⟩ := hs.hashed bytes hmem
        exact ⟨i, k, p, Nat.lt_succ_of_lt hk, rfl⟩
      · exact ⟨_, _, _, Nat.lt_succ_self _, by rw [nextBytes, hs.nonce]⟩
    · rw [hbytes]
      rcases hused id hid with hold | rfl
      · obtain ⟨bytes, hmem, rfl⟩ := hs.used id hold
        exact ⟨bytes, List.mem_append_left _ hmem, rfl⟩
      · exact ⟨nextBytes s, by simp, (hhash _ _ _).symm⟩

theorem genesis_numbered (h : IsGenesis s) : Numbered sha256 s [] where
  sound := genesis_sound h
  nonce := h.drawn
  hashed := by simp [hashedBytes]
  used id hid := absurd hid (genesis_unused h id)

/-- While fewer identifiers were drawn than there are nonces, the next one is new. -/
theorem Numbered.fresh (hhash : HashesWith R sha256) (hs : Numbered sha256 s log)
    (hcount : (hashedBytes log).length < 2 ^ 256)
    (hinj : Set.InjOn sha256 {bytes | bytes = nextBytes s ∨ bytes ∈ hashedBytes log}) :
    ¬ Used s (nextId R s) := by
  intro hused
  obtain ⟨bytes, hmem, hid⟩ := hs.used _ hused
  have hnext : sha256 bytes = sha256 (nextBytes s) := hid.trans (hhash _ _ _)
  have hbytes := hinj (.inr hmem) (.inl rfl) hnext
  obtain ⟨i, k, p, hk, rfl⟩ := hs.hashed bytes hmem
  have hnonce := nonce_eq_of_secureBytes_eq hbytes
  rw [hs.nonce, BitVec.add_left_inj] at hnonce
  have hvalue := congrArg BitVec.toNat hnonce
  rw [BitVec.toNat_ofNat, BitVec.toNat_ofNat, Nat.mod_eq_of_lt (hk.trans hcount),
    Nat.mod_eq_of_lt hcount] at hvalue
  omega

/-- Every request that is there stays as it is. -/
structure KeepsStored (s s' : Chain B) : Prop where
  issues : ∀ id, s.issue.issueRequests id ≠ none →
    s'.issue.issueRequests id = s.issue.issueRequests id
  redeems : ∀ id, s.redeem.redeemRequests id ≠ none →
    s'.redeem.redeemRequests id = s.redeem.redeemRequests id
  replaces : ∀ id, s.replace.replaceRequests id ≠ none →
    s'.replace.replaceRequests id = s.replace.replaceRequests id

/-- A request with a new identifier overwrites nothing. -/
theorem Write.keepsStored {w : Write} (h : ¬ Used s w.id) : KeepsStored s (w.apply s) := by
  simp only [Used, not_or, not_not] at h
  obtain ⟨hissue, hredeem, hreplace⟩ := h
  cases w with
  | issue id r =>
    refine ⟨fun id' hid' => update_of_ne ?_ _ _, fun _ _ => rfl, fun _ _ => rfl⟩
    rintro rfl
    exact hid' hissue
  | redeem id r =>
    refine ⟨fun _ _ => rfl, fun id' hid' => update_of_ne ?_ _ _, fun _ _ => rfl⟩
    rintro rfl
    exact hid' hredeem
  | replace id r =>
    refine ⟨fun _ _ => rfl, fun _ _ => rfl, fun id' hid' => update_of_ne ?_ _ _⟩
    rintro rfl
    exact hid' hreplace

/-- In every state of a run `get_secure_id` returns an identifier that no request has, also after the
operations of a call that come before it.  A call that draws an identifier leaves the requests that
there are. -/
theorem secure_ids_fresh (R : Runtime B) (hR : R.tokens.Lawful) (W : Set CurrencyId)
    (sha256 : Bytes → H256) (hhash : HashesWith R sha256) (s₀ s : Chain B)
    (log : List (Record × Bytes)) (hgenesis : IsGenesis s₀) (hrun : Run (HashingStep R W) s₀ log s)
    (hcount : (hashedBytes log).length < 2 ^ 256)
    (hinj : Set.InjOn sha256 {bytes | bytes = nextBytes s ∨ bytes ∈ hashedBytes log}) :
    (∀ s₁ id s', SameRequests s s₁ → Returns (Security.getSecureId R) s₁ id s' →
      s₁.issue.issueRequests id = none ∧ s₁.redeem.redeemRequests id = none ∧
        s₁.replace.replaceRequests id = none) ∧
    ∀ o call s' id, Returns (RuntimeCall.dispatch R o call) s () s' →
      drawnBetween R s s' = some id → ¬ Used s id ∧ KeepsStored s s' := by
  have hs : Numbered sha256 s log :=
    hrun.invariant_log (I := Numbered sha256) (fun _ _ _ _ hs h => hs.step hR hhash h)
      (genesis_numbered hgenesis)
  have hfresh := hs.fresh hhash hcount hinj
  refine ⟨fun s₁ id s' hsame hdraw => ?_, fun o call s' id hcall hdrawn => ?_⟩
  · obtain ⟨rfl, -⟩ := returns_getSecureId.mp hdraw
    rw [nextId_congr hsame, hsame.issues, hsame.redeems, hsame.replaces]
    simpa [Used] using hfresh
  · -- only a call that opens a request draws an identifier
    obtain ⟨s₁, hsame, rfl | ⟨w, -, rfl⟩ | ⟨w, hnext, rfl⟩⟩ := dispatch_requests hR hs.sound hcall
    · rw [drawnBetween, if_pos hsame.drawn] at hdrawn
      cases hdrawn
    · have hnonce : (w.apply s₁).security.nonce = s.security.nonce := by
        rw [w.nonce_apply, hsame.drawn]
      rw [drawnBetween, if_pos hnonce] at hdrawn
      cases hdrawn
    · rw [drawnBetween_opens hnext hsame] at hdrawn
      obtain rfl := Option.some.inj hdrawn
      rw [← hnext] at hfresh
      have hunused : ¬ Used (drawn s₁) w.id := fun hused => hfresh ((Used.congr hsame).mp hused)
      obtain ⟨hissues, hredeems, hreplaces⟩ := Write.keepsStored hunused
      refine ⟨hfresh, fun id => ?_, fun id => ?_, fun id => ?_⟩
      · rw [← hsame.issues]
        exact hissues id
      · rw [← hsame.redeems]
        exact hredeems id
      · rw [← hsame.replaces]
        exact hreplaces id

/-- The hash of the sample runtime: the nonce. -/
def sampleSha256 (bytes : Bytes) : H256 := BitVec.ofNat 256 (ofLittleEndian ((bytes.drop 4).take 32))

theorem sampleRuntime_hashesWith : HashesWith sampleRuntime sampleSha256 := by
  intro i n p
  have hbytes : ((secureBytes i n p).drop 4).take 32 = littleEndian 32 n.toNat := by
    rw [secureBytes, List.append_assoc, List.drop_left' (length_littleEndian 4 i),
      List.take_left' (length_littleEndian 32 n.toNat)]
  rw [sampleSha256, hbytes, ofLittleEndian_littleEndian n.isLt]
  exact BitVec.eq_of_toNat_eq (by simp [sampleRuntime])

/-- The issue of a million tokens, with the bytes that are hashed. -/
def hashingIssue : List (Record × Bytes) :=
  issuing.zip [secureBytes 0 1 0, secureBytes 0 1 0, secureBytes 0 1 0, secureBytes 0 2 0]

/-- After the first request has the identifier 1, the identifier 2 is new. -/
theorem secure_ids_fresh_hashingIssue :
    ∃ s, Run (HashingStep sampleRuntime ∅) sampleGenesis hashingIssue s ∧
      s.issue.issueRequests 1 ≠ none ∧ nextId sampleRuntime s = 2 ∧ s.issue.issueRequests 2 = none := by
  have hexec (s : Chain SampleTokens) (l : Record × Bytes) (s' : Chain SampleTokens)
      (h : (if l.2 = nextBytes s then execute sampleRuntime id s l.1 else none) = some s') :
      HashingStep sampleRuntime ∅ s l s' := by
    obtain ⟨hbytes, hstep⟩ := Option.ite_none_right_eq_some.mp h
    obtain ⟨record, bytes⟩ := l
    obtain rfl : bytes = nextBytes s := hbytes
    exact .step (step_of_execute environmentStep_refl s record s' hstep)
  obtain ⟨s, hrun, hstored, hnext, hinj⟩ : ∃ s,
      Run (HashingStep sampleRuntime ∅) sampleGenesis hashingIssue s ∧
        (s.issue.issueRequests 1).isSome ∧ nextId sampleRuntime s = 2 ∧
        ∀ x ∈ nextBytes s :: hashedBytes hashingIssue, ∀ y ∈ nextBytes s :: hashedBytes hashingIssue,
          sampleSha256 x = sampleSha256 y → x = y :=
    Run.exists_of_replay hexec (by decide +kernel)
  obtain ⟨hfresh, -⟩ := secure_ids_fresh sampleRuntime sampleRuntime_lawful ∅ sampleSha256
    sampleRuntime_hashesWith sampleGenesis s hashingIssue sampleGenesis_isGenesis hrun (by decide)
    fun x hx y hy => hinj x (List.mem_cons.mpr hx) y (List.mem_cons.mpr hy)
  refine ⟨s, hrun, Option.isSome_iff_ne_none.mp hstored, hnext, ?_⟩
  exact (hfresh s 2 (drawn s) (.refl s) (returns_getSecureId.mpr ⟨hnext, rfl⟩)).1

end Spacewalk.Ledger
