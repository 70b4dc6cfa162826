import Spacewalk.Clients.Handshake

/-!
# Certificates of a session

A certificate is made for `AUTH_CERT_EXPIRATION_LIMIT` milliseconds from a given time on
(`createAuthCert`), and a side goes on using the one that it saved while at least half of that time
is left (`ConnectionAuth.savedAuthCert`).  The other side compares the expiration, which is in
milliseconds, with its clock in seconds (`verifyRemoteAuthCert`), so it accepts a certificate for
much longer than it is made for.
-/

namespace Spacewalk.Clients.Overlay

open Foundation

variable {sdk : OverlaySdk} {networkId keypair pubKeyEcdh : Bytes} {cert : AuthCert} {t u w : UInt64}

/-- Signatures have 64 bytes and verify under the public key of their signer. -/
structure OverlaySdk.Signs (sdk : OverlaySdk) : Prop where
  length_eq : ∀ key data, (sdk.createSignature key data).length = 64
  verifies : ∀ key data,
    sdk.verifySignature (sdk.getPublic key) data (sdk.createSignature key data) = true

/-- The time limit does not overflow. -/
def Representable (t limit : UInt64) : Prop := t.toNat + limit.toNat < 2 ^ 64

/-- A certificate that begins at `t` is made, and is accepted at `u` exactly while it is in force. -/
def ExpiresInTime (sdk : OverlaySdk) (networkId keypair pubKeyEcdh : Bytes) (t u : UInt64) : Prop :=
  ∃ cert, createAuthCert sdk networkId keypair t pubKeyEcdh = .ok cert ∧
    (verifyRemoteAuthCert sdk u (sdk.getPublic keypair) cert networkId = true ↔
      u.toNat < t.toNat + authCertExpirationLimit.toNat)

/-- A certificate that was saved and is used at `u` is accepted for half of the time limit.  It is
the last one that was saved, whatever else the connection saved before and after it. -/
def SavedStaysValid (sdk : OverlaySdk) : Prop :=
  ∀ (auth : ConnectionAuth) (t u w : UInt64) (cert saved : AuthCert),
    Representable t authCertExpirationLimit → Representable u (authCertExpirationLimit / 2) →
    createAuthCert sdk auth.networkHash auth.keypair t auth.pubKeyEcdh = .ok cert →
    (auth.setAuthCert cert).savedAuthCert u = .ok saved →
    u ≤ w → w.toNat < u.toNat + authCertExpirationLimit.toNat / 2 →
    verifyRemoteAuthCert sdk w (sdk.getPublic auth.keypair) saved auth.networkHash = true

theorem Representable.toNat_add {limit : UInt64} (h : Representable t limit) :
    (t + limit).toNat = t.toNat + limit.toNat := by
  rw [UInt64.toNat_add, Nat.mod_eq_of_lt h]

theorem savedAuthCert_setAuthCert {auth : ConnectionAuth} {saved : AuthCert} :
    (auth.setAuthCert cert).savedAuthCert u = .ok saved ↔
      u + authCertExpirationLimit / 2 ≤ cert.expiration ∧ cert = saved := by
  simp only [ConnectionAuth.savedAuthCert, ConnectionAuth.setAuthCert, except_bind_eq_ok, okOr_eq_ok,
    ensure_eq_ok, except_pure_eq_ok, UInt64.not_lt]
  grind

section

variable (hsigns : sdk.Signs)

include hsigns

theorem createAuthCert_eq : createAuthCert sdk networkId keypair t pubKeyEcdh =
    .ok ⟨pubKeyEcdh, t + authCertExpirationLimit, sdk.createSignature keypair
      (authCertData sdk networkId (t + authCertExpirationLimit) pubKeyEcdh)⟩ := by
  simp only [createAuthCert, except_rules]
  exact ⟨(), (hsigns.length_eq _ _).le, trivial⟩

/-- A certificate is accepted until its expiration, counted in seconds. -/
theorem verifyRemoteAuthCert_iff (ht : Representable t authCertExpirationLimit)
    (h : createAuthCert sdk networkId keypair t pubKeyEcdh = .ok cert) :
    verifyRemoteAuthCert sdk u (sdk.getPublic keypair) cert networkId = true ↔
      u.toNat / 1000 < t.toNat + authCertExpirationLimit.toNat := by
  rw [createAuthCert_eq hsigns] at h
  obtain rfl := Except.ok.inj h
  rw [verifyRemoteAuthCert, if_pos (hsigns.length_eq _ _), hsigns.verifies, ← ht.toNat_add]
  have hseconds : (u / 1000).toNat = u.toNat / 1000 := UInt64.toNat_div u 1000
  rw [← hseconds, ← UInt64.lt_iff_toNat_lt, ← UInt64.not_le]
  simp

theorem saved_stays_valid : SavedStaysValid sdk := by
  intro auth t u w cert saved ht hu hcert hsaved huw hw
  obtain ⟨hlimit, rfl⟩ := savedAuthCert_setAuthCert.mp hsaved
  rw [verifyRemoteAuthCert_iff hsigns ht hcert]
  rw [createAuthCert_eq hsigns] at hcert
  obtain rfl := Except.ok.inj hcert
  -- at least half of the time is left at `u`, and seconds are fewer than milliseconds
  have hleft : u.toNat + 180000 ≤ t.toNat + authCertExpirationLimit.toNat := by
    rw [UInt64.le_iff_toNat_le, hu.toNat_add, ht.toNat_add] at hlimit
    exact hlimit
  have hhalf : w.toNat < u.toNat + 180000 := hw
  omega

end

/-- Certificates expire in time, and saved ones stay valid, if and only if the certificate is in
force or has also expired on a clock that shows milliseconds as seconds. -/
theorem authCert_expires_iff (sdk : OverlaySdk) (hsigns : sdk.Signs)
    (networkId keypair pubKeyEcdh : Bytes) (t u : UInt64)
    (ht : Representable t authCertExpirationLimit) :
    ExpiresInTime sdk networkId keypair pubKeyEcdh t u ∧ SavedStaysValid sdk ↔
      u.toNat < t.toNat + authCertExpirationLimit.toNat ∨
        t.toNat + authCertExpirationLimit.toNat ≤ u.toNat / 1000 := by
  rw [and_iff_left (saved_stays_valid hsigns)]
  constructor
  · rintro ⟨cert, hcert, hiff⟩
    rw [verifyRemoteAuthCert_iff hsigns ht hcert] at hiff
    omega
  · intro h
    refine ⟨_, createAuthCert_eq hsigns, ?_⟩
    rw [verifyRemoteAuthCert_iff hsigns ht (createAuthCert_eq hsigns)]
    omega

theorem sampleOverlaySdk_signs : sampleOverlaySdk.Signs := ⟨fun _ _ => rfl, fun _ _ => rfl⟩

theorem representable_zero : Representable 0 authCertExpirationLimit := by
  rw [Representable]
  decide

/-- A certificate is accepted a second after it was made, as it should be. -/
theorem authCert_expires_in_force :
    ExpiresInTime sampleOverlaySdk (zeros 32) [] [] 0 1000 ∧ SavedStaysValid sampleOverlaySdk :=
  (authCert_expires_iff sampleOverlaySdk sampleOverlaySdk_signs (zeros 32) [] [] 0 1000
    representable_zero).mpr (.inl (by decide))

/-- A certificate that expires 360 seconds after it was made is accepted after 400 seconds. -/
theorem expired_authCert_accepted :
    createAuthCert sampleOverlaySdk (zeros 32) [] 0 [] = .ok ⟨[], 360000, zeros 64⟩ ∧
      verifyRemoteAuthCert sampleOverlaySdk 400000 (sampleOverlaySdk.getPublic [])
        ⟨[], 360000, zeros 64⟩ (zeros 32) = true ∧
      ¬ (ExpiresInTime sampleOverlaySdk (zeros 32) [] [] 0 400000 ∧
        SavedStaysValid sampleOverlaySdk) := by
  refine ⟨by decide +kernel, by decide +kernel, ?_⟩
  rintro ⟨⟨cert, hcert, hiff⟩, -⟩
  rw [verifyRemoteAuthCert_iff sampleOverlaySdk_signs representable_zero hcert] at hiff
  exact absurd hiff (by decide)

end Spacewalk.Clients.Overlay
