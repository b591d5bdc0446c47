import Dquic.Tls.Record

/-!
# Authorities of a connection and session resumption

The authority state that the callbacks of one TLS connection share (`qtls/src/handshake.rs`), and
the adapters that write it into session records and restore it from them
(`qtls/src/resumption.rs`), on the side of a server.
-/

namespace Dquic

open Lib

/-- Certificates, ciphers and digests. `entropy` stands for the randomness of a ticket. -/
structure TlsBackend where
  /-- A UTF-8 string that is a DNS name. -/
  validName : Bytes → Bool
  /-- The public key of a certificate that parses. -/
  publicKey : Bytes → Option Bytes
  /-- The end of the validity of a certificate that parses. -/
  notAfter : Bytes → Option Nat
  /-- The first DNS name of a certificate. -/
  certificateName : Bytes → Option Bytes
  /-- A client certificate chain with its OCSP response is trusted at some time. -/
  verifyClient : List Bytes → Bytes → Nat → Bool
  digest : Bytes → Bytes
  sealInPlace : (key nonce aad plaintext : Bytes) → Option Bytes
  openInPlace : (key nonce aad ciphertext : Bytes) → Option Bytes
  ticketLifetime : Nat
  encryptTicket : (entropy plaintext : Bytes) → Option Bytes
  decryptTicket : Bytes → Option Bytes

structure LocalAuthority where
  name : Bytes
  certificates : List Bytes
  ocsp : Bytes
  deriving DecidableEq, Repr

structure RemoteAuthority where
  name : Bytes
  certificates : List Bytes
  publicKey : Bytes
  deriving DecidableEq, Repr

def RemoteAuthority.new (b : TlsBackend) (name : Bytes) (certificates : List Bytes) : Option RemoteAuthority :=
  if b.validName name then do
    let leaf ← certificates.head?
    let publicKey ← b.publicKey leaf
    some ⟨name, certificates, publicKey⟩
  else none

lemma RemoteAuthority.new_eq_some {b : TlsBackend} {name : Bytes} {certificates : List Bytes} {A : RemoteAuthority}
    (h : RemoteAuthority.new b name certificates = some A) : A.name = name ∧ A.certificates = certificates := by
  unfold RemoteAuthority.new at h
  split at h
  · obtain ⟨leaf, -, h⟩ := of_bind h
    obtain ⟨publicKey, -, h⟩ := of_bind h
    cases h
    exact ⟨rfl, rfl⟩
  · cases h

/-- What the callbacks of one connection know about its two ends. -/
structure AuthorityState where
  localAuthority : Option LocalAuthority
  remoteAuthority : Option RemoteAuthority
  resumedLocal : Option LocalAuthority
  resumedRemote : Option RemoteAuthority
  deriving DecidableEq, Repr

def AuthorityState.default : AuthorityState := ⟨none, none, none, none⟩

namespace AuthorityProjection

def ofLocal (authority : LocalAuthority) : AuthorityProjection := ⟨authority.name, authority.certificates⟩

def ofRemote (authority : RemoteAuthority) : AuthorityProjection := ⟨authority.name, authority.certificates⟩

def Matches (expected : AuthorityProjection) (authority : LocalAuthority) : Prop :=
  expected.name = authority.name ∧ expected.certificates = authority.certificates

instance (expected : AuthorityProjection) (authority : LocalAuthority) : Decidable (expected.Matches authority) :=
  inferInstanceAs (Decidable (_ ∧ _))

def intoRemote (b : TlsBackend) (authority : AuthorityProjection) : Option RemoteAuthority :=
  RemoteAuthority.new b authority.name authority.certificates

lemma ofRemote_of_intoRemote {b : TlsBackend} {authority : AuthorityProjection} {remote : RemoteAuthority}
    (h : authority.intoRemote b = some remote) : ofRemote remote = authority := by
  obtain ⟨hname, hcertificates⟩ := RemoteAuthority.new_eq_some h
  exact congrArg₂ AuthorityProjection.mk hname hcertificates

lemma Matches.ofLocal_eq {expected : AuthorityProjection} {authority : LocalAuthority} (h : expected.Matches authority) :
    ofLocal authority = expected :=
  congrArg₂ AuthorityProjection.mk h.1.symm h.2.symm

end AuthorityProjection

/-! ### Callbacks of the handshake -/

def LocalAuthority.WithinLimits (authority : LocalAuthority) (limits : TlsLimits) : Prop :=
  authority.certificates.length ≤ limits.maxCertificates ∧
    (authority.certificates.map List.length).sum ≤ limits.maxCertificateChainBytes ∧
    authority.ocsp.length ≤ limits.maxOcspBytes

instance (authority : LocalAuthority) (limits : TlsLimits) : Decidable (authority.WithinLimits limits) :=
  inferInstanceAs (Decidable (_ ∧ _ ∧ _))

/-- `FixedServerCert::resolve`. -/
def FixedServerCert.resolve (authority : LocalAuthority) (limits : TlsLimits) (state : AuthorityState) :
    Option AuthorityState :=
  if authority.WithinLimits limits then some { state with localAuthority := some authority } else none

/-- `ClientVerifier::verify_client_cert_with_ocsp`, with `none` for a certificate that is refused. -/
def ClientVerifier.verifyClientCertWithOcsp (b : TlsBackend) (limits : TlsLimits) (endEntity : Bytes)
    (intermediates : List Bytes) (ocsp : Bytes) (now : Nat) (state : AuthorityState) : Option AuthorityState := do
  let certificates := endEntity :: intermediates
  guard (certificates.length ≤ limits.maxCertificates ∧
    (certificates.map List.length).sum ≤ limits.maxCertificateChainBytes ∧ ocsp.length ≤ limits.maxOcspBytes)
  guard (b.verifyClient certificates ocsp now = true)
  let name ← b.certificateName endEntity
  let authority ← RemoteAuthority.new b name certificates
  some { state with remoteAuthority := some authority }

structure HandshakeSummary where
  alpn : Option Bytes
  localAuthority : Option LocalAuthority
  remoteAuthority : Option RemoteAuthority
  deriving DecidableEq, Repr

/-- `TlsHandshake::emit_completion` once the handshake is over. An error is `TlsInvariantError::Missing`. -/
def emitCompletion (role : Role) (alpn : Option Bytes) (resumed : Bool) (state : AuthorityState) :
    Except String HandshakeSummary :=
  let localAuthority := if state.localAuthority = none ∧ resumed then state.resumedLocal else state.localAuthority
  let remoteAuthority := if state.remoteAuthority = none ∧ resumed then state.resumedRemote else state.remoteAuthority
  match role with
  | .client =>
    if remoteAuthority = none then .error "verified server authority" else .ok ⟨alpn, localAuthority, remoteAuthority⟩
  | .server =>
    if localAuthority = none then .error "selected server authority" else .ok ⟨alpn, localAuthority, remoteAuthority⟩

/-! ### Contexts of sessions -/

namespace SessionContext

def capture (state : AuthorityState) : SessionContext where
  localAuthority := (state.localAuthority.or state.resumedLocal).map AuthorityProjection.ofLocal
  remoteAuthority := (state.remoteAuthority.or state.resumedRemote).map AuthorityProjection.ofRemote

/-- A record is not valid for longer than the certificates it names. -/
def notAfter (b : TlsBackend) (context : SessionContext) (ticketNotAfter : Nat) : Option Nat :=
  (context.localAuthority.toList ++ context.remoteAuthority.toList).foldlM
    (fun notAfter authority => do
      let certificate ← authority.certificates.head?
      let timestamp ← b.notAfter certificate
      some (min notAfter timestamp)) ticketNotAfter

/-- The authorities of a record are restored if it was issued by the same server. -/
def restoreServer (b : TlsBackend) (context : SessionContext) (state : AuthorityState) : Option AuthorityState := do
  let expected ← context.localAuthority
  let current ← state.localAuthority
  if expected.Matches current then
    match context.remoteAuthority with
    | some authority => do
      let remote ← authority.intoRemote b
      some { state with resumedRemote := some remote }
    | none => some { state with resumedRemote := none }
  else none

variable {b : TlsBackend} {context : SessionContext}

/-- The time of a record is at most the expiry of the first certificate of each of its authorities. -/
lemma le_of_notAfter {ticketNotAfter notAfter : Nat} (h : context.notAfter b ticketNotAfter = some notAfter) :
    notAfter ≤ ticketNotAfter ∧
      ∀ authority ∈ context.localAuthority.toList ++ context.remoteAuthority.toList, ∃ certificate timestamp,
        authority.certificates.head? = some certificate ∧ b.notAfter certificate = some timestamp ∧
        notAfter ≤ timestamp := by
  unfold SessionContext.notAfter at h
  generalize context.localAuthority.toList ++ context.remoteAuthority.toList = authorities at h ⊢
  induction authorities generalizing ticketNotAfter with
  | nil =>
    cases h
    exact ⟨le_refl _, nofun⟩
  | cons first rest ih =>
    obtain ⟨next, hnext, h⟩ := of_bind h
    obtain ⟨certificate, hcertificate, hnext⟩ := of_bind hnext
    obtain ⟨timestamp, htimestamp, hnext⟩ := of_bind hnext
    cases hnext
    obtain ⟨hle, hrest⟩ := ih h
    refine ⟨hle.trans (min_le_left _ _), ?_⟩
    rintro authority (_ | ⟨_, hmem⟩)
    · exact ⟨certificate, timestamp, hcertificate, htimestamp, hle.trans (min_le_right _ _)⟩
    · exact hrest authority hmem

lemma restoreServer_eq_some {state state' : AuthorityState} (h : context.restoreServer b state = some state') :
    state.localAuthority.map AuthorityProjection.ofLocal = context.localAuthority ∧
      ∃ remote, remote.map AuthorityProjection.ofRemote = context.remoteAuthority ∧
        state' = { state with resumedRemote := remote } := by
  obtain ⟨expected, hexpected, h⟩ := of_bind h
  obtain ⟨current, hcurrent, h⟩ := of_bind h
  split at h
  · rename_i hmatches
    refine ⟨by rw [hcurrent, hexpected, Option.map_some, hmatches.ofLocal_eq], ?_⟩
    cases hremote : context.remoteAuthority with
    | none =>
      simp only [hremote] at h
      cases h
      exact ⟨none, rfl, rfl⟩
    | some authority =>
      simp only [hremote] at h
      obtain ⟨remote, hnew, h⟩ := of_bind h
      cases h
      exact ⟨some remote, by rw [Option.map_some, AuthorityProjection.ofRemote_of_intoRemote hnew], rfl⟩
  · cases h

end SessionContext

/-! ### Sealed records -/

structure RecordKey where
  id : Nat
  key : Bytes
  deriving DecidableEq, Repr

structure SessionSealKeyRing where
  current : RecordKey
  previous : List RecordKey
  deriving DecidableEq, Repr

structure StoredSession where
  notAfter : Nat
  contents : Bytes
  deriving DecidableEq, Repr

def recordMagic : Bytes := [81, 84, 83, 49]

def recordSchema : UInt8 := 1

def recordAad (header storeKey : Bytes) (notAfter : Nat) : Bytes := header ++ storeKey ++ toBE 8 notAfter

namespace SessionSealKeyRing

def sealRecord (b : TlsBackend) (ring : SessionSealKeyRing) (storeKey : Bytes) (notAfter : Nat) (plaintext nonce : Bytes) :
    Option Bytes := do
  let header := recordMagic ++ [recordSchema] ++ toBE 4 ring.current.id ++ nonce
  let ciphertext ← b.sealInPlace ring.current.key nonce (recordAad header storeKey notAfter) plaintext
  some (header ++ ciphertext)

def openRecord (b : TlsBackend) (ring : SessionSealKeyRing) (storeKey : Bytes) (session : StoredSession) : Option Bytes := do
  let header ← slice session.contents 0 21
  guard (header.take 4 = recordMagic ∧ (header.drop 4).head? = some recordSchema)
  let id := ofBE ((header.take 9).drop 5)
  let nonce := header.drop 9
  let recordKey ← (ring.current :: ring.previous).find? (fun item => item.id = id)
  b.openInPlace recordKey.key nonce (recordAad header storeKey session.notAfter) (session.contents.drop 21)

variable {b : TlsBackend} {plaintext storeKey : Bytes} {ring : SessionSealKeyRing}

lemma sealRecord_eq_some {nonce contents : Bytes} {notAfter : Nat}
    (h : ring.sealRecord b storeKey notAfter plaintext nonce = some contents) :
    ∃ header ciphertext, header.length = 9 + nonce.length ∧ contents = header ++ ciphertext ∧
      b.sealInPlace ring.current.key nonce (recordAad header storeKey notAfter) plaintext = some ciphertext := by
  obtain ⟨ciphertext, hseal, h⟩ := of_bind h
  cases h
  refine ⟨_, ciphertext, ?_, rfl, hseal⟩
  simp only [List.length_append, length_toBE, recordMagic, List.length_cons, List.length_nil]

lemma openRecord_eq_some {session : StoredSession} (h : ring.openRecord b storeKey session = some plaintext) :
    21 ≤ session.contents.length ∧ ∃ recordKey ∈ ring.current :: ring.previous,
      b.openInPlace recordKey.key ((session.contents.take 21).drop 9)
        (recordAad (session.contents.take 21) storeKey session.notAfter) (session.contents.drop 21) = some plaintext := by
  obtain ⟨header, hheader, h⟩ := of_bind h
  obtain ⟨-, -, h⟩ := of_bind h
  obtain ⟨recordKey, hfind, h⟩ := of_bind h
  unfold slice at hheader
  split at hheader
  · rename_i hlen
    cases hheader
    exact ⟨hlen.2, recordKey, List.mem_of_find?_eq_some hfind, h⟩
  · cases hheader

end SessionSealKeyRing

inductive QuicVersion
  | v1
  | v2
  deriving DecidableEq, Repr

def recordOverhead : Nat := 4 + 1 + 4 + 12 + 16

def statefulTicketLifetimeSecs : Nat := 24 * 60 * 60

/-- The texts "qtls-resumption-v1", the role, the namespace and the version come before the context. -/
def deriveStoreKey (b : TlsBackend) (role namespaceName : Bytes) (version : QuicVersion) (context : Bytes) : Bytes :=
  let label : Bytes := [113, 116, 108, 115, 45, 114, 101, 115, 117, 109, 112, 116, 105, 111, 110, 45, 118, 49, 0]
  let versionByte : UInt8 := match version with
    | .v1 => 1
    | .v2 => 2
  b.digest (label ++ role ++ [0] ++ namespaceName ++ [0] ++ [versionByte] ++ context)

structure ServerStoreAdapter where
  namespaceName : Bytes
  version : QuicVersion
  sealKeys : SessionSealKeyRing
  limits : TlsLimits

namespace ServerStoreAdapter

def key (b : TlsBackend) (a : ServerStoreAdapter) (ticket : Bytes) : Bytes :=
  deriveStoreKey b [115, 101, 114, 118, 101, 114] a.namespaceName a.version ticket

/-- `put`: the plaintext of the record, and the session handed to the store with its key. -/
def put (b : TlsBackend) (a : ServerStoreAdapter) (ticket value : Bytes) (now : Nat) (nonce : Bytes)
    (state : AuthorityState) : Option (Bytes × Bytes × StoredSession) := do
  let storeKey := a.key b ticket
  let context := SessionContext.capture state
  let notAfter ← context.notAfter b (min (now + statefulTicketLifetimeSecs) (2 ^ 64 - 1))
  let plaintext ← context.encode value a.limits.maxSessionBytes
  let contents ← a.sealKeys.sealRecord b storeKey notAfter plaintext nonce
  some (plaintext, storeKey, ⟨notAfter, contents⟩)

/-- `take` with what the store has under the key of the ticket. -/
def take (b : TlsBackend) (a : ServerStoreAdapter) (ticket : Bytes) (stored : Option StoredSession) (now : Nat)
    (state : AuthorityState) : Option (Bytes × AuthorityState) := do
  let session ← stored
  guard (now < session.notAfter ∧ session.contents.length ≤ a.limits.maxSessionBytes + recordOverhead)
  let plaintext ← a.sealKeys.openRecord b (a.key b ticket) session
  let (context, encoded) ← SessionContext.decode b.validName plaintext a.limits
  let state ← context.restoreServer b state
  some (encoded, state)

variable {a : ServerStoreAdapter} {b : TlsBackend} {now : Nat} {state : AuthorityState} {ticket : Bytes}

lemma put_eq_some {value nonce plaintext storeKey : Bytes} {session : StoredSession}
    (h : a.put b ticket value now nonce state = some (plaintext, storeKey, session)) :
    storeKey = a.key b ticket ∧ (SessionContext.capture state).notAfter b
        (min (now + statefulTicketLifetimeSecs) (2 ^ 64 - 1)) = some session.notAfter ∧
      (SessionContext.capture state).encode value a.limits.maxSessionBytes = some plaintext ∧
      a.sealKeys.sealRecord b storeKey session.notAfter plaintext nonce = some session.contents := by
  obtain ⟨notAfter, hnotAfter, h⟩ := of_bind h
  obtain ⟨encoded, hencoded, h⟩ := of_bind h
  obtain ⟨contents, hcontents, h⟩ := of_bind h
  cases h
  exact ⟨rfl, hnotAfter, hencoded, hcontents⟩

lemma take_eq_some {encoded : Bytes} {stored : Option StoredSession} {state' : AuthorityState}
    (h : a.take b ticket stored now state = some (encoded, state')) :
    ∃ session plaintext context, stored = some session ∧ now < session.notAfter ∧
      a.sealKeys.openRecord b (a.key b ticket) session = some plaintext ∧
      SessionContext.decode b.validName plaintext a.limits = some (context, encoded) ∧
      context.restoreServer b state = some state' := by
  obtain ⟨session, hsession, h⟩ := of_bind h
  obtain ⟨_, hguard, h⟩ := of_bind h
  obtain ⟨plaintext, hplaintext, h⟩ := of_bind h
  obtain ⟨⟨context, encoded⟩, hdecode, h⟩ := of_bind h
  obtain ⟨restored, hrestored, h⟩ := of_bind h
  cases h
  exact ⟨session, plaintext, context, hsession, ((Option.guard_eq_some' _).mp hguard).1, hplaintext, hdecode, hrestored⟩

end ServerStoreAdapter

namespace StatelessTicketAdapter

/-- `encrypt`: the plaintext that is encrypted, and the ticket. -/
def encrypt (b : TlsBackend) (limits : TlsLimits) (plain : Bytes) (now : Nat) (entropy : Bytes) (state : AuthorityState) :
    Option (Bytes × Bytes) := do
  let context := SessionContext.capture state
  let notAfter ← context.notAfter b (min (now + b.ticketLifetime) (2 ^ 64 - 1))
  let encoded ← context.encode plain limits.maxSessionBytes
  let plaintext := toBE 8 notAfter ++ encoded
  let ticket ← b.encryptTicket entropy plaintext
  some (plaintext, ticket)

def decrypt (b : TlsBackend) (limits : TlsLimits) (cipher : Bytes) (now : Nat) (state : AuthorityState) :
    Option (Bytes × AuthorityState) := do
  let plaintext ← b.decryptTicket cipher
  let notAfter ← slice plaintext 0 8
  guard (now < ofBE notAfter)
  let (context, encoded) ← SessionContext.decode b.validName (plaintext.drop 8) limits
  let state ← context.restoreServer b state
  some (encoded, state)

end StatelessTicketAdapter

/-- Certificates name themselves and tickets are their plaintext. -/
def TlsBackend.transparent : TlsBackend where
  validName _ := true
  publicKey certificate := some certificate
  notAfter _ := some 100
  certificateName certificate := some certificate
  verifyClient _ _ _ := true
  digest bytes := bytes
  sealInPlace _ _ _ plaintext := some plaintext
  openInPlace _ _ _ ciphertext := some ciphertext
  ticketLifetime := 50
  encryptTicket _ plaintext := some plaintext
  decryptTicket cipher := some cipher

end Dquic
