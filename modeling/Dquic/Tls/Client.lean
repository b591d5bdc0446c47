import Dquic.Tls.Resumption

/-!
# Sessions of a client

The adapter through which a client writes its tickets to the session store and takes them back
(`qtls/src/resumption.rs`).
-/

namespace Dquic

open Lib

/-- A DNS name has letters, digits, hyphens, underscores and dots only. -/
structure DnsName where
  name : Bytes
  noNul : 0 ∉ name

inductive ServerName
  | dnsName (name : DnsName)
  | ipAddress (address : Bytes)

structure OptionalClientCert where
  authority : Option LocalAuthority
  limits : TlsLimits

/-- The authority of the client, if it is still the expected one. -/
def OptionalClientCert.rebind (cert : OptionalClientCert) (expected : AuthorityProjection) : Option LocalAuthority := do
  let authority ← cert.authority
  if authority.WithinLimits cert.limits ∧ expected.Matches authority then some authority else none

namespace SessionContext

def restoreLocal (context : SessionContext) (cert : OptionalClientCert) : Option (Option LocalAuthority) :=
  match context.localAuthority with
  | some expected => (cert.rebind expected).map some
  | none => some none

def restoreClient (b : TlsBackend) (context : SessionContext) (cert : OptionalClientCert) (state : AuthorityState) :
    Option AuthorityState := do
  let localAuthority ← context.restoreLocal cert
  let authority ← context.remoteAuthority
  let remote ← authority.intoRemote b
  some { state with resumedLocal := localAuthority, resumedRemote := some remote }

variable {cert : OptionalClientCert} {context : SessionContext}

lemma map_ofLocal_of_restoreLocal {localAuthority : Option LocalAuthority}
    (h : context.restoreLocal cert = some localAuthority) :
    localAuthority.map AuthorityProjection.ofLocal = context.localAuthority := by
  unfold restoreLocal at h
  cases hlocal : context.localAuthority with
  | none =>
    simp only [hlocal] at h
    cases h
    rfl
  | some expected =>
    simp only [hlocal] at h
    obtain ⟨authority, hauthority, rfl⟩ := Option.map_eq_some_iff.mp h
    obtain ⟨own, -, hown⟩ := of_bind hauthority
    split at hown
    · rename_i hmatches
      cases hown
      rw [Option.map_some, hmatches.2.ofLocal_eq]
    · cases hown

lemma restoreClient_eq_some {b : TlsBackend} {state state' : AuthorityState}
    (h : context.restoreClient b cert state = some state') :
    ∃ localAuthority remote, localAuthority.map AuthorityProjection.ofLocal = context.localAuthority ∧
      some (AuthorityProjection.ofRemote remote) = context.remoteAuthority ∧
      state' = { state with resumedLocal := localAuthority, resumedRemote := some remote } := by
  obtain ⟨localAuthority, hlocal, h⟩ := of_bind h
  obtain ⟨authority, hauthority, h⟩ := of_bind h
  obtain ⟨remote, hremote, h⟩ := of_bind h
  cases h
  exact ⟨localAuthority, remote, map_ofLocal_of_restoreLocal hlocal, by
    rw [hauthority, AuthorityProjection.ofRemote_of_intoRemote hremote], rfl⟩

end SessionContext

/-- `decodesState` stands for the TLS library, which may refuse a TLS state. -/
structure ClientStoreAdapter where
  namespaceName : Bytes
  version : QuicVersion
  sealKeys : SessionSealKeyRing
  clientCert : OptionalClientCert
  limits : TlsLimits
  decodesState : Bytes → Bool

namespace ClientStoreAdapter

def key (b : TlsBackend) (a : ClientStoreAdapter) : ServerName → Option Bytes
  | .dnsName serverName =>
    some (deriveStoreKey b [99, 108, 105, 101, 110, 116] a.namespaceName a.version serverName.name)
  | .ipAddress _ => none

/-- `insert_tls13_ticket` of a TLS state with its expiry: the plaintext of the record, and the session handed to the
store with its key. -/
def insertTls13Ticket (b : TlsBackend) (a : ClientStoreAdapter) (serverName : ServerName) (value : Bytes)
    (resumptionExpiry : Nat) (nonce : Bytes) (state : AuthorityState) : Option (Bytes × Bytes × StoredSession) := do
  let key ← a.key b serverName
  let context := SessionContext.capture state
  let notAfter ← context.notAfter b resumptionExpiry
  let plaintext ← context.encode value a.limits.maxSessionBytes
  let contents ← a.sealKeys.sealRecord b key notAfter plaintext nonce
  some (plaintext, key, ⟨notAfter, contents⟩)

/-- The TLS state that the store has for the server, after its authorities were restored. -/
def restore (b : TlsBackend) (a : ClientStoreAdapter) (serverName : ServerName) (stored : Option StoredSession) (now : Nat)
    (state : AuthorityState) : Option (Bytes × AuthorityState) := do
  let key ← a.key b serverName
  let session ← stored
  guard (now < session.notAfter ∧ session.contents.length ≤ a.limits.maxSessionBytes + recordOverhead)
  let plaintext ← a.sealKeys.openRecord b key session
  let (context, encoded) ← SessionContext.decode b.validName plaintext a.limits
  let state ← context.restoreClient b a.clientCert state
  some (encoded, state)

/-- `take_tls13_ticket`. The restored authorities stay also when the TLS state is refused. -/
def takeTls13Ticket (b : TlsBackend) (a : ClientStoreAdapter) (serverName : ServerName) (stored : Option StoredSession)
    (now : Nat) (state : AuthorityState) : Option Bytes × AuthorityState :=
  match a.restore b serverName stored now state with
  | some (encoded, state) => (if a.decodesState encoded then some encoded else none, state)
  | none => (none, state)

variable {a : ClientStoreAdapter} {b : TlsBackend} {serverName : ServerName} {state : AuthorityState}

lemma insertTls13Ticket_eq_some {value nonce plaintext storeKey : Bytes} {resumptionExpiry : Nat}
    {session : StoredSession}
    (h : a.insertTls13Ticket b serverName value resumptionExpiry nonce state = some (plaintext, storeKey, session)) :
    a.key b serverName = some storeKey ∧
      (SessionContext.capture state).notAfter b resumptionExpiry = some session.notAfter ∧
      (SessionContext.capture state).encode value a.limits.maxSessionBytes = some plaintext ∧
      a.sealKeys.sealRecord b storeKey session.notAfter plaintext nonce = some session.contents := by
  obtain ⟨key, hkey, h⟩ := of_bind h
  obtain ⟨notAfter, hnotAfter, h⟩ := of_bind h
  obtain ⟨encoded, hencoded, h⟩ := of_bind h
  obtain ⟨contents, hcontents, h⟩ := of_bind h
  cases h
  exact ⟨hkey, hnotAfter, hencoded, hcontents⟩

lemma takeTls13Ticket_eq_some {encoded : Bytes} {stored : Option StoredSession} {now : Nat} {state' : AuthorityState}
    (h : a.takeTls13Ticket b serverName stored now state = (some encoded, state')) :
    ∃ key session plaintext context, a.key b serverName = some key ∧ stored = some session ∧ now < session.notAfter ∧
      a.sealKeys.openRecord b key session = some plaintext ∧
      SessionContext.decode b.validName plaintext a.limits = some (context, encoded) ∧
      context.restoreClient b a.clientCert state = some state' := by
  unfold takeTls13Ticket at h
  split at h
  case h_1 s restored hrestore =>
    obtain ⟨hs, rfl⟩ := Prod.mk.inj h
    split at hs
    · cases hs
      obtain ⟨key, hkey, hrestore⟩ := of_bind hrestore
      obtain ⟨session, hsession, hrestore⟩ := of_bind hrestore
      obtain ⟨_, hguard, hrestore⟩ := of_bind hrestore
      obtain ⟨plaintext, hplaintext, hrestore⟩ := of_bind hrestore
      obtain ⟨⟨context, encoded⟩, hdecode, hrestore⟩ := of_bind hrestore
      obtain ⟨restored, hrestored, hrestore⟩ := of_bind hrestore
      cases hrestore
      exact ⟨key, session, plaintext, context, hkey, hsession, ((Option.guard_eq_some' _).mp hguard).1, hplaintext,
        hdecode, hrestored⟩
    · cases hs
  case h_2 => cases h

end ClientStoreAdapter

end Dquic
