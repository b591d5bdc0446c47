import Dquic.Lib.System
import Dquic.Tls.Resumption

/-!
# Identities across connections

Connections of one server, with the records they issued.
-/

namespace Dquic

open Lib

structure TlsServer where
  authority : LocalAuthority
  limits : TlsLimits
  namespaceName : Bytes
  version : QuicVersion
  sealKeys : SessionSealKeyRing

/-- As `configure_server_resumption` builds it. -/
def TlsServer.storeAdapter (server : TlsServer) : ServerStoreAdapter :=
  ⟨server.namespaceName, server.version, server.sealKeys, server.limits⟩

/-- How a handshake was decided. A resumed one knows the record of the accepted session. -/
inductive Outcome
  | resumed (record : Nat)
  | full
  deriving DecidableEq, Repr

def Outcome.isResumed : Outcome → Bool
  | .resumed _ => true
  | .full => false

/-- A connection: its peer, the state of its callbacks, the records of the sessions returned to the TLS library, the
authority whose certificate was verified on it, and what became of it. Those who share their secrets are one peer. -/
structure TlsConn where
  peer : Nat
  state : AuthorityState
  returned : List Nat
  verified : Option RemoteAuthority
  outcome : Option Outcome
  summary : Option HandshakeSummary
  deriving DecidableEq, Repr

inductive Protection
  | stored
  | ticket
  deriving DecidableEq, Repr

/-- The plaintext of a record, how it is protected, and the connection that issued it. -/
structure SessionRecord where
  protection : Protection
  plaintext : Bytes
  issuer : Nat
  deriving DecidableEq, Repr

namespace SessionRecord

def body (r : SessionRecord) : Bytes :=
  match r.protection with
  | .stored => r.plaintext
  | .ticket => r.plaintext.drop 8

def remote (b : TlsBackend) (limits : TlsLimits) (r : SessionRecord) : Option AuthorityProjection := do
  let (context, _) ← SessionContext.decode b.validName r.body limits
  context.remoteAuthority

end SessionRecord

structure TlsWorld where
  conns : List TlsConn
  records : List SessionRecord

inductive TlsOp
  | start (peer : Nat)
  | take (c : Nat) (ticket : Bytes) (stored : Option StoredSession) (now record : Nat)
  | decrypt (c : Nat) (cipher : Bytes) (now record : Nat)
  | accept (c record : Nat)
  | anonymous (c : Nat)
  | authenticate (c : Nat) (endEntity : Bytes) (intermediates : List Bytes) (ocsp : Bytes) (now : Nat)
  | complete (c : Nat) (alpn : Option Bytes)
  | put (c : Nat) (ticket value : Bytes) (now : Nat) (nonce : Bytes)
  | encrypt (c : Nat) (plain : Bytes) (now : Nat) (entropy : Bytes)

namespace TlsWorld

variable (b : TlsBackend) (server : TlsServer)

def Undecided (w : TlsWorld) (c : Nat) : Prop := ∃ conn, w.conns[c]? = some conn ∧ conn.outcome = none

def Decided (w : TlsWorld) (c : Nat) : Prop := ∃ conn, w.conns[c]? = some conn ∧ conn.outcome ≠ none

def Wrote (w : TlsWorld) (record : Nat) (protection : Protection) (plaintext : Bytes) : Prop :=
  ∃ r, w.records[record]? = some r ∧ r.protection = protection ∧ r.plaintext = plaintext

/-- The session was issued to this peer, which alone can prove its secret. -/
def Proves (w : TlsWorld) (peer record : Nat) : Prop :=
  ∀ r issuer, w.records[record]? = some r → w.conns[r.issuer]? = some issuer → issuer.peer = peer

/-- Any ticket may be presented, and the store may answer anything. What opens was written by this server, since nobody
else can seal or encrypt. A session is accepted only if it was returned on the connection and its secret is proved. -/
def Issued (w : TlsWorld) : TlsOp → Prop
  | .start _ => True
  | .take c ticket stored _ record => w.Undecided c ∧ ∀ session plaintext, stored = some session →
      server.sealKeys.openRecord b (server.storeAdapter.key b ticket) session = some plaintext →
      w.Wrote record .stored plaintext
  | .decrypt c cipher _ record => w.Undecided c ∧ ∀ plaintext, b.decryptTicket cipher = some plaintext →
      w.Wrote record .ticket plaintext
  | .accept c record => w.Undecided c ∧ ∀ conn, w.conns[c]? = some conn →
      record ∈ conn.returned ∧ w.Proves conn.peer record
  | .anonymous c => w.Undecided c
  | .authenticate c _ _ _ _ => w.Undecided c
  | .complete c _ => w.Decided c
  | .put c _ _ _ _ => w.Decided c
  | .encrypt c _ _ _ => w.Decided c

def setConn (w : TlsWorld) (c : Nat) (conn : TlsConn) : TlsWorld := { w with conns := w.conns.set c conn }

def addRecord (w : TlsWorld) (r : SessionRecord) : TlsWorld := { w with records := w.records ++ [r] }

def restored (w : TlsWorld) (c record : Nat) (conn : TlsConn) : Option (Bytes × AuthorityState) → TlsWorld
  | some (_, state) => w.setConn c { conn with state := state, returned := record :: conn.returned }
  | none => w

def exec (w : TlsWorld) : TlsOp → Option TlsWorld
  | .start peer => do
    let state ← FixedServerCert.resolve server.authority server.limits .default
    some { w with conns := w.conns ++ [⟨peer, state, [], none, none, none⟩] }
  | .take c ticket stored now record => do
    let conn ← w.conns[c]?
    some (w.restored c record conn (server.storeAdapter.take b ticket stored now conn.state))
  | .decrypt c cipher now record => do
    let conn ← w.conns[c]?
    some (w.restored c record conn (StatelessTicketAdapter.decrypt b server.limits cipher now conn.state))
  | .accept c record => do
    let conn ← w.conns[c]?
    some (w.setConn c { conn with outcome := some (.resumed record) })
  | .anonymous c => do
    let conn ← w.conns[c]?
    some (w.setConn c { conn with outcome := some .full })
  | .authenticate c endEntity intermediates ocsp now => do
    let conn ← w.conns[c]?
    let state ← ClientVerifier.verifyClientCertWithOcsp b server.limits endEntity intermediates ocsp now conn.state
    some (w.setConn c { conn with state := state, verified := state.remoteAuthority, outcome := some .full })
  | .complete c alpn => do
    let conn ← w.conns[c]?
    let outcome ← conn.outcome
    match emitCompletion .server alpn outcome.isResumed conn.state with
    | .ok summary => some (w.setConn c { conn with summary := some summary })
    | .error _ => some w
  | .put c ticket value now nonce => do
    let conn ← w.conns[c]?
    match server.storeAdapter.put b ticket value now nonce conn.state with
    | some (plaintext, _) => some (w.addRecord ⟨.stored, plaintext, c⟩)
    | none => some w
  | .encrypt c plain now entropy => do
    let conn ← w.conns[c]?
    match StatelessTicketAdapter.encrypt b server.limits plain now entropy conn.state with
    | some (plaintext, _) => some (w.addRecord ⟨.ticket, plaintext, c⟩)
    | none => some w

/-- A certificate of `A` was verified on the connection, or where its session comes from. -/
inductive Grounded (w : TlsWorld) : Nat → RemoteAuthority → Prop
  | verified {c : Nat} {conn : TlsConn} {A : RemoteAuthority} : w.conns[c]? = some conn → conn.verified = some A →
      Grounded w c A
  | resumed {c i : Nat} {conn : TlsConn} {r : SessionRecord} {A : RemoteAuthority} : w.conns[c]? = some conn →
      conn.outcome = some (.resumed i) → w.records[i]? = some r → Grounded w r.issuer A → Grounded w c A

/-- What the last returned session left on the connection is what the accepted session was written with, and nothing
if a client without a certificate makes a full handshake. -/
def Settled (w : TlsWorld) : TlsOp → Prop
  | .accept c record => ∀ conn r, w.conns[c]? = some conn → w.records[record]? = some r →
      conn.state.resumedRemote.map AuthorityProjection.ofRemote = r.remote b server.limits
  | .anonymous c => ∀ conn, w.conns[c]? = some conn → conn.state.resumedRemote = none
  | _ => True

end TlsWorld

def tlsSystem (b : TlsBackend) (server : TlsServer) : System TlsWorld TlsOp where
  init w := w = ⟨[], []⟩
  issued := TlsWorld.Issued b server
  exec := TlsWorld.exec b server

end Dquic
