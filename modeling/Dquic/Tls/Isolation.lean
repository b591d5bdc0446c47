import Dquic.Lib.System
import Dquic.Tls.Client

/-!
# Sessions stay where they were stored

Clients and servers of any namespaces and versions share one key ring and one store, which may
answer anything. Nobody else can seal, and the digest has no collisions.
-/

namespace Dquic

open Lib

/-! ### Keys of the store -/

def Role.label : Role → Bytes
  | .client => [99, 108, 105, 101, 110, 116]
  | .server => [115, 101, 114, 118, 101, 114]

def QuicVersion.byte : QuicVersion → UInt8
  | .v1 => 1
  | .v2 => 2

lemma QuicVersion.byte_ne_zero (version : QuicVersion) : version.byte ≠ 0 := by
  cases version <;> decide

lemma QuicVersion.eq_of_byte_eq {version version' : QuicVersion} (h : version.byte = version'.byte) :
    version = version' := by
  cases version <;> cases version' <;> first | rfl | exact absurd h (by decide)

/-- The second namespace goes on where the version of the first is expected. -/
def Continues (namespaceName : Bytes) (version : QuicVersion) (other : Bytes) : Prop :=
  namespaceName ++ [0, version.byte] <+: other

instance (namespaceName : Bytes) (version : QuicVersion) (other : Bytes) :
    Decidable (Continues namespaceName version other) :=
  inferInstanceAs (Decidable (_ <+: _))

def Separate (namespaceName : Bytes) (version : QuicVersion) (namespaceName' : Bytes) (version' : QuicVersion) : Prop :=
  ¬ Continues namespaceName version namespaceName' ∧ ¬ Continues namespaceName' version' namespaceName

instance (namespaceName namespaceName' : Bytes) (version version' : QuicVersion) :
    Decidable (Separate namespaceName version namespaceName' version') :=
  inferInstanceAs (Decidable (_ ∧ _))

section Keys

variable {b : TlsBackend} {role role' : Role} {namespaceName namespaceName' : Bytes} {version version' : QuicVersion}
  {context context' : Bytes}

def keySuffix (namespaceName : Bytes) (version : QuicVersion) (context : Bytes) : Bytes :=
  namespaceName ++ 0 :: version.byte :: context

lemma deriveStoreKey_eq (b : TlsBackend) (role : Role) (namespaceName : Bytes) (version : QuicVersion) (context : Bytes) :
    deriveStoreKey b role.label namespaceName version context =
      b.digest ([113, 116, 108, 115, 45, 114, 101, 115, 117, 109, 112, 116, 105, 111, 110, 45, 118, 49, 0] ++
        (role.label ++ 0 :: keySuffix namespaceName version context)) := by
  cases version <;>
    simp only [deriveStoreKey, keySuffix, QuicVersion.byte, List.append_assoc, List.cons_append, List.nil_append]

lemma deriveStoreKey_inj (hdigest : Function.Injective b.digest)
    (h : deriveStoreKey b role.label namespaceName version context =
      deriveStoreKey b role'.label namespaceName' version' context') :
    role = role' ∧ keySuffix namespaceName version context = keySuffix namespaceName' version' context' := by
  rw [deriveStoreKey_eq, deriveStoreKey_eq] at h
  have hrest := List.append_cancel_left (hdigest h)
  have hlen : role.label.length = role'.label.length := by cases role <;> cases role' <;> rfl
  obtain ⟨hlabel, hsuffix⟩ := List.append_inj hrest hlen
  refine ⟨?_, (List.cons.inj hsuffix).2⟩
  cases role <;> cases role' <;> first | rfl | exact absurd hlabel (by decide)

lemma continues_of_append {mid : Bytes} (namespaceName : Bytes)
    (h : 0 :: version.byte :: context = mid ++ 0 :: version'.byte :: context') :
    (mid = [] ∧ version = version' ∧ context = context') ∨
      (Continues namespaceName version (namespaceName ++ mid) ∧ 0 ∈ context) := by
  rcases mid with _ | ⟨first, _ | ⟨second, mid⟩⟩
  · obtain ⟨hversion, hcontext⟩ := List.cons.inj (List.cons.inj h).2
    exact .inl ⟨rfl, QuicVersion.eq_of_byte_eq hversion, hcontext⟩
  · exact absurd (List.cons.inj (List.cons.inj h).2).1 version.byte_ne_zero
  · obtain ⟨hfirst, htail⟩ := List.cons.inj h
    obtain ⟨hsecond, hcontext⟩ := List.cons.inj htail
    subst hfirst hsecond
    refine .inr ⟨⟨mid, List.append_assoc ..⟩, ?_⟩
    rw [hcontext]
    exact List.mem_append_right mid (List.mem_cons_self ..)

/-- Two equal keys have the same parts, or one namespace continues the other and its context holds the rest. -/
lemma keySuffix_cases (h : keySuffix namespaceName version context = keySuffix namespaceName' version' context') :
    (namespaceName = namespaceName' ∧ version = version' ∧ context = context') ∨
      (Continues namespaceName version namespaceName' ∧ 0 ∈ context) ∨
      (Continues namespaceName' version' namespaceName ∧ 0 ∈ context') := by
  rcases List.append_eq_append_iff.mp h with ⟨mid, rfl, hmid⟩ | ⟨mid, rfl, hmid⟩
  · rcases continues_of_append namespaceName hmid with ⟨rfl, hsame⟩ | hcontinues
    · exact .inl ⟨(List.append_nil _).symm, hsame⟩
    · exact .inr (.inl hcontinues)
  · rcases continues_of_append namespaceName' hmid with ⟨rfl, hversion, hcontext⟩ | hcontinues
    · exact .inl ⟨List.append_nil _, hversion.symm, hcontext.symm⟩
    · exact .inr (.inr hcontinues)

lemma Continues.ne (h : Continues namespaceName version namespaceName') : namespaceName ≠ namespaceName' := by
  rintro rfl
  have hle := h.length_le
  rw [List.length_append] at hle
  exact absurd hle (Nat.not_le.mpr (Nat.lt_add_of_pos_right (Nat.zero_lt_two)))

lemma exists_deriveStoreKey_eq (b : TlsBackend) (role : Role) (h : Continues namespaceName version namespaceName')
    (version' : QuicVersion) (context' : Bytes) :
    ∃ context, deriveStoreKey b role.label namespaceName version context =
      deriveStoreKey b role.label namespaceName' version' context' := by
  obtain ⟨tail, rfl⟩ := h
  refine ⟨keySuffix tail version' context', ?_⟩
  rw [deriveStoreKey_eq, deriveStoreKey_eq]
  simp only [keySuffix, List.append_assoc, List.cons_append, List.nil_append]

end Keys

/-- Two servers share a key across their namespaces or versions exactly if their namespaces are not separate. -/
lemma ServerStoreAdapter.exists_key_eq_iff {b : TlsBackend} (hdigest : Function.Injective b.digest)
    (a a' : ServerStoreAdapter) :
    (∃ ticket ticket', a.key b ticket = a'.key b ticket' ∧
        ¬ (a.namespaceName = a'.namespaceName ∧ a.version = a'.version ∧ ticket = ticket')) ↔
      ¬ Separate a.namespaceName a.version a'.namespaceName a'.version := by
  constructor
  · rintro ⟨ticket, ticket', hkey, hdiffer⟩ ⟨hforth, hback⟩
    have hkey' : deriveStoreKey b Role.server.label a.namespaceName a.version ticket =
      deriveStoreKey b Role.server.label a'.namespaceName a'.version ticket' := hkey
    rcases keySuffix_cases (deriveStoreKey_inj hdigest hkey').2 with hsame | ⟨h, -⟩ | ⟨h, -⟩
    · exact hdiffer hsame
    · exact hforth h
    · exact hback h
  · intro hnot
    rcases Classical.not_and_iff_not_or_not.mp hnot with h | h
    · have hcontinues := not_not.mp h
      obtain ⟨ticket, hkey⟩ := exists_deriveStoreKey_eq b .server hcontinues a'.version []
      exact ⟨ticket, [], hkey, fun hsame => hcontinues.ne hsame.1⟩
    · have hcontinues := not_not.mp h
      obtain ⟨ticket, hkey⟩ := exists_deriveStoreKey_eq b .server hcontinues a.version []
      exact ⟨[], ticket, hkey.symm, fun hsame => hcontinues.ne hsame.1.symm⟩

/-! ### Histories of adapters -/

/-- A session that an adapter handed to the store, with what it was made from. Its name is the name of a server or a
ticket. -/
structure StoredEntry where
  role : Role
  namespaceName : Bytes
  version : QuicVersion
  name : Bytes
  state : AuthorityState
  tlsState : Bytes
  notAfter : Nat

/-- A TLS state that an adapter returned, and the authorities of the connection before and after. -/
structure TakenSession where
  role : Role
  namespaceName : Bytes
  version : QuicVersion
  name : Bytes
  tlsState : Bytes
  now : Nat
  before : AuthorityState
  after : AuthorityState

structure SealCall where
  key : Bytes
  nonce : Bytes
  aad : Bytes
  plaintext : Bytes
  ciphertext : Bytes

structure StoreWorld where
  entries : List StoredEntry
  calls : List SealCall
  taken : List TakenSession

inductive StoreOp
  | insertTls13Ticket (a : ClientStoreAdapter) (state : AuthorityState) (serverName : ServerName) (value : Bytes)
    (resumptionExpiry : Nat) (nonce : Bytes)
  | takeTls13Ticket (a : ClientStoreAdapter) (state : AuthorityState) (serverName : ServerName)
    (stored : Option StoredSession) (now : Nat)
  | put (a : ServerStoreAdapter) (state : AuthorityState) (ticket value : Bytes) (now : Nat) (nonce : Bytes)
  | take (a : ServerStoreAdapter) (state : AuthorityState) (ticket : Bytes) (stored : Option StoredSession) (now : Nat)

def ServerName.bytes : ServerName → Bytes
  | .dnsName name => name.name
  | .ipAddress address => address

def StoredEntry.storeKey (b : TlsBackend) (e : StoredEntry) : Bytes :=
  deriveStoreKey b e.role.label e.namespaceName e.version e.name

/-- No leaf certificate of the captured authorities expires before the session. -/
def StoredEntry.Covered (b : TlsBackend) (e : StoredEntry) : Prop :=
  let context := SessionContext.capture e.state
  ∀ authority ∈ context.localAuthority.toList ++ context.remoteAuthority.toList, ∃ certificate timestamp,
    authority.certificates.head? = some certificate ∧ b.notAfter certificate = some timestamp ∧ e.notAfter ≤ timestamp

/-- The authorities that came back are those of a context, and nothing else changed. -/
def TakenSession.Restores (t : TakenSession) (context : SessionContext) : Prop :=
  t.after.resumedRemote.map AuthorityProjection.ofRemote = context.remoteAuthority ∧
  match t.role with
  | .client => t.after.resumedLocal.map AuthorityProjection.ofLocal = context.localAuthority ∧
      t.after = { t.before with resumedLocal := t.after.resumedLocal, resumedRemote := t.after.resumedRemote }
  | .server => t.after.localAuthority.map AuthorityProjection.ofLocal = context.localAuthority ∧
      t.after = { t.before with resumedRemote := t.after.resumedRemote }

namespace StoreWorld

variable (b : TlsBackend) (ring : SessionSealKeyRing)

/-- What the record cipher opens under a key of the ring was sealed before. -/
def Unforged (w : StoreWorld) (storeKey : Bytes) (session : StoredSession) : Prop :=
  let nonce := (session.contents.take 21).drop 9
  let aad := recordAad (session.contents.take 21) storeKey session.notAfter
  let ciphertext := session.contents.drop 21
  ∀ recordKey ∈ ring.current :: ring.previous, ∀ plaintext,
    b.openInPlace recordKey.key nonce aad ciphertext = some plaintext →
      ⟨recordKey.key, nonce, aad, plaintext, ciphertext⟩ ∈ w.calls

/-- The store may answer anything, with any time that fits in 64 bits. -/
def Issued (w : StoreWorld) : StoreOp → Prop
  | .insertTls13Ticket a _ _ _ resumptionExpiry nonce =>
    a.sealKeys = ring ∧ resumptionExpiry < 2 ^ 64 ∧ nonce.length = 12
  | .takeTls13Ticket a _ serverName stored _ => a.sealKeys = ring ∧ ∀ session key, stored = some session →
      a.key b serverName = some key → session.notAfter < 2 ^ 64 ∧ w.Unforged b ring key session
  | .put a _ _ _ _ nonce => a.sealKeys = ring ∧ nonce.length = 12
  | .take a _ ticket stored _ => a.sealKeys = ring ∧ ∀ session, stored = some session →
      session.notAfter < 2 ^ 64 ∧ w.Unforged b ring (a.key b ticket) session

/-- A record was sealed with the current key and handed to the store. -/
def store (w : StoreWorld) (e : StoredEntry) (nonce plaintext storeKey contents : Bytes) : StoreWorld where
  entries := e :: w.entries
  calls := ⟨ring.current.key, nonce, recordAad (contents.take 21) storeKey e.notAfter, plaintext, contents.drop 21⟩ ::
    w.calls
  taken := w.taken

def exec (w : StoreWorld) : StoreOp → Option StoreWorld
  | .insertTls13Ticket a state serverName value resumptionExpiry nonce =>
    match a.insertTls13Ticket b serverName value resumptionExpiry nonce state with
    | some (plaintext, key, session) => some (w.store ring
        ⟨.client, a.namespaceName, a.version, serverName.bytes, state, value, session.notAfter⟩ nonce plaintext key
        session.contents)
    | none => some w
  | .takeTls13Ticket a state serverName stored now =>
    match a.takeTls13Ticket b serverName stored now state with
    | (some encoded, state') => some { w with taken :=
        ⟨.client, a.namespaceName, a.version, serverName.bytes, encoded, now, state, state'⟩ :: w.taken }
    | (none, _) => some w
  | .put a state ticket value now nonce =>
    match a.put b ticket value now nonce state with
    | some (plaintext, key, session) => some (w.store ring
        ⟨.server, a.namespaceName, a.version, ticket, state, value, session.notAfter⟩ nonce plaintext key session.contents)
    | none => some w
  | .take a state ticket stored now =>
    match a.take b ticket stored now state with
    | some (encoded, state') => some { w with taken :=
        ⟨.server, a.namespaceName, a.version, ticket, encoded, now, state, state'⟩ :: w.taken }
    | none => some w

/-- The session was stored for the same use, is still valid, and brought its own authorities back. -/
def Vouches (w : StoreWorld) (t : TakenSession) : Prop :=
  ∃ e ∈ w.entries, (e.role = t.role ∧ e.namespaceName = t.namespaceName ∧ e.version = t.version ∧ e.name = t.name) ∧
    e.tlsState = t.tlsState ∧ t.now < e.notAfter ∧ e.Covered b ∧ t.Restores (SessionContext.capture e.state)

/-- A server asks for a session only if its namespace is separate from those of the servers before. -/
def Apart (w : StoreWorld) : StoreOp → Prop
  | .take a _ _ _ _ => ∀ e ∈ w.entries, e.role = .server →
      Separate a.namespaceName a.version e.namespaceName e.version
  | _ => True

end StoreWorld

def storeSystem (b : TlsBackend) (ring : SessionSealKeyRing) : System StoreWorld StoreOp where
  init w := w = ⟨[], [], []⟩
  issued := StoreWorld.Issued b ring
  exec := StoreWorld.exec b ring

/-! ### The record that opens -/

lemma recordAad_inj {header header' storeKey storeKey' : Bytes} {notAfter notAfter' : Nat}
    (hheader : header.length = header'.length) (hnotAfter : notAfter < 2 ^ 64) (hnotAfter' : notAfter' < 2 ^ 64)
    (h : recordAad header storeKey notAfter = recordAad header' storeKey' notAfter') :
    storeKey = storeKey' ∧ notAfter = notAfter' := by
  unfold recordAad at h
  have hwidth : (toBE 8 notAfter).length = (toBE 8 notAfter').length := by rw [length_toBE, length_toBE]
  obtain ⟨hfront, hback⟩ := List.append_inj' h hwidth
  refine ⟨(List.append_inj hfront hheader).2, ?_⟩
  calc notAfter = ofBE (toBE 8 notAfter) := (ofBE_toBE hnotAfter).symm
    _ = ofBE (toBE 8 notAfter') := by rw [hback]
    _ = notAfter' := ofBE_toBE hnotAfter'

namespace StoreWorld

variable {b : TlsBackend} {ring : SessionSealKeyRing} {w w' : StoreWorld}

def Belongs (b : TlsBackend) (e : StoredEntry) (c : SealCall) : Prop :=
  (∃ header, header.length = 21 ∧ c.aad = recordAad header (e.storeKey b) e.notAfter) ∧
    ∃ limit, (SessionContext.capture e.state).encode e.tlsState limit = some c.plaintext

structure Sound (b : TlsBackend) (w : StoreWorld) : Prop where
  calls : ∀ c ∈ w.calls, ∃ e ∈ w.entries, Belongs b e c
  lt : ∀ e ∈ w.entries, e.notAfter < 2 ^ 64
  covered : ∀ e ∈ w.entries, e.Covered b
  named : ∀ e ∈ w.entries, e.role = .client → 0 ∉ e.name
  taken : ∀ t ∈ w.taken, w.Vouches b t

variable {t : TakenSession} {e : StoredEntry} {plaintext storeKey : Bytes} {session : StoredSession}

lemma Vouches.store (h : w.Vouches b t) (e : StoredEntry) (nonce plaintext storeKey contents : Bytes) :
    (w.store ring e nonce plaintext storeKey contents).Vouches b t := by
  obtain ⟨e', he', h⟩ := h
  exact ⟨e', .tail _ he', h⟩

lemma Sound.store (h : Sound b w) {nonce contents : Bytes} {ticketNotAfter limit : Nat} (hkey : storeKey = e.storeKey b)
    (hnonce : nonce.length = 12) (hname : e.role = .client → 0 ∉ e.name) (hlt : ticketNotAfter < 2 ^ 64)
    (hnotAfter : (SessionContext.capture e.state).notAfter b ticketNotAfter = some e.notAfter)
    (hencode : (SessionContext.capture e.state).encode e.tlsState limit = some plaintext)
    (hseal : ring.sealRecord b storeKey e.notAfter plaintext nonce = some contents) :
    Sound b (w.store ring e nonce plaintext storeKey contents) := by
  obtain ⟨hle, hcovered⟩ := SessionContext.le_of_notAfter hnotAfter
  obtain ⟨header, ciphertext, hheader, rfl, -⟩ := SessionSealKeyRing.sealRecord_eq_some hseal
  rw [hnonce] at hheader
  constructor
  · rintro c (_ | ⟨_, hc⟩)
    · refine ⟨e, .head _, ⟨header, hheader, ?_⟩, limit, hencode⟩
      rw [List.take_left' hheader, hkey]
    · obtain ⟨e', he', hbelongs⟩ := h.calls c hc
      exact ⟨e', .tail _ he', hbelongs⟩
  · rintro e' (_ | ⟨_, he'⟩)
    · exact hle.trans_lt hlt
    · exact h.lt e' he'
  · rintro e' (_ | ⟨_, he'⟩)
    · exact hcovered
    · exact h.covered e' he'
  · rintro e' (_ | ⟨_, he'⟩)
    · exact hname
    · exact h.named e' he'
  · intro t ht
    exact (h.taken t ht).store e nonce plaintext storeKey _

lemma Sound.entry_of_openRecord (h : Sound b w) (hunforged : w.Unforged b ring storeKey session)
    (hlt : session.notAfter < 2 ^ 64) (hopen : ring.openRecord b storeKey session = some plaintext) :
    ∃ e ∈ w.entries, e.storeKey b = storeKey ∧ e.notAfter = session.notAfter ∧
      ∃ limit, (SessionContext.capture e.state).encode e.tlsState limit = some plaintext := by
  obtain ⟨hlen, recordKey, hmem, hopen⟩ := SessionSealKeyRing.openRecord_eq_some hopen
  obtain ⟨e, he, ⟨header, hheader, haad⟩, hencode⟩ := h.calls _ (hunforged recordKey hmem plaintext hopen)
  have hwidth : (session.contents.take 21).length = header.length := by
    rw [List.length_take_of_le hlen, hheader]
  obtain ⟨hkey, hnotAfter⟩ := recordAad_inj hwidth hlt (h.lt e he) haad
  exact ⟨e, he, hkey.symm, hnotAfter.symm, hencode⟩

lemma Sound.same_use (h : Sound b w) (hdigest : Function.Injective b.digest) (he : e ∈ w.entries) {role : Role}
    {namespaceName name : Bytes} {version : QuicVersion}
    (hkey : e.storeKey b = deriveStoreKey b role.label namespaceName version name) (hname : role = .client → 0 ∉ name)
    (hseparate : role = .server → e.role = .server → Separate namespaceName version e.namespaceName e.version) :
    e.role = role ∧ e.namespaceName = namespaceName ∧ e.version = version ∧ e.name = name := by
  obtain ⟨rfl, hsuffix⟩ := deriveStoreKey_inj hdigest hkey
  rcases keySuffix_cases hsuffix with hsame | ⟨hcontinues, hmem⟩ | ⟨hcontinues, hmem⟩
  · exact ⟨rfl, hsame⟩
  · cases hrole : e.role with
    | client => exact absurd hmem (h.named e he hrole)
    | server => exact absurd hcontinues (hseparate hrole hrole).2
  · cases hrole : e.role with
    | client => exact absurd hmem (hname hrole)
    | server => exact absurd hcontinues (hseparate hrole hrole).1

lemma Sound.take (h : Sound b w) (ht : w.Vouches b t) : Sound b { w with taken := t :: w.taken } := by
  refine ⟨h.calls, h.lt, h.covered, h.named, ?_⟩
  rintro t' (_ | ⟨_, ht'⟩)
  · exact ht
  · exact h.taken t' ht'

lemma Sound.vouches (h : Sound b w) (hdigest : Function.Injective b.digest) {limits : TlsLimits}
    {context : SessionContext} (hkey : storeKey = deriveStoreKey b t.role.label t.namespaceName t.version t.name)
    (hname : t.role = .client → 0 ∉ t.name)
    (hseparate : t.role = .server → ∀ e ∈ w.entries, e.role = .server →
      Separate t.namespaceName t.version e.namespaceName e.version)
    (hlt : session.notAfter < 2 ^ 64) (hunforged : w.Unforged b ring storeKey session) (hnow : t.now < session.notAfter)
    (hopen : ring.openRecord b storeKey session = some plaintext)
    (hdecode : SessionContext.decode b.validName plaintext limits = some (context, t.tlsState))
    (hrestores : t.Restores context) : w.Vouches b t := by
  obtain ⟨e, he, hsame, hnotAfter, limit, hencode⟩ := h.entry_of_openRecord hunforged hlt hopen
  obtain ⟨rfl, htlsState⟩ := SessionContext.decode_encode hencode hdecode
  refine ⟨e, he, h.same_use hdigest he (hsame.trans hkey) hname fun hrole => hseparate hrole e he, htlsState.symm, ?_,
    h.covered e he, hrestores⟩
  rwa [hnotAfter]

lemma Sound.exec (h : Sound b w) (hdigest : Function.Injective b.digest) {op : StoreOp} (hop : w.Issued b ring op)
    (hapart : w.Apart op) (he : w.exec b ring op = some w') : Sound b w' := by
  cases op with
  | insertTls13Ticket a state serverName value resumptionExpiry nonce =>
    obtain ⟨rfl, hexpiry, hnonce⟩ := hop
    simp only [StoreWorld.exec] at he
    split at he
    case h_1 plaintext key session hinsert =>
      cases he
      obtain ⟨hkey, hnotAfter, hencode, hseal⟩ := ClientStoreAdapter.insertTls13Ticket_eq_some hinsert
      cases serverName with
      | dnsName name =>
        exact h.store (Option.some.inj hkey).symm hnonce (fun _ => name.noNul) hexpiry hnotAfter hencode hseal
      | ipAddress address => cases hkey
    case h_2 =>
      cases he
      exact h
  | takeTls13Ticket a state serverName stored now =>
    obtain ⟨rfl, hstore⟩ := hop
    simp only [StoreWorld.exec] at he
    split at he
    case h_1 encoded state' htake =>
      cases he
      obtain ⟨key, session, plaintext, context, hkey, hstored, hnow, hopen, hdecode, hrestored⟩ :=
        ClientStoreAdapter.takeTls13Ticket_eq_some htake
      obtain ⟨hlt, hunforged⟩ := hstore session key hstored hkey
      obtain ⟨localAuthority, remote, hlocal, hremote, rfl⟩ := SessionContext.restoreClient_eq_some hrestored
      cases serverName with
      | dnsName name =>
        exact h.take (h.vouches hdigest (Option.some.inj hkey).symm (fun _ => name.noNul) nofun hlt hunforged hnow hopen
          hdecode ⟨hremote, hlocal, rfl⟩)
      | ipAddress address => cases hkey
    case h_2 =>
      cases he
      exact h
  | put a state ticket value now nonce =>
    obtain ⟨rfl, hnonce⟩ := hop
    simp only [StoreWorld.exec] at he
    split at he
    case h_1 plaintext key session hput =>
      cases he
      obtain ⟨hkey, hnotAfter, hencode, hseal⟩ := ServerStoreAdapter.put_eq_some hput
      have hlt : min (now + statefulTicketLifetimeSecs) (2 ^ 64 - 1) < 2 ^ 64 :=
        (min_le_right _ _).trans_lt (Nat.sub_lt (by positivity) Nat.one_pos)
      exact h.store hkey hnonce nofun hlt hnotAfter hencode hseal
    case h_2 =>
      cases he
      exact h
  | take a state ticket stored now =>
    obtain ⟨rfl, hstore⟩ := hop
    simp only [StoreWorld.exec] at he
    split at he
    case h_1 encoded state' htake =>
      cases he
      obtain ⟨session, plaintext, context, hstored, hnow, hopen, hdecode, hrestored⟩ :=
        ServerStoreAdapter.take_eq_some htake
      obtain ⟨hlt, hunforged⟩ := hstore session hstored
      obtain ⟨hlocal, remote, hremote, rfl⟩ := SessionContext.restoreServer_eq_some hrestored
      exact h.take (h.vouches hdigest rfl nofun (fun _ => hapart) hlt hunforged hnow hopen hdecode ⟨hremote, hlocal, rfl⟩)
    case h_2 =>
      cases he
      exact h

end StoreWorld

/-- A session comes back only where it was stored, in every history in which the namespaces of servers are separate.
Servers share a key exactly if they are not. What decodes is what was encoded within the limits. -/
theorem storeSystem_isolated (b : TlsBackend) (ring : SessionSealKeyRing) (hdigest : Function.Injective b.digest) :
    (∀ w, ((storeSystem b ring).restrict StoreWorld.Apart).Reach w → ∀ t ∈ w.taken, w.Vouches b t) ∧
      (∀ a a' : ServerStoreAdapter, (∃ ticket ticket', a.key b ticket = a'.key b ticket' ∧
          ¬ (a.namespaceName = a'.namespaceName ∧ a.version = a'.version ∧ ticket = ticket')) ↔
        ¬ Separate a.namespaceName a.version a'.namespaceName a'.version) ∧
      ∀ (limits : TlsLimits) (encoded tlsState : Bytes) (context : SessionContext),
        SessionContext.decode b.validName encoded limits = some (context, tlsState) ↔
          context.Within b.validName limits ∧ context.encode tlsState limits.maxSessionBytes = some encoded := by
  refine ⟨?_, ServerStoreAdapter.exists_key_eq_iff hdigest, fun _ _ _ _ => SessionContext.decode_eq_some⟩
  intro w hw
  have hsound : StoreWorld.Sound b w := by
    apply hw.invariant
    · rintro _ rfl
      exact ⟨List.forall_mem_nil _, List.forall_mem_nil _, List.forall_mem_nil _, List.forall_mem_nil _,
        List.forall_mem_nil _⟩
    · rintro w op w' hsound ⟨hop, hapart⟩ he
      exact hsound.exec hdigest hop hapart he
  exact hsound.taken

/-! ### A namespace that goes on -/

def SessionSealKeyRing.plain : SessionSealKeyRing := ⟨⟨0, []⟩, []⟩

def ServerStoreAdapter.plain (namespaceName : Bytes) : ServerStoreAdapter := ⟨namespaceName, .v1, .plain, ⟨8, 2, 8, 64⟩⟩

def AuthorityState.chosen : AuthorityState := ⟨some ⟨[1], [[2]], []⟩, none, none, none⟩

/-- The session with the TLS state `[5]` that a plain server stores. -/
def StoredSession.plain : StoredSession where
  notAfter := 100
  contents := recordMagic ++ [recordSchema] ++ toBE 4 0 ++ List.replicate 12 0 ++
    [1, 0, 0, 0, 1, 1, 0, 1, 0, 0, 0, 1, 2, 0, 0, 0, 0, 1, 5]

/-- The world after a plain server stored it, with what was taken since. -/
def StoreWorld.plain (namespaceName ticket : Bytes) (taken : List TakenSession) : StoreWorld where
  entries := [⟨.server, namespaceName, .v1, ticket, .chosen, [5], 100⟩]
  calls := [⟨[], List.replicate 12 0,
    recordAad (StoredSession.plain.contents.take 21) ((ServerStoreAdapter.plain namespaceName).key .transparent ticket) 100,
    [1, 0, 0, 0, 1, 1, 0, 1, 0, 0, 0, 1, 2, 0, 0, 0, 0, 1, 5], [1, 0, 0, 0, 1, 1, 0, 1, 0, 0, 0, 1, 2, 0, 0, 0, 0, 1, 5]⟩]
  taken := taken

lemma StoreWorld.issued_plain_take {namespaceName ticket namespaceName' ticket' : Bytes}
    (hkey : (ServerStoreAdapter.plain namespaceName').key .transparent ticket' =
      (ServerStoreAdapter.plain namespaceName).key .transparent ticket) :
    (StoreWorld.plain namespaceName ticket []).Issued .transparent .plain
      (.take (.plain namespaceName') .chosen ticket' (some .plain) 0) := by
  refine ⟨rfl, ?_⟩
  rintro session ⟨⟩
  refine ⟨by decide, ?_⟩
  rintro recordKey (_ | ⟨_, ⟨⟩⟩) plaintext ⟨⟩
  rw [hkey]
  exact .head _

/-- The server stores a session and takes it back. -/
theorem storeSystem_isolated_plain :
    ∃ w, ((storeSystem .transparent .plain).restrict StoreWorld.Apart).Reach w ∧ w.taken ≠ [] ∧
      ∀ t ∈ w.taken, w.Vouches .transparent t := by
  let S := (storeSystem .transparent .plain).restrict StoreWorld.Apart
  have h₀ : S.Reach _ := .start rfl
  have h₁ : S.Reach (.plain [97] [116] []) := h₀.step
    (e := StoreOp.put (.plain [97]) .chosen [116] [5] 0 (List.replicate 12 0)) ⟨⟨rfl, rfl⟩, trivial⟩ rfl
  have hapart : (StoreWorld.plain [97] [116] []).Apart (.take (.plain [97]) .chosen [116] (some .plain) 0) := by
    rintro e (_ | ⟨_, ⟨⟩⟩) -
    decide
  have h₂ := h₁.step (e := StoreOp.take (.plain [97]) .chosen [116] (some .plain) 0)
    ⟨StoreWorld.issued_plain_take rfl, hapart⟩ rfl
  exact ⟨_, h₂, List.cons_ne_nil _ _, (storeSystem_isolated .transparent .plain (fun _ _ h => h)).1 _ h₂⟩

/-- The namespace "a", NUL, 1, "b" goes on where the namespace "a" has its version. The server of the second takes the
session that the first has stored. -/
theorem storeSystem_continued_namespace :
    ∃ w, (storeSystem .transparent .plain).Reach w ∧ ∃ t ∈ w.taken, ¬ w.Vouches .transparent t := by
  have h₀ : (storeSystem .transparent .plain).Reach _ := .start rfl
  have h₁ : (storeSystem .transparent .plain).Reach (.plain [97, 0, 1, 98] [116] []) := h₀.step
    (e := StoreOp.put (.plain [97, 0, 1, 98]) .chosen [116] [5] 0 (List.replicate 12 0)) ⟨rfl, rfl⟩ rfl
  have h₂ : (storeSystem .transparent .plain).Reach (.plain [97, 0, 1, 98] [116]
      [⟨.server, [97], .v1, [98, 0, 1, 116], [5], 0, .chosen, .chosen⟩]) :=
    h₁.step (e := StoreOp.take (.plain [97]) .chosen [98, 0, 1, 116] (some .plain) 0)
      (StoreWorld.issued_plain_take rfl) rfl
  refine ⟨_, h₂, _, .head _, ?_⟩
  rintro ⟨e, _ | ⟨_, ⟨⟩⟩, ⟨-, hnamespace, -⟩, -⟩
  exact absurd hnamespace (by decide)

end Dquic
