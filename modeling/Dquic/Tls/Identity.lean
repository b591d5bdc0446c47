import Dquic.Tls.Connections

/-!
# Who a connection may claim to be

A record is written with whatever authority the last returned session left on the connection, also
when that session was refused.
-/

namespace Dquic

open Lib

/-! ### What the callbacks do to authorities -/

def RemoteAuthority.Authentic (b : TlsBackend) (A : RemoteAuthority) : Prop :=
  RemoteAuthority.new b A.name A.certificates = some A

variable {A : RemoteAuthority} {b : TlsBackend} {state state' : AuthorityState} {limits : TlsLimits} {now : Nat}

lemma RemoteAuthority.authentic_of_new {name : Bytes} {certificates : List Bytes}
    (h : RemoteAuthority.new b name certificates = some A) : A.Authentic b := by
  obtain ⟨hname, hcertificates⟩ := RemoteAuthority.new_eq_some h
  unfold Authentic
  rw [hname, hcertificates, h]

lemma RemoteAuthority.Authentic.eq {B : RemoteAuthority} (hA : A.Authentic b) (hB : B.Authentic b)
    (h : AuthorityProjection.ofRemote A = AuthorityProjection.ofRemote B) : A = B := by
  obtain ⟨hname, hcertificates⟩ := AuthorityProjection.mk.inj h
  unfold Authentic at hA hB
  rw [hname, hcertificates, hB] at hA
  exact (Option.some.inj hA).symm

namespace AuthorityState

def remoteOf (state : AuthorityState) : Option RemoteAuthority := state.remoteAuthority.or state.resumedRemote

structure Authentic (b : TlsBackend) (state : AuthorityState) : Prop where
  remote : ∀ A, state.remoteAuthority = some A → A.Authentic b
  resumed : ∀ A, state.resumedRemote = some A → A.Authentic b

lemma Authentic.remoteOf (h : state.Authentic b) (hA : state.remoteOf = some A) : A.Authentic b := by
  cases Option.or_eq_some_iff.mp hA with
  | inl hA => exact h.remote A hA
  | inr hA => exact h.resumed A hA.2

end AuthorityState

lemma SessionContext.restoreServer_eq {context : SessionContext} (h : context.restoreServer b state = some state')
    (hstate : state.Authentic b) : state'.remoteAuthority = state.remoteAuthority ∧ state'.Authentic b := by
  obtain ⟨expected, -, h⟩ := of_bind h
  obtain ⟨current, -, h⟩ := of_bind h
  split at h
  · cases hremote : context.remoteAuthority with
    | none =>
      simp only [hremote] at h
      cases h
      exact ⟨rfl, hstate.remote, nofun⟩
    | some authority =>
      simp only [hremote] at h
      obtain ⟨remote, hnew, h⟩ := of_bind h
      cases h
      refine ⟨rfl, hstate.remote, ?_⟩
      rintro A hA
      cases hA
      exact RemoteAuthority.authentic_of_new hnew
  · cases h

lemma StatelessTicketAdapter.decrypt_restores {cipher encoded : Bytes}
    (h : StatelessTicketAdapter.decrypt b limits cipher now state = some (encoded, state')) :
    (∃ plaintext, b.decryptTicket cipher = some plaintext) ∧
      ∃ context : SessionContext, context.restoreServer b state = some state' := by
  obtain ⟨plaintext, hplaintext, h⟩ := of_bind h
  obtain ⟨expiry, -, h⟩ := of_bind h
  obtain ⟨-, -, h⟩ := of_bind h
  obtain ⟨⟨context, encoded⟩, -, h⟩ := of_bind h
  obtain ⟨restored, hrestored, h⟩ := of_bind h
  cases h
  exact ⟨⟨plaintext, hplaintext⟩, context, hrestored⟩

lemma StatelessTicketAdapter.encrypt_writes {plain entropy plaintext ticket : Bytes}
    (h : StatelessTicketAdapter.encrypt b limits plain now entropy state = some (plaintext, ticket)) :
    (SessionContext.capture state).encode plain limits.maxSessionBytes = some (plaintext.drop 8) := by
  obtain ⟨notAfter, -, h⟩ := of_bind h
  obtain ⟨encoded, hencoded, h⟩ := of_bind h
  obtain ⟨cipher, -, h⟩ := of_bind h
  cases h
  rw [List.drop_left' (length_toBE 8 notAfter)]
  exact hencoded

lemma ClientVerifier.verifies {endEntity : Bytes} {intermediates : List Bytes} {ocsp : Bytes}
    (h : ClientVerifier.verifyClientCertWithOcsp b limits endEntity intermediates ocsp now state = some state') :
    ∃ A, A.Authentic b ∧ state' = { state with remoteAuthority := some A } := by
  obtain ⟨-, -, h⟩ := of_bind h
  obtain ⟨-, -, h⟩ := of_bind h
  obtain ⟨name, -, h⟩ := of_bind h
  obtain ⟨A, hA, h⟩ := of_bind h
  cases h
  exact ⟨A, RemoteAuthority.authentic_of_new hA, rfl⟩

/-- A summary and a record name the same authority once a full handshake has none left from a ticket. -/
lemma emitCompletion_remote {alpn : Option Bytes} {resumed : Bool} {summary : HandshakeSummary}
    (h : emitCompletion .server alpn resumed state = .ok summary)
    (hresumed : resumed = true ∨ state.remoteAuthority ≠ none ∨ state.resumedRemote = none) :
    summary.remoteAuthority = state.remoteOf := by
  unfold emitCompletion at h
  dsimp only at h
  generalize (if state.localAuthority = none ∧ resumed = true then state.resumedLocal else state.localAuthority) =
    localAuthority at h
  cases localAuthority with
  | none => cases h
  | some _ =>
    cases h
    dsimp only [AuthorityState.remoteOf]
    cases hremote : state.remoteAuthority with
    | some A => simp
    | none =>
      cases resumed with
      | true => simp
      | false =>
        have hnone : state.resumedRemote = none := by simpa [hremote] using hresumed
        simp [hnone]

/-! ### The invariant -/

namespace TlsWorld

variable {b : TlsBackend} {server : TlsServer} {w w' : TlsWorld} {c : Nat} {conn conn' : TlsConn}

structure Extends (w w' : TlsWorld) : Prop where
  conns : ∀ (c : Nat) (conn : TlsConn), w.conns[c]? = some conn → ∃ conn', w'.conns[c]? = some conn' ∧
    (∀ A, conn.verified = some A → conn'.verified = some A) ∧ ∀ o, conn.outcome = some o → conn'.outcome = some o
  records : ∀ (i : Nat) (r : SessionRecord), w.records[i]? = some r → w'.records[i]? = some r

lemma Grounded.mono (h : Extends w w') (hg : w.Grounded c A) : w'.Grounded c A := by
  induction hg with
  | verified hconn hverified =>
    obtain ⟨conn', hconn', hkeep, -⟩ := h.conns _ _ hconn
    exact .verified hconn' (hkeep _ hverified)
  | resumed hconn houtcome hr _ ih =>
    obtain ⟨conn', hconn', -, hkeep⟩ := h.conns _ _ hconn
    exact .resumed hconn' (hkeep _ houtcome) (h.records _ _ hr) ih

/-- The state of a connection is authentic. Once decided, its identity is grounded, and a summary reports it. -/
structure ConnGood (b : TlsBackend) (w : TlsWorld) (c : Nat) (conn : TlsConn) : Prop where
  authentic : conn.state.Authentic b
  returned : ∀ i ∈ conn.returned, ∃ r, w.records[i]? = some r
  undecided : conn.outcome = none → conn.state.remoteAuthority = none ∧ conn.verified = none ∧ conn.summary = none
  decided : ∀ o, conn.outcome = some o →
    o.isResumed = true ∨ conn.state.remoteAuthority ≠ none ∨ conn.state.resumedRemote = none
  grounded : conn.outcome ≠ none → ∀ A, conn.state.remoteOf = some A → w.Grounded c A
  summary : ∀ s, conn.summary = some s → s.remoteAuthority = conn.state.remoteOf

structure Good (b : TlsBackend) (w : TlsWorld) : Prop where
  conns : ∀ (c : Nat) (conn : TlsConn), w.conns[c]? = some conn → ConnGood b w c conn
  records : ∀ r ∈ w.records, ∃ conn, w.conns[r.issuer]? = some conn ∧ conn.outcome ≠ none ∧
    ∃ context tlsState limit, SessionContext.encode context tlsState limit = some r.body ∧
      context.remoteAuthority = conn.state.remoteOf.map AuthorityProjection.ofRemote

lemma ConnGood.mono (h : Extends w w') (hc : ConnGood b w c conn) : ConnGood b w' c conn :=
  { hc with
    returned := fun i hi => (hc.returned i hi).imp fun r hr => h.records i r hr
    grounded := fun hne A hA => (hc.grounded hne A hA).mono h }

lemma getElem?_setConn (hconn : w.conns[c]? = some conn) (k : Nat) :
    (w.setConn c conn').conns[k]? = if k = c then some conn' else w.conns[k]? := by
  obtain ⟨hlt, -⟩ := List.getElem?_eq_some_iff.mp hconn
  change (w.conns.set c conn')[k]? = _
  by_cases hk : k = c
  · rw [if_pos hk, hk, List.getElem?_set_self hlt]
  · rw [if_neg hk, List.getElem?_set_ne (Ne.symm hk)]

lemma extends_setConn (hconn : w.conns[c]? = some conn)
    (hverified : ∀ A, conn.verified = some A → conn'.verified = some A)
    (houtcome : ∀ o, conn.outcome = some o → conn'.outcome = some o) : Extends w (w.setConn c conn') where
  conns k other hother := by
    by_cases hk : k = c
    · subst hk
      obtain rfl := Option.some.inj (hconn.symm.trans hother)
      exact ⟨conn', by rw [getElem?_setConn hconn, if_pos rfl], hverified, houtcome⟩
    · exact ⟨other, by rw [getElem?_setConn hconn, if_neg hk, hother], fun _ h => h, fun _ h => h⟩
  records _ _ h := h

/-- One connection goes on. The state it wrote records with does not change any more. -/
lemma Good.setConn (hw : Good b w) (hconn : w.conns[c]? = some conn) (hext : Extends w (w.setConn c conn'))
    (hstate : conn.outcome ≠ none → conn'.state = conn.state ∧ conn'.outcome ≠ none)
    (hgood : ConnGood b (w.setConn c conn') c conn') : Good b (w.setConn c conn') where
  conns k other hother := by
    rw [getElem?_setConn hconn] at hother
    by_cases hk : k = c
    · rw [if_pos hk] at hother
      cases hother
      exact hk ▸ hgood
    · rw [if_neg hk] at hother
      exact (hw.conns k other hother).mono hext
  records r hr := by
    obtain ⟨issuer, hissuer, hdecided, hwritten⟩ := hw.records r hr
    rw [getElem?_setConn hconn]
    by_cases hk : r.issuer = c
    · rw [hk, hconn] at hissuer
      cases hissuer
      obtain ⟨hsame, hne⟩ := hstate hdecided
      exact ⟨conn', if_pos hk, hne, hsame ▸ hwritten⟩
    · exact ⟨issuer, by rw [if_neg hk, hissuer], hdecided, hwritten⟩

lemma Good.restored (hw : Good b w) (hconn : w.conns[c]? = some conn) (hundecided : conn.outcome = none) (record : Nat)
    {result : Option (Bytes × AuthorityState)} (hresult : ∀ encoded state, result = some (encoded, state) →
      (∃ r, w.records[record]? = some r) ∧
        ∃ context : SessionContext, context.restoreServer b conn.state = some state) :
    Good b (w.restored c record conn result) := by
  cases result with
  | none => exact hw
  | some out =>
    obtain ⟨encoded, state⟩ := out
    obtain ⟨hrecord, context, hrestore⟩ := hresult encoded state rfl
    have hold := hw.conns c conn hconn
    obtain ⟨hremote, hauthentic⟩ := SessionContext.restoreServer_eq hrestore hold.authentic
    obtain ⟨hnone, hverified, hsummary⟩ := hold.undecided hundecided
    change Good b (w.setConn c _)
    refine hw.setConn hconn (extends_setConn hconn (fun _ h => h) (fun _ h => h)) ?_ ?_
    · exact fun hne => absurd hundecided hne
    · exact
        { authentic := hauthentic
          returned := List.forall_mem_cons.mpr ⟨hrecord, hold.returned⟩
          undecided := fun _ => ⟨hremote.trans hnone, hverified, hsummary⟩
          decided := fun o ho => by
            change conn.outcome = some o at ho
            rw [hundecided] at ho
            cases ho
          grounded := fun hne => absurd hundecided hne
          summary := fun s hs => by
            change conn.summary = some s at hs
            rw [hsummary] at hs
            cases hs }

lemma Good.decide (hw : Good b w) (hconn : w.conns[c]? = some conn) (hundecided : conn.outcome = none)
    (hauthentic : conn'.state.Authentic b) (hreturned : conn'.returned = conn.returned)
    (hsummary : conn'.summary = conn.summary) (houtcome : conn'.outcome ≠ none)
    (hdecided : ∀ o, conn'.outcome = some o →
      o.isResumed = true ∨ conn'.state.remoteAuthority ≠ none ∨ conn'.state.resumedRemote = none)
    (hgrounded : Extends w (w.setConn c conn') → ∀ A, conn'.state.remoteOf = some A →
      (w.setConn c conn').Grounded c A) : Good b (w.setConn c conn') := by
  have hold := hw.conns c conn hconn
  obtain ⟨-, hverified, hnone⟩ := hold.undecided hundecided
  have hext : Extends w (w.setConn c conn') := by
    apply extends_setConn hconn
    · intro A hA
      rw [hverified] at hA
      cases hA
    · intro o ho
      rw [hundecided] at ho
      cases ho
  apply hw.setConn hconn hext
  · exact fun hne => absurd hundecided hne
  · exact
      { authentic := hauthentic
        returned := hreturned ▸ hold.returned
        undecided := fun h => absurd h houtcome
        decided := hdecided
        grounded := fun _ => hgrounded hext
        summary := fun s hs => by
          rw [hsummary, hnone] at hs
          cases hs }

variable {r : SessionRecord} {tlsState : Bytes}

lemma Good.addRecord (hw : Good b w) (hconn : w.conns[r.issuer]? = some conn) (hdecided : conn.outcome ≠ none)
    {limit : Nat} (hwrites : (SessionContext.capture conn.state).encode tlsState limit = some r.body) :
    Good b (w.addRecord r) where
  conns c other hother := by
    apply (hw.conns c other hother).mono
    refine ⟨fun k conn hk => ⟨conn, hk, fun _ h => h, fun _ h => h⟩, fun i s hs => ?_⟩
    obtain ⟨hlt, -⟩ := List.getElem?_eq_some_iff.mp hs
    exact (List.getElem?_append_left hlt).trans hs
  records s hs := by
    cases List.mem_append.mp hs with
    | inl hs => exact hw.records s hs
    | inr hs =>
      cases List.mem_singleton.mp hs
      exact ⟨conn, hconn, hdecided, _, tlsState, limit, hwrites, rfl⟩

lemma Good.remote (hw : Good b w) (hr : r ∈ w.records) (hconn : w.conns[r.issuer]? = some conn)
    {context : SessionContext} (hdecode : SessionContext.decode b.validName r.body limits = some (context, tlsState)) :
    context.remoteAuthority = conn.state.remoteOf.map AuthorityProjection.ofRemote := by
  obtain ⟨issuer, hissuer, -, written, _, _, hencode, hremote⟩ := hw.records r hr
  rw [hconn] at hissuer
  cases hissuer
  rw [(SessionContext.decode_encode hencode hdecode).1]
  exact hremote

/-- The authority that the accepted session was written with is grounded where it was issued. -/
lemma Good.grounded_issuer (hw : Good b w) (hr : r ∈ w.records) (hA : A.Authentic b)
    (hremote : r.remote b limits = some (AuthorityProjection.ofRemote A)) : w.Grounded r.issuer A := by
  obtain ⟨issuer, hissuer, hdecided, -⟩ := hw.records r hr
  obtain ⟨⟨context, tlsState⟩, hdecode, hcontext⟩ := of_bind hremote
  have hgood := hw.conns r.issuer issuer hissuer
  have hsaid := (hw.remote hr hissuer hdecode).symm.trans hcontext
  obtain ⟨B, hB, hBA⟩ := Option.map_eq_some_iff.mp hsaid
  obtain rfl := (hgood.authentic.remoteOf hB).eq hA hBA
  exact hgood.grounded hdecided B hB

lemma Good.accept (hw : Good b w) (hconn : w.conns[c]? = some conn) (hundecided : conn.outcome = none) {i : Nat}
    (hi : i ∈ conn.returned)
    (hsettled : ∀ r, w.records[i]? = some r →
      conn.state.resumedRemote.map AuthorityProjection.ofRemote = r.remote b limits) :
    Good b (w.setConn c { conn with outcome := some (.resumed i) }) := by
  have hold := hw.conns c conn hconn
  refine hw.decide hconn hundecided hold.authentic rfl rfl nofun ?_ ?_
  · rintro o ⟨⟩
    exact .inl rfl
  · intro hext A hA
    obtain ⟨r, hr⟩ := hold.returned i hi
    -- Nothing was verified yet, so the identity is what the last returned session left.
    have hresumed : conn.state.resumedRemote = some A := by
      change conn.state.remoteAuthority.or conn.state.resumedRemote = some A at hA
      rwa [(hold.undecided hundecided).1, Option.none_or] at hA
    have hremote : r.remote b limits = some (AuthorityProjection.ofRemote A) := by
      rw [← hsettled r hr, hresumed]
      rfl
    have hissuer := hw.grounded_issuer (List.mem_of_getElem? hr) (hold.authentic.resumed A hresumed) hremote
    exact .resumed (by rw [getElem?_setConn hconn, if_pos rfl]) rfl hr (hissuer.mono hext)

lemma Good.anonymous (hw : Good b w) (hconn : w.conns[c]? = some conn) (hundecided : conn.outcome = none)
    (hsettled : conn.state.resumedRemote = none) : Good b (w.setConn c { conn with outcome := some .full }) := by
  have hold := hw.conns c conn hconn
  refine hw.decide hconn hundecided hold.authentic rfl rfl nofun ?_ ?_
  · exact fun _ _ => .inr (.inr hsettled)
  · intro _ A hA
    change conn.state.remoteAuthority.or conn.state.resumedRemote = some A at hA
    rw [(hold.undecided hundecided).1, hsettled] at hA
    cases hA

lemma Good.authenticate (hw : Good b w) (hconn : w.conns[c]? = some conn) (hundecided : conn.outcome = none)
    (hA : A.Authentic b) :
    Good b (w.setConn c { conn with
      state := { conn.state with remoteAuthority := some A }, verified := some A, outcome := some .full }) := by
  have hold := hw.conns c conn hconn
  refine hw.decide hconn hundecided ⟨?_, hold.authentic.resumed⟩ rfl rfl nofun ?_ ?_
  · rintro B ⟨⟩
    exact hA
  · exact fun _ _ => .inr (.inl nofun)
  · rintro _ B ⟨⟩
    exact .verified (by rw [getElem?_setConn hconn, if_pos rfl]) rfl

lemma Good.complete (hw : Good b w) (hconn : w.conns[c]? = some conn) {o : Outcome} (ho : conn.outcome = some o)
    {alpn : Option Bytes} {summary : HandshakeSummary}
    (hsummary : emitCompletion .server alpn o.isResumed conn.state = .ok summary) :
    Good b (w.setConn c { conn with summary := some summary }) := by
  have hold := hw.conns c conn hconn
  have hext : Extends w (w.setConn c { conn with summary := some summary }) :=
    extends_setConn hconn (fun _ h => h) (fun _ h => h)
  apply hw.setConn hconn hext
  · exact fun hne => ⟨rfl, hne⟩
  · refine { hold.mono hext with undecided := fun h => ?_, summary := ?_ }
    · change conn.outcome = none at h
      rw [ho] at h
      cases h
    · rintro s ⟨⟩
      exact emitCompletion_remote hsummary (hold.decided o ho)

lemma Good.start (hw : Good b w) (peer : Nat) {authority : LocalAuthority}
    (hstate : FixedServerCert.resolve authority limits .default = some state) :
    Good b { w with conns := w.conns ++ [⟨peer, state, [], none, none, none⟩] } := by
  have hkeep (k : Nat) (conn : TlsConn) (hk : w.conns[k]? = some conn) :
      (w.conns ++ [⟨peer, state, [], none, none, none⟩])[k]? = some conn :=
    (List.getElem?_append_left (List.getElem?_eq_some_iff.mp hk).1).trans hk
  have hext : Extends w { w with conns := w.conns ++ [⟨peer, state, [], none, none, none⟩] } :=
    ⟨fun k conn hk => ⟨conn, hkeep k conn hk, fun _ h => h, fun _ h => h⟩, fun _ _ h => h⟩
  constructor
  · intro k conn hconn
    by_cases hk : k < w.conns.length
    · rw [List.getElem?_append_left hk] at hconn
      exact (hw.conns k conn hconn).mono hext
    · rw [List.getElem?_append_right (Nat.le_of_not_lt hk)] at hconn
      cases List.mem_singleton.mp (List.mem_of_getElem? hconn)
      unfold FixedServerCert.resolve at hstate
      split at hstate
      · cases hstate
        exact ⟨⟨nofun, nofun⟩, nofun, fun _ => ⟨rfl, rfl, rfl⟩, nofun, fun h => absurd rfl h, nofun⟩
      · cases hstate
  · intro r hr
    obtain ⟨conn, hconn, hwritten⟩ := hw.records r hr
    exact ⟨conn, hkeep _ conn hconn, hwritten⟩

lemma Good.exec (hw : Good b w) {op : TlsOp} (hop : Issued b server w op) (hsettled : Settled b server w op)
    (he : w.exec b server op = some w') : Good b w' := by
  cases op with
  | start peer =>
    obtain ⟨state, hstate, he⟩ := of_bind he
    cases he
    exact hw.start peer hstate
  | take c ticket stored now record =>
    obtain ⟨⟨conn, hconn, hundecided⟩, hwrote⟩ := hop
    obtain ⟨_, hsame, he⟩ := of_bind he
    cases hconn.symm.trans hsame
    cases he
    apply hw.restored hconn hundecided record
    intro encoded state htake
    obtain ⟨session, plaintext, context, hsession, -, hplaintext, -, hrestored⟩ := ServerStoreAdapter.take_eq_some htake
    obtain ⟨r, hr, -⟩ := hwrote session plaintext hsession hplaintext
    exact ⟨⟨r, hr⟩, context, hrestored⟩
  | decrypt c cipher now record =>
    obtain ⟨⟨conn, hconn, hundecided⟩, hwrote⟩ := hop
    obtain ⟨_, hsame, he⟩ := of_bind he
    cases hconn.symm.trans hsame
    cases he
    apply hw.restored hconn hundecided record
    intro encoded state hdecrypt
    obtain ⟨⟨plaintext, hplaintext⟩, hcontext⟩ := StatelessTicketAdapter.decrypt_restores hdecrypt
    obtain ⟨r, hr, -⟩ := hwrote plaintext hplaintext
    exact ⟨⟨r, hr⟩, hcontext⟩
  | accept c record =>
    obtain ⟨⟨conn, hconn, hundecided⟩, hreturned⟩ := hop
    obtain ⟨_, hsame, he⟩ := of_bind he
    cases hconn.symm.trans hsame
    cases he
    exact hw.accept hconn hundecided (hreturned conn hconn).1 (fun r => hsettled conn r hconn)
  | anonymous c =>
    obtain ⟨conn, hconn, hundecided⟩ := hop
    obtain ⟨_, hsame, he⟩ := of_bind he
    cases hconn.symm.trans hsame
    cases he
    exact hw.anonymous hconn hundecided (hsettled conn hconn)
  | authenticate c endEntity intermediates ocsp now =>
    obtain ⟨conn, hconn, hundecided⟩ := hop
    obtain ⟨_, hsame, he⟩ := of_bind he
    cases hconn.symm.trans hsame
    obtain ⟨state, hstate, he⟩ := of_bind he
    cases he
    obtain ⟨A, hA, rfl⟩ := ClientVerifier.verifies hstate
    exact hw.authenticate hconn hundecided hA
  | complete c alpn =>
    obtain ⟨conn, hconn, he⟩ := of_bind he
    obtain ⟨o, ho, he⟩ := of_bind he
    split at he
    case h_1 summary hsummary =>
      cases he
      exact hw.complete hconn ho hsummary
    case h_2 =>
      cases he
      exact hw
  | put c ticket value now nonce =>
    obtain ⟨conn, hconn, hdecided⟩ := hop
    obtain ⟨_, hsame, he⟩ := of_bind he
    cases hconn.symm.trans hsame
    split at he
    case h_1 plaintext entry hput =>
      cases he
      exact hw.addRecord hconn hdecided (ServerStoreAdapter.put_eq_some hput).2.2.1
    case h_2 =>
      cases he
      exact hw
  | encrypt c plain now entropy =>
    obtain ⟨conn, hconn, hdecided⟩ := hop
    obtain ⟨_, hsame, he⟩ := of_bind he
    cases hconn.symm.trans hsame
    split at he
    case h_1 plaintext cipher hencrypt =>
      cases he
      exact hw.addRecord hconn hdecided (StatelessTicketAdapter.encrypt_writes hencrypt)
    case h_2 =>
      cases he
      exact hw

end TlsWorld

/-- As long as refused sessions leave nothing behind, a reported identity goes back to a verified certificate, and every
record names the authority that the connection which issued it reports. -/
theorem tlsSystem_settled_identity (b : TlsBackend) (server : TlsServer) {w : TlsWorld}
    (hr : ((tlsSystem b server).restrict (TlsWorld.Settled b server)).Reach w) :
    (∀ (c : Nat) (conn : TlsConn) (s : HandshakeSummary) (A : RemoteAuthority), w.conns[c]? = some conn →
      conn.summary = some s → s.remoteAuthority = some A → w.Grounded c A) ∧
    ∀ r ∈ w.records, ∀ (conn : TlsConn) (s : HandshakeSummary) (context : SessionContext) (tlsState : Bytes),
      w.conns[r.issuer]? = some conn → conn.summary = some s →
      SessionContext.decode b.validName r.body server.limits = some (context, tlsState) →
      context.remoteAuthority = s.remoteAuthority.map AuthorityProjection.ofRemote := by
  have hgood : TlsWorld.Good b w := by
    apply hr.invariant (I := TlsWorld.Good b)
    · rintro w rfl
      refine ⟨?_, List.forall_mem_nil _⟩
      rintro c conn ⟨⟩
    · rintro w op w' hw ⟨hop, hsettled⟩ he
      exact hw.exec hop hsettled he
  constructor
  · intro c conn s A hconn hs hA
    have hconnGood := hgood.conns c conn hconn
    apply hconnGood.grounded
    · intro hnone
      rw [(hconnGood.undecided hnone).2.2] at hs
      cases hs
    · rw [← hconnGood.summary s hs, hA]
  · intro r hr conn s context tlsState hconn hs hdecode
    rw [(hgood.conns _ conn hconn).summary s hs]
    exact hgood.remote hr hconn hdecode

/-! ### Runs of a small server -/

def TlsServer.small : TlsServer := ⟨⟨[1], [[2]], []⟩, ⟨8, 2, 8, 64⟩, [], .v1, ⟨⟨0, []⟩, []⟩⟩

/-- The authority of the client certificate `[7]`. -/
def RemoteAuthority.seven : RemoteAuthority := ⟨[7], [[7]], [7]⟩

/-- The expiry, the two authorities of a connection with `RemoteAuthority.seven`, and a TLS state. -/
def ticketOfSeven (tlsState : Bytes) : Bytes :=
  [0, 0, 0, 0, 0, 0, 0, 50, 1, 0, 0, 0, 1, 1, 0, 1, 0, 0, 0, 1, 2, 1, 0, 0, 0, 1, 7, 0, 1, 0, 0, 0, 1, 7, 0, 0, 0] ++
    UInt8.ofNat tlsState.length :: tlsState

/-- A connection of the small server, with the authority of its summary. -/
def TlsConn.small (peer : Nat) (remote resumed : Option RemoteAuthority) (returned : List Nat) (outcome : Option Outcome)
    (reported : Option (Option RemoteAuthority)) : TlsConn where
  peer := peer
  state := ⟨some TlsServer.small.authority, remote, none, resumed⟩
  returned := returned
  verified := remote
  outcome := outcome
  summary := reported.map fun authority => ⟨none, some TlsServer.small.authority, authority⟩

/-- The client with the certificate comes back with its ticket. -/
theorem tlsSystem_settled_identity_run :
    ∃ w, ((tlsSystem .transparent .small).restrict (TlsWorld.Settled .transparent .small)).Reach w ∧
      (∃ conn s, w.conns[1]? = some conn ∧ conn.verified = none ∧ conn.summary = some s ∧
        s.remoteAuthority = some .seven) ∧ w.Grounded 1 .seven := by
  let S := (tlsSystem .transparent .small).restrict (TlsWorld.Settled .transparent .small)
  let first : TlsConn := .small 0 (some .seven) none [] (some .full) (some (some .seven))
  have h₀ : S.Reach _ := .start rfl
  have h₁ := h₀.step (e := TlsOp.start 0) ⟨trivial, trivial⟩ rfl
  have h₂ := h₁.step (e := TlsOp.authenticate 0 [7] [] [] 0) ⟨⟨_, rfl, rfl⟩, trivial⟩ rfl
  have h₃ : S.Reach ⟨[first], []⟩ := h₂.step (e := TlsOp.complete 0 none) ⟨⟨_, rfl, nofun⟩, trivial⟩ rfl
  have h₄ := h₃.step (e := TlsOp.encrypt 0 [] 0 []) ⟨⟨_, rfl, nofun⟩, trivial⟩ rfl
  have h₅ : S.Reach ⟨[first, .small 0 none none [] none none], [⟨.ticket, ticketOfSeven [], 0⟩]⟩ :=
    h₄.step (e := TlsOp.start 0) ⟨trivial, trivial⟩ rfl
  have h₆ := h₅.step (e := TlsOp.decrypt 1 (ticketOfSeven []) 0 0)
    ⟨⟨⟨_, rfl, rfl⟩, by rintro _ ⟨⟩; exact ⟨_, rfl, rfl, rfl⟩⟩, trivial⟩ rfl
  have h₇ := h₆.step (e := TlsOp.accept 1 0)
    ⟨⟨⟨_, rfl, rfl⟩, by rintro _ ⟨⟩; exact ⟨.head _, by rintro _ _ ⟨⟩ ⟨⟩; rfl⟩⟩, by rintro _ _ ⟨⟩ ⟨⟩; rfl⟩ rfl
  have h₈ : S.Reach ⟨[first, .small 0 none (some .seven) [0] (some (.resumed 0)) (some (some .seven))],
      [⟨.ticket, ticketOfSeven [], 0⟩]⟩ := h₇.step (e := TlsOp.complete 1 none) ⟨⟨_, rfl, nofun⟩, trivial⟩ rfl
  exact ⟨_, h₈, ⟨_, _, rfl, rfl, rfl, rfl⟩, (tlsSystem_settled_identity _ _ h₈).1 1 _ _ _ rfl rfl rfl⟩

/-- Another client shows the ticket of the first, has no certificate, and gets a ticket that names the first. With this
ticket, whose secret it knows, it is taken for the first. -/
theorem tlsSystem_stolen_identity :
    ∃ w, (tlsSystem .transparent .small).Reach w ∧
      (∃ conn s, w.conns[2]? = some conn ∧ conn.summary = some s ∧ s.remoteAuthority = some .seven) ∧
      ¬ w.Grounded 2 .seven ∧
      ∃ r conn s context tlsState, r ∈ w.records ∧ w.conns[r.issuer]? = some conn ∧ conn.summary = some s ∧
        SessionContext.decode TlsBackend.transparent.validName r.body TlsServer.small.limits = some (context, tlsState) ∧
        context.remoteAuthority ≠ s.remoteAuthority.map AuthorityProjection.ofRemote := by
  let S := tlsSystem .transparent .small
  let first : TlsConn := .small 0 (some .seven) none [] (some .full) none
  let second : TlsConn := .small 1 none (some .seven) [0] (some .full) (some none)
  have h₀ : S.Reach _ := .start rfl
  have h₁ := h₀.step (e := TlsOp.start 0) trivial rfl
  have h₂ : S.Reach ⟨[first], []⟩ := h₁.step (e := TlsOp.authenticate 0 [7] [] [] 0) ⟨_, rfl, rfl⟩ rfl
  have h₃ := h₂.step (e := TlsOp.encrypt 0 [] 0 []) ⟨_, rfl, nofun⟩ rfl
  have h₄ : S.Reach ⟨[first, .small 1 none none [] none none], [⟨.ticket, ticketOfSeven [], 0⟩]⟩ :=
    h₃.step (e := TlsOp.start 1) trivial rfl
  have h₅ := h₄.step (e := TlsOp.decrypt 1 (ticketOfSeven []) 0 0)
    ⟨⟨_, rfl, rfl⟩, by rintro _ ⟨⟩; exact ⟨_, rfl, rfl, rfl⟩⟩ rfl
  have h₆ := h₅.step (e := TlsOp.anonymous 1) ⟨_, rfl, rfl⟩ rfl
  have h₇ : S.Reach ⟨[first, second], [⟨.ticket, ticketOfSeven [], 0⟩]⟩ :=
    h₆.step (e := TlsOp.complete 1 none) ⟨_, rfl, nofun⟩ rfl
  have h₈ := h₇.step (e := TlsOp.encrypt 1 [9] 0 []) ⟨_, rfl, nofun⟩ rfl
  have h₉ : S.Reach ⟨[first, second, .small 1 none none [] none none],
      [⟨.ticket, ticketOfSeven [], 0⟩, ⟨.ticket, ticketOfSeven [9], 1⟩]⟩ := h₈.step (e := TlsOp.start 1) trivial rfl
  have h₁₀ := h₉.step (e := TlsOp.decrypt 2 (ticketOfSeven [9]) 0 1)
    ⟨⟨_, rfl, rfl⟩, by rintro _ ⟨⟩; exact ⟨_, rfl, rfl, rfl⟩⟩ rfl
  have h₁₁ := h₁₀.step (e := TlsOp.accept 2 1)
    ⟨⟨_, rfl, rfl⟩, by rintro _ ⟨⟩; exact ⟨.head _, by rintro _ _ ⟨⟩ ⟨⟩; rfl⟩⟩ rfl
  have h₁₂ : S.Reach
      ⟨[first, second, .small 1 none (some .seven) [1] (some (.resumed 1)) (some (some .seven))],
        [⟨.ticket, ticketOfSeven [], 0⟩, ⟨.ticket, ticketOfSeven [9], 1⟩]⟩ :=
    h₁₁.step (e := TlsOp.complete 2 none) ⟨_, rfl, nofun⟩ rfl
  refine ⟨_, h₁₂, ⟨_, _, rfl, rfl, rfl⟩, ?_, ⟨⟨.ticket, ticketOfSeven [9], 1⟩, second, _,
    ⟨some ⟨[1], [[2]]⟩, some ⟨[7], [[7]]⟩⟩, [9], .tail _ (.head _), rfl, rfl, by decide +kernel, nofun⟩⟩
  -- The accepted session was issued on the second connection, which is neither verified nor resumed.
  intro h
  cases h with
  | verified hconn hverified => cases hconn; cases hverified
  | resumed hconn houtcome hr h =>
    cases hconn
    cases houtcome
    cases hr
    cases h with
    | verified hconn hverified => cases hconn; cases hverified
    | resumed hconn houtcome _ _ => cases hconn; cases houtcome

end Dquic
