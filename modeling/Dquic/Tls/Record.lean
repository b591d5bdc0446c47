import Dquic.Basic
import Dquic.Lib.Parser

/-!
# Session records

The plaintext of a session record (`qtls/src/resumption.rs`): the two authorities of the
connection that issued it, followed by the TLS state.
-/

namespace Dquic

open Lib Lib.Parser

structure TlsLimits where
  maxCertificateChainBytes : Nat
  maxCertificates : Nat
  maxOcspBytes : Nat
  maxSessionBytes : Nat
  deriving DecidableEq, Repr

structure AuthorityProjection where
  name : Bytes
  certificates : List Bytes
  deriving DecidableEq, Repr

structure SessionContext where
  localAuthority : Option AuthorityProjection
  remoteAuthority : Option AuthorityProjection
  deriving DecidableEq, Repr

/-! ### Writing -/

def putBytes (bytes : Bytes) : Option Bytes :=
  if bytes.length < 2 ^ 32 then some (toBE 4 bytes.length ++ bytes) else none

def putCertificates : List Bytes → Option Bytes
  | [] => some []
  | certificate :: certificates => do
    let first ← putBytes certificate
    let rest ← putCertificates certificates
    some (first ++ rest)

def encodeProjection : Option AuthorityProjection → Option Bytes
  | none => some [0]
  | some authority => do
    let name ← putBytes authority.name
    if authority.certificates.length < 2 ^ 16 then
      let certificates ← putCertificates authority.certificates
      some ([1] ++ (name ++ (toBE 2 authority.certificates.length ++ certificates)))
    else none

def SessionContext.encode (context : SessionContext) (tlsState : Bytes) (limit : Nat) : Option Bytes := do
  let localPart ← encodeProjection context.localAuthority
  let remotePart ← encodeProjection context.remoteAuthority
  let statePart ← putBytes tlsState
  let output := localPart ++ (remotePart ++ statePart)
  if output.length ≤ limit then some output else none

/-! ### Reading -/

namespace Cursor

def u8 : Parser UInt8 UInt8
  | [] => none
  | b :: rest => some (b, rest)

def u16 : Parser UInt8 Nat := do
  let b ← Parser.take 2
  pure (ofBE b)

def bytes : Parser UInt8 Bytes := do
  let b ← Parser.take 4
  Parser.take (ofBE b)

end Cursor

/-- The certificates of a projection, with the bytes read so far. -/
def readCertificates (limits : TlsLimits) : Nat → Nat → Parser UInt8 (List Bytes)
  | 0, _ => pure []
  | n + 1, total => do
    let certificate ← Cursor.bytes
    guard (total + certificate.length ≤ limits.maxCertificateChainBytes)
    let certificates ← readCertificates limits n (total + certificate.length)
    pure (certificate :: certificates)

/-- `validName` stands for the checks that a name is UTF-8 and a DNS name. -/
def decodeProjection (validName : Bytes → Bool) (limits : TlsLimits) : Parser UInt8 (Option AuthorityProjection) := do
  let tag ← Cursor.u8
  if tag = 0 then pure none
  else if tag = 1 then do
    let name ← Cursor.bytes
    guard (validName name = true)
    let count ← Cursor.u16
    guard (count ≠ 0 ∧ count ≤ limits.maxCertificates)
    let certificates ← readCertificates limits count 0
    pure (some ⟨name, certificates⟩)
  else failure

def readContext (validName : Bytes → Bool) (limits : TlsLimits) : Parser UInt8 (SessionContext × Bytes) := do
  let localAuthority ← decodeProjection validName limits
  let remoteAuthority ← decodeProjection validName limits
  let tlsState ← Cursor.bytes
  pure (⟨localAuthority, remoteAuthority⟩, tlsState)

def SessionContext.decode (validName : Bytes → Bool) (encoded : Bytes) (limits : TlsLimits) :
    Option (SessionContext × Bytes) := do
  if encoded.length ≤ limits.maxSessionBytes then
    let (context, rest) ← readContext validName limits encoded
    if rest = [] then some context else none
  else none

/-! ### Reading what was written -/

lemma reads_u8 (b : UInt8) : Reads Cursor.u8 [b] b := by
  intro rest a' rest' h
  cases h
  exact ⟨rfl, rfl⟩

lemma reads_u16 {n : Nat} (h : n < 2 ^ 16) : Reads Cursor.u16 (toBE 2 n) n := by
  have htake : Reads (Parser.take 2) (toBE 2 n) (toBE 2 n) := by
    have hreads := reads_take (toBE 2 n)
    rwa [length_toBE] at hreads
  have hmap : Reads Cursor.u16 (toBE 2 n) (ofBE (toBE 2 n)) := htake.map
  rwa [ofBE_toBE h] at hmap

variable {b out tlsState : Bytes} {certificates : List Bytes} {context : SessionContext} {limit : Nat}
  {limits : TlsLimits} {validName : Bytes → Bool}

lemma reads_bytes (h : putBytes b = some out) : Reads Cursor.bytes out b := by
  unfold putBytes at h
  split at h
  · rename_i hlt
    cases h
    have htake : Reads (Parser.take 4) (toBE 4 b.length) (toBE 4 b.length) := by
      have hreads := reads_take (toBE 4 b.length)
      rwa [length_toBE] at hreads
    apply htake.bind
    rw [ofBE_toBE hlt]
    exact reads_take b
  · cases h

lemma reads_certificates (limits : TlsLimits) (h : putCertificates certificates = some out) (total : Nat) :
    Reads (readCertificates limits certificates.length total) out certificates := by
  induction certificates generalizing out total with
  | nil =>
    cases h
    exact Reads.pure []
  | cons certificate certificates ih =>
    obtain ⟨first, hfirst, h⟩ := of_bind h
    obtain ⟨rest, hrest, h⟩ := of_bind h
    cases h
    apply (reads_bytes hfirst).bind
    apply (reads_guard _).bind_nil
    exact (ih hrest _).map

lemma reads_projection (validName : Bytes → Bool) (limits : TlsLimits) {authority : Option AuthorityProjection}
    (h : encodeProjection authority = some out) : Reads (decodeProjection validName limits) out authority := by
  cases authority with
  | none =>
    cases h
    have htag : Reads (decodeProjection validName limits) ([0] ++ []) none := by
      apply (reads_u8 0).bind
      exact Reads.pure none
    exact htag
  | some authority =>
    obtain ⟨name, hname, h⟩ := of_bind h
    split at h
    · rename_i hcount
      obtain ⟨certificates, hcertificates, h⟩ := of_bind h
      cases h
      apply (reads_u8 1).bind
      change Reads (Cursor.bytes >>= _) _ _
      apply (reads_bytes hname).bind
      apply (reads_guard _).bind_nil
      apply (reads_u16 hcount).bind
      apply (reads_guard _).bind_nil
      exact (reads_certificates limits hcertificates 0).map
    · cases h

/-- A record that decodes is the one that was encoded. -/
theorem SessionContext.decode_encode {context' : SessionContext} {tlsState' : Bytes}
    (h : context.encode tlsState limit = some out)
    (hdecode : SessionContext.decode validName out limits = some (context', tlsState')) :
    context' = context ∧ tlsState' = tlsState := by
  obtain ⟨localPart, hlocal, h⟩ := of_bind h
  obtain ⟨remotePart, hremote, h⟩ := of_bind h
  obtain ⟨statePart, hstate, h⟩ := of_bind h
  have hout : out = localPart ++ (remotePart ++ statePart) := by
    dsimp only at h
    split at h
    · exact (Option.some.inj h).symm
    · cases h
  have hreads : Reads (readContext validName limits) out (context, tlsState) := by
    rw [hout]
    apply (reads_projection validName limits hlocal).bind
    apply (reads_projection validName limits hremote).bind
    exact (reads_bytes hstate).map
  unfold SessionContext.decode at hdecode
  split at hdecode
  · obtain ⟨⟨read, rest⟩, hread, hdecode⟩ := of_bind hdecode
    have hsame := (hreads [] read rest (by rwa [List.append_nil])).1
    dsimp only at hdecode
    split at hdecode
    · cases hdecode
      exact ⟨congrArg Prod.fst hsame, congrArg Prod.snd hsame⟩
    · cases hdecode
  · cases hdecode

/-! ### Nothing else is read -/

def AuthorityProjection.Within (validName : Bytes → Bool) (limits : TlsLimits) (authority : AuthorityProjection) : Prop :=
  validName authority.name = true ∧ authority.certificates ≠ [] ∧
    authority.certificates.length ≤ limits.maxCertificates ∧
    (authority.certificates.map List.length).sum ≤ limits.maxCertificateChainBytes

def SessionContext.Within (validName : Bytes → Bool) (limits : TlsLimits) (context : SessionContext) : Prop :=
  (∀ authority ∈ context.localAuthority, authority.Within validName limits) ∧
    ∀ authority ∈ context.remoteAuthority, authority.Within validName limits

lemma exact_u8 : Exact Cursor.u8 fun b bs => bs = [b] := by
  intro s a rest
  cases s with
  | nil => simp [Cursor.u8]
  | cons b s =>
    constructor
    · intro h
      cases h
      exact ⟨[_], rfl, rfl⟩
    · rintro ⟨bs, hs, rfl⟩
      cases hs
      rfl

lemma exact_number (width : Nat) :
    Exact (do let b ← Parser.take width; pure (ofBE b)) fun n bs => n < 256 ^ width ∧ bs = toBE width n := by
  apply ((exact_take width).bind fun b => exact_pure (ofBE b)).congr
  intro n bs
  constructor
  · rintro ⟨b, _, _, ⟨rfl, rfl⟩, ⟨rfl, rfl⟩, rfl⟩
    rw [List.append_nil]
    exact ⟨ofBE_lt _, (toBE_ofBE _).symm⟩
  · rintro ⟨hn, rfl⟩
    exact ⟨_, _, [], ⟨rfl, length_toBE _ _⟩, ⟨(ofBE_toBE hn).symm, rfl⟩, (List.append_nil _).symm⟩

lemma putBytes_eq_some : putBytes b = some out ↔ b.length < 2 ^ 32 ∧ out = toBE 4 b.length ++ b := by
  unfold putBytes
  split
  · rename_i hlt
    rw [Option.some.injEq, eq_comm, and_iff_right hlt]
  · rename_i hlt
    exact ⟨nofun, fun h => absurd h.1 hlt⟩

lemma exact_bytes : Exact Cursor.bytes fun b bs => putBytes b = some bs := by
  apply ((exact_take 4).bind fun b => exact_take (ofBE b)).congr
  intro b bs
  rw [putBytes_eq_some]
  constructor
  · rintro ⟨n, front, back, ⟨hfront, hn⟩, ⟨hback, hb⟩, rfl⟩
    have hlt := ofBE_lt n
    rw [hn] at hlt
    rw [hfront, hback, hb, ← hn, toBE_ofBE]
    exact ⟨by simpa using hlt, rfl⟩
  · rintro ⟨hb, rfl⟩
    exact ⟨_, _, b, ⟨rfl, length_toBE _ _⟩, ⟨rfl, (ofBE_toBE hb).symm⟩, rfl⟩

lemma putCertificates_cons {certificate : Bytes} :
    putCertificates (certificate :: certificates) = some out ↔
      ∃ first rest, putBytes certificate = some first ∧ putCertificates certificates = some rest ∧ out = first ++ rest := by
  rw [putCertificates, Option.bind_eq_bind, Option.bind_eq_some_iff]
  constructor
  · rintro ⟨first, hfirst, h⟩
    obtain ⟨rest, hrest, h⟩ := of_bind h
    cases h
    exact ⟨first, rest, hfirst, hrest, rfl⟩
  · rintro ⟨first, rest, hfirst, hrest, rfl⟩
    exact ⟨first, hfirst, Option.bind_eq_some_iff.mpr ⟨rest, hrest, rfl⟩⟩

/-- The sum of the lengths read so far only grows, so it is enough that the last one is allowed. -/
lemma exact_certificates (limits : TlsLimits) (n total : Nat) (htotal : total ≤ limits.maxCertificateChainBytes) :
    Exact (readCertificates limits n total) fun certificates bs => certificates.length = n ∧
      total + (certificates.map List.length).sum ≤ limits.maxCertificateChainBytes ∧
      putCertificates certificates = some bs := by
  induction n generalizing total with
  | zero =>
    apply (exact_pure []).congr
    intro certificates bs
    constructor
    · rintro ⟨rfl, rfl⟩
      exact ⟨rfl, htotal, rfl⟩
    · rintro ⟨hnil, -, hout⟩
      cases List.length_eq_zero_iff.mp hnil
      cases hout
      exact ⟨rfl, rfl⟩
  | succ n ih =>
    have hrest := fun certificate : Bytes => Exact.checked
      (total + certificate.length ≤ limits.maxCertificateChainBytes) fun hle => (ih _ hle).bind fun certificates =>
        exact_pure (certificate :: certificates)
    apply (exact_bytes.bind hrest).congr
    intro certificates bs
    constructor
    · rintro ⟨certificate, first, _, hfirst, ⟨hle, certificates, rest, _, ⟨rfl, hsum, hput⟩, ⟨rfl, rfl⟩, rfl⟩, rfl⟩
      refine ⟨rfl, ?_, putCertificates_cons.mpr ⟨first, rest, hfirst, hput, by rw [List.append_nil]⟩⟩
      rw [List.map_cons, List.sum_cons, ← Nat.add_assoc]
      exact hsum
    · rintro ⟨hlen, hsum, hput⟩
      cases certificates with
      | nil => cases hlen
      | cons certificate certificates =>
        obtain ⟨first, rest, hfirst, hrest, rfl⟩ := putCertificates_cons.mp hput
        rw [List.map_cons, List.sum_cons, ← Nat.add_assoc] at hsum
        exact ⟨certificate, first, rest, hfirst, ⟨by omega, certificates, rest, [],
          ⟨Nat.succ.inj hlen, hsum, hrest⟩, ⟨rfl, rfl⟩, (List.append_nil rest).symm⟩, rfl⟩

lemma encodeProjection_some {authority : AuthorityProjection} :
    encodeProjection (some authority) = some out ↔ ∃ name certificates, putBytes authority.name = some name ∧
      authority.certificates.length < 2 ^ 16 ∧ putCertificates authority.certificates = some certificates ∧
      out = [1] ++ (name ++ (toBE 2 authority.certificates.length ++ certificates)) := by
  rw [encodeProjection, Option.bind_eq_bind, Option.bind_eq_some_iff]
  constructor
  · rintro ⟨name, hname, h⟩
    split at h
    · rename_i hcount
      obtain ⟨certificates, hcertificates, h⟩ := of_bind h
      cases h
      exact ⟨name, certificates, hname, hcount, hcertificates, rfl⟩
    · cases h
  · rintro ⟨name, certificates, hname, hcount, hcertificates, rfl⟩
    refine ⟨name, hname, ?_⟩
    rw [if_pos hcount, hcertificates]
    rfl

lemma exact_authority (validName : Bytes → Bool) (limits : TlsLimits) :
    Exact (do
      let name ← Cursor.bytes
      guard (validName name = true)
      let count ← Cursor.u16
      guard (count ≠ 0 ∧ count ≤ limits.maxCertificates)
      let certificates ← readCertificates limits count 0
      pure (some (AuthorityProjection.mk name certificates))) fun authority bs => ∃ projection,
        authority = some projection ∧ projection.Within validName limits ∧
        encodeProjection (some projection) = some ([1] ++ bs) := by
  have hparts := exact_bytes.bind fun name => Exact.checked (validName name = true) fun _ =>
    (exact_number 2).bind fun count => Exact.checked (count ≠ 0 ∧ count ≤ limits.maxCertificates) fun _ =>
      (exact_certificates limits count 0 (Nat.zero_le _)).bind fun certificates =>
        exact_pure (some (AuthorityProjection.mk name certificates))
  apply hparts.congr
  intro authority bs
  constructor
  · rintro ⟨name, front, _, hname, ⟨hvalid, count, _, _, ⟨hlt, rfl⟩, ⟨⟨hpos, hle⟩, certificates, written, _,
      ⟨hcount, hsum, hput⟩, ⟨rfl, rfl⟩, rfl⟩, rfl⟩, rfl⟩
    rw [Nat.zero_add] at hsum
    subst hcount
    refine ⟨⟨name, certificates⟩, rfl, ⟨hvalid, ?_, hle, hsum⟩, ?_⟩
    · rintro rfl
      exact hpos rfl
    · refine encodeProjection_some.mpr ⟨front, written, hname, hlt, hput, ?_⟩
      rw [List.append_nil]
  · rintro ⟨projection, rfl, ⟨hvalid, hne, hle, hsum⟩, hencode⟩
    obtain ⟨name, certificates, hname, hlt, hput, hbs⟩ := encodeProjection_some.mp hencode
    refine ⟨projection.name, name, _, hname, ⟨hvalid, _, _, _, ⟨hlt, rfl⟩, ⟨⟨?_, hle⟩, projection.certificates,
      certificates, [], ⟨rfl, by omega, hput⟩, ⟨rfl, rfl⟩, rfl⟩, rfl⟩, ?_⟩
    · intro hzero
      exact hne (List.length_eq_zero_iff.mp hzero)
    · rw [List.append_nil]
      exact List.append_cancel_left hbs

lemma exact_projection (validName : Bytes → Bool) (limits : TlsLimits) :
    Exact (decodeProjection validName limits) fun authority bs =>
      (∀ projection ∈ authority, projection.Within validName limits) ∧ encodeProjection authority = some bs := by
  have htagged := fun tag : UInt8 =>
    (exact_pure none).ite (tag = 0) ((exact_authority validName limits).ite (tag = 1) exact_failure)
  apply (exact_u8.bind htagged).congr
  intro authority bs
  constructor
  · rintro ⟨tag, _, _, rfl, ⟨rfl, rfl, rfl⟩ | ⟨-, ⟨rfl, projection, rfl, hwithin, hencode⟩ | ⟨-, ⟨⟩⟩⟩, rfl⟩
    · exact ⟨nofun, rfl⟩
    · exact ⟨by rintro _ ⟨⟩; exact hwithin, hencode⟩
  · rintro ⟨hwithin, hencode⟩
    cases authority with
    | none =>
      cases hencode
      exact ⟨0, [0], [], rfl, .inl ⟨rfl, rfl, rfl⟩, rfl⟩
    | some projection =>
      obtain ⟨name, certificates, -, -, -, hbs⟩ := encodeProjection_some.mp hencode
      exact ⟨1, [1], _, rfl, .inr ⟨by decide, .inl ⟨rfl, projection, rfl, hwithin projection rfl, hbs ▸ hencode⟩⟩, hbs⟩

lemma SessionContext.encode_eq_some :
    context.encode tlsState limit = some out ↔ ∃ localPart remotePart statePart,
      encodeProjection context.localAuthority = some localPart ∧
      encodeProjection context.remoteAuthority = some remotePart ∧ putBytes tlsState = some statePart ∧
      out = localPart ++ (remotePart ++ statePart) ∧ out.length ≤ limit := by
  constructor
  · intro h
    obtain ⟨localPart, hlocal, h⟩ := of_bind h
    obtain ⟨remotePart, hremote, h⟩ := of_bind h
    obtain ⟨statePart, hstate, h⟩ := of_bind h
    dsimp only at h
    split at h
    · rename_i hle
      cases h
      exact ⟨localPart, remotePart, statePart, hlocal, hremote, hstate, rfl, hle⟩
    · cases h
  · rintro ⟨localPart, remotePart, statePart, hlocal, hremote, hstate, rfl, hle⟩
    rw [SessionContext.encode, hlocal, hremote, hstate]
    exact if_pos hle

lemma exact_context (validName : Bytes → Bool) (limits : TlsLimits) :
    Exact (readContext validName limits) fun read bs => read.1.Within validName limits ∧
      ∃ localPart remotePart statePart, encodeProjection read.1.localAuthority = some localPart ∧
        encodeProjection read.1.remoteAuthority = some remotePart ∧ putBytes read.2 = some statePart ∧
        bs = localPart ++ (remotePart ++ statePart) := by
  have hparts := (exact_projection validName limits).bind fun localAuthority =>
    (exact_projection validName limits).bind fun remoteAuthority => exact_bytes.bind fun tlsState =>
      exact_pure (SessionContext.mk localAuthority remoteAuthority, tlsState)
  apply hparts.congr
  intro read bs
  constructor
  · rintro ⟨localAuthority, localPart, _, ⟨hlocal, hlocalPart⟩, ⟨remoteAuthority, remotePart, _,
      ⟨hremote, hremotePart⟩, ⟨tlsState, statePart, _, hstate, ⟨rfl, rfl⟩, rfl⟩, rfl⟩, rfl⟩
    exact ⟨⟨hlocal, hremote⟩, localPart, remotePart, statePart, hlocalPart, hremotePart, hstate, by
      rw [List.append_nil]⟩
  · rintro ⟨⟨hlocal, hremote⟩, localPart, remotePart, statePart, hlocalPart, hremotePart, hstate, rfl⟩
    exact ⟨_, localPart, _, ⟨hlocal, hlocalPart⟩, ⟨_, remotePart, _, ⟨hremote, hremotePart⟩, ⟨_, statePart, [], hstate,
      ⟨rfl, rfl⟩, (List.append_nil _).symm⟩, rfl⟩, rfl⟩

/-- What decodes is exactly what the encoder writes for a context within the limits. In particular nothing follows it. -/
theorem SessionContext.decode_eq_some {encoded : Bytes} :
    SessionContext.decode validName encoded limits = some (context, tlsState) ↔
      context.Within validName limits ∧ context.encode tlsState limits.maxSessionBytes = some encoded := by
  rw [SessionContext.encode_eq_some]
  constructor
  · intro h
    unfold SessionContext.decode at h
    split at h
    · rename_i hlen
      obtain ⟨⟨read, rest⟩, hread, h⟩ := of_bind h
      dsimp only at h
      split at h
      · rename_i hrest
        cases h
        obtain ⟨bs, rfl, hwithin, localPart, remotePart, statePart, hlocal, hremote, hstate, rfl⟩ :=
          (exact_context validName limits _ _ _).mp hread
        subst hrest
        rw [List.append_nil] at hlen ⊢
        exact ⟨hwithin, localPart, remotePart, statePart, hlocal, hremote, hstate, rfl, hlen⟩
      · cases h
    · cases h
  · rintro ⟨hwithin, localPart, remotePart, statePart, hlocal, hremote, hstate, rfl, hlen⟩
    have hread := (exact_context validName limits (localPart ++ (remotePart ++ statePart)) (context, tlsState) []).mpr
      ⟨_, (List.append_nil _).symm, hwithin, localPart, remotePart, statePart, hlocal, hremote, hstate, rfl⟩
    rw [SessionContext.decode, if_pos hlen, hread]
    rfl

end Dquic
