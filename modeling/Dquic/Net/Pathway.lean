import Dquic.Net.Addr

/-!
# Pathways on the wire

The endpoints of `qbase/src/net/addr.rs` and `Pathway` of `qbase/src/net/route.rs` as a forwarded
datagram carries them.
-/

namespace Dquic

open Lib Lib.Nom

namespace SocketAddr

def unscoped : SocketAddr → SocketAddr
  | v4 ip port => v4 ip port
  | v6 ip port _ _ => v6 ip port 0 0

lemma plain_unscoped (addr : SocketAddr) : addr.unscoped.Plain := by
  cases addr with
  | v4 ip port => trivial
  | v6 ip port flowinfo scopeId => exact ⟨rfl, rfl⟩

lemma unscoped_eq_self {addr : SocketAddr} : addr.unscoped = addr ↔ addr.Plain := by
  constructor
  · intro h
    rw [← h]
    exact addr.plain_unscoped
  · intro h
    cases addr with
    | v4 ip port => rfl
    | v6 ip port flowinfo scopeId =>
      obtain ⟨rfl, rfl⟩ := h
      rfl

instance (addr : SocketAddr) : Decidable addr.Plain := decidable_of_iff _ unscoped_eq_self

end SocketAddr

lemma parses_beSocketAddr_unscoped (addr : SocketAddr) (rest : Bytes) :
    Parses (beSocketAddr addr.family) (putSocketAddr addr) rest addr.unscoped := by
  have h := parses_beSocketAddr addr.plain_unscoped rest
  cases addr with
  | v4 ip port => exact h
  | v6 ip port flowinfo scopeId => exact h

def Family.ofByte (value : Nat) : Family := if value = 0 then .v4 else .v6

def Family.toByte : Family → UInt8
  | .v4 => 0
  | .v6 => 1

namespace EndpointKind

def ofByte (value : Nat) : EndpointKind := if value = 0 then .direct else .mediate

def toByte : EndpointKind → UInt8
  | direct => 0
  | mediate => 1

end EndpointKind

variable {e : EndpointAddr}

namespace EndpointAddr

/-- `deref`: the address that packets are sent to. -/
def deref : EndpointAddr → SocketAddr
  | direct addr => addr
  | mediate agent _ => agent

def family (e : EndpointAddr) : Family := e.deref.family

/-- Addresses of two families in one endpoint are not implemented. -/
def encodingSize : EndpointAddr → Option Nat
  | direct addr => some addr.encodingSize
  | mediate (.v4 _ _) (.v4 _ _) => some (2 + 4 + 2 + 4)
  | mediate (.v6 _ _ _ _) (.v6 _ _ _ _) => some (2 + 16 + 2 + 16)
  | mediate _ _ => none

def Plain : EndpointAddr → Prop
  | direct addr => addr.Plain
  | mediate agent outer => agent.Plain ∧ outer.Plain

def unscoped : EndpointAddr → EndpointAddr
  | direct addr => direct addr.unscoped
  | mediate agent outer => mediate agent.unscoped outer.unscoped

lemma unscoped_eq_self : e.unscoped = e ↔ e.Plain := by
  cases e with
  | direct addr => simp only [unscoped, Plain, direct.injEq, SocketAddr.unscoped_eq_self]
  | mediate agent outer => simp only [unscoped, Plain, mediate.injEq, SocketAddr.unscoped_eq_self]

def Of (e : EndpointAddr) (family : Family) : Prop := e.family = family ∧ e.addr.family = family

instance (e : EndpointAddr) (family : Family) : Decidable (e.Of family) := inferInstanceAs (Decidable (_ ∧ _))

end EndpointAddr

def putEndpointAddr : EndpointAddr → Bytes
  | .direct addr => putSocketAddr addr
  | .mediate agent outer => putSocketAddr agent ++ putSocketAddr outer

def beEndpointAddr (family : Family) (kind : EndpointKind) : FieldParser EndpointAddr :=
  match kind with
  | .direct => do
    let addr ← beSocketAddr family
    pure (.direct addr)
  | .mediate => do
    let agent ← beSocketAddr family
    let outer ← beSocketAddr family
    pure (.mediate agent outer)

lemma EndpointAddr.Of.encodingSize {family : Family} (h : e.Of family) :
    e.encodingSize = some (putEndpointAddr e).length := by
  cases e with
  | direct addr => rw [putEndpointAddr, length_putSocketAddr, EndpointAddr.encodingSize]
  | mediate agent outer =>
    rw [putEndpointAddr, List.length_append, length_putSocketAddr, length_putSocketAddr]
    obtain ⟨hagent, houter⟩ := h
    have hsame : agent.family = outer.family := hagent.trans houter.symm
    cases agent with
    | v4 ip port =>
      cases outer with
      | v4 ip' port' => rfl
      | v6 ip' port' flowinfo' scopeId' => cases hsame
    | v6 ip port flowinfo scopeId =>
      cases outer with
      | v4 ip' port' => cases hsame
      | v6 ip' port' flowinfo' scopeId' => rfl

lemma parses_beEndpointAddr {family : Family} (h : e.Of family) (rest : Bytes) :
    Parses (beEndpointAddr family e.kind) (putEndpointAddr e) rest e.unscoped := by
  cases e with
  | direct addr =>
    obtain ⟨rfl, -⟩ := h
    exact (parses_beSocketAddr_unscoped addr rest).map
  | mediate agent outer =>
    obtain ⟨rfl, houter⟩ := h
    apply Parses.bind (parses_beSocketAddr_unscoped agent _)
    have hparses := (parses_beSocketAddr_unscoped outer rest).map (f := fun outer => EndpointAddr.mediate agent.unscoped outer)
    rwa [show outer.family = (EndpointAddr.mediate agent outer).family from houter] at hparses

/-! ### Pathways -/

structure Pathway where
  localAddr : EndpointAddr
  remoteAddr : EndpointAddr
  deriving DecidableEq, Repr

namespace Pathway

def Plain (p : Pathway) : Prop := p.localAddr.Plain ∧ p.remoteAddr.Plain

def unscoped (p : Pathway) : Pathway := ⟨p.localAddr.unscoped, p.remoteAddr.unscoped⟩

def Uniform (p : Pathway) : Prop := p.localAddr.Of p.localAddr.family ∧ p.remoteAddr.Of p.localAddr.family

instance (p : Pathway) : Decidable p.Uniform := inferInstanceAs (Decidable (_ ∧ _))

lemma unscoped_eq_self {p : Pathway} : p.unscoped = p ↔ p.Plain := by
  cases p with
  | mk localAddr remoteAddr => simp only [unscoped, Plain, mk.injEq, EndpointAddr.unscoped_eq_self]

end Pathway

def putPathway (p : Pathway) : Bytes := putEndpointAddr p.localAddr ++ putEndpointAddr p.remoteAddr

def bePathway (family : Family) (localKind remoteKind : EndpointKind) : FieldParser Pathway := do
  let localAddr ← beEndpointAddr family localKind
  let remoteAddr ← beEndpointAddr family remoteKind
  pure ⟨localAddr, remoteAddr⟩

lemma parses_bePathway {p : Pathway} (h : p.Uniform) (rest : Bytes) :
    Parses (bePathway p.localAddr.family p.localAddr.kind p.remoteAddr.kind) (putPathway p) rest p.unscoped := by
  apply Parses.bind (parses_beEndpointAddr h.1 _)
  exact (parses_beEndpointAddr h.2 rest).map

end Dquic
