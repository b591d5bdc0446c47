import Dquic.Net.Pathway

/-!
# STUN messages

Binding requests and responses of `qbase/src/datagram/stun.rs`: a transaction id and a list of
attributes that ends with the datagram.
-/

namespace Dquic

open Lib Lib.Nom

namespace Stun

/-- `Type`, also known as `MessageType`. -/
inductive MessageType
  | bindingRequest
  | bindingResponse
  deriving DecidableEq, Repr

namespace MessageType

def toByte : MessageType → UInt8
  | bindingRequest => 0
  | bindingResponse => 1

def ofByte (value : Nat) : Option MessageType :=
  if value = 0 then some bindingRequest else if value = 1 then some bindingResponse else none

end MessageType

def stunHeaderBits : Nat := 0b11000010

def stunHeaderMask : Nat := 0b11111110

/-- `be_stun_type`, behind the version. -/
def beStunType (first : Nat) : FieldParser MessageType :=
  if first &&& stunHeaderMask ≠ stunHeaderBits then Nom.fail .verify
  else
    match MessageType.ofByte (first &&& 1) with
    | none => Nom.fail .verify
    | some ty => do
      let reserved ← beUint 2
      let datagramVersion ← beUint 2
      if reserved ≠ 0 ∨ datagramVersion ≠ 0 then Nom.fail .verify else pure ty

abbrev TransactionId := { b : Bytes // b.length = 16 }

def beTransactionId : FieldParser TransactionId := takeArray 16

/-! ### Attributes -/

inductive Attribute
  | mappedAddress (addr : SocketAddr)
  | responseAddress (addr : SocketAddr)
  | changeRequest (flags : UInt8)
  | sourceAddress (addr : SocketAddr)
  | changedAddress (addr : SocketAddr)
  deriving DecidableEq, Repr

inductive AttributeType
  | mappedAddress (family : Family)
  | responseAddress (family : Family)
  | changeRequest (flags : UInt8)
  | sourceAddress (family : Family)
  | changedAddress (family : Family)
  deriving DecidableEq, Repr

namespace AttributeType

def toByte : AttributeType → UInt8
  | mappedAddress .v4 => 0
  | mappedAddress .v6 => 1
  | responseAddress .v4 => 2
  | responseAddress .v6 => 3
  | sourceAddress .v4 => 4
  | sourceAddress .v6 => 5
  | changedAddress .v4 => 6
  | changedAddress .v6 => 7
  | changeRequest flags => 8 ||| flags

def ofByte (value : Nat) : Option AttributeType :=
  match value with
  | 0 => some (mappedAddress .v4)
  | 1 => some (mappedAddress .v6)
  | 2 => some (responseAddress .v4)
  | 3 => some (responseAddress .v6)
  | 4 => some (sourceAddress .v4)
  | 5 => some (sourceAddress .v6)
  | 6 => some (changedAddress .v4)
  | 7 => some (changedAddress .v6)
  | value => if value < 12 then some (changeRequest (UInt8.ofNat (value &&& 0x03))) else none

end AttributeType

namespace Attribute

def attributeType : Attribute → AttributeType
  | mappedAddress addr => .mappedAddress addr.family
  | responseAddress addr => .responseAddress addr.family
  | changeRequest flags => .changeRequest flags
  | sourceAddress addr => .sourceAddress addr.family
  | changedAddress addr => .changedAddress addr.family

/-- What the wire can carry: flags of two bits, and addresses without flow label and scope. -/
def Encodable : Attribute → Prop
  | mappedAddress addr => addr.Plain
  | responseAddress addr => addr.Plain
  | changeRequest flags => flags < 4
  | sourceAddress addr => addr.Plain
  | changedAddress addr => addr.Plain

instance : DecidablePred Encodable
  | mappedAddress addr => inferInstanceAs (Decidable addr.Plain)
  | responseAddress addr => inferInstanceAs (Decidable addr.Plain)
  | changeRequest flags => inferInstanceAs (Decidable (flags < 4))
  | sourceAddress addr => inferInstanceAs (Decidable addr.Plain)
  | changedAddress addr => inferInstanceAs (Decidable addr.Plain)

def beValue : AttributeType → FieldParser Attribute
  | .mappedAddress family => do
    let addr ← beSocketAddr family
    pure (.mappedAddress addr)
  | .responseAddress family => do
    let addr ← beSocketAddr family
    pure (.responseAddress addr)
  | .sourceAddress family => do
    let addr ← beSocketAddr family
    pure (.sourceAddress addr)
  | .changedAddress family => do
    let addr ← beSocketAddr family
    pure (.changedAddress addr)
  | .changeRequest flags => pure (.changeRequest flags)

def beAttr : FieldParser Attribute := do
  let input ← Nom.rest
  if input = [] then Nom.fail .eof
  else do
    let ty ← beUint 1
    match AttributeType.ofByte ty with
    | none => Nom.fail .alt
    | some ty => beValue ty

end Attribute

def putAttribute (attr : Attribute) : Bytes :=
  attr.attributeType.toByte ::
    match attr with
    | .mappedAddress addr => putSocketAddr addr
    | .responseAddress addr => putSocketAddr addr
    | .sourceAddress addr => putSocketAddr addr
    | .changedAddress addr => putSocketAddr addr
    | .changeRequest _ => []

/-! ### Messages -/

structure BindingRequest where
  attributes : List Attribute
  deriving DecidableEq, Repr

structure BindingResponse where
  attributes : List Attribute
  deriving DecidableEq, Repr

inductive Message
  | request (req : BindingRequest)
  | response (resp : BindingResponse)
  deriving DecidableEq, Repr

namespace Message

def messageType : Message → MessageType
  | request _ => .bindingRequest
  | response _ => .bindingResponse

def attributes : Message → List Attribute
  | request req => req.attributes
  | response resp => resp.attributes

def Encodable (message : Message) : Prop := ∀ attr ∈ message.attributes, attr.Encodable

instance (message : Message) : Decidable message.Encodable := inferInstanceAs (Decidable (∀ _ ∈ _, _))

end Message

def beStunMessage (ty : MessageType) : FieldParser Message := do
  let attributes ← many0 NomErrorKind.many0 Attribute.beAttr
  match ty with
  | .bindingRequest => pure (.request ⟨attributes⟩)
  | .bindingResponse => pure (.response ⟨attributes⟩)

def putStunMessage (message : Message) : Bytes := message.attributes.flatMap putAttribute

/-! ### Reading what was written -/

lemma AttributeType.ofByte_toByte_changeRequest {flags : UInt8} (h : flags < 4) :
    ofByte (8 ||| flags).toNat = some (changeRequest flags) := by
  have hlt : flags.toNat < 4 := h
  obtain ⟨n, hn⟩ : ∃ n, flags.toNat = n := ⟨_, rfl⟩
  have hflags : flags = UInt8.ofNat n := by rw [← hn, UInt8.ofNat_toNat]
  rw [hn] at hlt
  rw [hflags]
  interval_cases n <;> rfl

lemma Attribute.ofByte_attributeType {attr : Attribute} (h : attr.Encodable) :
    AttributeType.ofByte attr.attributeType.toByte.toNat = some attr.attributeType := by
  cases attr with
  | changeRequest flags => exact AttributeType.ofByte_toByte_changeRequest h
  | mappedAddress addr | responseAddress addr | sourceAddress addr | changedAddress addr => cases addr <;> rfl

lemma putAttribute_ne_nil (attr : Attribute) : putAttribute attr ≠ [] := List.cons_ne_nil _ _

lemma Attribute.parses_beAttr {attr : Attribute} (h : attr.Encodable) (rest : Bytes) :
    Parses beAttr (putAttribute attr) rest attr := by
  apply Parses.bind_rest
  rw [if_neg (List.append_ne_nil_of_left_ne_nil (putAttribute_ne_nil attr) rest)]
  apply Parses.bind (parses_beU8 attr.attributeType.toByte _)
  rw [ofByte_attributeType h]
  cases attr with
  | changeRequest flags => exact Parses.pure _ rest
  | mappedAddress | responseAddress | sourceAddress | changedAddress => exact (parses_beSocketAddr h rest).map

lemma parses_beStunMessage {message : Message} (h : message.Encodable) :
    Parses (beStunMessage message.messageType) (putStunMessage message) [] message := by
  have hmany : Parses (many0 NomErrorKind.many0 Attribute.beAttr) (putStunMessage message) [] message.attributes := by
    apply parses_many0 _ (show Attribute.beAttr [] = .error (.error NomErrorKind.eof) from rfl)
    intro attr hmem
    exact ⟨putAttribute_ne_nil attr, fun rest => Attribute.parses_beAttr (h attr hmem) rest⟩
  cases message with
  | request req => exact hmany.map
  | response resp => exact hmany.map

end Stun

end Dquic
