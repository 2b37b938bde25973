import Ipad.Utils.Asn1c

/-!
# eIM configuration data

The ASN.1 types of the emulated eIM configuration, and what is used of the encoder and decoder that
asn1c generates for them. What the encoder makes the same bytes of is one value here: it writes times, integers
and the like in their canonical form.
-/

namespace Ipad.EimCfg
open Ipad.Utils

/-- A public key or certificate. A CHOICE decodes to `nothing` when its alternative is not known. In a certificate
there may also be a time that the encoder cannot read, or in either a string without a buffer. -/
inductive KeyData where
  | publicKey (der : List UInt8)
  | certificate (der : List UInt8)
  | malformed (ber : List UInt8)
  | unbuffered (ber : List UInt8)
  | nothing
  deriving DecidableEq, Repr

structure BitString where
  bytes : List UInt8
  bitsUnused : UInt8
  buffered : Bool := true
  deriving DecidableEq, Repr

structure EimConfigurationData where
  eimId : List UInt8
  eimIdBuffered : Bool := true
  eimFqdn : Option OctetString := none
  eimIdType : Option Int := none
  counterValue : Option Int := none
  associationToken : Option Int := none
  eimPublicKeyData : Option KeyData := none
  trustedPublicKeyDataTls : Option KeyData := none
  eimSupportedProtocol : Option BitString := none
  euiccCiPKId : Option OctetString := none
  deriving DecidableEq, Repr

def KeyData.encoding : KeyData → Encoding
  | publicKey _ => .encoded
  | certificate _ => .encoded
  | malformed _ => .refused
  | unbuffered _ => .aborted
  | nothing => .refused

namespace EimConfigurationData

def keysEncoding (cfg : EimConfigurationData) : Encoding :=
  .ofList KeyData.encoding (cfg.eimPublicKeyData.toList ++ cfg.trustedPublicKeyDataTls.toList)

/-- The optional strings. -/
def membersBuffered (cfg : EimConfigurationData) : Bool :=
  cfg.eimFqdn.all OctetString.buffered && cfg.eimSupportedProtocol.all BitString.buffered &&
    cfg.euiccCiPKId.all OctetString.buffered

def encoding (cfg : EimConfigurationData) : Encoding :=
  cfg.keysEncoding.both (.ofBuffered (cfg.eimIdBuffered && cfg.membersBuffered))

def Encodable (cfg : EimConfigurationData) : Prop := cfg.encoding = .encoded

/-- What an update brings: everything but the eimId. -/
def MembersEncodable (cfg : EimConfigurationData) : Prop :=
  cfg.keysEncoding = .encoded ∧ cfg.membersBuffered = true

instance (cfg : EimConfigurationData) : Decidable cfg.Encodable := inferInstanceAs (Decidable (_ = _))

instance (cfg : EimConfigurationData) : Decidable cfg.MembersEncodable := inferInstanceAs (Decidable (_ ∧ _))

theorem encodable_iff (cfg : EimConfigurationData) :
    cfg.Encodable ↔ cfg.eimIdBuffered = true ∧ cfg.MembersEncodable := by
  simp only [Encodable, encoding, MembersEncodable, Encoding.both_eq_encoded, Encoding.ofBuffered_eq_encoded,
    Bool.and_eq_true]
  exact and_left_comm

end EimConfigurationData

def emptyEimCfg : List UInt8 := [0xBF, 0x55, 0x02, 0xA0, 0x00]

/-- The AddInitialEimRequest encoder, as the buffer that it fills for a list it takes, and the two decoders. What
was encoded comes back as it was. The two types differ in the second tag byte only. -/
structure EimCfgCodec where
  der : List EimConfigurationData → IpaBuf
  decAddInitialEimRequest : List UInt8 → Option (List EimConfigurationData)
  decGetEimConfigurationDataResponse : List UInt8 → Option (List EimConfigurationData)
  der_valid : ∀ list, (der list).Valid
  der_nonempty : ∀ list, (der list).len ≠ 0
  dec_der : ∀ list, (∀ cfg ∈ list, cfg.Encodable) → decAddInitialEimRequest (der list).bytes = some list
  dec_der_patched : ∀ list, (∀ cfg ∈ list, cfg.Encodable) →
    decGetEimConfigurationDataResponse ((der list).bytes.set 1 0x55) = some list
  dec_empty : decGetEimConfigurationDataResponse emptyEimCfg = some []

namespace EimCfgCodec
variable (codec : EimCfgCodec)

def encAddInitialEimRequest (list : List EimConfigurationData) : Except Fault (Option IpaBuf) :=
  match Encoding.ofList EimConfigurationData.encoding list with
  | .encoded => .ok (some (codec.der list))
  | .refused => .ok none
  | .aborted => .error .assertion

def ipaAsn1cDup (list : List EimConfigurationData) : Except Fault (Option (List EimConfigurationData)) :=
  (codec.encAddInitialEimRequest list).map fun encoded =>
    encoded.bind fun buf => codec.decAddInitialEimRequest buf.bytes

variable {list : List EimConfigurationData}

theorem encAddInitialEimRequest_encodable (encodable : ∀ cfg ∈ list, cfg.Encodable) :
    codec.encAddInitialEimRequest list = .ok (some (codec.der list)) := by
  rw [encAddInitialEimRequest, (Encoding.ofList_eq_encoded _ _).mpr encodable]

theorem encAddInitialEimRequest_some {buf : IpaBuf} (encoded : codec.encAddInitialEimRequest list = .ok (some buf)) :
    (∀ cfg ∈ list, cfg.Encodable) ∧ buf = codec.der list := by
  unfold encAddInitialEimRequest at encoded
  split at encoded
  next all =>
    cases encoded
    exact ⟨(Encoding.ofList_eq_encoded _ _).mp all, rfl⟩
  · cases encoded
  · cases encoded

theorem ipaAsn1cDup_encodable (encodable : ∀ cfg ∈ list, cfg.Encodable) :
    codec.ipaAsn1cDup list = .ok (some list) := by
  rw [ipaAsn1cDup, codec.encAddInitialEimRequest_encodable encodable]
  exact congrArg Except.ok (codec.dec_der list encodable)

theorem ipaAsn1cDup_not_encodable (lacks : ¬ ∀ cfg ∈ list, cfg.Encodable) :
    codec.ipaAsn1cDup list = .ok none ∨ codec.ipaAsn1cDup list = .error .assertion := by
  unfold ipaAsn1cDup encAddInitialEimRequest
  split
  next all => exact absurd ((Encoding.ofList_eq_encoded _ _).mp all) lacks
  · exact .inl rfl
  · exact .inr rfl

end EimCfgCodec

end Ipad.EimCfg
