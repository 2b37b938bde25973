import Ipad.EimCfg.Data

/-!
# DER of the eIM configuration

An instance of the codec: DER as asn1c writes it, read back by a reader of elements. It is used for what can be
encoded, so all strings have their buffers.
-/

namespace Ipad.EimCfg
open Lib.Tlv Ipad.Utils

def derKeyData : KeyData → List UInt8
  | .publicKey der => tlv [0xA0] der
  | .certificate der => tlv [0xA1] der
  | _ => []

def readKeyData (bytes : List UInt8) : KeyData :=
  match readTlv bytes with
  | some ([0xA0], der, []) => .publicKey der
  | some ([0xA1], der, []) => .certificate der
  | _ => .nothing

def derBitString (bits : BitString) : List UInt8 := bits.bitsUnused :: bits.bytes

def readBitString (bytes : List UInt8) : BitString := ⟨bytes.tail, bytes.headD 0, true⟩

def optional (tag : List UInt8) (content : Option (List UInt8)) : List (List UInt8 × List UInt8) :=
  (content.map fun content => (tag, content)).toList

def eimCfgElements (cfg : EimConfigurationData) : List (List UInt8 × List UInt8) :=
  [([0x80], cfg.eimId)] ++ optional [0x81] (cfg.eimFqdn.map OctetString.bytes) ++
    optional [0x82] (cfg.eimIdType.map derInteger) ++ optional [0x83] (cfg.counterValue.map derInteger) ++
    optional [0x84] (cfg.associationToken.map derInteger) ++
    optional [0xA5] (cfg.eimPublicKeyData.map derKeyData) ++
    optional [0xA6] (cfg.trustedPublicKeyDataTls.map derKeyData) ++
    optional [0x87] (cfg.eimSupportedProtocol.map derBitString) ++
    optional [0x88] (cfg.euiccCiPKId.map OctetString.bytes)

def derEimCfg (cfg : EimConfigurationData) : List UInt8 :=
  (eimCfgElements cfg).flatMap fun element => tlv element.1 element.2

def readEimCfg (bytes : List UInt8) : Option EimConfigurationData :=
  match readTlvs bytes with
  | none => none
  | some elements =>
      (elements.lookup [0x80]).map fun eimId =>
        { eimId
          eimFqdn := (elements.lookup [0x81]).map .octets
          eimIdType := (elements.lookup [0x82]).map readInteger
          counterValue := (elements.lookup [0x83]).map readInteger
          associationToken := (elements.lookup [0x84]).map readInteger
          eimPublicKeyData := (elements.lookup [0xA5]).map readKeyData
          trustedPublicKeyDataTls := (elements.lookup [0xA6]).map readKeyData
          eimSupportedProtocol := (elements.lookup [0x87]).map readBitString
          euiccCiPKId := (elements.lookup [0x88]).map .octets }

def derEimCfgList (tag : List UInt8) (list : List EimConfigurationData) : List UInt8 :=
  tlv tag (tlv [0xA0] ((list.map fun cfg => ([0x30], derEimCfg cfg)).flatMap
    fun element : List UInt8 × List UInt8 => tlv element.1 element.2))

def readEimCfgList (tag bytes : List UInt8) : Option (List EimConfigurationData) :=
  match readTlv bytes with
  | none => none
  | some (found, content, _) =>
      match readTlv content with
      | none => none
      | some (_, entries, _) =>
          if found = tag then
            (readTlvs entries).bind fun elements => elements.mapM fun element => readEimCfg element.2
          else none

theorem readKeyData_derKeyData (key : KeyData) (encodable : key.encoding = .encoded) :
    readKeyData (derKeyData key) = key := by
  cases key with
  | publicKey der =>
      have read := readTlv_tlv [0xA0] der [] (.one _ (by decide))
      rw [List.append_nil] at read
      simp [readKeyData, derKeyData, read]
  | certificate der =>
      have read := readTlv_tlv [0xA1] der [] (.one _ (by decide))
      rw [List.append_nil] at read
      simp [readKeyData, derKeyData, read]
  | malformed ber => cases encodable
  | unbuffered ber => cases encodable
  | nothing => cases encodable

theorem map_octets_bytes {member : Option OctetString} (buffered : member.all OctetString.buffered = true) :
    (member.map OctetString.bytes).map .octets = member := by
  cases member with
  | none => rfl
  | some st => exact congrArg some ((OctetString.buffered_iff st).mp buffered).symm

theorem map_readKeyData {member : Option KeyData} (encodable : ∀ key ∈ member, key.encoding = .encoded) :
    (member.map derKeyData).map readKeyData = member := by
  cases member with
  | none => rfl
  | some key => exact congrArg some (readKeyData_derKeyData key (encodable key rfl))

theorem map_readBitString {member : Option BitString} (buffered : member.all BitString.buffered = true) :
    (member.map derBitString).map readBitString = member := by
  cases member with
  | none => rfl
  | some bits =>
      obtain ⟨bytes, unused, _ | _⟩ := bits
      · cases buffered
      · rfl

theorem lookup_optional (tag other : List UInt8) (content : Option (List UInt8)) :
    (optional tag content).lookup other = if other = tag then content else none := by
  cases content with
  | none => simp [optional]
  | some content =>
      by_cases same : other = tag
      · simp [optional, same]
      · have apart : (other == tag) = false := by simpa using same
        simp [optional, List.lookup_cons, apart, same]

theorem known_optional (tag : List UInt8) (known : ShortTag tag) (content : Option (List UInt8)) :
    ∀ element ∈ optional tag content, ShortTag element.1 := by
  cases content <;> simp [optional, known]

theorem readEimCfg_derEimCfg (cfg : EimConfigurationData) (encodable : cfg.Encodable) :
    readEimCfg (derEimCfg cfg) = some cfg := by
  have known : ∀ element ∈ eimCfgElements cfg, ShortTag element.1 := by
    have single : ∀ tag : UInt8, tag &&& 0x1f ≠ 0x1f → ∀ content, ∀ element ∈ optional [tag] content,
        ShortTag element.1 := fun tag low => known_optional [tag] (.one tag low)
    intro element member
    simp only [eimCfgElements, List.mem_append, List.mem_singleton, or_assoc] at member
    rcases member with rfl | member | member | member | member | member | member | member | member
    · exact .one _ (by decide)
    all_goals exact single _ (by decide) _ element member
  obtain ⟨ownId, keys, members⟩ := cfg.encodable_iff.mp encodable
  simp only [EimConfigurationData.membersBuffered, Bool.and_eq_true] at members
  obtain ⟨⟨fqdn, protocol⟩, ciPKId⟩ := members
  have keys : ∀ key ∈ cfg.eimPublicKeyData.toList ++ cfg.trustedPublicKeyDataTls.toList, key.encoding = .encoded :=
    (Encoding.ofList_eq_encoded _ _).mp keys
  have publicKey := map_readKeyData fun key member =>
    keys key (List.mem_append_left _ (Option.mem_toList.mpr member))
  have trusted := map_readKeyData fun key member =>
    keys key (List.mem_append_right _ (Option.mem_toList.mpr member))
  have integers (member : Option Int) : (member.map derInteger).map readInteger = member := by
    cases member <;> simp [readInteger_derInteger]
  rw [readEimCfg, derEimCfg, readTlvs_flatMap _ known]
  obtain ⟨eimId, eimIdBuffered⟩ := cfg
  obtain rfl : eimIdBuffered = true := ownId
  simp [eimCfgElements, List.lookup_append, lookup_optional, List.lookup_cons, -Option.map_map, integers, publicKey,
    trusted, map_octets_bytes fqdn, map_octets_bytes ciPKId, map_readBitString protocol]

theorem readEimCfgList_derEimCfgList (tag : List UInt8) (known : ShortTag tag)
    (list : List EimConfigurationData) (encodable : ∀ cfg ∈ list, cfg.Encodable) :
    readEimCfgList tag (derEimCfgList tag list) = some list := by
  have outer := readTlv_tlv tag (tlv [0xA0] ((list.map fun cfg => ([0x30], derEimCfg cfg)).flatMap
    fun element : List UInt8 × List UInt8 => tlv element.1 element.2)) [] known
  have inner := readTlv_tlv [0xA0] ((list.map fun cfg => ([0x30], derEimCfg cfg)).flatMap
    fun element : List UInt8 × List UInt8 => tlv element.1 element.2) [] (.one _ (by decide))
  have entries := readTlvs_flatMap (list.map fun cfg => ([0x30], derEimCfg cfg)) (by
    intro element member
    obtain ⟨cfg, -, rfl⟩ := List.mem_map.mp member
    exact .one _ (by decide))
  rw [List.append_nil] at outer inner
  have each : (list.map fun cfg => (([0x30] : List UInt8), derEimCfg cfg)).mapM
      (fun element => readEimCfg element.2) = some list := by
    clear outer inner entries
    induction list with
    | nil => rfl
    | cons cfg list ih =>
        rw [List.forall_mem_cons] at encodable
        simp [readEimCfg_derEimCfg cfg encodable.1, ih encodable.2]
  simp only [readEimCfgList, derEimCfgList, outer, inner, if_true, entries, Option.bind_some, each]

def encodedBuf (bytes : List UInt8) : IpaBuf :=
  { data := bytes ++ List.replicate (((bytes.length / 5120 + 1) * 5120) - bytes.length) 0
    len := bytes.length }

theorem encodedBuf_bytes (bytes : List UInt8) : (encodedBuf bytes).bytes = bytes := List.take_left

def derCodec : EimCfgCodec where
  der list := encodedBuf (derEimCfgList [0xBF, 0x57] list)
  decAddInitialEimRequest := readEimCfgList [0xBF, 0x57]
  decGetEimConfigurationDataResponse := readEimCfgList [0xBF, 0x55]
  der_valid list := by simp [IpaBuf.Valid, IpaBuf.dataLen, encodedBuf]
  der_nonempty list := by simp [encodedBuf, derEimCfgList, tlv, header]
  dec_der list encodable := by
    rw [encodedBuf_bytes]
    exact readEimCfgList_derEimCfgList _ (.two _ _ (by decide)) list encodable
  dec_der_patched list encodable := by
    rw [encodedBuf_bytes]
    exact readEimCfgList_derEimCfgList [0xBF, 0x55] (.two _ _ (by decide)) list encodable
  dec_empty := by decide

end Ipad.EimCfg
