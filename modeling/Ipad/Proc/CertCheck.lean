import Ipad.EimCfg.Der
import Ipad.Proc.MtlAuth

/-!
# Plausibility of a certificate

The check of the server certificate with the arcs that it reads. It compares the value of an extension with
the encoding that has a key identifier and nothing else.
-/

namespace Ipad.Proc.CertCheck
open Lib.Tlv Ipad.EimCfg

def extensionArcsSize : Nat := 256

/-- `OBJECT_IDENTIFIER_get_arcs`: the number of arcs, and those for which there are slots. -/
def objectIdentifierGetArcs (extnID : Option (List Nat)) (arcSlots : Nat) : Int × List Nat :=
  match extnID with
  | none => (-1, [])
  | some arcs => (arcs.length, arcs.take arcSlots)

/-- The comparison reads as many arcs as it compares. -/
def sameArcs (stored wanted : List Nat) : Except Fault Bool :=
  if wanted.length ≤ stored.length then .ok (stored.take wanted.length = wanted) else .error .uninitialised

def isAuthorityKeyIdentifier (extension : Extension) : Except Fault Bool :=
  let (extensionArcsLen, extensionArcs) := objectIdentifierGetArcs extension.extnID extensionArcsSize
  if extensionArcsLen = idCeAuthorityKeyIdentifier.length then sameArcs extensionArcs idCeAuthorityKeyIdentifier
  else .ok false

def checkExtensions (allowedCaTlv : List UInt8) : Bool → List Extension → Except Fault Bool
  | allowedCaPresent, [] => .ok allowedCaPresent
  | allowedCaPresent, extension :: extensions =>
      match isAuthorityKeyIdentifier extension with
      | .error f => .error f
      | .ok identifier =>
          checkExtensions allowedCaTlv
            (if identifier && extension.extnValue = allowedCaTlv then true else allowedCaPresent) extensions

def checkCertificate (allowedCa : Option (List UInt8)) (certificate : Certificate) : Except Fault Bool :=
  match allowedCa with
  | none => .ok true
  | some allowedCa =>
      match certificate.extensions with
      | none => .error .nullDeref
      | some extensions => checkExtensions (allowedCaTlv allowedCa) false extensions

/-! ## The arcs that are read -/

/-- Four arcs are compared where there are four, and they fit into the slots. -/
theorem isAuthorityKeyIdentifier_eq (extension : Extension) :
    isAuthorityKeyIdentifier extension = .ok (extension.extnID = some idCeAuthorityKeyIdentifier) := by
  unfold isAuthorityKeyIdentifier objectIdentifierGetArcs
  cases extension.extnID with
  | none => rfl
  | some arcs =>
      simp only [Int.natCast_inj, Option.some.injEq]
      by_cases four : arcs.length = idCeAuthorityKeyIdentifier.length
      · have fits : arcs.take extensionArcsSize = arcs :=
          List.take_of_length_le (four ▸ (by decide : idCeAuthorityKeyIdentifier.length ≤ extensionArcsSize))
        rw [if_pos four, fits, sameArcs, if_pos (Nat.le_of_eq four.symm), ← four, List.take_length]
      · have apart : arcs ≠ idCeAuthorityKeyIdentifier := fun same => four (congrArg List.length same)
        rw [if_neg four, decide_eq_false apart]

theorem checkExtensions_eq (allowedCa : List UInt8) (allowedCaPresent : Bool) (extensions : List Extension) :
    checkExtensions (allowedCaTlv allowedCa) allowedCaPresent extensions =
      .ok (allowedCaPresent || extensions.any (Extension.allows allowedCa)) := by
  induction extensions generalizing allowedCaPresent with
  | nil => simp [checkExtensions]
  | cons extension extensions ih =>
      rw [checkExtensions, isAuthorityKeyIdentifier_eq]
      simp only
      rw [ih, List.any_cons, ← Bool.or_assoc]
      congr 2
      by_cases allows : extension.extnID = some idCeAuthorityKeyIdentifier ∧
          extension.extnValue = allowedCaTlv allowedCa
      · simp [Extension.allows, allows]
      · simp only [Extension.allows, allows, decide_false, Bool.or_false]
        rw [if_neg]
        simpa using allows

theorem checkCertificate_eq : checkCertificate = Proc.checkCertificate := by
  funext allowedCa certificate
  cases allowedCa with
  | none => rfl
  | some allowedCa =>
      cases extensions : certificate.extensions with
      | none => simp only [checkCertificate, Proc.checkCertificate, extensions]
      | some list =>
          simp only [checkCertificate, Proc.checkCertificate, extensions, checkExtensions_eq, Bool.false_or]

/-! ## Authority key identifiers -/

/-- The members that follow the key identifier are not looked into. -/
structure AuthorityKeyIdentifier where
  keyIdentifier : Option (List UInt8)
  authorityCertIssuer : Option (List UInt8)
  authorityCertSerialNumber : Option (List UInt8)

def AuthorityKeyIdentifier.der (identifier : AuthorityKeyIdentifier) : List UInt8 :=
  tlv [0x30] ((optional [0x80] identifier.keyIdentifier ++ optional [0xA1] identifier.authorityCertIssuer ++
    optional [0x82] identifier.authorityCertSerialNumber).flatMap fun element => tlv element.1 element.2)

def keyIdentifierOnly (allowedCa : List UInt8) : AuthorityKeyIdentifier where
  keyIdentifier := some allowedCa
  authorityCertIssuer := none
  authorityCertSerialNumber := none

theorem allowedCaTlv_eq (allowedCa : List UInt8) (short : allowedCa.length ≤ 123) :
    allowedCaTlv allowedCa = (keyIdentifierOnly allowedCa).der := by
  have inner : tlv [0x80] allowedCa = 0x80 :: UInt8.ofNat allowedCa.length :: allowedCa := by
    rw [tlv, header, derLength_short _ (by omega)]
    rfl
  have content : (optional [0x80] (keyIdentifierOnly allowedCa).keyIdentifier ++
      optional [0xA1] (keyIdentifierOnly allowedCa).authorityCertIssuer ++
      optional [0x82] (keyIdentifierOnly allowedCa).authorityCertSerialNumber).flatMap
        (fun element => tlv element.1 element.2) = 0x80 :: UInt8.ofNat allowedCa.length :: allowedCa := by
    rw [← inner]
    exact List.append_nil _
  rw [AuthorityKeyIdentifier.der, content, tlv, header, derLength_short _ (by simp only [List.length_cons]; omega)]
  rfl

/-- The extension names `allowedCa` as the key of the authority. -/
structure Names (allowedCa : List UInt8) (extension : Extension) : Prop where
  extnID : extension.extnID = some idCeAuthorityKeyIdentifier
  extnValue : ∃ identifier : AuthorityKeyIdentifier,
    extension.extnValue = identifier.der ∧ identifier.keyIdentifier = some allowedCa

structure NamesOnly (allowedCa : List UInt8) (extension : Extension) : Prop where
  extnID : extension.extnID = some idCeAuthorityKeyIdentifier
  extnValue : extension.extnValue = (keyIdentifierOnly allowedCa).der

def Named (allowedCa : Option (List UInt8)) (certificate : Certificate) : Prop :=
  ∀ ca, allowedCa = some ca → ∃ extensions, certificate.extensions = some extensions ∧
    ∃ extension ∈ extensions, Names ca extension

/-- The check returns, and accepts what it is to accept. -/
def Plausible (allowedCa : Option (List UInt8)) (certificate : Certificate) : Prop :=
  ∃ accepted, checkCertificate allowedCa certificate = .ok accepted ∧
    (accepted = true ↔ Named allowedCa certificate)

/-- There are extensions, and where one names the key, one names nothing but the key. -/
def Bare (allowedCa : Option (List UInt8)) (certificate : Certificate) : Prop :=
  ∀ ca, allowedCa = some ca → ∃ extensions, certificate.extensions = some extensions ∧
    ((∃ extension ∈ extensions, Names ca extension) → ∃ extension ∈ extensions, NamesOnly ca extension)

theorem allows_iff (allowedCa : List UInt8) (short : allowedCa.length ≤ 123) (extension : Extension) :
    extension.allows allowedCa = true ↔ NamesOnly allowedCa extension := by
  simp only [Extension.allows, decide_eq_true_eq, allowedCaTlv_eq allowedCa short]
  exact ⟨fun both => ⟨both.1, both.2⟩, fun names => ⟨names.extnID, names.extnValue⟩⟩

theorem NamesOnly.names {allowedCa : List UInt8} {extension : Extension} (names : NamesOnly allowedCa extension) :
    Names allowedCa extension :=
  ⟨names.extnID, _, names.extnValue, rfl⟩

theorem plausible_iff (allowedCa : Option (List UInt8)) (certificate : Certificate)
    (short : ∀ ca, allowedCa = some ca → ca.length ≤ 123) :
    Plausible allowedCa certificate ↔ Bare allowedCa certificate := by
  rw [Plausible, checkCertificate_eq]
  cases allowedCa with
  | none => exact iff_of_true ⟨true, rfl, iff_of_true rfl nofun⟩ nofun
  | some ca =>
      simp only [Bare, Named, Option.some.injEq, forall_eq', Proc.checkCertificate]
      cases certificate.extensions with
      | none => simp
      | some extensions =>
          simp only [Except.ok.injEq, exists_eq_left', Option.some.injEq, List.any_eq_true,
            allows_iff ca (short ca rfl)]
          constructor
          · exact fun same => same.mpr
          · intro bare
            refine ⟨?_, bare⟩
            rintro ⟨extension, member, names⟩
            exact ⟨extension, member, names.names⟩

/-- A certificate whose only extension has the value `identifier`. -/
def issuedUnder (identifier : AuthorityKeyIdentifier) : Certificate where
  content := []
  extensions := some [{ extnID := some idCeAuthorityKeyIdentifier, extnValue := identifier.der }]

theorem issuedUnder_keyIdentifierOnly_plausible : Plausible (some [1]) (issuedUnder (keyIdentifierOnly [1])) := by
  refine (plausible_iff (some [1]) (issuedUnder (keyIdentifierOnly [1])) ?_).mpr ?_
  · intro ca same
    cases same
    decide
  · intro ca same
    cases same
    exact ⟨_, rfl, fun _ => ⟨_, List.mem_singleton_self _, ⟨rfl, rfl⟩⟩⟩

def withSerialNumber : AuthorityKeyIdentifier where
  keyIdentifier := some [1]
  authorityCertIssuer := none
  authorityCertSerialNumber := some [7]

/-- A serial number behind the key identifier makes the check refuse the authority that it names. -/
theorem not_plausible_withSerialNumber : ¬ Plausible (some [1]) (issuedUnder withSerialNumber) := by
  have refused : checkCertificate (some [1]) (issuedUnder withSerialNumber) = .ok false := by
    rw [checkCertificate_eq]
    decide
  have named : Named (some [1]) (issuedUnder withSerialNumber) := by
    intro ca same
    cases same
    exact ⟨_, rfl, _, List.mem_singleton_self _, ⟨rfl, withSerialNumber, rfl, rfl⟩⟩
  rintro ⟨accepted, returned, same⟩
  cases refused.symm.trans returned
  exact Bool.false_ne_true (same.mpr named)

end Ipad.Proc.CertCheck
