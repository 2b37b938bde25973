import Ipad.Proc.CertCheck
import Ipad.Proc.Envelopes
import Ipad.Proc.MtlAuthGate

/-!
# The parties of a download

An eUICC and an SM-DP+ that check what they get of each other. The IPAd and the eIM stand between them.
-/

namespace Ipad.Proc
open Lib.Dialogue Lib.Tlv Ipad.EimCfg Ipad.Nvstate Ipad.BppSegments Ipad.Utils

/-! ## Values with and without an envelope -/

/-- With or without its envelope the value is what is left of it. -/
structure Sendable (tag : Tag) (value : List UInt8) : Prop where
  short : value.length < 65536
  readable : value.length ≠ 127
  plain : ∀ rest, ¬ LooksWrapped tag value rest

def sent (wrapped : Bool) (tag : Tag) (value : List UInt8) : List UInt8 :=
  if wrapped then tlv tag.bytes value else value

theorem Sendable.stripped {tag : Tag} {value : List UInt8} (sendable : Sendable tag value) (wrapped : Bool) :
    ipaStripTlvEnvelope (sent wrapped tag value) tag.value = value := by
  have short := sendable.short
  cases wrapped with
  | true => exact ipaStripTlvEnvelope_wrapped (looksWrapped_tlv tag value (by omega) sendable.readable)
  | false =>
      have fits : value.length < einvalSize := Nat.lt_trans short (by decide)
      exact ipaStripTlvEnvelope_unwrapped fits sendable.plain

theorem sendable_of_head {tag : Tag} {value : List UInt8} (short : value.length < 127)
    (apart : value.head? ≠ tag.bytes.head?) : Sendable tag value where
  short := by omega
  readable := Nat.ne_of_lt short
  plain := by
    rintro rest ⟨field, -, rfl⟩
    apply apart
    cases tag with
    | one => rfl
    | two => rfl

/-! ## Who they are -/

/-- `accepts1` and `accepts2` are the checks of the eUICC, `reads1` and `reads2` those of the SM-DP+. -/
structure Parties where
  euiccInfo1 : EuiccInfo1
  challenge : Nat → List UInt8
  accepts1 : AuthenticateServerRequest → Bool
  signs1 : ServerSigned1 → CtxParams1 → List UInt8
  accepts2 : PrepareDownloadRequest → Option (List UInt8)
  signs2 : (transactionId : List UInt8) → List UInt8
  whole : (package : List UInt8) → Bool
  report : (seqNumber : Nat) → PrfleInstRslt
  address : List UInt8
  transactionId : Nat → List UInt8
  serverChallenge : Nat → List UInt8
  keyId : List UInt8
  serverCertificate : Certificate
  serverSignature1 : ServerSigned1 → List UInt8
  reads1 : List UInt8 → Option (List UInt8 × List UInt8 × Option (List UInt8))
  smdpSigned2 : (transactionId : List UInt8) → List UInt8
  smdpSignature2 : (transactionId : List UInt8) → List UInt8
  smdpCertificate : Certificate
  hashCc : Option (List UInt8)
  reads2 : List UInt8 → Option (List UInt8)
  profile : (matchingId : Option (List UInt8)) → Option BoundProfilePackage
  /-- The eIM leaves the envelopes of the signatures. -/
  wrapped : Bool
  consents : (smDpPlusAddress acToken : List UInt8) → Bool

def Parties.serverSigned1 (p : Parties) (session : Nat) (euiccChallenge : List UInt8) : ServerSigned1 where
  transactionId := p.transactionId session
  euiccChallenge
  serverAddress := p.address
  serverChallenge := p.serverChallenge session

/-- They can deal with each other, and the IPAd can read what they send. -/
structure Parties.Agree (p : Parties) (asn1c : Asn1c) : Prop where
  challenge : ∀ session, (p.challenge session).length = ipaLenEuiccChlg
  transactionId : ∀ session, (p.transactionId session).length ≤ transactionIdSize
  keyId : Sendable keyIdTag p.keyId
  signature1 : ∀ signed, Sendable signatureTag (p.serverSignature1 signed)
  signature2 : ∀ transactionId, Sendable signatureTag (p.smdpSignature2 transactionId)
  certificate : checkCertificate (some p.keyId) p.serverCertificate = .ok true
  accepts1 : ∀ signed ctxParams1, p.accepts1
    { serverSigned1 := signed, serverSignature1 := p.serverSignature1 signed, euiccCiPKIdToBeUsed := p.keyId
      serverCertificate := p.serverCertificate, ctxParams1 } = true
  reads1 : ∀ session euiccChallenge ctxParams1,
    p.reads1 (p.signs1 (p.serverSigned1 session euiccChallenge) ctxParams1) =
      some (p.transactionId session, p.serverChallenge session, ctxParams1.matchingId)
  accepts2 : ∀ transactionId, p.accepts2
    { smdpSigned2 := p.smdpSigned2 transactionId, smdpSignature2 := p.smdpSignature2 transactionId
      hashCc := p.hashCc, smdpCertificate := p.smdpCertificate } = some transactionId
  reads2 : ∀ transactionId, p.reads2 (p.signs2 transactionId) = some transactionId
  report : ∀ seqNumber, (p.report seqNumber).seqNumber = seqNumber
  segmentation : ∀ matchingId bpp, p.profile matchingId = some bpp →
    Segmentation bpp (ipaBppSegmentsEncode asn1c bpp)
  within : ∀ matchingId bpp segments, p.profile matchingId = some bpp →
    ipaBppSegmentsEncode asn1c bpp = .ok (some segments) → ∀ segment ∈ segments, segment.Valid
  whole : ∀ matchingId bpp, p.profile matchingId = some bpp → ∀ front, front <+: derBoundProfilePackage bpp →
    (p.whole front = true ↔ front = derBoundProfilePackage bpp)

/-! ## What they do -/

inductive EuiccSession where
  | idle
  | challenged (challenge : List UInt8)
  | authenticated (transactionId : List UInt8)
  | prepared (transactionId received : List UInt8)

inductive SmdpSession where
  | idle
  | initiated (signed : ServerSigned1)
  | authenticated (transactionId : List UInt8) (bpp : BoundProfilePackage)
  | bound (transactionId : List UInt8)

def EuiccSession.transactionId : EuiccSession → Option (List UInt8)
  | .idle => none
  | .challenged _ => none
  | .authenticated transactionId => some transactionId
  | .prepared transactionId _ => some transactionId

def SmdpSession.transactionId : SmdpSession → Option (List UInt8)
  | .idle => none
  | .initiated signed => some signed.transactionId
  | .authenticated transactionId _ => some transactionId
  | .bound transactionId => some transactionId

structure Chain where
  sessions : Nat
  euicc : EuiccSession
  smdp : SmdpSession
  nextSeqNumber : Nat
  installed : List (List UInt8)
  notifications : List Nat
  handled : List PendingNotification

def Chain.enter (c : Chain) (euicc : EuiccSession) (smdp : SmdpSession) : Chain := { c with euicc, smdp }

def Chain.next (c : Chain) : Chain := { c with sessions := c.sessions + 1 }

def refusal : Int := 8

section
variable (p : Parties)

def Parties.initiateAuthenticationOk (signed : ServerSigned1) : InitiateAuthenticationOk where
  serverSigned1 := signed
  serverSignature1 := .octets (sent p.wrapped signatureTag (p.serverSignature1 signed))
  euiccCiPKIdToBeUsed := .octets (sent p.wrapped keyIdTag p.keyId)
  serverCertificate := p.serverCertificate

def Parties.initiate (c : Chain) (req : InitiateAuthenticationRequest) : Chain × InitiateAuthenticationResponse :=
  if req.smdpAddress.map (List.map toUpper) = some (p.address.map toUpper) ∧
      req.euiccInfo1.euiccCiPKIdListForVerification.any (· = p.keyId) = true then
    let signed := p.serverSigned1 c.sessions req.euiccChallenge
    ({ c with smdp := .initiated signed }, .initiateAuthenticationOk (p.initiateAuthenticationOk signed))
  else (c, .initiateAuthenticationError refusal)

def Parties.authenticateServer (c : Chain) (req : AuthenticateServerRequest) : Chain × AuthenticateServerResponse :=
  match c.euicc with
  | .challenged challenge =>
      if req.serverSigned1.euiccChallenge = challenge ∧ p.accepts1 req = true then
        ({ c with euicc := .authenticated req.serverSigned1.transactionId },
          .authenticateResponseOk (p.signs1 req.serverSigned1 req.ctxParams1))
      else (c, .authenticateResponseError refusal)
  | _ => (c, .authenticateResponseError refusal)

def Parties.authenticateClientOkDpe (transactionId : List UInt8) : AuthenticateClientOkDpe where
  transactionId := some transactionId
  smdpSigned2 := p.smdpSigned2 transactionId
  smdpSignature2 := .octets (sent p.wrapped signatureTag (p.smdpSignature2 transactionId))
  smdpCertificate := p.smdpCertificate
  hashCc := p.hashCc

def Parties.authenticateClient (c : Chain) (req : AuthenticateClientRequest) : Chain × AuthenticateClientResponse :=
  match c.smdp, req.authenticateServerResponse with
  | .initiated signed, .authenticateResponseOk content =>
      match p.reads1 content with
      | none => (c, .authenticateClientError refusal)
      | some (transactionId, serverChallenge, matchingId) =>
          if transactionId = signed.transactionId ∧ serverChallenge = signed.serverChallenge then
            match p.profile matchingId with
            | none => (c, .authenticateClientError refusal)
            | some bpp =>
                ({ c with smdp := .authenticated signed.transactionId bpp },
                  .authenticateClientOkDpe (p.authenticateClientOkDpe signed.transactionId))
          else (c, .authenticateClientError refusal)
  | _, _ => (c, .authenticateClientError refusal)

def Parties.prepareDownload (c : Chain) (req : PrepareDownloadRequest) : Chain × PrepareDownloadResponse :=
  match c.euicc with
  | .authenticated transactionId =>
      if p.accepts2 req = some transactionId then
        ({ c with euicc := .prepared transactionId [] },
          .downloadResponseOk transactionId (p.signs2 transactionId))
      else (c, .downloadResponseError transactionId refusal)
  | _ => (c, .nothing)

def Parties.bind (c : Chain) (req : GetBoundProfilePackageRequest) : Chain × GetBoundProfilePackageResponse :=
  match c.smdp, req.prepareDownloadResponse with
  | .authenticated transactionId bpp, .downloadResponseOk _ content =>
      if p.reads2 content = some transactionId then
        ({ c with smdp := .bound transactionId }, .getBoundProfilePackageOk bpp)
      else (c, .getBoundProfilePackageError refusal)
  | _, _ => (c, .getBoundProfilePackageError refusal)

def Chain.receive (c : Chain) (transactionId received : List UInt8) : Chain :=
  { c with euicc := .prepared transactionId received }

def Chain.install (c : Chain) (package : List UInt8) : Chain :=
  { c with
    euicc := .idle
    nextSeqNumber := c.nextSeqNumber + 1
    installed := c.installed ++ [package]
    notifications := c.nextSeqNumber :: c.notifications }

def Parties.load (c : Chain) (segment : List UInt8) : Chain × SegmentAnswer :=
  match c.euicc with
  | .prepared transactionId received =>
      if p.whole (received ++ segment) then
        (c.install (received ++ segment), .installed (p.report c.nextSeqNumber))
      else (c.receive transactionId (received ++ segment), .empty)
  | _ => (c, .noResponse)

def Chain.cancelSession (c : Chain) (transactionId : List UInt8) : Chain × CancelSessionResponse :=
  if c.euicc.transactionId = some transactionId then
    ({ c with euicc := .idle }, .cancelSessionResponseOk transactionId [])
  else (c, .cancelSessionResponseError refusal)

def Chain.cancelSessionEsipa (c : Chain) (transactionId : List UInt8) :
    ForwardedCancelResponse → Chain × CancelSessionResponseEsipa
  | .cancelSessionResponseOk _ _ =>
      if c.smdp.transactionId = some transactionId then ({ c with smdp := .idle }, .cancelSessionOk)
      else (c, .cancelSessionError refusal)
  | .cancelSessionResponseError _ => (c, .cancelSessionError refusal)

/-- The result of the installation ends the session. -/
def Chain.handle (c : Chain) : PendingNotification → Chain
  | .profileInstallationResult result =>
      { c with smdp := .idle, handled := c.handled ++ [.profileInstallationResult result] }
  | notification => { c with handled := c.handled ++ [notification] }

def Chain.remove (c : Chain) : (seqNumber : Int) → Chain
  | .ofNat n => { c with notifications := c.notifications.erase n }
  | .negSucc _ => c

def Parties.serve (c : Chain) : (req : Req) → Option (Chain × Ans req)
  | .getEuiccInfo1 => some (c, some p.euiccInfo1)
  | .getEuiccChallenge =>
      some (c.next.enter (.challenged (p.challenge c.sessions)) c.smdp, some (p.challenge c.sessions))
  | .initiateAuthentication req => some ((p.initiate c req).1, some (p.initiate c req).2)
  | .authenticateServer req => some ((p.authenticateServer c req).1, some (p.authenticateServer c req).2)
  | .authenticateClient req => some ((p.authenticateClient c req).1, some (p.authenticateClient c req).2)
  | .prepareDownload req => some ((p.prepareDownload c req).1, some (p.prepareDownload c req).2)
  | .getBoundProfilePackage req => some ((p.bind c req).1, some (p.bind c req).2)
  | .prfleInstConsent smDpPlusAddress acToken => some (c, p.consents smDpPlusAddress acToken)
  | .loadBoundProfilePackage segment => some ((p.load c segment).1, (p.load c segment).2)
  | .enableProfile _ _ => some (c, some 0)
  | .enableUsingDd => some (c, some 0)
  | .handleNotification notification => some (c.handle notification, some 0)
  | .removeNotificationFromList seqNumber => some (c.remove seqNumber, some 0)
  | .cancelSession transactionId _ =>
      some ((c.cancelSession transactionId).1, some (c.cancelSession transactionId).2)
  | .cancelSessionEsipa transactionId response =>
      some ((c.cancelSessionEsipa transactionId response).1, some (c.cancelSessionEsipa transactionId response).2)
  | .mark _ => some (c, ())
  | .encode _ => some (c, .encoded)
  | _ => none

end

end Ipad.Proc
