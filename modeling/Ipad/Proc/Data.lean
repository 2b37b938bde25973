import Ipad.BppSegments
import Ipad.Nvstate.Emu

/-!
# What the messages carry

The decoded requests and answers of the eUICC and the eIM, with the members that the procedures look at or
hand on.
-/

namespace Ipad.Proc
open Ipad.EimCfg Ipad.Nvstate Ipad.BppSegments

/-! ## eUICC packages -/

inductive Psmo where
  | enable (iccid : List UInt8) (rollbackFlag : Bool)
  | disable (iccid : List UInt8)
  | delete (iccid : List UInt8)
  | listProfileInfo (listProfileInfo : List UInt8)
  | getRat
  | configureAutoEnable (autoEnableFlag : Bool) (smdpOid smdpAddress : Option (List UInt8))
  | unsupported

/-- `above` says how the counter values of an updateEim lie in memory. -/
inductive Eco where
  | addEim (addEim : EimConfigurationData)
  | deleteEim (eimId : List UInt8)
  | updateEim (above : Bool) (updateEim : EimConfigurationData)
  | listEim
  | unsupported

inductive EuiccPackage where
  | psmoList (list : List Psmo)
  | ecoList (list : List Eco)
  | nothing

structure EuiccPackageRequest where
  counterValue : Int
  transactionId : Option OctetString
  euiccPackage : EuiccPackage

/-- `buffered` says whether all its strings have a buffer. -/
structure ProfileInfo where
  iccid : Option (List UInt8)
  profileState : Option Int
  buffered : Bool := true

inductive ProfileInfoListResponse where
  | profileInfoListOk (list : List ProfileInfo)
  | profileInfoListError (code : Int)
  | nothing

/-- `buffered` says whether all its strings have a buffer. -/
structure ProfilePolicyAuthorisationRule where
  content : List UInt8
  buffered : Bool := true

inductive EuiccResultData where
  | enableResult (code : Int)
  | disableResult (code : Int)
  | deleteResult (code : Int)
  | listProfileInfoResult (res : ProfileInfoListResponse)
  | getRatResult (rat : List ProfilePolicyAuthorisationRule)
  | configureAutoEnableResult (code : Int)
  | addEimResult (res : AddEimResult)
  | deleteEimResult (code : Int)
  | updateEimResult (code : Int)
  | listEimResult (res : ListEimResult)
  | rollbackResult (code : Int)
  | processingTerminated (code : Int)
  | nothing

structure EuiccPackageResultSigned where
  eimId : List UInt8
  counterValue : Int
  transactionId : Option (List UInt8)
  seqNumber : Int
  euiccResult : List EuiccResultData

inductive EuiccPackageResult where
  | euiccPackageResultSigned (result : EuiccPackageResultSigned)
  | euiccPackageErrorSigned (eimId : List UInt8) (counterValue : Int) (transactionId : Option (List UInt8))
      (euiccPackageErrorCode : Int)
  | euiccPackageErrorUnsigned (eimId : List UInt8) (associationToken : Option Int)
  | nothing

structure ProfileRollbackResponse where
  cmdResult : Int
  eUICCPackageResult : Option EuiccPackageResult

/-! ## Notifications -/

inductive PendingNotification where
  | profileInstallationResult (result : PrfleInstRslt)
  | otherSignedNotification (seqNumber : Int)
  | nothing

inductive NotificationsListResponse where
  | notificationList (list : List PendingNotification)
  | notificationsListResultError (code : Int)
  | otherList
  | nothing

/-! ## RSP sessions -/

/-- `extnID` has no arcs where they cannot be read. -/
structure Extension where
  extnID : Option (List Nat)
  extnValue : List UInt8

structure Certificate where
  content : List UInt8
  extensions : Option (List Extension)

structure EuiccInfo1 where
  svn : List UInt8
  euiccCiPKIdListForVerification : List (List UInt8)
  euiccCiPKIdListForSigning : List (List UInt8)

structure InitiateAuthenticationRequest where
  euiccChallenge : List UInt8
  smdpAddress : Option (List UInt8)
  euiccInfo1 : EuiccInfo1

structure ServerSigned1 where
  transactionId : List UInt8
  euiccChallenge : List UInt8
  serverAddress : List UInt8
  serverChallenge : List UInt8

structure InitiateAuthenticationOk where
  serverSigned1 : ServerSigned1
  serverSignature1 : OctetString
  euiccCiPKIdToBeUsed : OctetString
  serverCertificate : Certificate

inductive InitiateAuthenticationResponse where
  | initiateAuthenticationOk (ok : InitiateAuthenticationOk)
  | initiateAuthenticationError (code : Int)
  | nothing

structure CtxParams1 where
  matchingId : Option (List UInt8)
  tac : List UInt8

structure AuthenticateServerRequest where
  serverSigned1 : ServerSigned1
  serverSignature1 : List UInt8
  euiccCiPKIdToBeUsed : List UInt8
  serverCertificate : Certificate
  ctxParams1 : CtxParams1

inductive AuthenticateServerResponse where
  | authenticateResponseOk (content : List UInt8)
  | authenticateResponseError (code : Int)
  | nothing

inductive ForwardedServerResponse where
  | authenticateResponseOk (content : List UInt8)
  | authenticateResponseError (transactionId : List UInt8) (code : Int)

structure AuthenticateClientRequest where
  transactionId : List UInt8
  authenticateServerResponse : ForwardedServerResponse

structure AuthenticateClientOkDpe where
  transactionId : Option (List UInt8)
  smdpSigned2 : List UInt8
  smdpSignature2 : OctetString
  smdpCertificate : Certificate
  hashCc : Option (List UInt8)

structure AuthenticateClientOkDse where
  transactionId : List UInt8

inductive AuthenticateClientResponse where
  | authenticateClientOkDpe (ok : AuthenticateClientOkDpe)
  | authenticateClientOkDse (ok : AuthenticateClientOkDse)
  | authenticateClientError (code : Int)
  | nothing

structure PrepareDownloadRequest where
  smdpSigned2 : List UInt8
  smdpSignature2 : List UInt8
  hashCc : Option (List UInt8)
  smdpCertificate : Certificate

inductive PrepareDownloadResponse where
  | downloadResponseOk (transactionId content : List UInt8)
  | downloadResponseError (transactionId : List UInt8) (code : Int)
  | nothing

structure GetBoundProfilePackageRequest where
  transactionId : List UInt8
  prepareDownloadResponse : PrepareDownloadResponse

inductive GetBoundProfilePackageResponse where
  | getBoundProfilePackageOk (boundProfilePackage : BoundProfilePackage)
  | getBoundProfilePackageError (code : Int)
  | nothing

inductive CancelSessionReason where
  | endUserRejection
  | loadBppExecutionError
  | undefinedReason

inductive CancelSessionResponse where
  | cancelSessionResponseOk (transactionId content : List UInt8)
  | cancelSessionResponseError (code : Int)
  | nothing

inductive ForwardedCancelResponse where
  | cancelSessionResponseOk (transactionId content : List UInt8)
  | cancelSessionResponseError (code : Int)

inductive CancelSessionResponseEsipa where
  | cancelSessionOk
  | cancelSessionError (code : Int)
  | nothing

/-! ## Data of the eUICC -/

structure EuiccConfiguredAddresses where
  defaultDpAddress : Option (List UInt8)
  rootDsAddress : List UInt8

/-- The members that SGP.22 and SGP.32 share. -/
structure EuiccInfo2Base where
  profileVersion : List UInt8
  svn : List UInt8
  euiccFirmwareVer : List UInt8
  extCardResource : List UInt8
  uiccCapability : List UInt8
  ts102241Version : Option (List UInt8)
  globalplatformVersion : Option (List UInt8)
  rspCapability : List UInt8
  euiccCiPKIdListForVerification : List (List UInt8)
  euiccCiPKIdListForSigning : List (List UInt8)
  euiccCategory : Option Int
  forbiddenProfilePolicyRules : Option (List UInt8)
  ppVersion : List UInt8
  sasAcreditationNumber : List UInt8
  certificationDataObject : Option (List UInt8)
  deriving DecidableEq, Repr

structure EuiccInfo2 extends EuiccInfo2Base where
  treProperties : Option (List UInt8)
  treProductReference : Option (List UInt8)
  additionalEuiccProfilePackageVersions : Option (List (List UInt8))
  deriving DecidableEq, Repr

structure Sgp32EuiccInfo2 extends EuiccInfo2 where
  ipaMode : Option Int
  rfu2 : Option (List (List UInt8))
  rfu3 : Option (List UInt8)
  rfu4 : Option (List UInt8)
  iotSpecificInfo : Option (List UInt8)
  deriving DecidableEq, Repr

inductive GetCertsResponse where
  | certs (eumCertificate euiccCertificate : Certificate)
  | getCertsError (code : Int)
  | nothing

inductive SearchCriteria where
  | seqNumber (seqNumber : Int)
  | profileManagementOperation (profileManagementOperation : List UInt8)
  | euiccPackageResults
  | nothing

structure IpaEuiccDataRequest where
  tagList : List UInt8
  euiccCiPKId : Option (List UInt8)
  searchCriteria : Option SearchCriteria

structure IpaCapabilities where
  ipaFeatures : List UInt8
  ipaSupportedProtocols : List UInt8
  deriving DecidableEq, Repr

structure DeviceInfo where
  tac : List UInt8
  deriving DecidableEq, Repr

structure IpaEuiccData where
  defaultSmdpAddress : Option (List UInt8)
  euiccInfo1 : Option EuiccInfo1
  euiccInfo2 : Option Sgp32EuiccInfo2
  rootSmdsAddress : Option (List UInt8)
  associationToken : Option Int
  eumCertificate : Option Certificate
  euiccCertificate : Option Certificate
  ipaCapabilities : Option IpaCapabilities
  deviceInfo : Option DeviceInfo
  notificationsList : Option NotificationsListResponse

/-! ## eIM packages -/

inductive ProfileDownloadData where
  | activationCode (activationCode : List UInt8)
  | contactDefaultSmdp
  | contactSmds
  | nothing

structure ProfileDownloadTriggerRequest where
  profileDownloadData : Option ProfileDownloadData

inductive GetEimPackageResponse where
  | euiccPackageRequest (request : EuiccPackageRequest)
  | ipaEuiccDataRequest (request : IpaEuiccDataRequest)
  | profileDownloadTriggerRequest (request : ProfileDownloadTriggerRequest)
  | eimPackageError (code : Int)
  | nothing

inductive TransferEimPackageRequest where
  | euiccPackageRequest (request : EuiccPackageRequest)
  | ipaEuiccDataRequest (request : IpaEuiccDataRequest)
  | profileDownloadTriggerRequest (request : ProfileDownloadTriggerRequest)
  | eimAcknowledgements (eimAcknowledgements : List Int)
  | nothing

/-- What ProvideEimPackageResult carries beside a result with notifications. -/
inductive EimPackageOutcome where
  | euiccPackageResult (result : EuiccPackageResult)
  | ipaEuiccDataResponse (data : IpaEuiccData)
  | profileDownloadTriggerResult (content : List UInt8)
  | eimPackageError (code : Int)

end Ipad.Proc
