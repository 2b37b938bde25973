import Ipad.EimCfg.Der
import Ipad.Proc.EuiccDataReq
import Ipad.Proc.Installation

/-!
# The answer to an IpaEuiccDataRequest
-/

namespace Ipad.Proc
open Lib.Dialogue Ipad.EimCfg Ipad.Utils

/-! ## Queries -/

/-- The answers to the queries that were made. Where a query is made twice, the first answer is behind the
member that is collected first. -/
structure Queries where
  dpAddresses : Option (Option EuiccConfiguredAddresses)
  euiccInfo1 : Option (Option EuiccInfo1)
  euiccInfo2 : Option (Option EuiccInfo2)
  sgp32EuiccInfo2 : Option (Option Sgp32EuiccInfo2)
  dsAddresses : Option (Option EuiccConfiguredAddresses)
  eimCfgData : Option (Option (List EimConfigurationData))
  eumCerts : Option (Option GetCertsResponse)
  euiccCerts : Option (Option GetCertsResponse)
  notifications : Option (Option NotificationsListResponse)

def Queries.nothing : Queries where
  dpAddresses := none
  euiccInfo1 := none
  euiccInfo2 := none
  sgp32EuiccInfo2 := none
  dsAddresses := none
  eimCfgData := none
  eumCerts := none
  euiccCerts := none
  notifications := none

def Queries.add (queries : Queries) : (req : Req) → Option (Ans req) → Queries
  | .getEuiccConfiguredAddresses, ans =>
      { queries with dpAddresses := queries.dpAddresses.or ans, dsAddresses := ans.or queries.dsAddresses }
  | .getEuiccInfo1, ans => { queries with euiccInfo1 := ans.or queries.euiccInfo1 }
  | .getEuiccInfo2, ans => { queries with euiccInfo2 := ans.or queries.euiccInfo2 }
  | .getEuiccInfo2Sgp32, ans => { queries with sgp32EuiccInfo2 := ans.or queries.sgp32EuiccInfo2 }
  | .getEimConfigurationData, ans => { queries with eimCfgData := ans.or queries.eimCfgData }
  | .getCerts _, ans =>
      { queries with eumCerts := queries.eumCerts.or ans, euiccCerts := ans.or queries.euiccCerts }
  | .retrieveNotifications _, ans => { queries with notifications := ans.or queries.notifications }
  | _, _ => queries

/-- A query that cannot be encoded is one without an answer. -/
def Queries.read (queries : Queries) : Event Req Ans → Queries
  | ⟨.encode req, .refused⟩ => queries.add req (some req.silence)
  | ⟨.encode _, _⟩ => queries
  | ⟨req, ans⟩ => queries.add req (some ans)

def queriesIn : Trace → Queries
  | [] => .nothing
  | event :: t => (queriesIn t).read event

/-- Every query behaves in a fixed way. -/
def Follows (answers : (req : Req) → Ans req) (said : Trace) : Prop :=
  ∀ event ∈ said, event.ans = answers event.req

def reply (answers : (req : Req) → Ans req) (req : Req) : Ans req :=
  match answers (.encode req) with
  | .refused => req.silence
  | _ => answers req

/-- The queries with all the answers there are. -/
def queriesOf (emulated : Bool) (euiccCiPKId : Option (List UInt8)) (searchCriteria : Option SearchCriteria)
    (answers : (req : Req) → Ans req) : Queries where
  dpAddresses := some (answers .getEuiccConfiguredAddresses)
  euiccInfo1 := some (answers .getEuiccInfo1)
  euiccInfo2 := some (answers .getEuiccInfo2)
  sgp32EuiccInfo2 := some (answers .getEuiccInfo2Sgp32)
  dsAddresses := some (answers .getEuiccConfiguredAddresses)
  eimCfgData := some (answers .getEimConfigurationData)
  eumCerts := some (reply answers (.getCerts euiccCiPKId))
  euiccCerts := some (reply answers (.getCerts euiccCiPKId))
  notifications := some (reply answers (.retrieveNotifications (convertSearchCriteria emulated searchCriteria)))

/-! ## What is delivered -/

def GetCertsResponse.both : GetCertsResponse → Option (Certificate × Certificate)
  | .certs eumCertificate euiccCertificate => some (eumCertificate, euiccCertificate)
  | _ => none

section
variable (codec : EimCfgCodec) (ctx : IpaContext)

def Queries.deliveredInfo2 (queries : Queries) : Option Sgp32EuiccInfo2 :=
  if ctx.iotEuiccEmuEnabled then queries.euiccInfo2.join.map convertEuiccInfo2 else queries.sgp32EuiccInfo2.join

def Queries.deliveredToken (queries : Queries) : Option Int :=
  (if ctx.iotEuiccEmuEnabled then getEimCfgDataIotEmu codec ctx.emu.nvstate else queries.eimCfgData.join).bind
    fun list => (ipaEs10bGetEimCfgDataFilter list ctx.eimId).bind EimConfigurationData.associationToken

def deliveredNotifications (answer : Option (Option NotificationsListResponse)) : Option NotificationsListResponse :=
  if ctx.iotEuiccEmuEnabled then answer.join.bind fun list => (decRetrNotifFromLstRes list).sgp32Res
  else answer.join

/-- Every member that the queries deliver, wanted or not. -/
def Queries.delivered (queries : Queries) : IpaEuiccData where
  defaultSmdpAddress := queries.dpAddresses.join.bind EuiccConfiguredAddresses.defaultDpAddress
  euiccInfo1 := queries.euiccInfo1.join
  euiccInfo2 := queries.deliveredInfo2 ctx
  rootSmdsAddress := queries.dsAddresses.join.map EuiccConfiguredAddresses.rootDsAddress
  associationToken := queries.deliveredToken codec ctx
  eumCertificate := (queries.eumCerts.join.bind GetCertsResponse.both).map Prod.fst
  euiccCertificate := (queries.euiccCerts.join.bind GetCertsResponse.both).map Prod.snd
  ipaCapabilities := some makeIpaCapabilities
  deviceInfo := some (makeDeviceInfo ctx)
  notificationsList := deliveredNotifications ctx queries.notifications

end

section
variable (tags : List UInt16)

def wanted {α : Type} (tag : UInt16) (member : Option α) : Option α := if tag ∈ tags then member else none

def IpaEuiccData.only (data : IpaEuiccData) : IpaEuiccData where
  defaultSmdpAddress := wanted tags 0x80 data.defaultSmdpAddress
  euiccInfo1 := wanted tags 0xBF20 data.euiccInfo1
  euiccInfo2 := wanted tags 0xBF22 data.euiccInfo2
  rootSmdsAddress := wanted tags 0x83 data.rootSmdsAddress
  associationToken := wanted tags 0x84 data.associationToken
  eumCertificate := wanted tags 0xA5 data.eumCertificate
  euiccCertificate := wanted tags 0xA6 data.euiccCertificate
  ipaCapabilities := wanted tags 0x88 data.ipaCapabilities
  deviceInfo := wanted tags 0xA9 data.deviceInfo
  notificationsList := wanted tags 0xBF2B data.notificationsList

/-! ## An exact answer -/

variable (codec : EimCfgCodec) (ctx : IpaContext) (req : IpaEuiccDataRequest)

/-- The eIM is sent what it wanted and the queries delivered. Where the queries behave in a fixed way, what
they deliver is the same for all lists. -/
def AnsweredExactly (said : Trace) : Prop :=
  ∃ data ans before, said = ⟨.provideEimPackageOutcome (.ipaEuiccDataResponse data), ans⟩ :: before ∧
    data = ((queriesIn said).delivered codec ctx).only tags ∧
    ∀ answers, Follows answers said →
      data = ((queriesOf ctx.iotEuiccEmuEnabled req.euiccCiPKId req.searchCriteria answers).delivered codec
        ctx).only tags

/-- No eUICCInfo2 that was wanted was delivered, and the addresses were not wanted for 83 when they had already
been delivered for 80. -/
structure Unaffected (queries : Queries) : Prop where
  info2 : 0xBF22 ∈ tags → queries.deliveredInfo2 ctx = none
  addresses : 0x80 ∈ tags → 0x83 ∈ tags → queries.dpAddresses.join = none

end

/-- No string without a buffer is encoded, and what is collected is encoded. -/
structure Encoded (said : Trace) : Prop where
  buffered : ∀ req, ⟨.encode req, .aborted⟩ ∉ said
  answer : ∀ outcome, ⟨.encode (.provideEimPackageOutcome outcome), .refused⟩ ∉ said

/-! ## Collection -/

def exchange (req : Req) : Option (Ans req) → Trace
  | none => []
  | some ans => [⟨req, ans⟩]

structure Posed (listed : Prop) (req : Req) (ans : Option (Ans req)) (t t' : Trace) : Prop where
  said : t' = exchange req ans ++ t
  made : ans.isSome ↔ listed

/-- The same where the query is encoded first. -/
inductive Exchanged (req : Req) : Option (Ans req) → Trace → Prop where
  | unasked : Exchanged req none []
  | asked (ans : Ans req) (events : Trace) (sends : Sends req (.ok ans) events) : Exchanged req (some ans) events

structure Forwarded (listed : Prop) (req : Req) (ans : Option (Ans req)) (events t t' : Trace) : Prop where
  said : t' = events ++ t
  exchanged : Exchanged req ans events
  made : ans.isSome ↔ listed

theorem follows_append {answers : (req : Req) → Ans req} {later earlier : Trace} :
    Follows answers (later ++ earlier) ↔ Follows answers later ∧ Follows answers earlier :=
  List.forall_mem_append

theorem follows_exchange {answers : (req : Req) → Ans req} {req : Req} {ans : Option (Ans req)} :
    Follows answers (exchange req ans) ↔ ∀ given, ans = some given → given = answers req := by
  cases ans with
  | none => exact iff_of_true (fun _ member => absurd member List.not_mem_nil) fun _ none => nomatch none
  | some ans =>
      constructor
      · rintro follows given ⟨⟩
        exact follows _ List.mem_cons_self
      · intro given event member
        cases List.mem_singleton.mp member
        exact given _ rfl

theorem Queries.add_none (queries : Queries) (req : Req) : queries.add req none = queries := by
  cases req with
  | getEuiccConfiguredAddresses =>
      show { queries with dpAddresses := queries.dpAddresses.or none } = queries
      rw [Option.or_none]
  | getCerts euiccCiPKId =>
      show { queries with eumCerts := queries.eumCerts.or none } = queries
      rw [Option.or_none]
  | _ => rfl

section
variable {req : Req} {ans : Option (Ans req)} {events : Trace}

theorem queriesIn_exchange (plain : ∀ (queries : Queries) ans, queries.read ⟨req, ans⟩ = queries.add req (some ans))
    (ans : Option (Ans req)) (t : Trace) : queriesIn (exchange req ans ++ t) = (queriesIn t).add req ans := by
  cases ans with
  | none => exact ((queriesIn t).add_none req).symm
  | some ans => exact plain (queriesIn t) ans

theorem Exchanged.queriesIn_append (exchanged : Exchanged req ans events)
    (plain : ∀ (queries : Queries) ans, queries.read ⟨req, ans⟩ = queries.add req (some ans)) (t : Trace) :
    queriesIn (events ++ t) = (queriesIn t).add req ans := by
  cases exchanged with
  | unasked => exact ((queriesIn t).add_none req).symm
  | asked ans _ sends =>
      cases sends with
      | answered => exact plain (queriesIn t) ans
      | refused => rfl

theorem Exchanged.follows {answers : (req : Req) → Ans req} (exchanged : Exchanged req ans events)
    (follows : Follows answers events) (given : Ans req) (answered : ans = some given) :
    given = reply answers req := by
  cases exchanged with
  | unasked => cases answered
  | asked ans _ sends =>
      cases answered
      have encode : (answers (.encode req) = .encoded ∧ given = answers req) ∨
          (answers (.encode req) = .refused ∧ given = req.silence) := by
        cases sends with
        | answered =>
            exact .inl ⟨(follows ⟨.encode req, .encoded⟩ (by simp)).symm, follows ⟨req, given⟩ List.mem_cons_self⟩
        | refused => exact .inr ⟨(follows ⟨.encode req, .refused⟩ List.mem_cons_self).symm, rfl⟩
      rcases encode with ⟨encoded, rfl⟩ | ⟨refused, rfl⟩
      · simp only [reply, encoded]
      · simp only [reply, refused]

end

theorem encoded_append {later earlier : Trace} : Encoded (later ++ earlier) ↔ Encoded later ∧ Encoded earlier := by
  constructor
  · rintro ⟨buffered, answer⟩
    exact ⟨⟨fun req member => buffered req (List.mem_append_left _ member),
      fun outcome member => answer outcome (List.mem_append_left _ member)⟩,
      fun req member => buffered req (List.mem_append_right _ member),
      fun outcome member => answer outcome (List.mem_append_right _ member)⟩
  · rintro ⟨later, earlier⟩
    constructor
    · exact fun req member => (List.mem_append.mp member).elim (later.buffered req) (earlier.buffered req)
    · exact fun outcome member => (List.mem_append.mp member).elim (later.answer outcome) (earlier.answer outcome)

theorem encoded_exchange {req : Req} (plain : ∀ other, req ≠ .encode other) (ans : Option (Ans req)) :
    Encoded (exchange req ans) := by
  cases ans with
  | none => exact ⟨by simp [exchange], by simp [exchange]⟩
  | some ans =>
      constructor
      · exact fun other member => plain other (congrArg Event.req (List.mem_singleton.mp member)).symm
      · exact fun outcome member => plain _ (congrArg Event.req (List.mem_singleton.mp member)).symm

theorem Exchanged.encoded {req : Req} {ans : Option (Ans req)} {events : Trace}
    (exchanged : Exchanged req ans events) (plain : ∀ other, req ≠ .encode other)
    (query : ∀ outcome, req ≠ .provideEimPackageOutcome outcome) : Encoded events := by
  cases exchanged with
  | unasked => exact encoded_exchange plain none
  | asked ans _ sends =>
      cases sends with
      | answered =>
          have asked := encoded_exchange plain (some ans)
          constructor
          · intro other member
            rcases List.mem_cons.mp member with same | member
            · exact asked.buffered other (List.mem_singleton.mpr same)
            · cases List.mem_singleton.mp member
          · intro outcome member
            rcases List.mem_cons.mp member with same | member
            · exact asked.answer outcome (List.mem_singleton.mpr same)
            · cases List.mem_singleton.mp member
      | refused =>
          constructor
          · intro other member
            cases List.mem_singleton.mp member
          · intro outcome member
            have same := congrArg Event.req (List.mem_singleton.mp member)
            exact query outcome (Req.encode.inj same).symm

/-! ### Members -/

section
variable {tags : List UInt16} {α β : Type}

theorem wanted_congr {tag : UInt16} {member member' : Option α} (same : tag ∈ tags → member = member') :
    wanted tags tag member = wanted tags tag member' := ite_congr rfl same fun _ => rfl

theorem wanted_made {tag : UInt16} {ans kept : Option β} (made : ans.isSome ↔ tag ∈ tags)
    (same : tag ∈ tags → kept = ans) (decode : Option β → Option α) (silent : decode none = none) :
    decode ans = wanted tags tag (decode kept) := by
  by_cases listed : tag ∈ tags
  · rw [same listed]
    exact (if_pos listed).symm
  · rw [Option.not_isSome_iff_eq_none.mp (mt made.mp listed), silent]
    exact (if_neg listed).symm

theorem bind_map_join (ans : Option (Option β)) (decode : β → α) :
    ans.bind (Option.map decode) = ans.join.map decode := by
  cases ans <;> rfl

theorem wanted_bind {tag : UInt16} (member : Option β) (decode : β → Option α) :
    (wanted tags tag member).bind decode = wanted tags tag (member.bind decode) := by
  by_cases listed : tag ∈ tags
  · exact (congrArg (Option.bind · decode) (if_pos listed)).trans (if_pos listed).symm
  · exact (congrArg (Option.bind · decode) (if_neg listed)).trans (if_neg listed).symm

theorem join_or {ans first : Option (Option β)} (silent : first.join = none) : (ans.or first).join = ans.join := by
  cases ans with
  | none => exact silent
  | some ans => rfl

theorem wanted_some {tag : UInt16} {member : α} {bytes : List UInt8}
    (found : ipaTagInTaglist tag bytes = true ↔ tag ∈ tags) :
    (if ipaTagInTaglist tag bytes then some member else none) = wanted tags tag (some member) :=
  if_congr found rfl rfl

end

theorem Posed.suffix {listed : Prop} {req : Req} {ans : Option (Ans req)} {t t' : Trace}
    (posed : Posed listed req ans t t') : t <:+ t' := ⟨_, posed.said.symm⟩

theorem Forwarded.suffix {listed : Prop} {req : Req} {ans : Option (Ans req)} {events t t' : Trace}
    (forwarded : Forwarded listed req ans events t t') : t <:+ t' := ⟨_, forwarded.said.symm⟩

section
variable {tags : List Tag} {t : Trace} {E : Abort → Trace → Prop}

theorem asked_unposed {α : Type} {tag : UInt16} (req : Req) {query : ProcM (Option α)} {res : Option α}
    (known : query = pure res) :
    Ends (fun out t' => Posed False req none t t' ∧ out = wanted (tags.map Tag.value) tag res) E
      (asked (tags.flatMap Tag.bytes) tag query) t := by
  unfold asked
  split <;> rename_i listed
  · rw [known]
    exact ⟨⟨rfl, iff_of_false Bool.false_ne_true id⟩, (if_pos ((ipaTagInTaglist_iff tag tags).mp listed)).symm⟩
  · exact ⟨⟨rfl, iff_of_false Bool.false_ne_true id⟩, (if_neg (mt (ipaTagInTaglist_iff tag tags).mpr listed)).symm⟩

theorem asked_posed {α : Type} (tag : UInt16) (req : Req) (decode : Ans req → Option α) :
    Ends (fun res t' => ∃ ans, Posed (tag ∈ tags.map Tag.value) req ans t t' ∧ res = ans.bind decode) E
      (asked (tags.flatMap Tag.bytes) tag (request req >>= fun ans => pure (decode ans))) t := by
  unfold asked
  split <;> rename_i listed
  · exact fun ans => ⟨some ans, ⟨rfl, iff_of_true rfl ((ipaTagInTaglist_iff tag tags).mp listed)⟩, rfl⟩
  · exact ⟨none, ⟨rfl, iff_of_false Bool.false_ne_true (mt (ipaTagInTaglist_iff tag tags).mpr listed)⟩, rfl⟩

theorem asked_unforwarded {α : Type} {tag : UInt16} (req : Req) {query : ProcM (Option α)} {res : Option α}
    (known : query = pure res) :
    Ends (fun out t' => Forwarded False req none [] t t' ∧ out = wanted (tags.map Tag.value) tag res) E
      (asked (tags.flatMap Tag.bytes) tag query) t :=
  (asked_unposed req known).imp fun _ _ ⟨posed, same⟩ => ⟨⟨posed.said, .unasked, posed.made⟩, same⟩

theorem asked_forwarded {α : Type} (tag : UInt16) (req : Req) (decode : Ans req → Option α)
    (stops : E (.fault .assertion) (⟨.encode req, .aborted⟩ :: t)) :
    Ends (fun res t' => ∃ ans events, Forwarded (tag ∈ tags.map Tag.value) req ans events t t' ∧
        res = ans.bind decode) E
      (asked (tags.flatMap Tag.bytes) tag (send req >>= fun ans => pure (decode ans))) t := by
  unfold asked
  split <;> rename_i listed
  · have made (ans : Ans req) : (some ans).isSome ↔ tag ∈ tags.map Tag.value :=
      iff_of_true rfl ((ipaTagInTaglist_iff tag tags).mp listed)
    simp only [ends_bind, ends_send, ends_pure]
    refine ⟨fun ans => ?_, ?_, stops⟩
    · exact ⟨some ans, _, ⟨rfl, .asked ans _ (.answered ans), made ans⟩, rfl⟩
    · exact ⟨some req.silence, _, ⟨rfl, .asked _ _ .refused, made _⟩, rfl⟩
  · exact ⟨none, _, ⟨rfl, .unasked, iff_of_false Bool.false_ne_true
      (mt (ipaTagInTaglist_iff tag tags).mpr listed)⟩, rfl⟩

theorem getEuiccInfo2_posed (ctx : IpaContext) :
    Ends (fun _ t' => ∃ sgp32Ans ans t₁,
        Posed (0xBF22 ∈ tags.map Tag.value ∧ ctx.iotEuiccEmuEnabled = false) .getEuiccInfo2Sgp32 sgp32Ans t t₁ ∧
        Posed (0xBF22 ∈ tags.map Tag.value ∧ ctx.iotEuiccEmuEnabled = true) .getEuiccInfo2 ans t₁ t') E
      (asked (tags.flatMap Tag.bytes) 0xBF22 (getEuiccInfo2 ctx)) t := by
  unfold getEuiccInfo2
  cases ctx.iotEuiccEmuEnabled with
  | true =>
      apply (asked_posed 0xBF22 .getEuiccInfo2 _).imp
      rintro res t' ⟨ans, posed, -⟩
      exact ⟨none, ans, t, ⟨rfl, iff_of_false Bool.false_ne_true fun both => Bool.noConfusion both.2⟩,
        posed.said, posed.made.trans (and_iff_left rfl).symm⟩
  | false =>
      apply (asked_posed 0xBF22 .getEuiccInfo2Sgp32 _).imp
      rintro res t' ⟨ans, posed, -⟩
      exact ⟨ans, none, t', ⟨posed.said, posed.made.trans (and_iff_left rfl).symm⟩,
        rfl, iff_of_false Bool.false_ne_true fun both => Bool.noConfusion both.2⟩

theorem rootSmdsAddressMember_posed (known : Option EuiccConfiguredAddresses) :
    Ends (fun res t' => ∃ ans,
        Posed (0x83 ∈ tags.map Tag.value ∧ known = none) .getEuiccConfiguredAddresses ans t t' ∧
        res = ans.join.map EuiccConfiguredAddresses.rootDsAddress) E
      (rootSmdsAddressMember (tags.flatMap Tag.bytes) known) t := by
  unfold rootSmdsAddressMember
  cases known with
  | none =>
      apply (asked_posed 0x83 .getEuiccConfiguredAddresses _).imp
      rintro res t' ⟨ans, posed, rfl⟩
      exact ⟨ans, ⟨posed.said, posed.made.trans (and_iff_left rfl).symm⟩, bind_map_join ..⟩
  | some addresses =>
      apply (asked_unposed .getEuiccConfiguredAddresses rfl).imp
      rintro res t' ⟨posed, rfl⟩
      exact ⟨none, ⟨posed.said, posed.made.trans (iff_of_false id fun both => Option.some_ne_none _ both.2)⟩,
        ite_self none⟩

theorem ipaEs10bGetEimCfgData_posed (codec : EimCfgCodec) (ctx : IpaContext) :
    Ends (fun res t' => ∃ ans,
        Posed (0x84 ∈ tags.map Tag.value ∧ ctx.iotEuiccEmuEnabled = false) .getEimConfigurationData ans t t' ∧
        res = wanted (tags.map Tag.value) 0x84
          (if ctx.iotEuiccEmuEnabled then getEimCfgDataIotEmu codec ctx.emu.nvstate else ans.join)) E
      (asked (tags.flatMap Tag.bytes) 0x84 (ipaEs10bGetEimCfgData codec ctx)) t := by
  unfold ipaEs10bGetEimCfgData
  cases ctx.iotEuiccEmuEnabled with
  | true =>
      apply (asked_unposed .getEimConfigurationData rfl).imp
      rintro res t' ⟨posed, rfl⟩
      exact ⟨none, ⟨posed.said, posed.made.trans (iff_of_false id fun both => Bool.noConfusion both.2)⟩, rfl⟩
  | false =>
      apply (asked_posed 0x84 .getEimConfigurationData _).imp
      rintro res t' ⟨ans, posed, rfl⟩
      refine ⟨ans, ⟨posed.said, posed.made.trans (and_iff_left rfl).symm⟩, ?_⟩
      exact wanted_made posed.made (fun _ => rfl) Option.join rfl

theorem eumCertificateMember_eq (answer : Option GetCertsResponse) :
    eumCertificateMember (answer.map decGetCertsRes) = (answer.bind GetCertsResponse.both).map Prod.fst := by
  cases answer with
  | none => rfl
  | some response => cases response <;> rfl

theorem euiccCertificateMember_none (tagList : List UInt8) (euiccCiPKId : Option (List UInt8)) :
    euiccCertificateMember tagList euiccCiPKId none = asked tagList 0xA6
      (send (Req.getCerts euiccCiPKId) >>= fun ans => pure ((ans.bind GetCertsResponse.both).map Prod.snd)) := by
  refine congrArg (asked tagList 0xA6)
    (congrArg (Program.ask (Req.encode (.getCerts euiccCiPKId))) (funext fun outcome => ?_))
  cases outcome with
  | encoded =>
      refine congrArg (Program.ask (Req.getCerts euiccCiPKId)) (funext fun ans => ?_)
      cases ans with
      | none => rfl
      | some response => cases response <;> rfl
  | refused => rfl
  | aborted => rfl

theorem euiccCertificateMember_forwarded (euiccCiPKId : Option (List UInt8))
    (first : Option (Option GetCertsResponse))
    (stops : E (.fault .assertion) (⟨.encode (.getCerts euiccCiPKId), .aborted⟩ :: t)) :
    Ends (fun res t' => ∃ ans events,
        Forwarded (0xA6 ∈ tags.map Tag.value ∧ first.join = none) (.getCerts euiccCiPKId) ans events t t' ∧
        res = wanted (tags.map Tag.value) 0xA6 (((ans.or first).join.bind GetCertsResponse.both).map Prod.snd)) E
      (euiccCertificateMember (tags.flatMap Tag.bytes) euiccCiPKId (first.join.map decGetCertsRes)) t := by
  cases known : first.join with
  | some response =>
      have kept : first = some (some response) := Option.join_eq_some_iff.mp known
      have read : (decGetCertsRes response).euiccCertificate =
          (((none : Option (Option GetCertsResponse)).or first).join.bind GetCertsResponse.both).map Prod.snd := by
        rw [kept]
        cases response <;> rfl
      apply (asked_unforwarded (.getCerts euiccCiPKId) rfl).imp
      rintro res t' ⟨known, rfl⟩
      exact ⟨none, [], ⟨known.said, known.exchanged,
        known.made.trans (iff_of_false id fun both => Option.some_ne_none _ both.2)⟩, congrArg (wanted _ _) read⟩
  | none =>
      rw [Option.map_none, euiccCertificateMember_none]
      apply (asked_forwarded 0xA6 (.getCerts euiccCiPKId) _ stops).imp
      rintro res t' ⟨ans, events, asks, rfl⟩
      refine ⟨ans, events, ⟨asks.said, asks.exchanged, asks.made.trans (and_iff_left rfl).symm⟩, ?_⟩
      rw [join_or known]
      refine (?_ : _ = (ans.join.bind GetCertsResponse.both).map Prod.snd).trans
        (wanted_made asks.made (fun _ => rfl) (fun ans => (ans.join.bind GetCertsResponse.both).map Prod.snd) rfl)
      cases ans <;> rfl

end

/-! ### The whole answer -/

section
variable (tags : List UInt16) (ctx : IpaContext)

structure Queries.AgreesOn (queries queries' : Queries) : Prop where
  dpAddresses : 0x80 ∈ tags → queries.dpAddresses = queries'.dpAddresses
  euiccInfo1 : 0xBF20 ∈ tags → queries.euiccInfo1 = queries'.euiccInfo1
  euiccInfo2 : 0xBF22 ∈ tags ∧ ctx.iotEuiccEmuEnabled = true → queries.euiccInfo2 = queries'.euiccInfo2
  sgp32EuiccInfo2 : 0xBF22 ∈ tags ∧ ctx.iotEuiccEmuEnabled = false →
    queries.sgp32EuiccInfo2 = queries'.sgp32EuiccInfo2
  dsAddresses : 0x83 ∈ tags → queries.dsAddresses = queries'.dsAddresses
  eimCfgData : 0x84 ∈ tags ∧ ctx.iotEuiccEmuEnabled = false → queries.eimCfgData = queries'.eimCfgData
  eumCerts : 0xA5 ∈ tags → queries.eumCerts = queries'.eumCerts
  euiccCerts : 0xA6 ∈ tags → queries.euiccCerts = queries'.euiccCerts
  notifications : 0xBF2B ∈ tags → queries.notifications = queries'.notifications

variable {tags ctx}

theorem Queries.AgreesOn.only {queries queries' : Queries} (agree : queries.AgreesOn tags ctx queries')
    (codec : EimCfgCodec) : (queries.delivered codec ctx).only tags = (queries'.delivered codec ctx).only tags := by
  simp only [IpaEuiccData.only, IpaEuiccData.mk.injEq, Queries.delivered]
  refine ⟨wanted_congr fun listed => ?_, wanted_congr fun listed => ?_, wanted_congr fun listed => ?_,
    wanted_congr fun listed => ?_, wanted_congr fun listed => ?_, wanted_congr fun listed => ?_,
    wanted_congr fun listed => ?_, trivial, trivial, wanted_congr fun listed => ?_⟩
  · rw [agree.dpAddresses listed]
  · rw [agree.euiccInfo1 listed]
  · unfold Queries.deliveredInfo2
    split <;> rename_i emulated
    · rw [agree.euiccInfo2 ⟨listed, emulated⟩]
    · rw [agree.sgp32EuiccInfo2 ⟨listed, Bool.not_eq_true _ ▸ emulated⟩]
  · rw [agree.dsAddresses listed]
  · unfold Queries.deliveredToken
    split <;> rename_i emulated
    · rfl
    · rw [agree.eimCfgData ⟨listed, Bool.not_eq_true _ ▸ emulated⟩]
  · rw [agree.eumCerts listed]
  · rw [agree.euiccCerts listed]
  · rw [agree.notifications listed]

/-- What the collection comes to, whatever the eUICC answers. -/
structure Collected (codec : EimCfgCodec) (ctx : IpaContext) (req : IpaEuiccDataRequest) (tags : List UInt16)
    (said : Trace) (data : IpaEuiccData) : Prop where
  data : data = { ((queriesIn said).delivered codec ctx).only tags with
    euiccInfo2 := none
    rootSmdsAddress :=
      if 0x80 ∈ tags ∧ (queriesIn said).dpAddresses.join.isSome then none
      else wanted tags 0x83 ((queriesIn said).dsAddresses.join.map EuiccConfiguredAddresses.rootDsAddress) }
  known : 0x80 ∈ tags → (queriesIn said).dpAddresses.join.isSome → (queriesIn said).dsAddresses.join.isSome
  fixed : ∀ answers, Follows answers said → (queriesIn said).AgreesOn tags ctx
    (queriesOf ctx.iotEuiccEmuEnabled req.euiccCiPKId req.searchCriteria answers)

end

/-- The addresses of the SM-DS are not read out of those that are known. -/
theorem rootSmdsAddress_eq {tags : List UInt16} {first again : Option (Option EuiccConfiguredAddresses)}
    (made : first.isSome ↔ 0x80 ∈ tags) (remade : again.isSome ↔ 0x83 ∈ tags ∧ first.join = none) :
    again.join.map EuiccConfiguredAddresses.rootDsAddress =
      if 0x80 ∈ tags ∧ (first.or again).join.isSome then none
      else wanted tags 0x83 ((again.or first).join.map EuiccConfiguredAddresses.rootDsAddress) := by
  cases known : first.join with
  | some addresses =>
      obtain rfl := Option.join_eq_some_iff.mp known
      cases again with
      | none => exact (if_pos ⟨made.mp rfl, rfl⟩).symm
      | some again => exact absurd (remade.mp rfl).2 (Option.some_ne_none _)
  | none =>
      rw [if_neg, join_or known]
      · exact wanted_made (remade.trans (and_iff_left known)) (fun _ => rfl)
          (fun ans => ans.join.map EuiccConfiguredAddresses.rootDsAddress) rfl
      · rintro ⟨listed, answered⟩
        obtain ⟨ans, rfl⟩ := Option.isSome_iff_exists.mp (made.mpr listed)
        cases known
        exact Bool.false_ne_true answered

section
variable {α : Type} {value : α} {first again : Option α} {listed unknown : Prop}

theorem fixed_of_made (made : first.isSome ↔ listed) (follows : ∀ given, first = some given → given = value)
    (asks : listed) : first = some value := by
  obtain ⟨given, rfl⟩ := Option.isSome_iff_exists.mp (made.mpr asks)
  rw [follows given rfl]

/-- A query that is made anew only where there is no answer yet. -/
theorem fixed_of_remade (remade : again.isSome ↔ listed ∧ unknown) (asked : ¬ unknown → first.isSome)
    (follows : ∀ given, first = some given → given = value)
    (follows' : ∀ given, again = some given → given = value) (asks : listed) : again.or first = some value := by
  by_cases fresh : unknown
  · rw [fixed_of_made remade follows' ⟨asks, fresh⟩]
    rfl
  · obtain ⟨given, rfl⟩ := Option.isSome_iff_exists.mp (asked fresh)
    rw [Option.not_isSome_iff_eq_none.mp fun made => fresh (remade.mp made).2, follows given rfl]
    rfl

end

theorem isSome_of_join {α : Type} {ans : Option (Option α)} (answered : ¬ ans.join = none) : ans.isSome := by
  cases ans with
  | none => exact absurd rfl answered
  | some ans => rfl

theorem euiccInfo2Member_eq (res : Option EuiccInfoRes) : euiccInfo2Member res = none := by
  cases res with
  | none => rfl
  | some res =>
      obtain ⟨info2⟩ := res
      cases info2 <;> rfl

theorem notificationsList_eq (ctx : IpaContext) (answer : Option (Option NotificationsListResponse)) :
    (answer.bind (Option.map
        (if ctx.iotEuiccEmuEnabled then decRetrNotifFromLstRes else decRetrNotifFromLstResSgp32))).bind
      RetrNotifFromLstRes.sgp32Res = deliveredNotifications ctx answer := by
  unfold deliveredNotifications
  rw [bind_map_join]
  cases ctx.iotEuiccEmuEnabled <;> cases answer.join <;> rfl

/-- The answers in the order in which they are asked for. -/
structure Asking where
  addresses : Option (Option EuiccConfiguredAddresses)
  info1 : Option (Option EuiccInfo1)
  sgp32Info2 : Option (Option Sgp32EuiccInfo2)
  info2 : Option (Option EuiccInfo2)
  addressesAgain : Option (Option EuiccConfiguredAddresses)
  eimCfg : Option (Option (List EimConfigurationData))
  certs : Option (Option GetCertsResponse)
  certsSaid : Trace
  certsAgain : Option (Option GetCertsResponse)
  certsAgainSaid : Trace
  notifications : Option (Option NotificationsListResponse)
  notificationsSaid : Trace

section
variable (asking : Asking) (codec : EimCfgCodec) (ctx : IpaContext) (req : IpaEuiccDataRequest) (tags : List UInt16)

def Asking.said : Trace :=
  asking.notificationsSaid ++ (asking.certsAgainSaid ++ (asking.certsSaid ++
    (exchange .getEimConfigurationData asking.eimCfg ++
      (exchange .getEuiccConfiguredAddresses asking.addressesAgain ++ (exchange .getEuiccInfo2 asking.info2 ++
        (exchange .getEuiccInfo2Sgp32 asking.sgp32Info2 ++ (exchange .getEuiccInfo1 asking.info1 ++
          (exchange .getEuiccConfiguredAddresses asking.addresses ++ []))))))))

def Asking.queries : Queries where
  dpAddresses := asking.addresses.or asking.addressesAgain
  euiccInfo1 := asking.info1
  euiccInfo2 := asking.info2
  sgp32EuiccInfo2 := asking.sgp32Info2
  dsAddresses := asking.addressesAgain.or asking.addresses
  eimCfgData := asking.eimCfg
  eumCerts := asking.certs.or asking.certsAgain
  euiccCerts := asking.certsAgain.or asking.certs
  notifications := asking.notifications

structure Asking.Made : Prop where
  addresses : asking.addresses.isSome ↔ 0x80 ∈ tags
  info1 : asking.info1.isSome ↔ 0xBF20 ∈ tags
  sgp32Info2 : asking.sgp32Info2.isSome ↔ 0xBF22 ∈ tags ∧ ctx.iotEuiccEmuEnabled = false
  info2 : asking.info2.isSome ↔ 0xBF22 ∈ tags ∧ ctx.iotEuiccEmuEnabled = true
  addressesAgain : asking.addressesAgain.isSome ↔ 0x83 ∈ tags ∧ asking.addresses.join = none
  eimCfg : asking.eimCfg.isSome ↔ 0x84 ∈ tags ∧ ctx.iotEuiccEmuEnabled = false
  certs : asking.certs.isSome ↔ 0xA5 ∈ tags
  certsSaid : Exchanged (.getCerts req.euiccCiPKId) asking.certs asking.certsSaid
  certsAgain : asking.certsAgain.isSome ↔ 0xA6 ∈ tags ∧ asking.certs.join = none
  certsAgainSaid : Exchanged (.getCerts req.euiccCiPKId) asking.certsAgain asking.certsAgainSaid
  notifications : asking.notifications.isSome ↔ 0xBF2B ∈ tags
  notificationsSaid : Exchanged
    (.retrieveNotifications (convertSearchCriteria ctx.iotEuiccEmuEnabled req.searchCriteria)) asking.notifications
    asking.notificationsSaid

def Asking.data : IpaEuiccData where
  defaultSmdpAddress := asking.addresses.join.bind EuiccConfiguredAddresses.defaultDpAddress
  euiccInfo1 := asking.info1.join
  euiccInfo2 := none
  rootSmdsAddress := asking.addressesAgain.join.map EuiccConfiguredAddresses.rootDsAddress
  associationToken := wanted tags 0x84 (asking.queries.deliveredToken codec ctx)
  eumCertificate := (asking.certs.join.bind GetCertsResponse.both).map Prod.fst
  euiccCertificate :=
    wanted tags 0xA6 (((asking.certsAgain.or asking.certs).join.bind GetCertsResponse.both).map Prod.snd)
  ipaCapabilities := wanted tags 0x88 (some makeIpaCapabilities)
  deviceInfo := wanted tags 0xA9 (some (makeDeviceInfo ctx))
  notificationsList := deliveredNotifications ctx asking.notifications

variable {asking ctx req tags}

theorem Asking.Made.queriesIn_said (made : asking.Made ctx req tags) : queriesIn asking.said = asking.queries := by
  rw [Asking.said, made.notificationsSaid.queriesIn_append fun _ _ => rfl,
    made.certsAgainSaid.queriesIn_append fun _ _ => rfl, made.certsSaid.queriesIn_append fun _ _ => rfl,
    queriesIn_exchange fun _ _ => rfl, queriesIn_exchange fun _ _ => rfl, queriesIn_exchange fun _ _ => rfl,
    queriesIn_exchange fun _ _ => rfl, queriesIn_exchange fun _ _ => rfl, queriesIn_exchange fun _ _ => rfl]
  simp only [Asking.queries, queriesIn, Queries.add, Queries.nothing, Option.or_none, Option.none_or]

theorem Asking.Made.encoded (made : asking.Made ctx req tags) : Encoded asking.said := by
  simp only [Asking.said, encoded_append]
  refine ⟨made.notificationsSaid.encoded (by simp) (by simp), made.certsAgainSaid.encoded (by simp) (by simp),
    made.certsSaid.encoded (by simp) (by simp), ?_, ?_, ?_, ?_, ?_, ?_, ⟨by simp, by simp⟩⟩
  all_goals exact encoded_exchange (by simp) _

theorem Asking.Made.data (made : asking.Made ctx req tags) :
    asking.data codec ctx tags = { (asking.queries.delivered codec ctx).only tags with
      euiccInfo2 := none
      rootSmdsAddress :=
        if 0x80 ∈ tags ∧ asking.queries.dpAddresses.join.isSome then none
        else wanted tags 0x83 (asking.queries.dsAddresses.join.map EuiccConfiguredAddresses.rootDsAddress) } := by
  simp only [Asking.data, IpaEuiccData.only, Queries.delivered, IpaEuiccData.mk.injEq]
  refine ⟨?_, ?_, trivial, rootSmdsAddress_eq made.addresses made.addressesAgain, trivial, ?_, rfl, trivial, trivial,
    ?_⟩
  · exact wanted_made made.addresses (fun listed => Option.or_of_isSome (made.addresses.mpr listed))
      (fun ans => ans.join.bind EuiccConfiguredAddresses.defaultDpAddress) rfl
  · exact wanted_made made.info1 (fun _ => rfl) Option.join rfl
  · exact wanted_made made.certs (fun listed => Option.or_of_isSome (made.certs.mpr listed))
      (fun ans => (ans.join.bind GetCertsResponse.both).map Prod.fst) rfl
  · exact wanted_made made.notifications (fun _ => rfl) (deliveredNotifications ctx) (ite_self none)

theorem Asking.Made.known (made : asking.Made ctx req tags) (listed : 0x80 ∈ tags)
    (answered : asking.queries.dpAddresses.join.isSome) : asking.queries.dsAddresses.join.isSome := by
  have first : asking.queries.dpAddresses = asking.addresses :=
    Option.or_of_isSome (made.addresses.mpr listed)
  rw [first] at answered
  obtain ⟨addresses, given⟩ := Option.isSome_iff_exists.mp answered
  have alone : asking.addressesAgain = none := Option.not_isSome_iff_eq_none.mp fun again =>
    Option.some_ne_none addresses (given.symm.trans (made.addressesAgain.mp again).2)
  simp only [Asking.queries, alone, Option.none_or]
  exact answered

theorem Asking.Made.fixed (made : asking.Made ctx req tags) {answers : (req : Req) → Ans req}
    (follows : Follows answers asking.said) : asking.queries.AgreesOn tags ctx
      (queriesOf ctx.iotEuiccEmuEnabled req.euiccCiPKId req.searchCriteria answers) := by
  simp only [Asking.said, follows_append] at follows
  obtain ⟨notifications, certsAgain, certs, eimCfg, addressesAgain, info2, sgp32Info2, info1, addresses, -⟩ := follows
  rw [follows_exchange] at eimCfg addressesAgain info2 sgp32Info2 info1 addresses
  exact {
    dpAddresses := fun listed => (Option.or_of_isSome (made.addresses.mpr listed)).trans
      (fixed_of_made made.addresses addresses listed)
    euiccInfo1 := fixed_of_made made.info1 info1
    euiccInfo2 := fixed_of_made made.info2 info2
    sgp32EuiccInfo2 := fixed_of_made made.sgp32Info2 sgp32Info2
    dsAddresses := fixed_of_remade made.addressesAgain isSome_of_join addresses addressesAgain
    eimCfgData := fixed_of_made made.eimCfg eimCfg
    eumCerts := fun listed => (Option.or_of_isSome (made.certs.mpr listed)).trans
      (fixed_of_made made.certs (made.certsSaid.follows certs) listed)
    euiccCerts := fixed_of_remade made.certsAgain isSome_of_join (made.certsSaid.follows certs)
      (made.certsAgainSaid.follows certsAgain)
    notifications := fixed_of_made made.notifications (made.notificationsSaid.follows notifications) }

theorem Asking.Made.collected (made : asking.Made ctx req tags) :
    Collected codec ctx req tags asking.said (asking.data codec ctx tags) := by
  constructor
  · rw [made.queriesIn_said]
    exact made.data codec
  · rw [made.queriesIn_said]
    exact made.known
  · rw [made.queriesIn_said]
    exact fun answers follows => made.fixed follows

end

/-- The program stopped at a string without a buffer. -/
inductive Stopped (t : Trace) : Trace → Prop where
  | encode (req : Req) (before : Trace) : Stopped t (⟨.encode req, .aborted⟩ :: (before ++ t))

theorem stopped_of_suffix {t t' : Trace} (req : Req) (suffix : t <:+ t') :
    Stopped t (⟨.encode req, .aborted⟩ :: t') := by
  obtain ⟨before, rfl⟩ := suffix
  exact .encode req before

theorem collectIpaEuiccData_asking (codec : EimCfgCodec) (ctx : IpaContext) {req : IpaEuiccDataRequest}
    {tags : List Tag} (listing : req.tagList = tags.flatMap Tag.bytes) (t : Trace) :
    Ends (fun out t' => ∃ asking : Asking, t' = asking.said ++ t ∧ asking.Made ctx req (tags.map Tag.value) ∧
      out.1 = asking.data codec ctx (tags.map Tag.value)) (fun _ => Stopped t)
    (collectIpaEuiccData codec ctx req) t := by
  unfold collectIpaEuiccData
  rw [listing]
  apply (asked_posed 0x80 .getEuiccConfiguredAddresses fun ans => ans).bind
  rintro _ _ ⟨addresses, posed₀, rfl⟩
  apply (asked_posed 0xBF20 .getEuiccInfo1 fun ans => ans).bind
  rintro _ _ ⟨info1, posed₁, rfl⟩
  apply (getEuiccInfo2_posed ctx).bind
  rintro res _ ⟨sgp32Info2, info2, _, posed₂, posed₃⟩
  apply (rootSmdsAddressMember_posed _).bind
  rintro _ _ ⟨addressesAgain, posed₄, rfl⟩
  apply (ipaEs10bGetEimCfgData_posed codec ctx).bind
  rintro _ t₅ ⟨eimCfg, posed₅, rfl⟩
  have early : t <:+ t₅ := posed₀.suffix.trans (posed₁.suffix.trans (posed₂.suffix.trans (posed₃.suffix.trans
    (posed₄.suffix.trans posed₅.suffix))))
  apply (asked_forwarded 0xA5 (.getCerts req.euiccCiPKId) (fun ans => ans.map decGetCertsRes)
    (stopped_of_suffix _ early)).bind
  rintro _ _ ⟨certs, certsSaid, asks₆, rfl⟩
  rw [bind_map_join]
  have later := early.trans asks₆.suffix
  apply (euiccCertificateMember_forwarded req.euiccCiPKId certs (stopped_of_suffix _ later)).bind
  rintro _ _ ⟨certsAgain, certsAgainSaid, asks₇, rfl⟩
  apply (asked_forwarded 0xBF2B (.retrieveNotifications _) _ (stopped_of_suffix _ (later.trans asks₇.suffix))).bind
  rintro _ _ ⟨notifications, notificationsSaid, asks₈, rfl⟩
  refine ⟨⟨addresses, info1, sgp32Info2, info2, addressesAgain, eimCfg, certs, certsSaid, certsAgain, certsAgainSaid,
    notifications, notificationsSaid⟩, ?_, ⟨posed₀.made, posed₁.made, posed₂.made, posed₃.made, posed₄.made,
      posed₅.made, asks₆.made, asks₆.exchanged, asks₇.made, asks₇.exchanged, asks₈.made, asks₈.exchanged⟩, ?_⟩
  · rw [asks₈.said, asks₇.said, asks₆.said, posed₅.said, posed₄.said, posed₃.said, posed₂.said, posed₁.said,
      posed₀.said]
    simp only [Asking.said, List.append_assoc, List.nil_append]
  · simp only [Asking.data, IpaEuiccData.mk.injEq]
    exact ⟨rfl, rfl, euiccInfo2Member_eq res, trivial, wanted_bind .., eumCertificateMember_eq certs.join, trivial,
      wanted_some (ipaTagInTaglist_iff 0x88 tags), wanted_some (ipaTagInTaglist_iff 0xA9 tags),
      notificationsList_eq ctx notifications⟩

/-- How the procedure may end: with what was collected sent, with what was collected not encoded, or at a string
without a buffer. -/
inductive Concluded (codec : EimCfgCodec) (ctx : IpaContext) (req : IpaEuiccDataRequest) (tags : List UInt16) :
    Trace → Prop where
  | sent (data : IpaEuiccData) (ans : Option (Option (List Int))) (before : Trace)
      (collected : Collected codec ctx req tags before data) (encoded : Encoded before) :
      Concluded codec ctx req tags (⟨.provideEimPackageOutcome (.ipaEuiccDataResponse data), ans⟩ ::
        ⟨.encode (.provideEimPackageOutcome (.ipaEuiccDataResponse data)), .encoded⟩ :: before)
  | refused (outcome : EimPackageOutcome) (before : Trace) :
      Concluded codec ctx req tags (⟨.encode (.provideEimPackageOutcome outcome), .refused⟩ :: before)
  | aborted (other : Req) (before : Trace) : Concluded codec ctx req tags (⟨.encode other, .aborted⟩ :: before)

theorem ends_free {P : Trace → Prop} {t : Trace} (holds : P t) (notifications : Option RetrNotifFromLstRes)
    (rc : Int) : Ends (fun _ => P) (fun _ => P)
      (ofExcept (ipaEs10bRetrNotifFromLstResFree notifications) >>= fun _ => pure rc) t := by
  rw [ends_bind]
  cases ipaEs10bRetrNotifFromLstResFree notifications with
  | ok => exact holds
  | error => exact holds

theorem ipaProcEuiccDataReq_concluded (codec : EimCfgCodec) (ctx : IpaContext) {req : IpaEuiccDataRequest}
    {tags : List Tag} (listing : req.tagList = tags.flatMap Tag.bytes) (t : Trace) :
    Ends (fun _ t' => ∃ said, t' = said ++ t ∧ Concluded codec ctx req (tags.map Tag.value) said)
      (fun _ t' => ∃ said, t' = said ++ t ∧ Concluded codec ctx req (tags.map Tag.value) said)
      (ipaProcEuiccDataReq codec ctx req) t := by
  apply Ends.bind ((collectIpaEuiccData_asking codec ctx listing t).mono (fun _ _ => id) ?_)
  · rintro ⟨data, notifications⟩ _ ⟨asking, rfl, made, same⟩
    obtain rfl : data = asking.data codec ctx (tags.map Tag.value) := same
    apply (ends_bind ..).mpr
    apply (ends_send ..).mpr
    refine ⟨fun ans => ?_, ?_, ?_⟩
    · exact ends_free ⟨_, rfl, .sent _ ans _ (made.collected codec) made.encoded⟩ _ _
    · exact ends_free ⟨_, rfl, .refused _ _⟩ _ _
    · exact ⟨_, rfl, .aborted _ _⟩
  · rintro abort _ ⟨other, before⟩
    exact ⟨_, rfl, .aborted other before⟩

theorem IpaEuiccData.with_eq_iff (data : IpaEuiccData) (info2 : Option Sgp32EuiccInfo2)
    (address : Option (List UInt8)) :
    { data with euiccInfo2 := info2, rootSmdsAddress := address } = data ↔
      info2 = data.euiccInfo2 ∧ address = data.rootSmdsAddress := by
  constructor
  · exact fun same => ⟨congrArg IpaEuiccData.euiccInfo2 same, congrArg IpaEuiccData.rootSmdsAddress same⟩
  · rintro ⟨rfl, rfl⟩
    rfl

theorem Collected.complete_iff {codec : EimCfgCodec} {ctx : IpaContext} {req : IpaEuiccDataRequest}
    {tags : List UInt16} {said : Trace} {data : IpaEuiccData} (collected : Collected codec ctx req tags said data) :
    data = ((queriesIn said).delivered codec ctx).only tags ↔ Unaffected tags ctx (queriesIn said) := by
  rw [collected.data, IpaEuiccData.with_eq_iff]
  show none = wanted tags 0xBF22 _ ∧ _ = wanted tags 0x83 _ ↔ _
  constructor
  · rintro ⟨info2, addresses⟩
    constructor
    · exact fun listed => (if_pos listed).symm.trans info2.symm
    · intro first second
      by_contra answered
      have answered := Option.isSome_iff_ne_none.mpr answered
      rw [if_pos ⟨first, answered⟩] at addresses
      have missing := (addresses.trans (if_pos second)).symm
      exact Option.isSome_iff_ne_none.mp (collected.known first answered) (Option.map_eq_none_iff.mp missing)
  · rintro ⟨info2, addresses⟩
    constructor
    · by_cases listed : 0xBF22 ∈ tags
      · exact (info2 listed).symm.trans (if_pos listed).symm
      · exact (if_neg listed).symm
    · by_cases second : 0x83 ∈ tags
      · rw [if_neg]
        · rfl
        · exact fun both => Option.isSome_iff_ne_none.mp both.2 (addresses both.1 second)
      · have unwanted {α : Type} (member : Option α) : wanted tags 0x83 member = none := if_neg second
        simp only [unwanted, ite_self]

theorem Concluded.exact_iff {codec : EimCfgCodec} {ctx : IpaContext} {req : IpaEuiccDataRequest}
    {tags : List UInt16} {said : Trace} (concluded : Concluded codec ctx req tags said) :
    AnsweredExactly tags codec ctx req said ↔ Unaffected tags ctx (queriesIn said) ∧ Encoded said := by
  cases concluded with
  | sent data ans before collected encoded =>
      have whole : Encoded (⟨.provideEimPackageOutcome (.ipaEuiccDataResponse data), ans⟩ ::
          ⟨.encode (.provideEimPackageOutcome (.ipaEuiccDataResponse data)), .encoded⟩ :: before) := by
        constructor
        · intro other member
          simp only [List.mem_cons] at member
          rcases member with same | same | member
          · cases same
          · cases same
          · exact encoded.buffered other member
        · intro outcome member
          simp only [List.mem_cons] at member
          rcases member with same | same | member
          · cases same
          · cases same
          · exact encoded.answer outcome member
      rw [and_iff_left whole]
      refine Iff.trans ?_ collected.complete_iff
      constructor
      · rintro ⟨data', ans', before', same, exact', -⟩
        cases same
        exact exact'
      · intro complete
        refine ⟨data, ans, _, rfl, complete, fun answers follows => complete.trans ?_⟩
        have queries := (List.forall_mem_cons.mp (List.forall_mem_cons.mp follows).2).2
        exact (collected.fixed answers queries).only codec
  | refused outcome before =>
      refine iff_of_false ?_ fun both => both.2.answer outcome List.mem_cons_self
      rintro ⟨data', ans', before', same, -⟩
      cases same
  | aborted other before =>
      refine iff_of_false ?_ fun both => both.2.buffered other List.mem_cons_self
      rintro ⟨data', ans', before', same, -⟩
      cases same

def rootSmdsTag : Tag := .one 0x83 (by decide)

def euiccInfo2Tag : Tag := .two 0xBF 0x22 (by decide)

def wanting (tags : List Tag) : IpaEuiccDataRequest where
  tagList := tags.flatMap Tag.bytes
  euiccCiPKId := none
  searchCriteria := none

def plainInfo2 : Sgp32EuiccInfo2 where
  profileVersion := [2, 3, 1]
  svn := [2, 5, 0]
  euiccFirmwareVer := [1, 0, 0]
  extCardResource := [0x81, 0x01, 0x00]
  uiccCapability := [0x7F]
  ts102241Version := none
  globalplatformVersion := none
  rspCapability := [0x80]
  euiccCiPKIdListForVerification := [[1]]
  euiccCiPKIdListForSigning := [[1]]
  euiccCategory := none
  forbiddenProfilePolicyRules := none
  ppVersion := [0, 0, 1]
  sasAcreditationNumber := [0x41]
  certificationDataObject := none
  treProperties := none
  treProductReference := none
  additionalEuiccProfilePackageVersions := none
  ipaMode := none
  rfu2 := none
  rfu3 := none
  rfu4 := none
  iotSpecificInfo := none

def plainEuicc : (req : Req) → Option (Ans req)
  | .getEuiccConfiguredAddresses => some (some ⟨none, [0x61]⟩)
  | .getEuiccInfo2Sgp32 => some (some plainInfo2)
  | _ => none

def conversation (tags : List Tag) : Trace :=
  (run (replies plainEuicc) (ipaProcEuiccDataReq derCodec (freshContext false) (wanting tags)) []).2

theorem conversation_runs (tags : List Tag) : ∃ out,
    Runs (ipaProcEuiccDataReq derCodec (freshContext false) (wanting tags)) [] out (conversation tags ++ []) := by
  rw [List.append_nil]
  exact ⟨_, runs_run ..⟩

end Ipad.Proc
