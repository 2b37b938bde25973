import Ipad.Euicc.Transceive

/-!
# The communication channel

How the channel to the ISD-R is opened and closed, and the session that a context has with its card.
-/

namespace Ipad.Euicc

def termcapApdu : ReqApdu where
  cla := 0x80
  ins := 0xAA
  p1 := 0x00
  p2 := 0x00
  le := 0
  data := [0xA9, 0x03, 0x83, 0x01, 0x07]
  lc_le := by decide
  t0 := .inr rfl

def aidIsdR : List UInt8 :=
  [0xA0, 0x00, 0x00, 0x05, 0x59, 0x10, 0x10, 0xFF, 0xFF, 0xFF, 0xFF, 0x89, 0x00, 0x00, 0x01, 0x00]

def selectApdu (channel : UInt8) : ReqApdu where
  cla := 0x00 ||| channel
  ins := 0xA4
  p1 := 0x04
  p2 := 0x04
  le := 0
  data := aidIsdR
  lc_le := by decide
  t0 := .inr rfl

def manageChannelApdu (channel : UInt8) (close : Bool) : ReqApdu where
  cla := 0x00
  ins := 0x70
  p1 := if close then 0x80 else 0x00
  p2 := channel
  le := 0
  data := []
  lc_le := by decide
  t0 := .inl rfl

/-- What `send_termcap`, `select_isd_r` and `manage_channel` do with their command. -/
def sendCommand (accepted : UInt16 → Bool) (card : Card) (ctx : EuiccCtx) (req : ReqApdu) :
    EuiccCtx × Except Errno Unit :=
  match ipaScardTransceive card ctx (maxBlocksizeRx + 2) req with
  | (ctx, .error _) => ({ ctx with checkScard := true }, .error .eio)
  | (ctx, .ok bufRes) =>
      match parseResApdu bufRes with
      | .error _ => (ctx, .error .einval)
      | .ok resApdu => (ctx, if accepted resApdu.sw then .ok () else .error .einval)

def swTermcap (sw : UInt16) : Bool := sw &&& 0xff00 == 0x9000

def sendTermcap (card : Card) (ctx : EuiccCtx) : EuiccCtx × Except Errno Unit :=
  sendCommand swTermcap card ctx termcapApdu

def selectIsdR (card : Card) (ctx : EuiccCtx) : EuiccCtx × Except Fault (Except Errno Unit) :=
  if ctx.euiccChannel > 3 then (ctx, .error .assertion)
  else
    let (ctx, rc) := sendCommand swMore card ctx (selectApdu ctx.euiccChannel)
    (ctx, .ok rc)

def manageChannel (card : Card) (ctx : EuiccCtx) (close : Bool) :
    EuiccCtx × Except Fault (Except Errno Unit) :=
  if ctx.euiccChannel > 3 then (ctx, .error .assertion)
  else if ctx.euiccChannel = 0 then (ctx, .ok (.ok ()))
  else
    let (ctx, rc) := sendCommand swOk card ctx (manageChannelApdu ctx.euiccChannel close)
    (ctx, .ok rc)

def ipaEuiccInitEs10x (card : Card) (ctx : EuiccCtx) : EuiccCtx × Except Fault (Except Errno Unit) :=
  match sendTermcap card ctx with
  | (ctx, .error e) => (ctx, .ok (.error e))
  | (ctx, .ok ()) =>
      match manageChannel card ctx false with
      | (ctx, .error f) => (ctx, .error f)
      | (ctx, .ok (.error e)) => (ctx, .ok (.error e))
      | (ctx, .ok (.ok ())) => selectIsdR card ctx

def ipaEuiccCloseEs10x (card : Card) (ctx : EuiccCtx) : EuiccCtx × Except Fault (Except Errno Unit) :=
  manageChannel card ctx true

/-! ## Sessions -/

def requests (card : Card) (fuel : Nat) :
    EuiccCtx → List ValidBuf → EuiccCtx × Outcome (List (Option IpaBuf))
  | ctx, [] => (ctx, .returned [])
  | ctx, es10xReq :: rest =>
      match ipaEuiccTransceiveEs10x card fuel ctx es10xReq with
      | (ctx, .running) => (ctx, .running)
      | (ctx, .fault f) => (ctx, .fault f)
      | (ctx, .returned es10xRes) =>
          match requests card fuel ctx rest with
          | (ctx, .running) => (ctx, .running)
          | (ctx, .fault f) => (ctx, .fault f)
          | (ctx, .returned others) => (ctx, .returned (es10xRes :: others))

/-- The end of a context whose reader was set up. Nobody looks at what closing has come to. -/
def freeCtx {α : Type} (card : Card) (ctx : EuiccCtx) (value : α) : EuiccCtx × Outcome α :=
  match ipaEuiccCloseEs10x card ctx with
  | (ctx, .error f) => (ctx, .fault f)
  | (ctx, .ok _) => (ctx, .returned value)

/-- From `ipa_init` to `ipa_free_ctx`, with the requests made in between. When the channel cannot be set up
no request is made, and the context is freed all the same. -/
def session (card : Card) (fuel : Nat) (ctx : EuiccCtx) (reqs : List ValidBuf) :
    EuiccCtx × Outcome (Option (List (Option IpaBuf))) :=
  match ipaEuiccInitEs10x card ctx with
  | (ctx, .error f) => (ctx, .fault f)
  | (ctx, .ok (.error _)) => freeCtx card ctx none
  | (ctx, .ok (.ok ())) =>
      match requests card fuel ctx reqs with
      | (ctx, .running) => (ctx, .running)
      | (ctx, .fault f) => (ctx, .fault f)
      | (ctx, .returned results) => freeCtx card ctx (some results)

/-! ## What is said on the channel -/

/-- Commands in `P` only were sent in between, and the canary tells whether one of them got lost. -/
structure Spoken (P : ReqApdu → Prop) (before after : EuiccCtx) : Prop where
  euiccChannel : after.euiccChannel = before.euiccChannel
  exchanges : ∃ exchanges, after.log = before.log ++ exchanges ∧ (∀ exchange ∈ exchanges, P exchange.req) ∧
    after.checkScard = (before.checkScard || exchanges.any Exchange.failed)

section
variable {P : ReqApdu → Prop} (card : Card)

theorem Spoken.refl (ctx : EuiccCtx) : Spoken P ctx ctx :=
  ⟨rfl, [], by simp⟩

theorem Spoken.trans {first second third : EuiccCtx} (one : Spoken P first second)
    (two : Spoken P second third) : Spoken P first third := by
  obtain ⟨exchanges, log, each, flag⟩ := one.exchanges
  obtain ⟨later, log', each', flag'⟩ := two.exchanges
  refine ⟨two.euiccChannel.trans one.euiccChannel, exchanges ++ later, ?_, ?_, ?_⟩
  · rw [log', log, List.append_assoc]
  · exact List.forall_mem_append.mpr ⟨each, each'⟩
  · rw [flag', flag, List.any_append, Bool.or_assoc]

theorem Spoken.imp {P' : ReqApdu → Prop} {before after : EuiccCtx} (spoken : Spoken P before after)
    (weaken : ∀ req, P req → P' req) : Spoken P' before after := by
  obtain ⟨exchanges, log, each, flag⟩ := spoken.exchanges
  exact ⟨spoken.euiccChannel, exchanges, log, fun exchange member => weaken _ (each exchange member), flag⟩

theorem ipaScardTransceive_spoken (ctx : EuiccCtx) (resLen : Nat) {req : ReqApdu} (allowed : P req) :
    (∀ after e, ipaScardTransceive card ctx resLen req = (after, .error e) →
        Spoken P ctx { after with checkScard := true }) ∧
      ∀ after bufRes, ipaScardTransceive card ctx resLen req = (after, .ok bufRes) → Spoken P ctx after := by
  unfold ipaScardTransceive
  cases answered : ctx.answer card resLen req with
  | none =>
      refine ⟨?_, fun _ _ failed => by cases failed⟩
      rintro _ _ ⟨⟩
      exact ⟨rfl, [⟨req, none⟩], by simp [EuiccCtx.exchange, answered, allowed, Exchange.failed]⟩
  | some bytes =>
      refine ⟨fun _ _ failed => (by cases failed), ?_⟩
      rintro _ _ ⟨⟩
      exact ⟨rfl, [⟨req, some bytes⟩],
        by simp [EuiccCtx.exchange, EuiccCtx.record, answered, allowed, Exchange.failed]⟩

end

def Es10xOn (channel : UInt8) (req : ReqApdu) : Prop :=
  req.ins = 0xE2 ∧ req.cla = 0x80 ||| channel ∨ req.ins = 0xC0 ∧ req.cla = 0x00 ||| channel

section
variable (card : Card) {channel : UInt8}

theorem sendEs10xBlock_spoken (ctx : EuiccCtx) (es10xReq : ValidBuf) (offset : Nat) (blockNr : UInt8) :
    Spoken (Es10xOn ctx.euiccChannel) ctx (sendEs10xBlock card ctx es10xReq offset blockNr).1 := by
  have allowed : Es10xOn ctx.euiccChannel (storeDataApdu ctx.euiccChannel es10xReq offset blockNr) :=
    .inl ⟨rfl, rfl⟩
  obtain ⟨fails, answers⟩ := ipaScardTransceive_spoken card ctx (maxBlocksizeTx + 2) allowed
  unfold sendEs10xBlock
  simp only
  split
  next after e failed => exact fails after e failed
  next after bufRes answered =>
    split
    · exact answers after bufRes answered
    · exact answers after bufRes answered

theorem sendBlocks_spoken (ctx : EuiccCtx) (es10xReq : ValidBuf) (left offset : Nat) :
    Spoken (Es10xOn ctx.euiccChannel) ctx (sendBlocks card es10xReq left ctx offset).1 := by
  induction left generalizing ctx offset with
  | zero => exact .refl ctx
  | succ left ih =>
      have block := sendEs10xBlock_spoken card ctx es10xReq offset (UInt8.ofNat (254 - left))
      unfold sendBlocks
      split
      next after _ failed =>
        rw [failed] at block
        exact block
      next after rc sw sent =>
        rw [sent] at block
        split
        · exact block
        split
        · exact block
        · have rest := ih after (offset + rc)
          rw [block.euiccChannel] at rest
          exact block.trans rest

theorem recvEs10xBlock_spoken (ctx : EuiccCtx) (es10xRes : IpaBuf) (blockLen : Nat) :
    Spoken (Es10xOn ctx.euiccChannel) ctx (recvEs10xBlock card ctx es10xRes blockLen).1 := by
  unfold recvEs10xBlock
  split
  · exact .refl ctx
  simp only
  generalize (if blockLen > maxBlocksizeRx then maxBlocksizeRx else blockLen) = clipped
  have allowed : Es10xOn ctx.euiccChannel (getResponseApdu ctx.euiccChannel clipped) := .inr ⟨rfl, rfl⟩
  obtain ⟨fails, answers⟩ := ipaScardTransceive_spoken card ctx (maxBlocksizeRx + 2) allowed
  split
  next after e failed => exact fails after e failed
  next after bufRes answered =>
    have spoken := answers after bufRes answered
    split
    · exact spoken
    split
    · exact spoken
    split
    · exact spoken
    · exact spoken

theorem recvBlocks_spoken (fuel : Nat) (ctx : EuiccCtx) (sw : UInt16) (es10xRes : IpaBuf) :
    Spoken (Es10xOn ctx.euiccChannel) ctx (recvBlocks card fuel ctx sw es10xRes).1 := by
  induction fuel generalizing ctx sw es10xRes with
  | zero => exact .refl ctx
  | succ fuel ih =>
      have block := recvEs10xBlock_spoken card ctx es10xRes (announced sw)
      unfold recvBlocks
      split
      next received =>
        rw [received] at block
        exact block
      next received =>
        rw [received] at block
        exact block
      next after next sw' received =>
        rw [received] at block
        split
        · exact block
        split
        · exact block
        · have rest := ih after sw' next
          rw [block.euiccChannel] at rest
          exact block.trans rest

theorem ipaEuiccTransceiveEs10x_spoken (fuel : Nat) (ctx : EuiccCtx) (es10xReq : ValidBuf) :
    Spoken (Es10xOn ctx.euiccChannel) ctx (ipaEuiccTransceiveEs10x card fuel ctx es10xReq).1 := by
  have whole : Spoken (Es10xOn ctx.euiccChannel) ctx
      (euiccTransceiveEs10x card fuel ctx (.alloc ipaLenEuiccBuf) es10xReq).1 := by
    have blocks := sendBlocks_spoken card ctx es10xReq 255 0
    unfold euiccTransceiveEs10x
    split
    next failed =>
      rw [failed] at blocks
      exact blocks
    next after sw sent =>
      rw [sent] at blocks
      unfold responsePhase
      split
      · exact blocks
      split
      · have rest := recvBlocks_spoken card fuel after sw (.alloc ipaLenEuiccBuf)
        rw [blocks.euiccChannel] at rest
        exact blocks.trans rest
      · exact blocks
  unfold ipaEuiccTransceiveEs10x
  split
  all_goals
    next returned =>
      rw [returned] at whole
      exact whole

theorem requests_spoken (fuel : Nat) (ctx : EuiccCtx) (reqs : List ValidBuf) :
    Spoken (Es10xOn ctx.euiccChannel) ctx (requests card fuel ctx reqs).1 := by
  induction reqs generalizing ctx with
  | nil => exact .refl ctx
  | cons es10xReq rest ih =>
      have first := ipaEuiccTransceiveEs10x_spoken card fuel ctx es10xReq
      unfold requests
      split
      next transceived =>
        rw [transceived] at first
        exact first
      next transceived =>
        rw [transceived] at first
        exact first
      next after es10xRes transceived =>
        rw [transceived] at first
        have others := ih after
        rw [first.euiccChannel] at others
        split
        all_goals
          next requested =>
            rw [requested] at others
            exact first.trans others

end

/-! ## The phases of a session -/

abbrev Script := List (ReqApdu × (UInt16 → Bool))

def opening (channel : UInt8) : Script :=
  if channel > 3 then [(termcapApdu, swTermcap)]
  else if channel = 0 then [(termcapApdu, swTermcap), (selectApdu channel, swMore)]
  else [(termcapApdu, swTermcap), (manageChannelApdu channel false, swOk), (selectApdu channel, swMore)]

def Exchange.Accepted (accepted : UInt16 → Bool) (exchange : Exchange) : Prop :=
  ∃ res, readAnswer exchange.res = some res ∧ accepted res.sw = true

/-- The commands of a script are sent in order, up to the first one that is not accepted. -/
inductive Follows : Script → List Exchange → Bool → Prop where
  | done : Follows [] [] true
  | refused (accepted : UInt16 → Bool) (exchange : Exchange) (rest : Script)
      (refused : ¬ exchange.Accepted accepted) : Follows ((exchange.req, accepted) :: rest) [exchange] false
  | accepted (accepted : UInt16 → Bool) (exchange : Exchange) (rest : Script) (exchanges : List Exchange)
      (completed : Bool) (accepts : exchange.Accepted accepted) (follows : Follows rest exchanges completed) :
      Follows ((exchange.req, accepted) :: rest) (exchange :: exchanges) completed

section
variable (accepted : UInt16 → Bool) (card : Card) (ctx : EuiccCtx) (req : ReqApdu)

theorem sendCommand_spoken : Spoken (· = req) ctx (sendCommand accepted card ctx req).1 := by
  obtain ⟨fails, answers⟩ := ipaScardTransceive_spoken (P := (· = req)) card ctx (maxBlocksizeRx + 2) rfl
  unfold sendCommand
  split
  next after e failed => exact fails after e failed
  next after bufRes answered =>
    split
    · exact answers after bufRes answered
    · exact answers after bufRes answered

theorem sendCommand_log :
    (sendCommand accepted card ctx req).1.log =
      ctx.log ++ [⟨req, ctx.answer card (maxBlocksizeRx + 2) req⟩] := by
  unfold sendCommand ipaScardTransceive
  cases answered : ctx.answer card (maxBlocksizeRx + 2) req with
  | none => simp [EuiccCtx.exchange, answered]
  | some bytes =>
      simp only [parseResApdu_append]
      split <;> simp [EuiccCtx.exchange, answered]

theorem sendCommand_accepted :
    (sendCommand accepted card ctx req).2 = .ok () ↔
      (⟨req, ctx.answer card (maxBlocksizeRx + 2) req⟩ : Exchange).Accepted accepted := by
  unfold sendCommand ipaScardTransceive Exchange.Accepted readAnswer
  cases answered : ctx.answer card (maxBlocksizeRx + 2) req with
  | none => simp
  | some bytes =>
      simp only [parseResApdu_append, Option.bind_some]
      cases parsed : parseResApdu (.ofBytes bytes) with
      | error e => simp [Except.toOption]
      | ok res => simp [Except.toOption]

end

def perform (card : Card) : Script → EuiccCtx → EuiccCtx × Except Errno Unit
  | [], ctx => (ctx, .ok ())
  | (req, accepted) :: rest, ctx =>
      match sendCommand accepted card ctx req with
      | (ctx, .error e) => (ctx, .error e)
      | (ctx, .ok ()) => perform card rest ctx

section
variable (card : Card)

theorem perform_spoken (script : Script) (ctx : EuiccCtx) :
    Spoken (fun _ => True) ctx (perform card script ctx).1 := by
  induction script generalizing ctx with
  | nil => exact .refl ctx
  | cons command rest ih =>
      obtain ⟨req, accepted⟩ := command
      have first : Spoken (fun _ => True) ctx (sendCommand accepted card ctx req).1 :=
        (sendCommand_spoken accepted card ctx req).imp fun _ _ => trivial
      unfold perform
      split
      next refused =>
        rw [refused] at first
        exact first
      next after sent =>
        rw [sent] at first
        exact first.trans (ih after)

theorem perform_follows (script : Script) (ctx : EuiccCtx) :
    ∃ exchanges, (perform card script ctx).1.log = ctx.log ++ exchanges ∧
      Follows script exchanges (perform card script ctx).2.isOk := by
  induction script generalizing ctx with
  | nil => exact ⟨[], by simp [perform], .done⟩
  | cons command rest ih =>
      obtain ⟨req, accepted⟩ := command
      have log := sendCommand_log accepted card ctx req
      have answered := sendCommand_accepted accepted card ctx req
      unfold perform
      split
      next refused =>
        rw [refused] at log answered
        exact ⟨_, log, .refused accepted _ rest (by simpa using answered)⟩
      next after sent =>
        rw [sent] at log answered
        obtain ⟨exchanges, later, follows⟩ := ih after
        exact ⟨_ :: exchanges, by rw [later, log, List.append_assoc]; rfl,
          .accepted accepted _ rest exchanges _ (answered.mp rfl) follows⟩

theorem ipaEuiccInitEs10x_eq (ctx : EuiccCtx) (supported : ¬ ctx.euiccChannel > 3) :
    ipaEuiccInitEs10x card ctx =
      ((perform card (opening ctx.euiccChannel) ctx).1, .ok (perform card (opening ctx.euiccChannel) ctx).2) := by
  have channel := (sendCommand_spoken swTermcap card ctx termcapApdu).euiccChannel
  unfold ipaEuiccInitEs10x sendTermcap opening
  rcases sent : sendCommand swTermcap card ctx termcapApdu with ⟨after, e | _⟩ <;> rw [sent] at channel
  · simp only [if_neg supported]
    split <;> simp [perform, sent]
  replace channel : after.euiccChannel = ctx.euiccChannel := channel
  simp only [manageChannel, selectIsdR, channel, if_neg supported]
  by_cases basic : ctx.euiccChannel = 0
  · simp only [if_pos basic, perform, sent, channel, if_neg supported]
    rcases selected : sendCommand swMore card after (selectApdu ctx.euiccChannel) with ⟨last, e | _⟩ <;> rfl
  · have channel' := (sendCommand_spoken swOk card after (manageChannelApdu ctx.euiccChannel false)).euiccChannel
    simp only [if_neg basic, perform, sent]
    rcases managed : sendCommand swOk card after (manageChannelApdu ctx.euiccChannel false) with ⟨last, e | _⟩
    · rfl
    replace channel' : last.euiccChannel = after.euiccChannel := by rw [managed] at channel'; exact channel'
    simp only [channel', channel, if_neg supported]
    rcases selected : sendCommand swMore card last (selectApdu ctx.euiccChannel) with ⟨_, e | _⟩ <;> rfl

theorem ipaEuiccTransceiveEs10x_fault (fuel : Nat) (ctx : EuiccCtx) (es10xReq : ValidBuf)
    (supported : ¬ ctx.euiccChannel > 3) (f : Fault) :
    (ipaEuiccTransceiveEs10x card fuel ctx es10xReq).2 ≠ .fault f := by
  have channel := (sendBlocks_spoken card ctx es10xReq 255 0).euiccChannel
  unfold ipaEuiccTransceiveEs10x euiccTransceiveEs10x
  rcases sent : sendBlocks card es10xReq 255 ctx 0 with ⟨after, e | sw⟩
  · simp
  rw [sent] at channel
  replace supported : ¬ after.euiccChannel > 3 := by rw [channel]; exact supported
  obtain ⟨-, -, ending, -, -, -, tells, -⟩ :=
    recvBlocks_chain card fuel after sw (.alloc ipaLenEuiccBuf) supported (IpaBuf.alloc_valid _)
  by_cases ok : swOk sw = true
  · simp [responsePhase, ok]
  by_cases more : swMore sw = true
  · rcases received : recvBlocks card fuel after sw (.alloc ipaLenEuiccBuf) with ⟨last, es10xRes, _ | f' | (e | _)⟩
    · simp [responsePhase, ok, more, received]
    · rw [received] at tells
      exact tells.elim
    · simp [responsePhase, ok, more, received]
    · simp [responsePhase, ok, more, received]
  · simp [responsePhase, ok, more]

theorem requests_fault (fuel : Nat) (ctx : EuiccCtx) (reqs : List ValidBuf) (supported : ¬ ctx.euiccChannel > 3)
    (f : Fault) : (requests card fuel ctx reqs).2 ≠ .fault f := by
  induction reqs generalizing ctx with
  | nil => simp [requests]
  | cons es10xReq rest ih =>
      have faults := ipaEuiccTransceiveEs10x_fault card fuel ctx es10xReq supported
      have channel := (ipaEuiccTransceiveEs10x_spoken card fuel ctx es10xReq).euiccChannel
      unfold requests
      rcases transceived : ipaEuiccTransceiveEs10x card fuel ctx es10xReq with ⟨after, _ | f' | es10xRes⟩
      · simp
      · exact absurd (by rw [transceived]) (faults f')
      · rw [transceived] at channel
        replace ih := ih after (by rw [channel]; exact supported)
        rcases requested : requests card fuel after rest with ⟨last, _ | f' | others⟩
        · simp [requested]
        · rw [requested] at ih
          simpa [requested] using ih
        · simp [requested]

theorem ipaEuiccInitEs10x_unsupported (ctx : EuiccCtx) (unsupported : ctx.euiccChannel > 3) :
    ∃ rc, ipaEuiccInitEs10x card ctx = ((perform card (opening ctx.euiccChannel) ctx).1, rc) ∧
      (rc = .error .assertion ∨ ∃ e, rc = .ok (.error e)) := by
  have channel := (sendCommand_spoken swTermcap card ctx termcapApdu).euiccChannel
  unfold ipaEuiccInitEs10x sendTermcap opening
  rcases sent : sendCommand swTermcap card ctx termcapApdu with ⟨after, e | _⟩
  · exact ⟨_, by simp [perform, sent, unsupported], .inr ⟨e, rfl⟩⟩
  · rw [sent] at channel
    replace channel : after.euiccChannel = ctx.euiccChannel := channel
    exact ⟨_, by simp [perform, sent, unsupported, manageChannel, channel], .inl rfl⟩

/-! ## Whole sessions -/

/-- What a session said: the channel was opened, ES10x commands went over it once it was open, it was closed. -/
structure Phases (channel : UInt8) (log : List Exchange) where
  opened : List Exchange
  body : List Exchange
  closing : List Exchange
  completed : Bool
  whole : log = opened ++ (body ++ closing)
  follows : Follows (opening channel) opened completed
  es10x : ∀ exchange ∈ body, Es10xOn channel exchange.req
  ready : body ≠ [] → completed = true
  closes : closing = [] ∨ channel ≠ 0 ∧ ∃ res, closing = [⟨manageChannelApdu channel true, res⟩]

structure Disciplined (channel : UInt8) (ctx : EuiccCtx) (out : Outcome (Option (List (Option IpaBuf)))) :
    Prop where
  phases : ∃ phases : Phases channel ctx.log,
    (∀ results, out = .returned results →
      (channel ≠ 0 → phases.closing ≠ []) ∧ (results = none ↔ phases.completed = false))
  canary : ctx.checkScard = ctx.log.any Exchange.failed
  assertion : (∃ f, out = .fault f) ↔ channel > 3

theorem freeCtx_spec {α : Type} (ctx : EuiccCtx) (supported : ¬ ctx.euiccChannel > 3) (value : α) :
    Spoken (fun _ => True) ctx (freeCtx card ctx value).1 ∧ (freeCtx card ctx value).2 = .returned value ∧
      ∃ closing, (freeCtx card ctx value).1.log = ctx.log ++ closing ∧
        (ctx.euiccChannel = 0 ∧ closing = [] ∨
          ctx.euiccChannel ≠ 0 ∧ ∃ res, closing = [⟨manageChannelApdu ctx.euiccChannel true, res⟩]) := by
  unfold freeCtx ipaEuiccCloseEs10x manageChannel
  simp only [if_neg supported]
  by_cases basic : ctx.euiccChannel = 0
  · simp only [if_pos basic]
    exact ⟨.refl ctx, trivial, [], by simp [basic]⟩
  · simp only [if_neg basic]
    refine ⟨(sendCommand_spoken ..).imp fun _ _ => trivial, trivial, _, sendCommand_log .., .inr ⟨basic, _, rfl⟩⟩

end

theorem Spoken.canary {P : ReqApdu → Prop} {channel : UInt8} {ctx : EuiccCtx}
    (spoken : Spoken P ⟨channel, false, []⟩ ctx) : ctx.checkScard = ctx.log.any Exchange.failed := by
  obtain ⟨exchanges, log, -, flag⟩ := spoken.exchanges
  rw [log, flag, List.nil_append, Bool.false_or]

theorem closing_ne_nil {channel : UInt8} {closing : List Exchange} {P : Prop}
    (closes : channel = 0 ∧ P ∨ channel ≠ 0 ∧ ∃ res, closing = [⟨manageChannelApdu channel true, res⟩])
    (managed : channel ≠ 0) : closing ≠ [] := by
  obtain ⟨basic, -⟩ | ⟨-, res, rfl⟩ := closes
  · exact absurd basic managed
  · exact List.cons_ne_nil _ _

section
variable (card : Card) (fuel : Nat) (channel : UInt8) (reqs : List ValidBuf)

theorem session_unsupported (unsupported : channel > 3) :
    (session card fuel ⟨channel, false, []⟩ reqs).1 =
        (perform card (opening channel) ⟨channel, false, []⟩).1 ∧
      (session card fuel ⟨channel, false, []⟩ reqs).2 = .fault .assertion := by
  obtain ⟨rc, opened, rfl | ⟨e, rfl⟩⟩ := ipaEuiccInitEs10x_unsupported card ⟨channel, false, []⟩ unsupported
  · simp [session, opened]
  · have same := (perform_spoken card (opening channel) ⟨channel, false, []⟩).euiccChannel
    replace same : (perform card (opening channel) ⟨channel, false, []⟩).1.euiccChannel > 3 := by
      rw [same]
      exact unsupported
    simp [session, opened, freeCtx, ipaEuiccCloseEs10x, manageChannel, same]

/-- Whatever the card answers, ES10x commands go over the configured channel, and over no channel that has not
been opened and selected. The channel is closed at the end, also when it could not be opened. -/
theorem session_disciplined :
    Disciplined channel (session card fuel ⟨channel, false, []⟩ reqs).1
      (session card fuel ⟨channel, false, []⟩ reqs).2 := by
  have spoken := perform_spoken card (opening channel) ⟨channel, false, []⟩
  obtain ⟨opened, log, follows⟩ := perform_follows card (opening channel) ⟨channel, false, []⟩
  rw [List.nil_append] at log
  by_cases unsupported : channel > 3
  · obtain ⟨same, faulted⟩ := session_unsupported card fuel channel reqs unsupported
    rw [same, faulted]
    exact
      { phases := ⟨⟨opened, [], [], _, by simp [log], follows, by simp, by simp, .inl rfl⟩, by simp⟩
        canary := spoken.canary
        assertion := by simp [unsupported] }
  have setUp := ipaEuiccInitEs10x_eq card ⟨channel, false, []⟩ unsupported
  rcases performed : perform card (opening channel) ⟨channel, false, []⟩ with ⟨after, e | _⟩ <;>
    rw [performed] at spoken log follows
  · have supported : ¬ after.euiccChannel > 3 := by rw [spoken.euiccChannel]; exact unsupported
    obtain ⟨freed, returned, closing, closed, closes⟩ :=
      freeCtx_spec card after supported (none : Option (List (Option IpaBuf)))
    rw [spoken.euiccChannel] at closes
    simp only [performed] at setUp
    simp only [session, setUp, returned]
    refine ⟨⟨⟨opened, [], closing, false, by rw [closed, log, List.nil_append], follows, by simp, by simp,
      closes.imp And.right id⟩, ?_⟩, (spoken.trans freed).canary, by simp [unsupported]⟩
    rintro _ ⟨⟩
    exact ⟨closing_ne_nil closes, by simp⟩
  · have supported : ¬ after.euiccChannel > 3 := by rw [spoken.euiccChannel]; exact unsupported
    have asked := requests_spoken card fuel after reqs
    have faults := requests_fault card fuel after reqs supported
    simp only [performed] at setUp
    rw [spoken.euiccChannel] at asked
    replace asked : Spoken (Es10xOn channel) after (requests card fuel after reqs).1 := asked
    obtain ⟨body, said, es10x, -⟩ := asked.exchanges
    have whole := spoken.trans (asked.imp fun _ _ => trivial)
    rcases requested : requests card fuel after reqs with ⟨last, _ | f | results⟩
    · rw [requested] at said whole
      simp only [session, setUp, requested]
      exact
        { phases := ⟨⟨opened, body, [], true, by rw [said, log, List.append_nil], follows, es10x, fun _ => rfl,
            .inl rfl⟩, by simp⟩
          canary := whole.canary
          assertion := by simp [unsupported] }
    · exact absurd (by rw [requested]) (faults f)
    · rw [requested] at said whole
      have supported : ¬ last.euiccChannel > 3 := by rw [whole.euiccChannel]; exact unsupported
      obtain ⟨freed, returned, closing, closed, closes⟩ := freeCtx_spec card last supported (some results)
      rw [whole.euiccChannel] at closes
      simp only [session, setUp, requested, returned]
      refine ⟨⟨⟨opened, body, closing, true, by rw [closed, said, log, List.append_assoc], follows, es10x,
        fun _ => rfl, closes.imp And.right id⟩, ?_⟩, (whole.trans freed).canary, by simp [unsupported]⟩
      rintro _ ⟨⟩
      exact ⟨closing_ne_nil closes, by simp⟩

end

end Ipad.Euicc
