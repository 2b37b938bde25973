import Ipad.Euicc.Apdu

namespace Ipad.Euicc

def maxBlocksizeRx : Nat := 256
def ipaLenEuiccBuf : Nat := 256

/-- What a call has come to. A loop that the card keeps going is `running` when its fuel is used up. -/
inductive Outcome (α : Type) where
  | running
  | fault (f : Fault)
  | returned (value : α)
  deriving DecidableEq, Repr

def getResponseApdu (channel : UInt8) (blockLen : Nat) : ReqApdu :=
  { cla := 0x00 ||| channel, ins := 0xC0, p1 := 0x00, p2 := 0x00, le := blockLen, data := []
    lc_le := Nat.zero_le _, t0 := .inl rfl }

def appendEs10xRes (es10xRes : IpaBuf) (data : List UInt8) : Except Fault IpaBuf :=
  (es10xRes.grow ipaLenEuiccBuf data.length).bind fun es10xRes => es10xRes.store data

def recvEs10xBlock (card : Card) (ctx : EuiccCtx) (es10xRes : IpaBuf) (blockLen : Nat) :
    EuiccCtx × IpaBuf × Except Fault (Except Errno UInt16) :=
  if ctx.euiccChannel > 3 then (ctx, es10xRes, .error .assertion)
  else
    let blockLen := if blockLen > maxBlocksizeRx then maxBlocksizeRx else blockLen
    match ipaScardTransceive card ctx (maxBlocksizeRx + 2)
        (getResponseApdu ctx.euiccChannel blockLen) with
    | (ctx, .error _) => ({ ctx with checkScard := true }, es10xRes, .ok (.error .eio))
    | (ctx, .ok bufRes) =>
        match parseResApdu bufRes with
        | .error _ => (ctx, es10xRes, .ok (.error .einval))
        | .ok resApdu =>
            if resApdu.le ≠ blockLen then (ctx, es10xRes, .ok (.error .einval))
            else
              match appendEs10xRes es10xRes resApdu.data with
              | .error f => (ctx, es10xRes, .error f)
              | .ok es10xRes => (ctx, es10xRes, .ok (.ok resApdu.sw))

/-- The second loop of `euicc_transceive_es10x`, for at most `fuel` GET RESPONSE commands. -/
def recvBlocks (card : Card) :
    (fuel : Nat) → EuiccCtx → UInt16 → IpaBuf → EuiccCtx × IpaBuf × Outcome (Except Errno Unit)
  | 0, ctx, _, es10xRes => (ctx, es10xRes, .running)
  | fuel + 1, ctx, sw, es10xRes =>
      match recvEs10xBlock card ctx es10xRes (announced sw) with
      | (ctx, es10xRes, .error f) => (ctx, es10xRes, .fault f)
      | (ctx, es10xRes, .ok (.error _)) => (ctx, es10xRes, .returned (.error .eio))
      | (ctx, es10xRes, .ok (.ok sw)) =>
          if swOk sw then (ctx, es10xRes, .returned (.ok ()))
          else if !swMore sw then (ctx, es10xRes, .returned (.error .einval))
          else recvBlocks card fuel ctx sw es10xRes

theorem appendEs10xRes_ok (es10xRes : IpaBuf) (valid : es10xRes.Valid) (data : List UInt8) :
    ∃ appended, appendEs10xRes es10xRes data = .ok appended ∧
      appended.bytes = es10xRes.bytes ++ data ∧ appended.Valid := by
  obtain ⟨grown, growth, bytes, -, room⟩ :=
    IpaBuf.grow_ok ipaLenEuiccBuf (by decide) es10xRes valid data.length
  obtain ⟨stored, copied, content, sound, -⟩ := grown.store_ok data room
  refine ⟨stored, ?_, by rw [content, bytes], sound⟩
  rw [appendEs10xRes, growth]
  exact copied

/-! ## What one GET RESPONSE can do -/

section
variable (card : Card) (ctx : EuiccCtx) (sw : UInt16) (es10xRes : IpaBuf)

def nextApdu : ReqApdu := getResponseApdu ctx.euiccChannel (announced sw)

def nextAnswer : Option (List UInt8) := ctx.answer card (maxBlocksizeRx + 2) (nextApdu ctx sw)

def nextCtx : EuiccCtx := ctx.exchange card (maxBlocksizeRx + 2) (nextApdu ctx sw)

def Fits (sw : UInt16) (answer : Option (List UInt8)) (res : ResApdu) : Prop :=
  readAnswer answer = some res ∧ res.le = announced sw

private theorem clipped (sw : UInt16) :
    (if announced sw > maxBlocksizeRx then maxBlocksizeRx else announced sw) = announced sw :=
  if_neg (Nat.not_lt.mpr (announced_le sw))

theorem recvEs10xBlock_fits (channel : ¬ ctx.euiccChannel > 3) (valid : es10xRes.Valid) (res : ResApdu)
    (fits : Fits sw (nextAnswer card ctx sw) res) :
    ∃ appended, recvEs10xBlock card ctx es10xRes (announced sw) =
        (nextCtx card ctx sw, appended, .ok (.ok res.sw)) ∧
      appended.bytes = es10xRes.bytes ++ res.data ∧ appended.Valid := by
  obtain ⟨read, length⟩ := fits
  obtain ⟨bufRes, transceived, parsed⟩ := ipaScardTransceive_answered card ctx _ _ res read
  obtain ⟨appended, stored, bytes, sound⟩ := appendEs10xRes_ok es10xRes valid res.data
  refine ⟨appended, ?_, bytes, sound⟩
  unfold nextApdu at transceived
  simp only [recvEs10xBlock, if_neg channel, clipped, transceived, parsed, ne_eq, length,
    not_true_eq_false, if_false, stored]
  rfl

theorem recvEs10xBlock_unfit (channel : ¬ ctx.euiccChannel > 3)
    (unfit : ∀ res, ¬ Fits sw (nextAnswer card ctx sw) res) :
    ∃ after e, recvEs10xBlock card ctx es10xRes (announced sw) = (after, es10xRes, .ok (.error e)) ∧
      after.log = (nextCtx card ctx sw).log := by
  cases read : readAnswer (nextAnswer card ctx sw) with
  | none =>
      obtain ⟨recorded, unparsed⟩ := ipaScardTransceive_unanswered card ctx _ _ read
      unfold nextApdu at recorded unparsed
      rcases transceived : ipaScardTransceive card ctx (maxBlocksizeRx + 2)
        (getResponseApdu ctx.euiccChannel (announced sw)) with ⟨after, e | bufRes⟩
      · have log : after.log = (nextCtx card ctx sw).log := by
          rw [transceived] at recorded
          exact congrArg EuiccCtx.log recorded
        refine ⟨{ after with checkScard := true }, .eio, ?_, log⟩
        simp only [recvEs10xBlock, if_neg channel, clipped, transceived]
      · rw [transceived] at recorded unparsed
        obtain ⟨e, failed⟩ := unparsed bufRes rfl
        refine ⟨after, .einval, ?_, congrArg EuiccCtx.log recorded⟩
        simp only [recvEs10xBlock, if_neg channel, clipped, transceived, failed]
  | some res =>
      obtain ⟨bufRes, transceived, parsed⟩ := ipaScardTransceive_answered card ctx _ _ res read
      have other : res.le ≠ announced sw := fun length => unfit res ⟨read, length⟩
      unfold nextApdu at transceived
      refine ⟨nextCtx card ctx sw, .einval, ?_, rfl⟩
      simp only [recvEs10xBlock, if_neg channel, clipped, transceived, parsed, if_pos other]
      rfl

end

/-! ## The answers to a chain of GET RESPONSE commands -/

inductive Ending where
  | pending
  | complete
  | broken
  deriving DecidableEq, Repr

/-- The exchanges that follow a status word `sw`, the data they bring and how they end. -/
inductive Chain (channel : UInt8) : UInt16 → List Exchange → List UInt8 → Ending → Prop where
  | pending (sw : UInt16) : Chain channel sw [] [] .pending
  | complete (sw : UInt16) (answer : Option (List UInt8)) (res : ResApdu) (fits : Fits sw answer res)
      (ok : swOk res.sw = true) :
      Chain channel sw [⟨getResponseApdu channel (announced sw), answer⟩] res.data .complete
  | unfit (sw : UInt16) (answer : Option (List UInt8)) (unfit : ∀ res, ¬ Fits sw answer res) :
      Chain channel sw [⟨getResponseApdu channel (announced sw), answer⟩] [] .broken
  | refused (sw : UInt16) (answer : Option (List UInt8)) (res : ResApdu) (fits : Fits sw answer res)
      (notOk : swOk res.sw = false) (notMore : swMore res.sw = false) :
      Chain channel sw [⟨getResponseApdu channel (announced sw), answer⟩] res.data .broken
  | more (sw : UInt16) (answer : Option (List UInt8)) (res : ResApdu) (fits : Fits sw answer res)
      (more : swMore res.sw = true) (rest : List Exchange) (data : List UInt8) (ending : Ending)
      (chain : Chain channel res.sw rest data ending) :
      Chain channel sw (⟨getResponseApdu channel (announced sw), answer⟩ :: rest) (res.data ++ data) ending

def Tells : Outcome (Except Errno Unit) → Ending → Prop
  | .running, ending => ending = .pending
  | .fault _, _ => False
  | .returned (.ok ()), ending => ending = .complete
  | .returned (.error _), ending => ending = .broken

inductive Completes (card : Card) : EuiccCtx → UInt16 → Prop where
  | last (ctx : EuiccCtx) (sw : UInt16) (res : ResApdu) (fits : Fits sw (nextAnswer card ctx sw) res)
      (ok : swOk res.sw = true) : Completes card ctx sw
  | more (ctx : EuiccCtx) (sw : UInt16) (res : ResApdu) (fits : Fits sw (nextAnswer card ctx sw) res)
      (more : swMore res.sw = true) (rest : Completes card (nextCtx card ctx sw) res.sw) :
      Completes card ctx sw

section
variable (card : Card)

theorem recvBlocks_chain (fuel : Nat) (ctx : EuiccCtx) (sw : UInt16) (es10xRes : IpaBuf)
    (channel : ¬ ctx.euiccChannel > 3) (valid : es10xRes.Valid) :
    ∃ answers data ending, Chain ctx.euiccChannel sw answers data ending ∧
      (recvBlocks card fuel ctx sw es10xRes).1.log = ctx.log ++ answers ∧
      (recvBlocks card fuel ctx sw es10xRes).2.1.Valid ∧
      Tells (recvBlocks card fuel ctx sw es10xRes).2.2 ending ∧
      (ending ≠ .broken →
        (recvBlocks card fuel ctx sw es10xRes).2.1.bytes = es10xRes.bytes ++ data) := by
  induction fuel generalizing ctx sw es10xRes with
  | zero => exact ⟨[], [], .pending, .pending sw, by simp [recvBlocks], valid, rfl, by simp [recvBlocks]⟩
  | succ fuel ih =>
      by_cases fitting : ∃ res, Fits sw (nextAnswer card ctx sw) res
      · obtain ⟨res, fits⟩ := fitting
        obtain ⟨appended, received, bytes, sound⟩ :=
          recvEs10xBlock_fits card ctx sw es10xRes channel valid res fits
        unfold recvBlocks
        rw [received]
        by_cases ok : swOk res.sw = true
        · simp only [ok, if_true]
          exact ⟨_, _, .complete, .complete sw _ res fits ok, rfl, sound, rfl, fun _ => bytes⟩
        · have notOk : swOk res.sw = false := by simpa using ok
          by_cases more : swMore res.sw = true
          · simp only [notOk, more, Bool.false_eq_true, Bool.not_true, if_false]
            obtain ⟨answers, data, ending, chain, log, still, tells, content⟩ :=
              ih (nextCtx card ctx sw) res.sw appended channel sound
            refine ⟨_, _, ending, .more sw _ res fits more answers data ending chain, ?_, still, tells, ?_⟩
            · rw [log]
              simp only [nextCtx, nextApdu, nextAnswer, EuiccCtx.exchange, EuiccCtx.record_log,
                List.append_assoc, List.singleton_append]
            · intro unbroken
              rw [content unbroken, bytes, List.append_assoc]
          · have notMore : swMore res.sw = false := by simpa using more
            simp only [notOk, notMore, Bool.false_eq_true, Bool.not_false, if_true, if_false]
            exact ⟨_, _, .broken, .refused sw _ res fits notOk notMore, rfl, sound, rfl,
              fun unbroken => absurd rfl unbroken⟩
      · have unfit : ∀ res, ¬ Fits sw (nextAnswer card ctx sw) res := fun res fits => fitting ⟨res, fits⟩
        obtain ⟨after, e, received, log⟩ := recvEs10xBlock_unfit card ctx sw es10xRes channel unfit
        unfold recvBlocks
        rw [received]
        exact ⟨_, _, .broken, .unfit sw _ unfit, log, valid, rfl, fun unbroken => absurd rfl unbroken⟩

theorem recvBlocks_assertion (fuel : Nat) (ctx : EuiccCtx) (sw : UInt16) (es10xRes : IpaBuf)
    (channel : ctx.euiccChannel > 3) :
    recvBlocks card (fuel + 1) ctx sw es10xRes = (ctx, es10xRes, .fault .assertion) := by
  simp only [recvBlocks, recvEs10xBlock, if_pos channel]

theorem recvBlocks_returns_iff (ctx : EuiccCtx) (sw : UInt16) (es10xRes : IpaBuf)
    (channel : ¬ ctx.euiccChannel > 3) (valid : es10xRes.Valid) :
    (∃ fuel, (recvBlocks card fuel ctx sw es10xRes).2.2 = .returned (.ok ())) ↔ Completes card ctx sw := by
  constructor
  · rintro ⟨fuel, returned⟩
    induction fuel generalizing ctx sw es10xRes with
    | zero => cases returned
    | succ fuel ih =>
        unfold recvBlocks at returned
        by_cases fitting : ∃ res, Fits sw (nextAnswer card ctx sw) res
        · obtain ⟨res, fits⟩ := fitting
          obtain ⟨appended, received, -, sound⟩ :=
            recvEs10xBlock_fits card ctx sw es10xRes channel valid res fits
          rw [received] at returned
          by_cases ok : swOk res.sw = true
          · exact .last ctx sw res fits ok
          · by_cases more : swMore res.sw = true
            · simp only [ok, more, Bool.false_eq_true, Bool.not_true, if_false] at returned
              exact .more ctx sw res fits more (ih _ _ _ channel sound returned)
            · simp [ok, more] at returned
        · obtain ⟨after, e, received, -⟩ := recvEs10xBlock_unfit card ctx sw es10xRes channel
            (fun res fits => fitting ⟨res, fits⟩)
          simp [received] at returned
  · intro completes
    induction completes generalizing es10xRes with
    | last ctx sw res fits ok =>
        obtain ⟨appended, received, -, -⟩ := recvEs10xBlock_fits card ctx sw es10xRes channel valid res fits
        exact ⟨1, by simp only [recvBlocks, received, ok, if_true]⟩
    | more ctx sw res fits more rest ih =>
        obtain ⟨appended, received, -, sound⟩ :=
          recvEs10xBlock_fits card ctx sw es10xRes channel valid res fits
        obtain ⟨fuel, returned⟩ := ih appended channel sound
        have notOk : ¬ swOk res.sw = true := fun ok => by simp [not_swMore_of_swOk _ ok] at more
        refine ⟨fuel + 1, ?_⟩
        simpa only [recvBlocks, received, notOk, more, Bool.false_eq_true, Bool.not_true, if_false]
          using returned

end

end Ipad.Euicc
