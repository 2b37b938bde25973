import Ipad.Lib.Blocks
import Ipad.Euicc.Apdu

namespace Ipad.Euicc
open Lib.Blocks

def maxBlocksizeTx : Nat := 255

def storeDataApdu (channel : UInt8) (es10xReq : ValidBuf) (offset : Nat) (blockNr : UInt8) : ReqApdu :=
  let lenReq := es10xReq.len - offset
  { cla := 0x80 ||| channel
    ins := 0xE2
    p1 := if lenReq > maxBlocksizeTx then 0x11 else 0x91
    p2 := blockNr
    le := 0
    data := (es10xReq.data.drop offset).take (if lenReq > maxBlocksizeTx then maxBlocksizeTx else lenReq)
    lc_le := by
      rw [List.length_take]
      split <;> simp only [maxBlocksizeTx] at * <;> omega
    t0 := .inr rfl }

def sendEs10xBlock (card : Card) (ctx : EuiccCtx) (es10xReq : ValidBuf) (offset : Nat) (blockNr : UInt8) :
    EuiccCtx × Except Errno (Nat × UInt16) :=
  let reqApdu := storeDataApdu ctx.euiccChannel es10xReq offset blockNr
  match ipaScardTransceive card ctx (maxBlocksizeTx + 2) reqApdu with
  | (ctx, .error e) => ({ ctx with checkScard := true }, .error e)
  | (ctx, .ok bufRes) =>
      match parseResApdu bufRes with
      | .error e => (ctx, .error e)
      | .ok resApdu => (ctx, .ok (reqApdu.lc, resApdu.sw))

/-- The first loop of `euicc_transceive_es10x`, with the status word it is left with. `block_nr` is
`255 - left`, so no block is left exactly when `block_nr == 255`. -/
def sendBlocks (card : Card) (es10xReq : ValidBuf) :
    (left : Nat) → EuiccCtx → (offset : Nat) → EuiccCtx × Except Errno UInt16
  | 0, ctx, _ => (ctx, .error .einval)
  | left + 1, ctx, offset =>
      match sendEs10xBlock card ctx es10xReq offset (UInt8.ofNat (254 - left)) with
      | (ctx, .error _) => (ctx, .error .eio)
      | (ctx, .ok (rc, sw)) =>
          if offset + rc ≥ es10xReq.len then (ctx, .ok sw)
          -- the eUICC ended the transfer early, its status word is left for the response phase
          else if !swOk sw then (ctx, .ok sw)
          else sendBlocks card es10xReq left ctx (offset + rc)

theorem storeDataApdu_data (channel : UInt8) (es10xReq : ValidBuf) (offset : Nat) (blockNr : UInt8) :
    (storeDataApdu channel es10xReq offset blockNr).data =
      (es10xReq.bytes.drop offset).take maxBlocksizeTx := by
  simp only [storeDataApdu, IpaBuf.bytes, List.drop_take, List.take_take]
  congr 1
  split <;> omega

theorem sendEs10xBlock_answered (card : Card) (ctx : EuiccCtx) (es10xReq : ValidBuf) (offset : Nat)
    (blockNr : UInt8) (res : ResApdu)
    (read : readAnswer (ctx.answer card (maxBlocksizeTx + 2)
      (storeDataApdu ctx.euiccChannel es10xReq offset blockNr)) = some res) :
    sendEs10xBlock card ctx es10xReq offset blockNr =
      (ctx.exchange card (maxBlocksizeTx + 2) (storeDataApdu ctx.euiccChannel es10xReq offset blockNr),
        .ok ((storeDataApdu ctx.euiccChannel es10xReq offset blockNr).lc, res.sw)) := by
  obtain ⟨bufRes, transceived, parsed⟩ := ipaScardTransceive_answered card ctx _ _ res read
  simp only [sendEs10xBlock, transceived, parsed]

theorem sendEs10xBlock_unanswered (card : Card) (ctx : EuiccCtx) (es10xReq : ValidBuf) (offset : Nat)
    (blockNr : UInt8)
    (unread : readAnswer (ctx.answer card (maxBlocksizeTx + 2)
      (storeDataApdu ctx.euiccChannel es10xReq offset blockNr)) = none) :
    (sendEs10xBlock card ctx es10xReq offset blockNr).1.log =
        (ctx.exchange card (maxBlocksizeTx + 2)
          (storeDataApdu ctx.euiccChannel es10xReq offset blockNr)).log ∧
      ∃ e, (sendEs10xBlock card ctx es10xReq offset blockNr).2 = .error e := by
  obtain ⟨recorded, unparsed⟩ := ipaScardTransceive_unanswered card ctx _ _ unread
  rcases transceived : ipaScardTransceive card ctx (maxBlocksizeTx + 2)
    (storeDataApdu ctx.euiccChannel es10xReq offset blockNr) with ⟨after, e | bufRes⟩
  · rw [transceived] at recorded
    simp only [sendEs10xBlock, transceived]
    exact ⟨congrArg EuiccCtx.log recorded, e, rfl⟩
  · rw [transceived] at recorded unparsed
    obtain ⟨e, failed⟩ := unparsed bufRes rfl
    simp only [sendEs10xBlock, transceived, failed]
    exact ⟨congrArg EuiccCtx.log recorded, e, rfl⟩

/-! ## The blocks of a request -/

section
variable (card : Card) (ctx : EuiccCtx) (es10xReq : ValidBuf)

def blockApdu (channel : UInt8) (i : Nat) : ReqApdu :=
  storeDataApdu channel es10xReq (maxBlocksizeTx * i) (UInt8.ofNat i)

def afterBlocks : Nat → EuiccCtx
  | 0 => ctx
  | k + 1 => (afterBlocks k).exchange card (maxBlocksizeTx + 2) (blockApdu es10xReq ctx.euiccChannel k)

def blockAnswer (i : Nat) : Option (List UInt8) :=
  (afterBlocks card ctx es10xReq i).answer card (maxBlocksizeTx + 2) (blockApdu es10xReq ctx.euiccChannel i)

def blockExchange (i : Nat) : Exchange :=
  ⟨blockApdu es10xReq ctx.euiccChannel i, blockAnswer card ctx es10xReq i⟩

def Acked (i : Nat) : Prop :=
  ∃ res, readAnswer (blockAnswer card ctx es10xReq i) = some res ∧ swOk res.sw = true

def Continues (i : Nat) : Prop :=
  Acked card ctx es10xReq i ∧ maxBlocksizeTx * (i + 1) < es10xReq.len

inductive SendEnd : Nat → EuiccCtx × Except Errno UInt16 → Prop where
  | exhausted : SendEnd 255 (afterBlocks card ctx es10xReq 255, .error .einval)
  | failed (n : Nat) (after : EuiccCtx) (small : n < 255)
      (unread : readAnswer (blockAnswer card ctx es10xReq n) = none)
      (log : after.log = (afterBlocks card ctx es10xReq (n + 1)).log) : SendEnd n (after, .error .eio)
  | finished (n : Nat) (res : ResApdu) (small : n < 255)
      (read : readAnswer (blockAnswer card ctx es10xReq n) = some res)
      (covered : es10xReq.len ≤ maxBlocksizeTx * (n + 1)) :
      SendEnd n (afterBlocks card ctx es10xReq (n + 1), .ok res.sw)
  | early (n : Nat) (res : ResApdu) (small : n < 255)
      (read : readAnswer (blockAnswer card ctx es10xReq n) = some res)
      (refused : swOk res.sw = false) (rest : maxBlocksizeTx * (n + 1) < es10xReq.len) :
      SendEnd n (afterBlocks card ctx es10xReq (n + 1), .ok res.sw)

theorem afterBlocks_euiccChannel (k : Nat) :
    (afterBlocks card ctx es10xReq k).euiccChannel = ctx.euiccChannel := by
  induction k with
  | zero => rfl
  | succ k ih => exact ih

theorem afterBlocks_log (k : Nat) :
    (afterBlocks card ctx es10xReq k).log =
      ctx.log ++ (List.range k).map (blockExchange card ctx es10xReq) := by
  induction k with
  | zero => simp [afterBlocks]
  | succ k ih =>
      rw [List.range_succ, List.map_append, ← List.append_assoc, ← ih]
      rfl

theorem blockApdu_data (channel : UInt8) (i : Nat) :
    (blockApdu es10xReq channel i).data = block maxBlocksizeTx es10xReq.bytes i :=
  storeDataApdu_data _ _ _ _

theorem blockApdu_lc (channel : UInt8) (i : Nat) :
    (blockApdu es10xReq channel i).lc = min maxBlocksizeTx (es10xReq.len - maxBlocksizeTx * i) := by
  rw [ReqApdu.lc, blockApdu_data, length_block, IpaBuf.length_bytes _ es10xReq.valid]

private theorem sendBlocks_end_from (left k : Nat) (total : k + left = 255)
    (start : k = 0 ∨ maxBlocksizeTx * k < es10xReq.len)
    (sent : ∀ i, i < k → Continues card ctx es10xReq i) :
    ∃ n, (∀ i, i < n → Continues card ctx es10xReq i) ∧
      SendEnd card ctx es10xReq n
        (sendBlocks card es10xReq left (afterBlocks card ctx es10xReq k) (maxBlocksizeTx * k)) := by
  induction left generalizing k with
  | zero =>
      obtain rfl : k = 255 := total
      exact ⟨255, sent, .exhausted⟩
  | succ left ih =>
      have number : UInt8.ofNat (254 - left) = UInt8.ofNat k := by
        congr 1
        omega
      have apdu : storeDataApdu (afterBlocks card ctx es10xReq k).euiccChannel es10xReq
          (maxBlocksizeTx * k) (UInt8.ofNat k) = blockApdu es10xReq ctx.euiccChannel k := by
        rw [afterBlocks_euiccChannel]
        rfl
      have small : k < 255 := by omega
      unfold sendBlocks
      rw [number]
      cases read : readAnswer (blockAnswer card ctx es10xReq k) with
      | none =>
          have failed := sendEs10xBlock_unanswered card (afterBlocks card ctx es10xReq k) es10xReq
            (maxBlocksizeTx * k) (UInt8.ofNat k)
          rw [apdu] at failed
          obtain ⟨log, e, error⟩ := failed read
          rcases run : sendEs10xBlock card (afterBlocks card ctx es10xReq k) es10xReq
            (maxBlocksizeTx * k) (UInt8.ofNat k) with ⟨after, out⟩
          rw [run] at log error
          simp only at error
          subst error
          exact ⟨k, sent, .failed k after small read log⟩
      | some res =>
          have answered := sendEs10xBlock_answered card (afterBlocks card ctx es10xReq k) es10xReq
            (maxBlocksizeTx * k) (UInt8.ofNat k) res
          rw [apdu] at answered
          rw [answered read]
          have reached : maxBlocksizeTx * k + (blockApdu es10xReq ctx.euiccChannel k).lc ≥ es10xReq.len ↔
              es10xReq.len ≤ maxBlocksizeTx * (k + 1) := by
            rw [blockApdu_lc]
            simp only [maxBlocksizeTx] at start ⊢
            omega
          by_cases covered : es10xReq.len ≤ maxBlocksizeTx * (k + 1)
          · simp only [if_pos (reached.mpr covered)]
            exact ⟨k, sent, .finished k res small read covered⟩
          · have rest : maxBlocksizeTx * (k + 1) < es10xReq.len := Nat.lt_of_not_le covered
            simp only [if_neg (mt reached.mp covered)]
            by_cases acked : swOk res.sw = true
            · have full : maxBlocksizeTx * k + (blockApdu es10xReq ctx.euiccChannel k).lc =
                  maxBlocksizeTx * (k + 1) := by
                rw [blockApdu_lc]
                simp only [maxBlocksizeTx] at rest ⊢
                omega
              simp only [acked, Bool.not_true, Bool.false_eq_true, if_false, full]
              refine ih (k + 1) (by omega) (.inr rest) fun i before => ?_
              rcases Nat.lt_succ_iff_lt_or_eq.mp before with earlier | rfl
              · exact sent i earlier
              · exact ⟨⟨res, read, acked⟩, rest⟩
            · have refused : swOk res.sw = false := by simpa using acked
              simp only [refused, Bool.not_false, if_true]
              exact ⟨k, sent, .early k res small read refused rest⟩

theorem sendBlocks_end :
    ∃ n, (∀ i, i < n → Continues card ctx es10xReq i) ∧
      SendEnd card ctx es10xReq n (sendBlocks card es10xReq 255 ctx 0) :=
  sendBlocks_end_from card ctx es10xReq 255 0 rfl (.inl rfl) (fun _ before => by cases before)

end

end Ipad.Euicc
