import Ipad.Lib.Parts
import Ipad.Accumulators
import Ipad.Proc.Canaries

/-!
# The HTTP client

`http.c` on pointers. A handle of libcurl keeps the options that were set, among them pointers that stay with
the caller: the header list, the request and the place of the response. What libcurl does is up to `Curl`.
-/

namespace Ipad.Http
open Lib.Memory Lib.Pointers Lib.Parts Ipad.BufHeap Ipad.Accumulators

structure HttpCtx where
  initialized : Bool
  cabundle : Option String
  noVerif : Bool
  curl : Option Pointer

inductive CurlOption where
  | cainfo
  | sslVerifypeer
  | sslVerifyhost
  | httpheader
  | url
  | postfields
  | postfieldsize
  | writefunction
  | writedata
  | timeout
  deriving DecidableEq, Repr

/-- An option with its argument. -/
inductive CurlOpt where
  | cainfo (path : String)
  | sslVerifypeer (on : Bool)
  | sslVerifyhost (on : Bool)
  | httpheader (list : Option Pointer)
  | url (url : String)
  | postfields (req : Pointer)
  | postfieldsize (len : Nat)
  | writefunction
  | writedata (res : Pointer)
  | timeout (seconds : Nat)

def CurlOpt.option : CurlOpt → CurlOption
  | cainfo _ => .cainfo
  | sslVerifypeer _ => .sslVerifypeer
  | sslVerifyhost _ => .sslVerifyhost
  | httpheader _ => .httpheader
  | url _ => .url
  | postfields _ => .postfields
  | postfieldsize _ => .postfieldsize
  | writefunction => .writefunction
  | writedata _ => .writedata
  | timeout _ => .timeout

structure Easy where
  cainfo : Option String
  sslVerifypeer : Bool
  sslVerifyhost : Bool
  httpheader : Option Pointer
  url : Option String
  postfields : Option Pointer
  postfieldsize : Option Nat
  writefunction : Bool
  writedata : Option Pointer
  timeout : Option Nat

def Easy.initial : Easy where
  cainfo := none
  sslVerifypeer := true
  sslVerifyhost := true
  httpheader := none
  url := none
  postfields := none
  postfieldsize := none
  writefunction := false
  writedata := none
  timeout := none

def Easy.setopt (handle : Easy) : CurlOpt → Easy
  | .cainfo path => { handle with cainfo := some path }
  | .sslVerifypeer on => { handle with sslVerifypeer := on }
  | .sslVerifyhost on => { handle with sslVerifyhost := on }
  | .httpheader list => { handle with httpheader := list }
  | .url url => { handle with url := some url }
  | .postfields req => { handle with postfields := some req }
  | .postfieldsize len => { handle with postfieldsize := some len }
  | .writefunction => { handle with writefunction := true }
  | .writedata res => { handle with writedata := some res }
  | .timeout seconds => { handle with timeout := some seconds }

/-- What libcurl does in one call of `ipa_http_req`: whether there is a handle, which options it takes, what it
feeds to the callback and how the transfer ends. -/
structure Curl where
  easyInit : Bool
  accepts : CurlOption → Bool
  chunks : List Chunk
  performs : Bool
  small : (chunks.flatMap Chunk.bytes).length < 2 ^ 63

structure Transfer where
  cainfo : Option String
  sslVerifypeer : Bool
  sslVerifyhost : Bool
  headers : List String
  url : Option String
  body : Option (List UInt8)
  timeout : Option Nat
  deriving DecidableEq, Repr

/-- The memory by what is kept in it. `cells` are the local variables whose address is passed on. -/
structure World where
  clients : Heap HttpCtx
  easies : Heap Easy
  slists : Heap (List String)
  cells : Heap Pointer
  bufs : Heap IpaBuf
  transfers : List Transfer
  checkHttp : Bool

abbrev HttpProg := StateT World (Except Fault)

section
variable {α : Type}

def inClients : Prog HttpCtx Fault α → HttpProg α := zoom World.clients fun clients w => { w with clients }
def inEasies : Prog Easy Fault α → HttpProg α := zoom World.easies fun easies w => { w with easies }
def inSlists : Prog (List String) Fault α → HttpProg α := zoom World.slists fun slists w => { w with slists }
def inCells : Prog Pointer Fault α → HttpProg α := zoom World.cells fun cells w => { w with cells }
def inBufs : Prog IpaBuf Fault α → HttpProg α := zoom World.bufs fun bufs w => { w with bufs }

end

/-! ## libcurl -/

def curlEasySetopt (curl : Curl) (easy : Pointer) (opt : CurlOpt) : HttpProg Bool := do
  let handle ← inEasies (read .outOfBounds easy)
  if curl.accepts opt.option then
    inEasies (write .outOfBounds easy (handle.setopt opt))
    return true
  else return false

def curlSlistAppend : Option Pointer → String → HttpProg Pointer
  | none, string => inSlists (new fun _ => [string])
  | some list, string => do
      let strings ← inSlists (read .outOfBounds list)
      inSlists (write .outOfBounds list (strings ++ [string]))
      return list

def curlSlistFreeAll : Option Pointer → HttpProg Unit
  | none => pure ()
  | some list => inSlists (release .invalidFree list)

/-- Without a size the data is a string. -/
def postfields (handle : Easy) : HttpProg (Option (List UInt8)) :=
  match handle.postfields with
  | none => pure none
  | some req => do
      let buf ← inBufs (read .outOfBounds req)
      let len := handle.postfieldsize.getD (buf.data.takeWhile (· ≠ 0)).length
      let body ← inBufs (lift (loadRun .outOfBounds buf.data 0 len))
      return some body

def headers (handle : Easy) : HttpProg (List String) :=
  match handle.httpheader with
  | none => pure []
  | some list => inSlists (read .outOfBounds list)

/-- What goes out under the options of a handle. -/
def Easy.transfer (handle : Easy) (headers : List String) (body : Option (List UInt8)) : Transfer where
  cainfo := handle.cainfo
  sslVerifypeer := handle.sslVerifypeer
  sslVerifyhost := handle.sslVerifyhost
  headers := headers
  url := handle.url
  body := body
  timeout := handle.timeout

def record (transfer : Transfer) : HttpProg Unit := fun w =>
  .ok ((), { w with transfers := w.transfers ++ [transfer] })

section
variable (allocator : Allocator) (curl : Curl)

/-- The callback gets the address of a pointer. One that takes less than it was given ends the transfer. -/
def deliver (handle : Easy) : List Chunk → HttpProg Bool
  | [] => return true
  | chunk :: rest =>
      if handle.writefunction then
        match handle.writedata with
        | none => fault .nullDeref
        | some res => do
            let p ← inCells (read .outOfBounds res)
            let (taken, p) ← inBufs (storeResponseCb allocator chunk.ptr chunk.size chunk.nmemb p)
            inCells (write .outOfBounds res p)
            if taken = chunk.size * chunk.nmemb then deliver handle rest else return false
      else deliver handle rest

def curlEasyPerform (easy : Pointer) : HttpProg Bool := do
  let handle ← inEasies (read .outOfBounds easy)
  let headers ← headers handle
  let body ← postfields handle
  record (handle.transfer headers body)
  let taken ← deliver allocator handle curl.chunks
  return taken && curl.performs

end

/-! ## `http.c` -/

def ipaHttpInit (cabundle : Option String) (noVerif : Bool) : HttpProg Pointer :=
  inClients (new fun _ => { initialized := true, cabundle, noVerif, curl := none })

def ipaHttpClose (httpCtx : Pointer) : HttpProg Unit := do
  let ctx ← inClients (read .outOfBounds httpCtx)
  match ctx.curl with
  | none => return ()
  | some easy => do
      inEasies (release .invalidFree easy)
      inClients (write .outOfBounds httpCtx { ctx with curl := none })

def ipaHttpFree : Option Pointer → HttpProg Unit
  | none => pure ()
  | some httpCtx => do
      ipaHttpClose httpCtx
      inClients (release .invalidFree httpCtx)

section
variable (curl : Curl) (httpCtx : Pointer)

/-- There may be a handle from a request before this one. -/
def curlHandle : HttpProg (Option Pointer) := do
  let ctx ← inClients (read .outOfBounds httpCtx)
  match ctx.curl with
  | some easy => return some easy
  | none =>
      if curl.easyInit then do
        let easy ← inEasies (new fun _ => .initial)
        inClients (write .outOfBounds httpCtx { ctx with curl := some easy })
        return some easy
      else return none

def setopts (easy : Pointer) : List CurlOpt → HttpProg Bool
  | [] => return true
  | opt :: rest => do
      let ok ← curlEasySetopt curl easy opt
      if ok then setopts easy rest else return false

end

def HttpCtx.security (ctx : HttpCtx) : List CurlOpt :=
  (ctx.cabundle.map CurlOpt.cainfo).toList ++
    if ctx.noVerif then [.sslVerifypeer false, .sslVerifyhost false] else []

def httpHeader : List String :=
  ["Accept:", "User-Agent: Onomondo IPAd / 1.0.0 via libcurl", "X-Admin-Protocol: gsma/rsp/v2.1.0",
    "Content-Type: application/x-gsma-rsp-asn1"]

def appendAll : Option Pointer → List String → HttpProg (Option Pointer)
  | list, [] => return list
  | list, string :: rest => do
      let list ← curlSlistAppend list string
      appendAll (some list) rest

def requestOpts (list : Option Pointer) (req : Pointer) (len : Nat) (url : String) (res : Pointer) : List CurlOpt :=
  [.httpheader list, .url url, .postfields req, .postfieldsize len, .writefunction, .writedata res, .timeout 5]

section
variable (allocator : Allocator) (curl : Curl) (httpCtx req : Pointer) (url : String)

/-- `ipa_http_req` up to where its ways part: the header list as far as there is one, and whether there is a
response. -/
def attempt (res : Pointer) : HttpProg (Option Pointer × Bool) := do
  let handle ← curlHandle curl httpCtx
  match handle with
  | none => return (none, false)
  | some easy => do
      let ctx ← inClients (read .outOfBounds httpCtx)
      let secured ← setopts curl easy ctx.security
      if secured then do
        let list ← appendAll none httpHeader
        let buf ← inBufs (read .outOfBounds req)
        let ready ← setopts curl easy (requestOpts list req buf.len url res)
        if ready then do
          let done ← curlEasyPerform allocator curl easy
          return (list, done)
        else return (list, false)
      else return (none, false)

def ipaHttpReq : HttpProg (Option Pointer) := do
  let p ← inBufs (ipaBufAlloc allocator ipaLenHttpResponseBuf)
  let res ← inCells (new fun _ => p)
  let ctx ← inClients (read .outOfBounds httpCtx)
  if ctx.initialized then do
    let (list, done) ← attempt allocator curl httpCtx req url res
    let p ← inCells (read .outOfBounds res)
    if done then do
      curlSlistFreeAll list
      inCells (release .invalidFree res)
      return some p
    else do
      ipaHttpClose httpCtx
      curlSlistFreeAll list
      inBufs (release .invalidFree p)
      inCells (release .invalidFree res)
      return none
  else fault .assertion

end

/-! ## `esipa.c` -/

section
variable (allocator : Allocator) (esipaReqRetries : UInt32) (curl : UInt32 → Curl) (httpCtx : Pointer)
  (url : String)

def esipaAttempts (esipaReq : Pointer) : (left : Nat) → (i : UInt32) → HttpProg (Option Pointer)
  | 0, _ => fault .uninitialised
  | left + 1, i => do
      let esipaRes ← ipaHttpReq allocator (curl i) httpCtx esipaReq url
      match esipaRes with
      | some p => return some p
      | none =>
          if esipaReqRetries = 0 ∨ esipaReqRetries ≤ i then do
            modify fun w => { w with checkHttp := true }
            return none
          else esipaAttempts esipaReq left (i + 1)

/-- The function of the source over its transport. What it returns and how it leaves the flag is what
`Proc.ipaEsipaReq` says, by `esipaAttempts_ok`. -/
def ipaEsipaReq : Option Pointer → HttpProg (Option Pointer)
  | none => return none
  | some esipaReq =>
      esipaAttempts allocator esipaReqRetries curl httpCtx url esipaReq (esipaReqRetries + 1).toNat 0

end

/-! ## The life of a client -/

structure Message where
  bytes : List UInt8
  small : bytes.length < 2 ^ 63

/-- What the procedures do with the client. A message that could not be encoded is asked for all the same. -/
inductive Op where
  | request (esipaReq : Option Message) (url : String) (curl : UInt32 → Curl)
  | close

structure Config where
  cabundle : Option String
  noVerif : Bool
  esipaReqRetries : UInt32

section
variable (allocator : Allocator) (config : Config)

/-- The caller reads the response and frees both buffers. -/
def takeResponse : Option Pointer → HttpProg (Option (List UInt8))
  | none => return none
  | some p => do
      let buf ← inBufs (read .outOfBounds p)
      inBufs (release .invalidFree p)
      return some buf.bytes

def Op.perform (httpCtx : Pointer) : Op → HttpProg (Option (List UInt8))
  | request none url curl => do
      let esipaRes ← ipaEsipaReq allocator config.esipaReqRetries curl httpCtx url none
      takeResponse esipaRes
  | request (some message) url curl => do
      let esipaReq ← inBufs (ipaBufAllocData allocator message.bytes)
      let esipaRes ← ipaEsipaReq allocator config.esipaReqRetries curl httpCtx url (some esipaReq)
      let response ← takeResponse esipaRes
      inBufs (release .invalidFree esipaReq)
      return response
  | close => do
      ipaHttpClose httpCtx
      return none

def performAll (httpCtx : Pointer) : List Op → HttpProg (List (Option (List UInt8)))
  | [] => return []
  | op :: rest => do
      let response ← op.perform allocator config httpCtx
      let responses ← performAll httpCtx rest
      return response :: responses

def life (ops : List Op) : HttpProg (List (Option (List UInt8))) := do
  let httpCtx ← ipaHttpInit config.cabundle config.noVerif
  let responses ← performAll allocator config httpCtx ops
  ipaHttpFree (some httpCtx)
  return responses

end

end Ipad.Http
