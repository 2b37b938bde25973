import Ipad.Http.Client
import Ipad.Proc.EsipaRetry

/-!
# The life of the HTTP client

From its first request to its end the client makes the transfers that its configuration and the requests ask for
and no others, gives back what the last attempt received, and leaves no memory behind.
-/

namespace Ipad.Http
open Lib.Memory Lib.Pointers Lib.Parts Ipad.BufHeap Ipad.Accumulators

section
variable {α : Type} {w : World} {value : α}

theorem inClients_ok {prog : Prog HttpCtx Fault α} {clients : Heap HttpCtx}
    (done : prog w.clients = .ok (value, clients)) : inClients prog w = .ok (value, { w with clients }) :=
  zoom_ok done

theorem inEasies_ok {prog : Prog Easy Fault α} {easies : Heap Easy} (done : prog w.easies = .ok (value, easies)) :
    inEasies prog w = .ok (value, { w with easies }) :=
  zoom_ok done

theorem inSlists_ok {prog : Prog (List String) Fault α} {slists : Heap (List String)}
    (done : prog w.slists = .ok (value, slists)) : inSlists prog w = .ok (value, { w with slists }) :=
  zoom_ok done

theorem inCells_ok {prog : Prog Pointer Fault α} {cells : Heap Pointer} (done : prog w.cells = .ok (value, cells)) :
    inCells prog w = .ok (value, { w with cells }) :=
  zoom_ok done

theorem inBufs_ok {prog : Prog IpaBuf Fault α} {bufs : Heap IpaBuf} (done : prog w.bufs = .ok (value, bufs)) :
    inBufs prog w = .ok (value, { w with bufs }) :=
  zoom_ok done

end

/-! ## The connection -/

def Config.ctx (config : Config) (curl : Option Pointer) : HttpCtx where
  initialized := true
  cabundle := config.cabundle
  noVerif := config.noVerif
  curl := curl

/-- The client has one block, and its handle, if there is one, has another. -/
inductive Attached (config : Config) (httpCtx : Pointer) (before w : World) : Option (Pointer × Easy) → Prop where
  | closed (client : OneMore before.clients w.clients httpCtx (config.ctx none))
      (easies : w.easies.block = before.easies.block) : Attached config httpCtx before w none
  | opened (easy : Pointer) (handle : Easy)
      (client : OneMore before.clients w.clients httpCtx (config.ctx (some easy)))
      (easies : OneMore before.easies w.easies easy handle) : Attached config httpCtx before w (some (easy, handle))

section
variable {config : Config} {httpCtx : Pointer} {before w : World}

theorem Attached.frame {connection : Option (Pointer × Easy)} (attached : Attached config httpCtx before w connection)
    {w' : World} (clients : w'.clients = w.clients) (easies : w'.easies = w.easies) :
    Attached config httpCtx before w' connection := by
  cases attached with
  | closed client handles => exact .closed (by rw [clients]; exact client) (by rw [easies]; exact handles)
  | opened easy handle client handles =>
      exact .opened easy handle (by rw [clients]; exact client) (by rw [easies]; exact handles)

theorem Attached.client {connection : Option (Pointer × Easy)}
    (attached : Attached config httpCtx before w connection) :
    ∃ curl, OneMore before.clients w.clients httpCtx (config.ctx curl) := by
  cases attached with
  | closed client => exact ⟨none, client⟩
  | opened easy handle client => exact ⟨some easy, client⟩

theorem ipaHttpClose_ok {connection : Option (Pointer × Easy)}
    (attached : Attached config httpCtx before w connection) :
    ∃ clients easies, ipaHttpClose httpCtx w = .ok ((), { w with clients, easies }) ∧
      Attached config httpCtx before { w with clients, easies } none := by
  cases attached with
  | closed client easies =>
      refine ⟨w.clients, w.easies, ?_, .closed client easies⟩
      exact run_bind (inClients_ok (read_eq _ client.live)) rfl
  | opened easy handle client easies =>
      refine ⟨_, w.easies.erase easy, ?_, .closed (client.set (config.ctx none)) easies.erase⟩
      apply run_bind (inClients_ok (read_eq _ client.live))
      apply run_bind (inEasies_ok (release_eq _ easies.live))
      exact inClients_ok (write_eq _ client.live _)

theorem curlHandle_ok (curl : Curl) {connection : Option (Pointer × Easy)}
    (attached : Attached config httpCtx before w connection) :
    ∃ clients easies connection', curlHandle curl httpCtx w =
        .ok (connection'.map Prod.fst, { w with clients, easies }) ∧
      Attached config httpCtx before { w with clients, easies } connection' ∧
      connection'.isSome = (connection.isSome || curl.easyInit) ∧
      ∀ easy handle, connection' = some (easy, handle) →
        connection = some (easy, handle) ∨ connection = none ∧ handle = .initial := by
  cases attached with
  | opened easy handle client easies =>
      refine ⟨w.clients, w.easies, some (easy, handle), ?_, .opened easy handle client easies, rfl, ?_⟩
      · exact run_bind (inClients_ok (read_eq _ client.live)) rfl
      · intro _ _ same
        exact .inl same
  | closed client easies =>
      cases initialised : curl.easyInit with
      | false =>
          refine ⟨w.clients, w.easies, none, ?_, .closed client easies, rfl, by simp⟩
          apply run_bind (inClients_ok (read_eq _ client.live))
          simp only [Config.ctx, initialised]
          rfl
      | true =>
          refine ⟨_, _, some (w.easies.next, .initial), ?_,
            .opened _ .initial (client.set (config.ctx (some w.easies.next))) (oneMore_grown easies .initial), rfl,
            ?_⟩
          · apply run_bind (inClients_ok (read_eq _ client.live))
            simp only [Config.ctx, initialised, if_true]
            apply run_bind (inEasies_ok rfl)
            exact run_bind (inClients_ok (write_eq _ client.live _)) rfl
          · rintro _ _ ⟨⟩
            exact .inr ⟨rfl, rfl⟩

/-! ## Options -/

theorem curlEasySetopt_ok (curl : Curl) {easy : Pointer} {handle : Easy}
    (easies : OneMore before.easies w.easies easy handle) (opt : CurlOpt) :
    ∃ easies' handle', curlEasySetopt curl easy opt w = .ok (curl.accepts opt.option, { w with easies := easies' }) ∧
      OneMore before.easies easies' easy handle' ∧
      (curl.accepts opt.option = true → handle' = handle.setopt opt) := by
  cases accepted : curl.accepts opt.option with
  | false =>
      refine ⟨w.easies, handle, ?_, easies, nofun⟩
      apply run_bind (inEasies_ok (read_eq _ easies.live))
      rw [accepted]
      rfl
  | true =>
      refine ⟨_, _, ?_, easies.set (handle.setopt opt), fun _ => rfl⟩
      apply run_bind (inEasies_ok (read_eq _ easies.live))
      rw [accepted, if_pos rfl]
      exact run_bind (inEasies_ok (write_eq _ easies.live _)) rfl

theorem setopts_ok (curl : Curl) {easy : Pointer} {handle : Easy}
    (easies : OneMore before.easies w.easies easy handle) (opts : List CurlOpt) :
    ∃ easies' handle', setopts curl easy opts w =
        .ok (opts.all fun opt => curl.accepts opt.option, { w with easies := easies' }) ∧
      OneMore before.easies easies' easy handle' ∧
      ((opts.all fun opt => curl.accepts opt.option) = true → handle' = opts.foldl Easy.setopt handle) := by
  induction opts generalizing w handle with
  | nil => exact ⟨w.easies, handle, rfl, easies, fun _ => rfl⟩
  | cons opt rest ih =>
      obtain ⟨easies', handle', set, more, value⟩ := curlEasySetopt_ok curl easies opt
      cases accepted : curl.accepts opt.option with
      | false =>
          refine ⟨easies', handle', ?_, more, by simp [accepted]⟩
          apply run_bind set
          rw [List.all_cons, accepted]
          rfl
      | true =>
          obtain ⟨easies'', handle'', others, last, values⟩ := ih (w := { w with easies := easies' }) more
          refine ⟨easies'', handle'', ?_, last, ?_⟩
          · apply run_bind set
            rw [List.all_cons, accepted, if_pos rfl]
            exact others
          · rw [List.all_cons, accepted, Bool.true_and]
            intro all
            rw [values all, value accepted]
            rfl

end

/-- What every handle in use has of the configuration. -/
structure Secured (config : Config) (handle : Easy) : Prop where
  cainfo : handle.cainfo = config.cabundle
  sslVerifypeer : handle.sslVerifypeer = !config.noVerif
  sslVerifyhost : handle.sslVerifyhost = !config.noVerif

theorem security_secures (config : Config) (curl : Option Pointer) {handle : Easy}
    (prior : handle = .initial ∨ Secured config handle) :
    Secured config ((config.ctx curl).security.foldl Easy.setopt handle) := by
  have untouched : (config.cabundle = none → handle.cainfo = none) ∧
      (config.noVerif = false → handle.sslVerifypeer = true ∧ handle.sslVerifyhost = true) := by
    obtain rfl | ⟨cainfo, peer, host⟩ := prior
    · simp [Easy.initial]
    · simp [cainfo, peer, host]
  obtain ⟨bundle, verif⟩ := untouched
  rw [HttpCtx.security, List.foldl_append, Config.ctx]
  constructor
  · cases given : config.cabundle with
    | none => cases config.noVerif <;> exact bundle given
    | some path => cases config.noVerif <;> rfl
  · cases off : config.noVerif with
    | false => cases config.cabundle <;> exact (verif off).1
    | true => cases config.cabundle <;> rfl
  · cases off : config.noVerif with
    | false => cases config.cabundle <;> exact (verif off).2
    | true => cases config.cabundle <;> rfl

/-! ## A transfer -/

theorem appendAll_some {before : Heap (List String)} {w : World} {list : Pointer} {strings : List String}
    (slists : OneMore before w.slists list strings) (rest : List String) :
    ∃ slists', appendAll (some list) rest w = .ok (some list, { w with slists := slists' }) ∧
      OneMore before slists' list (strings ++ rest) := by
  induction rest generalizing w strings with
  | nil => exact ⟨w.slists, rfl, by rw [List.append_nil]; exact slists⟩
  | cons string rest ih =>
      obtain ⟨slists', appended, more⟩ := ih (w := { w with slists := w.slists.set list (strings ++ [string]) })
        (slists.set (strings ++ [string]))
      refine ⟨slists', ?_, by simpa using more⟩
      refine run_bind ?_ appended
      apply run_bind (inSlists_ok (read_eq _ slists.live))
      exact run_bind (inSlists_ok (write_eq _ slists.live _)) rfl

theorem httpHeader_ok (w : World) :
    ∃ slists list, appendAll none httpHeader w = .ok (some list, { w with slists }) ∧
      OneMore w.slists slists list httpHeader := by
  obtain ⟨slists, appended, more⟩ := appendAll_some (w := { w with slists := w.slists.grown ["Accept:"] })
    (@oneMore_grown _ w.slists w.slists rfl ["Accept:"]) httpHeader.tail
  exact ⟨slists, _, run_bind (inSlists_ok rfl) appended, more⟩

theorem curlSlistFreeAll_ok {slists : Heap (List String)} {w : World} {list : Option Pointer}
    (built : list = none ∧ w.slists = slists ∨ ∃ l, list = some l ∧ OneMore slists w.slists l httpHeader) :
    ∃ slists', curlSlistFreeAll list w = .ok ((), { w with slists := slists' }) ∧ slists'.block = slists.block := by
  obtain ⟨rfl, same⟩ | ⟨l, rfl, more⟩ := built
  · exact ⟨w.slists, rfl, by rw [same]⟩
  · exact ⟨_, inSlists_ok (release_eq _ more.live), more.erase⟩

theorem Holds.erase {before heap : Heap IpaBuf} {p : Pointer} {bytes : List UInt8}
    (holds : Holds before heap p bytes) :
    (heap.erase p).block = before.block := by
  funext q
  by_cases same : q = p
  · subst q
    rw [holds.new]
    exact Function.update_self ..
  · rw [← holds.others q same]
    exact Function.update_of_ne same ..

section
variable (allocator : Allocator)

theorem deliver_ok {cells : Heap Pointer} {bufs : Heap IpaBuf} {w : World} (handle : Easy) {res p : Pointer}
    {bytes : List UInt8} (function : handle.writefunction = true) (data : handle.writedata = some res)
    (cell : OneMore cells w.cells res p) (holds : Holds bufs w.bufs p bytes) (chunks : List Chunk)
    (small : bytes.length + (chunks.flatMap Chunk.bytes).length < 2 ^ 63) :
    ∃ cells' bufs' q, deliver allocator handle chunks w = .ok (true, { w with cells := cells', bufs := bufs' }) ∧
      OneMore cells cells' res q ∧ Holds bufs bufs' q (bytes ++ chunks.flatMap Chunk.bytes) := by
  induction chunks generalizing w p bytes with
  | nil => exact ⟨w.cells, w.bufs, p, rfl, cell, by simpa using holds⟩
  | cons chunk rest ih =>
      rw [List.flatMap_cons, List.length_append] at small
      obtain ⟨q, bufs', taken, held⟩ := storeResponseCb_some allocator holds chunk (by omega)
      obtain ⟨cells'', bufs'', r, delivered, last, whole⟩ :=
        ih (w := { w with cells := w.cells.set res q, bufs := bufs' }) (cell.set q) held
          (by rw [List.length_append]; omega)
      refine ⟨cells'', bufs'', r, ?_, last, by rw [List.flatMap_cons, ← List.append_assoc]; exact whole⟩
      unfold deliver
      simp only [function, data, if_true]
      apply run_bind (inCells_ok (read_eq _ cell.live))
      apply run_bind (inBufs_ok taken)
      refine run_bind (inCells_ok (write_eq _ cell.live _)) ?_
      simp only [if_true]
      exact delivered

/-- The transfer that a request asks for. -/
def Config.transfer (config : Config) (url : String) (body : List UInt8) : Transfer where
  cainfo := config.cabundle
  sslVerifypeer := !config.noVerif
  sslVerifyhost := !config.noVerif
  headers := httpHeader
  url := some url
  body := some body
  timeout := some 5

theorem requestOpts_secured {config : Config} {handle : Easy} (secured : Secured config handle)
    (list : Option Pointer) (req : Pointer) (len : Nat) (url : String) (res : Pointer) :
    Secured config ((requestOpts list req len url res).foldl Easy.setopt handle) := by
  simp only [requestOpts, List.foldl_cons, List.foldl_nil, Easy.setopt]
  exact ⟨secured.cainfo, secured.sslVerifypeer, secured.sslVerifyhost⟩

theorem requestOpts_transfer {config : Config} {handle : Easy} (secured : Secured config handle)
    (list : Option Pointer) (req : Pointer) (len : Nat) (url : String) (res : Pointer) (body : List UInt8) :
    ((requestOpts list req len url res).foldl Easy.setopt handle).transfer httpHeader (some body) =
      config.transfer url body := by
  have kept := requestOpts_secured secured list req len url res
  rw [Easy.transfer, kept.cainfo, kept.sslVerifypeer, kept.sslVerifyhost]
  rfl

def Curl.response (curl : Curl) : List UInt8 := curl.chunks.flatMap Chunk.bytes

theorem curlEasyPerform_ok (curl : Curl) {config : Config} {before w : World} {bufs₀ : Heap IpaBuf}
    {easy list req res p : Pointer} {handle : Easy} {buf : IpaBuf} {url : String} (secured : Secured config handle)
    (easies : OneMore before.easies w.easies easy
      ((requestOpts (some list) req buf.len url res).foldl Easy.setopt handle))
    (slists : w.slists.block list = some httpHeader) (live : w.bufs.block req = some buf) (valid : buf.Valid)
    (cell : OneMore before.cells w.cells res p) (holds : Holds bufs₀ w.bufs p []) :
    ∃ cells bufs q, curlEasyPerform allocator curl easy w =
        .ok (curl.performs,
          { w with cells, bufs, transfers := w.transfers ++ [config.transfer url buf.bytes] }) ∧
      OneMore before.cells cells res q ∧ Holds bufs₀ bufs q curl.response := by
  obtain ⟨cells, bufs, q, delivered, cell', held⟩ := deliver_ok allocator
    (w := { w with transfers := w.transfers ++ [config.transfer url buf.bytes] })
    ((requestOpts (some list) req buf.len url res).foldl Easy.setopt handle) rfl rfl cell holds curl.chunks
    (by simpa using curl.small)
  refine ⟨cells, bufs, q, ?_, cell', held⟩
  have whole : loadRun Fault.outOfBounds buf.data 0 buf.len = .ok buf.bytes := by
    rw [loadRun_ok _ (by rw [Nat.zero_add]; exact valid), List.drop_zero]
    rfl
  have body : postfields ((requestOpts (some list) req buf.len url res).foldl Easy.setopt handle) w =
      .ok (some buf.bytes, w) := by
    apply run_bind (inBufs_ok (read_eq _ live))
    have loaded : lift (loadRun Fault.outOfBounds buf.data 0 buf.len) w.bufs = .ok (buf.bytes, w.bufs) := by
      rw [whole]
      rfl
    exact run_bind (inBufs_ok loaded) rfl
  apply run_bind (inEasies_ok (read_eq _ easies.live))
  refine run_bind (inSlists_ok (read_eq _ slists)) ?_
  apply run_bind body
  rw [requestOpts_transfer secured]
  refine run_bind rfl ?_
  exact run_bind delivered rfl

end

/-! ## A request -/

def requestOptions : List CurlOption :=
  [.httpheader, .url, .postfields, .postfieldsize, .writefunction, .writedata, .timeout]

def Config.required (config : Config) : List CurlOption :=
  (if config.cabundle.isSome then [CurlOption.cainfo] else []) ++
    (if config.noVerif then [CurlOption.sslVerifypeer, CurlOption.sslVerifyhost] else []) ++ requestOptions

/-- Whether a request gets as far as the transfer. -/
def Config.reaches (config : Config) (connected : Bool) (curl : Curl) : Bool :=
  (connected || curl.easyInit) && config.required.all curl.accepts

theorem required_all (config : Config) (accepts : CurlOption → Bool) (handle list : Option Pointer)
    (req res : Pointer) (len : Nat) (url : String) :
    config.required.all accepts =
      (((config.ctx handle).security.all fun opt => accepts opt.option) &&
        (requestOpts list req len url res).all fun opt => accepts opt.option) := by
  rw [Config.required, List.all_append, HttpCtx.security, Config.ctx]
  congr 1
  rw [List.all_append, List.all_append]
  congr 1
  · cases config.cabundle <;> rfl
  · cases config.noVerif <;> rfl

/-- What `attempt` leaves behind. -/
structure Attempted (config : Config) (httpCtx res : Pointer) (before w : World) (bufs₀ : Heap IpaBuf) (curl : Curl)
    (transfer : Transfer) (reaches : Bool) (list : Option Pointer) (done : Bool) (after : World) : Prop where
  ends : done = (reaches && curl.performs)
  attached : ∃ connection, Attached config httpCtx before after connection ∧
    (done = true → ∃ easy handle, connection = some (easy, handle) ∧ Secured config handle)
  slists : list = none ∧ after.slists = w.slists ∨ ∃ l, list = some l ∧ OneMore w.slists after.slists l httpHeader
  response : ∃ q bytes, OneMore before.cells after.cells res q ∧ Holds bufs₀ after.bufs q bytes ∧
    (done = true → bytes = curl.response)
  transfers : after.transfers = w.transfers ++ if reaches then [transfer] else []
  checkHttp : after.checkHttp = w.checkHttp

section
variable {config : Config} {httpCtx : Pointer} {before w : World} (allocator : Allocator) (curl : Curl) (url : String)

theorem attempted_short {res p : Pointer} {bufs₀ : Heap IpaBuf} {transfer : Transfer} {list : Option Pointer}
    {after : World} {connection : Option (Pointer × Easy)}
    (attached : Attached config httpCtx before after connection)
    (slists : list = none ∧ after.slists = w.slists ∨
      ∃ l, list = some l ∧ OneMore w.slists after.slists l httpHeader)
    (cell : OneMore before.cells after.cells res p) (holds : Holds bufs₀ after.bufs p [])
    (transfers : after.transfers = w.transfers) (checkHttp : after.checkHttp = w.checkHttp) :
    Attempted config httpCtx res before w bufs₀ curl transfer false list false after where
  ends := rfl
  attached := ⟨connection, attached, nofun⟩
  slists := slists
  response := ⟨p, [], cell, holds, nofun⟩
  transfers := by rw [transfers]; exact (List.append_nil _).symm
  checkHttp := checkHttp

theorem attempt_ok {connection : Option (Pointer × Easy)} (attached : Attached config httpCtx before w connection)
    (trusted : ∀ easy handle, connection = some (easy, handle) → Secured config handle) {req res p : Pointer}
    {buf : IpaBuf} {bufs₀ : Heap IpaBuf} (live : w.bufs.block req = some buf) (valid : buf.Valid)
    (cell : OneMore before.cells w.cells res p) (holds : Holds bufs₀ w.bufs p []) :
    ∃ list done after, attempt allocator curl httpCtx req url res w = .ok ((list, done), after) ∧
      Attempted config httpCtx res before w bufs₀ curl (config.transfer url buf.bytes)
        (config.reaches connection.isSome curl) list done after := by
  obtain ⟨clients, easies, connection', handled, attached', opens, prior⟩ := curlHandle_ok curl attached
  cases attached' with
  | closed client easies' =>
      refine ⟨none, false, { w with clients, easies }, run_bind handled rfl, ?_⟩
      have stops : config.reaches connection.isSome curl = false := by
        rw [Config.reaches, ← opens]
        rfl
      rw [stops]
      exact attempted_short curl (.closed client easies') (.inl ⟨rfl, rfl⟩) cell holds rfl rfl
  | opened easy handle client easies' =>
      have prior : handle = .initial ∨ Secured config handle := by
        obtain same | ⟨-, fresh⟩ := prior easy handle rfl
        · exact .inr (trusted easy handle same)
        · exact .inl fresh
      obtain ⟨secure, handle', set, more, secured⟩ := setopts_ok curl easies' (config.ctx (some easy)).security
      have reaches : config.reaches connection.isSome curl = config.required.all curl.accepts := by
        rw [Config.reaches, ← opens]
        rfl
      rw [reaches]
      cases first : (config.ctx (some easy)).security.all fun opt => curl.accepts opt.option with
      | false =>
          rw [first] at set
          have stops : config.required.all curl.accepts = false := by
            rw [required_all config curl.accepts (some easy) none req res 0 url, first]
            rfl
          rw [stops]
          refine ⟨none, false, { w with clients, easies := secure }, ?_, ?_⟩
          · apply run_bind handled
            refine run_bind (inClients_ok (read_eq _ client.live)) ?_
            exact run_bind set rfl
          · exact attempted_short curl (.opened easy handle' client more) (.inl ⟨rfl, rfl⟩) cell holds rfl rfl
      | true =>
          rw [first] at set
          replace secured : Secured config handle' := by
            rw [secured first]
            exact security_secures config (some easy) prior
          obtain ⟨slists, list, appended, header⟩ := httpHeader_ok { w with clients, easies := secure }
          obtain ⟨ready, handle'', set', more', asked⟩ :=
            setopts_ok (w := { w with clients, easies := secure, slists }) curl more
              (requestOpts (some list) req buf.len url res)
          have whole := required_all config curl.accepts (some easy) (some list) req res buf.len url
          rw [first, Bool.true_and] at whole
          rw [whole]
          cases second : (requestOpts (some list) req buf.len url res).all fun opt => curl.accepts opt.option with
          | false =>
              rw [second] at set'
              refine ⟨some list, false, { w with clients, easies := ready, slists }, ?_, ?_⟩
              · apply run_bind handled
                refine run_bind (inClients_ok (read_eq _ client.live)) ?_
                refine run_bind set ?_
                refine run_bind appended ?_
                refine run_bind (inBufs_ok (read_eq _ live)) ?_
                exact run_bind set' rfl
              · exact attempted_short curl (.opened easy handle'' client more') (.inr ⟨list, rfl, header⟩) cell holds
                  rfl rfl
          | true =>
              rw [second] at set'
              have final := asked second
              rw [final] at more'
              obtain ⟨cells, bufs, q, performed, cell', held⟩ :=
                curlEasyPerform_ok (w := { w with clients, easies := ready, slists }) allocator curl secured more'
                  header.live live valid cell holds
              refine ⟨some list, curl.performs,
                { w with
                  clients, easies := ready, slists, cells, bufs
                  transfers := w.transfers ++ [config.transfer url buf.bytes] }, ?_, ?_⟩
              · apply run_bind handled
                refine run_bind (inClients_ok (read_eq _ client.live)) ?_
                refine run_bind set ?_
                refine run_bind appended ?_
                refine run_bind (inBufs_ok (read_eq _ live)) ?_
                refine run_bind set' ?_
                exact run_bind performed rfl
              · exact
                  { ends := rfl
                    attached := ⟨_, .opened easy _ client more', fun _ =>
                      ⟨easy, _, rfl, requestOpts_secured secured ..⟩⟩
                    slists := .inr ⟨list, rfl, header⟩
                    response := ⟨q, _, cell', held, fun _ => rfl⟩
                    transfers := rfl
                    checkHttp := rfl }

/-- Between two requests. -/
structure Between (config : Config) (httpCtx : Pointer) (before w : World) (connected : Bool) : Prop where
  attached : ∃ connection, Attached config httpCtx before w connection ∧ connection.isSome = connected ∧
    ∀ easy handle, connection = some (easy, handle) → Secured config handle
  slists : w.slists.block = before.slists.block
  cells : w.cells.block = before.cells.block

def Config.answer (config : Config) (connected : Bool) (curl : Curl) : Option (List UInt8) :=
  if config.reaches connected curl && curl.performs then some curl.response else none

/-- The buffer that was given to the caller, if there is a response, is the only one that is new. -/
def Given (before bufs : Heap IpaBuf) : Option Pointer → Option (List UInt8) → Prop
  | none, none => bufs.block = before.block
  | some p, some bytes => Holds before bufs p bytes
  | _, _ => False

theorem ipaHttpReq_ok {connected : Bool} (between : Between config httpCtx before w connected) {req : Pointer}
    {buf : IpaBuf} (live : w.bufs.block req = some buf) (valid : buf.Valid) :
    ∃ res after, ipaHttpReq allocator curl httpCtx req url w = .ok (res, after) ∧
      Given w.bufs after.bufs res (config.answer connected curl) ∧
      Between config httpCtx before after (config.answer connected curl).isSome ∧
      after.transfers = w.transfers ++
        (if config.reaches connected curl then [config.transfer url buf.bytes] else []) ∧
      after.checkHttp = w.checkHttp := by
  obtain ⟨connection, attached, rfl, trusted⟩ := between.attached
  have allocated := ipaBufAlloc_ok allocator w.bufs (by decide : sizeofIpaBuf + ipaLenHttpResponseBuf < 2 ^ 64)
  have empty : ({ data := allocator.area w.bufs.next ipaLenHttpResponseBuf, len := 0 } : IpaBuf).Valid :=
    Nat.zero_le _
  have holds := holds_grown w.bufs empty
  have other : req ≠ w.bufs.next := Nat.ne_of_lt (Heap.lt_next live)
  obtain ⟨handle, client⟩ := attached.client
  obtain ⟨list, done, mid, attempted, left⟩ :=
    attempt_ok (w := { w with
        bufs := w.bufs.grown { data := allocator.area w.bufs.next ipaLenHttpResponseBuf, len := 0 }
        cells := w.cells.grown w.bufs.next }) allocator curl url (attached.frame rfl rfl) trusted
      (by rw [← live]; exact Heap.grown_block_of_ne w.bufs _ other) valid
      (oneMore_grown between.cells w.bufs.next) holds
  obtain ⟨ends, ⟨connection', attached', opened⟩, built, ⟨q, bytes, cell, held, whole⟩, transfers, checkHttp⟩ := left
  have answered : config.answer connection.isSome curl = if done then some curl.response else none := by
    rw [Config.answer, ends]
  cases done with
  | true =>
      obtain ⟨easy, last, rfl, secured⟩ := opened rfl
      obtain ⟨slists, freed, same⟩ := curlSlistFreeAll_ok built
      refine ⟨some q, { mid with slists, cells := mid.cells.erase w.cells.next }, ?_, ?_, ?_, transfers, checkHttp⟩
      · apply run_bind (inBufs_ok allocated)
        refine run_bind (inCells_ok rfl) ?_
        refine run_bind (inClients_ok (read_eq _ client.live)) ?_
        refine run_bind attempted ?_
        refine run_bind (inCells_ok (read_eq _ cell.live)) ?_
        refine run_bind freed ?_
        exact run_bind (inCells_ok (release_eq _ cell.live)) rfl
      · rw [answered]
        show Holds w.bufs mid.bufs q curl.response
        rw [← whole rfl]
        exact held
      · rw [answered]
        refine ⟨⟨_, attached'.frame rfl rfl, rfl, ?_⟩, same.trans between.slists, cell.erase⟩
        rintro _ _ ⟨⟩
        exact secured
  | false =>
      obtain ⟨clients, easies, closed, detached⟩ := ipaHttpClose_ok attached'
      obtain ⟨slists, freed, same⟩ := curlSlistFreeAll_ok (w := { mid with clients, easies }) built
      refine ⟨none, { mid with
          clients, easies, slists, bufs := mid.bufs.erase q, cells := mid.cells.erase w.cells.next }, ?_, ?_, ?_,
        transfers, checkHttp⟩
      · apply run_bind (inBufs_ok allocated)
        refine run_bind (inCells_ok rfl) ?_
        refine run_bind (inClients_ok (read_eq _ client.live)) ?_
        refine run_bind attempted ?_
        refine run_bind (inCells_ok (read_eq _ cell.live)) ?_
        refine run_bind closed ?_
        refine run_bind freed ?_
        obtain ⟨old, there, -⟩ := held.buffer
        refine run_bind (inBufs_ok (release_eq _ there)) ?_
        exact run_bind (inCells_ok (release_eq _ cell.live)) rfl
      · rw [answered]
        exact Holds.erase held
      · rw [answered]
        exact ⟨⟨none, detached.frame rfl rfl, rfl, by simp⟩, same.trans between.slists, cell.erase⟩

end

/-! ## The attempts of a request -/

/-- Only the first attempt can find a handle. -/
def Config.outcome (config : Config) (connected : Bool) (curl : UInt32 → Curl) (i : UInt32) : Option (List UInt8) :=
  config.answer (connected && i == 0) (curl i)

/-- The transfers of the attempts from the `i`-th on. -/
def Config.transfers (config : Config) (connected : Bool) (curl : UInt32 → Curl) (transfer : Transfer) :
    (left : Nat) → (i : UInt32) → List Transfer
  | 0, _ => []
  | left + 1, i =>
      (if config.reaches (connected && i == 0) (curl i) then [transfer] else []) ++
        match config.outcome connected curl i with
        | some _ => []
        | none => config.transfers connected curl transfer left (i + 1)

theorem Given.congr {before mid bufs : Heap IpaBuf} {res : Option Pointer} {response : Option (List UInt8)}
    (given : Given mid bufs res response) (same : mid.block = before.block) : Given before bufs res response := by
  cases res with
  | none =>
      cases response with
      | none => exact Eq.trans given same
      | some => exact given.elim
  | some p =>
      cases response with
      | none => exact given.elim
      | some =>
          obtain ⟨buffer, new, others⟩ := (given : Holds _ _ _ _)
          rw [same] at new
          exact ⟨buffer, new, fun q other => by rw [← same]; exact others q other⟩

section
variable {config : Config} {httpCtx : Pointer} {before : World} (allocator : Allocator) (curl : UInt32 → Curl)
  (url : String) {req : Pointer} {buf : IpaBuf} (connected : Bool)

/-- What a request that ends has come to. -/
structure Answered (config : Config) (httpCtx : Pointer) (before w : World) (transfers : List Transfer)
    (res : Option Pointer) (response : Option (List UInt8)) (after : World) : Prop where
  given : Given w.bufs after.bufs res response
  between : Between config httpCtx before after response.isSome
  transfers : after.transfers = w.transfers ++ transfers

theorem attempt_answered (valid : buf.Valid) {i : UInt32} {w : World}
    (between : Between config httpCtx before w (connected && i == 0)) (live : w.bufs.block req = some buf)
    {response : List UInt8} (found : config.outcome connected curl i = some response) :
    ∃ p after, ipaHttpReq allocator (curl i) httpCtx req url w = .ok (some p, after) ∧
      after.checkHttp = w.checkHttp ∧
      Answered config httpCtx before w
        (if config.reaches (connected && i == 0) (curl i) then [config.transfer url buf.bytes] else []) (some p)
        (some response) after := by
  obtain ⟨res, after, called, given, onwards, transfers, checkHttp⟩ :=
    ipaHttpReq_ok allocator (curl i) url between live valid
  rw [← Config.outcome, found] at given onwards
  cases res with
  | none => exact given.elim
  | some p => exact ⟨p, after, called, checkHttp, given, onwards, transfers⟩

theorem attempt_failed (valid : buf.Valid) {i : UInt32} {w : World}
    (between : Between config httpCtx before w (connected && i == 0)) (live : w.bufs.block req = some buf)
    (found : config.outcome connected curl i = none) :
    ∃ after, ipaHttpReq allocator (curl i) httpCtx req url w = .ok (none, after) ∧
      after.checkHttp = w.checkHttp ∧
      Answered config httpCtx before w
        (if config.reaches (connected && i == 0) (curl i) then [config.transfer url buf.bytes] else []) none none
        after := by
  obtain ⟨res, after, called, given, onwards, transfers, checkHttp⟩ :=
    ipaHttpReq_ok allocator (curl i) url between live valid
  rw [← Config.outcome, found] at given onwards
  cases res with
  | none => exact ⟨after, called, checkHttp, given, onwards, transfers⟩
  | some p => exact given.elim

theorem esipaAttempts_ok (valid : buf.Valid) (left : Nat) (i : UInt32)
    (whole : i.toNat + left = config.esipaReqRetries.toNat) {w : World}
    (between : Between config httpCtx before w (connected && i == 0)) (live : w.bufs.block req = some buf) :
    ∃ res after response, esipaAttempts allocator config.esipaReqRetries curl httpCtx url req (left + 1) i w =
        .ok (res, after) ∧
      Proc.esipaAttempts config.esipaReqRetries (config.outcome connected curl) w.checkHttp (left + 1) i =
        (.ok response, after.checkHttp) ∧
      Answered config httpCtx before w
        (config.transfers connected curl (config.transfer url buf.bytes) (left + 1) i) res response after := by
  induction left generalizing i w with
  | zero =>
      have last : config.esipaReqRetries ≤ i := UInt32.le_iff_toNat_le.mpr (Nat.le_of_eq whole.symm)
      unfold Proc.esipaAttempts Config.transfers
      cases found : config.outcome connected curl i with
      | some response =>
          obtain ⟨p, after, called, checkHttp, answered⟩ :=
            attempt_answered allocator curl url connected valid between live found
          refine ⟨some p, after, some response, run_bind called rfl, by rw [checkHttp], ?_⟩
          rw [List.append_nil]
          exact answered
      | none =>
          obtain ⟨after, called, -, given, onwards, transfers⟩ :=
            attempt_failed allocator curl url connected valid between live found
          obtain ⟨⟨connection, attached, same, trusted⟩, slists, cells⟩ := onwards
          refine ⟨none, { after with checkHttp := true }, none, ?_, by simp [last], given,
            ⟨⟨connection, attached.frame rfl rfl, same, trusted⟩, slists, cells⟩, ?_⟩
          · apply run_bind called
            simp only [last, or_true, if_true]
            rfl
          · rw [Config.transfers, List.append_nil]
            exact transfers
  | succ left ih =>
      have bound := config.esipaReqRetries.toNat_lt
      have next : (i + 1).toNat = i.toNat + 1 := by
        rw [UInt32.toNat_add, UInt32.toNat_one, Nat.mod_eq_of_lt]
        omega
      have more : ¬ config.esipaReqRetries ≤ i := by
        rw [UInt32.le_iff_toNat_le]
        omega
      have some_retries : config.esipaReqRetries ≠ 0 := by
        intro zero
        rw [zero] at whole
        exact absurd whole (Nat.succ_ne_zero _)
      have later : (connected && i + 1 == 0) = false := by
        have nonzero : i + 1 ≠ 0 := by
          intro zero
          rw [zero] at next
          exact absurd next.symm (Nat.succ_ne_zero _)
        simp [nonzero]
      unfold Proc.esipaAttempts Config.transfers
      cases found : config.outcome connected curl i with
      | some response =>
          obtain ⟨p, after, called, checkHttp, answered⟩ :=
            attempt_answered allocator curl url connected valid between live found
          refine ⟨some p, after, some response, run_bind called rfl, by rw [checkHttp], ?_⟩
          rw [List.append_nil]
          exact answered
      | none =>
          obtain ⟨mid, called, checkHttp, kept, onwards, transfers⟩ :=
            attempt_failed allocator curl url connected valid between live found
          replace kept : mid.bufs.block = w.bufs.block := kept
          replace onwards : Between config httpCtx before mid (connected && i + 1 == 0) := by
            rw [later]
            exact onwards
          obtain ⟨res, after, response, attempted, same, given, final, made⟩ :=
            ih (i + 1) (by omega) onwards (by rw [kept]; exact live)
          refine ⟨res, after, response, ?_, ?_, given.congr kept, final, ?_⟩
          · apply run_bind called
            simp only [some_retries, more, or_self, if_false]
            exact attempted
          · simp only [some_retries, more, if_false]
            rw [← checkHttp]
            exact same
          · rw [made, transfers, List.append_assoc]

end

/-! ## The client without its memory -/

structure Client where
  connected : Bool
  transfers : List Transfer
  checkHttp : Bool

def Config.perform (config : Config) (client : Client) : Op → Except Fault (Option (List UInt8) × Client)
  | .request none _ _ => .ok (none, client)
  | .request (some message) url curl =>
      match Proc.ipaEsipaReq config.esipaReqRetries (config.outcome client.connected curl) client.checkHttp
          (some message.bytes) with
      | (.error f, _) => .error f
      | (.ok response, checkHttp) =>
          .ok (response,
            { connected := response.isSome
              transfers := client.transfers ++
                config.transfers client.connected curl (config.transfer url message.bytes)
                  (config.esipaReqRetries + 1).toNat 0
              checkHttp })
  | .close => .ok (none, { client with connected := false })

def Config.performAll (config : Config) (client : Client) :
    List Op → Except Fault (List (Option (List UInt8)) × Client)
  | [] => .ok ([], client)
  | op :: rest =>
      match config.perform client op with
      | .error f => .error f
      | .ok (response, client) =>
          match config.performAll client rest with
          | .error f => .error f
          | .ok (responses, client) => .ok (response :: responses, client)

/-- The client in memory, next to what was there before it. -/
structure Shows (config : Config) (httpCtx : Pointer) (before w : World) (client : Client) : Prop where
  between : Between config httpCtx before w client.connected
  bufs : w.bufs.block = before.bufs.block
  transfers : w.transfers = before.transfers ++ client.transfers
  checkHttp : w.checkHttp = client.checkHttp

inductive Refines {α : Type} (related : World → Client → Prop) :
    Except Fault (α × Client) → Except Fault (α × World) → Prop where
  | fault (f : Fault) : Refines related (.error f) (.error f)
  | ok (value : α) (client : Client) (after : World) (holds : related after client) :
      Refines related (.ok (value, client)) (.ok (value, after))

section
variable (allocator : Allocator) (config : Config) {httpCtx : Pointer} {before w : World} {client : Client}

theorem takeResponse_ok {bufs : Heap IpaBuf} {res : Option Pointer} {response : Option (List UInt8)}
    (given : Given bufs w.bufs res response) :
    ∃ bufs', takeResponse res w = .ok (response, { w with bufs := bufs' }) ∧ bufs'.block = bufs.block := by
  cases res with
  | none =>
      cases response with
      | none => exact ⟨w.bufs, rfl, given⟩
      | some => exact given.elim
  | some p =>
      cases response with
      | none => exact given.elim
      | some bytes =>
          have held : Holds bufs w.bufs p bytes := given
          obtain ⟨buf, live, valid, rfl⟩ := held.buffer
          refine ⟨w.bufs.erase p, ?_, Holds.erase held⟩
          refine run_bind (inBufs_ok (read_eq _ live)) ?_
          exact run_bind (inBufs_ok (release_eq _ live)) rfl

theorem perform_refines (shows : Shows config httpCtx before w client) (op : Op) :
    Refines (Shows config httpCtx before) (config.perform client op) (op.perform allocator config httpCtx w) := by
  cases op with
  | close =>
      obtain ⟨connection, attached, -⟩ := shows.between.attached
      obtain ⟨clients, easies, closed, detached⟩ := ipaHttpClose_ok attached
      have done : Op.close.perform allocator config httpCtx w = .ok (none, { w with clients, easies }) :=
        run_bind closed rfl
      rw [done]
      exact .ok none _ _ ⟨⟨⟨none, detached, rfl, by simp⟩, shows.between.slists, shows.between.cells⟩, shows.bufs,
        shows.transfers, shows.checkHttp⟩
  | request esipaReq url curl =>
      cases esipaReq with
      | none => exact .ok none client w shows
      | some message =>
          have small := message.small
          have allocated : ipaBufAllocData allocator message.bytes w.bufs =
              .ok (w.bufs.next, w.bufs.grown (.ofBytes message.bytes)) :=
            newCopy_ok allocator w.bufs (by unfold sizeofIpaBuf; omega) rfl _
          have req := oneMore_grown shows.bufs (IpaBuf.ofBytes message.bytes)
          generalize w.bufs.next = esipaReq at allocated req
          generalize w.bufs.grown (.ofBytes message.bytes) = bufs at allocated req
          by_cases wrapped : config.esipaReqRetries + 1 = 0
          · have faulted : (Op.request (some message) url curl).perform allocator config httpCtx w =
                .error .uninitialised := by
              refine run_bind (inBufs_ok allocated) ?_
              apply run_bind_error
              rw [ipaEsipaReq, wrapped]
              rfl
            rw [faulted, Config.perform, Proc.ipaEsipaReq, wrapped]
            exact .fault .uninitialised
          · have attempts : (config.esipaReqRetries + 1).toNat = config.esipaReqRetries.toNat + 1 := by
              have bound := config.esipaReqRetries.toNat_lt
              have positive : (config.esipaReqRetries + 1).toNat ≠ 0 := fun zero => wrapped (UInt32.toNat_inj.mp zero)
              rw [UInt32.toNat_add, UInt32.toNat_one] at positive ⊢
              omega
            obtain ⟨⟨connection, attached, same, trusted⟩, slists, cells⟩ := shows.between
            obtain ⟨res, mid, response, called, outcome, given, onwards, transfers⟩ :=
              esipaAttempts_ok (w := { w with bufs }) allocator curl url client.connected
                (IpaBuf.ofBytes_valid message.bytes) config.esipaReqRetries.toNat 0 (Nat.zero_add _)
                ⟨⟨connection, attached.frame rfl rfl, by simpa using same, trusted⟩, slists, cells⟩ req.live
            rw [← attempts] at called outcome transfers
            obtain ⟨bufs', taken, kept⟩ := takeResponse_ok given
            replace req : OneMore before.bufs bufs' esipaReq (.ofBytes message.bytes) := req.of_block kept
            have done : (Op.request (some message) url curl).perform allocator config httpCtx w =
                .ok (response, { mid with bufs := bufs'.erase esipaReq }) := by
              refine run_bind (inBufs_ok allocated) ?_
              apply run_bind called
              apply run_bind taken
              exact run_bind (inBufs_ok (release_eq _ req.live)) rfl
            have expected : config.perform client (.request (some message) url curl) =
                .ok (response,
                  { connected := response.isSome
                    transfers := client.transfers ++
                      config.transfers client.connected curl (config.transfer url message.bytes)
                        (config.esipaReqRetries + 1).toNat 0
                    checkHttp := mid.checkHttp }) := by
              rw [shows.checkHttp] at outcome
              simp only [Config.perform, Proc.ipaEsipaReq, outcome]
            rw [done, expected]
            obtain ⟨⟨connection', attached', same', trusted'⟩, slists', cells'⟩ := onwards
            refine .ok response _ _ ⟨⟨⟨connection', attached'.frame rfl rfl, same', trusted'⟩, slists', cells'⟩,
              req.erase, ?_, rfl⟩
            rw [IpaBuf.ofBytes_bytes] at transfers
            rw [transfers, shows.transfers, List.append_assoc]

theorem performAll_refines (shows : Shows config httpCtx before w client) (ops : List Op) :
    Refines (Shows config httpCtx before) (config.performAll client ops)
      (performAll allocator config httpCtx ops w) := by
  induction ops generalizing w client with
  | nil => exact .ok [] client w shows
  | cons op rest ih =>
      have first := perform_refines allocator config shows op
      unfold Config.performAll
      generalize expected : config.perform client op = spec at first
      generalize done : op.perform allocator config httpCtx w = out at first
      cases first with
      | fault f =>
          rw [performAll, run_bind_error done]
          exact .fault f
      | ok response client' after shows' =>
          have others := ih shows'
          rw [performAll, run_bind done rfl]
          simp only
          generalize config.performAll client' rest = spec at others
          generalize ran : performAll allocator config httpCtx rest after = out at others
          cases others with
          | fault f =>
              rw [run_bind_error ran]
              exact .fault f
          | ok responses last after' shown =>
              rw [run_bind ran rfl]
              exact .ok (response :: responses) last after' shown

/-- Nothing is left of the client but its transfers. -/
structure Gone (before after : World) (client : Client) : Prop where
  clients : after.clients.block = before.clients.block
  easies : after.easies.block = before.easies.block
  slists : after.slists.block = before.slists.block
  cells : after.cells.block = before.cells.block
  bufs : after.bufs.block = before.bufs.block
  transfers : after.transfers = before.transfers ++ client.transfers
  checkHttp : after.checkHttp = client.checkHttp

end

end Ipad.Http
