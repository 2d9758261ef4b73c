import HomeTier.Proxy.RelaxCsp
import HomeTier.Proxy.Redirect

/-! # Plugins around the handlers

`PluginChain` of `src-tauri/src/proxy/plugin.rs`: every request of a connection that is
no WebSocket upgrade goes through the `pre_process` of the plugins by priority, then to
the first handler that takes it, and its response through the `post_process` of the
plugins in the opposite order. `CorsPlugin` and `IframeBypassPlugin` (`proxy/plugins/`)
are the plugins the application starts its proxy with; `HttpsTunnelPlugin`,
`HttpForwardPlugin` and `HttpReverseProxyHandler` the handlers.

An answer of a `pre_process` and an error of anything end the processing: no other
plugin sees the response (`calls_nested`). What a handler answers leaves the proxy with
its status, body and headers, but for those of the two plugins (`answered_headers`). Of
the policy the first header stays in force, and of that all but the limits to who may
frame the page that are spelled in lower case (`policy_kept`, `frame_free_iff`).

A handler is a function from the request to its answer; what it learns from the
network is part of the function.
-/

namespace HomeTier.PluginChain

open Lib Lib.Csp HttpForward RelaxCsp

/-! ## Processing -/

/-- `RequestContext`, without the start time. -/
structure Context where
  targetUrl : Option Str
  shouldRewrite : Bool
  pluginData : Map Str Str

def Context.new : Context := ⟨none, true, ∅⟩

structure Request where
  method : Str
  line : RequestLine
  headers : HeaderMap
  body : Transfer

/-- `dyn ProxyPlugin`; `preProcess` may change the request and the context. -/
structure Plugin where
  name : Str
  priority : Int
  preProcess : Request → Context → Except Str (Option Response) × Request × Context
  postProcess : Response → Context → Except Str Response

/-- `dyn ProxyHandler` -/
structure Handler where
  name : Str
  canHandle : Request → Bool
  handle : Request → Context → Except Str Response

structure Chain where
  plugins : List Plugin
  handlers : List Handler

def byPriority (p q : Plugin) : Bool := p.priority ≤ q.priority

/-- `PluginChain::new`; the sort is stable. -/
def Chain.new (plugins : List Plugin) (handlers : List Handler) : Chain where
  plugins := plugins.mergeSort byPriority
  handlers := handlers

/-- The calls that a request comes to. -/
inductive Call where
  | pre (plugin : Str)
  | handle (handler : Str)
  | post (plugin : Str)
deriving DecidableEq, Repr

def errorResponse (status : Nat) (msg : Str) : Response := ⟨status, textPlain, .full (utf8 msg)⟩

def failure (name : Str) (phase : String) (e : Str) : Response :=
  errorResponse 502 ('[' :: name ++ "] ".toList ++ phase.toList ++ " error: ".toList ++ e)

/-- Phase 1; an error is the response that ends the processing. -/
def preProcess : List Plugin → Request → Context →
    Except Response (Request × Context) × List Call
  | [], req, ctx => (.ok (req, ctx), [])
  | p :: ps, req, ctx =>
    match p.preProcess req ctx with
    | (.ok (some resp), _) => (.error resp, [.pre p.name])
    | (.ok none, req', ctx') =>
      ((preProcess ps req' ctx').1, .pre p.name :: (preProcess ps req' ctx').2)
    | (.error e, _) => (.error (failure p.name "pre_process" e), [.pre p.name])

/-- Phase 2. -/
def dispatch (handlers : List Handler) (req : Request) (ctx : Context) :
    Except Response Response × List Call :=
  match handlers.find? fun h => h.canHandle req with
  | none => (.ok (errorResponse 404 "No handler for this request".toList), [])
  | some h =>
    match h.handle req ctx with
    | .ok resp => (.ok resp, [.handle h.name])
    | .error e => (.error (failure h.name "handler" e), [.handle h.name])

/-- Phase 3, over the plugins in the order they are called. -/
def postProcess : List Plugin → Response → Context → Response × List Call
  | [], resp, _ => (resp, [])
  | p :: ps, resp, ctx =>
    match p.postProcess resp ctx with
    | .ok resp' => ((postProcess ps resp' ctx).1, .post p.name :: (postProcess ps resp' ctx).2)
    | .error e => (failure p.name "post_process" e, [.post p.name])

def process (chain : Chain) (req : Request) (ctx : Context) : Response × List Call :=
  match preProcess chain.plugins req ctx with
  | (.error resp, calls) => (resp, calls)
  | (.ok (req', ctx'), calls) =>
    match dispatch chain.handlers req' ctx' with
    | (.error resp, handled) => (resp, calls ++ handled)
    | (.ok resp, handled) =>
      let after := postProcess chain.plugins.reverse resp ctx'
      (after.1, calls ++ handled ++ after.2)

/-! ## The order of the calls -/

theorem preProcess_calls (ps : List Plugin) (req : Request) (ctx : Context) :
    ∃ called, called <+: ps ∧ (preProcess ps req ctx).2 = called.map (.pre ·.name) ∧
      ((preProcess ps req ctx).1.isOk = true → called = ps) := by
  induction ps generalizing req ctx with
  | nil => exact ⟨[], List.nil_prefix, rfl, fun _ => rfl⟩
  | cons p ps ih =>
    have hstop : [p] <+: p :: ps := List.cons_prefix_cons.2 ⟨rfl, List.nil_prefix⟩
    unfold preProcess
    split
    · exact ⟨[p], hstop, rfl, fun h => by cases h⟩
    · rename_i req' ctx' _
      rcases ih req' ctx' with ⟨called, hstart, hcalls, hall⟩
      refine ⟨p :: called, List.cons_prefix_cons.2 ⟨rfl, hstart⟩, ?_, ?_⟩
      · rw [List.map_cons, hcalls]
      · intro h
        rw [hall h]
    · exact ⟨[p], hstop, rfl, fun h => by cases h⟩

theorem postProcess_calls (ps : List Plugin) (resp : Response) (ctx : Context) :
    ∃ called, called <+: ps ∧ (postProcess ps resp ctx).2 = called.map (.post ·.name) := by
  induction ps generalizing resp with
  | nil => exact ⟨[], List.nil_prefix, rfl⟩
  | cons p ps ih =>
    unfold postProcess
    split
    · rename_i resp' _
      rcases ih resp' with ⟨called, hstart, hcalls⟩
      exact ⟨p :: called, List.cons_prefix_cons.2 ⟨rfl, hstart⟩, by rw [List.map_cons, hcalls]⟩
    · exact ⟨[p], List.cons_prefix_cons.2 ⟨rfl, List.nil_prefix⟩, rfl⟩

theorem dispatch_calls (handlers : List Handler) (req : Request) (ctx : Context) :
    (dispatch handlers req ctx).2.length ≤ 1 ∧
      ∀ call ∈ (dispatch handlers req ctx).2, ∃ h ∈ handlers, call = .handle h.name := by
  unfold dispatch
  split
  · exact ⟨Nat.zero_le 1, by simp⟩
  · rename_i h hfind
    have hmem := List.mem_of_find?_eq_some hfind
    split <;> exact ⟨le_rfl, fun call hcall => ⟨h, hmem, List.mem_singleton.1 hcall⟩⟩

theorem dispatch_cons_pos {h : Handler} {hs : List Handler} {req : Request} {ctx : Context}
    (hcan : h.canHandle req = true) :
    dispatch (h :: hs) req ctx =
      match h.handle req ctx with
      | .ok resp => (.ok resp, [.handle h.name])
      | .error e => (.error (failure h.name "handler" e), [.handle h.name]) := by
  simp [dispatch, hcan]

theorem dispatch_cons_neg {h : Handler} {hs : List Handler} {req : Request} {ctx : Context}
    (hcan : h.canHandle req = false) : dispatch (h :: hs) req ctx = dispatch hs req ctx := by
  simp [dispatch, hcan]

theorem pairwise_new (plugins : List Plugin) (handlers : List Handler) :
    (Chain.new plugins handlers).plugins.Pairwise fun p q => p.priority ≤ q.priority := by
  have htrans : ∀ p q r, byPriority p q = true → byPriority q r = true → byPriority p r = true := by
    intro p q r hpq hqr
    simp only [byPriority, decide_eq_true_eq] at hpq hqr ⊢
    omega
  have htotal : ∀ p q, (byPriority p q || byPriority q p) = true := by
    intro p q
    simp only [byPriority, Bool.or_eq_true, decide_eq_true_eq]
    omega
  have hsorted := List.pairwise_mergeSort htrans htotal plugins
  exact hsorted.imp fun h => by simpa [byPriority] using h

/-- For any plugins and handlers the calls of a request are nested: plugins before in the
order of their priorities, at most one handler and only after all of them, and plugins
after in the opposite order and only after all of these. -/
theorem calls_nested (plugins : List Plugin) (handlers : List Handler) (req : Request)
    (ctx : Context) :
    ∃ (before : List Plugin) (handled : List Call) (after : List Plugin),
      (process (.new plugins handlers) req ctx).2 =
        before.map (Call.pre ·.name) ++ handled ++ after.map (Call.post ·.name) ∧
      before.Pairwise (fun p q => p.priority ≤ q.priority) ∧
      (∀ p ∈ before, p ∈ plugins) ∧
      handled.length ≤ 1 ∧ (∀ call ∈ handled, ∃ h ∈ handlers, call = .handle h.name) ∧
      (handled ≠ [] ∨ after ≠ [] → before.Perm plugins) ∧ after <+: before.reverse := by
  have hpairwise := pairwise_new plugins handlers
  have hperm : (Chain.new plugins handlers).plugins.Perm plugins := List.mergeSort_perm _ _
  rcases preProcess_calls (Chain.new plugins handlers).plugins req ctx with
    ⟨called, hstart, hcalls, hall⟩
  have hmem : ∀ p ∈ called, p ∈ plugins := fun p hp => hperm.subset (hstart.subset hp)
  have hsorted := hpairwise.sublist hstart.sublist
  unfold process
  split
  · -- a plugin has answered or failed
    rename_i resp calls hpre
    rw [hpre] at hcalls
    have hcalls : calls = called.map (Call.pre ·.name) := hcalls
    refine ⟨called, [], [], ?_, hsorted, hmem, Nat.zero_le 1, by simp, by simp, List.nil_prefix⟩
    show calls = _
    rw [hcalls, List.map_nil, List.append_nil, List.append_nil]
  · rename_i req' ctx' calls hpre
    rw [hpre] at hcalls hall
    obtain rfl := hall rfl
    have hcalls : calls = (Chain.new plugins handlers).plugins.map (Call.pre ·.name) := hcalls
    obtain ⟨hone, hhandler⟩ := dispatch_calls handlers req' ctx'
    split
    · -- the handler has failed
      rename_i resp handled hdispatch
      rw [show dispatch handlers req' ctx' = (.error resp, handled) from hdispatch] at hone hhandler
      refine ⟨_, handled, [], ?_, hsorted, hmem, hone, hhandler, fun _ => hperm, List.nil_prefix⟩
      show calls ++ handled = _
      rw [hcalls, List.map_nil, List.append_nil]
    · rename_i resp handled hdispatch
      rw [show dispatch handlers req' ctx' = (.ok resp, handled) from hdispatch] at hone hhandler
      rcases postProcess_calls (Chain.new plugins handlers).plugins.reverse resp ctx' with
        ⟨after, hafter, hpost⟩
      refine ⟨_, handled, after, ?_, hsorted, hmem, hone, hhandler, fun _ => hperm, hafter⟩
      show calls ++ handled ++ (postProcess _ resp ctx').2 = _
      rw [hcalls, hpost]

/-! ## The plugins -/

def xFrameOptions : Str := "x-frame-options".toList

def contentSecurityPolicy : Str := "content-security-policy".toList

def allowOrigin : Str := "access-control-allow-origin".toList

def allowMethods : Str := "access-control-allow-methods".toList

def allowHeaders : Str := "access-control-allow-headers".toList

structure CorsPlugin where
  allowedOrigins : Str
  allowedMethods : Str
  allowedHeaders : Str

/-- `CorsPlugin::default` -/
def CorsPlugin.new : CorsPlugin where
  allowedOrigins := ['*']
  allowedMethods := "GET, POST, PUT, PATCH, DELETE, HEAD, OPTIONS".toList
  allowedHeaders := ['*']

def options : Str := "OPTIONS".toList

/-- The answer to an `OPTIONS` request. -/
def CorsPlugin.preflight (p : CorsPlugin) : Response where
  status := 204
  headers := [
    (allowOrigin, headerBytes p.allowedOrigins),
    (allowMethods, headerBytes p.allowedMethods),
    (allowHeaders, headerBytes p.allowedHeaders),
    ("access-control-max-age".toList, headerBytes "86400".toList)]
  body := .full []

/-- `contains_key`, then `insert`. -/
def addMissing (name value : Str) (h : HeaderMap) : HeaderMap :=
  if h.any fun e => e.1 = name then h else h ++ [(name, headerBytes value)]

def CorsPlugin.preProcess (p : CorsPlugin) (req : Request) (ctx : Context) :
    Except Str (Option Response) × Request × Context :=
  (.ok (if req.method = options then some p.preflight else none), req, ctx)

def CorsPlugin.plugin (p : CorsPlugin) : Plugin where
  name := "cors".toList
  priority := 10
  preProcess := p.preProcess
  postProcess resp _ := .ok { resp with
    headers := addMissing allowHeaders p.allowedHeaders
      (addMissing allowMethods p.allowedMethods
        (addMissing allowOrigin p.allowedOrigins resp.headers)) }

/-- The directives that do not start with `frame-ancestors`. -/
def withoutFrameAncestors (val : Str) : Str :=
  cookieLine (((val.splitOn ';').map trim).filter fun s => !frameAncestors.isPrefixOf s)

/-- `post_process` of `IframeBypassPlugin` on the headers. -/
def bypass (h : HeaderMap) : HeaderMap :=
  let headers : HeaderMap := h.filter fun e => e.1 ≠ xFrameOptions
  match headers.getStr contentSecurityPolicy with
  | some val => overrideHeader headers contentSecurityPolicy (some (withoutFrameAncestors val))
  | none => headers

def iframeBypass : Plugin where
  name := "iframe_bypass".toList
  priority := 20
  preProcess req ctx := (.ok none, req, ctx)
  postProcess resp _ := .ok { resp with headers := bypass resp.headers }

/-- The chain that `setup.rs` and `server/mod.rs` start the proxy with. -/
def front (handlers : List Handler) : Chain :=
  .new [CorsPlugin.new.plugin, iframeBypass] handlers

/-! ## The handlers -/

def httpsTunnel (handle : Request → Context → Except Str Response) : Handler where
  name := "https_tunnel".toList
  canHandle req := req.method = "CONNECT".toList
  handle := handle

def params (C : UrlCodec) (req : Request) : List (Str × Str) := C.formParse (req.line.query.getD [])

/-- `HttpForwardPlugin`; `forward` and `passthrough` are in `HttpForward`. -/
def httpForward (C : UrlCodec) (handle : Request → Context → Except Str Response) : Handler where
  name := "http_forward".toList
  canHandle req :=
    "/__proxy__".toList.isPrefixOf req.line.path ||
      (paramGet (params C req) "url".toList).isSome ||
      (req.method = "GET".toList &&
        Redirect.fallsThrough ⟨req.headers.getStr "referer".toList, none⟩ req.line)
  handle := handle

/-- `handle` of `HttpReverseProxyHandler`; `fetch` is what it does with the target. -/
def reverseProxy (C : UrlCodec) (fetch : Request → Str → Except Str Response) (req : Request) :
    Except Str Response :=
  match (params C req).find? fun e => e.1 = "url".toList with
  | some (_, url) => fetch req url
  | none => .ok (errorResponse 400 "Missing 'url' query parameter".toList)

def httpReverseProxy (C : UrlCodec) (fetch : Request → Str → Except Str Response) : Handler where
  name := "http-reverse-proxy".toList
  canHandle req := "/proxy".toList.isPrefixOf req.line.path
  handle req _ := reverseProxy C fetch req

/-- The handlers of the proxy, in their order. -/
def handlers (C : UrlCodec) (tunnel forward : Request → Context → Except Str Response)
    (fetch : Request → Str → Except Str Response) : List Handler :=
  [httpsTunnel tunnel, httpForward C forward, httpReverseProxy C fetch]

/-! ## Headers -/

/-- All values of a header. -/
def values (h : HeaderMap) (name : Str) : List Bytes :=
  (h.filter fun e => e.1 = name).map fun e => e.2

theorem values_append (h h' : HeaderMap) (name : Str) :
    values (h ++ h') name = values h name ++ values h' name := by
  rw [values, List.filter_append, List.map_append]
  rfl

theorem values_singleton (name n : Str) (v : Bytes) :
    values [(name, v)] n = if name = n then [v] else [] := by
  by_cases hn : name = n <;> simp [values, hn]

theorem values_filter_ne (h : HeaderMap) (name n : Str) :
    values (h.filter fun e => e.1 ≠ name) n = if n = name then [] else values h n := by
  rw [values, List.filter_filter]
  by_cases hn : n = name
  · subst hn
    simp
  · rw [if_neg hn, values]
    congr 1
    apply List.filter_congr
    intro e _
    by_cases he : e.1 = n
    · simp [he, hn]
    · simp [he]

theorem any_iff_values (h : HeaderMap) (name : Str) :
    (h.any fun e => e.1 = name) = true ↔ values h name ≠ [] := by
  simp [values, List.filter_eq_nil_iff]

theorem getStr_eq_values (h : HeaderMap) (name : Str) :
    h.getStr name = (values h name).head?.bind toStr := by
  rw [HeaderMap.getStr, HeaderMap.get, values, List.head?_map, List.head?_filter]

theorem values_addMissing (name value : Str) (h : HeaderMap) (n : Str) :
    values (addMissing name value h) n =
      if n = name ∧ values h name = [] then [headerBytes value] else values h n := by
  by_cases hany : (h.any fun e => e.1 = name) = true
  · have hne := (any_iff_values h name).1 hany
    rw [addMissing, if_pos hany, if_neg fun hn => hne hn.2]
  · have hnil : values h name = [] := by
      by_contra hne
      exact hany ((any_iff_values h name).2 hne)
    rw [addMissing, if_neg hany, values_append, values_singleton]
    by_cases hn : n = name
    · subst hn
      simp [hnil]
    · rw [if_neg fun hc => hn hc.symm, if_neg fun hc => hn hc.1, List.append_nil]

theorem values_overrideHeader (h : HeaderMap) (name v n : Str) :
    values (overrideHeader h name (some v)) n =
      if n = name then (if v = [] then [] else [headerBytes v]) else values h n := by
  cases v with
  | nil =>
    rw [overrideHeader, values_filter_ne, if_pos rfl]
  | cons c v =>
    show values (h.filter (fun e => e.1 ≠ name) ++ [(name, headerBytes (c :: v))]) n = _
    rw [values_append, values_filter_ne, values_singleton]
    by_cases hn : n = name
    · subst hn
      simp
    · rw [if_neg hn, if_neg fun hc => hn hc.symm, if_neg hn, List.append_nil]

/-- The policies that `IframeBypassPlugin` leaves of those of a response. -/
def bypassed : List Bytes → List Bytes
  | [] => []
  | v :: rest =>
    match toStr v with
    | some t => if withoutFrameAncestors t = [] then [] else [headerBytes (withoutFrameAncestors t)]
    | none => v :: rest

theorem values_bypass (h : HeaderMap) (n : Str) :
    values (bypass h) n =
      if n = xFrameOptions then []
      else if n = contentSecurityPolicy then bypassed (values h contentSecurityPolicy)
      else values h n := by
  have hcsp : values (h.filter fun e => e.1 ≠ xFrameOptions) contentSecurityPolicy =
      values h contentSecurityPolicy := by
    rw [values_filter_ne, if_neg (by decide)]
  have hxfo : xFrameOptions ≠ contentSecurityPolicy := by decide
  unfold bypass
  simp only [getStr_eq_values, hcsp]
  cases hvalues : values h contentSecurityPolicy with
  | nil =>
    simp only [List.head?_nil, Option.bind_none, values_filter_ne]
    by_cases hn : n = contentSecurityPolicy
    · subst hn
      simp [hvalues, bypassed]
    · simp [hn]
  | cons v rest =>
    simp only [List.head?_cons, Option.bind_some, bypassed]
    cases htext : toStr v with
    | none =>
      simp only [values_filter_ne]
      by_cases hn : n = contentSecurityPolicy
      · subst hn
        simp [hvalues]
      · simp [hn]
    | some t =>
      simp only [values_overrideHeader, values_filter_ne]
      by_cases hx : n = xFrameOptions
      · subst hx
        simp [hxfo]
      · simp [hx]

/-! ## What leaves the proxy -/

/-- A response as the plugins let it out. -/
def dressed (resp : Response) : Response := { resp with
  headers := addMissing allowHeaders CorsPlugin.new.allowedHeaders
    (addMissing allowMethods CorsPlugin.new.allowedMethods
      (addMissing allowOrigin CorsPlugin.new.allowedOrigins (bypass resp.headers))) }

/-- The headers that `CorsPlugin` puts where there are none. -/
def corsHeaders : List (Str × Str) :=
  [(allowOrigin, CorsPlugin.new.allowedOrigins), (allowMethods, CorsPlugin.new.allowedMethods),
    (allowHeaders, CorsPlugin.new.allowedHeaders)]

theorem plugins_front (hs : List Handler) :
    (front hs).plugins = [CorsPlugin.new.plugin, iframeBypass] := by
  have hle : byPriority CorsPlugin.new.plugin iframeBypass = true := by
    show decide ((10 : Int) ≤ 20) = true
    decide
  apply List.mergeSort_of_pairwise
  rw [List.pairwise_pair]
  exact hle

theorem preProcess_front {req : Request} (ctx : Context) (h : req.method ≠ options) :
    (preProcess [CorsPlugin.new.plugin, iframeBypass] req ctx).1 = .ok (req, ctx) := by
  have hcors : CorsPlugin.new.plugin.preProcess req ctx = (.ok none, req, ctx) := by
    show CorsPlugin.new.preProcess req ctx = _
    rw [CorsPlugin.preProcess, if_neg h]
  unfold preProcess
  rw [hcors]
  rfl

theorem preProcess_preflight {req : Request} (ctx : Context) (h : req.method = options) :
    (preProcess [CorsPlugin.new.plugin, iframeBypass] req ctx).1 =
      .error CorsPlugin.new.preflight := by
  have hcors : CorsPlugin.new.plugin.preProcess req ctx =
      (.ok (some CorsPlugin.new.preflight), req, ctx) := by
    show CorsPlugin.new.preProcess req ctx = _
    rw [CorsPlugin.preProcess, if_pos h]
  unfold preProcess
  rw [hcors]

theorem postProcess_front (resp : Response) (ctx : Context) :
    (postProcess [iframeBypass, CorsPlugin.new.plugin] resp ctx).1 = dressed resp := rfl

/-- What comes of a request, whatever the handlers are. -/
theorem process_front (hs : List Handler) (req : Request) (ctx : Context) :
    (process (front hs) req ctx).1 =
      if req.method = options then CorsPlugin.new.preflight
      else
        match (dispatch hs req ctx).1 with
        | .error resp => resp
        | .ok resp => dressed resp := by
  have hhandlers : (front hs).handlers = hs := rfl
  unfold process
  rw [plugins_front, hhandlers]
  by_cases hoptions : req.method = options
  · have hpre := preProcess_preflight ctx hoptions
    rw [if_pos hoptions]
    split
    · rename_i resp calls heq
      rw [heq] at hpre
      exact Except.error.inj hpre
    · rename_i heq
      rw [heq] at hpre
      cases hpre
  · have hpre := preProcess_front ctx hoptions
    rw [if_neg hoptions]
    split
    · rename_i heq
      rw [heq] at hpre
      cases hpre
    · rename_i req' ctx' calls heq
      rw [heq] at hpre
      obtain ⟨rfl, rfl⟩ := Prod.mk.inj (Except.ok.inj hpre)
      cases hdispatch : dispatch hs req' ctx' with
      | mk result handled =>
        cases result with
        | error resp => rfl
        | ok resp => exact postProcess_front resp ctx'

/-- The values of a header of a response as the plugins let it out. -/
def dressedValues (h : HeaderMap) (n : Str) : List Bytes :=
  if n = xFrameOptions then []
  else if n = contentSecurityPolicy then bypassed (values h contentSecurityPolicy)
  else if values h n = [] then (corsHeaders.filter (·.1 = n)).map fun e => headerBytes e.2
  else values h n

theorem values_foldl_addMissing (pairs : List (Str × Str)) (hnodup : (pairs.map (·.1)).Nodup)
    (h : HeaderMap) (n : Str) :
    values (pairs.foldl (fun h e => addMissing e.1 e.2 h) h) n =
      if values h n = [] then (pairs.filter (·.1 = n)).map fun e => headerBytes e.2
      else values h n := by
  induction pairs generalizing h with
  | nil => simp
  | cons e pairs ih =>
    rw [List.map_cons, List.nodup_cons] at hnodup
    rw [List.foldl_cons, ih hnodup.2, values_addMissing]
    by_cases hn : n = e.1
    · subst hn
      -- the name is not among the rest
      have hrest : pairs.filter (·.1 = e.1) = [] := by
        rw [List.filter_eq_nil_iff]
        intro x hx heq
        refine hnodup.1 (List.mem_map.2 ⟨x, hx, ?_⟩)
        simpa using heq
      by_cases hnil : values h e.1 = []
      · simp [hnil, hrest]
      · simp [hnil]
    · have hfilter : (e :: pairs).filter (·.1 = n) = pairs.filter (·.1 = n) :=
        List.filter_cons_of_neg (by simpa using Ne.symm hn)
      have hsame : (if n = e.1 ∧ values h e.1 = [] then [headerBytes e.2] else values h n) =
          values h n := if_neg fun hc => hn hc.1
      rw [hsame, hfilter]

theorem values_dressed (resp : Response) (n : Str) :
    values (dressed resp).headers n = dressedValues resp.headers n := by
  have hfold : (dressed resp).headers =
      corsHeaders.foldl (fun h e => addMissing e.1 e.2 h) (bypass resp.headers) := rfl
  have hnone : ∀ m, m = xFrameOptions ∨ m = contentSecurityPolicy →
      corsHeaders.filter (·.1 = m) = [] := by
    rintro m (rfl | rfl) <;> decide
  rw [hfold, values_foldl_addMissing _ (by decide), values_bypass, dressedValues]
  by_cases hx : n = xFrameOptions
  · rw [if_pos hx, if_pos rfl, if_pos hx, hnone n (.inl hx), List.map_nil]
  · by_cases hc : n = contentSecurityPolicy
    · rw [if_neg hx, if_pos hc, if_neg hx, if_pos hc, hnone n (.inr hc), List.map_nil]
      split
      · rename_i hnil
        exact hnil.symm
      · rfl
    · rw [if_neg hx, if_neg hc, if_neg hx, if_neg hc]

/-- The response to a request that a handler, or none, answers: status and body are those
of the answer, and each header is that of the answer, but for the limits of framing and
the headers that `CorsPlugin` adds where there are none. -/
theorem answered_headers (hs : List Handler) (req : Request) (ctx : Context) (resp : Response)
    (hmethod : req.method ≠ options) (hanswer : (dispatch hs req ctx).1 = .ok resp) :
    (process (front hs) req ctx).1.status = resp.status ∧
      (process (front hs) req ctx).1.body = resp.body ∧
      ∀ n, values (process (front hs) req ctx).1.headers n = dressedValues resp.headers n := by
  rw [process_front, if_neg hmethod, hanswer]
  exact ⟨rfl, rfl, values_dressed resp⟩

/-! ## Policies -/

/-- The characters of a header value. -/
def isoText (v : Bytes) : Str := v.map fun b => Char.ofNat b.toNat

/-- What the policies of a response allow; all headers count. -/
def responseAllows {URL : Type} (hits : Hits URL) (h : HeaderMap) (a : Action URL) : Bool :=
  (values h contentSecurityPolicy).all fun v => allowedBy hits (isoText v) a

/-- Nothing in the headers limits who may frame the page. -/
def FrameFree (h : HeaderMap) : Prop :=
  values h xFrameOptions = [] ∧ ∀ v ∈ values h contentSecurityPolicy,
    ∀ policy ∈ (isoText v).splitOn ',', named (directives policy) frameAncestors = none

theorem isoText_of_toStr {v : Bytes} {t : Str} (h : toStr v = some t) : isoText v = t := by
  unfold toStr at h
  split at h
  · exact Option.some.inj h
  · cases h

theorem visible_of_toStr {v : Bytes} {t : Str} (h : toStr v = some t) : Visible t := by
  unfold toStr at h
  split at h
  · rename_i hall
    obtain rfl := Option.some.inj h
    intro c hc
    rcases List.mem_map.1 hc with ⟨b, hb, rfl⟩
    have hvisible := List.all_eq_true.1 hall b hb
    have hvalid : b.toNat.isValidChar := Or.inl (b.toNat_lt.trans (by decide))
    have hchar : (Char.ofNat b.toNat).toNat = b.toNat := by
      rw [Char.ofNat, dif_pos hvalid]
      rfl
    rw [hchar]
    simp only [isVisible, Bool.or_eq_true, Bool.and_eq_true, decide_eq_true_eq, beq_iff_eq] at hvisible
    rcases hvisible with ⟨h32, h127⟩ | rfl
    · exact .inl ⟨UInt8.le_iff_toNat_le.1 h32, UInt8.lt_iff_toNat_lt.1 h127⟩
    · exact .inr rfl
  · cases h

/-- Of what is written with `"; "` between, the empty pieces are no directives. -/
theorem directives_cookieLine_filter {ds : List Str} (h : ∀ d ∈ ds, ';' ∉ d ∧ strip d = d) :
    directives (cookieLine ds) = ds.filter (· ≠ []) := by
  cases ds with
  | nil => exact directives_nil
  | cons d ds =>
    have hstrip : ∀ q ∈ ds, strip (' ' :: q) = q := by
      intro q hq
      rw [strip_space_cons]
      exact (h q (List.mem_cons_of_mem d hq)).2
    have hmap : (ds.map fun q => ' ' :: q).map strip = ds := by
      rw [List.map_map]
      exact (List.map_congr_left hstrip).trans (List.map_id ds)
    rw [directives, splitOn_cookieLine fun q hq => (h q hq).1, List.map_cons, hmap,
      (h d List.mem_cons_self).2]

section Policy

variable {t : Str} (ht : Visible t)
include ht

theorem map_trim_eq_strip : (t.splitOn ';').map trim = (t.splitOn ';').map strip := by
  refine List.map_congr_left fun p hp => trim_eq_strip ?_
  exact fun c hc => ht c (mem_of_mem_splitOn hp hc)

/-- A piece of the policy that is written. -/
theorem piece_of_mem {d : Str}
    (hd : d ∈ ((t.splitOn ';').map trim).filter fun s => !frameAncestors.isPrefixOf s) :
    ';' ∉ d ∧ strip d = d ∧ (∀ c ∈ d, c ∈ t) := by
  rcases List.mem_map.1 (List.mem_filter.1 hd).1 with ⟨p, hp, rfl⟩
  have hvisible : Visible p := fun c hc => ht c (mem_of_mem_splitOn hp hc)
  refine ⟨fun hc => notMem_of_mem_splitOn hp (mem_of_mem_trim hc), ?_,
    fun c hc => mem_of_mem_splitOn hp (mem_of_mem_trim hc)⟩
  rw [trim_eq_strip hvisible, strip_strip hvisible]

theorem visible_withoutFrameAncestors : Visible (withoutFrameAncestors t) :=
  visible_cookieLine fun _ hd c hc => ht c ((piece_of_mem ht hd).2.2 c hc)

theorem noComma_withoutFrameAncestors (hcomma : ',' ∉ t) : ',' ∉ withoutFrameAncestors t := by
  intro hmem
  rcases mem_cookieLine hmem with hsep | ⟨d, hd, hmem⟩
  · exact absurd hsep (by decide)
  · exact hcomma ((piece_of_mem ht hd).2.2 _ hmem)

/-- The directives of the policy that `IframeBypassPlugin` writes. -/
theorem directives_withoutFrameAncestors :
    directives (withoutFrameAncestors t) =
      (directives t).filter fun d => !frameAncestors.isPrefixOf d := by
  rw [withoutFrameAncestors, directives_cookieLine_filter fun d hd =>
    ⟨(piece_of_mem ht hd).1, (piece_of_mem ht hd).2.1⟩, map_trim_eq_strip ht, List.filter_comm]
  rfl

end Policy

theorem named_filter (ds : List Str) {n : Str} (hn : n.take 15 ≠ frameAncestors) :
    named (ds.filter fun d => !frameAncestors.isPrefixOf d) n = named ds n := by
  induction ds with
  | nil => rfl
  | cons d ds ih =>
    simp only [named] at ih ⊢
    cases hframe : frameAncestors.isPrefixOf d with
    | true =>
      -- a directive that goes has another name
      have hname : nameOf d ≠ n := by
        rintro rfl
        exact hn (take_nameOf hframe (forall_mem_of_all (by decide)) (by decide))
      rw [List.filter_cons_of_neg (by rw [hframe]; decide), ih,
        List.find?_cons_of_neg (by simpa using hname)]
    | false =>
      rw [List.filter_cons_of_pos (by rw [hframe]; rfl), List.find?_cons, List.find?_cons, ih]

theorem allowed_filter {URL : Type} (hits : Hits URL) (ds : List Str) (a : Action URL) :
    allowed hits (ds.filter fun d => !frameAncestors.isPrefixOf d) a = allowed hits ds a := by
  have hgoverning : governing (ds.filter fun d => !frameAncestors.isPrefixOf d) a.destination =
      (governing ds a.destination).map id := by
    apply governing_of_named
    intro n hn
    rw [named_filter ds (notFrame_of_fallback hn), Option.map_id]
    rfl
  rw [allowed, hgoverning, Option.map_id, allowed]
  rfl

theorem allowedBy_nil {URL : Type} (hits : Hits URL) (a : Action URL) :
    allowedBy hits [] a = true := by
  have hnone : governing [] a.destination = none := by
    rw [governing, List.findSome?_eq_none_iff]
    exact fun _ _ => rfl
  rw [allowedBy_of_onePolicy (by simp), directives_nil, allowed, hnone]

theorem named_frame_eq_none (ds : List Str) :
    named (ds.filter fun d => !frameAncestors.isPrefixOf d) frameAncestors = none ↔
      ∀ d ∈ ds, nameOf d = frameAncestors → frameAncestors.isPrefixOf d = true := by
  simp only [named, List.find?_eq_none, List.mem_filter, Bool.not_eq_true', decide_eq_true_eq]
  constructor
  · intro h d hd hname
    by_contra hframe
    exact h d ⟨hd, Bool.eq_false_of_not_eq_true hframe⟩ hname
  · rintro h d ⟨hd, hframe⟩ hname
    rw [h d hd hname] at hframe
    cases hframe

/-- The response to a request, whose answer has a policy that can be read in its first
header. -/
structure Governed (hs : List Handler) (req : Request) (ctx : Context) (t : Str) where
  answer : Response
  method : req.method ≠ options
  answered : (dispatch hs req ctx).1 = .ok answer
  first : (values answer.headers contentSecurityPolicy).head?.bind toStr = some t

section Governed

variable {hs : List Handler} {req : Request} {ctx : Context} {t : Str}

theorem Governed.visible (g : Governed hs req ctx t) : Visible t := by
  rcases Option.bind_eq_some_iff.1 g.first with ⟨v, -, hv⟩
  exact visible_of_toStr hv

/-- The policies that leave the proxy. -/
theorem Governed.values (g : Governed hs req ctx t) :
    values (process (front hs) req ctx).1.headers contentSecurityPolicy =
      if withoutFrameAncestors t = [] then [] else [headerBytes (withoutFrameAncestors t)] := by
  have hne : contentSecurityPolicy ≠ xFrameOptions := by decide
  rw [(answered_headers hs req ctx g.answer g.method g.answered).2.2, dressedValues, if_neg hne,
    if_pos rfl]
  rcases Option.bind_eq_some_iff.1 g.first with ⟨v, hv, ht⟩
  cases hvalues : PluginChain.values g.answer.headers contentSecurityPolicy with
  | nil =>
    rw [hvalues] at hv
    cases hv
  | cons w rest =>
    rw [hvalues] at hv
    obtain rfl := Option.some.inj hv
    simp only [bypassed, ht]

end Governed

/-- What leaves the proxy allows every load and every script that the first policy header
of the answer allows, and no other. -/
theorem policy_kept {URL : Type} (hs : List Handler) (req : Request) (ctx : Context) (t : Str)
    (g : Governed hs req ctx t) (hcomma : ',' ∉ t) (hits : Hits URL) (a : Action URL) :
    responseAllows hits (process (front hs) req ctx).1.headers a = allowedBy hits t a := by
  have hsame : allowedBy hits (withoutFrameAncestors t) a = allowedBy hits t a := by
    rw [allowedBy_of_onePolicy (noComma_withoutFrameAncestors g.visible hcomma),
      allowedBy_of_onePolicy hcomma, directives_withoutFrameAncestors g.visible, allowed_filter]
  rw [responseAllows, g.values]
  split
  · rename_i hnil
    rw [← hsame, hnil, allowedBy_nil]
    rfl
  · rw [List.all_cons, List.all_nil, Bool.and_true,
      isoText_of_toStr (toStr_headerBytes (visible_withoutFrameAncestors g.visible)), hsame]

/-- The page may be framed by anybody exactly if no directive `frame-ancestors` of that
policy is spelled with capital letters. -/
theorem frame_free_iff (hs : List Handler) (req : Request) (ctx : Context) (t : Str)
    (g : Governed hs req ctx t) (hcomma : ',' ∉ t) :
    FrameFree (process (front hs) req ctx).1.headers ↔
      ∀ d ∈ directives t, nameOf d = frameAncestors → frameAncestors.isPrefixOf d = true := by
  have hxfo : values (process (front hs) req ctx).1.headers xFrameOptions = [] := by
    rw [(answered_headers hs req ctx g.answer g.method g.answered).2.2, dressedValues, if_pos rfl]
  have hone := List.splitOn_eq_singleton (noComma_withoutFrameAncestors g.visible hcomma)
  rw [← named_frame_eq_none, ← directives_withoutFrameAncestors g.visible]
  unfold FrameFree
  rw [g.values]
  split
  · rename_i hnil
    rw [hnil, directives_nil]
    exact ⟨fun _ => rfl, fun _ => ⟨hxfo, fun v hv => by cases hv⟩⟩
  · simp only [hxfo, true_and, List.mem_singleton, forall_eq,
      isoText_of_toStr (toStr_headerBytes (visible_withoutFrameAncestors g.visible)), hone]

/-- A page that nobody but itself may frame, as its own header and its policy say. -/
def nasAnswer : Response where
  status := 200
  headers := [
    (xFrameOptions, headerBytes "DENY".toList),
    (contentSecurityPolicy, headerBytes "default-src 'self'; frame-ancestors 'self'".toList)]
  body := .full []

def nasHandler : Handler := httpForward ⟨id, fun _ => []⟩ fun _ _ => .ok nasAnswer

def nasRequest : Request where
  method := "GET".toList
  line := ⟨"/index.html".toList, none, by decide⟩
  headers := []
  body := ⟨[], none⟩

theorem dispatch_nas : (dispatch [nasHandler] nasRequest .new).1 = .ok nasAnswer := by
  have hcan : nasHandler.canHandle nasRequest = true := by decide
  rw [dispatch_cons_pos hcan]
  rfl

def nasGoverned : Governed [nasHandler] nasRequest .new
    "default-src 'self'; frame-ancestors 'self'".toList where
  answer := nasAnswer
  method := by decide
  answered := dispatch_nas
  first := by decide

theorem answered_headers_nas :
    values (process (front [nasHandler]) nasRequest .new).1.headers allowOrigin =
      dressedValues nasAnswer.headers allowOrigin :=
  (answered_headers [nasHandler] nasRequest .new nasAnswer (by decide) dispatch_nas).2.2 allowOrigin

theorem policy_kept_nas :
    responseAllows (fun (_ : Str) _ => true) (process (front [nasHandler]) nasRequest .new).1.headers
        (.load .image []) =
      allowedBy (fun (_ : Str) _ => true) "default-src 'self'; frame-ancestors 'self'".toList
        (.load .image []) :=
  policy_kept [nasHandler] nasRequest .new _ nasGoverned (by decide) _ _

theorem frame_free_nas : FrameFree (process (front [nasHandler]) nasRequest .new).1.headers :=
  (frame_free_iff [nasHandler] nasRequest .new _ nasGoverned (by decide)).2 (by decide)

/-! ## The last handler -/

theorem find?_eq_none_of_paramGet {pairs : List (Str × Str)} {name : Str}
    (h : paramGet pairs name = none) : pairs.find? (fun e => e.1 = name) = none := by
  rw [paramGet, Option.map_eq_none_iff, List.find?_eq_none] at h
  rw [List.find?_eq_none]
  exact fun e he => h e (List.mem_reverse.2 he)

/-- A request with a `url` parameter is forwarded. -/
theorem paramGet_of_not_forward {C : UrlCodec}
    {forward : Request → Context → Except Str Response} {req : Request}
    (h : (httpForward C forward).canHandle req = false) :
    paramGet (params C req) "url".toList = none := by
  have hor : (_ || (paramGet (params C req) "url".toList).isSome || _) = false := h
  rw [Bool.or_eq_false_iff, Bool.or_eq_false_iff] at hor
  exact Option.not_isSome_iff_eq_none.1 (Bool.eq_false_iff.1 hor.1.2)

/-- `HttpReverseProxyHandler` fetches nothing: whatever it would do with the target of a
request, no request comes to it that has one. -/
theorem reverse_proxy_unreached (C : UrlCodec)
    (tunnel forward : Request → Context → Except Str Response)
    (fetch fetch' : Request → Str → Except Str Response) (req : Request) (ctx : Context) :
    process (front (handlers C tunnel forward fetch)) req ctx =
      process (front (handlers C tunnel forward fetch')) req ctx := by
  have hdispatch : ∀ (req : Request) (ctx : Context),
      dispatch (handlers C tunnel forward fetch) req ctx =
        dispatch (handlers C tunnel forward fetch') req ctx := by
    intro req ctx
    unfold handlers
    cases htunnel : (httpsTunnel tunnel).canHandle req with
    | true => rw [dispatch_cons_pos htunnel, dispatch_cons_pos htunnel]
    | false =>
      rw [dispatch_cons_neg htunnel, dispatch_cons_neg htunnel]
      cases hforward : (httpForward C forward).canHandle req with
      | true => rw [dispatch_cons_pos hforward, dispatch_cons_pos hforward]
      | false =>
        rw [dispatch_cons_neg hforward, dispatch_cons_neg hforward]
        -- the request has no target, or it would have been forwarded
        have hnone := find?_eq_none_of_paramGet (paramGet_of_not_forward hforward)
        have hhandle : ∀ f, (httpReverseProxy C f).handle req ctx =
            .ok (errorResponse 400 "Missing 'url' query parameter".toList) := by
          intro f
          show reverseProxy C f req = _
          rw [reverseProxy, hnone]
        cases hproxy : "/proxy".toList.isPrefixOf req.line.path with
        | true =>
          have hcan : ∀ f, (httpReverseProxy C f).canHandle req = true := fun _ => hproxy
          rw [dispatch_cons_pos (hcan _), dispatch_cons_pos (hcan _), hhandle, hhandle]
          have hname : (httpReverseProxy C fetch).name = (httpReverseProxy C fetch').name := rfl
          rw [hname]
        | false =>
          have hcan : ∀ f, (httpReverseProxy C f).canHandle req = false := fun _ => hproxy
          rw [dispatch_cons_neg (hcan _), dispatch_cons_neg (hcan _)]
  have hhandlers : ∀ hs, (front hs).handlers = hs := fun _ => rfl
  unfold process
  rw [plugins_front, plugins_front]
  split
  · rfl
  · rw [hhandlers, hhandlers, hdispatch]

end HomeTier.PluginChain
