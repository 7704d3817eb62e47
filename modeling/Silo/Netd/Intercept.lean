import Silo.Netd.Eval
/-!
# Intercepted HTTPS

`HTTPSProxy`: a TLS connection of the guest is selected once, by its server name or,
when it sends none, by the address it was made to; the requests on it are then judged
and forwarded one by one.

An exchange is one turn of the loop of `proxyHTTP`: the request as `http.ReadRequest`
returns it, the orders in which the two host lookups range over the endpoints, and how
applying the credential, dialling upstream and answering the guest go. The loop ends
when there is no further request.
-/

namespace Silo.Netd

open Go Lib

/-! ## Route decisions -/

inductive RouteAction where
  | allowDirect
  | deny
  | classify
  deriving DecidableEq, Repr

def routeActionFromPolicy (decision : Decision) : RouteAction :=
  if decision.classificationOpportunity then .classify
  else if decision.action = .deny then .deny
  else .allowDirect

def flowAllowsRawFallback (decision : Decision) : Bool :=
  match routeActionFromPolicy decision with
  | .allowDirect => true
  | .classify => decision.source = .rule || decision.defaultAction = .allow
  | .deny => false

def flowAllowsExplicitRawFallback (decision : Decision) : Bool :=
  match routeActionFromPolicy decision with
  | .allowDirect => true
  | .classify => decision.source = .rule
  | .deny => false

/-! ## Lookups -/

namespace Policy

def resolveEndpointHost (order : RangeOrder) (p : Policy) (kind host : String) (port : UInt16) :
    Option (Ref × String × String) :=
  let port := if port = 0 then defaultPort kind else port
  (p.matchHTTPFamilyHost order kind host port).map fun (ref, _, authority) =>
    (ref, formatAuthority authority (defaultPort kind), authority.host)

def resolveHTTPSHost (order : RangeOrder) (p : Policy) (host : String) (port : UInt16) :
    Option (Ref × String × String) :=
  p.resolveEndpointHost order "https" host port

def bindsAddr (dest : Addr) (destPort : UInt16) (binding : Binding) : Bool :=
  !binding.wildcard && binding.port = destPort && (parseAddr binding.host.toList).map Addr.unmap = some dest

def resolveHTTPSRawIP (order : RangeOrder) (p : Policy) (destIP : List UInt8) (destPort : UInt16) :
    Option (Ref × String × String) :=
  match addrFromIP destIP with
  | none => none
  | some dest =>
    ((bindingPairs (order.range p.httpsEndpoints)).find? fun pair => bindsAddr dest destPort pair.2).map
      fun (endpoint, binding) =>
        let authority : Authority := ⟨String.ofList dest.string, binding.port⟩
        (endpoint.ref, formatAuthority authority 443, authority.host)

/-- Equal authorities; one that parses has a host. -/
def matchEndpointAuthority (kind host selected : String) : Bool :=
  match parseAuthority host (defaultPort kind), parseAuthority selected (defaultPort kind) with
  | .ok hostAuthority, .ok selectedAuthority => hostAuthority = selectedAuthority
  | _, _ => false

def matchHTTPSAuthority (host selected : String) : Bool := matchEndpointAuthority "https" host selected

end Policy

/-! ## Selection -/

structure HTTPSSelection where
  (endpointName certificateHost upstreamServerName forwardHost rawAuthority : String)
  deriving DecidableEq, Repr

/-- Why no server name was read from the client hello. -/
inductive HelloError where
  | missingSNI
  | other
  deriving DecidableEq, Repr

inductive Handling where
  | proxied (selection : HTTPSSelection)
  | direct
  | closed
  deriving DecidableEq, Repr

def handleClientHello (order : RangeOrder) (p : Policy) (sni : Except HelloError String) (flow : Flow)
    (flowDecision : Decision) : Handling :=
  match sni with
  | .error .missingSNI =>
    match p.resolveHTTPSRawIP order flow.destIP flow.destPort with
    | some (ref, authority, certHost) =>
      .proxied { endpointName := ref.name, certificateHost := certHost, upstreamServerName := certHost,
                 forwardHost := authority, rawAuthority := authority }
    | none => if flowAllowsExplicitRawFallback flowDecision then .direct else .closed
  | .error .other => if flowAllowsExplicitRawFallback flowDecision then .direct else .closed
  | .ok sni =>
    match p.resolveHTTPSHost order sni flow.destPort with
    | none => if flowAllowsRawFallback flowDecision then .direct else .closed
    | some (ref, authority, certHost) =>
      .proxied { endpointName := ref.name, certificateHost := certHost, upstreamServerName := certHost,
                 forwardHost := authority, rawAuthority := "" }

/-! ## Requests -/

structure ClientRequest where
  (host method path query : String)
  header : List (String × List String)
  close : Bool
  deriving DecidableEq

def ClientRequest.values (req : ClientRequest) (name : String) : List String :=
  ((req.header.find? fun h => h.1 = name).map Prod.snd).getD []

def headerValuesContainToken (values : List String) (want : String) : Bool :=
  values.any fun value => (split ',' value.toList).any fun token => equalFold (trimSpace token) want.toList

def isWebSocketUpgrade (req : ClientRequest) : Bool :=
  equalFold req.method.toList "GET".toList && headerValuesContainToken (req.values "Connection") "upgrade" &&
    equalFold (trimSpace ((req.values "Upgrade").headD "").toList) "websocket".toList

def httpRequest (flow : Flow) (scheme : String) (req : ClientRequest) : HTTPRequest :=
  { flow, endpointKind := scheme, host := req.host, method := req.method,
    path := if req.path = "" then "/" else req.path, query := req.query, header := req.header }

structure Exchange where
  request : ClientRequest
  (resolveOrder evaluateOrder : RangeOrder)
  /-- The credential could be applied. -/
  applied : Bool
  /-- The upstream connection was made. -/
  dialled : Bool
  /-- `forwardHTTPFamilyRequest` returned no error. -/
  answered : Bool

/-- A request written upstream: what was judged, and where it went. -/
structure Sent where
  judged : HTTPRequest
  decision : Decision
  (hostHeader serverName : String)

/-- The host check of one request, by the way the connection was selected. -/
def hostAccepted (p : Policy) (selection : HTTPSSelection) (exchange : Exchange) : Bool :=
  let host := exchange.request.host
  if host = "" then false
  else if selection.rawAuthority ≠ "" then Policy.matchHTTPSAuthority host selection.rawAuthority
  else (p.matchHTTPFamilyHostDefault exchange.resolveOrder "https" host).any fun m => m.1.name = selection.endpointName

/-- One turn of the loop: the request sent, if one was, and whether the loop goes on. -/
def serveExchange (evaluate : HTTPRequest → Evaluator) (p : Policy) (flow : Flow) (selection : HTTPSSelection)
    (exchange : Exchange) : Option Sent × Bool :=
  let request := httpRequest flow "https" exchange.request
  if !hostAccepted p selection exchange then (none, false)
  else
    let decision := Policy.evaluateHTTP exchange.evaluateOrder evaluate (some p) request
    if routeActionFromPolicy decision = .deny then (none, false)
    else
      let sent : Sent := { judged := request, decision, hostHeader := selection.forwardHost,
                           serverName := selection.upstreamServerName }
      (if exchange.applied && exchange.dialled then some sent else none,
        exchange.answered && !(isWebSocketUpgrade exchange.request || exchange.request.close))

def proxyHTTP (evaluate : HTTPRequest → Evaluator) (p : Policy) (flow : Flow) (selection : HTTPSSelection) :
    List Exchange → List Sent
  | [] => []
  | exchange :: rest =>
    let (sent, continues) := serveExchange evaluate p flow selection exchange
    sent.toList ++ if continues then proxyHTTP evaluate p flow selection rest else []

end Silo.Netd
