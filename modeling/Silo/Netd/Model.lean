import Silo.Netd.Hostmatch
import Silo.Netd.Condition
import Silo.Netd.Forward
/-!
# The compiled policy

The compiled policy, the values it is asked about, and the matching functions of
`model.go`. A Go map is an `AssocMap`; code that ranges over one sees its values in
an order the runtime chooses anew each time, here a `RangeOrder`.
-/

namespace Silo.Netd

open Go Lib

/-! ## Compiled declarations -/

structure IPEndpoint where
  name : String
  (sourcePrefixes destinationPrefixes : List IPPrefix)
  protocol : String
  ports : List PortRange
  deriving DecidableEq

structure HTTPEndpoint where
  (kind name : String)
  family : EndpointFamily
  transport : Transport
  defaultPort : UInt16
  hosts : List Binding
  deriving DecidableEq

def HTTPEndpoint.ref (e : HTTPEndpoint) : Ref := ⟨e.kind, e.name⟩

structure RegistryEndpoint where
  endpoint : HTTPEndpoint
  registries : List String
  malwareFeed : String
  filterPackageAge : UInt32
  egress : EgressDecl
  deriving DecidableEq

structure Credential where
  (kind name : String)
  endpoint : Ref
  (username header headerPrefix : String)
  idempotencyKey : Bool
  conditionSource : String
  condition : Option HttpCondition
  deriving DecidableEq

def Credential.ref (c : Credential) : Ref := ⟨c.kind, c.name⟩

structure Rule where
  tunnel : Option Ref
  name : String
  family : EndpointFamily
  endpoints : List Ref
  credential : Option Ref
  verdict : Action
  priority : Int
  disabled : Bool
  (conditionSource reason : String)
  order : Nat
  condition : Option HttpCondition
  deriving DecidableEq

structure Diagnostic where
  (severity summary detail file : String)
  (line column : Nat)
  deriving DecidableEq

structure Policy where
  tailscale : Option TailscaleDecl := none
  forwards : List Forward := []
  diagnostics : List Diagnostic := []
  metadata : List (String × Json) := []
  defaultAction : Action := .allow
  ipEndpoints : AssocMap String IPEndpoint := .empty
  httpEndpoints : AssocMap String HTTPEndpoint := .empty
  httpsEndpoints : AssocMap String HTTPEndpoint := .empty
  packageEndpoints : AssocMap String HTTPEndpoint := .empty
  registryEndpoints : AssocMap String RegistryEndpoint := .empty
  credentials : AssocMap String Credential := .empty
  endpointRefsByName : AssocMap String Ref := .empty
  credentialRefsByName : AssocMap String Ref := .empty
  credentialsByEndpoint : AssocMap String (List Credential) := .empty
  exactHTTPBindings : AssocMap String Ref := .empty
  endpointDefinitions : AssocMap String EndpointDefinition := .empty
  rulesByFamily : EndpointFamily → List Rule := fun _ => []

def newPolicy : Policy := {}

/-! ## Flows and requests -/

/-- A flow; addresses are `net.IP` byte slices of any length. -/
structure Flow where
  tailnetDestination : Bool := false
  protocol : String := ""
  sourceIP : List UInt8 := []
  sourcePort : UInt16 := 0
  destIP : List UInt8 := []
  destPort : UInt16 := 0
  deriving DecidableEq

structure HTTPRequest where
  flow : Flow
  (endpointKind host method path query : String)
  header : List (String × List String)
  deriving DecidableEq

inductive L4MatchKind where
  | protocolOnly
  | exactPort
  | range
  deriving DecidableEq, Repr

structure L4Match where
  endpointProtocol : String
  destPort : UInt16
  portRange : PortRange
  kind : L4MatchKind
  deriving DecidableEq

inductive DecisionLayer where
  | flow
  | request
  deriving DecidableEq, Repr

inductive DecisionSource where
  | rule
  | default
  deriving DecidableEq, Repr

structure Decision where
  tunnel : Option Ref := none
  action : Action
  layer : DecisionLayer
  source : DecisionSource
  defaultAction : Action
  classificationOpportunity : Bool := false
  ruleName : String := ""
  reason : String := ""
  endpointKind : String := ""
  endpointName : String := ""
  matchedL4 : Option L4Match := none
  matchedFlow : Flow := {}
  matchedRequest : Option HTTPRequest := none
  selectedCredential : Option Credential := none
  deriving DecidableEq

/-! ## IP matching -/

def addrFromIP (ip : List UInt8) : Option Addr := (addrFromSlice ip).map Addr.unmap

def prefixesContain (prefixes : List IPPrefix) (addr : Addr) : Bool := prefixes.any (·.contains addr.unmap)

def l4MatchKind (portRange : PortRange) : L4MatchKind :=
  if portRange.start = 0 ∧ portRange.stop = 0 then .protocolOnly
  else if portRange.start = portRange.stop then .exactPort
  else .range

def PortRange.covers (r : PortRange) (port : UInt16) : Bool := r.start ≤ port && port ≤ r.stop

namespace IPEndpoint

def matchesProtocol (e : IPEndpoint) (protocol : String) : Bool :=
  e.protocol = "any" || e.protocol.toList = toLower protocol.toList

def matchPort (e : IPEndpoint) (port : UInt16) : Option PortRange :=
  if e.ports.isEmpty then some ⟨0, 0⟩ else e.ports.find? (·.covers port)

def matchesPrefixes (prefixes : List IPPrefix) (ip : List UInt8) : Bool :=
  if prefixes.isEmpty then true
  else
    match addrFromIP ip with
    | some addr => prefixesContain prefixes addr
    | none => false

/-- `IPEndpoint.match`. -/
def matchFlow (e : IPEndpoint) (flow : Flow) : Option L4Match :=
  if !e.matchesProtocol flow.protocol then none
  else
    match e.matchPort flow.destPort with
    | none => none
    | some portRange =>
      if !matchesPrefixes e.sourcePrefixes flow.sourceIP then none
      else if !matchesPrefixes e.destinationPrefixes flow.destIP then none
      else some { endpointProtocol := e.protocol, destPort := flow.destPort, portRange,
                  kind := l4MatchKind portRange }

end IPEndpoint

/-! ## Host matching -/

/-- The order in which a `range` over a map of endpoints visits its values. -/
structure RangeOrder where
  range : AssocMap String HTTPEndpoint → List HTTPEndpoint
  perm : ∀ m, (range m).Perm m.values

def RangeOrder.insertion : RangeOrder := ⟨AssocMap.values, fun _ => .refl _⟩

structure HostMatch where
  ref : Ref
  endpoint : HTTPEndpoint
  suffixLength : Nat
  deriving DecidableEq

/-- What the nested loops of `matchHTTPFamilyHost` end with. -/
inductive ScanResult where
  | exact (endpoint : HTTPEndpoint)
  | wildcard (wildcardMatch : Option HostMatch)

/-- A later wildcard match replaces an earlier one only if its suffix is longer. -/
def betterMatch (wildcardMatch : Option HostMatch) (candidate : HostMatch) : HostMatch :=
  match wildcardMatch with
  | none => candidate
  | some best => if best.suffixLength < candidate.suffixLength then candidate else best

/-- The loops of `matchHTTPFamilyHost` over the endpoints and their bindings. -/
def scanBindings (authority : Authority) : List (HTTPEndpoint × Binding) → Option HostMatch → ScanResult
  | [], wildcardMatch => .wildcard wildcardMatch
  | (endpoint, binding) :: rest, wildcardMatch =>
    if !binding.matches authority then scanBindings authority rest wildcardMatch
    else if !binding.wildcard then .exact endpoint
    else scanBindings authority rest (some (betterMatch wildcardMatch ⟨endpoint.ref, endpoint, binding.suffixLength⟩))

def bindingPairs (endpoints : List HTTPEndpoint) : List (HTTPEndpoint × Binding) :=
  endpoints.flatMap (fun endpoint => endpoint.hosts.map (fun binding => (endpoint, binding)))

namespace Policy

/-- `httpFamilyEndpoints`: by transport, and both HTTP maps together for a kind that is not registered. -/
def httpFamilyEndpoints (p : Policy) (kind : String) : AssocMap String HTTPEndpoint :=
  match Registry.endpoint kind with
  | some definition =>
    match definition.transport with
    | .httpProxy => p.httpEndpoints
    | .httpsMITM => p.httpsEndpoints
    | .tlsTerminate => p.packageEndpoints
    | .packetFilter => .empty
  | none =>
    if p.httpEndpoints.size = 0 then p.httpsEndpoints
    else if p.httpsEndpoints.size = 0 then p.httpEndpoints
    else p.httpsEndpoints.entries.foldl (fun combined e => combined.insert e.1 e.2) p.httpEndpoints

def defaultPort (kind : String) : UInt16 :=
  match Registry.endpoint kind with
  | some definition => definition.defaultPort
  | none => 0

def matchHTTPFamilyHost (order : RangeOrder) (p : Policy) (kind host : String) (defaultPort : UInt16) :
    Option (Ref × HTTPEndpoint × Authority) :=
  let endpoints := p.httpFamilyEndpoints kind
  if endpoints.size = 0 then none
  else
    match parseAuthority host defaultPort with
    | .error _ => none
    | .ok parsedAuthority =>
      if parsedAuthority.host = "" then none
      else
        match scanBindings parsedAuthority (bindingPairs (order.range endpoints)) none with
        | .exact endpoint => some (endpoint.ref, endpoint, parsedAuthority)
        | .wildcard (some m) => some (m.ref, m.endpoint, parsedAuthority)
        | .wildcard none => none

/-- `MatchHTTPFamilyHost`, with the default port of the kind. -/
def matchHTTPFamilyHostDefault (order : RangeOrder) (p : Policy) (kind host : String) : Option (Ref × HTTPEndpoint) :=
  (p.matchHTTPFamilyHost order kind host (defaultPort kind)).map (fun m => (m.1, m.2.1))

/-! ## Classification -/

/-- Some binding of the endpoints uses the port. The loops only ask whether one exists, so the order they
visit the map in does not matter. -/
def bindsPort (endpoints : AssocMap String HTTPEndpoint) (port : UInt16) : Bool :=
  endpoints.values.any (fun endpoint => endpoint.hosts.any (·.port = port))

def shouldInterceptHTTP (p : Policy) (port : UInt16) : Bool := bindsPort p.httpEndpoints port

def shouldInterceptHTTPS (p : Policy) (port : UInt16) : Bool := bindsPort p.httpsEndpoints port

def shouldInterceptEndpoint (p : Policy) (kind : String) (port : UInt16) : Bool :=
  bindsPort (p.httpFamilyEndpoints kind) port

def canClassify (p : Policy) (flow : Flow) : Bool :=
  if toLower flow.protocol.toList ≠ "tcp".toList then false
  else
    p.shouldInterceptHTTP flow.destPort || p.shouldInterceptHTTPS flow.destPort ||
      p.shouldInterceptEndpoint "registries" flow.destPort

end Policy

end Silo.Netd
