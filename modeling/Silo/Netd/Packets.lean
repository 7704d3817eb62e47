import Silo.Netd.Router
/-!
# The packet handlers

What becomes of a flow of the guest: `TCP` and `UDP` translate its destination through
host NAT, ask the router, and then refuse it, carry it through the tunnel, hand it to an
endpoint proxy or dial it on the host.

The answers of the network stack and of the dials are inputs. A destination is asked about
at two times, before the translation and for the decision.
-/

namespace Silo.Netd

open Go Lib

/-- `tcpip.Address`, of 4 or 16 bytes. -/
abbrev Address := List UInt8

/-- The `TransportEndpointID` of a flow: local is the side the guest wants to reach. -/
structure EndpointID where
  localAddress : Address
  localPort : UInt16
  remoteAddress : Address
  remotePort : UInt16
  deriving DecidableEq

structure TCPMetadata where
  (vmID runID networkID : String)
  deriving DecidableEq

/-- `EndpointType`; any other non-empty text can be registered. -/
inductive EndpointType where
  | http
  | https
  | registries
  | other (name : String)
  deriving DecidableEq

/-- A registered `TCPHandler` and what it answers to `ShouldHandle`. -/
structure RegisteredTCPHandler where
  endpointType : EndpointType
  shouldHandle : RouteFlow → RouteDecision → Bool

inductive Fate where
  | refused
  | tunnelled (addr : Addr) (port : UInt16)
  | proxied (endpointType : EndpointType) (address : Address) (port : UInt16)
  | dialed (address : Address) (port : UInt16)
  deriving DecidableEq

/-- The fate of a flow with what is recorded of it. `answer` is what the stack is told: for TCP whether the request
completes with a reset, for UDP what the handler returns. -/
structure Handled where
  fate : Fate
  flow : RouteFlow
  decision : RouteDecision
  reason : String
  answer : Bool
  deriving DecidableEq

/-- What the stack, the dials and the first byte of the guest turn out to be. -/
structure Surroundings where
  (draining ec2MetadataAccess endpointCreated : Bool)
  tunnelDial : Option (Addr → UInt16 → Bool)
  /-- The first byte is that of a TLS record; `none` when it cannot be read. -/
  sniffed : Option Bool
  hostDial : Bool
  (natTime decisionTime : Nat)
  /-- `Contains` of the stack's subnet `169.254.0.0/16`. -/
  linkLocalContains : Address → Bool

def deniedFlow (reason : String) : RouteDecision := { action := .deny, reason }

def ipv4Broadcast : Address := [255, 255, 255, 255]

/-! ## The dispatcher -/

/-- What `Handle` did with a connection; `closed` is the answer `"dispatcher"`, when the first byte cannot be read. -/
inductive Dispatch where
  | unhandled
  | closed
  | handled (endpointType : EndpointType)
  deriving DecidableEq

namespace TCPDispatcher

def hasEndpointType (handlers : List RegisteredTCPHandler) (endpointType : EndpointType) : Bool :=
  handlers.any (·.endpointType = endpointType)

def hasTLSEndpoint (handlers : List RegisteredTCPHandler) : Bool :=
  hasEndpointType handlers .registries || hasEndpointType handlers .https

def matchingProtocolHandlers (handlers : List RegisteredTCPHandler) (isTLS : Bool) : List RegisteredTCPHandler :=
  handlers.filter fun handler =>
    match handler.endpointType with
    | .http => !isTLS
    | .registries | .https => isTLS
    | .other _ => true

def first : List RegisteredTCPHandler → Dispatch
  | [] => .unhandled
  | registered :: _ => .handled registered.endpointType

/-- `Handle`, without the error of the handler. A nil dispatcher has no handlers. -/
def handle (handlers : List RegisteredTCPHandler) (sniffed : Option Bool) (flow : RouteFlow) (decision : RouteDecision) :
    Dispatch :=
  if decision.tunnel.isSome then .unhandled
  else
    let eligible := handlers.filter (·.shouldHandle flow decision)
    if hasEndpointType eligible .http ∧ hasTLSEndpoint eligible then
      match sniffed with
      | none => .closed
      | some isTLS => first (matchingProtocolHandlers eligible isTLS)
    else first eligible

end TCPDispatcher

/-! ## The handlers -/

/-- The translation through host NAT: a tailnet destination keeps its address. -/
def translate (route : Router) (nat : AssocMap Address Address) (localAddress : Address) (now : Nat) : Router × Address :=
  match nat.get? localAddress with
  | none => (route, localAddress)
  | some replaced =>
    let asked := route.isTailnetDestination localAddress now
    (asked.1, if asked.2 then localAddress else replaced)

def flowOf (protocol : String) (id : EndpointID) (metadata : TCPMetadata) (flowID : String) : RouteFlow where
  flowID := flowID
  protocol := protocol
  sourceIP := id.remoteAddress
  sourcePort := id.remotePort
  destIP := id.localAddress
  destPort := id.localPort
  vmID := metadata.vmID
  runID := metadata.runID
  networkID := metadata.networkID

/-- The flow after it was let through: the tunnel, an endpoint proxy or the host. -/
def carryTCP (route : Router) (handlers : List RegisteredTCPHandler) (s : Surroundings) (flow : RouteFlow)
    (decision : RouteDecision) : Handled :=
  if s.endpointCreated = false then ⟨.refused, flow, decision, "endpoint_error", false⟩
  else if decision.tunnel.isSome then
    match addrFromSlice flow.destIP with
    | none => ⟨.refused, flow, decision, "tunnel_error", false⟩
    | some ip =>
      match route.dialTunnel s.tunnelDial ip.unmap flow.destPort with
      | .error reason => ⟨.refused, flow, decision, reason, false⟩
      | .ok () => ⟨.tunnelled ip.unmap flow.destPort, flow, decision, "", false⟩
  else
    match TCPDispatcher.handle handlers s.sniffed flow decision with
    | .closed => ⟨.refused, flow, decision, "classify", false⟩
    | .handled endpointType => ⟨.proxied endpointType flow.destIP flow.destPort, flow, decision, "classify", false⟩
    | .unhandled =>
      if s.hostDial then ⟨.dialed flow.destIP flow.destPort, flow, decision, "", false⟩
      else ⟨.refused, flow, decision, "upstream_error", false⟩

/-- `TCP`. -/
def handleTCP (route : Router) (nat : AssocMap Address Address) (handlers : List RegisteredTCPHandler)
    (metadata : TCPMetadata) (flowID : String) (s : Surroundings) (id : EndpointID) : Handled :=
  let flow := flowOf "tcp" id metadata flowID
  if s.draining then ⟨.refused, flow, deniedFlow "session_draining", "session_draining", true⟩
  else if s.ec2MetadataAccess = false ∧ s.linkLocalContains id.localAddress then
    ⟨.refused, flow, deniedFlow "metadata_disabled", "metadata_disabled", true⟩
  else
    let translated := translate route nat id.localAddress s.natTime
    let flow := { flow with destIP := translated.2 }
    let decided := translated.1.decideFlow flow s.decisionTime
    if decided.2.action = .deny then ⟨.refused, flow, decided.2, "", true⟩
    else carryTCP decided.1 handlers s flow decided.2

/-- `UDP`. -/
def handleUDP (route : Router) (nat : AssocMap Address Address) (metadata : TCPMetadata) (flowID : String)
    (s : Surroundings) (id : EndpointID) : Handled :=
  let flow := flowOf "udp" id metadata flowID
  if s.draining then ⟨.refused, flow, deniedFlow "session_draining", "session_draining", false⟩
  else if s.ec2MetadataAccess = false ∧ s.linkLocalContains id.localAddress then
    ⟨.refused, flow, deniedFlow "metadata_disabled", "metadata_disabled", true⟩
  else if id.localAddress = ipv4Broadcast then
    ⟨.refused, flow, deniedFlow "broadcast_unsupported", "broadcast_unsupported", true⟩
  else
    let translated := translate route nat id.localAddress s.natTime
    let flow := { flow with destIP := translated.2 }
    let decided := translated.1.decideFlow flow s.decisionTime
    if decided.2.action = .deny then ⟨.refused, flow, decided.2, "", false⟩
    else if decided.2.tunnel.isSome then ⟨.refused, flow, decided.2, "tunnel_error", false⟩
    else if s.endpointCreated = false then ⟨.refused, flow, decided.2, "endpoint_error", false⟩
    else if s.hostDial then ⟨.dialed flow.destIP flow.destPort, flow, decided.2, "", true⟩
    else ⟨.refused, flow, decided.2, "upstream_error", false⟩

/-! ## Tailnet destinations -/

variable {route : Router} {nat : AssocMap Address Address} {handlers : List RegisteredTCPHandler}

theorem translate_tailnet {address : Address} {now later : Nat} (h : now ≤ later)
    (htailnet : (route.isTailnetDestination address later).2) :
    (translate route nat address now).2 = address ∧
      ((translate route nat address now).1.isTailnetDestination address later).2 := by
  unfold translate
  split
  · exact ⟨rfl, htailnet⟩
  · refine ⟨if_pos (route.isTailnetDestination_before address h htailnet), ?_⟩
    exact (route.isTailnetDestination_again address h).trans htailnet

/-- A flow to a tailnet destination is decided as one at both questions. -/
theorem decided_tailnet {flow : RouteFlow} {address : Address} {now later : Nat} (h : now ≤ later)
    (htailnet : (route.isTailnetDestination address later).2) (hflow : flow.destIP = address) :
    ((translate route nat address now).1.decideFlow flow later).2.action = .deny ∨
      ((translate route nat address now).1.decideFlow flow later).2.tunnel ≠ none := by
  apply Router.decideFlow_tailnet
  rw [hflow]
  exact (translate_tailnet h htailnet).2

theorem carryTCP_flow (s : Surroundings) (flow : RouteFlow) (decision : RouteDecision) :
    (carryTCP route handlers s flow decision).flow = flow := by
  unfold carryTCP
  repeat' split
  all_goals rfl

/-- A flow with a tunnel is carried through it to its own destination, or not at all. -/
theorem carryTCP_tunnel (s : Surroundings) (flow : RouteFlow) {decision : RouteDecision} (h : decision.tunnel ≠ none) :
    (carryTCP route handlers s flow decision).fate = .refused ∨
      ∃ addr, addrFromIP flow.destIP = some addr ∧
        (carryTCP route handlers s flow decision).fate = .tunnelled addr flow.destPort := by
  unfold carryTCP
  rw [if_pos (Option.isSome_iff_ne_none.2 h)]
  split
  · exact .inl rfl
  · cases haddr : addrFromSlice flow.destIP with
    | none => exact .inl rfl
    | some ip =>
      have hip : addrFromIP flow.destIP = some ip.unmap := by simp [addrFromIP, haddr]
      cases hdial : route.dialTunnel s.tunnelDial ip.unmap flow.destPort with
      | error reason => left; simp only [hdial]
      | ok u => right; exact ⟨ip.unmap, hip, by simp only [hdial]⟩

/-- TCP carries a flow to a tailnet destination through the tunnel to that address, or not at all. -/
theorem handleTCP_tailnet (metadata : TCPMetadata) (flowID : String) (s : Surroundings) (id : EndpointID)
    (htimes : s.natTime ≤ s.decisionTime)
    (htailnet : (route.isTailnetDestination id.localAddress s.decisionTime).2) :
    ((handleTCP route nat handlers metadata flowID s id).fate = .refused ∨
        ∃ addr, addrFromIP id.localAddress = some addr ∧
          (handleTCP route nat handlers metadata flowID s id).fate = .tunnelled addr id.localPort) ∧
      (handleTCP route nat handlers metadata flowID s id).flow.destIP = id.localAddress := by
  have haddress : (translate route nat id.localAddress s.natTime).2 = id.localAddress :=
    (translate_tailnet htimes htailnet).1
  unfold handleTCP
  dsimp only
  -- the refusals before the translation, then the decision
  split
  · exact ⟨.inl rfl, rfl⟩
  split
  · exact ⟨.inl rfl, rfl⟩
  split
  · exact ⟨.inl rfl, haddress⟩
  · rename_i hallowed
    have htunnel := (decided_tailnet htimes htailnet haddress).resolve_left hallowed
    rw [carryTCP_flow]
    refine ⟨?_, haddress⟩
    refine (carryTCP_tunnel s _ htunnel).imp_right ?_
    rintro ⟨addr, haddr, hfate⟩
    exact ⟨addr, by rw [← haddress]; exact haddr, hfate⟩

theorem handleUDP_tailnet (metadata : TCPMetadata) (flowID : String) (s : Surroundings) (id : EndpointID)
    (htimes : s.natTime ≤ s.decisionTime)
    (htailnet : (route.isTailnetDestination id.localAddress s.decisionTime).2) :
    (handleUDP route nat metadata flowID s id).fate = .refused ∧
      (handleUDP route nat metadata flowID s id).flow.destIP = id.localAddress := by
  have haddress : (translate route nat id.localAddress s.natTime).2 = id.localAddress :=
    (translate_tailnet htimes htailnet).1
  unfold handleUDP
  dsimp only
  split
  · exact ⟨rfl, rfl⟩
  split
  · exact ⟨rfl, rfl⟩
  split
  · exact ⟨rfl, rfl⟩
  split
  · exact ⟨rfl, haddress⟩
  · rename_i hallowed
    have htunnel := (decided_tailnet htimes htailnet haddress).resolve_left hallowed
    rw [if_pos (Option.isSome_iff_ne_none.2 htunnel)]
    exact ⟨rfl, haddress⟩

/-- Tailnet traffic is tunnelled or refused: a flow to a destination that is the tailnet's until the decision is made is
refused or, over TCP, carried through the tunnel to that address and port, and its destination is not rewritten. -/
theorem tailnet_tunnelled_or_refused (route : Router) (nat : AssocMap Address Address)
    (handlers : List RegisteredTCPHandler) (metadata : TCPMetadata) (flowID : String) (s : Surroundings) (id : EndpointID)
    (htimes : s.natTime ≤ s.decisionTime)
    (htailnet : (route.isTailnetDestination id.localAddress s.decisionTime).2 = true) :
    (((handleTCP route nat handlers metadata flowID s id).fate = .refused ∨
        ∃ addr, addrFromIP id.localAddress = some addr ∧
          (handleTCP route nat handlers metadata flowID s id).fate = .tunnelled addr id.localPort) ∧
      (handleTCP route nat handlers metadata flowID s id).flow.destIP = id.localAddress) ∧
    ((handleUDP route nat metadata flowID s id).fate = .refused ∧
      (handleUDP route nat metadata flowID s id).flow.destIP = id.localAddress) :=
  ⟨handleTCP_tailnet metadata flowID s id htimes htailnet, handleUDP_tailnet metadata flowID s id htimes htailnet⟩

/-- A connected node and one rule that tunnels TCP. -/
def tunnelRouter : Router where
  tunnel := some { Netnode.New ⟨none, []⟩ with running := true }
  policy :=
    { defaultAction := .deny
      ipEndpoints := AssocMap.empty.insert "ip.peers" ⟨"peers", [], [], "tcp", []⟩
      rulesByFamily := fun _ => [⟨some ⟨"tailscale", "silo"⟩, "peers", .ip, [⟨"ip", "peers"⟩], none, .allow, 0, false, "",
        "", 0, none⟩] }

/-- A destination that host NAT would send to the loopback address. -/
def loopbackNat : AssocMap Address Address := AssocMap.empty.insert [100, 64, 0, 1] [127, 0, 0, 1]

def peerFlow : EndpointID := ⟨[100, 64, 0, 1], 22, [192, 168, 127, 2], 40000⟩

def quietSurroundings : Surroundings := ⟨false, false, true, some fun _ _ => true, some true, true, 0, 1, fun address => address.take 2 = [169, 254]⟩

theorem tailnet_tunnelled_peer :
    (handleTCP tunnelRouter loopbackNat [⟨.https, fun _ _ => true⟩] ⟨"vm", "run", "net"⟩ "flow" quietSurroundings
        peerFlow).fate = .tunnelled (.v4 0x64400001#32) 22 ∧
      (handleTCP tunnelRouter loopbackNat [⟨.https, fun _ _ => true⟩] ⟨"vm", "run", "net"⟩ "flow" quietSurroundings
        peerFlow).flow.destIP = [100, 64, 0, 1] ∧
      (handleUDP tunnelRouter loopbackNat ⟨"vm", "run", "net"⟩ "flow" quietSurroundings peerFlow).fate = .refused := by
  obtain ⟨⟨-, hkept⟩, hudp, -⟩ := tailnet_tunnelled_or_refused tunnelRouter loopbackNat [⟨.https, fun _ _ => true⟩]
    ⟨"vm", "run", "net"⟩ "flow" quietSurroundings peerFlow (by decide) (by decide)
  exact ⟨by decide, hkept, hudp⟩

end Silo.Netd
