import Silo.Go.Netip
import Silo.Lib.Deadlines
/-!
# One tailnet node: names, answers and addresses

The classification state of `netnode.Node`: the peer names of the last status, the
names and suffixes it has ever seen, and the addresses handed out in DNS answers.
An address sits in `provenance` while the status it was resolved under is current,
and in `quarantined` afterwards, each with its deadline.

`QueryDNS` takes the node's lock twice, with the query to the local client in
between; the two halves are `QueryDNS.start` and `QueryDNS.finish`. Times are
nanoseconds after the zero `time.Time`. The snapshot and certificate state that
`observeStatus` also refreshes does not feed back and is left out.
-/

namespace Silo.Netnode

open Go Lib

def second : Nat := 1000000000

/-! ## What the local client reports -/

/-- The parts of `ipnstate.PeerStatus` the node reads. -/
structure PeerStatus where
  (id dnsName : Str)
  tailscaleIPs : List Addr
  online : Bool
  userID : Int
  tags : Option (List Str)
  expired : Bool
  keyExpiry : Option Nat
  deriving DecidableEq

structure TailnetStatus where
  (name magicDNSSuffix : Str)
  deriving DecidableEq

/-- The parts of `ipnstate.Status` the node reads. `peer` holds the map's values in the order of one
iteration; a nil pointer is `none`. -/
structure Status where
  backendState : Str
  self : Option PeerStatus
  currentTailnet : Option TailnetStatus
  peer : List (Option PeerStatus)
  deriving DecidableEq

/-- The parts of `ExpectedIdentity` that `verify` reads. -/
structure ExpectedIdentity where
  tags : List Str
  (owner tailnet suffix : Str)
  deriving DecidableEq

def canonical (s : Str) : Str := toLower (trimSuffix s ['.'])

def formatInt (n : Int) : Str := if n < 0 then '-' :: itoa n.natAbs else itoa n.natAbs

def expired (s : Status) (now : Nat) : Bool :=
  match s.self with
  | none => false
  | some self =>
    self.expired ||
      match self.keyExpiry with
      | none => false
      | some expiry => expiry != 0 && !(now < expiry)

def ExpectedIdentity.verifyIdentity (e : ExpectedIdentity) (s : Status) (hostname : Str) : Except Str Unit :=
  match s.self, s.currentTailnet with
  | some self, some tailnet =>
    if self.id = [] then .error "node identity unavailable".toList
    else if tailnet.name ≠ e.tailnet ∨ canonical tailnet.magicDNSSuffix ≠ canonical e.suffix ∨
        canonical self.dnsName ≠ canonical (hostname ++ '.' :: e.suffix) then
      .error "node identity mismatch".toList
    else if e.tags ≠ [] then
      match self.tags with
      | none => .error "node tags missing".toList
      | some tags => if sortStrings tags = e.tags then .ok () else .error "node tags mismatch".toList
    else if hasPrefix e.owner "tag:".toList then
      if e.owner ∈ self.tags.getD [] then .ok () else .error "node owner mismatch".toList
    else if self.userID ≠ 0 ∧ self.tags.getD [] = [] ∧ "user:".toList ++ formatInt self.userID = e.owner then .ok ()
    else .error "node owner mismatch".toList
  | _, _ => .error "node identity unavailable".toList

/-- `ExpectedIdentity.verify`; a nil identity accepts every status. -/
def verify (e : Option ExpectedIdentity) (s : Status) (hostname : Str) (now : Nat) : Except Str Unit :=
  match e with
  | none => .ok ()
  | some e =>
    if s.backendState ≠ "Running".toList ∨ s.self.isNone ∨ (s.self.map (·.id)) = some [] ∨ s.currentTailnet.isNone then
      .error "node not connected".toList
    else if expired s now then .error "node key expired".toList
    else e.verifyIdentity s hostname

/-! ## The node -/

structure Options where
  identity : Option ExpectedIdentity
  hostname : Str

structure Node where
  options : Options
  (client closed running : Bool)
  (suffix fingerprint : Str)
  short : AssocMap Str Str
  (fullNames knownShort knownSuffixes : AssocMap Str Unit)
  classificationFull : Bool
  (provenance quarantined : Deadlines Addr)

def New (options : Options) : Node where
  options := options
  client := false
  closed := false
  running := false
  suffix := []
  fingerprint := []
  short := .empty
  fullNames := .empty
  knownShort := .empty
  knownSuffixes := .empty
  classificationFull := false
  provenance := .empty
  quarantined := .empty

namespace Node

/-- An empty canonical name with `true` stands for an ambiguous peer. -/
def dnsNameLocked (n : Node) (name : Str) : Str × Bool :=
  let name := toLower (trimSuffix name ['.'])
  let within (suffix : Str) : Bool := name = suffix || hasSuffix name ('.' :: suffix)
  match n.short.get? name with
  | some full => (full, true)
  | none =>
    if (n.fullNames.get? name).isSome then (name, true)
    else if n.suffix ≠ [] && within n.suffix then (name, true)
    else if (n.knownShort.get? name).isSome then ([], true)
    else if n.knownSuffixes.entries.any (fun e => within e.1) then ([], true)
    else if n.classificationFull || within "ts.net".toList then ([], true)
    else (name, false)

def pruneAddresses (n : Node) (now : Nat) : Node :=
  { n with provenance := n.provenance.prune now, quarantined := n.quarantined.prune now }

end Node

/-! ## Lookups -/

/-- `100.64.0.0/10`. -/
def cgnat : IPPrefix := ⟨.v4 0x64400000#32, 10, rfl, by decide⟩

/-- `fd7a:115c:a1e0::/48`. -/
def ula : IPPrefix := ⟨.v6 0xfd7a115ca1e000000000000000000000#128 [], 48, rfl, by decide⟩

example : parsePrefix "100.64.0.0/10".toList = some cgnat ∧ parsePrefix "fd7a:115c:a1e0::/48".toList = some ula := by
  decide

def inRange (ip : Addr) : Bool := cgnat.contains ip.unmap || ula.contains ip

def Node.isDestination (n : Node) (ip : Addr) (now : Nat) : Node × Bool :=
  if inRange ip then (n, true)
  else
    let n := n.pruneAddresses now
    (n, (n.provenance.get? ip.unmap).isSome || (n.quarantined.get? ip.unmap).isSome)

/-! ## Answers -/

/-- What the node tells apart in a `dns.RR`; addresses are the bytes of the record. -/
inductive RData where
  | a (ip : List UInt8)
  | aaaa (ip : List UInt8)
  | cname (target : Str)
  | other
  deriving DecidableEq

structure RR where
  name : Str
  ttl : Nat
  data : RData
  deriving DecidableEq

def RR.address (rr : RR) : Option Addr :=
  match rr.data with
  | .a ip => addrFromSlice ip
  | .aaaa ip => addrFromSlice ip
  | .cname _ => none
  | .other => none

structure Msg where
  (answer ns extra : List RR)
  deriving DecidableEq

def Msg.records (msg : Msg) : List RR := msg.answer ++ msg.ns ++ msg.extra

namespace Node

/-- One round of the loop of `remember`: `none` when an alias leaves the tailnet, otherwise the record as
the loop leaves it and the addresses collected so far. -/
def noteRecord (n : Node) (now : Nat) (updates : Deadlines Addr) (rr : RR) : Option (RR × Deadlines Addr) :=
  match rr.data with
  | .cname target =>
    let (target, classified) := n.dnsNameLocked target
    if !classified || target = [] then none else some (rr, updates)
  | _ =>
    match rr.address with
    | none => some (rr, updates)
    | some ip =>
      let ttl := min rr.ttl 60
      -- An answer without a lifetime still keeps its address for one second.
      let deadline := now + max ttl 1 * second
      some ({ rr with ttl := ttl }, updates.raise ip.unmap deadline)

def noteSection (n : Node) (now : Nat) (updates : Deadlines Addr) : List RR → Option (List RR × Deadlines Addr)
  | [] => some ([], updates)
  | rr :: rest => do
    let (rr, updates) ← n.noteRecord now updates rr
    let (rest, updates) ← n.noteSection now updates rest
    some (rr :: rest, updates)

def fresh (n : Node) (e : Addr × Nat) : Bool := (n.provenance.get? e.1).isNone && (n.quarantined.get? e.1).isNone

/-- The commit loop of `remember`: the latest deadline wins and the address is no longer quarantined. -/
def commit (n : Node) (updates : List (Addr × Nat)) : Node :=
  updates.foldl (fun n e =>
    let deadline := max e.2 (max (n.provenance.deadline e.1) (n.quarantined.deadline e.1))
    { n with quarantined := n.quarantined.erase e.1, provenance := n.provenance.insert e.1 deadline }) n

/-- `remember`: the message as it was rewritten, or `none` when it must not be returned. -/
def remember (n : Node) (msg : Msg) (fingerprint : Str) (now : Nat) : Node × Option Msg :=
  if fingerprint ≠ n.fingerprint ∨ n.running = false ∨ n.closed then (n, none)
  else
    let n := n.pruneAddresses now
    let noted : Option (Msg × Deadlines Addr) := do
      let (answer, updates) ← n.noteSection now .empty msg.answer
      let (ns, updates) ← n.noteSection now updates msg.ns
      let (extra, updates) ← n.noteSection now updates msg.extra
      some (⟨answer, ns, extra⟩, updates)
    match noted with
    | none => (n, none)
    | some (msg, updates) =>
      let count := n.provenance.size + n.quarantined.size + updates.entries.countP n.fresh
      if 4096 < count then (n, none) else (n.commit updates.entries, some msg)

end Node

/-- What `QueryDNS` uses of the DNS package: `dns.Fqdn` and the keys of `dns.TypeToString`. -/
structure DnsPackage where
  fqdn : Str → Str
  knownType : UInt16 → Bool

/-- A query in flight: what its first critical section read. -/
structure Query where
  (name canonical fingerprint : Str)

/-- `QueryDNS` up to the request to the local client. -/
def QueryDNS.start (dns : DnsPackage) (n : Node) (name : Str) (qtype : UInt16) : Except Str Query :=
  let (canonical, classified) := n.dnsNameLocked name
  if !classified || canonical = [] then .error "unclassified or ambiguous tailnet DNS name".toList
  else if !n.client || !(n.running && !n.closed) then .error "tailscale DNS disconnected".toList
  else if !dns.knownType qtype then .error "unsupported DNS type".toList
  else .ok ⟨name, canonical, n.fingerprint⟩

/-- The owner name of an answer to a short name is the name that was asked for. -/
def Query.rename (dns : DnsPackage) (q : Query) (rr : RR) : RR :=
  if equalFold rr.name (dns.fqdn q.canonical) then { rr with name := dns.fqdn q.name } else rr

/-- `QueryDNS` from the local client's reply on; `none` is a failed request or a message that does not unpack. -/
def QueryDNS.finish (dns : DnsPackage) (n : Node) (q : Query) (reply : Option Msg) (now : Nat) : Node × Option Msg :=
  match reply with
  | none => (n, none)
  | some msg => n.remember { msg with answer := msg.answer.map (q.rename dns) } q.fingerprint now

/-! ## Observing the status -/

/-- `fmt.Sprint` of a string next to a list of addresses: no space between them. -/
def sprintAddresses (ips : List Addr) : Str := '[' :: join (ips.map Addr.string) [' '] ++ [']']

def sprintBool (b : Bool) : Str := if b then "true".toList else "false".toList

/-- The parts of the fingerprint. They are sorted, so the order of the peers does not show. -/
def fingerprintOf (running : Bool) (suffix : Str) (s : Option Status) : Str :=
  let self (p : PeerStatus) : Str := p.id ++ sprintAddresses p.tailscaleIPs
  let peer (p : PeerStatus) : Str := canonical p.dnsName ++ sprintAddresses p.tailscaleIPs ++ ' ' :: sprintBool p.online
  let statusParts (s : Status) : List Str :=
    (s.self.map self).toList ++ ((s.peer.filterMap id).filter (fun p => p.dnsName ≠ [])).map peer
  join (sortStrings ([sprintBool running, suffix] ++ (s.map statusParts).getD [])) ['|']

/-- The name maps of a status: full names, and short labels with `[]` for an ambiguous one. -/
def nameMaps (s : Option Status) : AssocMap Str Str × AssocMap Str Unit :=
  ((s.map (·.peer)).getD []).foldl (fun maps p =>
    let (short, full) := maps
    let name := canonical ((p.map (·.dnsName)).getD [])
    if name = [] then maps
    else
      let label := (cut name '.').1
      let full := if full.size < 4096 then full.insert name () else full
      if (short.get? label).isSome then (short.insert label [], full)
      else if short.size < 4096 then (short.insert label name, full)
      else (short, full)) (.empty, .empty)

namespace Node

/-- Remember that a short name was seen, as long as there is room. -/
def learnShort (n : Node) (name : Str) : Node :=
  if (n.knownShort.get? name).isSome then n
  else if n.knownShort.size < 4096 then { n with knownShort := n.knownShort.insert name () }
  else { n with classificationFull := true }

def learnSuffix (n : Node) (suffix : Str) : Node :=
  if suffix = [] ∨ (n.knownSuffixes.get? suffix).isSome then n
  else if n.knownSuffixes.size < 32 then { n with knownSuffixes := n.knownSuffixes.insert suffix () }
  else { n with classificationFull := true }

/-- The addresses of the old status move to quarantine with their deadlines. -/
def quarantine (n : Node) (now : Nat) : Node :=
  let n := n.pruneAddresses now
  { n with quarantined := n.quarantined.raiseAll n.provenance.entries, provenance := .empty }

/-- `observeStatus` when the fingerprint has changed. -/
def replaceStatus (n : Node) (s : Option Status) (fingerprint : Str) (now : Nat) : Node :=
  let (short, full) := nameMaps s
  let n := { n.quarantine now with fingerprint := fingerprint, short := short, fullNames := full }
  let n := (short.entries.map Prod.fst).foldl learnShort n
  if short.size = 4096 ∨ full.size = 4096 then { n with classificationFull := true } else n

/-- Whether a status counts as running: connected, and the identity the node was given. -/
def accepts (n : Node) (s : Option Status) (now : Nat) : Bool :=
  match s with
  | none => false
  | some s => s.backendState = "Running".toList && (verify n.options.identity s n.options.hostname now).isOk

/-- The fingerprint is computed again only when something it is made of may have changed. -/
def nextFingerprint (n : Node) (running : Bool) (suffix : Str) (s : Option Status) (peersChanged : Bool) : Str :=
  if peersChanged || running != n.running || suffix ≠ n.suffix then fingerprintOf running suffix s else n.fingerprint

def observeStatus (n : Node) (s : Option Status) (peersChanged : Bool) (now : Nat) : Node :=
  let running := n.accepts s now
  let suffix := canonical (((s.bind (·.currentTailnet)).map (·.magicDNSSuffix)).getD [])
  let fingerprint := n.nextFingerprint running suffix s peersChanged
  let n := if fingerprint ≠ n.fingerprint then n.replaceStatus s fingerprint now else n
  let n := n.learnSuffix suffix
  { n with suffix := suffix, running := running }

end Node

/-! ## Runs -/

/-- What happens to a node. Queries overlap freely: each is started once and finished later, under its own
number. -/
inductive Event where
  | connect
  | query (id : Nat) (name : Str) (qtype : UInt16)
  | answer (id : Nat) (reply : Option Msg)
  | observe (s : Option Status) (peersChanged : Bool)
  | lookup (ip : Addr)
  | close

inductive Output where
  | none
  | started (result : Except Str Query)
  | answered (result : Option Msg)
  | destination (result : Bool)

structure System where
  node : Node
  queries : AssocMap Nat Query

def step (dns : DnsPackage) (s : System) (now : Nat) : Event → System × Output
  | .connect => ({ s with node := { s.node with client := true } }, .none)
  | .query id name qtype =>
    match QueryDNS.start dns s.node name qtype with
    | .error e => (s, .started (.error e))
    | .ok q => ({ s with queries := s.queries.insert id q }, .started (.ok q))
  | .answer id reply =>
    match s.queries.get? id with
    | none => (s, .none)
    | some q =>
      let (n, msg) := QueryDNS.finish dns s.node q reply now
      (⟨n, s.queries.erase id⟩, .answered msg)
  | .observe status peersChanged => ({ s with node := s.node.observeStatus status peersChanged now }, .none)
  | .lookup ip =>
    let (n, result) := s.node.isDestination ip now
    ({ s with node := n }, .destination result)
  | .close => ({ s with node := { s.node with closed := true } }, .none)

def run (dns : DnsPackage) (s : System) (events : List (Nat × Event)) : System :=
  events.foldl (fun s e => (step dns s e.1 e.2).1) s

def init (options : Options) : System := ⟨New options, .empty⟩

end Silo.Netnode
