import Silo.Netd.Model
import Mathlib.Data.Rat.Floor
/-!
# Compiling a document

`compileNetworkPolicy` and the functions under it: endpoints, credentials and rules
are added one declaration at a time, and the first refusal ends the compilation.
-/

namespace Silo.Netd

open Go Lib

/-! ## Errors -/

inductive EndpointError where
  | nameRequired
  | duplicateName (name : String)
  | unsupportedKind (kind : String)
  | requiresFamily (name kind : String) (family : EndpointFamily)
  | requiresTransport (name kind : String) (transport : Transport)
  | requiresTLSMode (name kind : String) (mode : TLSMode)
  | unexpectedCapabilities (name kind : String)
  | alreadyDefined (key : String)
  | noSourceOrDestination
  | anyWithPorts
  | unsupportedProtocol (protocol : String)
  | invalidSource (cidr : String)
  | invalidDestination (cidr : String)
  | missingHosts
  | host (e : HostError)
  | duplicateExactBinding (host : String) (port : UInt16) (existing : Ref)
  | configKeys
  | registriesNotArray
  | registryName
  | registryTwice (name : String)
  | registryHosts
  | malwareFeedNotURL
  | malwareFeedOrigin
  | registryEgress
  | filterPackageAge
  deriving DecidableEq

inductive CredentialError where
  | unsupportedKind (kind : String)
  | nameRequired
  | duplicateName (name : String)
  | unknownEndpoint (kind name endpoint : String)
  | notHTTPS (kind name : String)
  | duplicate (key : String)
  | condition (kind name : String) (e : ConditionError)
  deriving DecidableEq

inductive RuleError where
  | unknownEndpoint (rule endpoint : String)
  | noEndpoints (rule : String)
  | mixedFamilies (rule : String)
  | unknownCredential (rule credential : String)
  | tunnel (rule : String)
  | unsupportedVerdict (rule verdict : String)
  | condition (rule : String) (e : ConditionError)
  | credentialOnIP (rule : String)
  | credentialNotHTTPS (rule : String)
  | credentialNotReferenced (rule credential : String)
  | conditionOnIP (rule : String)
  deriving DecidableEq

/-- `LoadError`, with the summaries of `compileNetworkPolicy` as constructors. -/
inductive LoadError where
  | unsupportedVersion (version : Int)
  | invalidSettings (defaultAction : String)
  | tooManyTailscale
  | invalidTunnelName
  | invalidForward (e : ForwardError)
  | invalidEndpoint (e : EndpointError)
  | invalidCredential (e : CredentialError)
  | invalidRule (e : RuleError)
  deriving DecidableEq

/-! ## Endpoints -/

/-- One comparison of the sort in `normalizePortRanges`. -/
def PortRange.before (a b : PortRange) : Prop := a.start < b.start ∨ (a.start = b.start ∧ a.stop ≤ b.stop)

instance (a b : PortRange) : Decidable (a.before b) := by unfold PortRange.before; infer_instance

/-- The merging loop: `last` is the open range, joined by a range that overlaps or touches it. -/
def mergePortRanges (last : PortRange) : List PortRange → List PortRange
  | [] => [last]
  | current :: rest =>
    if current.start.toNat ≤ last.stop.toNat + 1 then
      mergePortRanges (if last.stop < current.stop then { last with stop := current.stop } else last) rest
    else last :: mergePortRanges current rest

def normalizePortRanges (ranges : List PortRange) : List PortRange :=
  match ranges.insertionSort PortRange.before with
  | [] => []
  | first :: rest => mergePortRanges first rest

/-- The prefixes of a CIDR list, or the first entry that does not parse. -/
def parsePrefixes (refuse : String → EndpointError) : List String → Except EndpointError (List IPPrefix)
  | [] => .ok []
  | cidr :: rest =>
    match parsePrefix cidr.toList with
    | none => .error (refuse cidr)
    | some p =>
      match parsePrefixes refuse rest with
      | .error e => .error e
      | .ok ps => .ok (p :: ps)

/-- The protocol of an IP endpoint after trimming and lower-casing. -/
def normalizeProtocol (protocol : String) : String :=
  let protocol := String.ofList (toLower (trimSpace protocol.toList))
  if protocol = "" then "any" else protocol

def compileIPEndpoint (decl : EndpointDecl) : Except EndpointError IPEndpoint :=
  if decl.destinationCIDRs.isEmpty ∧ decl.sourceCIDRs.isEmpty then .error .noSourceOrDestination
  else
    let protocol := normalizeProtocol decl.protocol
    if protocol = "any" ∧ !decl.ports.isEmpty then .error .anyWithPorts
    else if protocol ≠ "any" ∧ protocol ≠ "tcp" ∧ protocol ≠ "udp" then .error (.unsupportedProtocol protocol)
    else
      match parsePrefixes .invalidSource decl.sourceCIDRs with
      | .error e => .error e
      | .ok sources =>
        match parsePrefixes .invalidDestination decl.destinationCIDRs with
        | .error e => .error e
        | .ok destinations =>
          .ok { name := decl.name, sourcePrefixes := sources, destinationPrefixes := destinations, protocol,
                ports := normalizePortRanges decl.ports }

def hostBindingKey (transport : Transport) (host : String) (port : UInt16) (wildcard : Bool) : String :=
  transport.string ++ "|" ++ (if wildcard then "wildcard" else "exact") ++ "|" ++ host ++ "|" ++
    String.ofList (itoa port.toNat)

def Binding.key (transport : Transport) (b : Binding) : String :=
  hostBindingKey transport b.host b.port b.wildcard

/-- The loop of `compileHTTPEndpointDecl`: a binding whose key was seen before is dropped. -/
def compileHosts (definition : EndpointDefinition) : List String → List Binding → Except EndpointError (List Binding)
  | [], hosts => .ok hosts
  | host :: rest, hosts =>
    match parseBinding host definition.defaultPort with
    | .error e => .error (.host e)
    | .ok binding =>
      if hosts.any (fun b => b.key definition.transport = binding.key definition.transport) then
        compileHosts definition rest hosts
      else compileHosts definition rest (hosts ++ [binding])

def compileHTTPEndpointDecl (definition : EndpointDefinition) (name : String) (hosts : List String) :
    Except EndpointError HTTPEndpoint :=
  if hosts.isEmpty then .error .missingHosts
  else
    match compileHosts definition hosts [] with
    | .error e => .error e
    | .ok bindings =>
      .ok { kind := definition.kind, name, family := definition.family, transport := definition.transport,
            defaultPort := definition.defaultPort, hosts := bindings }

/-- The loop of `addHTTPEndpoint`: every exact binding must be new to its transport. -/
def addExactBindings (endpoint : HTTPEndpoint) :
    List Binding → AssocMap String Ref → Except EndpointError (AssocMap String Ref)
  | [], exact => .ok exact
  | binding :: rest, exact =>
    if binding.wildcard then addExactBindings endpoint rest exact
    else
      let key := hostBindingKey endpoint.transport binding.host binding.port false
      match exact.get? key with
      | some existing => .error (.duplicateExactBinding binding.host binding.port existing)
      | none => addExactBindings endpoint rest (exact.insert key endpoint.ref)

def addHTTPEndpoint (p : Policy) (endpoint : HTTPEndpoint) : Except EndpointError Policy :=
  match addExactBindings endpoint endpoint.hosts p.exactHTTPBindings with
  | .error e => .error e
  | .ok exact => .ok { p with exactHTTPBindings := exact }

/-! ## Registry endpoints -/

def repositoryHosts : String → Option (List String)
  | "npm" => some ["registry.npmjs.org", "registry.yarnpkg.com", "registry.npmjs.com"]
  | "pypi" => some ["pypi.org", "files.pythonhosted.org", "pypi.python.org", "pythonhosted.org"]
  | _ => none

/-- The loop over the declared registries: known names, each at most once. -/
def compileRegistries : List Json → List String → Except EndpointError (List String)
  | [], registries => .ok registries
  | .string registry :: rest, registries =>
    if (repositoryHosts registry).isNone then .error .registryName
    else if registry ∈ registries then .error (.registryTwice registry)
    else compileRegistries rest (registries ++ [registry])
  | _ :: _, _ => .error .registryName

/-- `registryHosts`: the hosts of the repositories in order, each once. -/
def registryHosts (registries : List String) : List String :=
  registries.foldl (fun hosts name =>
    ((repositoryHosts name).getD []).foldl (fun hosts host =>
      if host ∈ hosts then hosts else hosts ++ [host]) hosts) []

def parseHTTPSOrigin (value : String) : Option (String × UInt16) :=
  match urlParse (utf8Bytes value.toList) with
  | none => none
  | some parsed =>
    if parsed.scheme ≠ "https".toList ∨ parsed.host = [] ∨ parsed.user ∨ parsed.rawQuery ≠ [] ∨
        parsed.fragment ≠ [] then none
    else
      let host := toLower (runes parsed.hostname)
      if host = [] ∨ host.any (fun c => c == ' ' || c == '\t' || c == '\n' || c == '\r') then none
      else if parsed.port = [] then some (String.ofList host, 443)
      else
        match parseUint16 parsed.port with
        | some port => if port = 0 then none else some (String.ofList host, port)
        | none => none

def compileFilterPackageAge (config : AssocMap String Json) : Except EndpointError UInt32 :=
  match config.get? "filter_package_age" with
  | none => .ok 0
  | some (.number age) =>
    if age < 1 ∨ 4294967295 < age ∨ age ≠ (⌊age⌋ : ℚ) then .error .filterPackageAge
    else .ok (UInt32.ofNat ⌊age⌋.toNat)
  | some _ => .error .filterPackageAge

def nonEmptyArray : Option Json → Option (List Json)
  | some (.array (item :: rest)) => some (item :: rest)
  | _ => none

def stringValue : Option Json → Option String
  | some (.string s) => some s
  | _ => none

def compileRegistryEndpointDecl (definition : EndpointDefinition) (decl : EndpointDecl) :
    Except EndpointError RegistryEndpoint := do
  require (2 ≤ decl.config.size ∧ decl.config.size ≤ 3) .configKeys
  let rawRegistries ← orFail (nonEmptyArray (decl.config.get? "registries")) .registriesNotArray
  let registries ← compileRegistries rawRegistries []
  require (decl.hosts = registryHosts registries) .registryHosts
  let baseURL ← orFail (stringValue (decl.config.get? "malware_feed")) .malwareFeedNotURL
  let origin ← orFail (parseHTTPSOrigin baseURL) .malwareFeedOrigin
  let expectedEgress : EgressDecl := { host := origin.1, port := origin.2, tls := true }
  require (decl.egress = [expectedEgress]) .registryEgress
  let filterPackageAge ← compileFilterPackageAge decl.config
  require (decl.config.size = if filterPackageAge > 0 then 3 else 2) .configKeys
  let endpoint ← compileHTTPEndpointDecl definition decl.name decl.hosts
  return { endpoint, registries, malwareFeed := baseURL, filterPackageAge, egress := expectedEgress }

def validateEndpointDescriptor (decl : EndpointDecl) (definition : EndpointDefinition) : Except EndpointError Unit :=
  if decl.family ≠ definition.family.string then .error (.requiresFamily decl.name decl.kind definition.family)
  else if decl.transport ≠ definition.transport.string then
    .error (.requiresTransport decl.name decl.kind definition.transport)
  else if decl.tls ≠ definition.tlsMode.string then .error (.requiresTLSMode decl.name decl.kind definition.tlsMode)
  else if decl.capabilities ≠ (if definition.supportsCredentials then ["credential-injection"] else []) then
    .error (.unexpectedCapabilities decl.name decl.kind)
  else .ok ()

def EndpointDecl.ref (decl : EndpointDecl) : Ref := ⟨decl.kind, decl.name⟩

/-- The `EndpointSchemaIP` case of `addEndpointDecl`. -/
def addIPSchema (p : Policy) (decl : EndpointDecl) : Except EndpointError Policy :=
  let key := decl.ref.string
  if (p.ipEndpoints.get? key).isSome then .error (.alreadyDefined key)
  else
    match compileIPEndpoint decl with
    | .error e => .error e
    | .ok endpoint => .ok { p with ipEndpoints := p.ipEndpoints.insert key endpoint }

/-- The map `httpEndpointsForTransport` selects, and the policy with an endpoint put into it. -/
def putHTTPEndpoint (p : Policy) (transport : Transport) (key : String) (endpoint : HTTPEndpoint) : Policy :=
  match transport with
  | .httpProxy => { p with httpEndpoints := p.httpEndpoints.insert key endpoint }
  | .httpsMITM => { p with httpsEndpoints := p.httpsEndpoints.insert key endpoint }
  | .tlsTerminate => { p with packageEndpoints := p.packageEndpoints.insert key endpoint }
  | .packetFilter => p

def httpEndpointsForTransport (p : Policy) : Transport → AssocMap String HTTPEndpoint
  | .httpProxy => p.httpEndpoints
  | .httpsMITM => p.httpsEndpoints
  | .tlsTerminate => p.packageEndpoints
  | .packetFilter => .empty

/-- The `EndpointSchemaHosts` case of `addEndpointDecl`; the registry gives it an HTTP transport. -/
def addHostsSchema (p : Policy) (decl : EndpointDecl) (definition : EndpointDefinition) :
    Except EndpointError Policy :=
  let key := decl.ref.string
  if ((httpEndpointsForTransport p definition.transport).get? key).isSome then .error (.alreadyDefined key)
  else
    match compileHTTPEndpointDecl definition decl.name decl.hosts with
    | .error e => .error e
    | .ok endpoint =>
      match addHTTPEndpoint p endpoint with
      | .error e => .error e
      | .ok p => .ok (putHTTPEndpoint p definition.transport key endpoint)

/-- The `EndpointSchemaRegistries` case of `addEndpointDecl`. -/
def addRegistriesSchema (p : Policy) (decl : EndpointDecl) (definition : EndpointDefinition) :
    Except EndpointError Policy :=
  let key := decl.ref.string
  if (p.registryEndpoints.get? key).isSome then .error (.alreadyDefined key)
  else
    match compileRegistryEndpointDecl definition decl with
    | .error e => .error e
    | .ok endpoint =>
      match addHTTPEndpoint p endpoint.endpoint with
      | .error e => .error e
      | .ok p => .ok { p with packageEndpoints := p.packageEndpoints.insert key endpoint.endpoint,
                              registryEndpoints := p.registryEndpoints.insert key endpoint }

def addSchema (p : Policy) (decl : EndpointDecl) (definition : EndpointDefinition) : Except EndpointError Policy :=
  match definition.schema with
  | .ip => addIPSchema p decl
  | .hosts => addHostsSchema p decl definition
  | .registries => addRegistriesSchema p decl definition

def addEndpointDecl (p : Policy) (decl : EndpointDecl) : Except EndpointError Policy :=
  if decl.name = "" then .error .nameRequired
  else if (p.endpointRefsByName.get? decl.name).isSome then .error (.duplicateName decl.name)
  else
    match Registry.endpoint decl.kind with
    | none => .error (.unsupportedKind decl.kind)
    | some definition =>
      match validateEndpointDescriptor decl definition with
      | .error e => .error e
      | .ok () =>
        match addSchema p decl definition with
        | .error e => .error e
        | .ok p =>
          .ok { p with endpointRefsByName := p.endpointRefsByName.insert decl.name decl.ref,
                       endpointDefinitions := p.endpointDefinitions.insert decl.ref.string definition }

/-! ## Credentials -/

def knownCredentialKind (kind : String) : Bool :=
  kind ∈ ["basic_auth", "bearer_token", "header_token", "github_oauth", "openai_codex_oauth", "aws_credential"]

def compileOptionalCondition (cel : Cel) (family : EndpointFamily) (source : String) :
    Except ConditionError (Option HttpCondition) :=
  if source = "" then .ok none else (compileCondition cel family source).map some

def CredentialDecl.ref (decl : CredentialDecl) : Ref := ⟨decl.kind, decl.name⟩

def addCredentialDecl (cel : Cel) (p : Policy) (decl : CredentialDecl) : Except CredentialError Policy := do
  require (knownCredentialKind decl.kind) (.unsupportedKind decl.kind)
  require (decl.name ≠ "") .nameRequired
  require (p.credentialRefsByName.get? decl.name = none) (.duplicateName decl.name)
  let endpoint ← orFail (p.endpointRefsByName.get? decl.endpoint)
    (.unknownEndpoint decl.kind decl.name decl.endpoint)
  let definition ← orFail (p.endpointDefinitions.get? endpoint.string) (.notHTTPS decl.kind decl.name)
  require (definition.supportsCredentials) (.notHTTPS decl.kind decl.name)
  let key := decl.ref.string
  require ((p.credentials.get? key).isNone) (.duplicate key)
  let condition ← (compileOptionalCondition cel .http decl.condition).mapError (.condition decl.kind decl.name)
  let credential : Credential :=
    { kind := decl.kind, name := decl.name, endpoint, username := decl.username, header := decl.header,
      headerPrefix := decl.headerPrefix, idempotencyKey := decl.idempotencyKey,
      conditionSource := decl.condition, condition }
  return { p with
    credentials := p.credentials.insert key credential
    credentialRefsByName := p.credentialRefsByName.insert decl.name decl.ref
    credentialsByEndpoint := p.credentialsByEndpoint.insert endpoint.string
      ((p.credentialsByEndpoint.get? endpoint.string).getD [] ++ [credential]) }

/-! ## Rules -/

def resolveEndpoints (p : Policy) (rule : String) : List String → Except RuleError (List Ref)
  | [] => .ok []
  | name :: rest => do
    let endpoint ← orFail (p.endpointRefsByName.get? name) (.unknownEndpoint rule name)
    return endpoint :: (← resolveEndpoints p rule rest)

/-- The loop of `validateEndpointFamily` over the remaining endpoints. -/
def requireFamily (p : Policy) (rule : String) (family : EndpointFamily) : List Ref → Except RuleError Unit
  | [] => .ok ()
  | other :: rest => do
    let definition ← orFail (p.endpointDefinitions.get? other.string) (.unknownEndpoint rule other.string)
    require (definition.family = family) (.mixedFamilies rule)
    requireFamily p rule family rest

def validateEndpointFamily (p : Policy) (rule : String) (refs : List Ref) : Except RuleError EndpointFamily :=
  match refs with
  | [] => .error (.noEndpoints rule)
  | ref :: rest => do
    let definition ← orFail (p.endpointDefinitions.get? ref.string) (.unknownEndpoint rule ref.string)
    requireFamily p rule definition.family rest
    return definition.family

def resolveCredential (p : Policy) (rule credential : String) : Except RuleError (Option Ref) :=
  if credential = "" then .ok none
  else (orFail (p.credentialRefsByName.get? credential) (.unknownCredential rule credential)).map some

/-- The tunnel a rule carries: the declared tailscale node, on an IP allow rule. -/
def resolveTunnel (p : Policy) (decl : RuleDecl) (family : EndpointFamily) : Except RuleError (Option Ref) :=
  if decl.tunnel = "" then .ok none
  else
    match p.tailscale with
    | none => .error (.tunnel decl.name)
    | some node =>
      if decl.tunnel ≠ node.name ∨ family ≠ .ip ∨ decl.verdict ≠ "allow" then .error (.tunnel decl.name)
      else .ok (some ⟨"tailscale", node.name⟩)

def validateRuleCredential (p : Policy) (rule : Rule) : Except RuleError Unit :=
  match rule.credential with
  | none => .ok ()
  | some ref => do
    let credential ← orFail (p.credentials.get? ref.string) (.unknownCredential rule.name ref.string)
    require (rule.family = .http) (.credentialOnIP rule.name)
    let definition ← orFail (p.endpointDefinitions.get? credential.endpoint.string) (.credentialNotHTTPS rule.name)
    require (definition.supportsCredentials) (.credentialNotHTTPS rule.name)
    require (credential.endpoint ∈ rule.endpoints) (.credentialNotReferenced rule.name ref.string)

/-- The rule a declaration compiles to, before it is filed. -/
def compileRule (cel : Cel) (p : Policy) (decl : RuleDecl) (order : Nat) : Except RuleError Rule := do
  let endpoints ← resolveEndpoints p decl.name decl.endpoints
  let family ← validateEndpointFamily p decl.name endpoints
  let credential ← resolveCredential p decl.name decl.credential
  let tunnel ← resolveTunnel p decl family
  let verdict ← orFail (Action.ofString decl.verdict) (.unsupportedVerdict decl.name decl.verdict)
  let condition ← (compileOptionalCondition cel family decl.condition).mapError (.condition decl.name)
  let rule : Rule :=
    { tunnel, name := decl.name, family, endpoints, credential, verdict, priority := decl.priority,
      disabled := decl.disabled, conditionSource := decl.condition, reason := decl.reason, order, condition }
  validateRuleCredential p rule
  require ((Registry.family family).condition ≠ .none ∨ condition = none) (.conditionOnIP decl.name)
  return rule

def fileRule (p : Policy) (rule : Rule) : Policy :=
  if rule.disabled then p
  else { p with rulesByFamily := fun family =>
    if family = rule.family then p.rulesByFamily family ++ [rule] else p.rulesByFamily family }

def addRuleDecl (cel : Cel) (p : Policy) (decl : RuleDecl) (order : Nat) : Except RuleError Policy := do
  let rule ← compileRule cel p decl order
  return fileRule p rule

/-- `sortRules`: stable, higher priority first. -/
def sortRules (p : Policy) : Policy :=
  { p with rulesByFamily := fun family =>
      (p.rulesByFamily family).insertionSort (fun a b => b.priority ≤ a.priority) }

/-! ## Documents -/

def compileDefaultAction (settings : SettingsDecl) : Except LoadError Action :=
  if settings.defaultAction = "" then .ok .allow
  else orFail (Action.ofString settings.defaultAction) (.invalidSettings settings.defaultAction)

/-- The warning about an audit buffer smaller than the stored sample. -/
def auditDiagnostics (filename : String) (audit : AuditSettingsDecl) : List Diagnostic :=
  if 0 < audit.bodyBufferBytes ∧ 0 < audit.bodyStorageBytes ∧ audit.bodyBufferBytes < audit.bodyStorageBytes then
    [{ severity := "warning", summary := "Audit body buffer is smaller than storage sample",
       detail := "body_buffer_bytes is smaller than body_storage_bytes; response/request bodies may truncate before the configured stored sample size",
       file := filename, line := 1, column := 1 }]
  else []

/-- At most one tailscale node, with a usable tunnel name. -/
def compileTailscale : List TailscaleDecl → Except LoadError (Option TailscaleDecl)
  | [] => .ok none
  | [decl] =>
    if decl.name = "" ∨ decl.name = "silo" ∨ decl.name.toList.any (fun c => c == '/' || c == ' ') then
      .error .invalidTunnelName
    else .ok (some decl)
  | _ => .error .tooManyTailscale

def compileNetworkPolicy (cel : Cel) (filename : String) (document : NetworkPolicyFile) :
    Except LoadError Policy := do
  require (document.version = 1) (.unsupportedVersion document.version)
  let defaultAction ← compileDefaultAction document.settings
  let tailscale ← compileTailscale document.tailscale
  let forwards ← (compileForwards tailscale document.forwards).mapError .invalidForward
  let compiled : Policy := { newPolicy with
    metadata := document.metadata, defaultAction, tailscale, forwards
    diagnostics := auditDiagnostics filename document.settings.audit }
  let compiled ← (document.endpoints.foldlM addEndpointDecl compiled).mapError .invalidEndpoint
  let compiled ← (document.credentials.foldlM (addCredentialDecl cel) compiled).mapError .invalidCredential
  let compiled ← (document.rules.zipIdx.foldlM (fun p rule => addRuleDecl cel p rule.1 rule.2) compiled).mapError
    .invalidRule
  return sortRules compiled

end Silo.Netd
