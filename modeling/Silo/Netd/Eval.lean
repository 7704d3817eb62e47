import Silo.Netd.Model
/-!
# Evaluation

`EvaluateFlow`, `EvaluateHTTP` and `evaluateAction`. Evaluating a compiled condition
is the CEL library's work: any function from conditions to a boolean or an error.
-/

namespace Silo.Netd

open Go Lib

/-- The outcome of evaluating a condition: a boolean or an error. -/
abbrev Evaluator := HttpCondition → Except String Bool

def defaultReason (action : Action) : String := "default_" ++ action.string

namespace Policy

/-! ## Flows -/

/-- The loop of `matchIPRule` over the endpoints of a rule. -/
def matchIPEndpoints (p : Policy) (flow : Flow) : List Ref → Option (IPEndpoint × L4Match)
  | [] => none
  | ref :: rest =>
    match p.ipEndpoints.get? ref.string with
    | none => p.matchIPEndpoints flow rest
    | some endpoint =>
      match endpoint.matchFlow flow with
      | some l4Match => some (endpoint, l4Match)
      | none => p.matchIPEndpoints flow rest

def matchIPRule (p : Policy) (rule : Rule) (flow : Flow) : Option (IPEndpoint × L4Match) :=
  p.matchIPEndpoints flow rule.endpoints

def flowRuleDecision (p : Policy) (flow : Flow) (rule : Rule) (endpoint : IPEndpoint) (l4Match : L4Match) :
    Decision :=
  { tunnel := rule.tunnel, action := rule.verdict, layer := .flow, source := .rule,
    defaultAction := p.defaultAction,
    classificationOpportunity := rule.tunnel.isNone && rule.verdict = .allow && p.canClassify flow,
    ruleName := rule.name, reason := rule.reason, endpointKind := "ip", endpointName := endpoint.name,
    matchedL4 := some l4Match, matchedFlow := flow }

def flowDefaultDecision (p : Policy) (flow : Flow) : Decision :=
  { action := p.defaultAction, layer := .flow, source := .default, defaultAction := p.defaultAction,
    classificationOpportunity := p.canClassify flow, reason := defaultReason p.defaultAction,
    matchedFlow := flow }

/-- The loop of `EvaluateFlow` over the IP rules. -/
def evaluateFlowRules (p : Policy) (flow : Flow) : List Rule → Decision
  | [] => p.flowDefaultDecision flow
  | rule :: rest =>
    if rule.tunnel.isSome && !flow.tailnetDestination then p.evaluateFlowRules flow rest
    else
      match p.matchIPRule rule flow with
      | none => p.evaluateFlowRules flow rest
      | some (endpoint, l4Match) => p.flowRuleDecision flow rule endpoint l4Match

/-- `EvaluateFlow`; without a policy everything is allowed. -/
def evaluateFlow (policy : Option Policy) (flow : Flow) : Decision :=
  match policy with
  | none => { action := .allow, layer := .flow, source := .default, defaultAction := .allow, matchedFlow := flow }
  | some p => p.evaluateFlowRules flow (p.rulesByFamily .ip)

/-! ## Requests -/

/-- `matchesHTTPWithEvaluator` of rules and credentials: no condition holds. -/
def conditionHolds (evaluator : Evaluator) (condition : Option HttpCondition) : Except String Bool :=
  match condition with
  | none => .ok true
  | some condition => evaluator condition

/-- The loop of `selectedCredential`: an error or a second match refuses the request. -/
def selectCredential (evaluator : Evaluator) : List Credential → Option Credential → Except String (Option Credential)
  | [], selected => .ok selected
  | credential :: rest, selected =>
    match conditionHolds evaluator credential.condition with
    | .error _ => .error "credential_condition_error"
    | .ok false => selectCredential evaluator rest selected
    | .ok true =>
      if selected.isSome then .error "ambiguous_credentials"
      else selectCredential evaluator rest (some credential)

def selectedCredential (p : Policy) (endpoint : Ref) (evaluator : Evaluator) : Except String (Option Credential) :=
  selectCredential evaluator ((p.credentialsByEndpoint.get? endpoint.string).getD []) none

/-- The loop over the HTTP rules asks this before the condition: the rule references the endpoint and
names no other credential than the selected one. -/
def ruleApplies (rule : Rule) (endpoint : Ref) (credential : Option Credential) : Bool :=
  endpoint ∈ rule.endpoints &&
    match rule.credential with
    | none => true
    | some ref => credential.map Credential.ref = some ref

def requestDefault (p : Policy) (request : HTTPRequest) (action : Action) (reason : String) : Decision :=
  { action, layer := .request, source := .default, defaultAction := p.defaultAction, reason,
    matchedFlow := request.flow, matchedRequest := some request }

def requestRule (p : Policy) (request : HTTPRequest) (endpoint : HTTPEndpoint) (rule : Rule) (action : Action)
    (reason : String) (credential : Option Credential) : Decision :=
  { action, layer := .request, source := .rule, defaultAction := p.defaultAction, ruleName := rule.name, reason,
    endpointKind := endpoint.kind, endpointName := endpoint.name, matchedFlow := request.flow,
    matchedRequest := some request, selectedCredential := credential }

/-- The loop of `EvaluateHTTP` over the HTTP rules. -/
def evaluateHTTPRules (p : Policy) (request : HTTPRequest) (ref : Ref) (endpoint : HTTPEndpoint)
    (evaluator : Evaluator) (credential : Option Credential) : List Rule → Decision
  | [] =>
    { p.requestDefault request p.defaultAction (defaultReason p.defaultAction) with
      endpointKind := endpoint.kind, endpointName := endpoint.name }
  | rule :: rest =>
    if !ruleApplies rule ref credential then p.evaluateHTTPRules request ref endpoint evaluator credential rest
    else
      match conditionHolds evaluator rule.condition with
      | .error _ => p.requestRule request endpoint rule .deny "condition_error" none
      | .ok false => p.evaluateHTTPRules request ref endpoint evaluator credential rest
      | .ok true =>
        p.requestRule request endpoint rule rule.verdict rule.reason
          (if rule.verdict = .allow then credential else none)

/-- `EvaluateHTTP` from the matched endpoint on. -/
def evaluateHTTPEndpoint (p : Policy) (request : HTTPRequest) (ref : Ref) (endpoint : HTTPEndpoint)
    (evaluator : Evaluator) : Decision :=
  match p.selectedCredential ref evaluator with
  | .error credentialReason =>
    { p.requestDefault request .deny credentialReason with
      endpointKind := endpoint.kind, endpointName := endpoint.name }
  | .ok credential =>
    p.evaluateHTTPRules request ref endpoint evaluator credential (p.rulesByFamily .http)

/-- `EvaluateHTTP`. The evaluator may look at the request, whose kind is that of the matched endpoint. -/
def evaluateHTTP (order : RangeOrder) (evaluate : HTTPRequest → Evaluator) (policy : Option Policy)
    (request : HTTPRequest) : Decision :=
  match policy with
  | none => { action := .allow, layer := .request, source := .default, defaultAction := .allow,
              matchedRequest := some request }
  | some p =>
    match parseAuthority request.host (defaultPort request.endpointKind) with
    | .error _ => p.requestDefault request .deny "missing_host"
    | .ok _ =>
      match p.matchHTTPFamilyHostDefault order request.endpointKind request.host with
      | none =>
        p.requestDefault request p.defaultAction
          (if p.defaultAction = .deny then defaultReason p.defaultAction else "unknown_l7_endpoint")
      | some (ref, endpoint) =>
        let request := { request with endpointKind := endpoint.kind }
        p.evaluateHTTPEndpoint request ref endpoint (evaluate request)

/-! ## Package actions -/

/-- The loop of `evaluateAction`: rules that name a credential never apply. -/
def evaluateActionRules (p : Policy) (endpoint : Ref) (evaluator : Evaluator) : List Rule → Decision
  | [] =>
    { action := p.defaultAction, layer := .request, source := .default, defaultAction := p.defaultAction,
      reason := defaultReason p.defaultAction, endpointKind := endpoint.kind, endpointName := endpoint.name }
  | rule :: rest =>
    if !decide (endpoint ∈ rule.endpoints) || rule.credential.isSome then p.evaluateActionRules endpoint evaluator rest
    else
      match conditionHolds evaluator rule.condition with
      | .error _ =>
        { action := .deny, layer := .request, source := .rule, defaultAction := p.defaultAction,
          ruleName := rule.name, reason := "condition_error", endpointKind := endpoint.kind,
          endpointName := endpoint.name }
      | .ok false => p.evaluateActionRules endpoint evaluator rest
      | .ok true =>
        { action := rule.verdict, layer := .request, source := .rule, defaultAction := p.defaultAction,
          ruleName := rule.name, reason := rule.reason, endpointKind := endpoint.kind,
          endpointName := endpoint.name }

/-- `evaluateAction`, with the evaluator its facets give. -/
def evaluateAction (policy : Option Policy) (endpoint : Ref) (evaluator : Evaluator) : Decision :=
  match policy with
  | none => { action := .allow, layer := .request, source := .default, defaultAction := .allow }
  | some p =>
    match p.endpointDefinitions.get? endpoint.string with
    | none => { action := .deny, layer := .request, source := .default, defaultAction := p.defaultAction,
                reason := "unknown_l7_endpoint" }
    | some definition => p.evaluateActionRules endpoint evaluator (p.rulesByFamily definition.family)

end Policy

end Silo.Netd
