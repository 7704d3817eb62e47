import Silo.Netd.HostMatching
/-!
# Credentials

A credential leaves `EvaluateHTTP` only through an allow rule on the endpoint the
host matched, and only when it is the one credential of that endpoint that applies.
-/

namespace Silo.Netd

open Go Lib List AssocMap
open Policy (conditionHolds selectCredential ruleApplies)

/-! ## Selecting a credential -/

def Policy.boundCredentials (p : Policy) (endpoint : Ref) : List Credential :=
  p.credentials.values.filter (fun c => c.endpoint = endpoint)

variable {evaluator : Evaluator}

/-- A selection without an error evaluated every condition, and at most one credential applied. -/
theorem selectCredential_ok {cs : List Credential} {selected result : Option Credential}
    (h : selectCredential evaluator cs selected = .ok result) :
    (∀ c ∈ cs, ∃ v, conditionHolds evaluator c.condition = .ok v) ∧
      ((result = selected ∧ ∀ c ∈ cs, conditionHolds evaluator c.condition = .ok false) ∨
       (selected = none ∧ ∃ c ∈ cs, result = some c ∧ conditionHolds evaluator c.condition = .ok true ∧
          ∀ c' ∈ cs, conditionHolds evaluator c'.condition = .ok true → c' = c)) := by
  induction cs generalizing selected with
  | nil =>
    cases h
    exact ⟨by simp, .inl ⟨rfl, by simp⟩⟩
  | cons c cs ih =>
    unfold selectCredential at h
    split at h
    · cases h
    · rename_i hc
      obtain ⟨hall, hres⟩ := ih h
      refine ⟨forall_mem_cons.2 ⟨⟨false, hc⟩, hall⟩, ?_⟩
      rcases hres with ⟨rfl, hfalse⟩ | ⟨rfl, c0, hc0, rfl, ht, huniq⟩
      · exact .inl ⟨rfl, forall_mem_cons.2 ⟨hc, hfalse⟩⟩
      · refine .inr ⟨rfl, c0, by simp [hc0], rfl, ht, forall_mem_cons.2 ⟨fun ht' => ?_, huniq⟩⟩
        rw [hc] at ht'
        cases ht'
    · rename_i hc
      split at h
      · cases h
      rename_i hsel
      obtain ⟨hall, hres⟩ := ih h
      refine ⟨forall_mem_cons.2 ⟨⟨true, hc⟩, hall⟩, ?_⟩
      rcases hres with ⟨rfl, hfalse⟩ | ⟨hcontra, -⟩
      · refine .inr ⟨by simpa using hsel, c, by simp, rfl, hc, forall_mem_cons.2 ⟨fun _ => rfl, fun c' hc' ht' => ?_⟩⟩
        rw [hfalse c' hc'] at ht'
        cases ht'
      · cases hcontra

/-! ## The rule loop -/

/-- How the loop over the rules ends: at a rule whose condition holds or fails, after rules that do not apply
or whose condition is false, or with the default. -/
inductive RulesEnd (evaluator : Evaluator) (ref : Ref) (credential : Option Credential) (rules : List Rule)
    (byRule failed : Rule → Decision) (default : Decision) : Decision → Prop where
  | rule (before after : List Rule) (r : Rule) (hrules : rules = before ++ r :: after)
      (hbefore : ∀ q ∈ before, ruleApplies q ref credential = true → conditionHolds evaluator q.condition = .ok false)
      (happlies : ruleApplies r ref credential = true) (hholds : conditionHolds evaluator r.condition = .ok true) :
      RulesEnd evaluator ref credential rules byRule failed default (byRule r)
  | error (before after : List Rule) (r : Rule) (e : String) (hrules : rules = before ++ r :: after)
      (hbefore : ∀ q ∈ before, ruleApplies q ref credential = true → conditionHolds evaluator q.condition = .ok false)
      (happlies : ruleApplies r ref credential = true) (hfails : conditionHolds evaluator r.condition = .error e) :
      RulesEnd evaluator ref credential rules byRule failed default (failed r)
  | none (hall : ∀ q ∈ rules, ruleApplies q ref credential = true → conditionHolds evaluator q.condition = .ok false) :
      RulesEnd evaluator ref credential rules byRule failed default default

theorem RulesEnd.cons {ref : Ref} {credential : Option Credential} {rules : List Rule}
    {byRule failed : Rule → Decision} {default d : Decision} {q : Rule}
    (hq : ruleApplies q ref credential → conditionHolds evaluator q.condition = .ok false)
    (h : RulesEnd evaluator ref credential rules byRule failed default d) :
    RulesEnd evaluator ref credential (q :: rules) byRule failed default d := by
  cases h with
  | rule before after r hrules hbefore happlies hholds =>
    exact .rule (q :: before) after r (by simp [hrules]) (forall_mem_cons.2 ⟨hq, hbefore⟩) happlies hholds
  | error before after r e hrules hbefore happlies hfails =>
    exact .error (q :: before) after r e (by simp [hrules]) (forall_mem_cons.2 ⟨hq, hbefore⟩) happlies hfails
  | none hall => exact .none (forall_mem_cons.2 ⟨hq, hall⟩)

def Policy.allowedBy (p : Policy) (request : HTTPRequest) (endpoint : HTTPEndpoint) (credential : Option Credential)
    (rule : Rule) : Decision :=
  p.requestRule request endpoint rule rule.verdict rule.reason (if rule.verdict = .allow then credential else none)

theorem evaluateHTTPRules_end (p : Policy) (request : HTTPRequest) (ref : Ref) (endpoint : HTTPEndpoint)
    (evaluator : Evaluator) (credential : Option Credential) (rules : List Rule) :
    RulesEnd evaluator ref credential rules (p.allowedBy request endpoint credential)
      (fun r => p.requestRule request endpoint r .deny "condition_error" none)
      { p.requestDefault request p.defaultAction (defaultReason p.defaultAction) with
        endpointKind := endpoint.kind, endpointName := endpoint.name }
      (p.evaluateHTTPRules request ref endpoint evaluator credential rules) := by
  induction rules with
  | nil => exact .none (by simp)
  | cons r rules ih =>
    unfold Policy.evaluateHTTPRules
    split
    · rename_i hna
      exact ih.cons (fun ha => by simp [ha] at hna)
    rename_i ha
    have happlies : ruleApplies r ref credential := by simpa using ha
    split
    · rename_i e he
      exact .error [] rules r e rfl (by simp) happlies he
    · rename_i hf
      exact ih.cons (fun _ => hf)
    · rename_i ht
      exact .rule [] rules r rfl (by simp) happlies ht

theorem evaluateHTTPRules_skip {p : Policy} {request : HTTPRequest} {ref : Ref} {endpoint : HTTPEndpoint}
    {credential : Option Credential} {before : List Rule} (after : List Rule)
    (h : ∀ q ∈ before, ruleApplies q ref credential → conditionHolds evaluator q.condition = .ok false) :
    p.evaluateHTTPRules request ref endpoint evaluator credential (before ++ after) =
      p.evaluateHTTPRules request ref endpoint evaluator credential after := by
  induction before with
  | nil => rfl
  | cons q before ih =>
    obtain ⟨hq, hrest⟩ := forall_mem_cons.1 h
    rw [cons_append, Policy.evaluateHTTPRules]
    cases ha : ruleApplies q ref credential with
    | false => simpa using ih hrest
    | true => simpa [hq ha] using ih hrest

/-! ## The matched endpoint -/

variable {e : HTTPEndpoint}

theorem mem_httpFamilyEndpoints {p : Policy} {kind : String} (h : e ∈ (p.httpFamilyEndpoints kind).values) :
    ∃ t, t ≠ .packetFilter ∧ ∃ k, (httpEndpointsForTransport p t).get? k = some e := by
  obtain ⟨k, hk⟩ := mem_values.1 h
  unfold Policy.httpFamilyEndpoints at hk
  split at hk
  · split at hk
    · exact ⟨.httpProxy, by decide, k, hk⟩
    · exact ⟨.httpsMITM, by decide, k, hk⟩
    · exact ⟨.tlsTerminate, by decide, k, hk⟩
    · cases hk
  · split at hk
    · exact ⟨.httpsMITM, by decide, k, hk⟩
    split at hk
    · exact ⟨.httpProxy, by decide, k, hk⟩
    · rcases get?_foldl_insert hk with hk | hk
      · exact ⟨.httpProxy, by decide, k, hk⟩
      · exact ⟨.httpsMITM, by decide, k, (mem_entries _ _ _).1 hk⟩

section Document
variable {cel : Cel} {document : NetworkPolicyFile} {p : Policy}

theorem Compiled.ref_declared (hc : Compiled cel document p) {kind : String}
    (he : e ∈ (p.httpFamilyEndpoints kind).values) : ∃ d ∈ document.endpoints, e.ref = d.ref := by
  obtain ⟨t, ht, k, hk⟩ := mem_httpFamilyEndpoints he
  obtain ⟨d, hd, -, definition, hdef, -, hcompile⟩ := (hc.endpoints.http t ht k e).1 hk
  obtain ⟨hkind, hname, -⟩ := compileHTTPEndpointDecl_ok hcompile
  refine ⟨d, hd, ?_⟩
  simp [HTTPEndpoint.ref, EndpointDecl.ref, hkind, hname, (Registry.endpoint_cases hdef).1]

/-- The credentials filed under a declared endpoint are the ones bound to it. -/
theorem Compiled.credentialsByEndpoint_eq (hc : Compiled cel document p) {d : EndpointDecl}
    (hd : d ∈ document.endpoints) :
    (p.credentialsByEndpoint.get? d.ref.string).getD [] = p.boundCredentials d.ref := by
  rw [hc.credentials.byEndpoint]
  refine filter_congr fun c hmem => ?_
  obtain ⟨cd, -, hof⟩ := forall₂_exists_left hc.credentials.compiled c hmem
  obtain ⟨d', hd', -, href⟩ := (hc.endpoints.refs _ _).1 hof.endpoint
  have hiff : c.endpoint.string = d.ref.string ↔ c.endpoint = d.ref := by
    rw [href]
    constructor
    · intro h
      rw [hc.endpoints.eq_of_key hd' hd h]
    · rintro h
      rw [h]
  simp only [hiff]

/-- A matched host: the endpoint is one of the kind's, and one of its bindings matches the parsed authority. -/
theorem matchHTTPFamilyHostDefault_some {order : RangeOrder} {kind host : String} {ref : Ref}
    (h : p.matchHTTPFamilyHostDefault order kind host = some (ref, e)) :
    ref = e.ref ∧ e ∈ (p.httpFamilyEndpoints kind).values ∧
      ∃ a, parseAuthority host (Policy.defaultPort kind) = .ok a ∧ ∃ b ∈ e.hosts, b.matches a := by
  unfold Policy.matchHTTPFamilyHostDefault at h
  cases ha : parseAuthority host (Policy.defaultPort kind) with
  | error err =>
    rw [matchHTTPFamilyHost_error ha] at h
    cases h
  | ok a =>
    rw [matchHTTPFamilyHost_eq ha, Option.map_map] at h
    obtain ⟨e', hs, heq⟩ := Option.map_eq_some_iff.1 h
    cases heq
    have hsel := selects_of_scan hs
    rcases hsel with ⟨hmem, b, hb, hm, -⟩ | ⟨-, n, ⟨hmem, b, hb, hm, -⟩, -⟩
    · exact ⟨rfl, hmem, a, rfl, b, hb, hm⟩
    · exact ⟨rfl, hmem, a, rfl, b, hb, hm⟩

end Document

/-! ## The decision -/

/-- The conditions evaluated on the way to a decision at an endpoint: those of its credentials up to the first
error or second match, then those of the rules that apply up to the first that holds or fails. -/
inductive ConditionEvaluated (p : Policy) (evaluator : Evaluator) (ref : Ref) : HttpCondition → Prop where
  | credential (before after : List Credential) (c : Credential) (condition : HttpCondition)
      (hbound : p.boundCredentials ref = before ++ c :: after)
      (hbefore : ∃ selected, selectCredential evaluator before none = .ok selected)
      (hcondition : c.condition = some condition) : ConditionEvaluated p evaluator ref condition
  | rule (credential : Option Credential) (before after : List Rule) (r : Rule) (condition : HttpCondition)
      (hselected : p.selectedCredential ref evaluator = .ok credential)
      (hrules : p.rulesByFamily .http = before ++ r :: after)
      (hbefore : ∀ q ∈ before, ruleApplies q ref credential = true → conditionHolds evaluator q.condition = .ok false)
      (happlies : ruleApplies r ref credential = true)
      (hcondition : r.condition = some condition) : ConditionEvaluated p evaluator ref condition

/-- What has to be true of a decision that carries the credential `c`. -/
structure CredentialJustified (p : Policy) (order : RangeOrder) (evaluate : HTTPRequest → Evaluator)
    (request : HTTPRequest) (decision : Decision) (c : Credential) (endpoint : HTTPEndpoint) (rule : Rule) : Prop where
  source : decision.source = .rule
  action : decision.action = .allow
  selected : p.matchHTTPFamilyHostDefault order request.endpointKind request.host = some (endpoint.ref, endpoint)
  matched : endpoint ∈ (p.httpFamilyEndpoints request.endpointKind).values ∧
    ∃ a, parseAuthority request.host (Policy.defaultPort request.endpointKind) = .ok a ∧
      ∃ b ∈ endpoint.hosts, b.matches a
  endpointNamed : decision.endpointKind = endpoint.kind ∧ decision.endpointName = endpoint.name
  filed : rule ∈ p.rulesByFamily .http
  ruleNamed : decision.ruleName = rule.name
  allows : rule.verdict = .allow
  references : endpoint.ref ∈ rule.endpoints
  bound : c ∈ p.boundCredentials endpoint.ref
  applies : conditionHolds (evaluate { request with endpointKind := endpoint.kind }) c.condition = .ok true
  only : ∀ c' ∈ p.boundCredentials endpoint.ref,
    conditionHolds (evaluate { request with endpointKind := endpoint.kind }) c'.condition = .ok true → c' = c
  named : ∀ ref, rule.credential = some ref → c.ref = ref

section Endpoint
variable {p : Policy} {request : HTTPRequest} {endpoint : HTTPEndpoint} {ref : Ref} {evaluator : Evaluator}

/-- A credential in the decision at an endpoint comes from an allow rule that applies and holds. -/
theorem evaluateHTTPEndpoint_credential {c : Credential}
    (h : (p.evaluateHTTPEndpoint request ref endpoint evaluator).selectedCredential = some c) :
    p.selectedCredential ref evaluator = .ok (some c) ∧
      ∃ rule ∈ p.rulesByFamily .http, ruleApplies rule ref (some c) ∧ rule.verdict = .allow ∧
        p.evaluateHTTPEndpoint request ref endpoint evaluator = p.allowedBy request endpoint (some c) rule := by
  unfold Policy.evaluateHTTPEndpoint at h ⊢
  cases hsel : p.selectedCredential ref evaluator with
  | error reason =>
    rw [hsel] at h
    cases h
  | ok credential =>
    rw [hsel] at h
    dsimp only at h ⊢
    have hend := evaluateHTTPRules_end p request ref endpoint evaluator credential (p.rulesByFamily .http)
    generalize p.evaluateHTTPRules request ref endpoint evaluator credential (p.rulesByFamily .http) = decision at *
    cases hend with
    | rule before after r hrules hbefore happlies hholds =>
      simp only [Policy.allowedBy, Policy.requestRule] at h
      split at h
      · rename_i hallow
        subst h
        exact ⟨rfl, r, by simp [hrules], happlies, hallow, rfl⟩
      · cases h
    | error before after r e hrules hbefore happlies hfails => cases h
    | none hall => cases h

/-- An evaluated condition that fails, or two credentials that apply, deny the request without a credential. -/
theorem evaluateHTTPEndpoint_fail_closed
    (hbound : p.selectedCredential ref evaluator = selectCredential evaluator (p.boundCredentials ref) none)
    (h : (∃ condition err, ConditionEvaluated p evaluator ref condition ∧ evaluator condition = .error err) ∨
      (∃ c ∈ p.boundCredentials ref, ∃ c' ∈ p.boundCredentials ref, c ≠ c' ∧
        conditionHolds evaluator c.condition = .ok true ∧ conditionHolds evaluator c'.condition = .ok true)) :
    (p.evaluateHTTPEndpoint request ref endpoint evaluator).action = .deny ∧
      (p.evaluateHTTPEndpoint request ref endpoint evaluator).selectedCredential = none := by
  unfold Policy.evaluateHTTPEndpoint
  cases hsel : p.selectedCredential ref evaluator with
  | error reason => exact ⟨rfl, rfl⟩
  | ok credential =>
    dsimp only
    obtain ⟨hall, hresult⟩ := selectCredential_ok (hbound.symm.trans hsel)
    rcases h with ⟨condition, err, hev, herr⟩ | ⟨c, hmem, c', hmem', hne, ht, ht'⟩
    · cases hev with
      | credential before after c _ hb _ hcondition =>
        obtain ⟨v, hv⟩ := hall c (by simp [hb])
        rw [hcondition] at hv
        exact absurd (herr.symm.trans hv) (by simp)
      | rule credential' before after r _ hselected hrules hbefore happlies hcondition =>
        cases hsel.symm.trans hselected
        rw [hrules, evaluateHTTPRules_skip _ hbefore, Policy.evaluateHTTPRules]
        have hfails : conditionHolds evaluator r.condition = .error err := by rw [hcondition]; exact herr
        simp [happlies, hfails, Policy.requestRule]
    · rcases hresult with ⟨-, hfalse⟩ | ⟨-, c0, -, -, -, huniq⟩
      · exact absurd ((hfalse c hmem).symm.trans ht) (by simp)
      · exact absurd ((huniq c hmem ht).trans (huniq c' hmem' ht').symm) hne

end Endpoint

/-- No credential without an explicit, unambiguous allow, for every compiled policy, request, map order and
condition evaluator. -/
theorem evaluateHTTP_credential {cel : Cel} {filename : String} {document : NetworkPolicyFile} {p : Policy}
    (h : compileNetworkPolicy cel filename document = .ok p) (order : RangeOrder)
    (evaluate : HTTPRequest → Evaluator) (request : HTTPRequest) :
    (∀ c, (Policy.evaluateHTTP order evaluate (some p) request).selectedCredential = some c →
      ∃ endpoint rule, CredentialJustified p order evaluate request
        (Policy.evaluateHTTP order evaluate (some p) request) c endpoint rule) ∧
    ((Policy.evaluateHTTP order evaluate (some p) request).action = .deny ∨
        (Policy.evaluateHTTP order evaluate (some p) request).source = .default ∨
        p.matchHTTPFamilyHostDefault order request.endpointKind request.host = none →
      (Policy.evaluateHTTP order evaluate (some p) request).selectedCredential = none) ∧
    (∀ ref endpoint, p.matchHTTPFamilyHostDefault order request.endpointKind request.host = some (ref, endpoint) →
      ((∃ condition err, ConditionEvaluated p (evaluate { request with endpointKind := endpoint.kind }) ref condition ∧
          evaluate { request with endpointKind := endpoint.kind } condition = .error err) ∨
        (∃ c ∈ p.boundCredentials ref, ∃ c' ∈ p.boundCredentials ref, c ≠ c' ∧
          conditionHolds (evaluate { request with endpointKind := endpoint.kind }) c.condition = .ok true ∧
          conditionHolds (evaluate { request with endpointKind := endpoint.kind }) c'.condition = .ok true)) →
      (Policy.evaluateHTTP order evaluate (some p) request).action = .deny ∧
        (Policy.evaluateHTTP order evaluate (some p) request).selectedCredential = none) := by
  have hc := compiled_of_ok h
  cases hm : p.matchHTTPFamilyHostDefault order request.endpointKind request.host with
  | none =>
    have hnone : (Policy.evaluateHTTP order evaluate (some p) request).selectedCredential = none := by
      simp only [Policy.evaluateHTTP, hm]
      cases parseAuthority request.host (Policy.defaultPort request.endpointKind) <;> rfl
    refine ⟨fun c hcred => ?_, fun _ => hnone, fun ref endpoint h => nomatch h⟩
    rw [hnone] at hcred
    cases hcred
  | some re =>
    obtain ⟨ref, endpoint⟩ := re
    obtain ⟨rfl, hmem, a, ha, hb⟩ := matchHTTPFamilyHostDefault_some hm
    obtain ⟨d, hd, href⟩ := hc.ref_declared hmem
    have hbound : ∀ evaluator, p.selectedCredential endpoint.ref evaluator =
        selectCredential evaluator (p.boundCredentials endpoint.ref) none := by
      intro evaluator
      rw [Policy.selectedCredential, href, hc.credentialsByEndpoint_eq hd]
    have heval : Policy.evaluateHTTP order evaluate (some p) request =
        p.evaluateHTTPEndpoint { request with endpointKind := endpoint.kind } endpoint.ref endpoint
          (evaluate { request with endpointKind := endpoint.kind }) := by
      simp only [Policy.evaluateHTTP, hm, ha]
    have hjustified : ∀ c, (Policy.evaluateHTTP order evaluate (some p) request).selectedCredential = some c →
        ∃ endpoint rule, CredentialJustified p order evaluate request
          (Policy.evaluateHTTP order evaluate (some p) request) c endpoint rule := by
      intro c hcred
      rw [heval] at hcred
      obtain ⟨hsel, rule, hrule, happlies, hallow, hdecision⟩ := evaluateHTTPEndpoint_credential hcred
      obtain ⟨-, ⟨hcontra, -⟩ | ⟨-, c0, hc0, heq, ht, huniq⟩⟩ := selectCredential_ok ((hbound _).symm.trans hsel)
      · cases hcontra
      cases heq
      simp only [ruleApplies, Bool.and_eq_true, decide_eq_true_eq] at happlies
      refine ⟨endpoint, rule, ?_⟩
      rw [heval, hdecision]
      refine ⟨rfl, hallow, hm, ⟨hmem, a, ha, hb⟩, ⟨rfl, rfl⟩, hrule, rfl, hallow, happlies.1, hc0, ht, huniq, fun r hr => ?_⟩
      have := happlies.2
      rw [hr] at this
      simpa using this
    refine ⟨hjustified, fun hcases => ?_, fun ref' endpoint' hm' hfail => ?_⟩
    · cases hcred : (Policy.evaluateHTTP order evaluate (some p) request).selectedCredential with
      | none => rfl
      | some c =>
        obtain ⟨e, r, hj⟩ := hjustified c hcred
        rcases hcases with hact | hsrc | hnone
        · rw [hj.action] at hact
          cases hact
        · rw [hj.source] at hsrc
          cases hsrc
        · cases hnone
    · cases hm'
      rw [heval]
      exact evaluateHTTPEndpoint_fail_closed (hbound _) hfail

/-- One HTTPS endpoint with a bearer token and a rule that allows it. -/
def tokenDocument : NetworkPolicyFile where
  version := 1
  endpoints := [httpsDecl "api" ["api.example.com"]]
  credentials := [{ kind := "bearer_token", name := "token", endpoint := "api" }]
  rules := [{ name := "pass", endpoints := ["api"], credential := "token", verdict := "allow" }]

def tokenRequest : HTTPRequest := { tiedRequest with host := "API.example.com." }

theorem evaluateHTTP_credential_token :
    ∃ p c, compileNetworkPolicy ⟨fun _ _ => true⟩ "policy.json" tokenDocument = .ok p ∧
      (Policy.evaluateHTTP .insertion (fun _ _ => .ok true) (some p) tokenRequest).selectedCredential = some c ∧
      ∃ endpoint rule, CredentialJustified p .insertion (fun _ _ => .ok true) tokenRequest
        (Policy.evaluateHTTP .insertion (fun _ _ => .ok true) (some p) tokenRequest) c endpoint rule := by
  obtain ⟨p, hp, hsome⟩ := exists_ok_of_map
    (x := compileNetworkPolicy ⟨fun _ _ => true⟩ "policy.json" tokenDocument)
    (f := fun p =>
      (Policy.evaluateHTTP .insertion (fun _ _ => .ok true) (some p) tokenRequest).selectedCredential.isSome)
    (b := true) (by decide)
  obtain ⟨c, hc⟩ := Option.isSome_iff_exists.1 hsome
  exact ⟨p, c, hp, hc, (evaluateHTTP_credential hp .insertion (fun _ _ => .ok true) tokenRequest).1 c hc⟩

/-- The loop over the rules of an action is that of a request which selects no credential. -/
theorem evaluateActionRules_eq (p : Policy) (request : HTTPRequest) (endpoint : HTTPEndpoint) (evaluator : Evaluator)
    (rules : List Rule) :
    p.evaluateActionRules endpoint.ref evaluator rules =
      { p.evaluateHTTPRules request endpoint.ref endpoint evaluator none rules with
        matchedFlow := {}, matchedRequest := none } := by
  induction rules with
  | nil => rfl
  | cons rule rest ih =>
    have happlies : ruleApplies rule endpoint.ref none = (endpoint.ref ∈ rule.endpoints && !rule.credential.isSome) := by
      cases h : rule.credential <;> simp [ruleApplies, h]
    rw [Policy.evaluateActionRules, Policy.evaluateHTTPRules, ih, happlies, Bool.not_and, Bool.not_not]
    split
    · rfl
    · cases h : conditionHolds evaluator rule.condition with
      | error e => rfl
      | ok holds => cases holds <;> simp [Policy.requestRule, HTTPEndpoint.ref]

/-- A package action is judged as a request to its endpoint that selects no credential: by the same loop, over the rules
of the endpoint's family, and for an endpoint of the HTTP family as `EvaluateHTTP` judges such a request. -/
theorem action_judged_as_request (p : Policy) (request : HTTPRequest) (endpoint : HTTPEndpoint) (evaluator : Evaluator) :
    (∀ rules, p.evaluateActionRules endpoint.ref evaluator rules =
      { p.evaluateHTTPRules request endpoint.ref endpoint evaluator none rules with
        matchedFlow := {}, matchedRequest := none }) ∧
    ∀ definition, p.endpointDefinitions.get? endpoint.ref.string = some definition →
      Policy.evaluateAction (some p) endpoint.ref evaluator =
        { p.evaluateHTTPRules request endpoint.ref endpoint evaluator none (p.rulesByFamily definition.family) with
          matchedFlow := {}, matchedRequest := none } ∧
      (definition.family = .http → p.selectedCredential endpoint.ref evaluator = .ok none →
        Policy.evaluateAction (some p) endpoint.ref evaluator =
          { p.evaluateHTTPEndpoint request endpoint.ref endpoint evaluator with
            matchedFlow := {}, matchedRequest := none }) := by
  have hloop := evaluateActionRules_eq p request endpoint evaluator
  refine ⟨hloop, fun definition hdef => ?_⟩
  have haction : Policy.evaluateAction (some p) endpoint.ref evaluator =
      p.evaluateActionRules endpoint.ref evaluator (p.rulesByFamily definition.family) := by
    rw [Policy.evaluateAction, hdef]
  refine ⟨haction.trans (hloop _), fun hfamily hnone => ?_⟩
  rw [haction, hloop, hfamily, Policy.evaluateHTTPEndpoint, hnone]

def plainDocument : NetworkPolicyFile :=
  { tokenDocument with credentials := [], rules := [{ name := "pass", endpoints := ["api"], verdict := "allow" }] }

def apiEndpoint : HTTPEndpoint := ⟨"https", "api", .http, .httpsMITM, 443, []⟩

theorem api_action_judged :
    ∃ p, compileNetworkPolicy ⟨fun _ _ => true⟩ "policy.json" plainDocument = .ok p ∧
      Policy.evaluateAction (some p) apiEndpoint.ref (fun _ => .ok true) =
        { p.evaluateHTTPEndpoint tokenRequest apiEndpoint.ref apiEndpoint (fun _ => .ok true) with
          matchedFlow := {}, matchedRequest := none } := by
  obtain ⟨p, hp, hsome⟩ := exists_ok_of_map
    (x := compileNetworkPolicy ⟨fun _ _ => true⟩ "policy.json" plainDocument)
    (f := fun p => ((p.endpointDefinitions.get? apiEndpoint.ref.string).map (·.family),
      (p.selectedCredential apiEndpoint.ref fun _ => .ok true).toOption))
    (b := (some .http, some none)) (by decide)
  obtain ⟨hfamily, hnone⟩ := Prod.mk.inj hsome
  obtain ⟨definition, hdef, hhttp⟩ := Option.map_eq_some_iff.1 hfamily
  refine ⟨p, hp, ((action_judged_as_request p tokenRequest apiEndpoint fun _ => .ok true).2 definition hdef).2 hhttp ?_⟩
  cases h : p.selectedCredential apiEndpoint.ref fun _ => .ok true with
  | error e => simp [h, Except.toOption] at hnone
  | ok c => simpa [h, Except.toOption] using hnone

end Silo.Netd
