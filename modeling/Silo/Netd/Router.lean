import Silo.Netd.Intercept
import Silo.Netnode.Node
/-!
# Routing a flow

The router asks the policy about a flow and turns the decision into an action for the
packet handlers. A flow to a tailnet destination needs a rule with a tunnel: a decision
that would let it out any other way is a refusal.
-/

namespace Silo.Netd

open Go Lib

/-- `hooks.Flow`. -/
structure RouteFlow where
  flowID : String := ""
  protocol : String
  sourceIP : List UInt8
  sourcePort : UInt16
  destIP : List UInt8
  destPort : UInt16
  vmID : String := ""
  runID : String := ""
  networkID : String := ""
  deriving DecidableEq

/-- `hooks.Credential`. -/
structure RouteCredential where
  (kind name endpoint username header headerPrefix : String)
  idempotencyKey : Bool
  deriving DecidableEq

/-- `hooks.RouteDecision`. The text fields a decision of the packet handlers leaves empty are `none`; the package facts,
which only a package request has, are left out. -/
structure RouteDecision where
  action : RouteAction
  layer : Option DecisionLayer := none
  source : Option DecisionSource := none
  defaultAction : Option Action := none
  classificationOpportunity : Bool := false
  reason : String := ""
  ruleName : String := ""
  endpointKind : String := ""
  endpointName : String := ""
  matchedL4 : Option L4Match := none
  credential : Option RouteCredential := none
  tunnel : Option Ref := none
  deriving DecidableEq

def routeDecisionFromPolicy (decision : Decision) : RouteDecision where
  action := routeActionFromPolicy decision
  layer := some decision.layer
  source := some decision.source
  defaultAction := some decision.defaultAction
  classificationOpportunity := decision.classificationOpportunity
  reason := decision.reason
  ruleName := decision.ruleName
  endpointKind := decision.endpointKind
  endpointName := decision.endpointName
  matchedL4 := decision.matchedL4
  credential := decision.selectedCredential.map fun c =>
    ⟨c.kind, c.name, c.endpoint.name, c.username, c.header, c.headerPrefix, c.idempotencyKey⟩
  tunnel := decision.tunnel

/-! ## The router -/

/-- `New` replaces a missing policy by the default one. -/
structure Router where
  tunnel : Option Netnode.Node
  policy : Policy

namespace Router

/-- `IsTailnetDestination`, at the time the node is asked; a node forgets what has expired. -/
def isTailnetDestination (r : Router) (address : List UInt8) (now : Nat) : Router × Bool :=
  match addrFromSlice address with
  | none => (r, false)
  | some ip =>
    if Netnode.inRange ip then (r, true)
    else
      match r.tunnel with
      | none => (r, false)
      | some node => ({ r with tunnel := some (node.isDestination ip now).1 }, (node.isDestination ip now).2)

/-- `Decide`. -/
def decideFlow (r : Router) (flow : RouteFlow) (now : Nat) : Router × RouteDecision :=
  let asked := r.isTailnetDestination flow.destIP now
  let converted := routeDecisionFromPolicy (Policy.evaluateFlow (some r.policy)
    { tailnetDestination := asked.2, protocol := flow.protocol, sourceIP := flow.sourceIP, sourcePort := flow.sourcePort,
      destIP := flow.destIP, destPort := flow.destPort })
  if asked.2 ∧ converted.tunnel = none ∧ converted.action ≠ .deny then
    (asked.1, { converted with action := .deny, classificationOpportunity := false, reason := "tunnel_required" })
  else (asked.1, converted)

/-- `DialTunnel` and `Node.DialTCP`; `dial` is the node's connection to its tailnet. A refusal comes with its reason. -/
def dialTunnel (r : Router) (dial : Option (Addr → UInt16 → Bool)) (addr : Addr) (port : UInt16) : Except String Unit :=
  match r.tunnel with
  | none => .error "tunnel_not_connected"
  | some node =>
    match dial with
    | none => .error "tunnel_not_connected"
    | some dial =>
      if node.running ∧ node.closed = false then
        if dial addr port then .ok () else .error "tunnel_error"
      else .error "tunnel_not_connected"

/-! ## Tailnet destinations -/

theorem isTailnetDestination_again (r : Router) (address : List UInt8) {now later : Nat} (h : now ≤ later) :
    ((r.isTailnetDestination address now).1.isTailnetDestination address later).2 =
      (r.isTailnetDestination address later).2 := by
  unfold isTailnetDestination
  cases addrFromSlice address with
  | none => rfl
  | some ip =>
    by_cases hrange : Netnode.inRange ip
    · simp [hrange]
    · cases hnode : r.tunnel with
      | none => simp [hrange, hnode]
      | some node =>
        simp only [hrange, Bool.false_eq_true, if_false, Netnode.Node.isDestination, Netnode.Node.pruneAddresses]
        rw [Bool.eq_iff_iff, Bool.or_eq_true, Bool.or_eq_true]
        simp only [Deadlines.isSome_prune_iff, Deadlines.deadline_prune]
        constructor
        · rintro (hlt | hlt) <;> split at hlt <;> omega
        · rintro (hlt | hlt)
          · left; split <;> omega
          · right; split <;> omega

theorem isTailnetDestination_before (r : Router) (address : List UInt8) {now later : Nat} (h : now ≤ later)
    (htailnet : (r.isTailnetDestination address later).2) : (r.isTailnetDestination address now).2 := by
  unfold isTailnetDestination at htailnet ⊢
  cases haddr : addrFromSlice address with
  | none => simp [haddr] at htailnet
  | some ip =>
    by_cases hrange : Netnode.inRange ip
    · simp [hrange]
    · cases hnode : r.tunnel with
      | none => simp [haddr, hrange, hnode] at htailnet
      | some node =>
        simp only [haddr, hnode, hrange, Bool.false_eq_true, if_false, Netnode.Node.isDestination,
          Netnode.Node.pruneAddresses, Bool.or_eq_true, Deadlines.isSome_prune_iff] at htailnet ⊢
        omega

theorem decideFlow_tailnet (r : Router) (flow : RouteFlow) (now : Nat)
    (h : (r.isTailnetDestination flow.destIP now).2) :
    (r.decideFlow flow now).2.action = .deny ∨ (r.decideFlow flow now).2.tunnel ≠ none := by
  simp only [decideFlow, h, true_and]
  split
  · exact .inl rfl
  · rename_i hno
    by_cases htunnel : (routeDecisionFromPolicy (Policy.evaluateFlow (some r.policy)
        { tailnetDestination := true, protocol := flow.protocol, sourceIP := flow.sourceIP,
          sourcePort := flow.sourcePort, destIP := flow.destIP, destPort := flow.destPort })).tunnel = none
    · exact .inl (not_not.1 fun hdeny => hno ⟨htunnel, hdeny⟩)
    · exact .inr htunnel

end Router

end Silo.Netd
