import Silo.Go.Strings
import Silo.Lib.Checks
import Silo.Netd.Document
/-!
# Forwards

`compileForwards`: every declared forward listens on a tailnet port of its own and
targets the attached guest.
-/

namespace Silo.Netd

open Go Lib

inductive ForwardProtocol where
  | tcp
  | https
  deriving DecidableEq, Repr

structure Forward where
  name : String
  (listenPort guestPort : UInt16)
  protocol : ForwardProtocol
  deriving DecidableEq, Repr

inductive ForwardError where
  | nameRequired
  | nameGrammar (name : String)
  | duplicateName (name : String)
  | unsupportedKind (name kind : String)
  | unsupportedTarget (name target : String)
  | noTailscale (name : String)
  | tunnelMismatch (name tunnel node : String)
  | tcpForbidsTLS (name : String)
  | httpsRequiresTLS (name : String)
  | unsupportedProtocol (name protocol : String)
  | listen (name : String)
  | reservedPort (name : String)
  | duplicatePort (name : String) (port : UInt16)
  | targetPort (name : String)
  deriving DecidableEq, Repr

def isIdentifierChar (c : Char) : Bool :=
  ('a' ≤ c && c ≤ 'z') || ('A' ≤ c && c ≤ 'Z') || ('0' ≤ c && c ≤ '9') || c == '_' || c == '-'

/-- `forwardListenPort`: `:<decimal port>` with a port in 1..65535. -/
def forwardListenPort (listen : String) : Option UInt16 :=
  match listen.toList with
  | ':' :: digits =>
    match parseUint16 digits with
    | some port => if port = 0 then none else some port
    | none => none
  | _ => none

/-- The protocol of a declaration; an omitted one is TCP, and only HTTPS takes a TLS provider. -/
def forwardProtocol (decl : NetworkForwardDecl) : Except ForwardError ForwardProtocol :=
  let protocol := if decl.protocol = "" then "tcp" else decl.protocol
  if protocol = "tcp" then
    if decl.tlsProvider.isSome then .error (.tcpForbidsTLS decl.name) else .ok .tcp
  else if protocol = "https" then
    if decl.tlsProvider ≠ some "tailscale" then .error (.httpsRequiresTLS decl.name) else .ok .https
  else .error (.unsupportedProtocol decl.name protocol)

/-- One iteration of `compileForwards` after the `earlier` forwards. -/
def compileForward (tailscale : Option TailscaleDecl) (earlier : List Forward) (decl : NetworkForwardDecl) :
    Except ForwardError Forward := do
  if decl.name = "" then throw .nameRequired
  if !decl.name.toList.all isIdentifierChar then throw (.nameGrammar decl.name)
  if earlier.any (·.name = decl.name) then throw (.duplicateName decl.name)
  if decl.kind ≠ "tailscale" then throw (.unsupportedKind decl.name decl.kind)
  if decl.target ≠ "self" then throw (.unsupportedTarget decl.name decl.target)
  match tailscale with
  | none => throw (.noTailscale decl.name)
  | some node =>
    if decl.tunnel ≠ "" && decl.tunnel ≠ node.name then throw (.tunnelMismatch decl.name decl.tunnel node.name)
    let protocol ← forwardProtocol decl
    match forwardListenPort decl.listen with
    | none => throw (.listen decl.name)
    | some port =>
      if port = 22 then throw (.reservedPort decl.name)
      if earlier.any (·.listenPort = port) then throw (.duplicatePort decl.name port)
      if decl.targetPort = 0 then throw (.targetPort decl.name)
      return { name := decl.name, listenPort := port, guestPort := decl.targetPort, protocol }

/-- What a forward that compiles after the `earlier` ones satisfies, check by check. -/
theorem compileForward_eq_ok {node : TailscaleDecl} {earlier : List Forward} {decl : NetworkForwardDecl}
    {compiled : Forward} :
    compileForward (some node) earlier decl = .ok compiled ↔
      decl.name ≠ "" ∧ decl.name.toList.all isIdentifierChar ∧ (∀ e ∈ earlier, e.name ≠ decl.name) ∧
      decl.kind = "tailscale" ∧ decl.target = "self" ∧ (decl.tunnel = "" ∨ decl.tunnel = node.name) ∧
      ∃ protocol, forwardProtocol decl = .ok protocol ∧
      ∃ port, forwardListenPort decl.listen = some port ∧ port ≠ 22 ∧ (∀ e ∈ earlier, e.listenPort ≠ port) ∧
      decl.targetPort ≠ 0 ∧ compiled = ⟨decl.name, port, decl.targetPort, protocol⟩ := by
  unfold compileForward
  refine throw_if_bind_eq_ok.trans (and_congr_right fun _ => ?_)
  refine throw_if_bind_eq_ok.trans (and_congr (by simp) ?_)
  refine throw_if_bind_eq_ok.trans (and_congr (by simp) ?_)
  refine throw_if_bind_eq_ok.trans (and_congr (by simp) ?_)
  refine throw_if_bind_eq_ok.trans (and_congr (by simp) ?_)
  refine throw_if_bind_eq_ok.trans (and_congr (by simp [Classical.or_iff_not_imp_left]) ?_)
  refine bind_eq_ok.trans (exists_congr fun protocol => and_congr_right fun _ => ?_)
  cases forwardListenPort decl.listen with
  | none => simp [throw, throwThe, MonadExceptOf.throw]
  | some port =>
    simp only [Option.some.injEq, exists_eq_left']
    refine throw_if_bind_eq_ok.trans (and_congr_right fun _ => ?_)
    refine throw_if_bind_eq_ok.trans (and_congr (by simp) ?_)
    refine throw_if_bind_eq_ok.trans (and_congr_right fun _ => ?_)
    exact pure_eq_ok.trans eq_comm

def compileForwards (tailscale : Option TailscaleDecl) (declarations : List NetworkForwardDecl) :
    Except ForwardError (List Forward) :=
  declarations.foldlM (fun earlier decl => do return earlier ++ [← compileForward tailscale earlier decl]) []

/-- Every forward that compiles comes from a declared node and goes to the guest. -/
theorem compileForwards_ok {tailscale : Option TailscaleDecl} {declarations : List NetworkForwardDecl}
    {compiled : List Forward} (h : compileForwards tailscale declarations = .ok compiled) :
    ∀ d ∈ declarations, d.kind = "tailscale" ∧ d.target = "self" ∧ tailscale ≠ none := by
  refine foldlM_ok_forall (fun earlier d _ hstep => ?_) h
  obtain ⟨forward, hforward, -⟩ := bind_eq_ok.1 hstep
  cases tailscale with
  | some node =>
    obtain ⟨-, -, -, hkind, htarget, -⟩ := compileForward_eq_ok.1 hforward
    exact ⟨hkind, htarget, by simp⟩
  | none =>
    -- Whatever the checks before it say, the look-up of the node fails.
    unfold compileForward at hforward
    obtain ⟨-, hforward⟩ := throw_if_bind_eq_ok.1 hforward
    obtain ⟨-, hforward⟩ := throw_if_bind_eq_ok.1 hforward
    obtain ⟨-, hforward⟩ := throw_if_bind_eq_ok.1 hforward
    obtain ⟨-, hforward⟩ := throw_if_bind_eq_ok.1 hforward
    obtain ⟨-, hforward⟩ := throw_if_bind_eq_ok.1 hforward
    cases hforward

end Silo.Netd
