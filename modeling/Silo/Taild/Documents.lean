import Silo.Go.Base64
import Silo.Taild.Template
/-!
# The document store

Every principal has a directory for its templates and one for its policies, under a name
that is the encoding of the principal; the operator's documents are in two directories of
the configuration. `documentMu` is held over `documentsFor`, so that it is one step on the
directories it opens.

What the host, the audit log, the manager and the tailnet answer to a call is an input of
the call.
-/

namespace Silo.Taild

open Go Lib

/-! ## Peers -/

inductive Action where
  | create
  | read
  | start
  | stop
  | delete
  | shell
  | exec
  | logs
  | files
  | update
  | templateManage
  | restart
  deriving DecidableEq

def Action.name : Action → String
  | .create => "vm.create"
  | .read => "vm.read"
  | .start => "vm.start"
  | .stop => "vm.stop"
  | .delete => "vm.delete"
  | .shell => "vm.shell"
  | .exec => "vm.exec"
  | .logs => "vm.logs"
  | .files => "vm.files"
  | .update => "vm.update"
  | .templateManage => "template.manage"
  | .restart => "vm.restart"

/-- A verified peer. `observed` is whether `ObservedAt` is set. -/
structure Peer where
  principals : List Principal
  nodeID : Str
  observed : Bool
  actions : List Action

def Peer.valid (p : Peer) : Bool :=
  !p.principals.isEmpty && !p.nodeID.isEmpty && p.observed && p.principals.all fun v => (parsePrincipal v).isSome

/-- `authz.Allow` without a machine. -/
def allow (peer : Peer) (action : Action) : Except Failure Unit :=
  if peer.valid = false then .error (failure "forbidden" "verified identity required" 4)
  else if action = .restart then
    require (.stop ∈ peer.actions ∧ .start ∈ peer.actions) (failure "forbidden" "requires vm.stop and vm.start" 4)
  else require (action ∈ peer.actions) (failure "forbidden" ("capability does not grant " ++ action.name) 4)

/-- Who calls. `resolve` is missing without a resolver, and its answer when it fails. -/
structure Caller where
  peer : Peer
  resolve : Option (Option Peer)

def Caller.fresh (c : Caller) : Except Failure Peer :=
  match c.resolve with
  | none => .error (failure "forbidden" "fresh identity resolver required" 4)
  | some none => .error (failure "forbidden" "identity unavailable or changed" 4)
  | some (some p) =>
    if p.valid = false ∨ p.nodeID ≠ c.peer.nodeID then .error (failure "forbidden" "identity unavailable or changed" 4)
    else .ok p

/-! ## Documents -/

inductive Kind where
  | template
  | policy
  | other (text : Str)
  deriving DecidableEq

def Kind.text : Kind → Str
  | .template => "template".toList
  | .policy => "policy".toList
  | .other text => text

inductive Verb where
  | ls
  | show
  | create
  | edit
  | rm
  | validate
  | other
  deriving DecidableEq

def Verb.writes : Verb → Bool
  | .create | .edit | .rm => true
  | _ => false

inductive Tier where
  | yours
  | operator
  deriving DecidableEq

structure BoundVM where
  (name state : Str)
  deriving DecidableEq

structure Document where
  name : Str := []
  tier : Option Tier := none
  owner : Option Principal := none
  kind : Kind
  content : Str := []
  template : Option Template := none
  secrets : Option (List Str × List Str) := none
  boundVMs : List BoundVM := []
  deriving DecidableEq

def limited (d : Document) : Except Failure Document := do
  require (len d.content ≤ documentLimit) (failure "usage" "canonical document exceeds 64KiB" 2)
  return d

def validateDocument (c : Checker) (kind : Kind) (raw : Str) : Except Failure Document :=
  match kind with
  | .template => do
    let t ← c.parseTemplate raw
    let b ← c.yaml.marshal t
    limited { kind, content := b, template := some t }
  | .policy => do
    let p ← c.parseRemotePolicy raw
    limited { kind, content := p.hcl, secrets := some (p.secrets, p.requirements) }
  | .other _ => .error usageDocument

/-! ## Directories -/

/-- A file: whether it is a regular one, and whether it is the daemon's and closed to others. -/
structure File where
  (regular isPrivate : Bool)
  content : Str

abbrev Dir := AssocMap Str File

abbrev Path := List Str

abbrev Store := AssocMap Path Dir

/-- The configured directories, and the directory the host finds under a path: the path itself where names are looked up
by their exact spelling, one for all spellings on a volume that folds case. -/
structure Directories where
  home : Path
  (templatesDir policiesDir : Option Path)
  locate : Path → Path

/-- The principal's directory in `documentPaths`, where the host finds it. -/
def Directories.own (dirs : Directories) (kind : Kind) (owner : Principal) : Path :=
  dirs.locate
    (dirs.home ++ ["taild".toList, "principals".toList, Base64.encode (utf8Bytes owner), kind.text ++ "s".toList])

/-- The operator's directory in `documentPaths`, where the host finds it. -/
def Directories.operator (dirs : Directories) : Kind → Option Path
  | .policy => dirs.policiesDir.map dirs.locate
  | _ => dirs.templatesDir.map dirs.locate

/-- The extension in `documentPaths`. -/
def Kind.ext : Kind → Str
  | .policy => ".hcl".toList
  | _ => ".yaml".toList

inductive Errno where
  | noent
  | exist
  | other
  deriving DecidableEq

def storeFailure : Errno → Failure
  | .noent => failure "not_found" "document not found" 3
  | .exist => failure "conflict" "document already exists" 5
  | .other => failure "unavailable" "document store unavailable or unsafe" 9

def errOperatorReadOnly : Failure := failure "forbidden" "operator documents are read-only" 4

/-- What fails on the host during a call, and the random part of a temporary name. -/
structure Faults where
  openDir : Path → Option Errno
  list : Path → Option Errno
  read : Path → Str → Option Errno
  temp : Str
  /-- Before the document has its name. -/
  write : Option Errno
  tempStays : Bool
  (unlink sync : Option Errno)

structure Handle where
  path : Path
  files : Dir

/-- `documentDir` on a directory with the given content. -/
def documentDir (f : Faults) (path : Path) (dir : Option Dir) (create : Bool) : Except Errno Handle :=
  match f.openDir path with
  | some e => .error e
  | none =>
    match dir with
    | some files => .ok ⟨path, files⟩
    | none => if create then .ok ⟨path, .empty⟩ else .error .noent

def opened : Except Errno Handle → Except Failure (Option Handle)
  | .ok h => .ok (some h)
  | .error .noent => .ok none
  | .error e => .error (storeFailure e)

def openOperator (dirs : Directories) (f : Faults) (s : Store) (kind : Kind) : Except Failure (Option Handle) :=
  match dirs.operator kind with
  | none => .ok none
  | some path => opened (documentDir f path (s.get? path) false)

def readDocument (f : Faults) (h : Handle) (name : Str) (closed : Bool) : Except Errno Str :=
  match f.read h.path name with
  | some e => .error e
  | none =>
    match h.files.get? name with
    | none => .error .noent
    | some file =>
      if file.regular = false ∨ documentLimit < len file.content ∨ (closed ∧ file.isPrivate = false) then
        .error .other
      else .ok file.content

/-- `writeDocument`: the directory after it, and how it ends. -/
def writeDocument (f : Faults) (files : Dir) (name raw : Str) (create : Bool) : Dir × Except Errno Unit :=
  let tmp := ".taild-".toList ++ f.temp
  let file : File := ⟨true, true, raw⟩
  let left := if f.tempStays then files.insert tmp file else files
  if (files.get? tmp).isSome then (files, .error .exist)
  else
    match f.write with
    | some e => (left, .error e)
    | none =>
      if create then
        if (files.get? name).isSome then (left, .error .exist)
        else (left.insert name file, match f.sync with | some e => .error e | none => .ok ())
      else (files.insert name file, match f.sync with | some e => .error e | none => .ok ())

/-- The names among the entries of a directory; a failure when one could not have been written. -/
def stems (ext : Str) : List Str → Except Errno (List Str)
  | [] => .ok []
  | file :: rest =>
    if hasSuffix file ext then
      let n := trimSuffix file ext
      if validName n then do
        let names ← stems ext rest
        return n :: names
      else .error .other
    else stems ext rest

def documentNames (f : Faults) (h : Handle) (ext : Str) : Except Errno (List Str) :=
  match f.list h.path with
  | some e => .error e
  | none => if 4096 < h.files.entries.length then .error .other else stems ext (h.files.entries.map Prod.fst)

/-! ## One step -/

/-- A machine as `List` shows it. -/
structure VM where
  name : Str
  owner : Principal
  (policy state : Str)

structure Surroundings where
  (shutdownPending auditFails : Bool)
  checker : Checker
  faults : Faults
  /-- `List` for the caller. -/
  machines : Except Failure (List VM)

namespace Surroundings

variable (env : Surroundings)

def authorize (peer : Peer) (action : Action) : Except Failure Unit :=
  if env.auditFails then .error (failure "unavailable" "audit unavailable" 9)
  else if action ≠ .read ∧ action ≠ .logs ∧ env.shutdownPending then
    .error (failure "unavailable" "host is shutting down" 9)
  else allow peer action

def load (kind : Kind) (owner : Principal) (h : Option Handle) (name : Str) (tier : Tier) : Except Errno Document :=
  match h with
  | none => .error .noent
  | some h =>
    match readDocument env.faults h (name ++ kind.ext) (tier = .yours) with
    | .error e => .error e
    | .ok raw =>
      match validateDocument env.checker kind raw with
      | .error _ => .error .other
      | .ok d => .ok { d with name, tier := some tier, owner := if tier = .yours then some owner else none }

/-- The documents of one tier, without their contents. -/
def loadAll (kind : Kind) (owner : Principal) (tier : Tier) : Option Handle → Except Failure (List Document)
  | none => .ok []
  | some h => do
    let names ← (documentNames env.faults h kind.ext).mapError storeFailure
    names.mapM fun n => do
      let d ← (env.load kind owner (some h) n tier).mapError storeFailure
      return { d with content := [] }

/-- The order of a listing: by name, the principal's own first. -/
def before (a b : Document) : Bool :=
  if a.name = b.name then a.tier = some .yours || b.tier ≠ some .yours else a.name ≤ b.name

def ls (kind : Kind) (owner : Principal) (own op : Option Handle) : Except Failure (List Document) := do
  let yours ← env.loadAll kind owner .yours own
  let operator ← env.loadAll kind owner .operator op
  return (yours ++ operator).mergeSort before

/-- A create or an edit that has passed the checks of the name. -/
def write (kind : Kind) (owner : Principal) (own : Option Handle) (name raw : Str) (create : Bool) :
    Option Dir × Except Failure (List Document) :=
  match validateDocument env.checker kind raw with
  | .error e => (own.map (·.files), .error e)
  | .ok d =>
    match own with
    | none => (none, .error (storeFailure .other))
    | some h =>
      let written := writeDocument env.faults h.files (name ++ kind.ext) d.content create
      (some written.1,
        match written.2 with
        | .error e => .error (storeFailure e)
        | .ok () => .ok [{ d with name, tier := some .yours, owner := some owner }])

def remove (kind : Kind) (owner : Principal) (own : Option Handle) (name : Str) : Option Dir × Except Failure (List Document) :=
  match env.faults.unlink with
  | some e => (own.map (·.files), .error (storeFailure e))
  | none =>
    (own.map (·.files.erase (name ++ kind.ext)),
      match env.faults.sync with
      | some e => .error (storeFailure e)
      | none => .ok [{ kind, name, tier := some .yours, owner := some owner }])

/-- The part of `documentsFor` after the directories are open: the principal's directory, and the answer. -/
def answer (kind : Kind) (verb : Verb) (name : Str) (owner : Principal) (raw : Str) (own op : Option Handle) :
    Option Dir × Except Failure (List Document) :=
  let same := own.map (·.files)
  if verb = .ls then (same, env.ls kind owner own op)
  else
    match env.load kind owner own name .yours with
    | .ok existing =>
      match verb with
      | .show => (same, .ok [existing])
      | .create => (same, .error (failure "conflict" "document already exists" 5))
      | .edit => env.write kind owner own name raw false
      | .rm => env.remove kind owner own name
      | _ => (same, .error usageDocument)
    | .error .noent =>
      match verb with
      | .show =>
        (same, match env.load kind owner op name .operator with
          | .ok d => .ok [d]
          | .error e => .error (storeFailure e))
      | .create => env.write kind owner own name raw true
      | .edit | .rm =>
        (same, match env.load kind owner op name .operator with
          | .ok _ => .error errOperatorReadOnly
          | .error _ => .error (storeFailure .noent))
      | _ => (same, .error usageDocument)
    | .error e => (same, .error (storeFailure e))

end Surroundings

/-- The directory as it is after a step; one that was not opened stays as it is. -/
def Store.put (s : Store) (path : Path) : Option Dir → Store
  | none => s
  | some files => AssocMap.insert s path files

def documentsFor (dirs : Directories) (env : Surroundings) (s : Store) (kind : Kind) (verb : Verb) (name : Str)
    (owner : Principal) (raw : Str) : Store × Except Failure (List Document) :=
  if (parsePrincipal owner).isSome = false then (s, .error usageDocument)
  else if verb ≠ .ls ∧ validName name = false then (s, .error errDocumentName)
  else
    let path := dirs.own kind owner
    match opened (documentDir env.faults path (s.get? path) verb.writes) with
    | .error e => (s, .error e)
    | .ok own =>
      match openOperator dirs env.faults s kind with
      | .error e => (s.put path (own.map (·.files)), .error e)
      | .ok op =>
        let result := env.answer kind verb name owner raw own op
        (s.put path result.1, result.2)

/-! ## Calls -/

def selectedOwner (p : Peer) (owner : Principal) : Except Failure Principal :=
  if owner = [] then
    match p.principals with
    | [principal] => .ok principal
    | _ => .error (failure "usage" "multi-tag peers require --owner tag:<name>" 2)
  else if owner.isTag = false ∨ owner ∉ p.principals then
    .error (failure "forbidden" "owner must be a verified peer tag" 4)
  else .ok owner

/-- A call of `Documents`. -/
structure Call where
  caller : Caller
  kind : Kind
  verb : Verb
  name : Str
  owner : Principal
  raw : Str
  env : Surroundings

/-- The peer a call acts for: a write asks for a fresh identity. -/
def Call.acting (c : Call) : Except Failure Peer := if c.verb.writes then c.caller.fresh else .ok c.caller.peer

def Call.action (c : Call) : Action := if c.verb.writes then .templateManage else .read

def Call.documentsFor (c : Call) (dirs : Directories) (s : Store) (principal : Principal) :
    Store × Except Failure (List Document) :=
  Taild.documentsFor dirs c.env s c.kind c.verb c.name principal c.raw

/-- The listing of every principal of the peer, `first` being the first of them. -/
def Call.listAll (c : Call) (dirs : Directories) (first : Principal) :
    List Principal → Store → List Document → List Document → Store × Except Failure (List Document)
  | [], s, yours, operator => (s, .ok (yours ++ operator))
  | principal :: rest, s, yours, operator =>
    match c.documentsFor dirs s principal with
    | (s, .error e) => (s, .error e)
    | (s, .ok docs) =>
      c.listAll dirs first rest s (yours ++ docs.filter (·.tier = some .yours))
        (operator ++ if principal = first then docs.filter (·.tier ≠ some .yours) else [])

/-- The machines that refer to the policy, added to the first document. -/
def bindVMs (name : Str) (principal : Principal) (vms : List VM) : List Document → List Document
  | [] => []
  | d :: docs =>
    { d with boundVMs := d.boundVMs ++
        (vms.filter fun vm => vm.policy = name ∧ vm.owner = principal).map fun vm => ⟨vm.name, vm.state⟩ } :: docs

/-- The end of a call: a policy's edit and removal report the machines that are bound to it. -/
def Call.report (c : Call) (principal : Principal) (docs : List Document) : Except Failure (List Document) :=
  if c.kind = .policy ∧ (c.verb = .edit ∨ c.verb = .rm) then c.env.machines.map (bindVMs c.name principal · docs)
  else .ok docs

def Call.documents (c : Call) (dirs : Directories) (s : Store) : Store × Except Failure (List Document) :=
  match c.acting with
  | .error e => (s, .error e)
  | .ok p =>
    match c.env.authorize p c.action with
    | .error e => (s, .error e)
    | .ok () =>
      if c.kind ≠ .template ∧ c.kind ≠ .policy then (s, .error usageDocument)
      else if c.verb = .validate then (s, (validateDocument c.env.checker c.kind c.raw).map fun d => [d])
      else if c.verb = .ls ∧ c.owner = [] ∧ 1 < p.principals.length then
        c.listAll dirs (p.principals.headD []) p.principals s [] []
      else
        match selectedOwner p c.owner with
        | .error e => (s, .error e)
        | .ok principal =>
          match c.documentsFor dirs s principal with
          | (s, .error e) => (s, .error e)
          | (s, .ok docs) => (s, c.report principal docs)

/-- The store after a sequence of calls. -/
def run (dirs : Directories) (s : Store) (calls : List Call) : Store :=
  calls.foldl (fun s c => (c.documents dirs s).1) s

end Silo.Taild
