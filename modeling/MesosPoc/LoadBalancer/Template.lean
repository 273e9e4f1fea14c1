import MesosPoc.Python
import Mathlib.Data.Nat.Digits.Defs

namespace MesosPoc.LoadBalancer

-- loadbalancer.py, classes EndPoint and Service.
structure EndPoint where
  address : Str
  port : Nat
deriving DecidableEq

structure Service where
  name : Str
  endpoints : List EndPoint
deriving DecidableEq

-- The lines of a HAProxy proxy section that decide where a request goes.
inductive Line
  | acl (name pathBeg : Str)
  | useBackend (backend condition : Str)
  | defaultBackend (backend : Str)
  | reqrep (search replacement : Str)
  | server (name address : Str)
deriving DecidableEq

inductive Section
  | defaults
  | listen
  | frontend
  | backend
deriving DecidableEq

structure Proxy where
  kind : Section
  name : Str
  lines : List Line
deriving DecidableEq

def decimal (n : Nat) : Str := Nat.toDigits 10 n

-- ${...} of the name is Mako text: a Python string is inserted as it is.
def aclPattern (name : Str) : Str := '/' :: name

def frontendLines (item : Service) : List Line :=
  [.acl item.name (aclPattern item.name), .useBackend item.name item.name]

def rewriteSearch (name : Str) : Str :=
  "^([^\\ :]*)\\ /".toList ++ name ++ "[/]?(.*)".toList

def rewriteReplacement : Str := "\\1\\ /\\2".toList

def serverAddress (endpoint : EndPoint) : Str :=
  endpoint.address ++ ":".toList ++ decimal endpoint.port

-- The rewrite rule stands inside the loop over the endpoints, once a server.
def endpointLines (name : Str) (endpoint : EndPoint) (index : Nat) : List Line :=
  [.reqrep (rewriteSearch name) rewriteReplacement,
    .server (name ++ decimal index) (serverAddress endpoint)]

def backendSection (item : Service) : Proxy where
  kind := .backend
  name := item.name
  lines := (item.endpoints.zipIdx.map fun (endpoint, index) =>
    endpointLines item.name endpoint index).flatten

def defaultBackendName : Str := "default-backend".toList

def frontendName : Str := "httpfrontend".toList

def defaultsSection : Proxy where
  kind := .defaults
  name := []
  lines := [.defaultBackend defaultBackendName]

def defaultBackendSection : Proxy where
  kind := .backend
  name := defaultBackendName
  lines := [.server "localhost".toList "127.0.0.1:8080".toList]

def statsSection : Proxy where
  kind := .listen
  name := "stats".toList
  lines := []

def frontendSection (items : List Service) : Proxy where
  kind := .frontend
  name := frontendName
  lines := (items.map frontendLines).flatten

-- template.cfg rendered with items: the sections in the order of the file.
def render (items : List Service) : List Proxy :=
  [defaultsSection, defaultBackendSection, statsSection, frontendSection items] ++
    items.map backendSection

-- An ACL holds when one of its path_beg patterns starts the path.
def aclHolds (lines : List Line) (name path : Str) : Bool :=
  lines.any fun
    | .acl declared pattern => declared == name && pattern.isPrefixOf path
    | _ => false

-- The first use_backend line whose ACL holds wins.
def switchingRule (lines : List Line) (path : Str) : List Line → Option Str
  | [] => none
  | .useBackend backend condition :: rest =>
      if aclHolds lines condition path then some backend else switchingRule lines path rest
  | _ :: rest => switchingRule lines path rest

def defaultRule : List Line → Option Str
  | [] => none
  | .defaultBackend backend :: _ => some backend
  | _ :: rest => defaultRule rest

def proxyLines (config : List Proxy) (kind : Section) (name : Str) : List Line :=
  ((config.find? fun proxy => proxy.kind == kind && proxy.name == name).map Proxy.lines).getD []

-- The backend HAProxy sends a request path to. A frontend without a
-- default_backend of its own inherits the one of the defaults section.
def route (config : List Proxy) (path : Str) : Option Str :=
  let lines := proxyLines config .frontend frontendName
  (switchingRule lines path lines).or
    ((defaultRule lines).or (defaultRule (proxyLines config .defaults [])))

-- Kubernetes names a service with a DNS label.
def IsDnsLabel (name : Str) : Prop :=
  0 < name.length ∧ name.length ≤ 63 ∧
    (∀ c ∈ name, c.isLower ∨ c.isDigit ∨ c = '-') ∧ name.head? ≠ some '-' ∧ name.getLast? ≠ some '-'

instance decidableIsDnsLabel (name : Str) : Decidable (IsDnsLabel name) :=
  have : Decidable (∀ c ∈ name, c.isLower ∨ c.isDigit ∨ c = '-') := List.decidableBAll _ name
  inferInstanceAs (Decidable (_ ∧ _))

-- The services the API server can list: valid names, each once, in any order.
structure ServiceList where
  items : List Service
  labels : ∀ item ∈ items, IsDnsLabel item.name
  distinct : (items.map Service.name).Nodup

def ServiceList.names (services : ServiceList) : List Str :=
  services.items.map Service.name

-- The part of a path between its first two slashes.
def firstSegment : Str → Option Str
  | '/' :: rest => some (rest.takeWhile (· != '/'))
  | _ => none

end MesosPoc.LoadBalancer
