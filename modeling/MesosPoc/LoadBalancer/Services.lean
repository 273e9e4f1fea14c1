import MesosPoc.Json
import MesosPoc.Settles
import MesosPoc.LoadBalancer.Template

namespace MesosPoc.LoadBalancer

open Python

-- The objects that loadservices builds, with the values of the API as they are.
structure RawEndPoint where
  address : Json
  port : Json

structure RawService where
  name : Json
  endpoints : List RawEndPoint

-- urllib.quote

def isSafe (c : Char) : Bool :=
  c.isAlphanum || c = '_' || c = '.' || c = '-' || c = '/'

def percent (c : Char) : Str :=
  ['%', (Nat.digitChar (c.toNat / 16)).toUpper, (Nat.digitChar (c.toNat % 16)).toUpper]

-- A character outside ASCII is not a key of the table of quoted characters.
def quoteText : Str → Except PyError Str
  | [] => .ok []
  | c :: rest =>
      if isSafe c then (quoteText rest).map (c :: ·)
      else if c.toNat < 0x80 then (quoteText rest).map (percent c ++ ·)
      else .error (.keyError (c :: rest.take (((Json.utf8Tail c.toNat).map Prod.fst).getD 0)))

-- The text that quote(j) gives in a format. What is false is not quoted.
def quote (j : Json) : Except PyError Str :=
  match j with
  | .null => .error .typeError
  | .str s => quoteText s
  | .bool _ => if j.truthy then .error .attributeError else .ok "False".toList
  | .int _ => if j.truthy then .error .attributeError else .ok "0".toList
  | .float literal =>
      if j.truthy then .error .attributeError
      else .ok (if literal.head? = some '-' then "-0.0".toList else "0.0".toList)
  | .arr _ => if j.truthy then .error .attributeError else .ok "[]".toList
  | .obj _ => if j.truthy then .error .attributeError else .ok "\x7b\x7d".toList

-- key in j
def contains (j : Json) (key : Str) : Except PyError Bool :=
  match j with
  | .obj pairs => .ok (Json.lookup key pairs).isSome
  | .arr items => .ok (items.any fun item => match item with | .str s => s = key | _ => false)
  | .str s => .ok (decide (key <:+: s))
  | _ => .error .typeError

def servicesUrl (server : Str) : Str :=
  "http://".toList ++ server ++ "/api/v1/namespaces/default/services".toList

def endpointsUrl (server name : Str) : Str :=
  "http://".toList ++ server ++ "/api/v1/namespaces/default/endpoints/".toList ++ name

section Load

-- requests.get(url).content
variable (get : Str → Except PyError Str)

-- When the request fails, finally uses a name that is not bound.
def loadjson (url : Str) : Except PyError Json :=
  match get url with
  | .error _ => .error (.unboundLocalError "request".toList)
  | .ok content => Json.loads content

def forEach {α : Type} (j : Json) (body : Json → Except PyError (List α)) : Except PyError (List α) := do
  let items ← j.iterate
  collect body items

def portEndpoints (address port : Json) : Except PyError (List RawEndPoint) := do
  let ip ← address.getItem "ip".toList
  let number ← port.getItem "port".toList
  return [⟨ip, number⟩]

def addressEndpoints (subset address : Json) : Except PyError (List RawEndPoint) := do
  let ports ← subset.getItem "ports".toList
  forEach ports (portEndpoints address)

def subsetEndpoints (subset : Json) : Except PyError (List RawEndPoint) := do
  let addresses ← subset.getItem "addresses".toList
  forEach addresses (addressEndpoints subset)

def loadEndpoints (jsonendpoint : Json) : Except PyError (List RawEndPoint) := do
  let subsets ← jsonendpoint.getItem "subsets".toList
  forEach subsets subsetEndpoints

-- The body of the loop over the services.
def loadService (server : Str) (s : Json) : Except PyError (List RawService) := do
  let metadata ← s.getItem "metadata".toList
  if ← contains metadata "name".toList then
    let name ← metadata.getItem "name".toList
    let quoted ← quote name
    let jsonendpoint ← loadjson get (endpointsUrl server quoted)
    let endpoints ← loadEndpoints jsonendpoint
    return [⟨name, endpoints⟩]
  else return []

def loadservices (server : Str) : Except PyError (List RawService) := do
  let jsonservices ← loadjson get (servicesUrl server)
  let items ← jsonservices.getItem "items".toList
  forEach items (loadService get server)

end Load

end MesosPoc.LoadBalancer
