import MesosPoc.LoadBalancer.Services
import MesosPoc.Json.Equality
import MesosPoc.Json.Fields

namespace MesosPoc.LoadBalancer

open Json

-- What the v1 API says of the services, whatever else its objects hold. A subset
-- without a ready pod has no addresses.
structure Subset where
  addresses : Option (List Str)
  ports : Option (List Nat)
deriving DecidableEq

inductive Answer
  | subsets (list : List Subset)
  | null
  | notFound
deriving DecidableEq

structure Api where
  services : List (Option Str)
  endpoints : Str → Answer
  labels : ∀ name, some name ∈ services → IsDnsLabel name

def Api.names (api : Api) : List Str :=
  api.services.filterMap id

def StandsAddress (j : Json) (ip : Str) : Prop :=
  j.getItem "ip".toList = .ok (.str ip)

def StandsPort (j : Json) (port : Nat) : Prop :=
  j.getItem "port".toList = .ok (.int port)

structure StandsSubset (j : Json) (subset : Subset) : Prop where
  addresses : HasField j "addresses".toList (IsArray StandsAddress) subset.addresses
  ports : HasField j "ports".toList (IsArray StandsPort) subset.ports

-- A Status object has no subsets.
def StandsAnswer (j : Json) : Answer → Prop
  | .subsets list => HasField j "subsets".toList (IsArray StandsSubset) (some list)
  | .null => j.getItem "subsets".toList = .ok .null
  | .notFound => HasField j "subsets".toList (IsArray StandsSubset) none

def StandsService (j : Json) (name : Option Str) : Prop :=
  ∃ pairs, j.getItem "metadata".toList = .ok (.obj pairs) ∧
    Json.lookup "name".toList pairs = name.map Json.str

-- The answers to the requests of one reload.
structure Serves (get : Str → Except PyError Str) (server : Str) (api : Api) : Prop where
  list : ∃ content j items, get (servicesUrl server) = .ok content ∧ Json.loads content = .ok j ∧
    j.getItem "items".toList = .ok (.arr items) ∧ List.Forall₂ StandsService items api.services
  answers : ∀ name ∈ api.names, ∃ content j, get (endpointsUrl server name) = .ok content ∧
    Json.loads content = .ok j ∧ StandsAnswer j (api.endpoints name)

-- The endpoints of a service: over all subsets, ready addresses and ports.
def Subset.endpoints (subset : Subset) : List EndPoint :=
  (subset.addresses.getD []).flatMap fun ip => (subset.ports.getD []).map fun port => ⟨ip, port⟩

def Answer.endpoints : Answer → List EndPoint
  | .subsets list => list.flatMap Subset.endpoints
  | .null => []
  | .notFound => []

def Api.expected (api : Api) : List Service :=
  api.names.map fun name => ⟨name, (api.endpoints name).endpoints⟩

def EndPoint.raw (endpoint : EndPoint) : RawEndPoint :=
  ⟨.str endpoint.address, .int endpoint.port⟩

def Service.raw (service : Service) : RawService :=
  ⟨.str service.name, service.endpoints.map EndPoint.raw⟩

-- A subset whose addresses and ports are there when they are asked for.
def Subset.Complete (subset : Subset) : Prop :=
  ∃ ips, subset.addresses = some ips ∧ (ips = [] ∨ subset.ports.isSome)

def Answer.Complete : Answer → Prop
  | .subsets list => ∀ subset ∈ list, subset.Complete
  | .null => False
  | .notFound => False

section Endpoints

theorem portEndpoints_settles (address port : Json) (ip : Str) (number : Nat)
    (ha : StandsAddress address ip) (hp : StandsPort port number) :
    Settles (portEndpoints address port) True [EndPoint.raw ⟨ip, number⟩] :=
  Settles.after ha (Settles.after hp (Settles.ok _))

theorem addressEndpoints_settles (j address : Json) (ip : Str) (ports : Option (List Nat))
    (ha : StandsAddress address ip) (hports : HasField j "ports".toList (IsArray StandsPort) ports) :
    Settles (addressEndpoints j address) (ports.isSome = true)
      ((ports.getD []).map fun port => EndPoint.raw ⟨ip, port⟩) := by
  cases ports with
  | none => exact (Settles.raised hports).congr (by simp)
  | some numbers =>
      obtain ⟨_, hget, items, rfl, hitems⟩ := hports
      have hloop : Settles (collect (portEndpoints address) items) (∀ port ∈ numbers, True)
          (numbers.flatMap fun port => [EndPoint.raw ⟨ip, port⟩]) :=
        Settles.collect hitems fun port number _ hp => portEndpoints_settles address port ip number ha hp
      rw [← List.map_eq_flatMap] at hloop
      exact (Settles.after hget hloop).congr (by simp)

theorem subsetEndpoints_settles (j : Json) (subset : Subset) (h : StandsSubset j subset) :
    Settles (subsetEndpoints j) subset.Complete (subset.endpoints.map EndPoint.raw) := by
  obtain ⟨addresses, ports⟩ := subset
  obtain ⟨haddresses, hports⟩ := h
  cases addresses with
  | none => exact (Settles.raised haddresses).congr (by simp [Subset.Complete])
  | some ips =>
      obtain ⟨_, hget, items, rfl, hitems⟩ := haddresses
      have hloop : Settles (collect (addressEndpoints j) items) (∀ ip ∈ ips, ports.isSome = true)
          (ips.flatMap fun ip => (ports.getD []).map fun port => EndPoint.raw ⟨ip, port⟩) :=
        Settles.collect hitems fun address ip _ ha => addressEndpoints_settles j address ip ports ha hports
      have hvalue : (Subset.endpoints ⟨some ips, ports⟩).map EndPoint.raw =
          ips.flatMap fun ip => (ports.getD []).map fun port => EndPoint.raw ⟨ip, port⟩ := by
        simp only [Subset.endpoints, Option.getD_some, List.map_flatMap, List.map_map]
        rfl
      have hgood : (∀ ip ∈ ips, ports.isSome = true) ↔ Subset.Complete ⟨some ips, ports⟩ := by
        cases ips with
        | nil => simp [Subset.Complete]
        | cons ip rest =>
            have hall : (∀ ip' ∈ ip :: rest, ports.isSome = true) ↔ ports.isSome = true :=
              ⟨fun hp => hp ip List.mem_cons_self, fun hp _ _ => hp⟩
            rw [hall]
            simp [Subset.Complete]
      rw [hvalue]
      exact (Settles.after hget hloop).congr hgood

theorem loadEndpoints_settles (j : Json) (answer : Answer) (h : StandsAnswer j answer) :
    Settles (loadEndpoints j) answer.Complete (answer.endpoints.map EndPoint.raw) := by
  cases answer with
  | null => exact Settles.after h (Settles.error PyError.typeError _)
  | notFound => exact Settles.raised h
  | subsets list =>
      obtain ⟨_, hget, items, rfl, hitems⟩ := h
      have hloop : Settles (collect subsetEndpoints items) (∀ subset ∈ list, subset.Complete)
          (list.flatMap fun subset => subset.endpoints.map EndPoint.raw) :=
        Settles.collect hitems fun item subset _ hs => subsetEndpoints_settles item subset hs
      rw [← List.map_flatMap] at hloop
      exact Settles.after hget hloop

end Endpoints

section Services

theorem quoteText_label (name : Str) (h : ∀ c ∈ name, c.isLower ∨ c.isDigit ∨ c = '-') :
    quoteText name = .ok name := by
  induction name with
  | nil => rfl
  | cons c rest ih =>
      obtain ⟨hc, hrest⟩ := List.forall_mem_cons.mp h
      have hsafe : isSafe c = true := by
        have halphanum : c.isAlphanum = ((c.isUpper || c.isLower) || c.isDigit) := rfl
        rcases hc with hl | hd | rfl
        · simp [isSafe, halphanum, hl]
        · simp [isSafe, halphanum, hd]
        · decide
      rw [quoteText, if_pos hsafe, ih hrest]
      rfl

variable {get : Str → Except PyError Str} {server : Str} {api : Api}

theorem mem_names (api : Api) (name : Str) : name ∈ api.names ↔ some name ∈ api.services := by
  simp [Api.names]

theorem loadjson_ok {url content : Str} {j : Json} (hget : get url = .ok content)
    (hj : Json.loads content = .ok j) : loadjson get url = .ok j := by
  rw [loadjson, hget]
  exact hj

theorem loadService_settles (h : Serves get server api) (item : Json) (name : Option Str)
    (hname : name ∈ api.services) (hitem : StandsService item name) :
    Settles (loadService get server item) (∀ n ∈ name, (api.endpoints n).Complete)
      (name.toList.map fun n => Service.raw ⟨n, (api.endpoints n).endpoints⟩) := by
  obtain ⟨pairs, hmetadata, hlookup⟩ := hitem
  have hcontains : contains (.obj pairs) "name".toList = .ok name.isSome := by
    rw [contains, hlookup, Option.isSome_map]
  apply Settles.after hmetadata
  apply Settles.after hcontains
  cases name with
  | none => exact (Settles.ok []).congr (by simp)
  | some n =>
      have hfield : (Json.obj pairs).getItem "name".toList = .ok (.str n) := by
        rw [Json.getItem, hlookup]
        rfl
      have hquote : quote (.str n) = .ok n := quoteText_label n (api.labels n hname).2.2.1
      obtain ⟨content, j, hget, hj, hanswer⟩ := h.answers n ((mem_names api n).mpr hname)
      have hendpoints := (loadEndpoints_settles j (api.endpoints n) hanswer).map fun endpoints =>
        [(⟨.str n, endpoints⟩ : RawService)]
      have hall : (api.endpoints n).Complete ↔ ∀ n' ∈ some n, (api.endpoints n').Complete := by simp
      exact (Settles.after hfield (Settles.after hquote (Settles.after (loadjson_ok hget hj)
        hendpoints))).congr hall

-- loadservices gives every named service with its endpoints exactly when no named
-- service lacks subsets, and no subset its addresses.
theorem loadservices_iff (get : Str → Except PyError Str) (server : Str) (api : Api)
    (h : Serves get server api) :
    loadservices get server = .ok (api.expected.map Service.raw) ↔
      ∀ name ∈ api.names, (api.endpoints name).Complete := by
  obtain ⟨content, j, items, hget, hj, hfield, hitems⟩ := h.list
  have hloop : Settles (collect (loadService get server) items)
      (∀ name ∈ api.services, ∀ n ∈ name, (api.endpoints n).Complete)
      (api.services.flatMap fun name =>
        name.toList.map fun n => Service.raw ⟨n, (api.endpoints n).endpoints⟩) :=
    Settles.collect hitems fun item name hm hs => loadService_settles h item name hm hs
  have hvalue : api.expected.map Service.raw = api.services.flatMap fun name =>
      name.toList.map fun n => Service.raw ⟨n, (api.endpoints n).endpoints⟩ := by
    rw [Api.expected, Api.names, List.map_map]
    induction api.services with
    | nil => rfl
    | cons name rest ih =>
        cases name with
        | none => exact ih
        | some n => exact congrArg _ ih
  have hgood : (∀ name ∈ api.services, ∀ n ∈ name, (api.endpoints n).Complete) ↔
      ∀ name ∈ api.names, (api.endpoints name).Complete := by
    constructor
    · intro hall name hm
      exact hall (some name) ((mem_names api name).mp hm) name rfl
    · intro hall name hm n hn
      exact hall n ((mem_names api n).mpr (hn ▸ hm))
  rw [hvalue]
  exact ((Settles.after (loadjson_ok hget hj) (Settles.after hfield hloop)).congr hgood).ok_iff

end Services

-- Two services, the first with one ready pod.

def apiServer : Str := "10.0.0.9:8080".toList

def namedItem (name : Str) : Json :=
  .obj [("metadata".toList, .obj [("name".toList, .str name)])]

def listing : Json :=
  .obj [("items".toList, .arr [namedItem "web".toList, namedItem "db".toList])]

def listingText : Str :=
  "\x7b\"items\":[\x7b\"metadata\":\x7b\"name\":\"web\"\x7d\x7d,".toList ++
    "\x7b\"metadata\":\x7b\"name\":\"db\"\x7d\x7d]\x7d".toList

-- The one subset of a service, whose pod is ready or not yet.
def subsetOf (addresses : Str) : Json :=
  .obj [("subsets".toList, .arr [.obj [(addresses, .arr [.obj [("ip".toList, .str "10.0.0.1".toList)]]),
    ("ports".toList, .arr [.obj [("port".toList, .int 80)]])]])]

def subsetText (addresses : Str) : Str :=
  "\x7b\"subsets\":[\x7b\"".toList ++ addresses ++ "\":[\x7b\"ip\":\"10.0.0.1\"\x7d],".toList ++
    "\"ports\":[\x7b\"port\":80\x7d]\x7d]\x7d".toList

def readyAnswer : Answer :=
  .subsets [⟨some ["10.0.0.1".toList], some [80]⟩]

def startingAnswer : Answer :=
  .subsets [⟨none, some [80]⟩]

def replies (db : Str) (url : Str) : Except PyError Str :=
  if url = servicesUrl apiServer then .ok listingText
  else if url = endpointsUrl apiServer "web".toList then .ok (subsetText "addresses".toList)
  else .ok db

def twoServices (db : Answer) : Api where
  services := [some "web".toList, some "db".toList]
  endpoints name := if name = "web".toList then readyAnswer else db
  labels := by
    intro name hm
    simp only [List.mem_cons, Option.some.injEq, List.not_mem_nil, or_false] at hm
    rcases hm with rfl | rfl
    · decide
    · decide

theorem subsetOf_ready : StandsAnswer (subsetOf "addresses".toList) readyAnswer :=
  ⟨_, rfl, _, rfl, .cons ⟨⟨_, rfl, _, rfl, .cons rfl .nil⟩, ⟨_, rfl, _, rfl, .cons rfl .nil⟩⟩ .nil⟩

theorem subsetOf_starting : StandsAnswer (subsetOf "notReadyAddresses".toList) startingAnswer :=
  ⟨_, rfl, _, rfl, .cons ⟨rfl, ⟨_, rfl, _, rfl, .cons rfl .nil⟩⟩ .nil⟩

theorem loads_subsetText_ready :
    Json.loads (subsetText "addresses".toList) = .ok (subsetOf "addresses".toList) :=
  Json.loads_of_loadsTo _ _ (by decide +kernel)

theorem replies_serves (text : Str) (j : Json) (db : Answer) (hj : Json.loads text = .ok j)
    (hdb : StandsAnswer j db) : Serves (replies text) apiServer (twoServices db) where
  list := by
    have hlisting : Json.loads listingText = .ok listing := Json.loads_of_loadsTo _ _ (by decide +kernel)
    exact ⟨listingText, listing, _, rfl, hlisting, rfl,
      .cons ⟨_, rfl, rfl⟩ (.cons ⟨_, rfl, rfl⟩ .nil)⟩
  answers := by
    intro name hm
    have hnames : name = "web".toList ∨ name = "db".toList := by
      simpa [twoServices, Api.names] using hm
    rcases hnames with rfl | rfl
    · exact ⟨_, _, rfl, loads_subsetText_ready, subsetOf_ready⟩
    · exact ⟨text, j, rfl, hj, hdb⟩

theorem ready_services_loaded :
    Serves (replies (subsetText "addresses".toList)) apiServer (twoServices readyAnswer) ∧
      (loadservices (replies (subsetText "addresses".toList)) apiServer =
          .ok ((twoServices readyAnswer).expected.map Service.raw) ↔
        ∀ name ∈ (twoServices readyAnswer).names, ((twoServices readyAnswer).endpoints name).Complete) := by
  have hserves := replies_serves _ _ readyAnswer loads_subsetText_ready subsetOf_ready
  exact ⟨hserves, loadservices_iff _ apiServer (twoServices readyAnswer) hserves⟩

-- A service whose pods are still starting keeps every other one out.
theorem starting_service_aborts :
    Serves (replies (subsetText "notReadyAddresses".toList)) apiServer (twoServices startingAnswer) ∧
      loadservices (replies (subsetText "notReadyAddresses".toList)) apiServer ≠
        .ok ((twoServices startingAnswer).expected.map Service.raw) := by
  have hserves := replies_serves _ _ startingAnswer
    (Json.loads_of_loadsTo (subsetText "notReadyAddresses".toList) (subsetOf "notReadyAddresses".toList)
      (by decide +kernel))
    subsetOf_starting
  refine ⟨hserves, ?_⟩
  have hfails : (loadservices (replies (subsetText "notReadyAddresses".toList)) apiServer).isOk = false := by
    decide +kernel
  intro h
  rw [h] at hfails
  cases hfails

end MesosPoc.LoadBalancer
