import MesosPoc.LoadBalancer.Services.Theorems
import MesosPoc.LoadBalancer.Rewriting.Stripping
import MesosPoc.LoadBalancer.Sections

namespace MesosPoc.LoadBalancer

-- Where HAProxy sends a request, and the path that arrives there.
structure Destination where
  servers : List Str
  path : Str
deriving DecidableEq

def Line.serverTarget : Line → Option Str
  | .server _ address => some address
  | _ => none

-- The lines of the first backend section with the name the switching rules give.
def destination (config : List Proxy) (request : Request) : Option Destination :=
  (route config request.path).map fun backend =>
    let lines := proxyLines config .backend backend
    ⟨lines.filterMap Line.serverTarget, linePath (rewrite lines request.line)⟩

-- What the gateway is for, in the words of the API: the first service whose name
-- starts the path, and its ready endpoints.
def Api.serving (api : Api) (text : Str) : Option Service :=
  api.expected.find? fun item => item.name.isPrefixOf text

def fallbackServers : List Str := ["127.0.0.1:8080".toList]

def Api.dispatch (api : Api) (text : Str) : Destination :=
  match api.serving text with
  | some item => ⟨item.endpoints.map serverAddress, '/' :: (strip item.name)^[item.endpoints.length] text⟩
  | none => ⟨fallbackServers, '/' :: text⟩

-- HAProxy starts with the rendered file.
structure Api.Renderable (api : Api) : Prop where
  distinct : api.names.Nodup
  free : ∀ name ∈ api.names, name ∉ templateNames

theorem expected_names (api : Api) : api.expected.map Service.name = api.names := by
  rw [Api.expected, List.map_map]
  exact List.map_id api.names

theorem expected_label (api : Api) (item : Service) (hm : item ∈ api.expected) : IsDnsLabel item.name := by
  apply api.labels
  rw [← mem_names, ← expected_names]
  exact List.mem_map_of_mem hm

theorem serverTargets_backendSection (item : Service) :
    (backendSection item).lines.filterMap Line.serverTarget = item.endpoints.map serverAddress := by
  have hentries : item.endpoints.map serverAddress =
      item.endpoints.zipIdx.map fun entry => serverAddress entry.1 := by
    rw [← List.zipIdx_map_fst 0 item.endpoints, List.map_map, List.zipIdx_map_fst]
    rfl
  rw [hentries, backendSection]
  induction item.endpoints.zipIdx with
  | nil => rfl
  | cons entry rest ih =>
      rw [List.map_cons, List.flatten_cons, List.filterMap_append, ih]
      rfl

-- No other section of the file is a backend of the service's name.
theorem proxyLines_backend (items : List Service) (item : Service) (hm : item ∈ items)
    (hd : (items.map Service.name).Nodup) (hf : item.name ∉ templateNames) :
    proxyLines (render items) .backend item.name = (backendSection item).lines := by
  have hfixed : ([defaultsSection, defaultBackendSection, statsSection, frontendSection items].find?
      fun proxy => proxy.kind == .backend && proxy.name == item.name) = none := by
    rw [List.find?_eq_none]
    intro proxy hp hcond
    simp only [Bool.and_eq_true, beq_iff_eq] at hcond
    obtain ⟨hk, hname⟩ := hcond
    simp only [List.mem_cons, List.not_mem_nil, or_false] at hp
    rcases hp with rfl | rfl | rfl | rfl
    · cases hk
    · exact hf (hname ▸ List.mem_cons_self)
    · cases hk
    · cases hk
  have hitems : ((items.map backendSection).find?
      fun proxy => proxy.kind == .backend && proxy.name == item.name) = some (backendSection item) := by
    clear hfixed hf
    induction items with
    | nil => cases hm
    | cons first rest ih =>
        rw [List.map_cons, List.nodup_cons] at hd
        obtain ⟨hfirst, hrest⟩ := hd
        rcases List.mem_cons.mp hm with rfl | hm
        · simp [backendSection]
        · have hne : first.name ≠ item.name := by
            intro heq
            exact hfirst (heq ▸ List.mem_map_of_mem hm)
          rw [List.map_cons, List.find?_cons_of_neg, ih hm hrest]
          simp [backendSection, hne]
  rw [proxyLines, render, List.find?_append, hfixed, Option.none_or, hitems]
  rfl

-- The default backend is written before the backends of the services.
theorem proxyLines_defaultBackend (items : List Service) :
    proxyLines (render items) .backend defaultBackendName = defaultBackendSection.lines := rfl

theorem route_expected (api : Api) (text : Str) :
    route (render api.expected) ('/' :: text) =
      some (((api.serving text).map Service.name).getD defaultBackendName) := by
  have hfind : ((api.expected.map Service.name).find? fun name => (aclPattern name).isPrefixOf ('/' :: text)) =
      (api.serving text).map Service.name := by
    rw [List.find?_map, Api.serving]
    rfl
  rw [route_render, hfind]
  cases api.serving text with
  | none => rfl
  | some item => rfl

-- The configuration of an API state does what the API state says.
theorem destination_expected (api : Api) (hr : api.Renderable) (request : Request) (text : Str)
    (hp : request.path = '/' :: text) :
    destination (render api.expected) request = some (api.dispatch text) := by
  rw [destination, hp, route_expected, Option.map_some, Api.dispatch]
  cases hs : api.serving text with
  | none =>
      have hblank : ' ' ∉ '/' :: text := fun hm => (request.pathChars ' ' (hp ▸ hm)).1 rfl
      have hline : rewrite defaultBackendSection.lines request.line = request.line := rfl
      simp only [Option.map_none, Option.getD_none, proxyLines_defaultBackend, hline]
      rw [Request.line, hp, linePath_line request.method _ request.version request.methodToken hblank]
      rfl
  | some item =>
      have hm : item ∈ api.expected := List.mem_of_find?_eq_some hs
      have hname : item.name ∈ api.names := by
        rw [← expected_names]
        exact List.mem_map_of_mem hm
      have hdistinct : (api.expected.map Service.name).Nodup := by
        rw [expected_names]
        exact hr.distinct
      have hlines := proxyLines_backend api.expected item hm hdistinct (hr.free item.name hname)
      have hpath := forwardedPath_eq item request text (expected_label api item hm) hp
      simp only [Option.map_some, Option.getD_some, hlines, serverTargets_backendSection]
      rw [← forwardedPath, hpath]

theorem expected_raw (api : Api) :
    api.expected.map Service.raw = api.services.flatMap fun name =>
      name.toList.map fun n => Service.raw ⟨n, (api.endpoints n).endpoints⟩ := by
  rw [Api.expected, Api.names, List.map_map]
  induction api.services with
  | nil => rfl
  | cons name rest ih =>
      cases name with
      | none => exact ih
      | some n => exact congrArg _ ih

theorem loadservices_complete {get : Str → Except PyError Str} {server : Str} {api : Api}
    (h : Serves get server api) (hc : ∀ name ∈ api.names, (api.endpoints name).Complete) :
    loadservices get server = .ok (api.expected.map Service.raw) := by
  obtain ⟨content, j, items, hget, hj, hfield, hitems⟩ := h.list
  have hloop := Settles.collect hitems fun item name hm hs => loadService_settles h item name hm hs
  have hall : ∀ name ∈ api.services, ∀ n ∈ name, (api.endpoints n).Complete := by
    intro name hm n hn
    obtain rfl : name = some n := hn
    exact hc n ((mem_names api n).mpr hm)
  rw [expected_raw]
  exact (Settles.after (loadjson_ok hget hj) (Settles.after hfield hloop)).ok_iff.mpr hall

-- From the answers of the API server to a request of a client: the file that is
-- rendered from what loadservices gives sends it where the API says.
theorem gateway_dispatches (get : Str → Except PyError Str) (server : Str) (api : Api)
    (hserves : Serves get server api) (hc : ∀ name ∈ api.names, (api.endpoints name).Complete)
    (hr : api.Renderable) (request : Request) (text : Str) (hp : request.path = '/' :: text) :
    ∃ services, loadservices get server = .ok (services.map Service.raw) ∧
      destination (render services) request = some (api.dispatch text) :=
  ⟨api.expected, loadservices_complete hserves hc, destination_expected api hr request text hp⟩

theorem twoServices_renderable : (twoServices readyAnswer).Renderable where
  distinct := by decide
  free := by decide

theorem twoServices_complete :
    ∀ name ∈ (twoServices readyAnswer).names, ((twoServices readyAnswer).endpoints name).Complete := by
  have hready : readyAnswer.Complete := by
    intro subset hm
    obtain rfl : subset = ⟨some ["10.0.0.1".toList], some [80]⟩ := List.mem_singleton.mp hm
    exact ⟨_, rfl, Or.inr rfl⟩
  intro name _
  simp only [twoServices, ite_self]
  exact hready

theorem webRequest_dispatched :
    ∃ services, loadservices (replies (subsetText "addresses".toList)) apiServer =
        .ok (services.map Service.raw) ∧
      destination (render services) webRequest =
        some ((twoServices readyAnswer).dispatch "web/web/x".toList) :=
  gateway_dispatches _ apiServer (twoServices readyAnswer)
    (replies_serves _ _ readyAnswer loads_subsetText_ready subsetOf_ready) twoServices_complete
    twoServices_renderable webRequest "web/web/x".toList (by decide)

example : (twoServices readyAnswer).dispatch "web/web/x".toList =
    ⟨["10.0.0.1:80".toList], "/web/x".toList⟩ := by decide +kernel

end MesosPoc.LoadBalancer
