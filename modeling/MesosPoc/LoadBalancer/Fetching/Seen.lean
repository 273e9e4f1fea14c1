import MesosPoc.LoadBalancer.Fetching.Mixtures
import MesosPoc.LoadBalancer.Dispatch

namespace MesosPoc.LoadBalancer.Fetching

open Machine

section Dispatching

-- The API as one fetch has seen it: the names of one state, and endpoints that it had in
-- that state or since.
structure Seen (history : List Api) (torn : Api) : Prop where
  moments : ∃ before listed after, history = before ++ listed :: after ∧ torn.services = listed.services ∧
    Gathered (listed :: after) torn.names torn.expected
  complete : ∀ name ∈ torn.names, (torn.endpoints name).Complete
  endpoints : ∀ name ∈ torn.names, ∃ asked ∈ history, torn.endpoints name = asked.endpoints name

theorem Fetched.seen {history : List Api} {services : List Service} (h : Fetched history services)
    (hd : ∀ api ∈ history, api.names.Nodup) : ∃ torn, Seen history torn ∧ services = torn.expected := by
  obtain ⟨before, listed, after, rfl, hgathered⟩ := h
  have hlisted : listed ∈ before ++ listed :: after := List.mem_append_right _ List.mem_cons_self
  obtain ⟨answer, rfl, hall⟩ := hgathered.answers (hd listed hlisted)
  refine ⟨⟨listed.services, answer, listed.labels⟩, ⟨⟨before, listed, after, rfl, rfl, hgathered⟩, ?_, ?_⟩, rfl⟩
  · intro name hm
    exact (hall name hm).1
  · intro name hm
    obtain ⟨-, asked, hasked, heq⟩ := hall name hm
    exact ⟨asked, List.mem_append_right _ hasked, heq⟩

theorem Seen.renderable {history : List Api} {torn : Api} (h : Seen history torn)
    (hr : ∀ api ∈ history, api.Renderable) : torn.Renderable := by
  obtain ⟨before, listed, after, rfl, hservices, -⟩ := h.moments
  have hlisted := hr listed (List.mem_append_right _ List.mem_cons_self)
  have hnames : torn.names = listed.names := by rw [Api.names, Api.names, hservices]
  exact ⟨hnames ▸ hlisted.distinct, hnames ▸ hlisted.free⟩

-- Whatever the order of events, changes, timers and requests, HAProxy was last told to load
-- what it was started with or a configuration that sends every request where the API as one
-- fetch saw it says.
theorem loaded_dispatches (first : Api) (file loaded : List Proxy) (labels : List Label) (last : System)
    (hr : ∀ api ∈ changes labels, api.Renderable)
    (hrun : run step (start first file loaded) labels = some last) :
    last.loaded = loaded ∨ ∃ torn, Seen (changes labels) torn ∧
      (∀ get server, Serves get server torn → loadservices get server = .ok (torn.expected.map Service.raw)) ∧
      ∀ (request : Request) (text : Str), request.path = '/' :: text →
        destination last.loaded request = some (torn.dispatch text) := by
  have hlast := fromHistory_run labels (fromHistory_start first file) hrun
  rw [List.nil_append] at hlast
  rcases hlast.loaded with heq | ⟨services, hservices, hconfig⟩
  · exact Or.inl heq
  · obtain ⟨torn, hseen, rfl⟩ := hservices.seen fun api hm => (hr api hm).distinct
    refine Or.inr ⟨torn, hseen, fun get server hs => loadservices_complete hs hseen.complete, ?_⟩
    intro request text hp
    rw [hconfig]
    exact destination_expected torn (hseen.renderable hr) request text hp

-- The endpoints of the second service change while a job is between its requests.

def movedAnswer : Answer :=
  .subsets [⟨some ["10.0.0.2".toList], some [80]⟩]

def movingLabels : List Label :=
  [.event (twoServices readyAnswer), .expire 0, .list 0, .ask 0, .change (twoServices movedAnswer), .ask 0,
    .write 0, .reload 0]

theorem movingLabels_dispatched :
    ∃ last, run step (start (twoServices readyAnswer) [] []) movingLabels = some last ∧
      (last.loaded = [] ∨ ∃ torn, Seen (changes movingLabels) torn ∧
        (∀ get server, Serves get server torn → loadservices get server = .ok (torn.expected.map Service.raw)) ∧
        ∀ (request : Request) (text : Str), request.path = '/' :: text →
          destination last.loaded request = some (torn.dispatch text)) := by
  have hchanges : changes movingLabels = [twoServices readyAnswer, twoServices movedAnswer] := rfl
  refine ⟨_, rfl, loaded_dispatches (twoServices readyAnswer) [] [] movingLabels _ ?_ rfl⟩
  intro api hm
  rw [hchanges] at hm
  rcases List.mem_pair.mp hm with rfl | rfl
  · exact twoServices_renderable
  · exact ⟨by decide, by decide⟩

end Dispatching

end MesosPoc.LoadBalancer.Fetching
