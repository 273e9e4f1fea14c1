import MesosPoc.LoadBalancer.Fetching
import Mathlib.Logic.Function.Basic

namespace MesosPoc.LoadBalancer.Fetching

section Gathering

variable {history more : List Api} {names : List Str} {services : List Service}

theorem Gathered.append (h : Gathered history names services) (more : List Api) :
    Gathered (history ++ more) names services := by
  induction h with
  | done history => exact .done _
  | ask hc _ ih => exact .ask hc ih
  | change _ ih => exact .change ih

theorem gathered_now {api : Api} {name : Str} (hlast : history.getLast? = some api)
    (hc : (api.endpoints name).Complete) :
    Gathered history [name] [⟨name, (api.endpoints name).endpoints⟩] := by
  induction history with
  | nil => cases hlast
  | cons first history ih =>
      cases history with
      | nil =>
          obtain rfl : first = api := Option.some.inj hlast
          exact .ask hc (.done _)
      | cons next history =>
          rw [List.getLast?_cons_cons] at hlast
          exact .change (ih hlast)

-- One more name, asked for now.
theorem Gathered.snoc (h : Gathered history names services) {api : Api} {name : Str}
    (hlast : history.getLast? = some api) (hc : (api.endpoints name).Complete) :
    Gathered history (names ++ [name]) (services ++ [⟨name, (api.endpoints name).endpoints⟩]) := by
  induction h with
  | done history => exact gathered_now hlast hc
  | ask hfirst _ ih => exact .ask hfirst (ih hlast)
  | @change first history names services hrest ih =>
      cases history with
      | nil =>
          cases hrest with
          | done => exact gathered_now hlast hc
      | cons next history =>
          rw [List.getLast?_cons_cons] at hlast
          exact .change (ih hlast)

theorem Fetched.append (h : Fetched history services) : Fetched (history ++ more) services := by
  obtain ⟨before, listed, after, rfl, hgathered⟩ := h
  exact ⟨before, listed, after ++ more, by rw [List.append_assoc, List.cons_append], hgathered.append more⟩

-- The answers behind gathered services, where each name is asked for once.
theorem Gathered.answers {history : List Api} {names : List Str} {services : List Service}
    (h : Gathered history names services) (hd : names.Nodup) :
    ∃ answer : Str → Answer, services = names.map (fun name => ⟨name, (answer name).endpoints⟩) ∧
      ∀ name ∈ names, (answer name).Complete ∧ ∃ asked ∈ history, answer name = asked.endpoints name := by
  induction h with
  | done history => exact ⟨fun _ => .null, rfl, by simp⟩
  | @ask api history name names services hc _ ih =>
      obtain ⟨hfirst, hrest⟩ := List.nodup_cons.mp hd
      obtain ⟨answer, hservices, hall⟩ := ih hrest
      have hother : ∀ other ∈ names, Function.update answer name (api.endpoints name) other = answer other := by
        intro other hm
        apply Function.update_of_ne
        rintro rfl
        exact hfirst hm
      refine ⟨Function.update answer name (api.endpoints name), ?_, ?_⟩
      · rw [List.map_cons, Function.update_self, hservices]
        congr 1
        apply List.map_congr_left
        intro other hm
        rw [hother other hm]
      · intro other hm
        rcases List.mem_cons.mp hm with rfl | hm
        · rw [Function.update_self]
          exact ⟨hc, api, List.mem_cons_self, rfl⟩
        · rw [hother other hm]
          exact hall other hm
  | change _ ih =>
      obtain ⟨answer, hservices, hall⟩ := ih hd
      refine ⟨answer, hservices, ?_⟩
      intro name hm
      obtain ⟨hc, asked, hasked, heq⟩ := hall name hm
      exact ⟨hc, asked, List.mem_cons_of_mem _ hasked, heq⟩

end Gathering

end MesosPoc.LoadBalancer.Fetching
