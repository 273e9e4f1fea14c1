import MesosPoc.Machine
import MesosPoc.LoadBalancer.Timers
import MesosPoc.LoadBalancer.Services.Theorems

namespace MesosPoc.LoadBalancer.Fetching

instance decidableSubsetComplete (subset : Subset) : Decidable subset.Complete :=
  match h : subset.addresses with
  | none => isFalse (by rintro ⟨ips, hips, -⟩; rw [h] at hips; cases hips)
  | some ips =>
      decidable_of_iff (ips = [] ∨ subset.ports.isSome = true) <| by
        simp only [Subset.Complete, h, Option.some.injEq, exists_eq_left']

instance decidableComplete : ∀ answer : Answer, Decidable answer.Complete
  | .subsets list => inferInstanceAs (Decidable (∀ subset ∈ list, subset.Complete))
  | .null => inferInstanceAs (Decidable False)
  | .notFound => inferInstanceAs (Decidable False)

-- One call of reloadbalancer, a request at a time: the names whose endpoints it has still
-- to ask for, and the services that it has put together. A write that has begun succeeds.
inductive Job
  | started
  | asking (names : List Str) (services : List Service)
  | written
  | finished
  | failed

structure System where
  api : Api
  timers : List Timer
  jobs : List Job
  file : List Proxy
  loaded : List Proxy

-- The API also changes without an event: the watch is for endpoints, and late.
inductive Label
  | event (api : Api)
  | change (api : Api)
  | expire (timer : Nat)
  | list (job : Nat)
  | ask (job : Nat)
  | fail (job : Nat)
  | write (job : Nat)
  | reload (job : Nat)

-- The turn of loadservices for the next name. An incomplete answer ends the thread.
def ask (api : Api) (name : Str) (names : List Str) (services : List Service) : Job :=
  if (api.endpoints name).Complete then .asking names (services ++ [⟨name, (api.endpoints name).endpoints⟩])
  else .failed

def step (s : System) : Label → Option System
  | .event api => some { s with api := api, timers := restartTimer s.timers }
  | .change api => some { s with api := api }
  | .expire timer =>
      match s.timers[timer]? with
      | some .pending => some { s with timers := s.timers.set timer .fired, jobs := s.jobs ++ [.started] }
      | _ => none
  | .list job =>
      match s.jobs[job]? with
      | some .started => some { s with jobs := s.jobs.set job (.asking s.api.names []) }
      | _ => none
  | .ask job =>
      match s.jobs[job]? with
      | some (.asking (name :: names) services) =>
          some { s with jobs := s.jobs.set job (ask s.api name names services) }
      | _ => none
  -- A request that raises, or the template or open(configfile, "w") after the last one.
  | .fail job =>
      match s.jobs[job]? with
      | some .started => some { s with jobs := s.jobs.set job .failed }
      | some (.asking _ _) => some { s with jobs := s.jobs.set job .failed }
      | _ => none
  | .write job =>
      match s.jobs[job]? with
      | some (.asking [] services) =>
          some { s with jobs := s.jobs.set job .written, file := render services }
      | _ => none
  | .reload job =>
      match s.jobs[job]? with
      | some .written => some { s with jobs := s.jobs.set job .finished, loaded := s.file }
      | _ => none

def start (api : Api) (file loaded : List Proxy) : System where
  api := api
  timers := []
  jobs := []
  file := file
  loaded := loaded

-- The API states that follow the first one.
def Label.state : Label → Option Api
  | .event api => some api
  | .change api => some api
  | _ => none

def changes (labels : List Label) : List Api :=
  labels.filterMap Label.state

-- The services of names whose endpoints were asked for one after the other, while the API
-- went through a list of states.
inductive Gathered : List Api → List Str → List Service → Prop
  | done (history : List Api) : Gathered history [] []
  | ask {api : Api} {history : List Api} {name : Str} {names : List Str} {services : List Service}
      (hc : (api.endpoints name).Complete) (h : Gathered (api :: history) names services) :
      Gathered (api :: history) (name :: names) (⟨name, (api.endpoints name).endpoints⟩ :: services)
  | change {api : Api} {history : List Api} {names : List Str} {services : List Service}
      (h : Gathered history names services) : Gathered (api :: history) names services

-- The names of one state, and the endpoints of each in that state or a later one.
def Fetched (history : List Api) (services : List Service) : Prop :=
  ∃ before listed after, history = before ++ listed :: after ∧
    Gathered (listed :: after) listed.names services

end MesosPoc.LoadBalancer.Fetching
