import MesosPoc.Machine
import MesosPoc.LoadBalancer.Timers
import MesosPoc.LoadBalancer.Template

namespace MesosPoc.LoadBalancer

-- One call of reloadbalancer in the thread of a timer that fired. A job that
-- has fetched records how many watch events main had handled at that time. An
-- exception ends the thread.
inductive Job
  | started
  | fetched (seen : Nat) (services : List Service)
  | written (seen : Nat)
  | finished (seen : Nat)
  | failed
deriving DecidableEq

-- A rendering, or what a write has left of one that failed after some bytes.
inductive Config
  | whole (proxies : List Proxy)
  | cut (proxies : List Proxy) (bytes : Nat)
deriving DecidableEq

-- The load balancer, the API server whose answers have type σ, the config file
-- and the configuration reload.sh last gave to HAProxy.
structure System (σ : Type) where
  api : σ
  events : Nat
  timers : List Timer
  jobs : List Job
  file : Config
  loaded : Config
deriving DecidableEq

-- A watch event comes with the API state that caused it.
inductive Label (σ : Type)
  | event (api : σ)
  | expire (timer : Nat)
  | fetch (job : Nat)
  | write (job : Nat)
  | reload (job : Nat)
  | fail (job : Nat)
  | cut (job bytes : Nat)

section Step

variable {σ : Type} (loadservices : σ → Except PyError (List Service))

def fetch (api : σ) (events : Nat) : Job :=
  match loadservices api with
  | .ok services => .fetched events services
  | .error _ => .failed

def step (s : System σ) : Label σ → Option (System σ)
  | .event api =>
      some { s with api := api, events := s.events + 1, timers := restartTimer s.timers }
  | .expire timer =>
      match s.timers[timer]? with
      | some .pending =>
          some { s with timers := s.timers.set timer .fired, jobs := s.jobs ++ [.started] }
      | _ => none
  | .fetch job =>
      match s.jobs[job]? with
      | some .started => some { s with jobs := s.jobs.set job (fetch loadservices s.api s.events) }
      | _ => none
  | .write job =>
      match s.jobs[job]? with
      | some (.fetched seen services) =>
          some { s with jobs := s.jobs.set job (.written seen), file := .whole (render services) }
      | _ => none
  | .reload job =>
      match s.jobs[job]? with
      | some (.written seen) =>
          some { s with jobs := s.jobs.set job (.finished seen), loaded := s.file }
      | _ => none
  -- A request that fails by itself, or the template or open(configfile, "w") after it.
  | .fail job =>
      match s.jobs[job]? with
      | some .started => some { s with jobs := s.jobs.set job .failed }
      | some (.fetched _ _) => some { s with jobs := s.jobs.set job .failed }
      | _ => none
  -- file.write(content) fails after some bytes.
  | .cut job bytes =>
      match s.jobs[job]? with
      | some (.fetched _ services) =>
          some { s with jobs := s.jobs.set job .failed, file := .cut (render services) bytes }
      | _ => none

-- main has opened the watch and waits for its first event.
def start (api : σ) (file loaded : Config) : System σ where
  api := api
  events := 0
  timers := []
  jobs := []
  file := file
  loaded := loaded

def Job.Ended (job : Job) : Prop :=
  (∃ seen, job = .finished seen) ∨ job = .failed

def Quiescent (s : System σ) : Prop :=
  Timer.pending ∉ s.timers ∧ ∀ job ∈ s.jobs, job.Ended

-- The API state changes with the events only. A snapshot fetched after the last
-- event is therefore the present state.
def UpToDate (s : System σ) : Prop :=
  ∃ services, loadservices s.api = .ok services ∧ s.file = .whole (render services) ∧
    s.loaded = .whole (render services)

def NoLostReconfiguration (s : System σ) : Prop :=
  Quiescent s → 0 < s.events → UpToDate loadservices s

end Step

section Conditions

variable {σ : Type}

def Job.wroteAfter (seen : Nat) : Job → Bool
  | .written later => seen < later
  | .finished later => seen < later
  | _ => false

-- A write that takes the config file back: another job has already written a
-- snapshot that was fetched after an event this one has not seen.
def staleWrite (s : System σ) : Label σ → Bool
  | .write job =>
      match s.jobs[job]? with
      | some (.fetched seen _) => s.jobs.any (Job.wroteAfter seen)
      | _ => false
  | _ => false

-- The job is still to write a snapshot fetched after the last event.
def Job.awaited (events : Nat) : Job → Bool
  | .started => true
  | .fetched seen _ => seen = events
  | _ => false

def Job.wrote (events : Nat) : Job → Bool
  | .written seen => seen = events
  | .finished seen => seen = events
  | _ => false

def Config.isWhole : Config → Bool
  | .whole _ => true
  | .cut _ _ => false

-- Without the job: the snapshot fetched after the last event is still to come.
def coming (s : System σ) (job : Nat) : Bool :=
  s.timers.contains .pending || (s.jobs.eraseIdx job).any (Job.awaited s.events)

def arrived (s : System σ) : Bool :=
  s.jobs.any (Job.wrote s.events) && s.file.isWhole

-- A failure after which nothing brings the reconfiguration.
def fatalFailure (loadservices : σ → Except PyError (List Service)) (s : System σ) : Label σ → Bool
  | .fetch job =>
      match loadservices s.api with
      | .ok _ => false
      | .error _ => !(coming s job || arrived s)
  | .fail job => !(coming s job || arrived s)
  | .cut job _ => !coming s job
  | _ => false

end Conditions

end MesosPoc.LoadBalancer
