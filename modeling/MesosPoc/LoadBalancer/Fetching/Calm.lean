import MesosPoc.LoadBalancer.Fetching.Mixtures
import MesosPoc.LoadBalancer.Dispatch
import MesosPoc.LoadBalancer.Reload.Theorems

namespace MesosPoc.LoadBalancer.Fetching

open Machine

-- The API changes with the events only, and not while a job is still to ask.
def Calm (s : System) : Label → Prop
  | .event _ => ∀ name names services, Job.asking (name :: names) services ∉ s.jobs
  | .change _ => False
  | _ => True

def servicesOf (api : Api) (names : List Str) : List Service :=
  names.map fun name => ⟨name, (api.endpoints name).endpoints⟩

def AllComplete (api : Api) : Prop :=
  ∀ name ∈ api.names, (api.endpoints name).Complete

instance decidableAllComplete (api : Api) : Decidable (AllComplete api) :=
  inferInstanceAs (Decidable (∀ name ∈ api.names, (api.endpoints name).Complete))

-- All requests of loadservices, with one exception for all that is incomplete.
def fetchAll (api : Api) : Except PyError (List Service) :=
  if AllComplete api then .ok api.expected else .error (.keyError "addresses".toList)

-- A job that asks one name after the other is a job that fetches all of them with the last.
inductive Matches (api : Api) : Job → LoadBalancer.Job → Prop
  | started : Matches api .started .started
  | failed : Matches api .failed .failed
  | asking {name : Str} {names : List Str} {services : List Service}
      (h : services ++ servicesOf api (name :: names) = api.expected) :
      Matches api (.asking (name :: names) services) .started
  | fetched {services : List Service} {seen : Nat} : Matches api (.asking [] services) (.fetched seen services)
  | written {seen : Nat} : Matches api .written (.written seen)
  | finished {seen : Nat} : Matches api .finished (.finished seen)

structure Related (s : System) (c : LoadBalancer.System Api) : Prop where
  api : c.api = s.api
  timers : c.timers = s.timers
  file : c.file = .whole s.file
  loaded : c.loaded = .whole s.loaded
  jobs : List.Forall₂ (Matches s.api) s.jobs c.jobs
  complete : AllComplete s.api

def statesOf : LoadBalancer.Label Api → List Api
  | .event api => [api]
  | _ => []

def cuts : LoadBalancer.Label Api → Bool
  | .cut _ _ => true
  | _ => false

section Lists

variable {α β : Type} {R : α → β → Prop} {l : List α} {l' : List β}

theorem forall₂_getElem? (h : List.Forall₂ R l l') {i : Nat} {a : α} (ha : l[i]? = some a) :
    ∃ b, l'[i]? = some b ∧ R a b := by
  induction h generalizing i with
  | nil => cases ha
  | cons hfirst _ ih =>
      cases i with
      | zero =>
          obtain rfl := Option.some.inj ha
          exact ⟨_, rfl, hfirst⟩
      | succ i => exact ih ha

theorem forall₂_set (h : List.Forall₂ R l l') (i : Nat) {a : α} {b : β} (hab : R a b) :
    List.Forall₂ R (l.set i a) (l'.set i b) := by
  induction h generalizing i with
  | nil => exact .nil
  | cons hfirst hrest ih =>
      cases i with
      | zero => exact .cons hab hrest
      | succ i => exact .cons hfirst (ih i)

-- An entry of one list changes and still matches.
theorem forall₂_set_left (h : List.Forall₂ R l l') {i : Nat} {a : α} {b : β} (hb : l'[i]? = some b) (hab : R a b) :
    List.Forall₂ R (l.set i a) l' := by
  obtain ⟨hi, rfl⟩ := List.getElem?_eq_some_iff.mp hb
  have hset := forall₂_set h i hab
  rw [List.set_getElem_self hi] at hset
  exact hset

theorem forall₂_imp_mem {S : α → β → Prop} (h : List.Forall₂ R l l') (himp : ∀ a ∈ l, ∀ b, R a b → S a b) :
    List.Forall₂ S l l' := by
  induction h with
  | nil => exact .nil
  | cons hfirst _ ih =>
      obtain ⟨ha, hrest⟩ := List.forall_mem_cons.mp himp
      exact .cons (ha _ hfirst) (ih hrest)

end Lists

section Forward

variable {s t : System} {c : LoadBalancer.System Api} {label : Label}

theorem Matches.of_calm {api : Api} {job : Job} {job' : LoadBalancer.Job} (h : Matches api job job')
    (hcalm : ∀ name names services, job ≠ .asking (name :: names) services) (api' : Api) :
    Matches api' job job' := by
  cases h with
  | started => exact .started
  | failed => exact .failed
  | asking _ => exact absurd rfl (hcalm _ _ _)
  | fetched => exact .fetched
  | written => exact .written
  | finished => exact .finished

-- A job gets on, and what stands for it does not move.
theorem Related.resumed (h : Related s c) {job : Nat} {new : Job} {old' : LoadBalancer.Job}
    (hj : c.jobs[job]? = some old') (hnew : Matches s.api new old') :
    Related { s with jobs := s.jobs.set job new } c where
  api := h.api
  timers := h.timers
  file := h.file
  loaded := h.loaded
  jobs := forall₂_set_left h.jobs hj hnew
  complete := h.complete

-- The last request of a job, or the list of no names.
theorem Related.fetches (h : Related s c) {job : Nat} {services : List Service}
    (hj : c.jobs[job]? = some .started) (hservices : services = s.api.expected) :
    ∃ c', LoadBalancer.step fetchAll c (.fetch job) = some c' ∧
      Related { s with jobs := s.jobs.set job (.asking [] services) } c' := by
  have hfetch : LoadBalancer.fetch fetchAll c.api c.events = .fetched c.events services := by
    rw [LoadBalancer.fetch, fetchAll, h.api, if_pos h.complete, hservices]
  refine ⟨{ c with jobs := c.jobs.set job (.fetched c.events services) }, ?_, ?_⟩
  · simp only [LoadBalancer.step, hj, hfetch]
  · exact ⟨h.api, h.timers, h.file, h.loaded, forall₂_set h.jobs job .fetched, h.complete⟩

theorem Related.fails (h : Related s c) {job : Nat} (hj : c.jobs[job]? = some .started ∨
    ∃ seen services, c.jobs[job]? = some (.fetched seen services)) :
    ∃ c', LoadBalancer.step fetchAll c (.fail job) = some c' ∧
      Related { s with jobs := s.jobs.set job .failed } c' := by
  refine ⟨{ c with jobs := c.jobs.set job .failed }, ?_, ?_⟩
  · rcases hj with hj | ⟨seen, services, hj⟩ <;> simp only [LoadBalancer.step, hj]
  · exact ⟨h.api, h.timers, h.file, h.loaded, forall₂_set h.jobs job .failed, h.complete⟩

theorem servicesOf_names (api : Api) : servicesOf api api.names = api.expected := rfl

theorem related_step (h : Related s c) (hcalm : Calm s label) (hcomplete : ∀ api ∈ label.state, AllComplete api)
    (hs : step s label = some t) :
    ∃ labels c', run (LoadBalancer.step fetchAll) c labels = some c' ∧ (∀ label ∈ labels, cuts label = false) ∧
      labels.flatMap statesOf = label.state.toList ∧ Related t c' := by
  have hone : ∀ (label' : LoadBalancer.Label Api) (c' : LoadBalancer.System Api),
      LoadBalancer.step fetchAll c label' = some c' → cuts label' = false →
        run (LoadBalancer.step fetchAll) c [label'] = some c' ∧ ∀ label ∈ [label'], cuts label = false := by
    intro label' c' hstep hcut
    refine ⟨?_, by simpa using hcut⟩
    rw [run, hstep]
    rfl
  have hnone : ∀ label ∈ ([] : List (LoadBalancer.Label Api)), cuts label = false := by simp
  rcases step_cases hs with ⟨api, rfl, rfl⟩ | ⟨api, rfl, rfl⟩ | ⟨timer, rfl, ht, rfl⟩ | ⟨job, rfl, hj, rfl⟩ |
    ⟨job, name, names, services, rfl, hj, rfl⟩ | ⟨job, rfl, hj, rfl⟩ | ⟨job, services, rfl, hj, rfl⟩ |
    ⟨job, rfl, hj, rfl⟩
  · obtain ⟨hrun, hcuts⟩ := hone (.event api) _ rfl rfl
    refine ⟨[.event api], _, hrun, hcuts, rfl, rfl, ?_, h.file, h.loaded, ?_, hcomplete api rfl⟩
    · simp only [h.timers]
    · apply forall₂_imp_mem h.jobs
      rintro job hm job' hmatch
      apply hmatch.of_calm
      rintro name names services rfl
      exact hcalm name names services hm
  · exact absurd hcalm id
  · have ht' : c.timers[timer]? = some .pending := by rw [h.timers, ht]
    obtain ⟨hrun, hcuts⟩ := hone (.expire timer)
      { c with timers := c.timers.set timer .fired, jobs := c.jobs ++ [.started] }
      (by simp only [LoadBalancer.step, ht']) rfl
    refine ⟨[.expire timer], _, hrun, hcuts, rfl, h.api, ?_, h.file, h.loaded, ?_, h.complete⟩
    · simp only [h.timers]
    · exact List.rel_append h.jobs (.cons .started .nil)
  · obtain ⟨job', hj', hmatch⟩ := forall₂_getElem? h.jobs hj
    cases hmatch
    cases hnames : s.api.names with
    | nil =>
        have hexpected : [] = s.api.expected := by
          rw [← servicesOf_names, hnames]
          rfl
        obtain ⟨c', hstep, hrelated⟩ := h.fetches hj' hexpected
        obtain ⟨hrun, hcuts⟩ := hone _ _ hstep rfl
        exact ⟨[.fetch job], c', hrun, hcuts, rfl, hrelated⟩
    | cons name names =>
        refine ⟨[], c, rfl, hnone, rfl, h.resumed hj' (.asking ?_)⟩
        rw [List.nil_append, ← hnames, servicesOf_names]
  · obtain ⟨job', hj', hmatch⟩ := forall₂_getElem? h.jobs hj
    cases hmatch with
    | asking hservices =>
        unfold ask
        split
        · cases names with
          | nil =>
              obtain ⟨c', hstep, hrelated⟩ := h.fetches hj' hservices
              obtain ⟨hrun, hcuts⟩ := hone _ _ hstep rfl
              exact ⟨[.fetch job], c', hrun, hcuts, rfl, hrelated⟩
          | cons next names =>
              refine ⟨[], c, rfl, hnone, rfl, h.resumed hj' (.asking ?_)⟩
              rw [List.append_assoc]
              exact hservices
        · obtain ⟨c', hstep, hrelated⟩ := h.fails (Or.inl hj')
          obtain ⟨hrun, hcuts⟩ := hone _ _ hstep rfl
          exact ⟨[.fail job], c', hrun, hcuts, rfl, hrelated⟩
  · have hold : c.jobs[job]? = some .started ∨ ∃ seen services, c.jobs[job]? = some (.fetched seen services) := by
      rcases hj with hj | ⟨names, services, hj⟩
      · obtain ⟨job', hj', hmatch⟩ := forall₂_getElem? h.jobs hj
        cases hmatch
        exact Or.inl hj'
      · obtain ⟨job', hj', hmatch⟩ := forall₂_getElem? h.jobs hj
        cases hmatch with
        | asking _ => exact Or.inl hj'
        | fetched => exact Or.inr ⟨_, _, hj'⟩
    obtain ⟨c', hstep, hrelated⟩ := h.fails hold
    obtain ⟨hrun, hcuts⟩ := hone _ _ hstep rfl
    exact ⟨[.fail job], c', hrun, hcuts, rfl, hrelated⟩
  · obtain ⟨job', hj', hmatch⟩ := forall₂_getElem? h.jobs hj
    cases hmatch with
    | @fetched _ seen =>
        obtain ⟨hrun, hcuts⟩ := hone (.write job)
          { c with jobs := c.jobs.set job (.written seen), file := .whole (render services) }
          (by simp only [LoadBalancer.step, hj']) rfl
        refine ⟨[.write job], _, hrun, hcuts, rfl, h.api, h.timers, rfl, h.loaded, ?_, h.complete⟩
        exact forall₂_set h.jobs job .written
  · obtain ⟨job', hj', hmatch⟩ := forall₂_getElem? h.jobs hj
    cases hmatch with
    | @written seen =>
        obtain ⟨hrun, hcuts⟩ := hone (.reload job)
          { c with jobs := c.jobs.set job (.finished seen), loaded := c.file }
          (by simp only [LoadBalancer.step, hj']) rfl
        refine ⟨[.reload job], _, hrun, hcuts, rfl, h.api, h.timers, h.file, h.file, ?_, h.complete⟩
        exact forall₂_set h.jobs job .finished

end Forward

section Backward

variable {s : System} {c c' : LoadBalancer.System Api} {label : LoadBalancer.Label Api}

-- What a job of whole fetches is, a request at a time.
def concrete : LoadBalancer.Job → Job
  | .started => .started
  | .fetched _ services => .asking [] services
  | .written _ => .written
  | .finished _ => .finished
  | .failed => .failed

structure Concrete (s : System) (c : LoadBalancer.System Api) : Prop where
  api : c.api = s.api
  timers : c.timers = s.timers
  file : c.file = .whole s.file
  loaded : c.loaded = .whole s.loaded
  jobs : s.jobs = c.jobs.map concrete
  complete : AllComplete s.api

-- The states that the API comes to have all their subsets complete, and no write fails
-- after some bytes.
def CompleteStates (_ : LoadBalancer.System Api) (label : LoadBalancer.Label Api) : Prop :=
  (∀ api ∈ statesOf label, AllComplete api) ∧ cuts label = false

theorem run_asks (s : System) (job : Nat) (names : List Str) (services : List Service)
    (hc : ∀ name ∈ names, (s.api.endpoints name).Complete) (hj : s.jobs[job]? = some (.asking names services)) :
    run step s (List.replicate names.length (.ask job)) =
      some { s with jobs := s.jobs.set job (.asking [] (services ++ servicesOf s.api names)) } := by
  induction names generalizing s services with
  | nil =>
      obtain ⟨hi, heq⟩ := List.getElem?_eq_some_iff.mp hj
      have hself : s.jobs.set job (.asking [] (services ++ servicesOf s.api [])) = s.jobs := by
        rw [servicesOf, List.map_nil, List.append_nil, ← heq, List.set_getElem_self hi]
      rw [hself]
      rfl
  | cons name names ih =>
      obtain ⟨hname, hnames⟩ := List.forall_mem_cons.mp hc
      have hasked : ask s.api name names services =
          .asking names (services ++ [⟨name, (s.api.endpoints name).endpoints⟩]) := if_pos hname
      have hstep : step s (.ask job) = some
          { s with jobs := s.jobs.set job (.asking names (services ++ [⟨name, (s.api.endpoints name).endpoints⟩])) } := by
        simp only [step, hj, hasked]
      obtain ⟨hi, -⟩ := List.getElem?_eq_some_iff.mp hj
      have hrest := ih
        { s with jobs := s.jobs.set job (.asking names (services ++ [⟨name, (s.api.endpoints name).endpoints⟩])) }
        (services ++ [⟨name, (s.api.endpoints name).endpoints⟩]) hnames (List.getElem?_set_self hi)
      rw [List.length_cons, List.replicate_succ, run, hstep, Option.bind_some, hrest]
      simp only [List.set_set, List.append_assoc, servicesOf, List.map_cons, List.singleton_append]

theorem calm_asks (s : System) (job count : Nat) : Allowed step Calm s (List.replicate count (.ask job)) := by
  induction count generalizing s with
  | zero => trivial
  | succ count ih =>
      rw [List.replicate_succ]
      exact fun after _ => ⟨trivial, ih after⟩

theorem concrete_getElem? (h : Concrete s c) {job : Nat} {job' : LoadBalancer.Job} (hj : c.jobs[job]? = some job') :
    s.jobs[job]? = some (concrete job') := by
  rw [h.jobs, List.getElem?_map, hj]
  rfl

theorem concrete_ne_asking (job : LoadBalancer.Job) (name : Str) (names : List Str) (services : List Service) :
    concrete job ≠ .asking (name :: names) services := by
  cases job <;> simp [concrete]

theorem concrete_step (h : Concrete s c) (hcomplete : CompleteStates c label)
    (hs : LoadBalancer.step fetchAll c label = some c') :
    ∃ labels t, run step s labels = some t ∧ Allowed step Calm s labels ∧
      (labels.flatMap fun label => label.state.toList) = statesOf label ∧ Concrete t c' := by
  have hone : ∀ (label' : Label) (t : System), step s label' = some t → Calm s label' →
      run step s [label'] = some t ∧ Allowed step Calm s [label'] := by
    intro label' t hstep hcalm
    refine ⟨?_, fun after _ => ⟨hcalm, trivial⟩⟩
    rw [run, hstep]
    rfl
  rcases LoadBalancer.step_cases hs with ⟨api, rfl, rfl⟩ | ⟨timer, rfl, ht, rfl⟩ | ⟨job, rfl, hj, rfl⟩ |
    ⟨job, seen, services, rfl, hj, rfl⟩ | ⟨job, seen, rfl, hj, rfl⟩ | ⟨job, rfl, hj, rfl⟩ |
    ⟨job, bytes, seen, services, rfl, hj, rfl⟩
  · have hcalm : Calm s (.event api) := by
      intro name names services hm
      rw [h.jobs] at hm
      obtain ⟨job, -, hjob⟩ := List.mem_map.mp hm
      exact concrete_ne_asking job name names services hjob
    obtain ⟨hrun, hallowed⟩ := hone (.event api) _ rfl hcalm
    refine ⟨[.event api], _, hrun, hallowed, rfl, rfl, ?_, h.file, h.loaded, h.jobs, ?_⟩
    · simp only [h.timers]
    · exact hcomplete.1 api List.mem_cons_self
  · rw [h.timers] at ht
    obtain ⟨hrun, hallowed⟩ := hone (.expire timer)
      { s with timers := s.timers.set timer .fired, jobs := s.jobs ++ [.started] }
      (by simp only [step, ht]) trivial
    refine ⟨[.expire timer], _, hrun, hallowed, rfl, h.api, ?_, h.file, h.loaded, ?_, h.complete⟩
    · simp only [h.timers]
    · simp only [h.jobs, List.map_append]
      rfl
  · have hj' := concrete_getElem? h hj
    have hlist : step s (.list job) = some { s with jobs := s.jobs.set job (.asking s.api.names []) } := by
      simp only [step, hj', concrete]
    obtain ⟨hi, -⟩ := List.getElem?_eq_some_iff.mp hj'
    have hasks := run_asks { s with jobs := s.jobs.set job (.asking s.api.names []) } job s.api.names []
      h.complete (List.getElem?_set_self hi)
    have hfetch : LoadBalancer.fetch fetchAll c.api c.events = .fetched c.events s.api.expected := by
      rw [LoadBalancer.fetch, fetchAll, h.api, if_pos h.complete]
    refine ⟨.list job :: List.replicate s.api.names.length (.ask job),
      { s with jobs := s.jobs.set job (.asking [] s.api.expected) }, ?_, ?_, ?_, ?_⟩
    · rw [run, hlist, Option.bind_some, hasks, List.set_set, List.nil_append]
      rfl
    · exact fun after _ => ⟨trivial, calm_asks after job _⟩
    · simp [Label.state, statesOf]
    · refine ⟨h.api, h.timers, h.file, h.loaded, ?_, h.complete⟩
      simp only [h.jobs, List.map_set, hfetch]
      rfl
  · have hj' := concrete_getElem? h hj
    obtain ⟨hrun, hallowed⟩ := hone (.write job)
      { s with jobs := s.jobs.set job .written, file := render services } (by simp only [step, hj', concrete]) trivial
    refine ⟨[.write job], _, hrun, hallowed, rfl, h.api, h.timers, rfl, h.loaded, ?_, h.complete⟩
    simp only [h.jobs, List.map_set]
    rfl
  · have hj' := concrete_getElem? h hj
    obtain ⟨hrun, hallowed⟩ := hone (.reload job)
      { s with jobs := s.jobs.set job .finished, loaded := s.file } (by simp only [step, hj', concrete]) trivial
    refine ⟨[.reload job], _, hrun, hallowed, rfl, h.api, h.timers, h.file, h.file, ?_, h.complete⟩
    simp only [h.jobs, List.map_set]
    rfl
  · have hstep : step s (.fail job) = some { s with jobs := s.jobs.set job .failed } := by
      rcases hj with hj | ⟨seen, services, hj⟩ <;> simp only [step, concrete_getElem? h hj, concrete]
    obtain ⟨hrun, hallowed⟩ := hone (.fail job) _ hstep trivial
    refine ⟨[.fail job], _, hrun, hallowed, rfl, h.api, h.timers, h.file, h.loaded, ?_, h.complete⟩
    simp only [h.jobs, List.map_set]
    rfl
  · cases hcomplete.2

end Backward

-- What can be seen of the load balancer from outside its threads.
structure Shows (s : System) (c : LoadBalancer.System Api) : Prop where
  api : c.api = s.api
  timers : c.timers = s.timers
  file : c.file = .whole s.file
  loaded : c.loaded = .whole s.loaded

def states (labels : List (LoadBalancer.Label Api)) : List Api :=
  labels.flatMap statesOf

theorem changes_eq (labels : List Label) : changes labels = labels.flatMap fun label => label.state.toList :=
  List.filterMap_eq_flatMap_toList _ _

-- The calm runs of one system and the runs of the other in which no write fails after some
-- bytes show the same.
structure Agree (first : Api) (file loaded : List Proxy) (history : List Api) : Prop where
  whole : ∀ labels s, changes labels = history → run step (start first file loaded) labels = some s →
    Allowed step Calm (start first file loaded) labels →
      ∃ labels' c, states labels' = history ∧ (∀ label ∈ labels', cuts label = false) ∧
        run (LoadBalancer.step fetchAll) (LoadBalancer.start first (.whole file) (.whole loaded)) labels' = some c ∧
          Shows s c
  parted : ∀ labels' c, states labels' = history → (∀ label ∈ labels', cuts label = false) →
    run (LoadBalancer.step fetchAll) (LoadBalancer.start first (.whole file) (.whole loaded)) labels' = some c →
      ∃ labels s, changes labels = history ∧ run step (start first file loaded) labels = some s ∧
        Allowed step Calm (start first file loaded) labels ∧ Shows s c

-- Where the API has all subsets complete, the system whose jobs fetch in one step is the
-- calm part of the one whose jobs make a request at a time.
theorem calm_agree (first : Api) (file loaded : List Proxy) (history : List Api)
    (hcomplete : ∀ api ∈ first :: history, AllComplete api) : Agree first file loaded history := by
  obtain ⟨hfirst, hhistory⟩ := List.forall_mem_cons.mp hcomplete
  constructor
  · rintro labels s rfl hrun hcalm
    have hstart : Related (start first file loaded) (LoadBalancer.start first (.whole file) (.whole loaded)) :=
      ⟨rfl, rfl, rfl, rfl, .nil, hfirst⟩
    have hallowed : Allowed step (fun s label => Calm s label ∧ ∀ api ∈ label.state, AllComplete api)
        (start first file loaded) labels := by
      refine hcalm.and fun label hm _ api hapi => hhistory api ?_
      exact List.mem_filterMap.mpr ⟨label, hm, hapi⟩
    have hsim : ∀ s c label t, Related s c → (Calm s label ∧ ∀ api ∈ label.state, AllComplete api) →
        step s label = some t →
          ∃ labels c', run (LoadBalancer.step fetchAll) c labels = some c' ∧
            Allowed (LoadBalancer.step fetchAll) (fun _ label => cuts label = false) c labels ∧
            labels.flatMap statesOf = label.state.toList ∧ Related t c' := by
      intro s c label t h ha hs
      obtain ⟨labels', c', hrun', hcuts, htrace, hrelated⟩ := related_step h ha.1 ha.2 hs
      exact ⟨labels', c', hrun', allowed_of_forall hcuts, htrace, hrelated⟩
    obtain ⟨labels', c, hrun', hcuts, htrace, hrelated⟩ :=
      run_of_simulation Related (fun label => label.state.toList) statesOf hsim labels hstart hallowed hrun
    rw [changes_eq]
    exact ⟨labels', c, htrace, forall_of_allowed hcuts hrun', hrun', hrelated.api, hrelated.timers, hrelated.file,
      hrelated.loaded⟩
  · rintro labels' c rfl hcuts hrun
    have hstart : Concrete (start first file loaded) (LoadBalancer.start first (.whole file) (.whole loaded)) :=
      ⟨rfl, rfl, rfl, rfl, rfl, hfirst⟩
    have hallowed : Allowed (LoadBalancer.step fetchAll) CompleteStates
        (LoadBalancer.start first (.whole file) (.whole loaded)) labels' := by
      refine allowed_of_forall fun label hm => ⟨fun api hapi => hhistory api ?_, hcuts label hm⟩
      exact List.mem_flatMap.mpr ⟨label, hm, hapi⟩
    obtain ⟨labels, s, hrun', hcalm, htrace, hconcrete⟩ :=
      run_of_simulation (fun c s => Concrete s c) statesOf (fun label : Label => label.state.toList)
        (fun c s label t h ha hs => concrete_step h ha hs) labels' hstart hallowed hrun
    rw [← changes_eq] at htrace
    exact ⟨labels, s, htrace, hrun', hcalm, hconcrete.api, hconcrete.timers, hconcrete.file, hconcrete.loaded⟩

theorem twoServices_agree :
    Agree (twoServices readyAnswer) [] [] [twoServices readyAnswer, twoServices readyAnswer] := by
  apply calm_agree
  intro api hm
  have heq : api = twoServices readyAnswer := by simpa using hm
  rw [heq]
  exact twoServices_complete

end MesosPoc.LoadBalancer.Fetching
