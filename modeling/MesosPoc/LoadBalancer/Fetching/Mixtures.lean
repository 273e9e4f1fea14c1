import MesosPoc.LoadBalancer.Fetching.Gathering

namespace MesosPoc.LoadBalancer.Fetching

open Machine

section Runs

variable {first : Api} {history : List Api} {loaded : List Proxy} {s t : System} {label : Label}

theorem step_cases (h : step s label = some t) :
    (∃ api, label = .event api ∧ t = { s with api := api, timers := restartTimer s.timers }) ∨
    (∃ api, label = .change api ∧ t = { s with api := api }) ∨
    (∃ timer, label = .expire timer ∧ s.timers[timer]? = some .pending ∧
      t = { s with timers := s.timers.set timer .fired, jobs := s.jobs ++ [.started] }) ∨
    (∃ job, label = .list job ∧ s.jobs[job]? = some .started ∧
      t = { s with jobs := s.jobs.set job (.asking s.api.names []) }) ∨
    (∃ job name names services, label = .ask job ∧ s.jobs[job]? = some (.asking (name :: names) services) ∧
      t = { s with jobs := s.jobs.set job (ask s.api name names services) }) ∨
    (∃ job, label = .fail job ∧ (s.jobs[job]? = some .started ∨
        ∃ names services, s.jobs[job]? = some (.asking names services)) ∧
      t = { s with jobs := s.jobs.set job .failed }) ∨
    (∃ job services, label = .write job ∧ s.jobs[job]? = some (.asking [] services) ∧
      t = { s with jobs := s.jobs.set job .written, file := render services }) ∨
    (∃ job, label = .reload job ∧ s.jobs[job]? = some .written ∧
      t = { s with jobs := s.jobs.set job .finished, loaded := s.file }) := by
  cases label with
  | event api => exact Or.inl ⟨api, rfl, (Option.some.inj h).symm⟩
  | change api => exact Or.inr (Or.inl ⟨api, rfl, (Option.some.inj h).symm⟩)
  | expire timer =>
      right; right; left
      simp only [step] at h
      split at h
      · rename_i ht
        exact ⟨timer, rfl, ht, (Option.some.inj h).symm⟩
      · cases h
  | list job =>
      right; right; right; left
      simp only [step] at h
      split at h
      · rename_i hj
        exact ⟨job, rfl, hj, (Option.some.inj h).symm⟩
      · cases h
  | ask job =>
      right; right; right; right; left
      simp only [step] at h
      split at h
      · rename_i name names services hj
        exact ⟨job, name, names, services, rfl, hj, (Option.some.inj h).symm⟩
      · cases h
  | fail job =>
      right; right; right; right; right; left
      simp only [step] at h
      split at h
      · rename_i hj
        exact ⟨job, rfl, Or.inl hj, (Option.some.inj h).symm⟩
      · rename_i names services hj
        exact ⟨job, rfl, Or.inr ⟨names, services, hj⟩, (Option.some.inj h).symm⟩
      · cases h
  | write job =>
      right; right; right; right; right; right; left
      simp only [step] at h
      split at h
      · rename_i services hj
        exact ⟨job, services, rfl, hj, (Option.some.inj h).symm⟩
      · cases h
  | reload job =>
      right; right; right; right; right; right; right
      simp only [step] at h
      split at h
      · rename_i hj
        exact ⟨job, rfl, hj, (Option.some.inj h).symm⟩
      · cases h

def RendersFetched (history : List Api) (config : List Proxy) : Prop :=
  ∃ services, Fetched history services ∧ config = render services

-- What a job has put together is from the states since it asked for the names.
def Underway (history : List Api) (names : List Str) (services : List Service) : Prop :=
  ∃ before listed after done, history = before ++ listed :: after ∧ listed.names = done ++ names ∧
    Gathered (listed :: after) done services

structure FromHistory (first : Api) (history : List Api) (loaded : List Proxy) (s : System) : Prop where
  api : (first :: history).getLast? = some s.api
  idle : history = [] → s.timers = [] ∧ s.jobs = []
  asking : ∀ names services, Job.asking names services ∈ s.jobs → Underway history names services
  written : Job.written ∈ s.jobs → RendersFetched history s.file
  loaded : s.loaded = loaded ∨ RendersFetched history s.loaded

theorem RendersFetched.append {config : List Proxy} {more : List Api} (h : RendersFetched history config) :
    RendersFetched (history ++ more) config := by
  obtain ⟨services, hservices, rfl⟩ := h
  exact ⟨services, hservices.append, rfl⟩

theorem Underway.append {names : List Str} {services : List Service} {more : List Api}
    (h : Underway history names services) : Underway (history ++ more) names services := by
  obtain ⟨before, listed, after, done, rfl, hnames, hgathered⟩ := h
  refine ⟨before, listed, after ++ more, done, ?_, hnames, hgathered.append more⟩
  rw [List.append_assoc, List.cons_append]

theorem Underway.fetched {services : List Service} (h : Underway history [] services) : Fetched history services := by
  obtain ⟨before, listed, after, done, hhistory, hnames, hgathered⟩ := h
  rw [List.append_nil] at hnames
  exact ⟨before, listed, after, hhistory, hnames ▸ hgathered⟩

-- A state that the API has come to, whatever main does with it.
theorem FromHistory.changed (h : FromHistory first history loaded s) (api : Api) (timers : List Timer) :
    FromHistory first (history ++ [api]) loaded { s with api := api, timers := timers } where
  api := by rw [← List.cons_append, List.getLast?_concat]
  idle hnil := absurd hnil (by simp)
  asking names services hm := (h.asking names services hm).append
  written hm := (h.written hm).append
  loaded := h.loaded.imp_right RendersFetched.append

-- A job that goes on, with what it has put together and without a file of its own.
theorem FromHistory.resumed (h : FromHistory first history loaded s) {job : Nat} {old new : Job}
    (hj : s.jobs[job]? = some old) (hasking : ∀ names services, new = .asking names services →
      Underway history names services) (hnew : new ≠ .written) :
    FromHistory first history loaded { s with jobs := s.jobs.set job new } where
  api := h.api
  idle hnil := by
    have hjobs := (h.idle hnil).2
    rw [hjobs] at hj
    cases hj
  asking names services hm := by
    rcases List.mem_or_eq_of_mem_set hm with hm | heq
    · exact h.asking names services hm
    · exact hasking names services heq.symm
  written hm := by
    rcases List.mem_or_eq_of_mem_set hm with hm | heq
    · exact h.written hm
    · exact absurd heq.symm hnew
  loaded := h.loaded

theorem fromHistory_step (h : FromHistory first history loaded s) (hs : step s label = some t) :
    FromHistory first (history ++ label.state.toList) loaded t := by
  rcases step_cases hs with ⟨api, rfl, rfl⟩ | ⟨api, rfl, rfl⟩ | ⟨timer, rfl, ht, rfl⟩ | ⟨job, rfl, hj, rfl⟩ |
    ⟨job, name, names, services, rfl, hj, rfl⟩ | ⟨job, rfl, hj, rfl⟩ | ⟨job, services, rfl, hj, rfl⟩ |
    ⟨job, rfl, hj, rfl⟩
  · exact h.changed api (restartTimer s.timers)
  · exact h.changed api s.timers
  · simp only [Label.state, Option.toList_none, List.append_nil]
    refine ⟨h.api, ?_, ?_, ?_, h.loaded⟩
    · intro hnil
      rw [(h.idle hnil).1] at ht
      cases ht
    · intro names services hm
      exact h.asking names services (by simpa using hm)
    · intro hm
      exact h.written (by simpa using hm)
  · simp only [Label.state, Option.toList_none, List.append_nil]
    apply h.resumed hj
    · intro names services heq
      obtain ⟨rfl, rfl⟩ := Job.asking.inj heq
      have hne : history ≠ [] := by
        intro hnil
        rw [(h.idle hnil).2] at hj
        cases hj
      have hapi := h.api
      rw [List.getLast?_cons_of_ne_nil hne] at hapi
      obtain ⟨before, hbefore⟩ := List.getLast?_eq_some_iff.mp hapi
      exact ⟨before, s.api, [], [], hbefore, rfl, .done _⟩
    · intro heq
      cases heq
  · simp only [Label.state, Option.toList_none, List.append_nil]
    apply h.resumed hj
    · intro names' services' heq
      unfold ask at heq
      split at heq
      · rename_i hc
        obtain ⟨rfl, rfl⟩ := Job.asking.inj heq
        obtain ⟨before, listed, after, done, rfl, hnames, hgathered⟩ :=
          h.asking _ _ (List.mem_of_getElem? hj)
        have hapi := h.api
        rw [← List.cons_append, List.getLast?_append_cons] at hapi
        refine ⟨before, listed, after, done ++ [name], rfl, ?_, hgathered.snoc hapi hc⟩
        rw [hnames, List.append_assoc, List.singleton_append]
      · cases heq
    · unfold ask
      split
      · intro heq
        cases heq
      · intro heq
        cases heq
  · simp only [Label.state, Option.toList_none, List.append_nil]
    have hnone : ∀ names services, Job.failed = .asking names services → Underway history names services := by
      intro names services heq
      cases heq
    have hne : Job.failed ≠ .written := by
      intro heq
      cases heq
    rcases hj with hj | ⟨names, services, hj⟩
    · exact h.resumed hj hnone hne
    · exact h.resumed hj hnone hne
  · simp only [Label.state, Option.toList_none, List.append_nil]
    have hfetched := (h.asking [] services (List.mem_of_getElem? hj)).fetched
    refine ⟨h.api, ?_, ?_, ?_, h.loaded⟩
    · intro hnil
      rw [(h.idle hnil).2] at hj
      cases hj
    · intro names' services' hm
      rcases List.mem_or_eq_of_mem_set hm with hm | heq
      · exact h.asking names' services' hm
      · cases heq
    · intro _
      exact ⟨services, hfetched, rfl⟩
  · simp only [Label.state, Option.toList_none, List.append_nil]
    refine ⟨h.api, ?_, ?_, ?_, Or.inr (h.written (List.mem_of_getElem? hj))⟩
    · intro hnil
      rw [(h.idle hnil).2] at hj
      cases hj
    · intro names services hm
      rcases List.mem_or_eq_of_mem_set hm with hm | heq
      · exact h.asking names services hm
      · cases heq
    · intro hm
      rcases List.mem_or_eq_of_mem_set hm with hm | heq
      · exact h.written hm
      · cases heq

theorem changes_cons (label : Label) (labels : List Label) :
    changes (label :: labels) = label.state.toList ++ changes labels := by
  unfold changes
  cases hstate : label.state with
  | none => rw [List.filterMap_cons_none hstate, Option.toList_none, List.nil_append]
  | some api => rw [List.filterMap_cons_some hstate, Option.toList_some, List.singleton_append]

theorem fromHistory_run (labels : List Label) (h : FromHistory first history loaded s)
    (hrun : run step s labels = some t) : FromHistory first (history ++ changes labels) loaded t := by
  induction labels generalizing s history with
  | nil =>
      obtain rfl : s = t := Option.some.inj hrun
      rw [changes, List.filterMap_nil, List.append_nil]
      exact h
  | cons label rest ih =>
      obtain ⟨next, hs, hrun⟩ := Option.bind_eq_some_iff.mp hrun
      have hlast := ih (fromHistory_step h hs) hrun
      rw [changes_cons, ← List.append_assoc]
      exact hlast

theorem fromHistory_start (api : Api) (file : List Proxy) : FromHistory api [] loaded (start api file loaded) where
  api := rfl
  idle _ := ⟨rfl, rfl⟩
  asking _ _ hm := by cases hm
  written hm := by cases hm
  loaded := Or.inl rfl

end Runs

section Witnesses

theorem changes_append (labels more : List Label) : changes (labels ++ more) = changes labels ++ changes more :=
  List.filterMap_append

theorem changes_events (history : List Api) : changes (history.map .event) = history := by
  induction history with
  | nil => rfl
  | cons api history ih => rw [List.map_cons, changes_cons, ih, Label.state, Option.toList_some, List.singleton_append]

theorem run_events (history : List Api) (s : System) :
    ∃ t, run step s (history.map .event) = some t ∧ t.jobs = s.jobs ∧ t.loaded = s.loaded := by
  induction history generalizing s with
  | nil => exact ⟨s, rfl, rfl, rfl⟩
  | cons api history ih =>
      obtain ⟨t, hrun, hjobs, hloaded⟩ := ih { s with api := api, timers := restartTimer s.timers }
      exact ⟨t, hrun, hjobs, hloaded⟩

-- A job can ask each time that the API is in the state it is to be asked in.
theorem run_gathered {history : List Api} {names : List Str} {services : List Service}
    (h : Gathered history names services) :
    ∀ (s : System) (before : List Service), (∀ api ∈ history.head?, s.api = api) → s.jobs = [.asking names before] →
      ∃ labels t, changes labels = history.tail ∧ run step s labels = some t ∧
        t.jobs = [.asking [] (before ++ services)] := by
  induction h with
  | done history =>
      intro s before _ hjobs
      obtain ⟨t, hrun, hafter, -⟩ := run_events history.tail s
      exact ⟨_, t, changes_events history.tail, hrun, by rw [hafter, hjobs, List.append_nil]⟩
  | @ask api history name names services hc _ ih =>
      intro s before hapi hjobs
      have hs : s.api = api := hapi api rfl
      have hstep : step s (.ask 0) =
          some { s with jobs := [.asking names (before ++ [⟨name, (api.endpoints name).endpoints⟩])] } := by
        have hasked : ask api name names before =
            .asking names (before ++ [⟨name, (api.endpoints name).endpoints⟩]) := if_pos hc
        simp only [step, hjobs, hs, List.getElem?_cons_zero, hasked, List.set_cons_zero]
      obtain ⟨labels, t, hchanges, hrun, hafter⟩ := ih
        { s with jobs := [.asking names (before ++ [⟨name, (api.endpoints name).endpoints⟩])] } _ hapi rfl
      refine ⟨.ask 0 :: labels, t, hchanges, ?_, ?_⟩
      · rw [run, hstep]
        exact hrun
      · rw [hafter, List.append_assoc, List.singleton_append]
  | @change api history names services hrest ih =>
      intro s before _ hjobs
      cases history with
      | nil =>
          cases hrest with
          | done => exact ⟨[], s, rfl, rfl, by rw [hjobs, List.append_nil]⟩
      | cons next history =>
          obtain ⟨labels, t, hchanges, hrun, hafter⟩ :=
            ih { s with api := next, timers := restartTimer s.timers } before
              (by rintro api ⟨⟩; rfl) hjobs
          refine ⟨.event next :: labels, t, ?_, hrun, hafter⟩
          rw [changes_cons, hchanges]
          rfl

theorem restartTimer_pending (timers : List Timer) : (restartTimer timers)[timers.length]? = some .pending := by
  rw [restartTimer, List.getElem?_append_right (by rw [length_cancelLast]), length_cancelLast, Nat.sub_self]
  rfl

theorem exists_run (first : Api) (file loaded : List Proxy) {history : List Api} {services : List Service}
    (h : Fetched history services) :
    ∃ labels last, changes labels = history ∧ run step (start first file loaded) labels = some last ∧
      last.loaded = render services := by
  obtain ⟨before, listed, after, rfl, hgathered⟩ := h
  obtain ⟨s, hbefore, hjobs, -⟩ := run_events before (start first file loaded)
  have hnil : s.jobs = [] := hjobs
  let listing : System :=
    { s with
      api := listed
      timers := (restartTimer s.timers).set s.timers.length .fired
      jobs := [.asking listed.names []] }
  have hopening : run step s [.event listed, .expire s.timers.length, .list 0] = some listing := by
    simp only [run, step, Option.bind_some, restartTimer_pending, hnil]
    rfl
  obtain ⟨labels, t, hchanges, hasked, hafter⟩ := run_gathered hgathered listing [] (by rintro api ⟨⟩; rfl) rfl
  have hclosing : run step t [.write 0, .reload 0] =
      some { t with jobs := [.finished], file := render services, loaded := render services } := by
    simp only [run, step, hafter, List.nil_append]
    rfl
  refine ⟨before.map .event ++ ([.event listed, .expire s.timers.length, .list 0] ++ (labels ++ [.write 0, .reload 0])),
    { t with jobs := [.finished], file := render services, loaded := render services }, ?_, ?_, rfl⟩
  · have hopened : changes [.event listed, .expire s.timers.length, .list 0] = [listed] := rfl
    have hclosed : changes [.write 0, .reload 0] = [] := rfl
    rw [changes_append, changes_append, changes_append, changes_events, hchanges, hopened, hclosed, List.append_nil]
    rfl
  · rw [run_append _ _ hbefore, run_append _ _ hopening, run_append _ _ hasked, hclosing]

end Witnesses

-- What HAProxy can be made to load while the API goes through a list of states: exactly
-- the names of one of them, each with the endpoints of that or a later state, in order.
theorem loaded_iff (first : Api) (file loaded config : List Proxy) (history : List Api) :
    (∃ labels last, changes labels = history ∧ run step (start first file loaded) labels = some last ∧
      last.loaded = config) ↔ config = loaded ∨ RendersFetched history config := by
  constructor
  · rintro ⟨labels, last, rfl, hrun, rfl⟩
    have hlast := fromHistory_run labels (fromHistory_start first file) hrun
    rw [List.nil_append] at hlast
    exact hlast.loaded
  · rintro (rfl | ⟨services, hservices, rfl⟩)
    · obtain ⟨last, hrun, -, hloaded⟩ := run_events history (start first file config)
      exact ⟨_, last, changes_events history, hrun, hloaded⟩
    · exact exists_run first file loaded hservices

end MesosPoc.LoadBalancer.Fetching
