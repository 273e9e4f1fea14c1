import MesosPoc.LoadBalancer.Reload

namespace MesosPoc.LoadBalancer

open Machine

theorem mem_set_self {α : Type*} {entries : List α} {index : Nat} {old : α} (new : α)
    (h : entries[index]? = some old) : new ∈ entries.set index new := by
  obtain ⟨hi, -⟩ := List.getElem?_eq_some_iff.mp h
  exact List.mem_set hi new

-- An entry stays in a list unless it is the one that is replaced.
theorem mem_set_or_replaced {α : Type*} {entries : List α} {entry : α} (index : Nat) (new : α)
    (hm : entry ∈ entries) : entry ∈ entries.set index new ∨ entries[index]? = some entry := by
  obtain ⟨i, hi, rfl⟩ := List.getElem_of_mem hm
  by_cases he : index = i
  · subst index
    exact Or.inr (List.getElem?_eq_getElem hi)
  · refine Or.inl (List.mem_iff_getElem.mpr ⟨i, by simpa using hi, ?_⟩)
    rw [List.getElem_set_ne he]

-- The entries beside one that is replaced.
theorem mem_set_of_mem_eraseIdx {α : Type*} {entries : List α} {entry : α} (index : Nat) (new : α)
    (hm : entry ∈ entries.eraseIdx index) : entry ∈ entries.set index new := by
  obtain ⟨i, hne, hi⟩ := List.mem_eraseIdx_iff_getElem?.mp hm
  apply List.mem_of_getElem? (i := i)
  rw [List.getElem?_set_ne hne.symm, hi]

theorem Job.wrote_iff (events : Nat) (job : Job) :
    job.wrote events = true ↔ job = .written events ∨ job = .finished events := by
  cases job <;> simp [Job.wrote]

def Job.Fetched (job : Job) (seen : Nat) : Prop :=
  (∃ services, job = .fetched seen services) ∨ job.wrote seen = true

-- The conditions that the steps of a run have to meet.
def Orderly {σ : Type} (loadservices : σ → Except PyError (List Service)) (s : System σ) (label : Label σ) : Prop :=
  ¬staleWrite s label ∧ ¬fatalFailure loadservices s label

instance decidableOrderly {σ : Type} (loadservices : σ → Except PyError (List Service)) (s : System σ)
    (label : Label σ) : Decidable (Orderly loadservices s label) :=
  inferInstanceAs (Decidable (_ ∧ _))

section Invariant

variable {σ : Type} {loadservices : σ → Except PyError (List Service)}

-- All that one step can do.
theorem step_cases {s t : System σ} {label : Label σ} (h : step loadservices s label = some t) :
    (∃ api, label = .event api ∧
      t = { s with api := api, events := s.events + 1, timers := restartTimer s.timers }) ∨
    (∃ timer, label = .expire timer ∧ s.timers[timer]? = some .pending ∧
      t = { s with timers := s.timers.set timer .fired, jobs := s.jobs ++ [.started] }) ∨
    (∃ job, label = .fetch job ∧ s.jobs[job]? = some .started ∧
      t = { s with jobs := s.jobs.set job (fetch loadservices s.api s.events) }) ∨
    (∃ job seen services, label = .write job ∧ s.jobs[job]? = some (.fetched seen services) ∧
      t = { s with jobs := s.jobs.set job (.written seen), file := .whole (render services) }) ∨
    (∃ job seen, label = .reload job ∧ s.jobs[job]? = some (.written seen) ∧
      t = { s with jobs := s.jobs.set job (.finished seen), loaded := s.file }) ∨
    (∃ job, label = .fail job ∧
      (s.jobs[job]? = some .started ∨ ∃ seen services, s.jobs[job]? = some (.fetched seen services)) ∧
      t = { s with jobs := s.jobs.set job .failed }) ∨
    (∃ job bytes seen services, label = .cut job bytes ∧ s.jobs[job]? = some (.fetched seen services) ∧
      t = { s with jobs := s.jobs.set job .failed, file := .cut (render services) bytes }) := by
  cases label with
  | event api => exact Or.inl ⟨api, rfl, (Option.some.inj h).symm⟩
  | expire timer =>
      right; left
      simp only [step] at h
      split at h
      · rename_i ht
        exact ⟨timer, rfl, ht, (Option.some.inj h).symm⟩
      · cases h
  | fetch job =>
      right; right; left
      simp only [step] at h
      split at h
      · rename_i hj
        exact ⟨job, rfl, hj, (Option.some.inj h).symm⟩
      · cases h
  | write job =>
      right; right; right; left
      simp only [step] at h
      split at h
      · rename_i seen services hj
        exact ⟨job, seen, services, rfl, hj, (Option.some.inj h).symm⟩
      · cases h
  | reload job =>
      right; right; right; right; left
      simp only [step] at h
      split at h
      · rename_i seen hj
        exact ⟨job, seen, rfl, hj, (Option.some.inj h).symm⟩
      · cases h
  | fail job =>
      right; right; right; right; right; left
      simp only [step] at h
      split at h
      · rename_i hj
        exact ⟨job, rfl, Or.inl hj, (Option.some.inj h).symm⟩
      · rename_i seen services hj
        exact ⟨job, rfl, Or.inr ⟨seen, services, hj⟩, (Option.some.inj h).symm⟩
      · cases h
  | cut job bytes =>
      right; right; right; right; right; right
      simp only [step] at h
      split at h
      · rename_i seen services hj
        exact ⟨job, bytes, seen, services, rfl, hj, (Option.some.inj h).symm⟩
      · cases h

-- The file has the present state, and HAProxy has it or is about to get it.
def Current (loadservices : σ → Except PyError (List Service)) (s : System σ) : Prop :=
  ∃ services, loadservices s.api = .ok services ∧ s.file = .whole (render services) ∧
    (Job.written s.events ∈ s.jobs ∨ Job.finished s.events ∈ s.jobs ∧ s.loaded = .whole (render services))

def Awaited (s : System σ) : Prop :=
  Timer.pending ∈ s.timers ∨ ∃ job ∈ s.jobs, job.awaited s.events = true

def Wrote (s : System σ) : Prop :=
  ∃ job ∈ s.jobs, job.wrote s.events = true

-- A snapshot that has seen all events so far is the present one, on its way
-- through the jobs, the file and HAProxy, and one is always on its way.
structure Fresh (loadservices : σ → Except PyError (List Service)) (s : System σ) : Prop where
  seen_le : ∀ job ∈ s.jobs, ∀ seen, job.Fetched seen → seen ≤ s.events
  fetched : ∀ services, Job.fetched s.events services ∈ s.jobs → loadservices s.api = .ok services
  current : Wrote s → s.file.isWhole = true → Current loadservices s
  coming : 0 < s.events → Awaited s ∨ Wrote s ∧ s.file.isWhole = true

theorem fresh_start (api : σ) (file loaded : Config) : Fresh loadservices (start api file loaded) := by
  constructor <;> simp [start, Wrote]

theorem fresh_event (s : System σ) (hf : Fresh loadservices s) (api : σ) :
    Fresh loadservices
      { s with api := api, events := s.events + 1, timers := restartTimer s.timers } where
  seen_le job hm seen hs := Nat.le_succ_of_le (hf.seen_le job hm seen hs)
  fetched services hm := by
    have := hf.seen_le _ hm _ (Or.inl ⟨services, rfl⟩)
    simp only at this
    omega
  current hw := by
    obtain ⟨job, hm, hwrote⟩ := hw
    have := hf.seen_le job hm _ (Or.inr hwrote)
    simp only at this
    omega
  coming _ := Or.inl (Or.inl (by simp [restartTimer]))

theorem fresh_expire (s : System σ) (hf : Fresh loadservices s) (timer : Nat) :
    Fresh loadservices
      { s with timers := s.timers.set timer .fired, jobs := s.jobs ++ [.started] } where
  seen_le job hm seen hs := by
    rcases List.mem_append.mp hm with hm | hm
    · exact hf.seen_le job hm seen hs
    · obtain rfl := List.mem_singleton.mp hm
      simp [Job.Fetched, Job.wrote] at hs
  fetched services hm := hf.fetched services (by simpa using hm)
  current hw hwhole := by
    have hwrote : Wrote s := by
      obtain ⟨job, hm, hjob⟩ := hw
      rcases List.mem_append.mp hm with hm | hm
      · exact ⟨job, hm, hjob⟩
      · rw [List.mem_singleton.mp hm] at hjob
        cases hjob
    obtain ⟨services, hok, hfile, hjobs⟩ := hf.current hwrote hwhole
    exact ⟨services, hok, hfile, hjobs.imp (List.mem_append_left _) fun h => ⟨List.mem_append_left _ h.1, h.2⟩⟩
  coming _ := Or.inl (Or.inr ⟨.started, by simp, rfl⟩)

section Replaced

variable {s : System σ} {job : Nat} {old new : Job}

-- A job that has not written yet goes on or fails, and the file stays.
theorem current_of_set (hj : s.jobs[job]? = some old) (hold : ∀ seen, old.wrote seen = false)
    (h : Current loadservices s) : Current loadservices { s with jobs := s.jobs.set job new } := by
  have hkept : ∀ entry ∈ s.jobs, entry.wrote s.events = true → entry ∈ s.jobs.set job new := by
    intro entry hm hwrote
    refine (mem_set_or_replaced job new hm).resolve_right ?_
    intro he
    obtain rfl : old = entry := Option.some.inj (hj.symm.trans he)
    rw [hold] at hwrote
    cases hwrote
  obtain ⟨services, hok, hfile, hjobs⟩ := h
  refine ⟨services, hok, hfile, hjobs.imp (fun h => hkept _ h ?_) fun h => ⟨hkept _ h.1 ?_, h.2⟩⟩
  · exact (Job.wrote_iff _ _).mpr (Or.inl rfl)
  · exact (Job.wrote_iff _ _).mpr (Or.inr rfl)

theorem wrote_of_set (hnew : ∀ seen, new.wrote seen = false)
    (h : Wrote { s with jobs := s.jobs.set job new }) : Wrote s := by
  obtain ⟨entry, hm, hwrote⟩ := h
  rcases List.mem_or_eq_of_mem_set hm with hm | rfl
  · exact ⟨entry, hm, hwrote⟩
  · rw [hnew] at hwrote
    cases hwrote

theorem wrote_set (hj : s.jobs[job]? = some old) (hsame : old.wrote s.events = true → new.wrote s.events = true)
    (h : Wrote s) : Wrote { s with jobs := s.jobs.set job new } := by
  obtain ⟨entry, hm, hwrote⟩ := h
  rcases mem_set_or_replaced job new hm with hm | he
  · exact ⟨entry, hm, hwrote⟩
  · obtain rfl : old = entry := Option.some.inj (hj.symm.trans he)
    exact ⟨new, mem_set_self new hj, hsame hwrote⟩

theorem awaited_set (hj : s.jobs[job]? = some old) (hsame : old.awaited s.events = true → new.awaited s.events = true)
    (h : Awaited s) : Awaited { s with jobs := s.jobs.set job new } := by
  refine h.imp id ?_
  rintro ⟨entry, hm, hentry⟩
  rcases mem_set_or_replaced job new hm with hm | he
  · exact ⟨entry, hm, hentry⟩
  · obtain rfl : old = entry := Option.some.inj (hj.symm.trans he)
    exact ⟨new, mem_set_self new hj, hsame hentry⟩

theorem awaited_of_coming (h : coming s job = true) : Awaited { s with jobs := s.jobs.set job new } := by
  rw [coming, Bool.or_eq_true, List.contains_iff_mem, List.any_eq_true] at h
  refine h.imp id ?_
  rintro ⟨entry, hm, hentry⟩
  exact ⟨entry, mem_set_of_mem_eraseIdx job new hm, hentry⟩

end Replaced

theorem fresh_fetched (s : System σ) (hf : Fresh loadservices s) (job : Nat) (hj : s.jobs[job]? = some .started)
    (services : List Service) (hok : loadservices s.api = .ok services) :
    Fresh loadservices { s with jobs := s.jobs.set job (.fetched s.events services) } where
  seen_le other hm seen hs := by
    rcases List.mem_or_eq_of_mem_set hm with hm | rfl
    · exact hf.seen_le other hm seen hs
    · have : seen = s.events := by simpa [Job.Fetched, Job.wrote, eq_comm] using hs
      simp [this]
  fetched others hm := by
    rcases List.mem_or_eq_of_mem_set hm with hm | he
    · exact hf.fetched others hm
    · obtain ⟨-, rfl⟩ := Job.fetched.inj he
      exact hok
  current hw hwhole := current_of_set hj (fun _ => rfl) (hf.current (wrote_of_set (fun _ => rfl) hw) hwhole)
  coming _ := Or.inl (Or.inr ⟨_, mem_set_self _ hj, by simp [Job.awaited]⟩)

-- A failure that leaves the file as it is.
theorem fresh_failed (s : System σ) (hf : Fresh loadservices s) (job : Nat) (old : Job)
    (hj : s.jobs[job]? = some old) (hold : ∀ seen, old.wrote seen = false)
    (hhope : coming s job = true ∨ arrived s = true) :
    Fresh loadservices { s with jobs := s.jobs.set job .failed } where
  seen_le other hm seen hs := by
    rcases List.mem_or_eq_of_mem_set hm with hm | rfl
    · exact hf.seen_le other hm seen hs
    · simp [Job.Fetched, Job.wrote] at hs
  fetched services hm := by
    rcases List.mem_or_eq_of_mem_set hm with hm | he
    · exact hf.fetched services hm
    · cases he
  current hw hwhole := current_of_set hj hold (hf.current (wrote_of_set (fun _ => rfl) hw) hwhole)
  coming _ := by
    rcases hhope with hcoming | harrived
    · exact Or.inl (awaited_of_coming hcoming)
    · rw [arrived, Bool.and_eq_true, List.any_eq_true] at harrived
      refine Or.inr ⟨wrote_set hj ?_ harrived.1, harrived.2⟩
      intro hwrote
      rw [hold] at hwrote
      cases hwrote

theorem fresh_cut (s : System σ) (hf : Fresh loadservices s) (job bytes : Nat) (services : List Service)
    (hhope : coming s job = true) :
    Fresh loadservices { s with jobs := s.jobs.set job .failed, file := .cut (render services) bytes } where
  seen_le other hm seen hs := by
    rcases List.mem_or_eq_of_mem_set hm with hm | rfl
    · exact hf.seen_le other hm seen hs
    · simp [Job.Fetched, Job.wrote] at hs
  fetched others hm := by
    rcases List.mem_or_eq_of_mem_set hm with hm | he
    · exact hf.fetched others hm
    · cases he
  current _ hwhole := by cases hwhole
  coming _ := Or.inl (awaited_of_coming hhope)

-- A write that is not stale puts a snapshot into the file that is at least as
-- new as the one it replaces.
theorem fresh_write (s : System σ) (hf : Fresh loadservices s) (job seen : Nat)
    (services : List Service) (hj : s.jobs[job]? = some (.fetched seen services))
    (hn : ∀ other ∈ s.jobs, ∀ later, other.wrote later = true → later ≤ seen) :
    Fresh loadservices
      { s with jobs := s.jobs.set job (.written seen), file := .whole (render services) } := by
  have hmem := List.mem_of_getElem? hj
  have hle : seen ≤ s.events := hf.seen_le _ hmem seen (Or.inl ⟨services, rfl⟩)
  constructor
  · intro other hm later hs
    rcases List.mem_or_eq_of_mem_set hm with hm | rfl
    · exact hf.seen_le other hm later hs
    · have he : seen = later := by simpa [Job.Fetched, Job.wrote] using hs
      exact he ▸ hle
  · intro others hm
    rcases List.mem_or_eq_of_mem_set hm with hm | he
    · exact hf.fetched others hm
    · cases he
  · rintro ⟨other, hm, hwrote⟩ -
    have hge : s.events ≤ seen := by
      rcases List.mem_or_eq_of_mem_set hm with hm | rfl
      · exact hn other hm _ hwrote
      · have : seen = s.events := by simpa [Job.wrote] using hwrote
        omega
    obtain rfl : seen = s.events := by omega
    exact ⟨services, hf.fetched services hmem, rfl, Or.inl (mem_set_self _ hj)⟩
  · intro hpos
    by_cases he : seen = s.events
    · refine Or.inr ⟨⟨.written seen, mem_set_self _ hj, ?_⟩, rfl⟩
      simp [Job.wrote, he]
    · rcases hf.coming hpos with hawaited | ⟨⟨other, hm, hwrote⟩, -⟩
      · refine Or.inl (awaited_set hj ?_ hawaited)
        intro hold
        exact absurd (by simpa [Job.awaited] using hold) he
      · have := hn other hm _ hwrote
        omega

theorem fresh_reload (s : System σ) (hf : Fresh loadservices s) (job seen : Nat)
    (hj : s.jobs[job]? = some (.written seen)) :
    Fresh loadservices
      { s with jobs := s.jobs.set job (.finished seen), loaded := s.file } := by
  have hback : Wrote { s with jobs := s.jobs.set job (.finished seen), loaded := s.file } → Wrote s := by
    rintro ⟨other, hm, hwrote⟩
    rcases List.mem_or_eq_of_mem_set hm with hm | rfl
    · exact ⟨other, hm, hwrote⟩
    · exact ⟨.written seen, List.mem_of_getElem? hj, hwrote⟩
  constructor
  · intro other hm later hs
    rcases List.mem_or_eq_of_mem_set hm with hm | rfl
    · exact hf.seen_le other hm later hs
    · exact hf.seen_le _ (List.mem_of_getElem? hj) later (by simpa [Job.Fetched, Job.wrote] using hs)
  · intro services hm
    rcases List.mem_or_eq_of_mem_set hm with hm | he
    · exact hf.fetched services hm
    · cases he
  · intro hw hwhole
    obtain ⟨services, hok, hfile, hjobs⟩ := hf.current (hback hw) hwhole
    refine ⟨services, hok, hfile, ?_⟩
    have hkept : ∀ entry, entry ∈ s.jobs → entry = .written s.events ∨ entry = .finished s.events →
        Job.written s.events ∈ s.jobs.set job (.finished seen) ∨
          Job.finished s.events ∈ s.jobs.set job (.finished seen) := by
      intro entry hm hentry
      rcases mem_set_or_replaced job (.finished seen) hm with hm | he
      · rcases hentry with rfl | rfl
        · exact Or.inl hm
        · exact Or.inr hm
      · obtain rfl := Option.some.inj (hj.symm.trans he)
        rcases hentry with he | he
        · obtain rfl := Job.written.inj he
          exact Or.inr (mem_set_self _ hj)
        · cases he
    have hnow := hjobs.elim (fun h => hkept _ h (Or.inl rfl)) fun h => hkept _ h.1 (Or.inr rfl)
    exact hnow.imp id fun h => ⟨h, hfile⟩
  · intro hpos
    rcases hf.coming hpos with hawaited | ⟨hwrote, hwhole⟩
    · exact Or.inl (awaited_set hj (fun h => by cases h) hawaited)
    · exact Or.inr ⟨wrote_set hj id hwrote, hwhole⟩

theorem hope_of_not_fatal {first second : Bool} (h : ¬(!(first || second)) = true) : first = true ∨ second = true := by
  rwa [Bool.not_eq_true', Bool.not_eq_false, Bool.or_eq_true] at h

theorem fresh_step (s t : System σ) (label : Label σ) (hf : Fresh loadservices s)
    (ho : Orderly loadservices s label) (h : step loadservices s label = some t) : Fresh loadservices t := by
  obtain ⟨hn, hlost⟩ := ho
  rcases step_cases h with ⟨api, rfl, rfl⟩ | ⟨timer, rfl, -, rfl⟩ | ⟨job, rfl, hj, rfl⟩ |
    ⟨job, seen, services, rfl, hj, rfl⟩ | ⟨job, seen, rfl, hj, rfl⟩ | ⟨job, rfl, hj, rfl⟩ |
    ⟨job, bytes, seen, services, rfl, hj, rfl⟩
  · exact fresh_event s hf api
  · exact fresh_expire s hf timer
  · cases hok : loadservices s.api with
    | ok services =>
        have hfetch : fetch loadservices s.api s.events = .fetched s.events services := by
          rw [fetch, hok]
        rw [hfetch]
        exact fresh_fetched s hf job hj services hok
    | error e =>
        have hfetch : fetch loadservices s.api s.events = .failed := by
          rw [fetch, hok]
        rw [hfetch]
        simp only [fatalFailure, hok] at hlost
        exact fresh_failed s hf job .started hj (fun _ => rfl) (hope_of_not_fatal hlost)
  · refine fresh_write s hf job seen services hj ?_
    intro other hm later hw
    by_contra hlt
    have ha : other.wroteAfter seen = true := by
      rcases (Job.wrote_iff later other).mp hw with rfl | rfl <;> simpa [Job.wroteAfter] using hlt
    exact hn (by simpa only [staleWrite, hj] using List.any_eq_true.mpr ⟨other, hm, ha⟩)
  · exact fresh_reload s hf job seen hj
  · have hhope := hope_of_not_fatal hlost
    rcases hj with hj | ⟨seen, services, hj⟩
    · exact fresh_failed s hf job .started hj (fun _ => rfl) hhope
    · exact fresh_failed s hf job (.fetched seen services) hj (fun _ => rfl) hhope
  · exact fresh_cut s hf job bytes services (by simpa [fatalFailure] using hlost)

theorem fresh_quiescent (s : System σ) (hf : Fresh loadservices s) :
    NoLostReconfiguration loadservices s := by
  rintro ⟨htimers, hjobs⟩ hpos
  rcases hf.coming hpos with (hp | ⟨job, hm, hawaited⟩) | ⟨hwrote, hwhole⟩
  · exact absurd hp htimers
  · rcases hjobs job hm with ⟨seen, rfl⟩ | rfl <;> cases hawaited
  · obtain ⟨services, hok, hfile, hwritten | ⟨-, hloaded⟩⟩ := hf.current hwrote hwhole
    · rcases hjobs _ hwritten with ⟨seen, he⟩ | he <;> cases he
    · exact ⟨services, hok, hfile, hloaded⟩

end Invariant

-- In a run without stale writes in which no failure takes the last chance no
-- reconfiguration is lost.
theorem no_lost_reconfiguration {σ : Type} (loadservices : σ → Except PyError (List Service)) (api : σ)
    (file loaded : Config) (s : System σ)
    (hr : Reaches (step loadservices) (Orderly loadservices) (start api file loaded) s) :
    NoLostReconfiguration loadservices s := by
  apply fresh_quiescent
  apply hr.invariant _ (fresh_start api file loaded)
  intro before label after hf ho hs
  exact fresh_step before after label hf ho hs

section Runs

def web (address : Str) : List Service :=
  [⟨"web".toList, [⟨address, 80⟩]⟩]

def oldWeb : List Service := web "10.0.0.1".toList

def newWeb : List Service := web "10.0.0.2".toList

-- Two reloads, one after the other, and a third one whose write fails before a fourth.
def orderlyRun : List (Label (List Service)) :=
  [.event oldWeb, .expire 0, .fetch 0, .write 0, .reload 0,
    .event newWeb, .expire 1, .fetch 1, .write 1, .reload 1,
    .event oldWeb, .expire 2, .fetch 2, .event newWeb, .cut 2 7, .expire 3, .fetch 3, .write 3, .reload 3]

def orderlyEnd : System (List Service) where
  api := newWeb
  events := 4
  timers := [.fired, .fired, .fired, .fired]
  jobs := [.finished 1, .finished 2, .failed, .finished 4]
  file := .whole (render newWeb)
  loaded := .whole (render newWeb)

theorem no_lost_reconfiguration_orderly :
    orderlyEnd.events = 4 ∧ NoLostReconfiguration .ok orderlyEnd := by
  refine ⟨rfl, no_lost_reconfiguration .ok [] (.whole []) (.whole []) orderlyEnd ?_⟩
  exact reaches_of_run orderlyRun (by decide) (by decide)

-- Between the fetch and the write of the first job a second event comes, whose
-- job overtakes the first one.
def overtakingRun : List (Label (List Service)) :=
  [.event oldWeb, .expire 0, .fetch 0, .event newWeb, .expire 1, .fetch 1, .write 1, .reload 1,
    .write 0, .reload 0]

def overtakingEnd : System (List Service) where
  api := newWeb
  events := 2
  timers := [.fired, .fired]
  jobs := [.finished 1, .finished 2]
  file := .whole (render oldWeb)
  loaded := .whole (render oldWeb)

theorem overtaken_job_reverts_configuration :
    Reaches (step .ok) anyStep (start [] (.whole []) (.whole [])) overtakingEnd ∧
      ¬NoLostReconfiguration .ok overtakingEnd := by
  refine ⟨reaches_of_run_any overtakingRun (by decide), ?_⟩
  intro h
  have hq : Quiescent overtakingEnd := by
    refine ⟨by decide, ?_⟩
    intro job hm
    rcases List.mem_pair.mp hm with rfl | rfl
    · exact Or.inl ⟨1, rfl⟩
    · exact Or.inl ⟨2, rfl⟩
  obtain ⟨services, hok, hfile, -⟩ := h hq (by decide)
  obtain rfl := Except.ok.inj hok
  revert hfile
  decide

end Runs

end MesosPoc.LoadBalancer
