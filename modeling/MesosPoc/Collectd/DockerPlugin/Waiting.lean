import MesosPoc.Collectd.DockerPlugin.Entries

namespace MesosPoc.Collectd

-- All containers of a call have a name of their own.
def Named : Label → Prop
  | .call containers => ∀ c ∈ containers, c.name.isSome
  | _ => True

-- A thread that makes no more requests.
def ContainerStats.Over (thread : ContainerStats) : Prop :=
  thread.position ≠ .reading ∧
    (thread.stop = true ∨ thread.container.name = none ∧ thread.position ≠ .testing)

theorem ContainerStats.Over.proceed {thread next : ContainerStats} (h : thread.Over)
    (hnext : thread.proceed = some next) : next.Over ∧ next.stats = thread.stats := by
  obtain ⟨position, rfl, hreading, htesting, -⟩ := proceed_eq hnext
  refine ⟨⟨?_, ?_⟩, rfl⟩
  · intro hp
    obtain ⟨hstop, hposition⟩ := hreading hp
    rcases h.2 with hover | ⟨-, hover⟩
    · rw [hstop] at hover
      cases hover
    · exact hover hposition
  · rcases h.2 with hover | ⟨hname, -⟩
    · exact Or.inl hover
    · refine Or.inr ⟨hname, ?_⟩
      intro hp
      have hsome := htesting hp
      rw [hname] at hsome
      cases hsome

theorem Gathers.over {rs : List (Option Json)} {registered : Prop} {thread : ContainerStats}
    (h : Gathers rs registered thread) (hover : GaveUp rs ∨ thread.container.name = none) : thread.Over := by
  rcases hover with hg | hname
  · exact ⟨h.quiet hg, Or.inl (h.stop.mpr (Or.inr hg))⟩
  · rcases h.unnamed hname with hp | hp
    · exact ⟨by simp [hp], Or.inr ⟨hname, by simp [hp]⟩⟩
    · exact ⟨by simp [hp], Or.inr ⟨hname, by simp [hp]⟩⟩

-- The containers that read_callback has not served yet.
def Callback.ahead : Callback → List Container
  | .idle => []
  | .listed _ containers => containers
  | .waiting c rest => c :: rest
  | .taking _ rest => rest

-- All containers that read_callback has in hand.
def Callback.inHand : Callback → List Container
  | .taking c rest => c :: rest
  | callback => callback.ahead

namespace DockerPlugin

open Machine

-- Thread i is at its end, with these stats.
def Finished (s : DockerPlugin) (i : Nat) (stats : Option Json) : Prop :=
  ∃ thread, s.threads[i]? = some thread ∧ thread.Over ∧ thread.stats = stats

section Finished

variable {s t : DockerPlugin} {label : Label} {cid : Str} {i : Nat} {stats : Option Json}

theorem finished_step (h : s.Finished i stats) (hstep : s.step label = some t) :
    t.Finished i stats ∧ label.readingOf i = none := by
  obtain ⟨thread, hthread, hover, rfl⟩ := h
  cases moves_of_step hstep with
  | discarded cid gone containers hlisted hm =>
      refine ⟨?_, rfl⟩
      by_cases hcid : s.stats.lookup cid = some i
      · refine ⟨{ thread with stop := true }, ?_, ⟨hover.1, Or.inl rfl⟩, rfl⟩
        show (s.stopThread cid).threads[i]? = _
        rw [getElem?_stopThread, if_pos hcid, hthread, Option.map_some]
      · refine ⟨thread, ?_, hover, rfl⟩
        show (s.stopThread cid).threads[i]? = _
        rw [getElem?_stopThread, if_neg hcid, hthread]
  | visited c rest hlisted =>
      refine ⟨⟨thread, ?_, hover, rfl⟩, rfl⟩
      show (s.addThread c).threads[i]? = _
      rw [threads_addThread, List.getElem?_append_left (List.getElem?_eq_some_iff.mp hthread).1, hthread]
  | proceeded j value next hvalue hnext =>
      refine ⟨?_, rfl⟩
      by_cases hi : i = j
      · subst hi
        obtain rfl : thread = value := Option.some.inj (hthread.symm.trans hvalue)
        obtain ⟨hnextover, hstats⟩ := hover.proceed hnext
        exact ⟨next, by rw [getElem?_setThread i i next hvalue, if_pos rfl], hnextover, hstats⟩
      · exact ⟨thread, by rw [getElem?_setThread j i next hvalue, if_neg hi, hthread], hover, rfl⟩
  | answered j reading value next hvalue hnext =>
      have hi : i ≠ j := by
        rintro rfl
        obtain rfl : thread = value := Option.some.inj (hthread.symm.trans hvalue)
        exact hover.1 (answer_eq hnext).1
      refine ⟨⟨thread, by rw [getElem?_setThread j i next hvalue, if_neg hi, hthread], hover, rfl⟩, ?_⟩
      exact if_neg (Ne.symm hi)
  | _ => exact ⟨⟨thread, hthread, hover, rfl⟩, rfl⟩

theorem gatherer_of_kept (h : s.Finished i stats) (hlookup : s.stats.lookup cid = some i) {thread : ContainerStats}
    (hthread : s.gatherer cid = some thread) : thread.stats = stats := by
  obtain ⟨value, hvalue, -, rfl⟩ := h
  rw [gatherer, hlookup, Option.bind_some, hvalue] at hthread
  rw [Option.some.inj hthread]

-- What one step serves of a container whose thread is at its end.
theorem served_step (h : s.Finished i stats) (hlookup : s.stats.lookup cid = some i) (hstep : s.step label = some t) :
    ∃ new, t.served = s.served ++ new ∧ ∀ value, (cid, value) ∈ new → stats = some value := by
  have hnone : ∃ new, s.served = s.served ++ new ∧ ∀ value, (cid, value) ∈ new → stats = some value :=
    ⟨[], (List.append_nil _).symm, fun value hm => absurd hm List.not_mem_nil⟩
  cases moves_of_step hstep with
  | taken c rest thread value htaking hthread hvalue hname =>
      refine ⟨[(c.id, value)], rfl, ?_⟩
      intro value' hm
      obtain ⟨hid, rfl⟩ := Prod.mk.inj (List.mem_singleton.mp hm)
      rw [← hid] at hthread
      rw [← gatherer_of_kept h hlookup hthread, hvalue]
  | discarded cid gone containers hlisted hm =>
      have hserved : (s.stopThread cid).served = s.served := by
        unfold stopThread
        split <;> rfl
      simp only [hserved]
      exact hnone
  | visited c rest hlisted =>
      have hserved : (s.addThread c).served = s.served := by
        unfold addThread
        split <;> rfl
      simp only [hserved]
      exact hnone
  | _ => exact hnone

-- The entry of a container is thread i, which is at its end with these stats.
structure Stale (s : DockerPlugin) (cid : Str) (i : Nat) (stats : Option Json) : Prop where
  finished : s.Finished i stats
  kept : s.Kept cid i
  lt : i < s.threads.length

theorem stale_step (h : s.Stale cid i stats) (hlisted : Lists cid label) (hstep : s.step label = some t) :
    t.Stale cid i stats where
  finished := (finished_step h.finished hstep).1
  kept := (kept_step h.lt hstep).mpr ⟨h.kept, hlisted⟩
  lt := h.lt.trans_le (threads_length_step hstep)

theorem served_run (labels : List Label) (h : s.Stale cid i stats) (hlisted : ∀ label ∈ labels, Lists cid label)
    (hrun : run step s labels = some t) :
    readings i labels = [] ∧
      ∃ new, t.served = s.served ++ new ∧ ∀ value, (cid, value) ∈ new → stats = some value := by
  induction labels generalizing s with
  | nil =>
      obtain rfl : s = t := Option.some.inj hrun
      exact ⟨rfl, [], (List.append_nil _).symm, fun value hm => absurd hm List.not_mem_nil⟩
  | cons label rest ih =>
      obtain ⟨next, hs, hrun⟩ := Option.bind_eq_some_iff.mp hrun
      rw [List.forall_mem_cons] at hlisted
      obtain ⟨-, hreading⟩ := finished_step h.finished hs
      obtain ⟨hreadings, new, hserved, hnew⟩ := ih (stale_step h hlisted.1 hs) hlisted.2 hrun
      obtain ⟨first, hfirst, hfirst'⟩ := served_step h.finished h.kept.1 hs
      refine ⟨?_, first ++ new, by rw [hserved, hfirst, List.append_assoc], ?_⟩
      · unfold readings at hreadings ⊢
        rw [List.filterMap_cons_none hreading, hreadings]
      · intro value hm
        rcases List.mem_append.mp hm with hm | hm
        · exact hfirst' value hm
        · exact hnew value hm

end Finished

section Waits

variable {s t : DockerPlugin} {label : Label} {c : Container} {rest : List Container} {i : Nat}

-- While the thread of a container that is waited for makes no more requests and has no
-- stats, nothing but steps of threads happens.
theorem waiting_step {stats : Option Json} (hwaiting : s.callback = .waiting c rest)
    (hlookup : s.stats.lookup c.id = some i) (h : s.Finished i stats) (hempty : stats.any Json.truthy = false)
    (hstep : s.step label = some t) : t.callback = .waiting c rest ∧ t.stats.lookup c.id = some i := by
  cases moves_of_step hstep with
  | called containers hidle =>
      rw [hwaiting] at hidle
      cases hidle
  | discarded cid gone containers hlisted hm =>
      rw [hwaiting] at hlisted
      cases hlisted
  | returned hlisted =>
      rw [hwaiting] at hlisted
      cases hlisted
  | visited c' rest' hlisted =>
      rw [hwaiting] at hlisted
      cases hlisted
  | seen c' rest' thread hwaiting' hthread havailable =>
      obtain ⟨rfl, rfl⟩ := Callback.waiting.inj (hwaiting.symm.trans hwaiting')
      rw [ContainerStats.available, gatherer_of_kept h hlookup hthread, hempty] at havailable
      cases havailable
  | taken c' rest' thread value htaking hthread hvalue hname =>
      rw [hwaiting] at htaking
      cases htaking
  | raised c' rest' htaking hname =>
      rw [hwaiting] at htaking
      cases htaking
  | proceeded j thread next hthread hnext => exact ⟨hwaiting, hlookup⟩
  | answered j reading thread next hthread hnext => exact ⟨hwaiting, hlookup⟩

theorem waiting_run {stats : Option Json} (labels : List Label) (hwaiting : s.callback = .waiting c rest)
    (hlookup : s.stats.lookup c.id = some i) (h : s.Finished i stats) (hempty : stats.any Json.truthy = false)
    (hrun : run step s labels = some t) : t.callback = .waiting c rest := by
  have hlast := (reaches_of_run_any labels hrun).invariant
    (fun s => (s.callback = .waiting c rest ∧ s.stats.lookup c.id = some i) ∧ s.Finished i stats)
    ⟨⟨hwaiting, hlookup⟩, h⟩
    fun _ _ _ h _ hs => ⟨waiting_step h.1.1 h.1.2 h.2 hempty hs, (finished_step h.2 hs).1⟩
  exact hlast.1.1

end Waits

section Hanging

variable {s t : DockerPlugin} {label : Label} {cid : Str} {i : Nat} {stats : Option Json}

theorem named_step (h : ∀ c ∈ s.callback.inHand, c.name.isSome) (hlabel : Named label)
    (hstep : s.step label = some t) : ∀ c ∈ t.callback.inHand, c.name.isSome := by
  cases moves_of_step hstep with
  | called containers hidle => exact fun c hm => hlabel c (List.mem_filter.mp hm).1
  | discarded cid gone containers hlisted hm =>
      rw [hlisted] at h
      exact h
  | returned hlisted => exact fun c hm => absurd hm List.not_mem_nil
  | visited c rest hlisted =>
      rw [hlisted] at h
      exact h
  | seen c rest thread hwaiting hthread havailable =>
      rw [hwaiting] at h
      exact h
  | taken c rest thread value htaking hthread hvalue hname =>
      rw [htaking] at h
      exact fun c' hm => h c' (List.mem_cons_of_mem _ hm)
  | raised c rest htaking hname => exact fun c hm => absurd hm List.not_mem_nil
  | proceeded j thread next hthread hnext => exact h
  | answered j reading thread next hthread hnext => exact h

theorem named_run (labels : List Label) (h : ∀ c ∈ s.callback.inHand, c.name.isSome)
    (hlabels : ∀ label ∈ labels, Named label) (hrun : run step s labels = some t) :
    ∀ c ∈ t.callback.inHand, c.name.isSome :=
  (reaches_of_run labels hrun (allowed_of_forall hlabels)).invariant
    (fun s => ∀ c ∈ s.callback.inHand, c.name.isSome) h fun _ _ _ h hlabel hs => named_step h hlabel hs

-- A container whose thread is at its end with no stats is ahead of read_callback.
structure Hanging (s : DockerPlugin) (cid : Str) (i : Nat) (stats : Option Json) : Prop where
  stale : s.Stale cid i stats
  named : ∀ c ∈ s.callback.inHand, c.name.isSome
  ahead : cid ∈ ids s.callback.ahead

variable (hempty : stats.any Json.truthy = false)
include hempty

-- read_callback does not get past it.
theorem hanging_step (h : s.Hanging cid i stats) (hlabel : Lists cid label ∧ Named label)
    (hstep : s.step label = some t) : t.Hanging cid i stats := by
  refine ⟨stale_step h.stale hlabel.1 hstep, named_step h.named hlabel.2 hstep, ?_⟩
  obtain ⟨⟨hfinished, ⟨hlookup, -⟩, -⟩, hnamed, hahead⟩ := h
  cases moves_of_step hstep with
  | called containers hidle =>
      rw [hidle] at hahead
      cases hahead
  | discarded cid gone containers hlisted hm =>
      rw [hlisted] at hahead
      exact hahead
  | returned hlisted =>
      rw [hlisted] at hahead
      cases hahead
  | visited c rest hlisted =>
      rw [hlisted] at hahead
      exact hahead
  | seen c rest thread hwaiting hthread havailable =>
      rw [hwaiting] at hahead
      rcases List.mem_cons.mp hahead with hid | hrest
      · rw [← hid] at hthread
        rw [ContainerStats.available, gatherer_of_kept hfinished hlookup hthread, hempty] at havailable
        cases havailable
      · exact hrest
  | taken c rest thread value htaking hthread hvalue hname =>
      rw [htaking] at hahead
      exact hahead
  | raised c rest htaking hname =>
      rw [htaking] at hnamed
      exact absurd (hnamed c List.mem_cons_self) hname
  | proceeded j thread next hthread hnext => exact hahead
  | answered j reading thread next hthread hnext => exact hahead

theorem hanging_run (labels : List Label) (h : s.Hanging cid i stats)
    (hlabels : ∀ label ∈ labels, Lists cid label ∧ Named label) (hrun : run step s labels = some t) :
    t.Hanging cid i stats :=
  (reaches_of_run labels hrun (allowed_of_forall hlabels)).invariant (Hanging · cid i stats) h
    fun _ _ _ h hlabel hs => hanging_step hempty h hlabel hs

-- Nor does a call that begins in the run.
theorem called_run (labels : List Label) (h : s.Stale cid i stats)
    (hlabels : ∀ label ∈ labels, Lists cid label ∧ Named label) (containers : List Container)
    (hcall : Label.call containers ∈ labels) (hrun : run step s labels = some t) : t.Hanging cid i stats := by
  induction labels generalizing s with
  | nil => exact absurd hcall List.not_mem_nil
  | cons label rest ih =>
      obtain ⟨next, hs, hrun⟩ := Option.bind_eq_some_iff.mp hrun
      rw [List.forall_mem_cons] at hlabels
      obtain ⟨⟨hlisted, hnames⟩, hrest⟩ := hlabels
      have hnext := stale_step h hlisted hs
      rcases List.mem_cons.mp hcall with rfl | hcall
      · cases moves_of_step hs with
        | called containers hidle =>
            have hnamed (c : Container) (hm : c ∈ running containers) : c.name.isSome :=
              hnames c (List.mem_filter.mp hm).1
            exact hanging_run hempty rest ⟨hnext, hnamed, hlisted⟩ hrest hrun
      · exact ih hnext hrest hcall hrun

end Hanging

-- A thread that has given up is never replaced while its container is listed: it makes no
-- request and what is served for the container is its last reading. Where it has none, a
-- call that has the container before it, now or later, never returns.
theorem gaveUp_kept (labels more : List Label) (s t : DockerPlugin) (hrun : run step init labels = some s)
    (cid : Str) (i : Nat) (hkept : s.Kept cid i) (hgave : GaveUp (readings i labels))
    (hlisted : ∀ label ∈ more, Lists cid label) (hmore : run step s more = some t) :
    t.Kept cid i ∧ readings i more = [] ∧
      (∃ new, t.served = s.served ++ new ∧
        ∀ value, (cid, value) ∈ new → newest (readings i labels) = some value) ∧
      ((newest (readings i labels)).any Json.truthy = false →
        (∀ c rest, s.callback = .waiting c rest → c.id = cid → t.callback = .waiting c rest) ∧
          ((∀ label ∈ labels ++ more, Named label) →
            (cid ∈ ids s.callback.ahead ∨ ∃ containers, Label.call containers ∈ more) →
              cid ∈ ids t.callback.ahead)) := by
  have haccounted := accounted_run labels hrun
  have hi := lt_of_lookup haccounted hkept.1
  obtain ⟨thread, hthread, -⟩ := haccounted.registered cid i hkept.1
  have hgathers := haccounted.gathers i thread hthread
  have hfinished : s.Finished i (newest (readings i labels)) :=
    ⟨thread, hthread, hgathers.over (Or.inl hgave), hgathers.stats⟩
  have hstale : s.Stale cid i (newest (readings i labels)) := ⟨hfinished, hkept, hi⟩
  obtain ⟨hreadings, hserved⟩ := served_run more hstale hlisted hmore
  refine ⟨(kept_run more hi hmore).mpr ⟨hkept, hlisted⟩, hreadings, hserved, ?_⟩
  intro hempty
  refine ⟨?_, ?_⟩
  · rintro c rest hwaiting rfl
    exact waiting_run more hwaiting hkept.1 hfinished hempty hmore
  · intro hnames hahead
    obtain ⟨hpast, hnames⟩ := List.forall_mem_append.mp hnames
    have hnamed := named_run labels (fun c hm => absurd hm List.not_mem_nil) hpast hrun
    have hlabels : ∀ label ∈ more, Lists cid label ∧ Named label := fun label hm => ⟨hlisted label hm, hnames label hm⟩
    rcases hahead with hahead | ⟨containers, hcall⟩
    · exact (hanging_run hempty more ⟨hstale, hnamed, hahead⟩ hlabels hmore).ahead
    · exact (called_run hempty more hstale hlabels containers hcall hmore).ahead

-- All requests have failed before the first reading.

def hangingLabels : List Label := [.call [web], .visit, .proceed 0] ++ failingLabels

theorem gaveUp_staleLabels : GaveUp (readings 0 staleLabels) := ⟨[some oneReading], [], rfl⟩

theorem servingLabels_lists : ∀ label ∈ servingLabels, Lists "a".toList label := by
  intro label hm
  simp only [servingLabels, List.mem_cons, List.not_mem_nil, or_false] at hm
  rcases hm with rfl | rfl | rfl | rfl | rfl
  · exact List.mem_singleton.mpr rfl
  all_goals trivial

-- With a reading before the failures, and without one.
theorem web_stale :
    (∃ s t new, run step init staleLabels = some s ∧ run step s servingLabels = some t ∧
      t.served = s.served ++ new ∧
        ∀ value, ("a".toList, value) ∈ new → newest (readings 0 staleLabels) = some value) ∧
      ∃ s t, run step init hangingLabels = some s ∧ s.callback = .waiting web [] ∧
        run step s [.proceed 0] = some t ∧ t.callback = .waiting web [] ∧ "a".toList ∈ ids t.callback.ahead := by
  constructor
  · obtain ⟨-, -, ⟨new, hserved, hnew⟩, -⟩ := gaveUp_kept staleLabels servingLabels _ _ rfl "a".toList 0
      ⟨by decide, by decide⟩ gaveUp_staleLabels servingLabels_lists rfl
    exact ⟨_, _, new, rfl, rfl, hserved, hnew⟩
  · obtain ⟨-, -, -, hhangs⟩ := gaveUp_kept hangingLabels [.proceed 0] _ _ rfl "a".toList 0
      ⟨by decide, by decide⟩ ⟨[], [], rfl⟩ (by simp [Lists]) rfl
    obtain ⟨hwaits, hlater⟩ := hhangs rfl
    have hnamed : ∀ label ∈ hangingLabels ++ [.proceed 0], Named label := by
      intro label hm
      simp only [hangingLabels, failingLabels, List.cons_append, List.nil_append, List.mem_cons,
        List.not_mem_nil, or_false] at hm
      rcases hm with rfl | rfl | rfl | rfl | rfl | rfl | rfl | rfl | rfl | rfl | rfl | rfl
      · simp only [Named, List.forall_mem_singleton]
        rfl
      all_goals trivial
    exact ⟨_, _, rfl, rfl, rfl, hwaits web [] rfl rfl, hlater hnamed (.inl (by decide))⟩

end DockerPlugin

end MesosPoc.Collectd
