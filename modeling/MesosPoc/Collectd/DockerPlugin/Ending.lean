import MesosPoc.Collectd.DockerPlugin.Waiting

namespace MesosPoc.Collectd.DockerPlugin

open Machine

section Waits

variable {s t : DockerPlugin} {label : Label} {c : Container} {rest : List Container}

def Entered (s : DockerPlugin) : Prop :=
  ∀ c rest, s.callback = .waiting c rest → c.id ∈ s.stats

theorem entered_step (h : s.Entered) (hstep : s.step label = some t) : t.Entered := by
  cases moves_of_step hstep with
  | visited c rest hlisted =>
      intro c' rest' heq
      obtain ⟨rfl, -⟩ := Callback.waiting.inj heq
      exact mem_addThread c
  | proceeded i thread next hthread hnext => exact h
  | answered i reading thread next hthread hnext => exact h
  | called containers hidle => exact fun c rest heq => by cases heq
  | discarded cid gone containers hlisted hm => exact fun c rest heq => by cases heq
  | returned hlisted => exact fun c rest heq => by cases heq
  | seen c rest thread hwaiting hthread havailable => exact fun c rest heq => by cases heq
  | taken c rest thread value htaking hthread hvalue hname => exact fun c rest heq => by cases heq
  | raised c rest htaking hname => exact fun c rest heq => by cases heq

theorem entered_run (labels : List Label) (hrun : run step init labels = some s) : s.Entered := by
  have hfirst : Entered init := fun c rest heq => by cases heq
  exact (reaches_of_run_any labels hrun).invariant Entered hfirst
    fun _ _ _ h _ hs => entered_step h hs

-- The wait for this container can come to an end.
def Ends (s : DockerPlugin) (c : Container) (rest : List Container) : Prop :=
  ∃ more t, run step s more = some t ∧ t.callback ≠ .waiting c rest

theorem Ends.of_step (hstep : s.step label = some t) (h : t.Ends c rest) : s.Ends c rest := by
  obtain ⟨more, last, hrun, hlast⟩ := h
  refine ⟨label :: more, last, ?_, hlast⟩
  rw [run, hstep, Option.bind_some, hrun]

variable {i : Nat} {thread : ContainerStats}

theorem ends_of_available (hwaiting : s.callback = .waiting c rest) (hlookup : s.stats.lookup c.id = some i)
    (hthread : s.threads[i]? = some thread) (havailable : thread.available = true) : s.Ends c rest := by
  have hstep : s.step .see = some { s with callback := .taking c rest } := by
    have hany : (s.gatherer c.id).any ContainerStats.available = true := by
      rw [gatherer, hlookup, Option.bind_some, hthread]
      exact havailable
    simp only [step, hwaiting, hany, if_true]
  exact ⟨[.see], _, by rw [run, hstep]; rfl, fun heq => by cases heq⟩

theorem ends_of_reading (hwaiting : s.callback = .waiting c rest) (hlookup : s.stats.lookup c.id = some i)
    (hthread : s.threads[i]? = some thread) (hposition : thread.position = .reading) : s.Ends c rest := by
  let next : ContainerStats :=
    { thread with
      feed := true
      stats := some oneReading
      failures := 0
      position := .testing }
  have hnext : thread.answer (some oneReading) = some next := by
    simp only [ContainerStats.answer, hposition, next]
  have hstep : s.step (.answer i (some oneReading)) = some (s.setThread i next) := by
    rw [step, hthread, Option.bind_some, hnext, Option.map_some]
  have hthread' : (s.setThread i next).threads[i]? = some next := by
    rw [getElem?_setThread i i next hthread, if_pos rfl]
  exact Ends.of_step hstep (ends_of_available hwaiting hlookup hthread' rfl)

theorem ends_of_testing (hwaiting : s.callback = .waiting c rest) (hlookup : s.stats.lookup c.id = some i)
    (hthread : s.threads[i]? = some thread) (hposition : thread.position = .testing)
    (hstop : thread.stop = false) : s.Ends c rest := by
  let next : ContainerStats := { thread with position := .reading }
  have hnext : thread.proceed = some next := by
    simp only [ContainerStats.proceed, hposition, hstop, Bool.false_eq_true, if_false, next]
  have hstep : s.step (.proceed i) = some (s.setThread i next) := by
    rw [step, hthread, Option.bind_some, hnext, Option.map_some]
  have hthread' : (s.setThread i next).threads[i]? = some next := by
    rw [getElem?_setThread i i next hthread, if_pos rfl]
  exact Ends.of_step hstep (ends_of_reading hwaiting hlookup hthread' rfl)

theorem ends_of_starting (hwaiting : s.callback = .waiting c rest) (hlookup : s.stats.lookup c.id = some i)
    (hthread : s.threads[i]? = some thread) (hposition : thread.position = .starting)
    (hstop : thread.stop = false) (hname : thread.container.name.isSome) : s.Ends c rest := by
  let next : ContainerStats := { thread with position := .testing }
  have hnext : thread.proceed = some next := by
    simp only [ContainerStats.proceed, hposition, hname, if_true, next]
  have hstep : s.step (.proceed i) = some (s.setThread i next) := by
    rw [step, hthread, Option.bind_some, hnext, Option.map_some]
  have hthread' : (s.setThread i next).threads[i]? = some next := by
    rw [getElem?_setThread i i next hthread, if_pos rfl]
  exact Ends.of_step hstep (ends_of_testing hwaiting hlookup hthread' rfl hstop)

end Waits

-- Exactly when read_callback can get past the container that it waits for: its thread has
-- stats, or it has a name and has not given up.
theorem wait_ends_iff (labels : List Label) (s : DockerPlugin) (hrun : run step init labels = some s)
    (c : Container) (rest : List Container) (hwaiting : s.callback = .waiting c rest) :
    ∃ i thread, s.stats.lookup c.id = some i ∧ s.threads[i]? = some thread ∧
      ((∃ more t, run step s more = some t ∧ t.callback ≠ .waiting c rest) ↔
        (newest (readings i labels)).any Json.truthy = true ∨
          ¬GaveUp (readings i labels) ∧ thread.container.name.isSome) := by
  have haccounted := accounted_run labels hrun
  obtain ⟨i, hlookup⟩ := Option.isSome_iff_exists.mp (AList.lookup_isSome.mpr (entered_run labels hrun c rest hwaiting))
  obtain ⟨thread, hthread, hid⟩ := haccounted.registered c.id i hlookup
  have hgathers := haccounted.gathers i thread hthread
  refine ⟨i, thread, hlookup, hthread, ?_, ?_⟩
  · rintro ⟨more, t, hmore, hleft⟩
    by_contra hno
    rw [not_or, Bool.not_eq_true, not_and_or, not_not, Option.not_isSome_iff_eq_none] at hno
    exact hleft (waiting_run more hwaiting hlookup ⟨thread, hthread, hgathers.over hno.2, hgathers.stats⟩ hno.1 hmore)
  · rintro (havailable | ⟨hgoing, hname⟩)
    · refine ends_of_available hwaiting hlookup hthread ?_
      rw [ContainerStats.available, hgathers.stats]
      exact havailable
    · have hstop : thread.stop = false := by
        rw [← Bool.not_eq_true, hgathers.stop, not_or, not_not, hid]
        exact ⟨hlookup, hgoing⟩
      cases hposition : thread.position with
      | starting => exact ends_of_starting hwaiting hlookup hthread hposition hstop hname
      | testing => exact ends_of_testing hwaiting hlookup hthread hposition hstop
      | reading => exact ends_of_reading hwaiting hlookup hthread hposition
      | ended =>
          rcases hgathers.ended hposition with htrue | hnone
          · rw [hstop] at htrue
            cases htrue
          · rw [hnone] at hname
            cases hname

theorem web_hangs :
    ∃ s, run step init hangingLabels = some s ∧ s.callback = .waiting web [] ∧
      ∃ i thread, s.stats.lookup web.id = some i ∧ s.threads[i]? = some thread ∧
        ((∃ more t, run step s more = some t ∧ t.callback ≠ .waiting web []) ↔
          (newest (readings i hangingLabels)).any Json.truthy = true ∨
            ¬GaveUp (readings i hangingLabels) ∧ thread.container.name.isSome) :=
  ⟨_, rfl, rfl, wait_ends_iff hangingLabels _ rfl web [] rfl⟩

end MesosPoc.Collectd.DockerPlugin
