import MesosPoc.Collectd.DockerPlugin.Gathering

namespace MesosPoc.Collectd.DockerPlugin

open Machine

-- All that one step can do.
inductive Moves (s : DockerPlugin) : Label → DockerPlugin → Prop
  | called (containers : List Container) (hidle : s.callback = .idle) :
      Moves s (.call containers)
        { s with
          callback := .listed (s.stats.keys.filter fun cid => !(ids (running containers)).contains cid)
            (running containers) }
  | discarded (cid : Str) (gone : List Str) (containers : List Container)
      (hlisted : s.callback = .listed gone containers) (hm : cid ∈ gone) :
      Moves s (.discard cid)
        { s.stopThread cid with
          stats := s.stats.erase cid
          callback := .listed (gone.erase cid) containers }
  | returned (hlisted : s.callback = .listed [] []) : Moves s .visit { s with callback := .idle }
  | visited (c : Container) (rest : List Container) (hlisted : s.callback = .listed [] (c :: rest)) :
      Moves s .visit { s.addThread c with callback := .waiting c rest }
  | seen (c : Container) (rest : List Container) (thread : ContainerStats) (hwaiting : s.callback = .waiting c rest)
      (hthread : s.gatherer c.id = some thread) (havailable : thread.available = true) :
      Moves s .see { s with callback := .taking c rest }
  | taken (c : Container) (rest : List Container) (thread : ContainerStats) (value : Json)
      (htaking : s.callback = .taking c rest) (hthread : s.gatherer c.id = some thread)
      (hvalue : thread.stats = some value) (hname : c.name.isSome) :
      Moves s .take { s with callback := .listed [] rest, served := s.served ++ [(c.id, value)] }
  | raised (c : Container) (rest : List Container) (htaking : s.callback = .taking c rest)
      (hname : ¬c.name.isSome) : Moves s .take { s with callback := .idle }
  | proceeded (i : Nat) (thread next : ContainerStats) (hthread : s.threads[i]? = some thread)
      (hnext : thread.proceed = some next) : Moves s (.proceed i) (s.setThread i next)
  | answered (i : Nat) (reading : Option Json) (thread next : ContainerStats)
      (hthread : s.threads[i]? = some thread) (hnext : thread.answer reading = some next) :
      Moves s (.answer i reading) (s.setThread i next)

theorem moves_of_step {s t : DockerPlugin} {label : Label} (h : s.step label = some t) : Moves s label t := by
  cases label with
  | call containers =>
      simp only [step] at h
      split at h
      · rename_i hidle
        obtain rfl := Option.some.inj h
        exact .called containers hidle
      · cases h
  | discard cid =>
      simp only [step] at h
      split at h
      · rename_i gone containers hlisted
        obtain ⟨hm, rfl⟩ := guarded_eq_some h
        exact .discarded cid gone containers hlisted (List.contains_iff_mem.mp hm)
      · cases h
  | visit =>
      simp only [step] at h
      split at h
      · rename_i hlisted
        obtain rfl := Option.some.inj h
        exact .returned hlisted
      · rename_i c rest hlisted
        obtain rfl := Option.some.inj h
        exact .visited c rest hlisted
      · cases h
  | see =>
      simp only [step] at h
      split at h
      · rename_i c rest hwaiting
        obtain ⟨hany, rfl⟩ := guarded_eq_some h
        cases hthread : s.gatherer c.id with
        | none =>
            rw [hthread] at hany
            cases hany
        | some thread =>
            rw [hthread] at hany
            exact .seen c rest thread hwaiting hthread hany
      · cases h
  | take =>
      simp only [step] at h
      split at h
      · rename_i c rest htaking
        split at h
        · rename_i value hvalue
          obtain ⟨thread, hthread, hvalue⟩ := Option.bind_eq_some_iff.mp hvalue
          split at h
          · rename_i hname
            obtain rfl := Option.some.inj h
            exact .taken c rest thread value htaking hthread hvalue hname
          · rename_i hname
            obtain rfl := Option.some.inj h
            exact .raised c rest htaking hname
        · cases h
      · cases h
  | proceed i =>
      obtain ⟨next, hbind, rfl⟩ := Option.map_eq_some_iff.mp h
      obtain ⟨thread, hthread, hnext⟩ := Option.bind_eq_some_iff.mp hbind
      exact .proceeded i thread next hthread hnext
  | answer i reading =>
      obtain ⟨next, hbind, rfl⟩ := Option.map_eq_some_iff.mp h
      obtain ⟨thread, hthread, hnext⟩ := Option.bind_eq_some_iff.mp hbind
      exact .answered i reading thread next hthread hnext

section Operations

variable {s : DockerPlugin}

theorem getElem?_setThread (i j : Nat) (next : ContainerStats) {thread : ContainerStats}
    (hthread : s.threads[i]? = some thread) :
    (s.setThread i next).threads[j]? = if j = i then some next else s.threads[j]? := by
  obtain ⟨hlt, -⟩ := List.getElem?_eq_some_iff.mp hthread
  simp only [setThread, List.getElem?_set]
  by_cases hj : j = i
  · rw [if_pos hj.symm, if_pos hj, if_pos hlt]
  · rw [if_neg (Ne.symm hj), if_neg hj]

theorem getElem?_stopThread (cid : Str) (j : Nat) :
    (s.stopThread cid).threads[j]? =
      if s.stats.lookup cid = some j then s.threads[j]?.map fun value => { value with stop := true }
      else s.threads[j]? := by
  unfold stopThread
  cases hlookup : s.stats.lookup cid with
  | none => simp
  | some i =>
      simp only [List.getElem?_modify, Option.some.injEq]
      by_cases hj : i = j
      · simp [hj]
      · simp [hj]

theorem lookup_erase (cid other : Str) :
    (s.stats.erase cid).lookup other = if other = cid then none else s.stats.lookup other := by
  by_cases hother : other = cid
  · rw [if_pos hother, hother]
    exact AList.lookup_erase cid s.stats
  · rw [if_neg hother]
    exact AList.lookup_erase_ne hother

theorem lookup_addThread (c : Container) (cid : Str) :
    (s.addThread c).stats.lookup cid =
      if c.id ∉ s.stats ∧ cid = c.id then some s.threads.length else s.stats.lookup cid := by
  unfold addThread
  by_cases hm : c.id ∈ s.stats
  · simp [hm]
  · by_cases hcid : cid = c.id
    · rw [if_neg hm, if_pos ⟨hm, hcid⟩, hcid]
      exact AList.lookup_insert _
    · rw [if_neg hm, if_neg (fun h => hcid h.2)]
      exact AList.lookup_insert_ne hcid

theorem threads_addThread (c : Container) :
    (s.addThread c).threads = s.threads ++ if c.id ∈ s.stats then [] else [.init c] := by
  unfold addThread
  split
  · rw [List.append_nil]
  · rfl

theorem mem_addThread (c : Container) : c.id ∈ (s.addThread c).stats := by
  rw [← AList.lookup_isSome, lookup_addThread]
  by_cases hm : c.id ∈ s.stats
  · rw [if_neg (fun h => h.1 hm)]
    exact AList.lookup_isSome.mpr hm
  · rw [if_pos ⟨hm, rfl⟩]
    rfl

end Operations

-- After these labels every thread has gathered what it was answered, and the stats have
-- the thread of a container that was not told to stop.
structure Accounted (past : List Label) (s : DockerPlugin) : Prop where
  gathers : ∀ i thread, s.threads[i]? = some thread →
    Gathers (readings i past) (s.stats.lookup thread.container.id = some i) thread
  registered : ∀ cid i, s.stats.lookup cid = some i → ∃ thread, s.threads[i]? = some thread ∧ thread.container.id = cid
  unread : ∀ i, s.threads.length ≤ i → readings i past = []

section Steps

variable {s t : DockerPlugin} {past : List Label} {label : Label}

theorem accounted_init : Accounted [] init := by
  refine ⟨?_, ?_, fun _ _ => rfl⟩
  · intro i thread h
    cases h
  · intro cid i h
    cases h

theorem readings_silent (i : Nat) (h : label.readingOf i = none) : readings i (past ++ [label]) = readings i past := by
  simp [readings, List.filterMap_append, h]

-- A step of read_callback that neither starts nor stops a thread.
theorem Accounted.of_same (h : Accounted past s) (hlabel : ∀ i, label.readingOf i = none)
    (hstats : t.stats = s.stats) (hthreads : t.threads = s.threads) : Accounted (past ++ [label]) t := by
  refine ⟨?_, ?_, ?_⟩
  · intro i thread hthread
    rw [readings_silent i (hlabel i), hstats]
    rw [hthreads] at hthread
    exact h.gathers i thread hthread
  · intro cid i hlookup
    rw [hstats] at hlookup
    rw [hthreads]
    exact h.registered cid i hlookup
  · intro i hi
    rw [hthreads] at hi
    rw [readings_silent i (hlabel i)]
    exact h.unread i hi

theorem Accounted.discard (h : Accounted past s) (cid : Str) (callback : Callback) :
    Accounted (past ++ [.discard cid])
      { s.stopThread cid with
        stats := s.stats.erase cid
        callback := callback } := by
  refine ⟨?_, ?_, ?_⟩
  · intro i thread hthread
    have hthread : (s.stopThread cid).threads[i]? = some thread := hthread
    rw [getElem?_stopThread] at hthread
    rw [readings_silent i rfl]
    by_cases hcid : s.stats.lookup cid = some i
    · rw [if_pos hcid] at hthread
      obtain ⟨value, hvalue, rfl⟩ := Option.map_eq_some_iff.mp hthread
      obtain ⟨value', hvalue', hid⟩ := h.registered cid i hcid
      obtain rfl : value' = value := Option.some.inj (hvalue'.symm.trans hvalue)
      refine (h.gathers i value' hvalue).discard ?_
      show ¬(s.stats.erase cid).lookup value'.container.id = some i
      rw [lookup_erase, if_pos hid]
      exact Option.some_ne_none i ∘ Eq.symm
    · rw [if_neg hcid] at hthread
      have hold := h.gathers i thread hthread
      show Gathers _ ((s.stats.erase cid).lookup thread.container.id = some i) thread
      rw [lookup_erase]
      by_cases hid : thread.container.id = cid
      · rw [hid] at hold
        rw [if_pos hid]
        exact hold.stopped hcid (Option.some_ne_none i ∘ Eq.symm)
      · rw [if_neg hid]
        exact hold
  · intro other i hlookup
    have hlookup : (s.stats.erase cid).lookup other = some i := hlookup
    rw [lookup_erase] at hlookup
    by_cases hother : other = cid
    · rw [if_pos hother] at hlookup
      cases hlookup
    · rw [if_neg hother] at hlookup
      obtain ⟨thread, hthread, hid⟩ := h.registered other i hlookup
      have hne : s.stats.lookup cid ≠ some i := by
        intro hcid
        obtain ⟨thread', hthread', hid'⟩ := h.registered cid i hcid
        obtain rfl : thread' = thread := Option.some.inj (hthread'.symm.trans hthread)
        exact hother (hid.symm.trans hid')
      refine ⟨thread, ?_, hid⟩
      show (s.stopThread cid).threads[i]? = some thread
      rw [getElem?_stopThread, if_neg hne, hthread]
  · intro i hi
    have hlength : (s.stopThread cid).threads.length = s.threads.length := by
      unfold stopThread
      split
      · rw [List.length_modify]
      · rfl
    rw [readings_silent i rfl]
    exact h.unread i (hlength ▸ hi)

theorem Accounted.visit (h : Accounted past s) (c : Container) (callback : Callback) :
    Accounted (past ++ [.visit]) { s.addThread c with callback := callback } := by
  by_cases hm : c.id ∈ s.stats
  · refine h.of_same (fun _ => rfl) ?_ ?_
    · simp only [addThread, if_pos hm]
    · simp only [addThread, if_pos hm]
  · have hthreads : (s.addThread c).threads = s.threads ++ [.init c] := by rw [threads_addThread, if_neg hm]
    have hnone : s.stats.lookup c.id = none := by
      rw [← Option.not_isSome_iff_eq_none, AList.lookup_isSome]
      exact hm
    refine ⟨?_, ?_, ?_⟩
    · intro i thread hthread
      have hthread : (s.addThread c).threads[i]? = some thread := hthread
      show Gathers _ ((s.addThread c).stats.lookup thread.container.id = some i) thread
      rw [readings_silent i rfl, lookup_addThread]
      rw [hthreads] at hthread
      by_cases hi : i < s.threads.length
      · rw [List.getElem?_append_left hi] at hthread
        have hold := h.gathers i thread hthread
        by_cases hid : thread.container.id = c.id
        · rw [hid, hnone] at hold
          rw [if_pos ⟨hm, hid⟩]
          refine hold.stopped (by simp) ?_
          simp only [Option.some.injEq]
          omega
        · rw [if_neg (fun hboth => hid hboth.2)]
          exact hold
      · have hlt : i < (s.threads ++ [ContainerStats.init c]).length := (List.getElem?_eq_some_iff.mp hthread).1
        have hlast : i = s.threads.length := by
          rw [List.length_append, List.length_singleton] at hlt
          omega
        rw [hlast, List.getElem?_concat_length] at hthread
        obtain rfl := Option.some.inj hthread
        rw [h.unread i (by omega), if_pos ⟨hm, rfl⟩]
        exact gathers_init c (by rw [hlast])
    · intro cid i hlookup
      have hlookup : (s.addThread c).stats.lookup cid = some i := hlookup
      show ∃ thread, (s.addThread c).threads[i]? = some thread ∧ _
      rw [lookup_addThread] at hlookup
      rw [hthreads]
      by_cases hid : cid = c.id
      · rw [if_pos ⟨hm, hid⟩] at hlookup
        obtain rfl := Option.some.inj hlookup
        exact ⟨.init c, List.getElem?_concat_length, hid.symm⟩
      · rw [if_neg (fun hboth => hid hboth.2)] at hlookup
        obtain ⟨thread, hthread, hthreadid⟩ := h.registered cid i hlookup
        exact ⟨thread, List.getElem?_append_left (List.getElem?_eq_some_iff.mp hthread).1 ▸ hthread, hthreadid⟩
    · intro i hi
      have hi : (s.addThread c).threads.length ≤ i := hi
      rw [hthreads, List.length_append, List.length_singleton] at hi
      rw [readings_silent i rfl]
      exact h.unread i (by omega)

-- A step of one thread.
theorem Accounted.setThread (h : Accounted past s) (i : Nat) (thread next : ContainerStats)
    (hthread : s.threads[i]? = some thread) (hcontainer : next.container = thread.container)
    (hlabel : ∀ j, j ≠ i → label.readingOf j = none)
    (hnext : ∀ registered, Gathers (readings i past) registered thread →
      Gathers (readings i (past ++ [label])) registered next) :
    Accounted (past ++ [label]) (s.setThread i next) := by
  refine ⟨?_, ?_, ?_⟩
  · intro j value hvalue
    rw [getElem?_setThread i j next hthread] at hvalue
    by_cases hj : j = i
    · rw [if_pos hj] at hvalue
      obtain rfl := Option.some.inj hvalue
      rw [hj, hcontainer]
      exact hnext _ (h.gathers i thread hthread)
    · rw [if_neg hj] at hvalue
      rw [readings_silent j (hlabel j hj)]
      exact h.gathers j value hvalue
  · intro cid j hlookup
    obtain ⟨value, hvalue, hid⟩ := h.registered cid j hlookup
    rw [getElem?_setThread i j next hthread]
    by_cases hj : j = i
    · rw [hj, hthread] at hvalue
      obtain rfl := Option.some.inj hvalue
      exact ⟨next, if_pos hj, by rw [hcontainer, hid]⟩
    · exact ⟨value, by rw [if_neg hj, hvalue], hid⟩
  · intro j hj
    have hj : s.threads.length ≤ j := by
      rw [DockerPlugin.setThread, List.length_set] at hj
      exact hj
    have hlt := (List.getElem?_eq_some_iff.mp hthread).1
    rw [readings_silent j (hlabel j (by omega))]
    exact h.unread j hj

theorem accounted_step (h : Accounted past s) (hstep : s.step label = some t) : Accounted (past ++ [label]) t := by
  cases moves_of_step hstep with
  | called containers hidle => exact h.of_same (fun _ => rfl) rfl rfl
  | discarded cid gone containers hlisted hm => exact h.discard cid _
  | returned hlisted => exact h.of_same (fun _ => rfl) rfl rfl
  | visited c rest hlisted => exact h.visit c _
  | seen c rest thread hwaiting hthread havailable => exact h.of_same (fun _ => rfl) rfl rfl
  | taken c rest thread value htaking hthread hvalue hname => exact h.of_same (fun _ => rfl) rfl rfl
  | raised c rest htaking hname => exact h.of_same (fun _ => rfl) rfl rfl
  | proceeded i thread next hthread hnext =>
      obtain ⟨position, heq, -⟩ := proceed_eq hnext
      refine h.setThread i thread next hthread (by rw [heq]) (fun _ _ => rfl) ?_
      intro registered hgathers
      rw [readings_silent i rfl]
      exact hgathers.proceed hnext
  | answered i reading thread next hthread hnext =>
      obtain ⟨-, heq⟩ := answer_eq hnext
      refine h.setThread i thread next hthread (by rw [heq]) ?_ ?_
      · intro j hj
        exact if_neg (Ne.symm hj)
      · intro registered hgathers
        have hreadings : readings i (past ++ [.answer i reading]) = readings i past ++ [reading] := by
          simp [readings, List.filterMap_append, Label.readingOf]
        rw [hreadings]
        exact hgathers.answer hnext

theorem accounted_run (labels : List Label) (hrun : run step init labels = some s) : Accounted labels s :=
  run_invariant Accounted (fun _ _ _ _ => accounted_step) [] labels accounted_init hrun

end Steps

-- Whatever the interleaving: a thread has the newest reading it was given, it is told to
-- stop exactly when its entry has been deleted or four requests in a row have failed, and no
-- two threads go on for one container.
theorem gatherers_accounted (labels : List Label) (s : DockerPlugin) (hrun : run step init labels = some s)
    (i : Nat) (thread : ContainerStats) (hthread : s.threads[i]? = some thread) :
    thread.stats = newest (readings i labels) ∧
      (thread.stop = true ↔ s.stats.lookup thread.container.id ≠ some i ∨ GaveUp (readings i labels)) ∧
      (∀ cid, s.stats.lookup cid = some i → cid = thread.container.id) ∧
      ∀ j (other : ContainerStats), s.threads[j]? = some other → other.container.id = thread.container.id →
        thread.stop = false → other.stop = false → j = i := by
  have h := accounted_run labels hrun
  have hgathers := h.gathers i thread hthread
  refine ⟨hgathers.stats, hgathers.stop, ?_, ?_⟩
  · intro cid hlookup
    obtain ⟨thread', hthread', hid⟩ := h.registered cid i hlookup
    obtain rfl : thread' = thread := Option.some.inj (hthread'.symm.trans hthread)
    exact hid.symm
  · intro j other hother hid hgoing hgoing'
    have hlive : ∀ k (value : ContainerStats), s.threads[k]? = some value → value.stop = false →
        s.stats.lookup value.container.id = some k := by
      intro k value hvalue hfalse
      by_contra hno
      rw [(h.gathers k value hvalue).stop.mpr (Or.inl hno)] at hfalse
      cases hfalse
    have hfirst := hlive i thread hthread hgoing
    have hsecond := hlive j other hother hgoing'
    rw [hid, hfirst] at hsecond
    exact (Option.some.inj hsecond).symm

-- A container with one reading before four failures.

def web : Container := ⟨"a".toList, ["/web".toList, "/proxy/backend".toList], "Up 2 minutes".toList⟩

def oneReading : Json := .obj [("read".toList, .str "2015-10-01T08:00:00Z".toList)]

def failingLabels : List Label :=
  [.proceed 0, .answer 0 none, .proceed 0, .answer 0 none, .proceed 0, .answer 0 none, .proceed 0, .answer 0 none]

def staleLabels : List Label :=
  [.call [web], .visit, .proceed 0, .proceed 0, .answer 0 (some oneReading), .see, .take, .visit] ++ failingLabels

theorem staleLabels_accounted :
    ∃ s thread, run step init staleLabels = some s ∧ s.threads[0]? = some thread ∧
      thread.stats = newest (readings 0 staleLabels) ∧
      (thread.stop = true ↔
        s.stats.lookup thread.container.id ≠ some 0 ∨ GaveUp (readings 0 staleLabels)) ∧
      (∀ cid, s.stats.lookup cid = some 0 → cid = thread.container.id) ∧
      ∀ j (other : ContainerStats), s.threads[j]? = some other → other.container.id = thread.container.id →
        thread.stop = false → other.stop = false → j = 0 :=
  ⟨_, _, rfl, rfl, gatherers_accounted staleLabels _ rfl 0 _ rfl⟩

end MesosPoc.Collectd.DockerPlugin
