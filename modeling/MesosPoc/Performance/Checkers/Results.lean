import MesosPoc.Performance.Checkers.PodTimes
import MesosPoc.Settles

namespace MesosPoc.Performance

open Json RunningMax

section Newest

variable {time : Json → Except PyError (Option DateTime)} {stands : Json → Container → Prop}
  {containerTime : Container → Option DateTime} {items : List Json} {containers : List Container}

-- When every container has a time, the loop gives the latest of them.
theorem newest_all (hitems : List.Forall₂ stands items containers)
    (htime : ∀ j c, c ∈ containers → stands j c → time j = .ok (containerTime c)) (latest : DateTime)
    (hall : ∀ c ∈ containers, (containerTime c).isSome = true) :
    newest time items latest = .ok (some (greatest latest (containers.filterMap containerTime))) := by
  induction hitems generalizing latest with
  | nil => rfl
  | @cons j c items containers hfirst hrest ih =>
      obtain ⟨hc, hmore⟩ := List.forall_mem_cons.mp hall
      obtain ⟨t, ht⟩ := Option.isSome_iff_exists.mp hc
      have hnext := ih (fun j' c' hm hs => htime j' c' (List.mem_cons_of_mem c hm) hs) (max latest t) hmore
      rw [List.filterMap_cons_some ht, greatest_cons, ← hnext]
      have hj := htime j c List.mem_cons_self hfirst
      rw [newest, hj, ht, ← ite_lt_eq_max]
      rfl

-- A container without one makes it return, however many come before it.
theorem newest_missing (hitems : List.Forall₂ stands items containers)
    (htime : ∀ j c, c ∈ containers → stands j c → time j = .ok (containerTime c)) (latest : DateTime)
    (hmissing : ∃ c ∈ containers, containerTime c = none) : newest time items latest = .ok none := by
  induction hitems generalizing latest with
  | nil => simp at hmissing
  | @cons j c items containers hfirst hrest ih =>
      have hj := htime j c List.mem_cons_self hfirst
      rw [newest, hj]
      cases ht : containerTime c with
      | none => rfl
      | some t =>
          apply ih fun j' c' hm hs => htime j' c' (List.mem_cons_of_mem c hm) hs
          obtain ⟨c', hm, hc'⟩ := hmissing
          rcases List.mem_cons.mp hm with rfl | hm
          · rw [ht] at hc'
            cases hc'
          · exact ⟨c', hm, hc'⟩

end Newest

section Containers

variable {checker : Checker} {p : PodStatus} {pod : Pod} {containers : List Container}

theorem newest_untimed (hread : ReadAs p pod containers) (c : Container) (hhead : containers.head? = some c)
    (hu : checker.Untimed pod c) (latest : DateTime) :
    ∃ e, newest (checker.containerTime p) p.containers latest = .error e := by
  obtain ⟨rfl, hc⟩ := hu
  have hitems := hread.containers
  cases hitems' : p.containers with
  | nil =>
      rw [hitems'] at hitems
      cases hitems
      cases hhead
  | cons j items =>
      rw [hitems'] at hitems
      cases hitems with
      | cons hfirst hrest =>
          obtain rfl := Option.some.inj hhead
          refine ⟨.keyError "deletionTimestamp".toList, ?_⟩
          rw [newest, Checker.containerTime, containerDeletionTime_error hread j _ hfirst ⟨rfl, hc⟩]
          rfl

theorem newest_unfinished (hread : ReadAs p pod containers)
    (hhead : ∀ c, containers.head? = some c → ¬checker.Untimed pod c)
    (hmissing : ∃ c ∈ containers, checker.time pod c = none) (latest : DateTime) :
    newest (checker.containerTime p) p.containers latest = .ok none := by
  by_cases hu : ∃ c ∈ containers, checker.Untimed pod c
  · -- Without a deletion time the first container already makes the checker return.
    obtain ⟨c, -, rfl, -, hd⟩ := hu
    have hitems := hread.containers
    obtain ⟨c', hm, -⟩ := hmissing
    cases hitems' : p.containers with
    | nil =>
        rw [hitems'] at hitems
        cases hitems
        cases hm
    | cons j items =>
        rw [hitems'] at hitems
        cases hitems with
        | @cons _ first _ _ hfirst hrest =>
            have hfree := hhead first rfl
            have htime : Checker.deletion.time pod first = none := by
              rw [Checker.time, hd, ite_self]
            rw [newest, Checker.containerTime, containerDeletionTime_ok hread j first hfirst hfree, htime]
            rfl
  · apply newest_missing hread.containers _ latest hmissing
    intro j c hm hs
    exact containerTime_ok checker hread j c hs fun hc => hu ⟨c, hm, hc⟩

theorem newest_finished (hread : ReadAs p pod containers)
    (hall : ∀ c ∈ containers, (checker.time pod c).isSome = true) (latest : DateTime) :
    newest (checker.containerTime p) p.containers latest =
      .ok (some (greatest latest (checker.times pod containers))) := by
  apply newest_all hread.containers _ latest hall
  intro j c hm hs
  apply containerTime_ok checker hread j c hs
  rintro ⟨rfl, hc, hd⟩
  have hsome := hall c hm
  rw [Checker.time, hd, ite_self] at hsome
  cases hsome

theorem firstTime_ok (hread : ReadAs p pod containers) (beginTime first : DateTime)
    (hf : checker.first pod beginTime = some first) : checker.firstTime p beginTime = .ok first := by
  cases checker with
  | deletion => exact congrArg Except.ok (Option.some.inj hf)
  | creation =>
      have hstart := hread.startTime
      have hsome : pod.startTime = some first := hf
      rw [hsome] at hstart
      obtain ⟨value, hget, htime⟩ := hstart
      exact bind_eq_ok.mpr ⟨value, hget, htime⟩

theorem firstTime_error (hread : ReadAs p pod containers) (beginTime : DateTime)
    (hf : checker.first pod beginTime = none) :
    checker.firstTime p beginTime = .error (.keyError "startTime".toList) := by
  cases checker with
  | deletion => cases hf
  | creation =>
      have hstart := hread.startTime
      have hnone : pod.startTime = none := hf
      rw [hnone] at hstart
      have hlacks : p.status.getItem "startTime".toList = .error (.keyError "startTime".toList) := hstart
      simp only [Checker.firstTime, podStartTime, hlacks, bind, Except.bind]

end Containers

-- What a checker does with the event of a pod, in the order of its tests.
section Check

variable {checker : Checker} {e : PodEvent} {beginTime : DateTime} {containers : List Container}

theorem check_unmatched (hm : e.matched checker.type = false) :
    checker.check e.event beginTime = .ok none := by
  rw [check_eq, checkEvent, e.decodeEvent_unmatched checker.type hm]
  rfl

theorem check_unlisted (hc : e.pod.containers = none) : checker.check e.event beginTime = .ok none := by
  cases hm : e.matched checker.type with
  | false => exact check_unmatched hm
  | true =>
      have hread := readPod_unlisted e.object e.pod e.stands hc
      simp only [check_eq, checkEvent, e.decodeEvent_matched checker.type hm, checkObject, hread, bind, Except.bind]
      rfl

theorem check_unnamed (hm : e.matched checker.type = true) (hc : e.pod.containers = some containers)
    (hn : e.pod.spec = some none) :
    checker.check e.event beginTime = .error (.keyError "nodeName".toList) := by
  have hread := readPod_error e.object e.pod containers e.stands hc hn
  simp only [check_eq, checkEvent, e.decodeEvent_matched checker.type hm, checkObject, hread, bind, Except.bind]

variable (hm : e.matched checker.type = true) (hc : e.pod.containers = some containers)
  (hn : e.pod.spec ≠ some none)

include hm hc hn

-- What is left of a check once its pod is read.
theorem check_read : ∃ p, ReadAs p e.pod containers ∧
    checker.check e.event beginTime =
      checkContainers checker.containerTime checker.firstTime beginTime e.data p := by
  obtain ⟨p, hp, hread⟩ := readPod_ok e.object e.pod containers e.stands hc hn
  refine ⟨p, hread, ?_⟩
  simp only [check_eq, checkEvent, e.decodeEvent_matched checker.type hm, checkObject, hp, bind, Except.bind]

theorem check_untimed (c : Container) (hhead : containers.head? = some c)
    (hu : checker.Untimed e.pod c) : ∃ err, checker.check e.event beginTime = .error err := by
  obtain ⟨p, hread, hcheck⟩ := check_read hm hc hn
  obtain ⟨err, herr⟩ := newest_untimed hread c hhead hu DateTime.min
  refine ⟨err, ?_⟩
  rw [hcheck, checkContainers, herr]
  rfl

theorem check_unfinished (hhead : ∀ c, containers.head? = some c → ¬checker.Untimed e.pod c)
    (hmissing : ∃ c ∈ containers, checker.time e.pod c = none) :
    checker.check e.event beginTime = .ok none := by
  obtain ⟨p, hread, hcheck⟩ := check_read hm hc hn
  rw [hcheck, checkContainers, newest_unfinished hread hhead hmissing DateTime.min]
  rfl

variable (hall : ∀ c ∈ containers, (checker.time e.pod c).isSome = true)

include hall

theorem check_unstarted (hf : checker.first e.pod beginTime = none) :
    checker.check e.event beginTime = .error (.keyError "startTime".toList) := by
  obtain ⟨p, hread, hcheck⟩ := check_read hm hc hn
  have hnewest := newest_finished hread hall DateTime.min
  rw [hcheck]
  simp only [checkContainers, hnewest, firstTime_error hread beginTime hf, bind, Except.bind]

theorem check_old (first : DateTime) (hf : checker.first e.pod beginTime = some first)
    (hold : greatest DateTime.min (checker.times e.pod containers) < beginTime) :
    checker.check e.event beginTime = .ok none := by
  obtain ⟨p, hread, hcheck⟩ := check_read hm hc hn
  have hnewest := newest_finished hread hall DateTime.min
  rw [hcheck]
  simp only [checkContainers, hnewest, firstTime_ok hread beginTime first hf, bind, Except.bind, if_pos hold]
  rfl

theorem check_recent (first : DateTime) (hf : checker.first e.pod beginTime = some first)
    (hrecent : ¬greatest DateTime.min (checker.times e.pod containers) < beginTime) :
    Settles (checker.check e.event beginTime)
      (e.pod.spec.isSome = true ∧ 1900 ≤ first.year ∧
        1900 ≤ (greatest DateTime.min (checker.times e.pod containers)).year)
      (some ⟨e.data, first, greatest DateTime.min (checker.times e.pod containers)⟩) := by
  obtain ⟨p, hread, hcheck⟩ := check_read hm hc hn
  have hnewest := newest_finished hread hall DateTime.min
  have hreport := report_eq_ok_iff p first (greatest DateTime.min (checker.times e.pod containers))
  rw [hread.nodeBound] at hreport
  rw [hcheck]
  simp only [checkContainers, hnewest, firstTime_ok hread beginTime first hf, bind, Except.bind, if_neg hrecent]
  cases hr : report p first (greatest DateTime.min (checker.times e.pod containers)) with
  | ok u =>
      have hgood := hreport.mp hr
      exact (Settles.ok _).congr (iff_of_true trivial hgood)
  | error err =>
      have hbad := mt hreport.mpr (by rw [hr]; simp)
      exact (Settles.error err _).congr (iff_of_false id hbad)

end Check

-- All that makes a checker return a record for a pod.
structure Checker.Accepts (checker : Checker) (e : PodEvent) (beginTime : DateTime) (record : Record)
    (containers : List Container) : Prop where
  matched : e.matched checker.type = true
  listed : e.pod.containers = some containers
  nodeName : ∃ name, e.pod.spec = some (some name)
  all : ∀ c ∈ containers, (checker.time e.pod c).isSome = true
  first : checker.first e.pod beginTime = some record.first
  last : record.last = greatest DateTime.min (checker.times e.pod containers)
  since : beginTime ≤ record.last
  years : 1900 ≤ record.first.year ∧ 1900 ≤ record.last.year
  data : record.data = e.data

theorem check_of_accepts {checker : Checker} {e : PodEvent} {beginTime : DateTime} {record : Record}
    {containers : List Container} (h : checker.Accepts e beginTime record containers) :
    checker.check e.event beginTime = .ok (some record) := by
  obtain ⟨name, hspec⟩ := h.nodeName
  have hrecent : ¬greatest DateTime.min (checker.times e.pod containers) < beginTime := by
    rw [← h.last]
    exact not_lt.mpr h.since
  have hn : e.pod.spec ≠ some none := by simp [hspec]
  have hrecord := (check_recent h.matched h.listed hn h.all record.first h.first hrecent).1
    ⟨by simp [hspec], h.years.1, h.last ▸ h.years.2⟩
  rw [hrecord, ← h.last, ← h.data]

end MesosPoc.Performance
