import MesosPoc.Performance.Checkers.Results
import MesosPoc.Performance.Process.Counting
import MesosPoc.Json.Equality

namespace MesosPoc.Performance

open Json RunningMax

theorem year_greatest (times : List DateTime) :
    1900 ≤ (greatest DateTime.min times).year ↔ ∃ t ∈ times, 1900 ≤ t.year := by
  constructor
  · intro h
    rcases greatest_mem DateTime.min times with hmin | hmem
    · rw [hmin] at h
      simp [DateTime.min] at h
    · exact ⟨_, hmem, h⟩
  · rintro ⟨t, ht, hyear⟩
    exact hyear.trans (DateTime.year_le_of_le t _ (le_greatest DateTime.min t times ht))

-- When a checker does not raise on a pod with these containers: the node is named
-- when there is a spec, the first container is not untimed, and when all containers
-- have a time, the first time is there and the event is either too old or has all
-- that the log needs.
structure Checker.Safe (checker : Checker) (pod : Pod) (beginTime : DateTime)
    (containers : List Container) : Prop where
  nodeName : pod.spec ≠ some none
  head : ∀ c, containers.head? = some c → ¬checker.Untimed pod c
  finished : (∀ c ∈ containers, (checker.time pod c).isSome = true) →
    ∃ first, checker.first pod beginTime = some first ∧
      ((DateTime.min < beginTime ∧ ∀ t ∈ checker.times pod containers, t < beginTime) ∨
        (pod.spec.isSome = true ∧ 1900 ≤ first.year ∧
          ∃ t ∈ checker.times pod containers, 1900 ≤ t.year))

-- A checker returns a record, or returns nothing, or raises.
inductive Checker.Outcome (checker : Checker) (e : PodEvent) (beginTime : DateTime) : Prop
  | record (record : Record) (containers : List Container)
      (h : checker.Accepts e beginTime record containers) (hs : checker.Safe e.pod beginTime containers)
  | nothing (h : checker.check e.event beginTime = .ok none)
      (hs : e.matched checker.type = true →
        ∀ containers, e.pod.containers = some containers → checker.Safe e.pod beginTime containers)
  | raises (err : PyError) (h : checker.check e.event beginTime = .error err)
      (hm : e.matched checker.type = true) (containers : List Container)
      (hc : e.pod.containers = some containers) (hs : ¬checker.Safe e.pod beginTime containers)

section Finished

variable {checker : Checker} {e : PodEvent} {beginTime : DateTime} {containers : List Container}

theorem outcome_finished (hm : e.matched checker.type = true) (hc : e.pod.containers = some containers)
    (hn : e.pod.spec ≠ some none) (hhead : ∀ c, containers.head? = some c → ¬checker.Untimed e.pod c)
    (hall : ∀ c ∈ containers, (checker.time e.pod c).isSome = true) :
    checker.Outcome e beginTime := by
  cases hf : checker.first e.pod beginTime with
  | none =>
      refine .raises _ (check_unstarted hm hc hn hall hf) hm containers hc ?_
      intro hs
      obtain ⟨first, hfirst, -⟩ := hs.finished hall
      rw [hf] at hfirst
      cases hfirst
  | some first =>
      by_cases hold : greatest DateTime.min (checker.times e.pod containers) < beginTime
      · refine .nothing (check_old hm hc hn hall first hf hold) ?_
        intro _ containers' hc'
        obtain rfl : containers = containers' := Option.some.inj (hc.symm.trans hc')
        exact ⟨hn, hhead, fun _ => ⟨first, hf, Or.inl ((greatest_lt_iff _ _ _).mp hold)⟩⟩
      · have hrecent : Settles (checker.check e.event beginTime) _ _ :=
          check_recent hm hc hn hall first hf hold
        by_cases hgood : e.pod.spec.isSome = true ∧ 1900 ≤ first.year ∧
            1900 ≤ (greatest DateTime.min (checker.times e.pod containers)).year
        · obtain ⟨hspec, hfirst, hlast⟩ := hgood
          obtain ⟨nodeName, hname⟩ := Option.isSome_iff_exists.mp hspec
          cases nodeName with
          | none => exact absurd hname hn
          | some name =>
              exact .record ⟨e.data, first, greatest DateTime.min (checker.times e.pod containers)⟩ containers
                ⟨hm, hc, ⟨name, hname⟩, hall, hf, rfl, not_lt.mp hold, ⟨hfirst, hlast⟩, rfl⟩
                ⟨hn, hhead, fun _ => ⟨first, hf, Or.inr ⟨hspec, hfirst, (year_greatest _).mp hlast⟩⟩⟩
        · obtain ⟨err, herr⟩ := hrecent.2 hgood
          refine .raises err herr hm containers hc ?_
          intro hs
          obtain ⟨first', hf', hcond⟩ := hs.finished hall
          obtain rfl : first = first' := Option.some.inj (hf.symm.trans hf')
          rcases hcond with hlt | ⟨hspec, hfirst, hyear⟩
          · exact hold ((greatest_lt_iff _ _ _).mpr hlt)
          · exact hgood ⟨hspec, hfirst, (year_greatest _).mpr hyear⟩

end Finished

theorem check_outcome (checker : Checker) (e : PodEvent) (beginTime : DateTime) :
    checker.Outcome e beginTime := by
  cases hm : e.matched checker.type with
  | false => exact .nothing (check_unmatched hm) fun h => by rw [hm] at h; cases h
  | true =>
      cases hc : e.pod.containers with
      | none => exact .nothing (check_unlisted hc) fun _ _ h => by rw [hc] at h; cases h
      | some containers =>
          by_cases hn : e.pod.spec = some none
          · exact .raises _ (check_unnamed hm hc hn) hm containers hc fun hs => hs.nodeName hn
          · by_cases hhead : ∀ c, containers.head? = some c → ¬checker.Untimed e.pod c
            · by_cases hall : ∀ c ∈ containers, (checker.time e.pod c).isSome = true
              · exact outcome_finished hm hc hn hhead hall
              · have hmissing : ∃ c ∈ containers, checker.time e.pod c = none := by
                  simpa using hall
                refine .nothing (check_unfinished hm hc hn hhead hmissing) ?_
                intro _ containers' hc'
                obtain rfl : containers = containers' := Option.some.inj (hc.symm.trans hc')
                exact ⟨hn, hhead, fun h => absurd h hall⟩
            · have huntimed : ∃ c, containers.head? = some c ∧ checker.Untimed e.pod c := by
                simpa using hhead
              obtain ⟨c, hc', hu⟩ := huntimed
              obtain ⟨err, herr⟩ := check_untimed hm hc hn c hc' hu
              exact .raises err herr hm containers hc fun hs => hs.head c hc' hu

theorem accepts_of_check {checker : Checker} {e : PodEvent} {beginTime : DateTime} {record : Record}
    (h : checker.check e.event beginTime = .ok (some record)) :
    ∃ containers, checker.Accepts e beginTime record containers := by
  cases check_outcome checker e beginTime with
  | record record' containers ha hs =>
      rw [check_of_accepts ha] at h
      obtain rfl : record' = record := Option.some.inj (Except.ok.inj h)
      exact ⟨containers, ha⟩
  | nothing hnone hs =>
      rw [hnone] at h
      cases h
  | raises err herr hm containers hc hs =>
      rw [herr] at h
      cases h

-- A checker returns exactly when it is safe on the pod of its event.
theorem check_returns_iff (checker : Checker) (e : PodEvent) (beginTime : DateTime) :
    (∃ result, checker.check e.event beginTime = .ok result) ↔
      (e.matched checker.type = true →
        ∀ containers, e.pod.containers = some containers → checker.Safe e.pod beginTime containers) := by
  cases check_outcome checker e beginTime with
  | record record containers ha hs =>
      refine iff_of_true ⟨some record, check_of_accepts ha⟩ ?_
      intro _ containers' hc'
      obtain rfl : containers = containers' := Option.some.inj (ha.listed.symm.trans hc')
      exact hs
  | nothing hnone hs => exact iff_of_true ⟨none, hnone⟩ hs
  | raises err herr hm containers hc hs =>
      refine iff_of_false ?_ fun h => hs (h hm containers hc)
      rintro ⟨result, hresult⟩
      rw [herr] at hresult
      cases hresult

-- The containers of a pod in another order.
structure Pod.Permuted (pod other : Pod) : Prop where
  spec : other.spec = pod.spec
  deletionTimestamp : other.deletionTimestamp = pod.deletionTimestamp
  startTime : other.startTime = pod.startTime
  containers : ∃ before after, pod.containers = some before ∧ other.containers = some after ∧
    before.Perm after

-- A checker does not crash on the event of a pod, and the time of its record is
-- the latest of the pod's containers, in whatever order they are listed.
structure Checker.ChecksPod (checker : Checker) (e : PodEvent) (beginTime : DateTime) : Prop where
  returns : ∃ result, checker.check e.event beginTime = .ok result
  latest : ∀ record, checker.check e.event beginTime = .ok (some record) →
    ∃ containers, e.pod.containers = some containers ∧
      (∀ c ∈ containers, (checker.time e.pod c).isSome = true) ∧
      record.last ∈ checker.times e.pod containers ∧
      ∀ t ∈ checker.times e.pod containers, t ≤ record.last
  permuted : ∀ record, checker.check e.event beginTime = .ok (some record) →
    ∀ other : PodEvent, other.matched checker.type = e.matched checker.type → e.pod.Permuted other.pod →
      ∃ record', checker.check other.event beginTime = .ok (some record') ∧ record'.last = record.last

theorem time_permuted (checker : Checker) {pod other : Pod} (h : pod.Permuted other) (c : Container) :
    checker.time other c = checker.time pod c := by
  cases checker with
  | creation => rfl
  | deletion => rw [Checker.time, Checker.time, h.deletionTimestamp]

theorem first_permuted (checker : Checker) {pod other : Pod} (h : pod.Permuted other)
    (beginTime : DateTime) : checker.first other beginTime = checker.first pod beginTime := by
  cases checker with
  | creation => exact h.startTime
  | deletion => rfl

theorem accepts_permuted {checker : Checker} {e other : PodEvent} {beginTime : DateTime} {record : Record}
    {containers : List Container} (h : checker.Accepts e beginTime record containers)
    (hm : other.matched checker.type = e.matched checker.type) (hp : e.pod.Permuted other.pod) :
    ∃ containers', checker.Accepts other beginTime { record with data := other.data } containers' := by
  obtain ⟨before, after, hbefore, hafter, hperm⟩ := hp.containers
  obtain rfl : before = containers := Option.some.inj (hbefore.symm.trans h.listed)
  have htimes : checker.times other.pod after = after.filterMap (checker.time e.pod) := by
    apply List.filterMap_congr
    intro c _
    exact time_permuted checker hp c
  refine ⟨after, hm.trans h.matched, hafter, ?_, ?_, ?_, ?_, h.since, h.years, rfl⟩
  · obtain ⟨name, hname⟩ := h.nodeName
    exact ⟨name, hp.spec.trans hname⟩
  · intro c hc
    rw [time_permuted checker hp c]
    exact h.all c (hperm.mem_iff.mpr hc)
  · exact (first_permuted checker hp beginTime).trans h.first
  · rw [htimes]
    exact h.last.trans (greatest_perm DateTime.min (hperm.filterMap _))

theorem latest_of_accepts {checker : Checker} {e : PodEvent} {beginTime : DateTime} {record : Record}
    {containers : List Container} (h : checker.Accepts e beginTime record containers) :
    record.last ∈ checker.times e.pod containers ∧
      ∀ t ∈ checker.times e.pod containers, t ≤ record.last := by
  have hyear := h.years.2
  rw [h.last] at hyear ⊢
  obtain ⟨t, ht, -⟩ := (year_greatest _).mp hyear
  exact ⟨greatest_mem_of_ne_nil DateTime.min _ DateTime.min_le (List.ne_nil_of_mem ht),
    fun t ht => le_greatest DateTime.min t _ ht⟩

-- The checkers do not crash exactly on the pods that are safe for them.
theorem checksPod_iff (checker : Checker) (e : PodEvent) (beginTime : DateTime) :
    checker.ChecksPod e beginTime ↔
      (e.matched checker.type = true →
        ∀ containers, e.pod.containers = some containers → checker.Safe e.pod beginTime containers) := by
  rw [← check_returns_iff]
  constructor
  · exact fun h => h.returns
  · intro h
    refine ⟨h, ?_, ?_⟩
    · intro record hrecord
      obtain ⟨containers, ha⟩ := accepts_of_check hrecord
      exact ⟨containers, ha.listed, ha.all, latest_of_accepts ha⟩
    · intro record hrecord other hm hp
      obtain ⟨containers, ha⟩ := accepts_of_check hrecord
      obtain ⟨containers', ha'⟩ := accepts_permuted ha hm hp
      exact ⟨_, check_of_accepts ha', rfl⟩

-- The last event of a pod that has run to its end and is deleted without a grace
-- period, so that it has no deletionTimestamp.

def finishedObject : Json :=
  .obj [("metadata".toList, .obj [("name".toList, .str "job-1".toList),
      ("namespace".toList, .str "default".toList)]),
    ("spec".toList, .obj [("nodeName".toList, .str "node-1".toList)]),
    ("status".toList, .obj [("containerStatuses".toList, .arr [
      .obj [("state".toList, .obj [("terminated".toList, .obj [])]), ("ready".toList, .bool false)]])])]

def finishedText : Str :=
  "\x7b\"metadata\":\x7b\"name\":\"job-1\",\"namespace\":\"default\"\x7d,".toList ++
    "\"spec\":\x7b\"nodeName\":\"node-1\"\x7d,\"status\":\x7b".toList ++
    "\"containerStatuses\":[\x7b\"state\":\x7b\"terminated\":\x7b\x7d\x7d,".toList ++
    "\"ready\":false\x7d]\x7d\x7d".toList

def finishedEvent : PodEvent where
  event := message deleted finishedText
  type := deleted
  data := .obj [("type".toList, .str deleted), ("object".toList, finishedObject)]
  object := finishedObject
  pod := ⟨some (some "node-1".toList), none, some ⟨none, some [⟨.terminated, false⟩]⟩⟩
  decodes := loads_of_loadsTo _ _ (by decide +kernel)
  hasType := rfl
  hasObject := rfl
  stands := by
    refine ⟨⟨_, rfl, _, rfl, rfl⟩, ⟨_, _, _, rfl, rfl, rfl, rfl⟩, ⟨_, rfl, rfl, _, rfl, _, rfl, ?_⟩⟩
    exact .cons ⟨⟨_, rfl, rfl, _, rfl⟩, rfl⟩ .nil

theorem finished_pod_raises :
    (Checker.deletion.check finishedEvent.event caseBegin).isOk = false ∧
      ¬Checker.deletion.ChecksPod finishedEvent caseBegin := by
  have hraises : (Checker.deletion.check finishedEvent.event caseBegin).isOk = false := by decide +kernel
  refine ⟨hraises, ?_⟩
  intro h
  obtain ⟨result, hresult⟩ := h.returns
  rw [hresult] at hraises
  cases hraises

end MesosPoc.Performance
