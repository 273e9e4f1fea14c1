import MesosPoc.Performance.Checkers.Crashes
import MesosPoc.Datetime.Printing

namespace MesosPoc.Performance

open Json RunningMax

-- The API server has written of a container that it is ready and runs since t.
def PrintsStart (container : Json) (t : DateTime) : Prop :=
  containerReady container = true ∧ ∃ running, runningState container = .ok running ∧
    running.getItem "startedAt".toList = .ok (.str t.print)

-- A MODIFIED event of a pod whose containers, all running and ready, really started
-- at these instants.
structure PodEvent.PrintsStarts (e : PodEvent) (starts : List DateTime) : Prop where
  modified : e.matched Checker.creation.type = true
  printed : ∃ items, eventContainers e.event = .ok items ∧ List.Forall₂ PrintsStart items starts

theorem containerStartedTime_printed (p : PodStatus) (container : Json) (t : DateTime)
    (h : PrintsStart container t) : containerStartedTime p container = .ok (some t.cut) := by
  obtain ⟨hready, running, hrunning, hprinted⟩ := h
  obtain ⟨-, ready, hget, htruthy⟩ := (containerReady_iff container).mp hready
  obtain ⟨state, hstate, hrunning⟩ := bind_eq_ok.mp hrunning
  have htime : strptime (.str t.print) = .ok t.cut := DateTime.strptime_print t
  refine bind_eq_ok.mpr ⟨state, hstate, bind_eq_ok.mpr ⟨true, Json.hasKey_of_getItem hrunning,
    bind_eq_ok.mpr ⟨ready, hget, ?_⟩⟩⟩
  rw [htruthy]
  exact bind_eq_ok.mpr ⟨running, hrunning, bind_eq_ok.mpr ⟨_, hprinted, bind_eq_ok.mpr ⟨_, htime, rfl⟩⟩⟩

theorem started_printed (container : Json) (c : Container) (t : DateTime) (hs : StandsContainer container c)
    (h : PrintsStart container t) : c.started = some t.cut := by
  have hread := containerStartedTime_ok ⟨.null, .null, [], false⟩ container c hs
  rw [containerStartedTime_printed _ container t h] at hread
  exact (Except.ok.inj hread).symm

theorem map_started_printed {items : List Json} {containers : List Container} {starts : List DateTime}
    (hs : List.Forall₂ StandsContainer items containers) (h : List.Forall₂ PrintsStart items starts) :
    containers.map Container.started = starts.map fun t => some t.cut := by
  induction hs generalizing starts with
  | nil =>
      cases h
      rfl
  | @cons container c items containers hfirst hrest ih =>
      cases h with
      | @cons _ t _ starts hprint hmore =>
          rw [List.map_cons, List.map_cons, started_printed container c t hfirst hprint, ih hmore]

-- The containers that an event lists are those of its pod.
theorem PodEvent.listed (e : PodEvent) (items : List Json) (h : eventContainers e.event = .ok items) :
    ∃ containers, e.pod.containers = some containers ∧ List.Forall₂ StandsContainer items containers := by
  obtain ⟨object, hobject, h⟩ := bind_eq_ok.mp h
  obtain ⟨status, hstatus, h⟩ := bind_eq_ok.mp h
  obtain ⟨statuses, hstatuses, hitems⟩ := bind_eq_ok.mp h
  have hsame : eventObject e.event = .ok e.object := bind_eq_ok.mpr ⟨e.data, e.decodes, e.hasObject⟩
  obtain rfl : object = e.object := Except.ok.inj (hobject.symm.trans hsame)
  have hstands := e.stands.status
  cases hs : e.pod.status with
  | none =>
      rw [hs] at hstands
      cases hstatus.symm.trans hstands
  | some podStatus =>
      rw [hs] at hstands
      obtain ⟨status', hget, hstands⟩ := hstands
      obtain rfl : status' = status := Except.ok.inj (hget.symm.trans hstatus)
      have hfield := hstands.containerStatuses
      cases hc : podStatus.containerStatuses with
      | none =>
          rw [hc] at hfield
          cases hstatuses.symm.trans hfield
      | some containers =>
          rw [hc] at hfield
          obtain ⟨statuses', hget', items', rfl, hcontainers⟩ := hfield
          obtain rfl : Json.arr items' = statuses := Except.ok.inj (hget'.symm.trans hstatuses)
          obtain rfl : items' = items := Except.ok.inj hitems
          exact ⟨containers, by simp [Pod.containers, hs, hc], hcontainers⟩

theorem PodEvent.PrintsStarts.started {e : PodEvent} {starts : List DateTime} (h : e.PrintsStarts starts) :
    ∃ containers, e.pod.containers = some containers ∧
      containers.map Container.started = starts.map fun t => some t.cut := by
  obtain ⟨items, hitems, hprinted⟩ := h.printed
  obtain ⟨containers, hc, hstands⟩ := e.listed items hitems
  exact ⟨containers, hc, map_started_printed hstands hprinted⟩

section Started

variable {pod : Pod} {containers : List Container} {starts : List DateTime}
  (h : containers.map Container.started = starts.map fun t => some t.cut)

include h

theorem started_isSome (c : Container) (hc : c ∈ containers) : c.started.isSome = true := by
  have hm : c.started ∈ containers.map Container.started := List.mem_map_of_mem hc
  rw [h] at hm
  obtain ⟨t, -, ht⟩ := List.mem_map.mp hm
  rw [← ht]
  rfl

theorem times_started : Checker.creation.times pod containers = starts.map DateTime.cut := by
  have htimes : Checker.creation.times pod containers =
      (containers.map Container.started).filterMap id := by
    rw [List.filterMap_map]
    rfl
  rw [htimes, h, List.filterMap_map]
  exact congrFun List.filterMap_eq_map starts

theorem greatest_started (last : DateTime) (hmem : last ∈ starts) (hlast : ∀ t ∈ starts, t ≤ last) :
    greatest DateTime.min (Checker.creation.times pod containers) = last.cut := by
  have hgreatest := greatest_eq_of_mem DateTime.min last starts DateTime.min_le hmem hlast
  rw [times_started h, ← DateTime.cut_min, greatest_map _ DateTime.cut_mono, hgreatest]

end Started

-- A ready pod gets its record unless its last container started within the second of
-- the begin time, and that is not the first instant of the second.
theorem creation_record_iff (e : PodEvent) (starts : List DateTime) (beginTime last : DateTime)
    (h : e.PrintsStarts starts) (hmem : last ∈ starts) (hlast : ∀ t ∈ starts, t ≤ last)
    (hb : beginTime ≤ last) :
    (∃ record, checkCreationEvent e.event beginTime = .ok (some record)) ↔
      (beginTime.microsecond = 0 ∨ beginTime.cut ≠ last.cut) ∧ (∃ name, e.pod.spec = some (some name)) ∧
        (∃ first, e.pod.startTime = some first ∧ 1900 ≤ first.year) ∧ 1900 ≤ last.year := by
  obtain ⟨containers, hc, hstarted⟩ := h.started
  have hgreatest : greatest DateTime.min (Checker.creation.times e.pod containers) = last.cut :=
    greatest_started hstarted last hmem hlast
  have hsince := DateTime.le_cut_iff beginTime last hb
  constructor
  · rintro ⟨record, hrecord⟩
    have haccepts : ∃ containers, Checker.creation.Accepts e beginTime record containers :=
      accepts_of_check hrecord
    obtain ⟨containers', ha⟩ := haccepts
    obtain rfl : containers = containers' := Option.some.inj (hc.symm.trans ha.listed)
    have hrecordLast : record.last = last.cut := ha.last.trans hgreatest
    have hyears := ha.years
    have hrecordSince := ha.since
    rw [hrecordLast] at hyears hrecordSince
    exact ⟨hsince.mp hrecordSince, ha.nodeName, ⟨record.first, ha.first, hyears.1⟩, hyears.2⟩
  · rintro ⟨hsecond, hname, ⟨first, hfirst, hyear⟩, hyear'⟩
    have ha : Checker.creation.Accepts e beginTime ⟨e.data, first, last.cut⟩ containers :=
      ⟨h.modified, hc, hname, fun c hc => started_isSome hstarted c hc, hfirst, hgreatest.symm,
        hsince.mpr hsecond, ⟨hyear, hyear'⟩, rfl⟩
    exact ⟨_, check_of_accepts ha⟩

-- A pod that is scheduled before the case begins and whose container starts a quarter
-- of a second after it, at :30.5.

def quickStatus : Str :=
  "\x7b\"startTime\":\"2016-03-01T10:20:28Z\",".toList ++
    "\"containerStatuses\":[\x7b\"state\":\x7b\"running\":\x7b".toList ++
    "\"startedAt\":\"2016-03-01T10:20:30Z\"\x7d\x7d,".toList ++
    "\"ready\":true\x7d]\x7d".toList

def quickObject : Json :=
  .obj [("metadata".toList, .obj [("name".toList, .str "web-1".toList),
      ("namespace".toList, .str "default".toList), ("uid".toList, .str "7a1".toList)]),
    ("spec".toList, .obj [("nodeName".toList, .str "node-1".toList)]),
    ("status".toList, .obj [("startTime".toList, .str "2016-03-01T10:20:28Z".toList),
      ("containerStatuses".toList, .arr [
        .obj [("state".toList, .obj [("running".toList,
          .obj [("startedAt".toList, .str "2016-03-01T10:20:30Z".toList)])]),
        ("ready".toList, .bool true)]])])]

def quickScheduled : DateTime :=
  { caseBegin with second := 28, microsecond := 0, validTime := by decide }

def quickStarted : DateTime :=
  { caseBegin with microsecond := 500000, validTime := by decide }

def quickEvent : PodEvent where
  event := message modified (podObject quickStatus)
  type := modified
  data := .obj [("type".toList, .str modified), ("object".toList, quickObject)]
  object := quickObject
  pod := ⟨some (some "node-1".toList), none,
    some ⟨some quickScheduled, some [⟨.running quickStarted.cut, true⟩]⟩⟩
  decodes := loads_of_loadsTo _ _ (by decide +kernel)
  hasType := rfl
  hasObject := rfl
  stands := by
    refine ⟨⟨_, rfl, _, rfl, rfl⟩, ⟨_, _, _, rfl, rfl, rfl, rfl⟩,
      ⟨_, rfl, ⟨_, rfl, ?_⟩, _, rfl, _, rfl, ?_⟩⟩
    · exact DateTime.strptime_print quickScheduled
    · have htime := DateTime.strptime_print quickStarted
      exact .cons ⟨⟨_, rfl, ⟨_, _, rfl, rfl, htime⟩, rfl⟩, rfl⟩ .nil

theorem quickEvent_starts : quickEvent.PrintsStarts [quickStarted] := by
  refine ⟨by decide +kernel, _, bind_eq_ok.mpr ⟨quickObject, ?_, rfl⟩,
    .cons ⟨rfl, _, rfl, rfl⟩ .nil⟩
  exact bind_eq_ok.mpr ⟨quickEvent.data, quickEvent.decodes, quickEvent.hasObject⟩

-- It is counted by a case that began with the second, and not by one that began a
-- quarter into it.
theorem quick_pod_recorded :
    ∃ record, checkCreationEvent quickEvent.event caseBegin.cut = .ok (some record) :=
  (creation_record_iff quickEvent [quickStarted] caseBegin.cut quickStarted quickEvent_starts
    (List.mem_singleton.mpr rfl) (fun _ ht => le_of_eq (List.mem_singleton.mp ht)) (by decide)).mpr
      ⟨Or.inl rfl, ⟨_, rfl⟩, ⟨_, rfl, by decide⟩, by decide⟩

theorem quick_pod_missed :
    quickEvent.PrintsStarts [quickStarted] ∧ caseBegin ≤ quickStarted ∧
      ¬∃ record, checkCreationEvent quickEvent.event caseBegin = .ok (some record) := by
  have hmissed : Checker.creation.check quickEvent.event caseBegin = .ok none :=
    check_old quickEvent_starts.modified rfl (by simp [quickEvent]) (by decide)
      quickScheduled rfl (by decide +kernel)
  refine ⟨quickEvent_starts, by decide, ?_⟩
  rintro ⟨record, hrecord⟩
  cases hmissed.symm.trans hrecord

end MesosPoc.Performance
