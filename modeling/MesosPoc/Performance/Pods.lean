import MesosPoc.Performance.Checkers.Theorems
import MesosPoc.Performance.Process

namespace MesosPoc.Performance

-- The API server writes the type of an event first and no blanks.
def message (type object : Str) : Str :=
  pattern type ++ ",\"object\":".toList ++ object ++ "\x7d\n".toList

def added : Str := "ADDED".toList

def modified : Str := "MODIFIED".toList

def deleted : Str := "DELETED".toList

-- What the events say about pods, whatever the checkers make of it.

structure PodId where
  name : Json
  uid : Option Json

def eventObject (event : Str) : Except PyError Json := do
  let data ← Json.loads event
  data.getItem "object".toList

def eventPod (event : Str) : Except PyError PodId := do
  let object ← eventObject event
  let metadata ← object.getItem "metadata".toList
  let name ← metadata.getItem "name".toList
  return { name, uid := (metadata.getItem "uid".toList).toOption }

def eventContainers (event : Str) : Except PyError (List Json) := do
  let object ← eventObject event
  let status ← object.getItem "status".toList
  let statuses ← status.getItem "containerStatuses".toList
  statuses.iterate

def runningState (container : Json) : Except PyError Json := do
  let state ← container.getItem "state".toList
  state.getItem "running".toList

def startedAt (container : Json) : Except PyError DateTime := do
  let running ← runningState container
  let startedAt ← running.getItem "startedAt".toList
  strptime startedAt

def deletedAt (event : Str) : Except PyError DateTime := do
  let object ← eventObject event
  let metadata ← object.getItem "metadata".toList
  let deletionTimestamp ← metadata.getItem "deletionTimestamp".toList
  strptime deletionTimestamp

def holds {α : Type} (result : Except PyError α) (p : α → Bool) : Bool :=
  match result with
  | .ok a => p a
  | .error _ => false

def containerReady (container : Json) : Bool :=
  (holds (runningState container) fun _ => true) &&
    holds (container.getItem "ready".toList) Json.truthy

-- The event shows a pod whose containers are all running and ready.
def runningAndReady (event : Str) : Bool :=
  holds (eventContainers event) fun containers =>
    !containers.isEmpty && containers.all containerReady

def startedSince (beginTime : DateTime) (event : Str) : Bool :=
  holds (eventContainers event) fun containers =>
    containers.any fun c => holds (startedAt c) fun t => beginTime ≤ t

-- The type that an event says it has.
def hasType (type event : Str) : Bool :=
  holds (Json.loads event) fun data => holds (data.getItem "type".toList) fun kind => isStr kind type

def deletedSince (beginTime : DateTime) (event : Str) : Bool :=
  holds (deletedAt event) fun t => beginTime ≤ t

-- What a checker looks for: the pod of the event has become running and ready, or
-- has been deleted, since the begin time.
def happenedSince (beginTime : DateTime) (event : Str) : Checker → Bool
  | .creation => runningAndReady event && startedSince beginTime event
  | .deletion => hasType "DELETED".toList event && deletedSince beginTime event

theorem holds_iff {α : Type} (result : Except PyError α) (p : α → Bool) :
    holds result p = true ↔ ∃ a, result = .ok a ∧ p a = true := by
  cases result <;> simp [holds]

theorem containerReady_iff (container : Json) :
    containerReady container = true ↔ (∃ running, runningState container = .ok running) ∧
      ∃ ready, container.getItem "ready".toList = .ok ready ∧ ready.truthy = true := by
  simp [containerReady, holds_iff]

theorem runningAndReady_iff (event : Str) :
    runningAndReady event = true ↔ ∃ containers, eventContainers event = .ok containers ∧
      containers ≠ [] ∧ ∀ c ∈ containers, containerReady c = true := by
  simp [runningAndReady, holds_iff]

theorem startedSince_iff (beginTime : DateTime) (event : Str) :
    startedSince beginTime event = true ↔ ∃ containers, eventContainers event = .ok containers ∧
      ∃ c ∈ containers, ∃ t, startedAt c = .ok t ∧ beginTime ≤ t := by
  simp [startedSince, holds_iff]

theorem hasType_iff (type event : Str) :
    hasType type event = true ↔ ∃ data, Json.loads event = .ok data ∧
      ∃ kind, data.getItem "type".toList = .ok kind ∧ isStr kind type = true := by
  simp [hasType, holds_iff]

theorem deletedSince_iff (beginTime : DateTime) (event : Str) :
    deletedSince beginTime event = true ↔ ∃ t, deletedAt event = .ok t ∧ beginTime ≤ t := by
  simp [deletedSince, holds_iff]

section Accepted

variable {type : Str} {containerTime : PodStatus → Json → Except PyError (Option DateTime)}
  {firstTime : PodStatus → DateTime → Except PyError DateTime} {event : Str} {beginTime : DateTime}
  {record : Record} {object : Json} {pod : PodStatus}

theorem Matches.eventObject
    (h : Matches type containerTime firstTime event beginTime record object pod) :
    eventObject event = .ok object := by
  obtain ⟨-, hdata, hobject, -⟩ := (decodeEvent_eq_some_iff _ _ _ _).mp h.decoded
  exact bind_eq_ok.mpr ⟨record.data, hdata, hobject⟩

theorem Matches.eventPod
    (h : Matches type containerTime firstTime event beginTime record object pod) :
    ∃ pod, eventPod event = .ok pod := by
  have hread := readsPod_of_eq_some object pod h.read
  obtain ⟨name, hname⟩ := hread.name
  exact ⟨_, bind_eq_ok.mpr ⟨object, h.eventObject, bind_eq_ok.mpr ⟨pod.metadata, hread.metadata,
    bind_eq_ok.mpr ⟨name, hname, rfl⟩⟩⟩⟩

theorem Matches.eventContainers
    (h : Matches type containerTime firstTime event beginTime record object pod) :
    eventContainers event = .ok pod.containers := by
  have hread := readsPod_of_eq_some object pod h.read
  obtain ⟨statuses, hstatuses, hcontainers⟩ := hread.containers
  exact bind_eq_ok.mpr ⟨object, h.eventObject, bind_eq_ok.mpr ⟨pod.status, hread.status,
    bind_eq_ok.mpr ⟨statuses, hstatuses, hcontainers⟩⟩⟩

end Accepted

theorem containerStartedTime_eq_some (pod : PodStatus) (c : Json) (t : DateTime)
    (h : containerStartedTime pod c = .ok (some t)) :
    containerReady c = true ∧ startedAt c = .ok t := by
  obtain ⟨state, hstate, h⟩ := bind_eq_ok.mp h
  obtain ⟨_ | _, -, h⟩ := bind_eq_ok.mp h
  · cases h
  · obtain ⟨ready, hready, h⟩ := bind_eq_ok.mp h
    cases htruthy : ready.truthy with
    | false => simp [htruthy, pure, Except.pure] at h
    | true =>
        simp only [htruthy, if_true, bind_eq_ok] at h
        obtain ⟨running, hrunning, started, hstarted, time, htime, h⟩ := h
        obtain rfl : time = t := Option.some.inj (Except.ok.inj h)
        have hstateRunning : runningState c = .ok running := bind_eq_ok.mpr ⟨state, hstate, hrunning⟩
        exact ⟨(containerReady_iff c).mpr ⟨⟨running, hstateRunning⟩, ⟨ready, hready, htruthy⟩⟩,
          bind_eq_ok.mpr ⟨running, hstateRunning, bind_eq_ok.mpr ⟨started, hstarted, htime⟩⟩⟩

theorem containerDeletionTime_eq_some (pod : PodStatus) (c : Json) (t : DateTime)
    (h : containerDeletionTime pod c = .ok (some t)) :
    ∃ stamp, pod.metadata.getItem "deletionTimestamp".toList = .ok stamp ∧ strptime stamp = .ok t := by
  obtain ⟨state, -, h⟩ := bind_eq_ok.mp h
  obtain ⟨_ | _, -, h⟩ := bind_eq_ok.mp h
  · cases h
  · obtain ⟨stamp, hstamp, h⟩ := bind_eq_ok.mp h
    obtain ⟨time, htime, h⟩ := bind_eq_ok.mp h
    obtain rfl : time = t := Option.some.inj (Except.ok.inj h)
    exact ⟨stamp, hstamp, htime⟩

theorem accepts_iff (checker : Checker) (beginTime : DateTime) (event : Str) :
    accepts checker beginTime event = true ↔
      ∃ record, checker.check event beginTime = .ok (some record) := by
  unfold accepts
  split
  · rename_i record h
    simp [h]
  · rename_i h
    simp only [Bool.false_eq_true, false_iff, not_exists]
    intro record hr
    exact h record hr

-- What a checker accepts has happened, to a pod that the event names.
theorem happenedSince_of_accepts (checker : Checker) (beginTime : DateTime) (event : Str)
    (ha : accepts checker beginTime event = true) :
    happenedSince beginTime event checker = true ∧ ∃ pod, eventPod event = .ok pod := by
  obtain ⟨record, hrecord⟩ := (accepts_iff checker beginTime event).mp ha
  cases checker with
  | creation =>
      obtain ⟨object, pod, hm⟩ := (checkEvent_eq_some_iff record).mp hrecord
      obtain ⟨c, hc, hlast⟩ := hm.container
      obtain ⟨hall, -, -⟩ := newest_eq_some _ _ _ hm.newest
      refine ⟨Bool.and_eq_true_iff.mpr ⟨(runningAndReady_iff event).mpr ⟨pod.containers,
        hm.eventContainers, List.ne_nil_of_mem hc, ?_⟩, (startedSince_iff beginTime event).mpr
          ⟨pod.containers, hm.eventContainers, c, hc, record.last, ?_, hm.since⟩⟩, hm.eventPod⟩
      · intro c' hc'
        obtain ⟨t, ht, -⟩ := hall c' hc'
        exact (containerStartedTime_eq_some pod c' t ht).1
      · exact (containerStartedTime_eq_some pod c record.last hlast).2
  | deletion =>
      obtain ⟨object, pod, hm⟩ := (checkEvent_eq_some_iff record).mp hrecord
      obtain ⟨c, hc, hlast⟩ := hm.container
      obtain ⟨-, hdata, -, kind, hkind, htype⟩ := (decodeEvent_eq_some_iff _ _ _ _).mp hm.decoded
      obtain ⟨stamp, hstamp, htime⟩ := containerDeletionTime_eq_some pod c record.last hlast
      have hread := readsPod_of_eq_some object pod hm.read
      have hdeleted : deletedAt event = .ok record.last :=
        bind_eq_ok.mpr ⟨object, hm.eventObject, bind_eq_ok.mpr ⟨pod.metadata, hread.metadata,
          bind_eq_ok.mpr ⟨stamp, hstamp, htime⟩⟩⟩
      exact ⟨Bool.and_eq_true_iff.mpr ⟨(hasType_iff _ event).mpr ⟨record.data, hdata, kind, hkind, htype⟩,
        (deletedSince_iff beginTime event).mpr ⟨record.last, hdeleted, hm.since⟩⟩, hm.eventPod⟩

end MesosPoc.Performance
