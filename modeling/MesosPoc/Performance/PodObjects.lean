import MesosPoc.Performance.Checkers.Theorems
import MesosPoc.Json.Fields
import MesosPoc.RunningMax

namespace MesosPoc.Performance

open Json

-- What a pod object says, with the fields that it may lack.

inductive ContainerState
  | waiting
  | running (startedAt : DateTime)
  | terminated
deriving DecidableEq

structure Container where
  state : ContainerState
  ready : Bool
deriving DecidableEq

structure Status where
  startTime : Option DateTime
  containerStatuses : Option (List Container)

structure Pod where
  spec : Option (Option Str)
  deletionTimestamp : Option DateTime
  status : Option Status

def Pod.startTime (pod : Pod) : Option DateTime :=
  pod.status.bind Status.startTime

def Pod.containers (pod : Pod) : Option (List Container) :=
  pod.status.bind Status.containerStatuses

-- When a JSON value is such an object, whatever other fields it has.

def StandsTime (j : Json) (t : DateTime) : Prop :=
  strptime j = .ok t

def Lacks (j : Json) (key : Str) : Prop :=
  j.getItem key = .error (.keyError key)

def StandsState (j : Json) : ContainerState → Prop
  | .waiting => Lacks j "running".toList ∧ Lacks j "terminated".toList
  | .running t =>
      (∃ running startedAt, j.getItem "running".toList = .ok running ∧
        running.getItem "startedAt".toList = .ok startedAt ∧ StandsTime startedAt t) ∧
      Lacks j "terminated".toList
  | .terminated =>
      Lacks j "running".toList ∧ ∃ terminated, j.getItem "terminated".toList = .ok terminated

structure StandsContainer (j : Json) (c : Container) : Prop where
  state : ∃ state, j.getItem "state".toList = .ok state ∧ StandsState state c.state
  ready : j.getItem "ready".toList = .ok (.bool c.ready)

structure StandsStatus (j : Json) (status : Status) : Prop where
  startTime : HasField j "startTime".toList StandsTime status.startTime
  containerStatuses :
    HasField j "containerStatuses".toList (IsArray StandsContainer) status.containerStatuses

def StandsSpec (j : Json) (nodeName : Option Str) : Prop :=
  HasField j "nodeName".toList (fun value name => value = .str name) nodeName

structure StandsPod (object : Json) (pod : Pod) : Prop where
  spec : HasField object "spec".toList StandsSpec pod.spec
  metadata : ∃ metadata name value, object.getItem "metadata".toList = .ok metadata ∧
    metadata.getItem "name".toList = .ok name ∧ metadata.getItem "namespace".toList = .ok value ∧
    HasField metadata "deletionTimestamp".toList StandsTime pod.deletionTimestamp
  status : HasField object "status".toList StandsStatus pod.status

-- A watch event whose object is a pod.
structure PodEvent where
  event : Str
  type : Str
  data : Json
  object : Json
  pod : Pod
  decodes : Json.loads event = .ok data
  hasType : data.getItem "type".toList = .ok (.str type)
  hasObject : data.getItem "object".toList = .ok object
  stands : StandsPod object pod

def PodEvent.matched (e : PodEvent) (type : Str) : Bool :=
  (pattern type).isPrefixOf e.event && e.type == type

theorem PodEvent.decodeEvent_matched (e : PodEvent) (type : Str) (hm : e.matched type = true) :
    decodeEvent type e.event = .ok (some (e.data, e.object)) := by
  obtain ⟨hpattern, htype⟩ := Bool.and_eq_true_iff.mp hm
  have hkind : isStr (.str e.type) type = true := by simpa [isStr] using htype
  exact (decodeEvent_eq_some_iff _ _ _ _).mpr ⟨hpattern, e.decodes, e.hasObject, _, e.hasType, hkind⟩

theorem PodEvent.decodeEvent_unmatched (e : PodEvent) (type : Str) (hm : e.matched type = false) :
    decodeEvent type e.event = .ok none := by
  unfold decodeEvent
  cases hpattern : (pattern type).isPrefixOf e.event with
  | false => rfl
  | true =>
      have hkind : isStr (.str e.type) type = false := by
        simp only [matched, hpattern, Bool.true_and, beq_eq_false_iff_ne] at hm
        simpa [isStr] using hm
      simp only [if_true, e.decodes, e.hasObject, e.hasType, bind, Except.bind, hkind, Bool.false_eq_true,
        if_false]
      rfl

-- What a checker has read of a pod when it comes to its containers.
structure ReadAs (p : PodStatus) (pod : Pod) (containers : List Container) : Prop where
  nodeBound : p.nodeBound = pod.spec.isSome
  containers : List.Forall₂ StandsContainer p.containers containers
  deletionTimestamp : HasField p.metadata "deletionTimestamp".toList StandsTime pod.deletionTimestamp
  startTime : HasField p.status "startTime".toList StandsTime pod.startTime

theorem readNodeName_ok (object : Json) (pod : Pod) (h : StandsPod object pod) (hn : pod.spec ≠ some none) :
    readNodeName object = .ok pod.spec.isSome := by
  have hspec := h.spec
  have hkey := hspec.hasKey
  unfold readNodeName
  cases hs : pod.spec with
  | none =>
      rw [hs] at hkey
      rw [hkey]
      rfl
  | some nodeName =>
      cases nodeName with
      | none => exact absurd hs hn
      | some name =>
          rw [hs] at hkey hspec
          obtain ⟨spec, hget, value, hname, -⟩ := hspec
          exact bind_eq_ok.mpr ⟨true, hkey, bind_eq_ok.mpr ⟨spec, hget, bind_eq_ok.mpr ⟨value, hname, rfl⟩⟩⟩

theorem readNodeName_error (object : Json) (pod : Pod) (h : StandsPod object pod)
    (hn : pod.spec = some none) : readNodeName object = .error (.keyError "nodeName".toList) := by
  have hspec := h.spec
  have hkey := hspec.hasKey
  rw [hn] at hspec hkey
  obtain ⟨spec, hget, hname⟩ := hspec
  have hlacks : spec.getItem "nodeName".toList = .error (.keyError "nodeName".toList) := hname
  simp only [readNodeName, hkey, hget, hlacks, bind, Except.bind, Option.isSome_some, if_true]

theorem readPod_unlisted (object : Json) (pod : Pod) (h : StandsPod object pod)
    (hc : pod.containers = none) : readPod object = .ok none := by
  have hstatus := h.status
  have hkey := hstatus.hasKey
  unfold readPod
  cases hs : pod.status with
  | none =>
      rw [hs] at hkey
      rw [hkey]
      rfl
  | some status =>
      rw [hs] at hstatus hkey
      obtain ⟨value, hget, hstands⟩ := hstatus
      have hlisted := hstands.containerStatuses.hasKey
      have hnone : status.containerStatuses = none := by simpa [Pod.containers, hs] using hc
      rw [hnone] at hlisted
      exact bind_eq_ok.mpr ⟨true, hkey, bind_eq_ok.mpr ⟨value, hget, bind_eq_ok.mpr ⟨false, hlisted, rfl⟩⟩⟩

-- The reads that come before the one of nodeName all succeed.
theorem exists_listed (object : Json) (pod : Pod) (containers : List Container) (h : StandsPod object pod)
    (hc : pod.containers = some containers) :
    ∃ metadata name value status items, object.hasKey "status".toList = .ok true ∧
      object.getItem "status".toList = .ok status ∧ status.hasKey "containerStatuses".toList = .ok true ∧
      object.getItem "metadata".toList = .ok metadata ∧ metadata.getItem "name".toList = .ok name ∧
      metadata.getItem "namespace".toList = .ok value ∧
      status.getItem "containerStatuses".toList = .ok (.arr items) ∧
      List.Forall₂ StandsContainer items containers ∧
      HasField metadata "deletionTimestamp".toList StandsTime pod.deletionTimestamp ∧
      HasField status "startTime".toList StandsTime pod.startTime := by
  obtain ⟨metadata, name, value, hmetadata, hname, hvalue, hdeletion⟩ := h.metadata
  have hstatus := h.status
  have hkey := hstatus.hasKey
  cases hs : pod.status with
  | none => simp [Pod.containers, hs] at hc
  | some status =>
      rw [hs] at hstatus hkey
      obtain ⟨j, hget, hstands⟩ := hstatus
      have hsome : status.containerStatuses = some containers := by simpa [Pod.containers, hs] using hc
      have hlisted := hstands.containerStatuses.hasKey
      have hfield := hstands.containerStatuses
      rw [hsome] at hlisted hfield
      obtain ⟨_, hitems, items, rfl, hstand⟩ := hfield
      have hstart : HasField j "startTime".toList StandsTime pod.startTime := by
        have hsame : pod.startTime = status.startTime := by simp [Pod.startTime, hs]
        rw [hsame]
        exact hstands.startTime
      exact ⟨metadata, name, value, j, items, hkey, hget, hlisted, hmetadata, hname, hvalue, hitems, hstand,
        hdeletion, hstart⟩

theorem readPod_ok (object : Json) (pod : Pod) (containers : List Container) (h : StandsPod object pod)
    (hc : pod.containers = some containers) (hn : pod.spec ≠ some none) :
    ∃ p, readPod object = .ok (some p) ∧ ReadAs p pod containers := by
  obtain ⟨metadata, name, value, status, items, hkey, hget, hlisted, hmetadata, hname, hvalue, hitems,
    hstand, hdeletion, hstart⟩ := exists_listed object pod containers h hc
  refine ⟨⟨metadata, status, items, pod.spec.isSome⟩, ?_, rfl, hstand, hdeletion, hstart⟩
  exact bind_eq_ok.mpr ⟨true, hkey, bind_eq_ok.mpr ⟨status, hget, bind_eq_ok.mpr ⟨true, hlisted,
    bind_eq_ok.mpr ⟨metadata, hmetadata, bind_eq_ok.mpr ⟨name, hname, bind_eq_ok.mpr ⟨value, hvalue,
      bind_eq_ok.mpr ⟨_, readNodeName_ok object pod h hn, bind_eq_ok.mpr ⟨_, hitems,
        bind_eq_ok.mpr ⟨items, rfl, rfl⟩⟩⟩⟩⟩⟩⟩⟩⟩

theorem readPod_error (object : Json) (pod : Pod) (containers : List Container) (h : StandsPod object pod)
    (hc : pod.containers = some containers) (hn : pod.spec = some none) :
    readPod object = .error (.keyError "nodeName".toList) := by
  obtain ⟨metadata, name, value, status, items, hkey, hget, hlisted, hmetadata, hname, hvalue, -⟩ :=
    exists_listed object pod containers h hc
  simp only [readPod, hkey, hget, hlisted, hmetadata, hname, hvalue, readNodeName_error object pod h hn,
    bind, Except.bind, if_true]

end MesosPoc.Performance
