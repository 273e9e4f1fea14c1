import MesosPoc.Json.Alike
import MesosPoc.Performance.Checkers.PodTimes

namespace MesosPoc.Performance

open Json

-- The checkers without the test of their pattern.

def decodeByType (type event : Str) : Except PyError (Option (Json × Json)) := do
  let data ← Json.loads event
  let object ← data.getItem "object".toList
  let kind ← data.getItem "type".toList
  if isStr kind type then return some (data, object) else return none

def Checker.checkDecoded (checker : Checker) (event : Str) (beginTime : DateTime) :
    Except PyError (Option Record) := do
  match ← decodeByType checker.type event with
  | none => return none
  | some (data, object) => checkObject checker.containerTime checker.firstTime beginTime data object

structure SameRecord (record record' : Record) : Prop where
  data : Alike record.data record'.data
  first : record.first = record'.first
  last : record.last = record'.last

structure SamePod (pod pod' : PodStatus) : Prop where
  metadata : Alike pod.metadata pod'.metadata
  status : Alike pod.status pod'.status
  containers : AlikeItems pod.containers pod'.containers
  nodeBound : pod.nodeBound = pod'.nodeBound

section Reading

variable {j j' object object' : Json}

theorem isStr_alike (h : Alike j j') (s : Str) : isStr j s = isStr j' s := by
  cases h with
  | _ => rfl

theorem strptime_alike (h : Alike j j') : SameOutcome Eq (strptime j) (strptime j') := by
  cases h with
  | str value => exact .refl _
  | _ => exact .error _

theorem readNodeName_alike (h : Alike object object') :
    SameOutcome Eq (readNodeName object) (readNodeName object') := by
  unfold readNodeName
  apply (h.hasKey _).bind_eq
  intro present
  cases present with
  | false => exact .ok rfl
  | true =>
      apply (h.getItem _).bind
      intro spec spec' hspec
      apply (hspec.getItem _).bind
      intro name name' _
      exact .ok rfl

theorem readPod_alike (h : Alike object object') :
    SameOutcome (Option.Rel SamePod) (readPod object) (readPod object') := by
  unfold readPod
  apply (h.hasKey _).bind_eq
  intro present
  cases present with
  | false => exact .ok .none
  | true =>
      apply (h.getItem _).bind
      intro status status' hstatus
      apply (hstatus.hasKey _).bind_eq
      intro listed
      cases listed with
      | false => exact .ok .none
      | true =>
          apply (h.getItem _).bind
          intro metadata metadata' hmetadata
          apply (hmetadata.getItem _).bind
          intro name name' _
          apply (hmetadata.getItem _).bind
          intro value value' _
          apply (readNodeName_alike h).bind_eq
          intro nodeBound
          apply (hstatus.getItem _).bind
          intro statuses statuses' hstatuses
          apply hstatuses.iterate.bind
          intro containers containers' hcontainers
          exact .ok (.some ⟨hmetadata, hstatus, hcontainers, rfl⟩)

end Reading

section Times

variable {pod pod' : PodStatus} {container container' : Json}

theorem containerStartedTime_alike (pod pod' : PodStatus) (h : Alike container container') :
    SameOutcome Eq (containerStartedTime pod container) (containerStartedTime pod' container') := by
  unfold containerStartedTime
  apply (h.getItem _).bind
  intro state state' hstate
  apply (hstate.hasKey _).bind_eq
  intro present
  cases present with
  | false => exact .ok rfl
  | true =>
      apply (h.getItem _).bind
      intro ready ready' hready
      rw [hready.truthy]
      by_cases htruthy : ready'.truthy = true
      · rw [if_pos htruthy, if_pos htruthy]
        apply (hstate.getItem _).bind
        intro running running' hrunning
        apply (hrunning.getItem _).bind
        intro startedAt startedAt' hstartedAt
        apply (strptime_alike hstartedAt).bind_eq
        intro started
        exact .ok rfl
      · rw [if_neg htruthy, if_neg htruthy]
        exact .ok rfl

theorem containerDeletionTime_alike (hpod : SamePod pod pod') (h : Alike container container') :
    SameOutcome Eq (containerDeletionTime pod container) (containerDeletionTime pod' container') := by
  unfold containerDeletionTime
  apply (h.getItem _).bind
  intro state state' hstate
  apply (hstate.hasKey _).bind_eq
  intro present
  cases present with
  | false => exact .ok rfl
  | true =>
      apply (hpod.metadata.getItem _).bind
      intro stamp stamp' hstamp
      apply (strptime_alike hstamp).bind_eq
      intro deleted
      exact .ok rfl

theorem containerTime_alike (checker : Checker) (hpod : SamePod pod pod') (h : Alike container container') :
    SameOutcome Eq (checker.containerTime pod container) (checker.containerTime pod' container') := by
  cases checker with
  | creation => exact containerStartedTime_alike pod pod' h
  | deletion => exact containerDeletionTime_alike hpod h

theorem containerTime_text (checker : Checker) (pod : PodStatus) (text : Str) :
    checker.containerTime pod (.str text) = .error .typeError := by
  cases checker with
  | creation => rfl
  | deletion => rfl

theorem firstTime_alike (checker : Checker) (hpod : SamePod pod pod') (beginTime : DateTime) :
    SameOutcome Eq (checker.firstTime pod beginTime) (checker.firstTime pod' beginTime) := by
  cases checker with
  | creation =>
      apply (hpod.status.getItem _).bind
      intro startTime startTime' hstartTime
      exact strptime_alike hstartTime
  | deletion => exact .ok rfl

end Times

theorem newest_forall₂ {time time' : Json → Except PyError (Option DateTime)} {containers containers' : List Json}
    (latest : DateTime) (h : List.Forall₂ (fun c c' => SameOutcome Eq (time c) (time' c')) containers containers') :
    SameOutcome Eq (newest time containers latest) (newest time' containers' latest) := by
  induction h generalizing latest with
  | nil => exact .ok rfl
  | cons hc _ ih =>
      apply hc.bind_eq
      intro found
      cases found with
      | none => exact .ok rfl
      | some t => exact ih _

theorem newest_alike (checker : Checker) {pod pod' : PodStatus} (hpod : SamePod pod pod') (latest : DateTime) :
    SameOutcome Eq (newest (checker.containerTime pod) pod.containers latest)
      (newest (checker.containerTime pod') pod'.containers latest) := by
  have hcontainers := hpod.containers
  generalize pod.containers = containers at hcontainers ⊢
  generalize pod'.containers = containers' at hcontainers ⊢
  cases hcontainers with
  | items h => exact newest_forall₂ latest (h.imp fun _ _ hc => containerTime_alike checker hpod hc)
  | texts text text' rest rest' =>
      simp only [newest, containerTime_text]
      exact .error _

theorem report_nodeBound {pod pod' : PodStatus} (h : pod.nodeBound = pod'.nodeBound) (first last : DateTime) :
    report pod first last = report pod' first last := by
  rw [report, report, h]

theorem checkObject_alike (checker : Checker) (beginTime : DateTime) {data data' object object' : Json}
    (hdata : Alike data data') (hobject : Alike object object') :
    SameOutcome (Option.Rel SameRecord) (checkObject checker.containerTime checker.firstTime beginTime data object)
      (checkObject checker.containerTime checker.firstTime beginTime data' object') := by
  unfold checkObject
  apply (readPod_alike hobject).bind
  intro read read' hread
  cases hread with
  | none => exact .ok .none
  | @some pod pod' hpod =>
      apply (newest_alike checker hpod _).bind_eq
      intro found
      cases found with
      | none => exact .ok .none
      | some last =>
          apply (firstTime_alike checker hpod beginTime).bind_eq
          intro first
          by_cases hlast : last < beginTime
          · rw [if_pos hlast, if_pos hlast]
            exact .ok .none
          · rw [if_neg hlast, if_neg hlast, report_nodeBound hpod.nodeBound]
            apply (SameOutcome.refl _).bind_eq
            intro _
            exact .ok (.some ⟨hdata, rfl, rfl⟩)

theorem decodeByType_alike (type : Str) {event event' : Str} {data data' : Json}
    (hloads : Json.loads event = .ok data) (hloads' : Json.loads event' = .ok data') (h : Alike data data') :
    SameOutcome (Option.Rel fun decoded decoded' => Alike decoded.1 decoded'.1 ∧ Alike decoded.2 decoded'.2)
      (decodeByType type event) (decodeByType type event') := by
  have hdecoded : SameOutcome Alike (Json.loads event) (Json.loads event') := by
    rw [hloads, hloads']
    exact .ok h
  unfold decodeByType
  apply hdecoded.bind
  intro data data' hdata
  apply (hdata.getItem _).bind
  intro object object' hobject
  apply (hdata.getItem _).bind
  intro kind kind' hkind
  rw [isStr_alike hkind]
  by_cases htype : isStr kind' type = true
  · rw [if_pos htype, if_pos htype]
    exact .ok (.some ⟨hdata, hobject⟩)
  · rw [if_neg htype, if_neg htype]
    exact .ok .none

-- The decoded check does not see how an event is written.
theorem checkDecoded_alike (checker : Checker) (beginTime : DateTime) {event event' : Str} {data data' : Json}
    (hloads : Json.loads event = .ok data) (hloads' : Json.loads event' = .ok data') (h : Alike data data') :
    SameOutcome (Option.Rel SameRecord) (checker.checkDecoded event beginTime)
      (checker.checkDecoded event' beginTime) := by
  unfold Checker.checkDecoded
  apply (decodeByType_alike checker.type hloads hloads' h).bind
  intro decoded decoded' hdecoded
  cases hdecoded with
  | none => exact .ok .none
  | some hboth => exact checkObject_alike checker beginTime hboth.1 hboth.2

end MesosPoc.Performance
