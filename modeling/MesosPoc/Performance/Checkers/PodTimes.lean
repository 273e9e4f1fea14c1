import MesosPoc.Performance.PodObjects

namespace MesosPoc.Performance

open Json RunningMax

-- What distinguishes the two checkers.

def Checker.type : Checker → Str
  | .creation => "MODIFIED".toList
  | .deletion => "DELETED".toList

def Checker.containerTime : Checker → PodStatus → Json → Except PyError (Option DateTime)
  | .creation => containerStartedTime
  | .deletion => containerDeletionTime

def Checker.firstTime : Checker → PodStatus → DateTime → Except PyError DateTime
  | .creation => podStartTime
  | .deletion => fun _ beginTime => .ok beginTime

theorem check_eq (checker : Checker) (event : Str) (beginTime : DateTime) :
    checker.check event beginTime =
      checkEvent checker.type checker.containerTime checker.firstTime event beginTime := by
  cases checker with
  | creation => rfl
  | deletion => rfl

def Container.started (c : Container) : Option DateTime :=
  match c.state with
  | .running t => if c.ready then some t else none
  | _ => none

-- The time that a checker takes of a container, if the container has one.
def Checker.time (checker : Checker) (pod : Pod) (c : Container) : Option DateTime :=
  match checker with
  | .creation => c.started
  | .deletion => if c.state = .terminated then pod.deletionTimestamp else none

def Checker.times (checker : Checker) (pod : Pod) (containers : List Container) : List DateTime :=
  containers.filterMap (checker.time pod)

def Checker.first (checker : Checker) (pod : Pod) (beginTime : DateTime) : Option DateTime :=
  match checker with
  | .creation => pod.startTime
  | .deletion => some beginTime

-- A container is terminated and its pod has no deletion time.
def Checker.Untimed (checker : Checker) (pod : Pod) (c : Container) : Prop :=
  checker = .deletion ∧ c.state = .terminated ∧ pod.deletionTimestamp = none

section ContainerTimes

variable {p : PodStatus} {pod : Pod} {containers : List Container}

theorem containerStartedTime_ok (p : PodStatus) (j : Json) (c : Container) (h : StandsContainer j c) :
    containerStartedTime p j = .ok c.started := by
  obtain ⟨state, hget, hstate⟩ := h.state
  have hready := h.ready
  unfold containerStartedTime Container.started
  cases hc : c.state with
  | waiting =>
      rw [hc] at hstate
      exact bind_eq_ok.mpr ⟨state, hget, bind_eq_ok.mpr ⟨false, hasKey_of_keyError hstate.1, rfl⟩⟩
  | terminated =>
      rw [hc] at hstate
      exact bind_eq_ok.mpr ⟨state, hget, bind_eq_ok.mpr ⟨false, hasKey_of_keyError hstate.1, rfl⟩⟩
  | running t =>
      rw [hc] at hstate
      obtain ⟨⟨running, startedAt, hrunning, hstarted, htime⟩, -⟩ := hstate
      refine bind_eq_ok.mpr ⟨state, hget, bind_eq_ok.mpr ⟨true, Json.hasKey_of_getItem hrunning,
        bind_eq_ok.mpr ⟨_, hready, ?_⟩⟩⟩
      cases hr : c.ready with
      | false => rfl
      | true => exact bind_eq_ok.mpr ⟨running, hrunning, bind_eq_ok.mpr ⟨startedAt, hstarted,
          bind_eq_ok.mpr ⟨t, htime, rfl⟩⟩⟩

theorem containerDeletionTime_ok (hread : ReadAs p pod containers) (j : Json) (c : Container)
    (h : StandsContainer j c) (hu : ¬Checker.deletion.Untimed pod c) :
    containerDeletionTime p j = .ok (Checker.deletion.time pod c) := by
  obtain ⟨state, hget, hstate⟩ := h.state
  unfold containerDeletionTime Checker.time
  cases hc : c.state with
  | waiting =>
      rw [hc] at hstate
      exact bind_eq_ok.mpr ⟨state, hget, bind_eq_ok.mpr ⟨false, hasKey_of_keyError hstate.2, rfl⟩⟩
  | running t =>
      rw [hc] at hstate
      exact bind_eq_ok.mpr ⟨state, hget, bind_eq_ok.mpr ⟨false, hasKey_of_keyError hstate.2, rfl⟩⟩
  | terminated =>
      rw [hc] at hstate
      obtain ⟨-, terminated, hterminated⟩ := hstate
      have hdeletion := hread.deletionTimestamp
      cases hd : pod.deletionTimestamp with
      | none => exact absurd ⟨rfl, hc, hd⟩ hu
      | some d =>
          rw [hd] at hdeletion
          obtain ⟨stamp, hstamp, htime⟩ := hdeletion
          exact bind_eq_ok.mpr ⟨state, hget, bind_eq_ok.mpr ⟨true, Json.hasKey_of_getItem hterminated,
            bind_eq_ok.mpr ⟨stamp, hstamp, bind_eq_ok.mpr ⟨d, htime, rfl⟩⟩⟩⟩

theorem containerDeletionTime_error (hread : ReadAs p pod containers) (j : Json) (c : Container)
    (h : StandsContainer j c) (hu : Checker.deletion.Untimed pod c) :
    containerDeletionTime p j = .error (.keyError "deletionTimestamp".toList) := by
  obtain ⟨-, hc, hd⟩ := hu
  obtain ⟨state, hget, hstate⟩ := h.state
  rw [hc] at hstate
  obtain ⟨-, terminated, hterminated⟩ := hstate
  have hkey := Json.hasKey_of_getItem hterminated
  have hdeletion := hread.deletionTimestamp
  rw [hd] at hdeletion
  have hlacks : p.metadata.getItem "deletionTimestamp".toList =
      .error (.keyError "deletionTimestamp".toList) := hdeletion
  simp only [containerDeletionTime, hget, hkey, hlacks, bind, Except.bind, if_true]

theorem containerTime_ok (checker : Checker) (hread : ReadAs p pod containers) (j : Json) (c : Container)
    (h : StandsContainer j c) (hu : ¬checker.Untimed pod c) :
    checker.containerTime p j = .ok (checker.time pod c) := by
  cases checker with
  | creation => exact containerStartedTime_ok p j c h
  | deletion => exact containerDeletionTime_ok hread j c h hu

end ContainerTimes

end MesosPoc.Performance
