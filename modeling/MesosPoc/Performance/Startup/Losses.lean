import MesosPoc.Performance.Startup.Arrivals
import MesosPoc.Performance.Process.Counting

namespace MesosPoc.Performance

open Machine

section Waiting

variable {checker : Checker} {beginTime : DateTime} {target : Int}

theorem no_error_of_harmless {event : Str} {e : PyError}
    (h : harmless checker beginTime event = true) : checker.check event beginTime ≠ .error e := by
  obtain ⟨record, hrecord, -⟩ := (holds_iff _ _).mp h
  rw [hrecord]
  simp

-- processEvents returns when it has taken enough events that the checker accepts
-- and none that makes it raise.
theorem returned_of_enough (polls : List (Option Str))
    (hharmless : ∀ event ∈ taken polls, harmless checker beginTime event = true)
    (henough : target ≤ (acceptedEvents checker beginTime polls).length) :
    ∃ endTime rest, processEvents checker beginTime target polls = .returned endTime rest := by
  by_cases ht : target ≤ 0
  · exact ⟨none, polls, by rw [processEvents, if_pos ht]⟩
  · have hpos : 0 < target := by omega
    cases hp : processEvents checker beginTime target polls with
    | waiting left latest =>
        obtain ⟨hleft, hcount⟩ := processEvents_counts hpos hp
        omega
    | returned endTime rest => exact ⟨endTime, rest, rfl⟩
    | raised e =>
        obtain ⟨event, htaken, e, he⟩ := processEvents_counts hpos hp
        exact absurd he (no_error_of_harmless (hharmless event htaken))

end Waiting

-- When every step of a run is in time, no event is lost.
theorem no_event_lost (checker : Checker) (beginTime : DateTime) (target : Int)
    (pods : List StoredPod) (s : System)
    (hr : Reaches (step checker beginTime target) (inTime checker beginTime) (start pods) s) :
    NoEventLost checker beginTime target s := by
  have hstart : Tracked checker beginTime (start pods) := by
    refine ⟨?_, ?_⟩
    · intro event hevent
      cases hevent
    · exact Nat.zero_le _
  obtain ⟨hharmless, haccepted⟩ := hr.invariant (Tracked checker beginTime) hstart tracked_step
  intro _ hstream hqueue henough
  have hsent : s.sent = taken s.polls := by
    rw [System.sent, hstream, hqueue, List.append_nil, List.append_nil]
  rw [hsent] at hharmless haccepted
  apply returned_of_enough s.polls hharmless
  unfold acceptedEvents
  omega

section Runs

def startingStatus : Str := "\x7b\x7d".toList

def podUid : Str := "7a1".toList

-- The start command creates a pod, which becomes ready while it is watched.
def watchedRun : List Label :=
  [.startWatcher, .openWatch, .create podUid (podObject startingStatus),
    .modify podUid (podObject readyStatus), .finishCommand, .receive, .receive, .poll, .poll]

def watchedEnd : System where
  main := .processing
  watcher := .opened
  pods := [⟨podUid, podObject readyStatus⟩]
  stream := []
  queue := []
  polls := [some (message added (podObject startingStatus)), some (message modified (podObject readyStatus))]
  happened := [podUid]

theorem no_event_lost_watched :
    watchedEnd.happened = [podUid] ∧ NoEventLost .creation caseBegin 1 watchedEnd := by
  refine ⟨rfl, no_event_lost .creation caseBegin 1 [] watchedEnd ?_⟩
  exact reaches_of_run watchedRun (by decide +kernel) (by decide +kernel)

-- The pod becomes ready before the watch is open: its ADDED event is ignored.
def lateWatchRun : List Label :=
  [.startWatcher, .create podUid (podObject startingStatus), .modify podUid (podObject readyStatus),
    .openWatch, .finishCommand, .receive, .poll]

def lateWatchEnd : System where
  main := .processing
  watcher := .opened
  pods := [⟨podUid, podObject readyStatus⟩]
  stream := []
  queue := []
  polls := [some (message added (podObject readyStatus))]
  happened := [podUid]

theorem late_watch_waits :
    Reaches (step .creation caseBegin 1) anyStep (start []) lateWatchEnd ∧
      ¬NoEventLost .creation caseBegin 1 lateWatchEnd := by
  refine ⟨reaches_of_run_any lateWatchRun (by decide +kernel), ?_⟩
  intro h
  obtain ⟨endTime, rest, hreturned⟩ := h rfl rfl rfl (by decide)
  have hwaiting : processEvents .creation caseBegin 1 lateWatchEnd.polls = .waiting 1 DateTime.min := by
    decide +kernel
  rw [hwaiting] at hreturned
  cases hreturned

end Runs

end MesosPoc.Performance
