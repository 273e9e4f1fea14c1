import MesosPoc.Performance.Pods
import MesosPoc.Machine

namespace MesosPoc.Performance

-- The threads of case.py: main starts the watcher, runs the start command and
-- then processes events; the watcher opens the watch and receives.
inductive Main
  | starting
  | commanding
  | processing
deriving DecidableEq

inductive Watcher
  | idle
  | opening
  | opened
deriving DecidableEq

-- A pod as the API server keeps it: its uid and the text of the object.
structure StoredPod where
  uid : Str
  object : Str
deriving DecidableEq

-- The state since begin_time was taken. The watch messages that were sent are on
-- the stream, on the queue, or taken from the queue by a poll. The uids of the
-- pods that have become running and ready, or have been deleted, are recorded.
structure System where
  main : Main
  watcher : Watcher
  pods : List StoredPod
  stream : List Str
  queue : List Str
  polls : List (Option Str)
  happened : List Str
deriving DecidableEq

def eventUid (event : Str) : Except PyError Json := do
  let object ← eventObject event
  let metadata ← object.getItem "metadata".toList
  metadata.getItem "uid".toList

-- The message is an event of this type about this pod.
def isMessage (type uid object : Str) : Bool :=
  hasType type (message type object) && holds (eventUid (message type object)) fun j => isStr j uid

def isReady (object : Str) : Bool :=
  runningAndReady (message modified object)

def containersTerminated (event : Str) : Bool :=
  holds (eventContainers event) fun containers =>
    !containers.isEmpty && containers.all fun c => holds (c.getItem "state".toList) fun state =>
      holds (state.hasKey "terminated".toList) id

namespace System

def find (s : System) (uid : Str) : Option StoredPod :=
  s.pods.find? fun pod => pod.uid = uid

def becomesReady (s : System) (uid object : Str) : Bool :=
  isReady object && !(s.find uid).any fun pod => isReady pod.object

-- A change of a pod is sent once the watch is open.
def change (s : System) (pods : List StoredPod) (uid event : Str) (occurs : Bool) : System :=
  { s with
    pods := pods
    stream := if s.watcher = .opened then s.stream ++ [event] else s.stream
    happened := if occurs then s.happened.insert uid else s.happened }

end System

inductive Label
  | startWatcher
  | openWatch
  | finishCommand
  | create (uid object : Str)
  | modify (uid object : Str)
  | delete (uid object : Str)
  | receive
  | poll

section Step

variable (checker : Checker) (beginTime : DateTime) (target : Int)

-- Whether processEvents goes on to poll.
def Progress.isWaiting : Progress → Bool
  | .waiting _ _ => true
  | _ => false

def step (s : System) : Label → Option System
  | .startWatcher =>
      if s.main = .starting then some { s with main := .commanding, watcher := .opening } else none
  | .openWatch =>
      if s.watcher = .opening then
        some { s with
          watcher := .opened
          stream := s.stream ++ s.pods.map fun pod => message added pod.object }
      else none
  | .finishCommand =>
      if s.main = .commanding then some { s with main := .processing } else none
  | .create uid object =>
      if (s.find uid).isNone ∧ isMessage added uid object then
        some (s.change (s.pods ++ [⟨uid, object⟩]) uid (message added object)
          (checker = .creation ∧ s.becomesReady uid object))
      else none
  | .modify uid object =>
      if (s.find uid).isSome ∧ isMessage modified uid object then
        some (s.change (s.pods.map fun pod => if pod.uid = uid then ⟨uid, object⟩ else pod) uid
          (message modified object) (checker = .creation ∧ s.becomesReady uid object))
      else none
  | .delete uid object =>
      if (s.find uid).isSome ∧ isMessage deleted uid object then
        some (s.change (s.pods.filter fun pod => pod.uid ≠ uid) uid (message deleted object)
          (checker = .deletion))
      else none
  | .receive =>
      match s.stream with
      | [] => none
      | event :: rest => some { s with stream := rest, queue := s.queue ++ [event] }
  | .poll =>
      if s.main = .processing ∧ (processEvents checker beginTime target s.polls).isWaiting then
        some { s with polls := s.polls ++ [s.queue.head?], queue := s.queue.tail }
      else none

-- begin_time has been taken. The namespace may hold pods already.
def start (pods : List StoredPod) : System where
  main := .starting
  watcher := .idle
  pods := pods
  stream := []
  queue := []
  polls := []
  happened := []

-- When all messages are consumed, processEvents does not wait for pods that have
-- already become running and ready, or have been deleted.
def NoEventLost (s : System) : Prop :=
  s.watcher = .opened → s.stream = [] → s.queue = [] → target ≤ s.happened.length →
    ∃ endTime rest, processEvents checker beginTime target s.polls = .returned endTime rest

end Step

-- The checker does not raise on the event.
def harmless (checker : Checker) (beginTime : DateTime) (event : Str) : Bool :=
  holds (checker.check event beginTime) fun _ => true

-- A pod becomes running and ready, or is deleted with its containers terminated,
-- while the watch is open and at a printed time that is not before the begin time,
-- and no message that is sent makes the checker raise.
def inTime (checker : Checker) (beginTime : DateTime) (s : System) : Label → Prop
  | .create uid object => ¬(checker = .creation ∧ s.becomesReady uid object)
  | .modify uid object =>
      (s.watcher = .opened → harmless checker beginTime (message modified object)) ∧
        (checker = .creation ∧ s.becomesReady uid object →
          s.watcher = .opened ∧ startedSince beginTime (message modified object))
  | .delete _ object =>
      (s.watcher = .opened → harmless checker beginTime (message deleted object)) ∧
        (checker = .deletion → s.watcher = .opened ∧ containersTerminated (message deleted object) ∧
          deletedSince beginTime (message deleted object))
  | _ => True

instance decidableInTime (checker : Checker) (beginTime : DateTime) (s : System) :
    ∀ label, Decidable (inTime checker beginTime s label)
  | .create uid object => inferInstanceAs (Decidable ¬(checker = .creation ∧ s.becomesReady uid object))
  | .modify uid object =>
      inferInstanceAs (Decidable ((s.watcher = .opened → harmless checker beginTime (message modified object)) ∧
        (checker = .creation ∧ s.becomesReady uid object →
          s.watcher = .opened ∧ startedSince beginTime (message modified object))))
  | .delete _ object =>
      inferInstanceAs (Decidable ((s.watcher = .opened → harmless checker beginTime (message deleted object)) ∧
        (checker = .deletion → s.watcher = .opened ∧ containersTerminated (message deleted object) ∧
          deletedSince beginTime (message deleted object))))
  | .startWatcher | .openWatch | .finishCommand | .receive | .poll => inferInstanceAs (Decidable True)

end MesosPoc.Performance
