import MesosPoc.Json
import MesosPoc.Datetime

namespace MesosPoc.Performance

open Python

-- The tuple (True, data, first, last) that a checker returns.
structure Record where
  data : Json
  first : DateTime
  last : DateTime

-- What a checker has read of a pod before it looks at the containers.
structure PodStatus where
  metadata : Json
  status : Json
  containers : List Json
  nodeBound : Bool

def isStr (j : Json) (s : Str) : Bool :=
  match j with
  | .str value => value = s
  | _ => false

-- DELETE_PATTERN and MODIFIED_PATTERN.
def pattern (type : Str) : Str :=
  "\x7b\"type\":\"".toList ++ type ++ "\"".toList

def decodeEvent (type event : Str) : Except PyError (Option (Json × Json)) := do
  if (pattern type).isPrefixOf event then
    let data ← Json.loads event
    let object ← data.getItem "object".toList
    let kind ← data.getItem "type".toList
    if isStr kind type then return some (data, object) else return none
  else return none

-- Whether nodeName is bound after the test for a spec.
def readNodeName (object : Json) : Except PyError Bool := do
  if ← object.hasKey "spec".toList then
    let spec ← object.getItem "spec".toList
    let _ ← spec.getItem "nodeName".toList
    return true
  else return false

def readPod (object : Json) : Except PyError (Option PodStatus) := do
  if ← object.hasKey "status".toList then
    let status ← object.getItem "status".toList
    if ← status.hasKey "containerStatuses".toList then
      let metadata ← object.getItem "metadata".toList
      let _ ← metadata.getItem "name".toList
      let _ ← metadata.getItem "namespace".toList
      let nodeBound ← readNodeName object
      let containerStatuses ← status.getItem "containerStatuses".toList
      let containers ← containerStatuses.iterate
      return some { metadata, status, containers, nodeBound }
    else return none
  else return none

def strptime (j : Json) : Except PyError DateTime :=
  match j with
  | .str s => DateTime.strptime s
  | _ => .error .typeError

-- The loop over the containers: the largest of their times, none when one of
-- them makes the checker return.
def newest (time : Json → Except PyError (Option DateTime)) :
    List Json → DateTime → Except PyError (Option DateTime)
  | [], latest => .ok (some latest)
  | container :: rest, latest => do
      match ← time container with
      | none => return none
      | some t => newest time rest (if latest < t then t else latest)

-- The arguments of the last logging.debug.
def report (pod : PodStatus) (first last : DateTime) : Except PyError Unit := do
  if pod.nodeBound then
    first.strftime
    last.strftime
  else throw (.unboundLocalError "nodeName".toList)

-- The two checkers differ in the type of the event, in the time of a container,
-- and in what the record and the log give as the first time.
section Checker

variable (containerTime : PodStatus → Json → Except PyError (Option DateTime))
  (firstTime : PodStatus → DateTime → Except PyError DateTime) (beginTime : DateTime)

-- A checker from its loop over the containers on.
def checkContainers (data : Json) (pod : PodStatus) : Except PyError (Option Record) := do
  match ← newest (containerTime pod) pod.containers DateTime.min with
  | none => return none
  | some last =>
      let first ← firstTime pod beginTime
      if last < beginTime then return none
      else
        report pod first last
        return some { data, first, last }

-- A checker once it has the object of an event of its type.
def checkObject (data object : Json) : Except PyError (Option Record) := do
  match ← readPod object with
  | none => return none
  | some pod => checkContainers containerTime firstTime beginTime data pod

end Checker

def checkEvent (type : Str) (containerTime : PodStatus → Json → Except PyError (Option DateTime))
    (firstTime : PodStatus → DateTime → Except PyError DateTime) (event : Str)
    (beginTime : DateTime) : Except PyError (Option Record) := do
  match ← decodeEvent type event with
  | none => return none
  | some (data, object) => checkObject containerTime firstTime beginTime data object

def containerStartedTime (_ : PodStatus) (container : Json) : Except PyError (Option DateTime) := do
  let state ← container.getItem "state".toList
  if ← state.hasKey "running".toList then
    let ready ← container.getItem "ready".toList
    if ready.truthy then
      let running ← state.getItem "running".toList
      let startedAt ← running.getItem "startedAt".toList
      let started ← strptime startedAt
      return some started
    else return none
  else return none

def containerDeletionTime (pod : PodStatus) (container : Json) :
    Except PyError (Option DateTime) := do
  let state ← container.getItem "state".toList
  if ← state.hasKey "terminated".toList then
    let deletionTimestamp ← pod.metadata.getItem "deletionTimestamp".toList
    let deleted ← strptime deletionTimestamp
    return some deleted
  else return none

def podStartTime (pod : PodStatus) (_ : DateTime) : Except PyError DateTime := do
  let startTime ← pod.status.getItem "startTime".toList
  strptime startTime

def checkCreationEvent : Str → DateTime → Except PyError (Option Record) :=
  checkEvent "MODIFIED".toList containerStartedTime podStartTime

def checkDeletionEvent : Str → DateTime → Except PyError (Option Record) :=
  checkEvent "DELETED".toList containerDeletionTime fun _ beginTime => .ok beginTime

-- The checker that a case names.
inductive Checker
  | creation
  | deletion
deriving DecidableEq

def Checker.check : Checker → Str → DateTime → Except PyError (Option Record)
  | .creation => checkCreationEvent
  | .deletion => checkDeletionEvent

end MesosPoc.Performance
