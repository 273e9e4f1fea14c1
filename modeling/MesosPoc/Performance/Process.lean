import MesosPoc.Performance.Checkers

namespace MesosPoc.Performance

-- processEvents after a number of polls of the queue: it still waits, with the
-- value of its variables, or it has returned, with the polls it did not need, or
-- raised.
inductive Progress
  | waiting (target : Int) (endTime : DateTime)
  | returned (endTime : Option DateTime) (rest : List (Option Str))
  | raised (e : PyError)
deriving DecidableEq

-- What an accepted record does to target and endTime.
def count (record : Option Record) (target : Int) (endTime : DateTime) : Int × DateTime :=
  match record with
  | none => (target, endTime)
  | some record => (target - 1, if endTime < record.last then record.last else endTime)

section Loop

variable (checker : Checker) (beginTime : DateTime)

-- The loop. A poll gives an event, or nothing when the queue is empty.
def pollEvents : Int → DateTime → List (Option Str) → Progress
  | target, endTime, [] => .waiting target endTime
  | target, endTime, none :: rest => pollEvents target endTime rest
  | target, endTime, some event :: rest =>
      match checker.check event beginTime with
      | .error e => .raised e
      | .ok record =>
          if (count record target endTime).1 = 0 then .returned (some (count record target endTime).2) rest
          else if (count record target endTime).1 < 0 then
            .raised (.exception "Invalid target condition".toList)
          else pollEvents (count record target endTime).1 (count record target endTime).2 rest

def processEvents (target : Int) (polls : List (Option Str)) : Progress :=
  if target ≤ 0 then .returned none polls else pollEvents checker beginTime target DateTime.min polls

-- The events that a list of polls takes from the queue.
def taken (polls : List (Option Str)) : List Str :=
  polls.filterMap id

def accepts (event : Str) : Bool :=
  match checker.check event beginTime with
  | .ok (some _) => true
  | _ => false

def acceptedEvents (polls : List (Option Str)) : List Str :=
  (taken polls).filter (accepts checker beginTime)

end Loop

end MesosPoc.Performance
