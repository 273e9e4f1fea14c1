import MesosPoc.Performance.Process
import MesosPoc.Performance.Subprocess
import MesosPoc.Outcome

namespace MesosPoc.Performance

open Python

-- What main does that can be seen from outside: its lines in the log and the clear
-- command.
inductive Action
  | start (caseName : Json) (beginTime : DateTime)
  | stop (caseName : Json) (beginTime endTime : DateTime)
  | clear (command : Json)

-- What a run of main depends on: the case file, the calls that may raise, the clock,
-- what eval makes of any other checker, and the polls of the queue.
structure World where
  caseFile : Option (Except PyError Str)
  str : Json → Except PyError Str
  setenv : Str → Str → Except PyError Unit
  otherInt : Json → Except PyError Int
  openLog : Json → Json → Except PyError Unit
  popen : Json → Except PyError Process
  call : Json → Except PyError Unit
  otherChecker : Json → Str → DateTime → Except PyError (Option Record)
  polls : List (Option Str)
  beginTime : DateTime
  endTime : DateTime

-- A file that cannot be opened leaves fp unbound in finally.
def loadTestCase (w : World) : Except PyError Json :=
  match w.caseFile with
  | none => .ok .null
  | some (.error _) => .error (.unboundLocalError "fp".toList)
  | some (.ok text) => Json.loads text

-- int(j). Floats, and text that is not ASCII, are left to a parameter.
def toInt (otherInt : Json → Except PyError Int) : Json → Except PyError Int
  | .int n => .ok n
  | .bool b => .ok (if b then 1 else 0)
  | .str s => if s.all (·.toNat < 128) then int10 s else otherInt (.str s)
  | .float literal => otherInt (.float literal)
  | _ => .error .typeError

def int (w : World) : Json → Except PyError Int := toInt w.otherInt

structure Settings where
  target : Int
  checker : Json
  caseName : Json

def textOr (w : World) (case : Json) (key default : Str) : Except PyError Str := do
  if ← case.hasKey key then
    let value ← case.getItem key
    w.str value
  else return default

def valueOr (case : Json) (key : Str) (default : Json) : Except PyError Json := do
  if ← case.hasKey key then case.getItem key else return default

-- main up to logging.basicConfig.
def readSettings (w : World) (case : Json) : Except PyError Settings := do
  let apiServer ← textOr w case "api_server".toList "127.0.0.1:8080".toList
  let podNamespace ← textOr w case "namespace".toList "default".toList
  w.setenv "api_server".toList apiServer
  w.setenv "namespace".toList podNamespace
  let exitCondition ← valueOr case "exit_condition".toList (.int 0)
  let target ← int w exitCondition
  let checker ← valueOr case "checker".toList .null
  let logPath ← valueOr case "log_path".toList (.str ".".toList)
  let logName ← valueOr case "log_name".toList (.str "case".toList)
  let caseName ← valueOr case "case_name".toList (.str "TESTCASE".toList)
  w.openLog logPath logName
  return { target, checker, caseName }

def startCommand (case : Json) : Except PyError Json := do
  if ← case.hasKey "start_command".toList then
    let command ← case.getItem "start_command".toList
    if command.truthy then return command else throw (.systemExit 1)
  else throw (.systemExit 1)

def loadOutput (output : Str) : Json :=
  if output = [] then .null
  else
    match Json.loads output with
    | .ok result => result
    | .error _ => .null

def readTarget (w : World) (result : Json) (target : Int) : Except PyError Int := do
  if result.truthy then
    if ← result.hasKey "target".toList then
      let value ← result.getItem "target".toList
      int w value
    else return target
  else return target

-- main from the START line to processEvents: the target that it passes on.
def startCase (w : World) (case : Json) (target : Int) : Except PyError Int := do
  let command ← startCommand case
  let output ← execCommandWithCheck w.popen command
  readTarget w (loadOutput output) target

-- eval(checker)
def checkerOf (w : World) (checker : Json) : Str → DateTime → Except PyError (Option Record) :=
  if isStr checker "checkCreationEvent".toList then checkCreationEvent
  else if isStr checker "checkDeletionEvent".toList then checkDeletionEvent
  else w.otherChecker checker

section Loop

variable (check : Str → Except PyError (Option Record))

-- The loop of processEvents for any checker, at its begin time.
def pollWith : Int → DateTime → List (Option Str) → Progress
  | target, endTime, [] => .waiting target endTime
  | target, endTime, none :: rest => pollWith target endTime rest
  | target, endTime, some event :: rest =>
      match check event with
      | .error e => .raised e
      | .ok record =>
          if (count record target endTime).1 = 0 then .returned (some (count record target endTime).2) rest
          else if (count record target endTime).1 < 0 then
            .raised (.exception "Invalid target condition".toList)
          else pollWith (count record target endTime).1 (count record target endTime).2 rest

def processWith (target : Int) (polls : List (Option Str)) : Progress :=
  if target ≤ 0 then .returned none polls else pollWith check target DateTime.min polls

end Loop

-- The try block after the START line, with the value of end_time that it leaves: none
-- while the name is not bound. There is no result yet when processEvents still waits.
def measureCase (w : World) (case : Json) (s : Settings) :
    Option (Outcome PyError (Option (Option DateTime))) :=
  match startCase w case s.target with
  | .error e => some (.raise e none)
  | .ok target =>
      if s.checker.truthy then
        match processWith (fun event => checkerOf w s.checker event w.beginTime) target w.polls with
        | .waiting _ _ => none
        | .raised e => some (.raise e none)
        | .returned endTime _ => some (.done (some endTime))
      else some (.done none)

def stopLine (w : World) (s : Settings) (endTime : DateTime) : Except PyError Action := do
  w.beginTime.strftime
  endTime.strftime
  return .stop s.caseName w.beginTime endTime

def clearCommand (case : Json) : Except PyError (Option Json) := do
  if ← case.hasKey "clear_command".toList then
    let command ← case.getItem "clear_command".toList
    return if command.truthy then some command else none
  else return none

-- The finally block. What it raises replaces what the try block has raised. A clear
-- command whose call raises has not been run.
def close (w : World) (case : Json) (s : Settings) (actions : List Action)
    (body : Outcome PyError (Option (Option DateTime))) : Outcome PyError (List Action) :=
  match body.state with
  | none => .raise (.unboundLocalError "end_time".toList) actions
  | some endTime =>
      match stopLine w s (endTime.getD w.endTime) with
      | .error e => .raise e actions
      | .ok line =>
          match clearCommand case with
          | .error e => .raise e (actions ++ [line])
          | .ok none => ⟨actions ++ [line], body.raised⟩
          | .ok (some command) =>
              match w.call command with
              | .error e => .raise e (actions ++ [line])
              | .ok _ => ⟨actions ++ [line, .clear command], body.raised⟩

-- What a run has done when it ends, and what it raises.
def main (w : World) : Option (Outcome PyError (List Action)) :=
  match loadTestCase w with
  | .error e => some (.raise e [])
  | .ok case =>
      if case.truthy then
        match readSettings w case with
        | .error e => some (.raise e [])
        | .ok s =>
            match w.beginTime.strftime with
            | .error e => some (close w case s [] (.raise e none))
            | .ok _ => (measureCase w case s).map (close w case s [.start s.caseName w.beginTime])
      else some (.raise (.systemExit 1) [])

end MesosPoc.Performance
