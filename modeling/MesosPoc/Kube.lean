import MesosPoc.Performance.Kill

namespace MesosPoc.Kube

open Performance (splitlines)

-- Where a task of the module ends without a result: fail_json, or an exception of
-- run_command that nothing handles.
inductive Failure
  | failed (msg : Str)
  | raised (message : Str)
deriving DecidableEq

-- run_command with the arguments of one call of kubectl: the exit status, the output and
-- the error output, or an exception.
structure Kubectl (σ : Type) where
  run : List Str → σ → Except Str (Int × Str × Str) × σ

-- A part of the module: what it does to the cluster stays when it fails.
def Task (σ α : Type) : Type := σ → Except Failure α × σ

namespace Task

variable {σ α β : Type}

def done (a : α) : Task σ α := fun s => (.ok a, s)

def fail (e : Failure) : Task σ α := fun s => (.error e, s)

def andThen (t : Task σ α) (next : α → Task σ β) : Task σ β := fun s =>
  match t s with
  | (.ok a, after) => next a after
  | (.error e, after) => (.error e, after)

end Task

inductive State
  | present
  | absent
  | latest
  | reloaded
  | stopped
deriving DecidableEq

-- module.params, with the namespace as ns
structure Params where
  name : Option Str
  filename : Option Str
  ns : Option Str
  resource : Option Str
  label : Option Str
  server : Option Str
  config : Option Str
  apiVersion : Str
  force : Bool
  all : Bool
  logLevel : Int
  state : State

-- argument_spec
def defaults : Params where
  name := none
  filename := none
  ns := none
  resource := none
  label := none
  server := none
  config := none
  apiVersion := "v1".toList
  force := false
  all := false
  logLevel := 0
  state := .present

-- The argument, when the option is given and not empty.
def given (option : Option Str) (argument : Str → Str) : List Str :=
  match option with
  | some (c :: rest) => [argument (c :: rest)]
  | _ => []

def flag (set : Bool) (argument : Str) : List Str :=
  if set then [argument] else []

def unwords (args : List Str) : Str :=
  [' '].intercalate args

section Manager

variable {σ : Type} (kubectl : Kubectl σ) (binary : Str) (p : Params)

def baseCmd : List Str :=
  [binary] ++ given (some p.apiVersion) ("--api-version=".toList ++ ·) ++
    given p.server ("--server=".toList ++ ·) ++
    flag (p.logLevel ≠ 0) ("--v=".toList ++ (toString p.logLevel).toList) ++
    given p.ns ("--namespace=".toList ++ ·) ++ given p.config ("--kubeconfig=".toList ++ ·)

def execute (cmd : List Str) : Task σ (List Str) := fun s =>
  let args := baseCmd binary p ++ cmd
  let error := "error running kubectl (".toList ++ (unwords args ++ ") command".toList)
  match kubectl.run args s with
  | (.ok (rc, out, err), after) =>
      if rc ≠ 0 then
        let status := " (rc=".toList ++ ((toString rc).toList ++ "): ".toList)
        (.error (.failed (error ++ (status ++ if out = [] then err else out))), after)
      else (.ok (splitlines out), after)
  | (.error message, after) => (.error (.failed (error ++ (": ".toList ++ message))), after)

def executeNofail (cmd : List Str) : Task σ (Option (List Str)) := fun s =>
  match kubectl.run (baseCmd binary p ++ cmd) s with
  | (.ok (rc, out, _), after) => (.ok (if rc ≠ 0 then none else some (splitlines out)), after)
  | (.error message, after) => (.error (.raised message), after)

-- exists
def resourceExists : Task σ Bool :=
  match given p.resource id with
  | [] => .done false
  | resource =>
      let cmd := ["get".toList] ++ resource ++ given p.name id ++ ["--no-headers".toList] ++
        given p.label ("--selector=".toList ++ ·) ++ flag p.all "--all-namespaces".toList
      (executeNofail kubectl binary p cmd).andThen fun result => .done (result.any (· ≠ []))

-- The commands that read the definition file, and the error without one.
def withFile (verb : List Str) (missing : Str) : Task σ (List Str) :=
  match given p.filename ("--filename=".toList ++ ·) with
  | [] => .fail (.failed missing)
  | filename => execute kubectl binary p (verb ++ filename)

def create (check : Bool) : Task σ (List Str) :=
  (if check then resourceExists kubectl binary p else .done false).andThen fun found =>
    if found then .done []
    else withFile kubectl binary p ["create".toList] "filename required to create".toList

def replace : Task σ (List Str) :=
  (if p.force then .done true else resourceExists kubectl binary p).andThen fun found =>
    if found then
      let verb := if p.apiVersion ≠ "v1".toList then ["update".toList] else ["replace".toList]
      withFile kubectl binary p (verb ++ flag p.force "--force".toList) "filename required to reload".toList
    else .done []

-- delete and stop
def remove (verb missing : Str) : Task σ (List Str) :=
  (if p.force then .done true else resourceExists kubectl binary p).andThen fun found =>
    if found then
      match given p.filename ("--filename=".toList ++ ·) with
      | [] =>
          match given p.resource id with
          | [] => .fail (.failed missing)
          | resource =>
              execute kubectl binary p ([verb] ++ resource ++ given p.name id ++
                given p.label ("--selector=".toList ++ ·) ++ flag p.all "--all".toList ++
                flag p.force "--ignore-not-found".toList)
      | filename => execute kubectl binary p ([verb] ++ filename)
    else .done []

def delete : Task σ (List Str) :=
  remove kubectl binary p "delete".toList "resource required to delete without filename".toList

def stop : Task σ (List Str) :=
  remove kubectl binary p "stop".toList "resource required to stop without filename".toList

def latest : Task σ (List Str) :=
  (resourceExists kubectl binary p).andThen fun found =>
    if found then replace kubectl binary { p with force := true } else create kubectl binary p false

-- Whether the task has changed something, and its message.
def main : Task σ (Bool × Str) :=
  let task :=
    match p.state with
    | .present => create kubectl binary p true
    | .absent => delete kubectl binary p
    | .reloaded => replace kubectl binary p
    | .stopped => stop kubectl binary p
    | .latest => latest kubectl binary p
  task.andThen fun result => .done (decide (result ≠ []), "success: ".toList ++ unwords result)

end Manager

end MesosPoc.Kube
