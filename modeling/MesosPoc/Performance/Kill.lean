import MesosPoc.ForEach
import MesosPoc.Performance.Case
import MesosPoc.Replace
import Mathlib.Data.List.Dedup

namespace MesosPoc.Performance

open Python Outcome

-- What one iteration of a kill loop meets: the number that randint draws, the answer
-- to the query for the pods of a node, and the command that is run.
structure Turn where
  randint : Int → Int → Int
  between : ∀ low high, low ≤ high → low ≤ randint low high ∧ randint low high ≤ high
  urlopen : Str → Except PyError Str
  popen : Str → Except PyError Process

-- random.randint(low, high)
def Turn.draw (turn : Turn) (low high : Int) : Except PyError Int :=
  if low ≤ high then .ok (turn.randint low high) else .error .valueError

-- names.pop(index)
def pop (names : List Str) (index : Int) : Except PyError (Str × List Str) :=
  let position := if index < 0 then index + names.length else index
  if 0 ≤ position then
    match names[position.toNat]? with
    | some name => .ok (name, names.eraseIdx position.toNat)
    | none => .error .indexError
  else .error .indexError

-- A command that was started, with what its loop had asked for before.
structure Kill (α : Type) where
  name : Str
  asked : α
  command : Str
  process : Process

-- The list that a loop draws from, the arguments of its calls of randint and pop, the
-- commands that were started and what is reported as killed.
structure Kills (α ρ : Type) where
  names : List Str
  ranges : List (Int × Int)
  indices : List (Int × Nat)
  issued : List (Kill α)
  killed : List ρ

def Kills.start {α ρ : Type} (names : List Str) : Kills α ρ where
  names
  ranges := []
  indices := []
  issued := []
  killed := []

-- killCommand + " " + name. The command is a unicode string, so that the name has to
-- be ASCII.
def killLine (killCommand : Json) (name : Str) : Except PyError Str :=
  match killCommand with
  | .str command =>
      if name.all (·.toNat < 128) then .ok (command ++ [' '] ++ name) else .error .valueError
  | _ => .error .typeError

section Loop

variable {α ρ : Type} (killCommand : Json) (ask : Turn → Str → Except PyError α)
  (report : Str → α → Except PyError ρ)

-- The rest of an iteration after pop.
def killName (s : Kills α ρ) (turn : Turn) (name : Str) : Outcome PyError (Kills α ρ) :=
  match ask turn name with
  | .error e => .raise e s
  | .ok asked =>
      match killLine killCommand name with
      | .error e => .raise e s
      | .ok command =>
          let started := (turn.popen command).toOption.toList.map (Kill.mk name asked command)
          let s := { s with issued := s.issued ++ started }
          match execCommandWithCheck turn.popen command with
          | .error e => .raise e s
          | .ok _ =>
              match report name asked with
              | .error e => .raise e s
              | .ok entry => .done { s with killed := s.killed ++ [entry] }

-- One iteration of either loop: what it asks for before the command, and what it
-- reports after it.
def killOne (s : Kills α ρ) (turn : Turn) : Outcome PyError (Kills α ρ) :=
  let high : Int := s.names.length - 1
  let s := { s with ranges := s.ranges ++ [(0, high)] }
  match turn.draw 0 high with
  | .error e => .raise e s
  | .ok index =>
      let s := { s with indices := s.indices ++ [(index, s.names.length)] }
      match pop s.names index with
      | .error e => .raise e s
      | .ok (name, rest) => killName killCommand ask report { s with names := rest } turn name

end Loop

-- for index in range(0, count)
def killLoop {α ρ : Type} (config : Json) (ask : Turn → Str → Except PyError α)
    (report : Str → α → Except PyError ρ) (names : List Str) (count : Int) (turns : Nat → Turn) :
    Outcome PyError (Kills α ρ) :=
  match config.getItem "kill_command".toList with
  | .error e => .raise e (.start names)
  | .ok killCommand =>
      forEach (killOne killCommand ask report) (.start names) ((List.range count.toNat).map turns)

-- The text that format puts in for a value.
variable (format : Json → Except PyError Str)

def queryUrl (config : Json) (nodeName : Str) : Except PyError Str := do
  let apiServer ← config.getItem "api_server".toList
  let podNamespace ← config.getItem "namespace".toList
  let apiServer ← format apiServer
  let podNamespace ← format podNamespace
  return "http://".toList ++ apiServer ++ "/api/v1/namespaces/".toList ++ podNamespace ++
    "/pods?fieldSelector=spec.nodeName%3D".toList ++ nodeName

-- None is the null of JSON.
def podsOf (output : Str) : Except PyError Json := do
  let result := loadOutput output
  if result.truthy then
    if ← result.hasKey "items".toList then result.getItem "items".toList else return .null
  else return .null

def getNodePods (config : Json) (turn : Turn) (nodeName : Str) : Except PyError Json := do
  let url ← queryUrl format config nodeName
  let output ← turn.urlopen url
  podsOf output

-- A byte that starts a character of UTF-8.
def startsCharacter (c : Char) : Bool :=
  c.toNat < 0x80 ∨ 0xC0 ≤ c.toNat

-- len(j)
def len : Json → Except PyError Nat
  | .arr items => .ok items.length
  | .obj pairs => .ok (pairs.map Prod.fst).dedup.length
  | .str value => .ok (value.countP startsCharacter)
  | _ => .error .typeError

def nodeEntry (nodeName : Str) (pods : Json) : Except PyError (Str × Nat) := do
  let count ← len pods
  return (nodeName, count)

-- killNodes returns its list when it raises nothing.
def killNodes (config : Json) (nodes : List Str) (count : Int) (turns : Nat → Turn) :
    Outcome PyError (Kills Json (Str × Nat)) :=
  killLoop config (getNodePods format config) nodeEntry nodes count turns

-- The lines of a byte string.
def linesFrom : Str → Str → List Str
  | [], [] => []
  | line, [] => [line]
  | line, '\r' :: '\n' :: rest => line :: linesFrom [] rest
  | line, c :: rest =>
      if c = '\n' ∨ c = '\r' then line :: linesFrom [] rest else linesFrom (line ++ [c]) rest

def splitlines (s : Str) : List Str :=
  linesFrom [] s

-- What a run of either script depends on.
structure KillWorld where
  configFile : Option (Except PyError Str)
  format : Json → Except PyError Str
  otherInt : Json → Except PyError Int
  popen : Json → Except PyError Process
  turns : Nat → Turn

-- What a run of either script has done: the names that it goes on with once its gather
-- command has ended, its kills, the clear command and the lines that it prints.
structure ToolRun (α ρ : Type) where
  gathered : Option (List Str)
  kills : Option (Kills α ρ)
  cleared : Option Str
  printed : List Str

def ToolRun.start {α ρ : Type} : ToolRun α ρ := ⟨none, none, none, []⟩

-- The case definition that killnode.py prints.
def definition (node : Str) (target : Nat) : Str :=
  "\x7b\"node\":\"".toList ++ node ++ "\",\"target\":".toList ++ (Nat.repr target).toList ++
    "\x7d".toList

def podCount (w : KillWorld) (config : Json) : Except PyError Int := do
  let count ← config.getItem "pod_count".toList
  toInt w.otherInt count

end MesosPoc.Performance
