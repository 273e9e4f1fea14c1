import MesosPoc.Outcome
import MesosPoc.Python
import Mathlib.Data.List.AList

namespace MesosPoc.KeepAlive

-- An HTTPConnection object, by its place among those created so far.
abbrev Connection := Nat

-- What indexing a dictionary and list.remove raise.
inductive Fault
  | keyError
  | valueError
deriving DecidableEq

structure ConnectionManager where
  hostmap : AList fun _ : Str => List Connection
  connmap : AList fun _ : Connection => Str
  readymap : AList fun _ : Connection => Bool
deriving DecidableEq

namespace ConnectionManager

def empty : ConnectionManager := ⟨∅, ∅, ∅⟩

-- get_all of one host
def connections (cm : ConnectionManager) (host : Str) : List Connection :=
  (cm.hostmap.lookup host).getD []

def openConnections (cm : ConnectionManager) : List (Str × Nat) :=
  cm.hostmap.entries.map fun entry => (entry.1, entry.2.length)

def add (host : Str) (c : Connection) (ready : Bool) (cm : ConnectionManager) : ConnectionManager where
  hostmap := cm.hostmap.insert host (cm.connections host ++ [c])
  connmap := cm.connmap.insert c host
  readymap := cm.readymap.insert c ready

-- A host without a connection has no entry.
def setConnections (host : Str) (rest : List Connection) (cm : ConnectionManager) : ConnectionManager :=
  { cm with hostmap := if rest = [] then cm.hostmap.erase host else cm.hostmap.insert host rest }

def remove (c : Connection) (cm : ConnectionManager) : Outcome Fault ConnectionManager :=
  match cm.connmap.lookup c with
  | none => .done cm
  | some host =>
      let unmapped := { cm with connmap := cm.connmap.erase c }
      match cm.readymap.lookup c with
      | none => .raise .keyError unmapped
      | some _ =>
          let unready := { unmapped with readymap := cm.readymap.erase c }
          match cm.hostmap.lookup host with
          | none => .raise .keyError unready
          | some list =>
              if c ∈ list then .done (unready.setConnections host (list.erase c))
              else .raise .valueError unready

-- An assignment to a key that is not there creates it.
def setReady (c : Connection) (ready : Bool) (cm : ConnectionManager) : ConnectionManager :=
  { cm with readymap := cm.readymap.insert c ready }

def firstReady (readymap : AList fun _ : Connection => Bool) :
    List Connection → Except Fault (Option Connection)
  | [] => .ok none
  | c :: rest =>
      match readymap.lookup c with
      | none => .error .keyError
      | some true => .ok (some c)
      | some false => firstReady readymap rest

def getReadyConn (host : Str) (cm : ConnectionManager) :
    Except Fault (Option Connection × ConnectionManager) :=
  match cm.hostmap.lookup host with
  | none => .ok (none, cm)
  | some list =>
      match firstReady cm.readymap list with
      | .error e => .error e
      | .ok none => .ok (none, cm)
      | .ok (some c) => .ok (some c, cm.setReady c false)

-- The three dictionaries speak of the same connections.
structure Consistent (cm : ConnectionManager) : Prop where
  mapped : ∀ host c, c ∈ cm.connections host ↔ cm.connmap.lookup c = some host
  nodup : ∀ host, (cm.connections host).Nodup
  nonempty : ∀ host, cm.hostmap.lookup host ≠ some []
  ready : ∀ c host, cm.connmap.lookup c = some host → c ∈ cm.readymap

end ConnectionManager

end MesosPoc.KeepAlive
