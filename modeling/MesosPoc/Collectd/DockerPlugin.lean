import MesosPoc.Json
import MesosPoc.Machine
import Mathlib.Data.List.AList

namespace MesosPoc.Collectd

-- A container of client.containers(), with what read_callback reads of it.
structure Container where
  id : Str
  names : List Str
  status : Str
deriving DecidableEq

-- c['Status'].startswith('Up')
def Container.isUp (c : Container) : Bool :=
  "Up".toList.isPrefixOf c.status

-- re.match("/.*/", name), where the dot is no line end
def isLinked : Str → Bool
  | '/' :: rest => '/' ∈ rest.takeWhile (· ≠ '\n')
  | _ => false

-- container['Name'] after the loop over the names, none when it is not set
def Container.name (c : Container) : Option Str :=
  c.names.foldl (fun name entry => if isLinked entry then name else some (entry.drop 1)) none

-- Where the run method of a thread stands: before its first line, at the test of its
-- loop, in a request to the daemon, at its end.
inductive Position
  | starting
  | testing
  | reading
  | ended
deriving DecidableEq

structure ContainerStats where
  container : Container
  stop : Bool
  feed : Bool
  stats : Option Json
  failures : Nat
  position : Position

namespace ContainerStats

def init (container : Container) : ContainerStats where
  container := container
  stop := false
  feed := false
  stats := none
  failures := 0
  position := .starting

-- The first line of run, which raises KeyError for a container without a name, or the
-- test of the loop.
def proceed (thread : ContainerStats) : Option ContainerStats :=
  match thread.position with
  | .starting => some { thread with position := if thread.container.name.isSome then .testing else .ended }
  | .testing => some { thread with position := if thread.stop then .ended else .reading }
  | _ => none

-- The request has been answered with a reading, or it has raised an exception.
def answer (reading : Option Json) (thread : ContainerStats) : Option ContainerStats :=
  match thread.position, reading with
  | .reading, some value =>
      some { thread with feed := true, stats := some value, failures := 0, position := .testing }
  | .reading, none =>
      let failures := thread.failures + 1
      some
        { thread with
          feed := false
          failures := failures
          stop := thread.stop || failures > 3
          position := .testing }
  | _, _ => none

-- The loop of the stats property is left.
def available (thread : ContainerStats) : Bool :=
  thread.stats.any Json.truthy

end ContainerStats

-- Where read_callback stands: not called, stopping the threads of containers that are
-- gone and then in its loop over the containers, waiting for the stats of one, about to
-- take them.
inductive Callback
  | idle
  | listed (gone : List Str) (containers : List Container)
  | waiting (container : Container) (rest : List Container)
  | taking (container : Container) (rest : List Container)

-- threads has every thread ever started, stats their places by container id. served has
-- the stats that read_callback has gone on with, in order.
structure DockerPlugin where
  stats : AList fun _ : Str => Nat
  threads : List ContainerStats
  callback : Callback
  served : List (Str × Json)

-- The steps of read_callback and of the threads. call is read_callback with the answer
-- of client.containers(); a call for which it raises changes nothing.
inductive Label
  | call (containers : List Container)
  | discard (cid : Str)
  | visit
  | see
  | take
  | proceed (thread : Nat)
  | answer (thread : Nat) (reading : Option Json)

def running (containers : List Container) : List Container :=
  containers.filter Container.isUp

def ids (containers : List Container) : List Str :=
  containers.map Container.id

namespace DockerPlugin

def init : DockerPlugin := ⟨∅, [], .idle, []⟩

def setThread (thread : Nat) (value : ContainerStats) (s : DockerPlugin) : DockerPlugin :=
  { s with threads := s.threads.set thread value }

-- self.stats[cid]
def gatherer (s : DockerPlugin) (cid : Str) : Option ContainerStats :=
  (s.stats.lookup cid).bind fun thread => s.threads[thread]?

def stopThread (cid : Str) (s : DockerPlugin) : DockerPlugin :=
  match s.stats.lookup cid with
  | some thread => { s with threads := s.threads.modify thread fun value => { value with stop := true } }
  | none => s

def addThread (c : Container) (s : DockerPlugin) : DockerPlugin :=
  if c.id ∈ s.stats then s
  else
    { s with
      stats := s.stats.insert c.id s.threads.length
      threads := s.threads ++ [.init c] }

def step (s : DockerPlugin) : Label → Option DockerPlugin
  | .call containers =>
      match s.callback with
      | .idle =>
          let up := running containers
          some { s with callback := .listed (s.stats.keys.filter fun cid => !(ids up).contains cid) up }
      | _ => none
  | .discard cid =>
      -- a set has no order
      match s.callback with
      | .listed gone containers =>
          if gone.contains cid then
            some
              { s.stopThread cid with
                stats := s.stats.erase cid
                callback := .listed (gone.erase cid) containers }
          else none
      | _ => none
  | .visit =>
      match s.callback with
      | .listed [] [] => some { s with callback := .idle }
      | .listed [] (c :: rest) => some { s.addThread c with callback := .waiting c rest }
      | _ => none
  | .see =>
      match s.callback with
      | .waiting c rest =>
          if (s.gatherer c.id).any ContainerStats.available then some { s with callback := .taking c rest }
          else none
      | _ => none
  | .take =>
      match s.callback with
      | .taking c rest =>
          match (s.gatherer c.id).bind ContainerStats.stats with
          | some value =>
              -- without a name the classes raise KeyError, and so does the handler
              if c.name.isSome then
                some { s with callback := .listed [] rest, served := s.served ++ [(c.id, value)] }
              else some { s with callback := .idle }
          | none => none
      | _ => none
  | .proceed thread => (s.threads[thread]?.bind ContainerStats.proceed).map (s.setThread thread)
  | .answer thread reading =>
      (s.threads[thread]?.bind (ContainerStats.answer reading)).map (s.setThread thread)

end DockerPlugin

end MesosPoc.Collectd
