import MesosPoc.Machine
import MesosPoc.Watch
import MesosPoc.Performance.Case

namespace MesosPoc.Performance

open Watch

-- The thread of watchEvents: it has yet to open its stream, or is in its loop, or is not
-- there any more. The sink of the loop is the queue.
inductive WatchThread
  | opening
  | reading (s : State (List Str))
  | dead (queue : List Str)

def WatchThread.queue : WatchThread → List Str
  | .opening => []
  | .reading s => s.sink
  | .dead queue => queue

-- get_nowait, as far as the queue goes.
def WatchThread.take : WatchThread → WatchThread
  | .opening => .opening
  | .reading s => .reading { s with sink := s.sink.tail }
  | .dead queue => .dead queue.tail

-- The two threads of a run of case.py: the watcher, and the polls that main has made so far.
structure Pipeline where
  watcher : WatchThread
  polls : List (Option Str)

-- The watcher opens its stream or makes one iteration, or main makes one get_nowait.
inductive Move
  | connect
  | read
  | poll

-- Main as far as it gets with these polls.
def mainAfter (w : World) (polls : List (Option Str)) : Option (Outcome PyError (List Action)) :=
  main { w with polls := polls }

-- The formats of {0} are those of str.
def watchUrl (w : World) (case : Json) : Except PyError Str := do
  let apiServer ← case.getItem "api_server".toList
  let podNamespace ← case.getItem "namespace".toList
  let server ← w.str apiServer
  let name ← w.str podNamespace
  return "http://".toList ++ (server ++ ("/api/v1/namespaces/".toList ++ (name ++ "/pods?watch=true".toList)))

-- Whether main comes to thread.start().
def startsWatcher (w : World) : Except PyError Bool := do
  let case ← loadTestCase w
  if case.truthy then
    let s ← readSettings w case
    w.beginTime.strftime
    let _ ← startCommand case
    return s.checker.truthy
  else return false

section Threads

variable (w : World) (urlopen : Str → Except PyError (List Chunk))

-- The first two lines of watchEvents. The response of the API server is chunked.
def openWatch : Except PyError (List Chunk) := do
  let case ← loadTestCase w
  let url ← watchUrl w case
  urlopen url

def takeMove (s : Pipeline) : Move → Option Pipeline
  | .connect =>
      match s.watcher, openWatch w urlopen with
      | .opening, .ok chunks => some { s with watcher := .reading (connect (frames chunks) []) }
      | .opening, .error _ => some { s with watcher := .dead [] }
      | _, _ => none
  | .read =>
      match s.watcher with
      | .reading before =>
          match watchEvents before with
          | .ok after => some { s with watcher := .reading after }
          | .error _ => some { s with watcher := .dead before.sink }
      | _ => none
  | .poll =>
      if (mainAfter w s.polls).isNone then
        some { watcher := s.watcher.take, polls := s.polls ++ [s.watcher.queue.head?] }
      else none

-- Main has just started the watcher, if it does.
def started : Pipeline where
  watcher :=
    match startsWatcher w with
    | .ok true => .opening
    | _ => .dead []
  polls := []

-- What the API server sends to the watcher.
def response : List Chunk :=
  match startsWatcher w, openWatch w urlopen with
  | .ok true, .ok chunks => chunks
  | _, _ => []

end Threads

end MesosPoc.Performance
