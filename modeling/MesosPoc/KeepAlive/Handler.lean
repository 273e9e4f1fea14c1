import MesosPoc.KeepAlive
import MesosPoc.Machine

namespace MesosPoc.KeepAlive

-- An HTTPResponse that do_open has returned. reading says that fp is not None.
structure Response where
  host : Str
  connection : Connection
  willClose : Bool
  reading : Bool
deriving DecidableEq

-- What became of a transaction on a connection that was used before. A response of
-- version 9 counts as a bad connection.
inductive Attempt
  | answer (willClose : Bool)
  | bad
  | unexpected
deriving DecidableEq

-- Where a call of do_open stands.
inductive Phase
  | asking (host : Str)
  | trying (host : Str) (h : Connection)
  | bad (host : Str) (h : Connection)
  | closed (host : Str) (h : Connection)
  | aborting (h : Connection)
  | aborted (h : Connection)
  | creating (host : Str)
  | starting (host : Str) (h : Connection)
  | answered (host : Str) (h : Connection) (willClose reading : Bool)
  | returned
  | failed (created : Option Connection)
deriving DecidableEq

-- A handler that several threads use. connections holds the host of every connection
-- object made so far.
structure Handler where
  cm : ConnectionManager
  connections : List Str
  calls : List Phase
  responses : List Response
deriving DecidableEq

-- The steps of the threads: those of the calls of do_open, the end of a response
-- (_request_closed), and the two halves of closing a connection, which
-- close_connection and close_all take one after the other, in either order.
inductive Label
  | request (host : Str)
  | ask (call : Nat)
  | reuse (call : Nat) (attempt : Attempt)
  | create (call : Nat)
  | start (call : Nat) (answer : Option Bool)
  | proceed (call : Nat)
  | finish (response : Nat)
  | remove (c : Connection)
  | close (c : Connection)
deriving DecidableEq

-- An HTTPConnection that is closed closes the response that is read from it. httplib
-- gives a response that will close the connection the socket instead.
def Response.readFrom (c : Connection) (r : Response) : Bool :=
  r.connection = c && !r.willClose && r.reading

def Response.closedBy (c : Connection) (r : Response) : Response :=
  if r.readFrom c then { r with reading := false } else r

def Phase.closedBy (c : Connection) : Phase → Phase
  | .answered host h false reading => .answered host h false (reading && h != c)
  | phase => phase

-- The connection that a call or a response is using.

def Phase.held : Phase → Option Connection
  | .trying _ h => some h
  | .bad _ h => some h
  | .closed _ h => some h
  | .aborting h => some h
  | .aborted h => some h
  | .starting _ h => some h
  | .answered _ h _ _ => some h
  | _ => none

def Response.held (r : Response) : Option Connection :=
  if r.reading then some r.connection else none

namespace Handler

def empty : Handler := ⟨.empty, [], [], []⟩

def setCall (call : Nat) (phase : Phase) (s : Handler) : Handler :=
  { s with calls := s.calls.set call phase }

-- A response that is closed makes its connection ready, also one that was removed.
def requestClosed (c : Connection) (s : Handler) : Handler :=
  { s with cm := s.cm.setReady c true }

-- A response that do_open has not returned yet has no handler to tell.
def closeConnection (c : Connection) (s : Handler) : Handler :=
  let told := if s.responses.any (Response.readFrom c) then s.requestClosed c else s
  { told with
    calls := s.calls.map (Phase.closedBy c)
    responses := s.responses.map (Response.closedBy c) }

def removeConnection (c : Connection) (s : Handler) : Handler :=
  { s with cm := (s.cm.remove c).state }

-- _get_connection and add
def addConnection (host : Str) (s : Handler) : Handler :=
  { s with
    connections := s.connections ++ [host]
    cm := s.cm.add host s.connections.length false }

def respond (r : Response) (s : Handler) : Handler :=
  { s with responses := s.responses ++ [r] }

def endResponse (response : Nat) (r : Response) (s : Handler) : Handler :=
  { s with responses := s.responses.set response { r with reading := false } }

def step (s : Handler) : Label → Option Handler
  | .request host =>
      -- no host given
      some { s with calls := s.calls ++ [if host = [] then .failed none else .asking host] }
  | .ask call =>
      match s.calls[call]? with
      | some (.asking host) =>
          match s.cm.getReadyConn host with
          | .error _ => some (s.setCall call (.failed none))
          | .ok (none, _) => some (s.setCall call (.creating host))
          | .ok (some h, cm) => some ({ s with cm := cm }.setCall call (.trying host h))
      | _ => none
  | .reuse call attempt =>
      match s.calls[call]? with
      | some (.trying host h) =>
          match attempt with
          | .answer willClose => some (s.setCall call (.answered host h willClose true))
          | .bad => some (s.setCall call (.bad host h))
          | .unexpected => some (s.setCall call (.aborting h))
      | _ => none
  | .create call =>
      match s.calls[call]? with
      | some (.creating host) =>
          some ((s.addConnection host).setCall call (.starting host s.connections.length))
      | _ => none
  | .start call answer =>
      match s.calls[call]? with
      | some (.starting host h) =>
          match answer with
          | some willClose => some (s.setCall call (.answered host h willClose true))
          | none => some (s.setCall call (.failed (some h)))
      | _ => none
  | .proceed call =>
      match s.calls[call]? with
      | some (.bad host h) => some ((s.closeConnection h).setCall call (.closed host h))
      | some (.closed host h) => some ((s.removeConnection h).setCall call (.asking host))
      | some (.aborting h) => some ((s.removeConnection h).setCall call (.aborted h))
      | some (.aborted h) => some ((s.closeConnection h).setCall call (.failed none))
      | some (.answered host h willClose reading) =>
          let kept := if willClose then s.removeConnection h else s
          some ((kept.respond ⟨host, h, willClose, reading⟩).setCall call .returned)
      | _ => none
  | .finish response =>
      match s.responses[response]? with
      | some r =>
          if r.reading then some ((s.endResponse response r).requestClosed r.connection) else some s
      | none => none
  | .remove c => some (s.removeConnection c)
  | .close c => some (s.closeConnection c)

def uses (s : Handler) (c : Connection) : Nat :=
  s.calls.countP (fun phase => phase.held = some c) + s.responses.countP fun r => r.held = some c

end Handler

end MesosPoc.KeepAlive
