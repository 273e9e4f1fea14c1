import MesosPoc.Booting.Delivery
import MesosPoc.Broker
import MesosPoc.Machine

namespace MesosPoc.Booting

-- A message of the queue, with its place among those published.
structure Message where
  number : Nat
  body : Str
deriving DecidableEq

-- A process of main.py in receive mode, with the delivery tags of its acknowledgements
-- that are on their way to the broker and the deliveries that its callback has not handled.
structure Worker where
  alive : Bool
  connected : Bool
  acking : List Nat
  inbox : List (Nat × Message)

-- The broker, the processes and what has happened. handled has a message once for each
-- time on_message came to its end for it, acked and lost once for each acknowledgement of
-- it that has arrived, or that its connection was closed on.
structure WorkQueue (β : Type) where
  broker : β
  published : List Message
  workers : List Worker
  acked : List Message
  handled : List Message
  lost : List Message

-- handle is a callback of _on_message, with what the play of its host does. A process can
-- die and a connection be closed at any time.
inductive Event
  | publish (body : Str)
  | start
  | deliver (worker : Nat)
  | handle (worker : Nat) (play : List Str → Except PyError Unit)
  | confirm (worker tag : Nat)
  | die (worker : Nat)
  | close (worker : Nat)

-- The basic_ack calls among what a callback has done.
def acknowledgements (done : List Handled) : List Nat :=
  done.filterMap fun
    | .acknowledged tag => some tag
    | .played _ => none

namespace Worker

def start : Worker := ⟨true, true, [], []⟩

def send (tags : List Nat) (k : Worker) : Worker :=
  if k.connected then { k with acking := k.acking ++ tags } else k

-- On a closed connection nothing is sent.
def unsent (tags : List Nat) (message : Message) (k : Worker) : List Message :=
  if k.connected then [] else tags.map fun _ => message

-- The messages whose acknowledgement is on its way.
def sent (unacked : List (Nat × Message)) (k : Worker) : List Message :=
  (unacked.filter fun entry => k.acking.contains entry.1).map Prod.snd

end Worker

namespace WorkQueue

variable {β : Type}

-- basic_qos(prefetch_count=10)
def prefetchCount : Nat := 10

def setWorker (w : Nat) (k : Worker) (s : WorkQueue β) : WorkQueue β :=
  { s with workers := s.workers.set w k }

def live (s : WorkQueue β) (w : Nat) : Option Worker :=
  s.workers[w]?.filter Worker.alive

def linked (s : WorkQueue β) (w : Nat) : Option Worker :=
  s.workers[w]?.filter Worker.connected

section Steps

variable (broker : Broker Message β)

def init : WorkQueue β := ⟨broker.empty, [], [], [], [], []⟩

def step (s : WorkQueue β) : Event → Option (WorkQueue β)
  | .publish body =>
      let message : Message := ⟨s.published.length, body⟩
      some { s with broker := broker.publish message s.broker, published := s.published ++ [message] }
  | .start => some { s with workers := s.workers ++ [.start] }
  | .deliver w =>
      match s.linked w with
      | some k =>
          match broker.deliver prefetchCount w s.broker with
          | some (tag, message, next) =>
              some ({ s with broker := next }.setWorker w { k with inbox := k.inbox ++ [(tag, message)] })
          | none => none
      | none => none
  | .handle w play =>
      match s.live w with
      | some k =>
          match k.inbox with
          | (tag, message) :: rest =>
              let result := Receiver.onMessage (bound play) ⟨tag, message.body⟩ []
              let tags := acknowledgements result.state
              let lost := s.lost ++ k.unsent tags message
              match result.raised with
              | some _ => some ({ s with lost := lost }.setWorker w { k.send tags with alive := false })
              | none =>
                  some ({ s with handled := s.handled ++ [message], lost := lost }.setWorker w
                    { k.send tags with inbox := rest })
          | [] => none
      | none => none
  | .confirm w tag =>
      match s.linked w with
      | some k =>
          if k.acking.contains tag then
            match (broker.unacked s.broker w).lookup tag with
            | some message =>
                some ({ s with broker := broker.acknowledge w tag s.broker, acked := s.acked ++ [message] }.setWorker w
                  { k with acking := k.acking.erase tag })
            | none => none
          else none
      | none => none
  | .die w => (s.live w).map fun k => s.setWorker w { k with alive := false }
  | .close w =>
      match s.linked w with
      | some k =>
          let lost := s.lost ++ k.sent (broker.unacked s.broker w)
          some ({ s with broker := broker.close w s.broker, lost := lost }.setWorker w
            { k with connected := false, acking := [] })
      | none => none

end Steps

end WorkQueue

end MesosPoc.Booting
