import MesosPoc.Booting.Client

namespace MesosPoc.Booting

-- The attributes of a Receiver and of its ioloop. The counters closeCalls (of
-- the present channel), closedThroughNone and consumesAfterStop only record
-- what the methods did.
structure Receiver where
  client : Client
  closing : Bool
  consumerTag : Bool
  consuming : Bool
  reconnectTimers : Nat
  running : Bool
  crashed : Option PyError
  closeCalls : Nat
  closedThroughNone : Bool
  consumesAfterStop : Nat
deriving DecidableEq

namespace Receiver

abbrev Result := Outcome PyError Receiver

def onClient (method : Client → Outcome PyError Client) (r : Receiver) : Result :=
  (method r.client).within fun c => { r with client := c }

-- The names that _on_connection_closed can see: its parameters and what Queue.py
-- defines. None of the names it uses is a builtin.
def connectionClosedScope : List Str :=
  ["self".toList, "connection".toList, "reply_code".toList, "reply_text".toList,
    "logging".toList, "pika".toList, "json".toList, "time".toList, "LOGGER".toList,
    "__version__".toList, "__all__".toList, "Receiver".toList, "Publisher".toList]

-- Evaluates a name. The value is not needed.
def name (scope : List Str) (n : Str) (r : Receiver) : Result :=
  if n ∈ scope then .done r else .raise (.nameError n) r

section Methods

-- Whether basic_cancel of pika sends nothing for a tag that has no consumer
-- (versions differ in this).
variable (ignoresUnknownTag : Bool) (settings : Settings)

def run (r : Receiver) : Result :=
  .done { r with
    client := r.client.connect
    consuming := false
    reconnectTimers := 0
    running := true
    closeCalls := 0 }

def onConnectionOpen : Receiver → Result :=
  onClient Client.onConnectionOpen

def onChannelOpen : Receiver → Result :=
  onClient (Client.onChannelOpen settings)

def onExchangeDeclare : Receiver → Result :=
  onClient (Client.onExchangeDeclare settings)

def onQueueDeclare : Receiver → Result :=
  onClient (Client.onQueueDeclare settings)

-- add_on_cancel_callback and basic_consume.
def startConsuming (r : Receiver) : Result :=
  if r.client.held then
    let issued := { r with consumesAfterStop := r.consumesAfterStop + r.closing.toNat }
    if r.client.channel = .opened then .done { issued with consumerTag := true, consuming := true }
    else .raise .channelClosed issued
  else .raise .attributeError r

def onBind : Receiver → Result :=
  startConsuming

def onConnectionClosed (r : Receiver) : Result :=
  let lost := { r with client := r.client.release }
  if lost.closing then .done { lost with running := false }
  else
    (((name connectionClosedScope "LOGGER".toList lost).andThen
      (name connectionClosedScope "eply_code".toList)).andThen
      (name connectionClosedScope "reply_text".toList)).andThen fun warned =>
        (name connectionClosedScope "self_retry_interval".toList warned).andThen fun r =>
          .done { r with reconnectTimers := r.reconnectTimers + 1 }

def reconnect (r : Receiver) : Result :=
  let stopped := { r with running := false }
  if stopped.closing then .done stopped else run stopped

def onChannelClosed (r : Receiver) : Result :=
  .done { r with client := r.client.release.closeConnection }

-- self._channel.close(), counted.
def closeChannel (r : Receiver) : Result :=
  if r.client.held then onClient Client.closeChannel { r with closeCalls := r.closeCalls + 1 }
  else .raise .attributeError { r with closedThroughNone := true }

def onConsumerCancelled (r : Receiver) : Result :=
  if r.client.held then closeChannel r else .done r

def onCancel : Receiver → Result :=
  closeChannel

def unknownTag (r : Receiver) : Bool :=
  !(r.consumerTag && r.consuming)

def stopConsuming (r : Receiver) : Result :=
  if r.client.held then
    if ignoresUnknownTag && r.unknownTag && r.client.channel = .opened then .done r
    else onClient (Client.call .basicCancel) r
  else .done r

def stop (r : Receiver) : Result :=
  (stopConsuming ignoresUnknownTag { r with closing := true }).andThen fun r =>
    .done { r with running := true }

-- The callback of an answered request.
def onReply (request : Request) (r : Receiver) : Result :=
  match request with
  | .connectionOpen => onConnectionOpen r
  | .channelOpen => onChannelOpen settings r
  | .exchangeDeclare _ _ => onExchangeDeclare settings r
  | .queueDeclare _ => onQueueDeclare settings r
  | .queueBind _ _ _ => onBind r
  | .basicCancel => onCancel { r with consuming := false }
  | .channelClose => .done r
  | .connectionClose => .done r

inductive Label
  | reply (request : Request)
  | message (raised : Option PyError)
  | consumerCancelled
  | channelClosed
  | connectionClosed (channelFirst : Bool)
  | reconnect
  | stop
deriving DecidableEq

-- An exception leaves the ioloop and ends the program.
def finish (result : Result) : Receiver :=
  { result.state with crashed := result.raised }

def channelLost (r : Receiver) : Receiver :=
  { r with client := r.client.loseChannel, consuming := false }

def connectionLost (r : Receiver) : Receiver :=
  { r with client := r.client.loseConnection, consuming := false }

-- One callback, when pika may run it. A lost connection takes its channel along,
-- whose own callback may run first.
def callback (r : Receiver) : Label → Option Result
  | .reply request =>
      (r.client.answer request).map fun c => onReply settings request { r with client := c }
  | .message raised => if r.consuming then some ⟨r, raised⟩ else none
  | .consumerCancelled =>
      if r.consuming then some (onConsumerCancelled { r with consuming := false }) else none
  | .channelClosed => if r.client.alive then some (onChannelClosed r.channelLost) else none
  | .connectionClosed channelFirst =>
      if r.client.connection = .closed then none
      else if channelFirst && r.client.alive then
        some ((onChannelClosed r.connectionLost).andThen onConnectionClosed)
      else some (onConnectionClosed r.connectionLost)
  | .reconnect =>
      if 0 < r.reconnectTimers then
        some (reconnect { r with reconnectTimers := r.reconnectTimers - 1 })
      else none
  | .stop => if r.closing then none else some (stop ignoresUnknownTag r)

def step (r : Receiver) (label : Label) : Option Receiver :=
  if r.running && r.crashed.isNone then (callback ignoresUnknownTag settings r label).map finish
  else none

end Methods

-- A new Receiver whose run() has been called.
def start : Receiver where
  client := { connection := .opening, channel := .closed, requests := [.connectionOpen], held := false }
  closing := false
  consumerTag := false
  consuming := false
  reconnectTimers := 0
  running := true
  crashed := none
  closeCalls := 0
  closedThroughNone := false
  consumesAfterStop := 0

end Receiver

end MesosPoc.Booting
