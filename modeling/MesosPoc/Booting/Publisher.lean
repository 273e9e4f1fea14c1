import MesosPoc.Booting.Client

namespace MesosPoc.Booting

inductive Confirmation
  | ack
  | nack
deriving DecidableEq

-- What the broker knows of the current channel: the number of messages published
-- on it, whose delivery tags count from one, and the tags covered by confirms.
structure Confirms where
  published : Nat
  acks : List Nat
  nacks : List Nat
deriving DecidableEq

namespace Confirms

def empty : Confirms := ⟨0, [], []⟩

def covered (b : Confirms) : List Nat := b.acks ++ b.nacks

def outstanding (b : Confirms) : List Nat :=
  (List.range' 1 b.published).filter fun tag => tag ∉ b.covered

-- The tags that a confirm covers.
def covers (b : Confirms) (tag : Nat) (multiple : Bool) : List Nat :=
  if multiple then b.outstanding.filter (· ≤ tag) else b.outstanding.filter (· = tag)

def cover (b : Confirms) (tags : List Nat) : Confirmation → Confirms
  | .ack => { b with acks := b.acks ++ tags }
  | .nack => { b with nacks := b.nacks ++ tags }

def publish (b : Confirms) : Confirms := { b with published := b.published + 1 }

end Confirms

-- The attributes of a Publisher, the timers of its ioloop, and what the broker
-- knows.
structure Publisher where
  client : Client
  stopping : Bool
  deliveries : List Nat
  acked : Nat
  nacked : Nat
  messageNumber : Nat
  publishTimers : Nat
  retryTimers : Nat
  running : Bool
  crashed : Option PyError
  broker : Confirms
deriving DecidableEq

namespace Publisher

abbrev Result := Outcome PyError Publisher

def onClient (method : Client → Outcome PyError Client) (p : Publisher) : Result :=
  (method p.client).within fun c => { p with client := c }

section Methods

variable (settings : Settings)

-- One turn of the loop of run. The timers of the connection before it are gone.
def run (p : Publisher) : Result :=
  if p.stopping then .done { p with running := false }
  else
    .done { p with
      client := p.client.connect
      deliveries := []
      acked := 0
      nacked := 0
      messageNumber := 0
      publishTimers := 0
      retryTimers := 0
      running := true
      broker := .empty }

def onConnectionOpen : Publisher → Result :=
  onClient Client.onConnectionOpen

def onChannelOpen : Publisher → Result :=
  onClient (Client.onChannelOpen settings)

def onExchangeDeclare : Publisher → Result :=
  onClient (Client.onExchangeDeclare settings)

def onQueueDeclare : Publisher → Result :=
  onClient (Client.onQueueDeclare settings)

-- confirm_delivery of the channel.
def enableDeliveryConfirmations (p : Publisher) : Result :=
  if p.client.held then
    if p.client.channel = .opened then .done p else .raise .channelClosed p
  else .raise .attributeError p

def scheduleNextMessage (p : Publisher) : Result :=
  .done { p with publishTimers := p.publishTimers + 1 }

def startPublishing (p : Publisher) : Result :=
  (enableDeliveryConfirmations p).andThen scheduleNextMessage

def onBind : Publisher → Result :=
  startPublishing

def onDeliveryConfirmation (kind : Confirmation) (tag : Nat) (p : Publisher) : Result :=
  let counted := match kind with
    | .ack => { p with acked := p.acked + 1 }
    | .nack => { p with nacked := p.nacked + 1 }
  if tag ∈ counted.deliveries then
    .done { counted with deliveries := counted.deliveries.erase tag }
  else .raise .valueError counted

def publishMessage (p : Publisher) : Result :=
  if p.client.held = false ∨ p.client.channel ≠ .opened then .done p
  else
    scheduleNextMessage { p with
      messageNumber := p.messageNumber + 1
      deliveries := p.deliveries ++ [p.messageNumber + 1]
      broker := p.broker.publish }

def onConnectionClosed (p : Publisher) : Result :=
  let lost := { p with client := p.client.release }
  if lost.stopping then .done { lost with running := false }
  else .done { lost with retryTimers := lost.retryTimers + 1 }

def onChannelClosed (p : Publisher) : Result :=
  let lost := { p with client := p.client.release }
  if lost.stopping then .done lost else .done { lost with client := lost.client.closeConnection }

def closeChannel (p : Publisher) : Result :=
  if p.client.held then onClient Client.closeChannel p else .done p

-- stop() is called by run, which leaves its loop when the connection is closed.
def stop (p : Publisher) : Result :=
  (closeChannel { p with stopping := true }).andThen fun p =>
    let closed := { p with client := p.client.closeConnection }
    .done { closed with running := closed.client.connection ≠ .closed }

def onReply (request : Request) (p : Publisher) : Result :=
  match request with
  | .connectionOpen => onConnectionOpen p
  | .channelOpen => onChannelOpen settings p
  | .exchangeDeclare _ _ => onExchangeDeclare settings p
  | .queueDeclare _ => onQueueDeclare settings p
  | .queueBind _ _ _ => onBind p
  | .basicCancel => .done p
  | .channelClose => .done p
  | .connectionClose => .done p

inductive Label
  | reply (request : Request)
  | channelClosed
  | connectionClosed (channelFirst : Bool)
  | publishTimer
  | retryTimer
  | confirm (kind : Confirmation) (tag : Nat) (multiple : Bool)
  | stop
deriving DecidableEq

def finish (result : Result) : Publisher :=
  { result.state with crashed := result.raised }

def channelLost (p : Publisher) : Publisher :=
  { p with client := p.client.loseChannel }

def connectionLost (p : Publisher) : Publisher :=
  { p with client := p.client.loseConnection }

-- A single confirm is for an outstanding tag, one with the multiple flag for all
-- outstanding tags up to a published one.
def confirmable (p : Publisher) (tag : Nat) (multiple : Bool) : Bool :=
  p.client.alive &&
    if multiple then 1 ≤ tag ∧ tag ≤ p.broker.published else tag ∈ p.broker.outstanding

-- One callback, when pika may run it.
def callback (p : Publisher) : Label → Option Result
  | .reply request =>
      (p.client.answer request).map fun c => onReply settings request { p with client := c }
  | .channelClosed => if p.client.alive then some (onChannelClosed p.channelLost) else none
  | .connectionClosed channelFirst =>
      if p.client.connection = .closed then none
      else if channelFirst && p.client.alive then
        some ((onChannelClosed p.connectionLost).andThen onConnectionClosed)
      else some (onConnectionClosed p.connectionLost)
  | .publishTimer =>
      if 0 < p.publishTimers then
        some (publishMessage { p with publishTimers := p.publishTimers - 1 })
      else none
  | .retryTimer =>
      if 0 < p.retryTimers then some (run { p with retryTimers := p.retryTimers - 1 }) else none
  | .confirm kind tag multiple =>
      if p.confirmable tag multiple then
        some (onDeliveryConfirmation kind tag
          { p with broker := p.broker.cover (p.broker.covers tag multiple) kind })
      else none
  | .stop => if p.stopping then none else some (stop p)

def step (p : Publisher) (label : Label) : Option Publisher :=
  if p.running && p.crashed.isNone then (callback settings p label).map finish else none

end Methods

-- A new Publisher whose run() has been called.
def start : Publisher where
  client := { connection := .opening, channel := .closed, requests := [.connectionOpen], held := false }
  stopping := false
  deliveries := []
  acked := 0
  nacked := 0
  messageNumber := 0
  publishTimers := 0
  retryTimers := 0
  running := true
  crashed := none
  broker := .empty

end Publisher

end MesosPoc.Booting
