import MesosPoc.Python
import MesosPoc.Outcome

namespace MesosPoc.Booting

-- The states of a connection and of a channel in pika.
inductive Link
  | opening
  | opened
  | closing
  | closed
deriving DecidableEq

-- What the broker has been asked for. Only requests whose answer runs a method
-- of Queue.py are kept: basic_qos, basic_consume and confirm.select have none.
inductive Request
  | connectionOpen
  | channelOpen
  | exchangeDeclare (exchange kind : Str)
  | queueDeclare (queue : Str)
  | queueBind (queue exchange routingKey : Str)
  | basicCancel
  | channelClose
  | connectionClose
deriving DecidableEq

-- The arguments of the constructors of Receiver and Publisher.
structure Settings where
  queueName : Str
  routingKey : Str
  exchangeName : Str
  exchangeType : Str
deriving DecidableEq

def defaultSettings : Settings where
  queueName := "queue".toList
  routingKey := "queue".toList
  exchangeName := "topic_exchange".toList
  exchangeType := "topic".toList

-- A connection with its one channel, and whether _channel holds that channel or
-- None. Receiver and Publisher share this part and the set-up chain.
structure Client where
  connection : Link
  channel : Link
  requests : List Request
  held : Bool
deriving DecidableEq

namespace Client

def connect (c : Client) : Client :=
  { c with connection := .opening, channel := .closed, requests := [.connectionOpen] }

def openChannel (c : Client) : Client :=
  { c with channel := .opening, requests := c.requests ++ [.channelOpen] }

-- A request made through _channel: pika refuses it unless the channel is open.
def call (request : Request) (c : Client) : Outcome PyError Client :=
  if c.held then
    if c.channel = .opened then .done { c with requests := c.requests ++ [request] }
    else .raise .channelClosed c
  else .raise .attributeError c

-- _channel.close()
def closeChannel (c : Client) : Outcome PyError Client :=
  (c.call .channelClose).andThen fun c => .done { c with channel := .closing }

-- _connection.close(): nothing more for a connection that closes already.
def closeConnection (c : Client) : Client :=
  match c.connection with
  | .opening => { c with connection := .closing, requests := c.requests ++ [.connectionClose] }
  | .opened => { c with connection := .closing, requests := c.requests ++ [.connectionClose] }
  | _ => c

def drop (request : Request) (c : Client) : Client :=
  { c with requests := c.requests.erase request }

-- The answer to a request, none when it cannot come. The answers to the two
-- close requests are the closed callbacks.
def answer (request : Request) (c : Client) : Option Client :=
  if request ∈ c.requests then
    match request with
    | .connectionOpen =>
        if c.connection = .opening then some { c.drop request with connection := .opened } else none
    | .channelOpen =>
        if c.connection = .opened then some { c.drop request with channel := .opened } else none
    | .channelClose => none
    | .connectionClose => none
    | _ => if c.channel = .closed then none else some (c.drop request)
  else none

def alive (c : Client) : Bool :=
  c.channel = .opened ∨ c.channel = .closing

def loseChannel (c : Client) : Client :=
  { c with
    channel := .closed
    requests := c.requests.filter fun r => r = .connectionOpen ∨ r = .connectionClose }

def loseConnection (c : Client) : Client :=
  { c with connection := .closed, channel := .closed, requests := [] }

def release (c : Client) : Client :=
  { c with held := false }

def setupExchange (settings : Settings) : Client → Outcome PyError Client :=
  call (.exchangeDeclare settings.exchangeName settings.exchangeType)

def setupQueue (settings : Settings) : Client → Outcome PyError Client :=
  call (.queueDeclare settings.queueName)

def onConnectionOpen (c : Client) : Outcome PyError Client :=
  .done c.openChannel

def onChannelOpen (settings : Settings) (c : Client) : Outcome PyError Client :=
  setupExchange settings { c with held := true }

def onExchangeDeclare (settings : Settings) : Client → Outcome PyError Client :=
  setupQueue settings

def onQueueDeclare (settings : Settings) : Client → Outcome PyError Client :=
  call (.queueBind settings.queueName settings.exchangeName settings.routingKey)

end Client

end MesosPoc.Booting
