import MesosPoc.Booting.Receiver
import MesosPoc.ForEach
import MesosPoc.Json

namespace MesosPoc.Booting

open Outcome

structure Delivery where
  deliveryTag : Nat
  body : Str

-- What the handling of a message does: a play that has finished, and an
-- acknowledgement.
inductive Handled
  | played (hosts : List Str)
  | acknowledged (deliveryTag : Nat)
deriving DecidableEq

abbrev Handling := Outcome PyError (List Handled)

-- A callback that bind_to has been given.
abbrev Observer := Delivery → List Handled → Handling

-- What a PlayBook of these hosts, and its run, raise.
variable (play : List Str → Except PyError Unit)

namespace Ansible

-- host.split(",")
def split : Json → Except PyError (List Str)
  | .str host => .ok (host.splitOn ',')
  | _ => .error .attributeError

def test (host : Json) (done : List Handled) : Handling :=
  match split host with
  | .error e => .raise e done
  | .ok hosts =>
      match play hosts with
      | .error e => .raise e done
      | .ok _ => .done (done ++ [.played hosts])

end Ansible

-- The value that on_message looks for, if there is one.
def messageHost (body : Str) : Except PyError (Option Json) := do
  let message ← Json.loads body
  if ← message.hasKey "Host".toList then
    let host ← message.getItem "Host".toList
    return some host
  else return none

-- on_message of main.py
def onMessage (delivery : Delivery) (done : List Handled) : Handling :=
  let played : Handling :=
    match messageHost delivery.body with
    | .error e => .raise e done
    | .ok none => .done done
    | .ok (some host) => Ansible.test play host done
  played.andThen fun done => .done (done ++ [.acknowledged delivery.deliveryTag])

namespace Receiver

-- _on_message, with the list of observers.
def onMessage (observers : List Observer) (delivery : Delivery) (done : List Handled) : Handling :=
  forEach (fun done callback => callback delivery done) done observers

-- bind_to. None is no callback.
def bindTo (callback : Option Observer) (observers : List Observer) : List Observer :=
  observers ++ callback.toList

-- The ioloop hands out one delivery after the other. An exception leaves it.
def consume (observers : List Observer) (deliveries : List Delivery) : Handling :=
  forEach (fun done delivery => onMessage observers delivery done) [] deliveries

-- What the broker still has to deliver once the consumer has ended: the messages that
-- were not acknowledged, in their order.
def redelivered (observers : List Observer) : List Delivery → List Delivery
  | [] => []
  | delivery :: rest =>
      match (onMessage observers delivery []).raised with
      | some _ => delivery :: rest
      | none => redelivered observers rest

end Receiver

-- The Receiver of main.py.
def bound : List Observer :=
  Receiver.bindTo (some (onMessage play)) []

end MesosPoc.Booting
