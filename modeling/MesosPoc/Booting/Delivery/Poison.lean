import MesosPoc.Booting.Delivery
import MesosPoc.Booting.Receiver.Recovery
import MesosPoc.Json.Equality
import MesosPoc.Json.Fields
import MesosPoc.Settles

namespace MesosPoc.Booting

open Outcome

-- A body that on_message can do something with: a JSON object whose Host, if it has
-- one, is a string.
def Sound (body : Str) : Prop :=
  ∃ pairs, Json.loads body = .ok (.obj pairs) ∧
    ∀ host, Json.lookup "Host".toList pairs = some host → ∃ text, host = .str text

-- What the handling of a body comes to before its acknowledgement.
def plays (body : Str) : List Handled :=
  match messageHost body with
  | .ok (some (.str host)) => [.played (host.splitOn ',')]
  | _ => []

def handling (delivery : Delivery) : List Handled :=
  plays delivery.body ++ [.acknowledged delivery.deliveryTag]

-- Every delivery is handled and then acknowledged, each once and in its turn, and the
-- Receiver goes on with the next one: the broker has nothing left to deliver again.
structure LivesOn (play : List Str → Except PyError Unit) (ignoresUnknownTag : Bool) (settings : Settings)
    (r : Receiver) (deliveries : List Delivery) : Prop where
  handled : Receiver.consume (bound play) deliveries = .done (deliveries.flatMap handling)
  ready : Machine.run (Receiver.step ignoresUnknownTag settings) r
    (deliveries.map fun d => .message (Receiver.onMessage (bound play) d []).raised) = some r
  acknowledged : Receiver.redelivered (bound play) deliveries = []

section Handling

variable {play : List Str → Except PyError Unit}

theorem messageHost_obj (pairs : List (Str × Json)) (body : Str) (h : Json.loads body = .ok (.obj pairs)) :
    messageHost body = .ok (Json.lookup "Host".toList pairs) := by
  cases hl : Json.lookup "Host".toList pairs with
  | none => exact bind_eq_ok.mpr ⟨_, h, bind_eq_ok.mpr ⟨false, Json.hasKey_obj hl, rfl⟩⟩
  | some host => exact bind_eq_ok.mpr ⟨_, h, bind_eq_ok.mpr ⟨true, Json.hasKey_obj hl,
      bind_eq_ok.mpr ⟨host, Json.getItem_of_lookup hl, rfl⟩⟩⟩

theorem exists_obj_of_messageHost (body : Str) (host : Option Json) (h : messageHost body = .ok host) :
    ∃ pairs, Json.loads body = .ok (.obj pairs) ∧ Json.lookup "Host".toList pairs = host := by
  obtain ⟨message, hloads, h'⟩ := bind_eq_ok.mp h
  obtain ⟨found, hkey, -⟩ := bind_eq_ok.mp h'
  cases message with
  | obj pairs =>
      refine ⟨pairs, hloads, ?_⟩
      rw [messageHost_obj pairs body hloads] at h
      exact Except.ok.inj h
  | _ => cases hkey

theorem sound_iff (body : Str) :
    Sound body ↔ ∃ host, messageHost body = .ok host ∧ ∀ value, host = some value → ∃ text, value = .str text := by
  constructor
  · rintro ⟨pairs, hloads, hhost⟩
    exact ⟨_, messageHost_obj pairs body hloads, hhost⟩
  · rintro ⟨host, hmessage, hhost⟩
    obtain ⟨pairs, hloads, rfl⟩ := exists_obj_of_messageHost body host hmessage
    exact ⟨pairs, hloads, hhost⟩

theorem bound_onMessage (delivery : Delivery) (done : List Handled) :
    Receiver.onMessage (bound play) delivery done = onMessage play delivery done := by
  show (onMessage play delivery done).andThen (fun next => .done next) = onMessage play delivery done
  cases hr : (onMessage play delivery done).raised with
  | none =>
      rw [andThen_done _ hr]
      cases ho : onMessage play delivery done with
      | mk state raised =>
          rw [ho] at hr
          obtain rfl : raised = none := hr
          rfl
  | some e => exact andThen_raised _ hr

theorem test_str (hplay : ∀ hosts, play hosts = .ok ()) (host : Str) (done : List Handled) :
    Ansible.test play (.str host) done = .done (done ++ [.played (host.splitOn ',')]) := by
  simp only [Ansible.test, Ansible.split, hplay]

theorem test_other (host : Json) (done : List Handled) (h : ∀ text, host ≠ .str text) :
    Ansible.test play host done = .raise .attributeError done := by
  cases host with
  | str text => exact absurd rfl (h text)
  | _ => rfl

theorem onMessage_sound (hplay : ∀ hosts, play hosts = .ok ()) (delivery : Delivery) (done : List Handled)
    (h : Sound delivery.body) : onMessage play delivery done = .done (done ++ handling delivery) := by
  obtain ⟨host, hmessage, hhost⟩ := (sound_iff delivery.body).mp h
  cases host with
  | none =>
      simp only [onMessage, handling, plays, hmessage, done_andThen, List.nil_append]
  | some value =>
      obtain ⟨text, rfl⟩ := hhost value rfl
      simp only [onMessage, handling, plays, hmessage, test_str hplay, done_andThen, List.append_assoc]

theorem onMessage_unsound (play : List Str → Except PyError Unit) (delivery : Delivery) (done : List Handled)
    (h : ¬Sound delivery.body) : ∃ e, onMessage play delivery done = .raise e done := by
  unfold onMessage
  cases hmessage : messageHost delivery.body with
  | error e => exact ⟨e, rfl⟩
  | ok host =>
      cases host with
      | none => exact absurd ((sound_iff delivery.body).mpr ⟨none, hmessage, by rintro _ ⟨⟩⟩) h
      | some value =>
          have hvalue : ∀ text, value ≠ .str text := by
            rintro text rfl
            apply h
            refine (sound_iff delivery.body).mpr ⟨_, hmessage, ?_⟩
            intro value hv
            exact ⟨text, (Option.some.inj hv).symm⟩
          refine ⟨.attributeError, ?_⟩
          simp only [test_other value done hvalue, raise_andThen]

theorem forEach_sound (hplay : ∀ hosts, play hosts = .ok ()) (deliveries : List Delivery) (done : List Handled)
    (h : ∀ d ∈ deliveries, Sound d.body) :
    forEach (fun done delivery => Receiver.onMessage (bound play) delivery done) done deliveries =
      .done (done ++ deliveries.flatMap handling) := by
  induction deliveries generalizing done with
  | nil => rw [forEach, List.flatMap_nil, List.append_nil]
  | cons delivery rest ih =>
      obtain ⟨hd, hrest⟩ := List.forall_mem_cons.mp h
      rw [forEach, bound_onMessage, onMessage_sound hplay delivery done hd, done_andThen, ih _ hrest,
        List.flatMap_cons, List.append_assoc]

-- A consumer that meets a message it cannot handle leaves it with the broker, at the
-- head of the queue.
theorem redelivered_poison (hplay : ∀ hosts, play hosts = .ok ()) (before after : List Delivery)
    (poison : Delivery) (hbefore : ∀ d ∈ before, Sound d.body) (hpoison : ¬Sound poison.body) :
    Receiver.redelivered (bound play) (before ++ poison :: after) = poison :: after := by
  induction before with
  | nil =>
      obtain ⟨e, he⟩ := onMessage_unsound play poison [] hpoison
      rw [List.nil_append, Receiver.redelivered, bound_onMessage, he]
      rfl
  | cons delivery rest ih =>
      obtain ⟨hd, hrest⟩ := List.forall_mem_cons.mp hbefore
      rw [List.cons_append, Receiver.redelivered, bound_onMessage, onMessage_sound hplay delivery [] hd]
      exact ih hrest

-- However often the consumer is started again.
theorem poison_returns (hplay : ∀ hosts, play hosts = .ok ()) (before after : List Delivery)
    (poison : Delivery) (hbefore : ∀ d ∈ before, Sound d.body) (hpoison : ¬Sound poison.body) (restarts : Nat) :
    (Receiver.redelivered (bound play))^[restarts + 1] (before ++ poison :: after) = poison :: after := by
  induction restarts with
  | zero => exact redelivered_poison hplay before after poison hbefore hpoison
  | succ restarts ih =>
      rw [Function.iterate_succ_apply', ih]
      exact redelivered_poison hplay [] after poison (List.forall_mem_nil _) hpoison

theorem sound_of_redelivered (deliveries : List Delivery)
    (h : Receiver.redelivered (bound play) deliveries = []) : ∀ d ∈ deliveries, Sound d.body := by
  induction deliveries with
  | nil => exact List.forall_mem_nil _
  | cons delivery rest ih =>
      rw [Receiver.redelivered, bound_onMessage] at h
      by_cases hd : Sound delivery.body
      · cases hr : (onMessage play delivery []).raised with
        | none =>
            simp only [hr] at h
            exact List.forall_mem_cons.mpr ⟨hd, ih h⟩
        | some e => simp only [hr, reduceCtorEq] at h
      · obtain ⟨e, he⟩ := onMessage_unsound play delivery [] hd
        simp only [he, raise_raised, reduceCtorEq] at h

theorem redelivered_sound (hplay : ∀ hosts, play hosts = .ok ()) (deliveries : List Delivery)
    (h : ∀ d ∈ deliveries, Sound d.body) : Receiver.redelivered (bound play) deliveries = [] := by
  induction deliveries with
  | nil => rfl
  | cons delivery rest ih =>
      obtain ⟨hd, hrest⟩ := List.forall_mem_cons.mp h
      rw [Receiver.redelivered, bound_onMessage, onMessage_sound hplay delivery [] hd]
      exact ih hrest

-- A callback that raises nothing leaves the Receiver as it is.
theorem step_message (ignoresUnknownTag : Bool) (settings : Settings) (r : Receiver)
    (hconsuming : r.consuming = true) (hrunning : r.running = true) (hcrashed : r.crashed = none) :
    Receiver.step ignoresUnknownTag settings r (.message none) = some r := by
  have hready : (r.running && r.crashed.isNone) = true := by
    rw [hrunning, hcrashed]
    rfl
  have hfinish : Receiver.finish ⟨r, none⟩ = r := by
    rw [Receiver.finish, ← hcrashed]
  simp only [Receiver.step, Receiver.callback]
  rw [if_pos hready, if_pos hconsuming, Option.map_some, hfinish]

theorem run_sound (hplay : ∀ hosts, play hosts = .ok ()) (ignoresUnknownTag : Bool) (settings : Settings)
    (r : Receiver) (hconsuming : r.consuming = true) (hrunning : r.running = true) (hcrashed : r.crashed = none)
    (deliveries : List Delivery) (h : ∀ d ∈ deliveries, Sound d.body) :
    Machine.run (Receiver.step ignoresUnknownTag settings) r
      (deliveries.map fun d => .message (Receiver.onMessage (bound play) d []).raised) = some r := by
  induction deliveries with
  | nil => rfl
  | cons delivery rest ih =>
      obtain ⟨hd, hrest⟩ := List.forall_mem_cons.mp h
      rw [List.map_cons, Machine.run, bound_onMessage, onMessage_sound hplay delivery [] hd, done_raised,
        step_message ignoresUnknownTag settings r hconsuming hrunning hcrashed]
      exact ih hrest

end Handling

-- The consumer lives on exactly when every body is sound.
theorem livesOn_iff (play : List Str → Except PyError Unit) (hplay : ∀ hosts, play hosts = .ok ())
    (ignoresUnknownTag : Bool) (settings : Settings) (r : Receiver) (hconsuming : r.consuming = true)
    (hrunning : r.running = true) (hcrashed : r.crashed = none) (deliveries : List Delivery) :
    LivesOn play ignoresUnknownTag settings r deliveries ↔ ∀ d ∈ deliveries, Sound d.body := by
  constructor
  · intro h
    exact sound_of_redelivered deliveries h.acknowledged
  · intro h
    refine ⟨?_, ?_, redelivered_sound hplay deliveries h⟩
    · exact forEach_sound hplay deliveries [] h
    · exact run_sound hplay ignoresUnknownTag settings r hconsuming hrunning hcrashed deliveries h

def consumer : Receiver := { Receiver.start with consumerTag := true, consuming := true }

def hostBody : Str := "\x7b\"Host\":\"10.0.0.1,10.0.0.2\"\x7d".toList

theorem hostBody_sound : Sound hostBody := by
  refine ⟨[("Host".toList, .str "10.0.0.1,10.0.0.2".toList)], ?_, ?_⟩
  · exact Json.loads_of_loadsTo _ _ (by decide +kernel)
  · intro host h
    exact ⟨_, (Option.some.inj h).symm⟩

theorem hosts_livesOn :
    LivesOn (fun _ => .ok ()) true defaultSettings consumer [⟨1, hostBody⟩, ⟨2, hostBody⟩] := by
  refine (livesOn_iff (fun _ => .ok ()) (fun _ => rfl) true defaultSettings consumer rfl rfl rfl _).mpr ?_
  intro d hd
  have hbody : d.body = hostBody := by
    rcases List.mem_pair.mp hd with rfl | rfl <;> rfl
  rw [hbody]
  exact hostBody_sound

theorem loads_plain : Json.loads "host".toList = .error .valueError :=
  rfl

-- A message that is not JSON ends the consumer and comes back.
theorem plain_message_crashes :
    Receiver.consume (bound fun _ => .ok ()) [⟨1, "host".toList⟩, ⟨2, hostBody⟩] = .raise .valueError [] ∧
      Receiver.redelivered (bound fun _ => .ok ()) [⟨1, "host".toList⟩, ⟨2, hostBody⟩] =
        [⟨1, "host".toList⟩, ⟨2, hostBody⟩] ∧
      ¬LivesOn (fun _ => .ok ()) true defaultSettings consumer [⟨1, "host".toList⟩, ⟨2, hostBody⟩] := by
  have hmessage : messageHost "host".toList = .error .valueError := by
    rw [messageHost, loads_plain]
    rfl
  have hraised (done : List Handled) : Receiver.onMessage (bound fun _ => .ok ()) ⟨1, "host".toList⟩ done =
      .raise .valueError done := by
    rw [bound_onMessage, onMessage, hmessage]
    rfl
  have hconsumed : Receiver.consume (bound fun _ => .ok ()) [⟨1, "host".toList⟩, ⟨2, hostBody⟩] =
      .raise .valueError [] := by
    rw [Receiver.consume, forEach, hraised]
    rfl
  have hredelivered : Receiver.redelivered (bound fun _ => .ok ()) [⟨1, "host".toList⟩, ⟨2, hostBody⟩] =
      [⟨1, "host".toList⟩, ⟨2, hostBody⟩] := by
    rw [Receiver.redelivered, hraised]
    rfl
  refine ⟨hconsumed, hredelivered, ?_⟩
  intro h
  have hnone := h.acknowledged
  rw [hredelivered] at hnone
  cases hnone

end MesosPoc.Booting
