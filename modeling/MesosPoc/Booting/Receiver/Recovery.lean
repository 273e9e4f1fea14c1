import MesosPoc.Booting.Receiver.Theorems

namespace MesosPoc.Booting.Receiver

open Machine

def setUpReplies (settings : Settings) : List Label :=
  [.reply .connectionOpen, .reply .channelOpen,
    .reply (.exchangeDeclare settings.exchangeName settings.exchangeType),
    .reply (.queueDeclare settings.queueName),
    .reply (.queueBind settings.queueName settings.exchangeName settings.routingKey)]

-- What a lost connection should leave behind.
structure Recovers (ignoresUnknownTag : Bool) (settings : Settings) (after : Receiver) : Prop where
  completes : after.crashed = none
  timer : after.reconnectTimers = 1
  reopens : ∃ again consumer, step ignoresUnknownTag settings after .reconnect = some again ∧
    again.client.connection = .opening ∧
    Machine.run (step ignoresUnknownTag settings) again (setUpReplies settings) = some consumer ∧
    consumer.consuming = true

theorem startConsuming_timers (r : Receiver) :
    (startConsuming r).state.reconnectTimers = r.reconnectTimers := by
  unfold startConsuming
  by_cases hheld : r.client.held <;> by_cases hopen : r.client.channel = .opened <;> simp [hheld, hopen]

theorem closeChannel_timers (r : Receiver) :
    (closeChannel r).state.reconnectTimers = r.reconnectTimers := by
  unfold closeChannel
  split <;> rfl

theorem stopConsuming_timers (ignoresUnknownTag : Bool) (r : Receiver) :
    (stopConsuming ignoresUnknownTag r).state.reconnectTimers = r.reconnectTimers := by
  unfold stopConsuming
  split
  · split <;> rfl
  · rfl

theorem stop_timers (ignoresUnknownTag : Bool) (r : Receiver) :
    (stop ignoresUnknownTag r).state.reconnectTimers = r.reconnectTimers := by
  have hcancel := stopConsuming_timers ignoresUnknownTag { r with closing := true }
  unfold stop Outcome.andThen
  split
  · exact hcancel
  · exact hcancel

theorem onConnectionClosed_timers (r : Receiver) :
    (onConnectionClosed r).state.reconnectTimers = r.reconnectTimers := by
  cases hclosing : r.closing with
  | false => rw [connectionClosed_raises r hclosing]; rfl
  | true => rw [connectionClosed_stops r hclosing]; rfl

theorem onReply_timers (settings : Settings) (request : Request) (r : Receiver) :
    (onReply settings request r).state.reconnectTimers = r.reconnectTimers := by
  cases request with
  | queueBind queue exchange routingKey => exact startConsuming_timers r
  | basicCancel => exact closeChannel_timers { r with consuming := false }
  | _ => rfl

-- No callback adds a reconnect timer.
theorem step_timers {ignoresUnknownTag : Bool} {settings : Settings} {r after : Receiver} {label : Label}
    (hnone : r.reconnectTimers = 0) (h : step ignoresUnknownTag settings r label = some after) :
    after.reconnectTimers = 0 := by
  obtain ⟨result, hcall, rfl⟩ := step_eq_some h
  change result.state.reconnectTimers = 0
  rw [← hnone]
  cases label with
  | reply request =>
      obtain ⟨answered, -, rfl⟩ := Option.map_eq_some_iff.mp hcall
      exact onReply_timers settings request _
  | message raised =>
      obtain ⟨-, rfl⟩ := guarded_eq_some hcall
      rfl
  | consumerCancelled =>
      obtain ⟨-, rfl⟩ := guarded_eq_some hcall
      unfold onConsumerCancelled
      split
      · exact closeChannel_timers { r with consuming := false }
      · rfl
  | channelClosed =>
      obtain ⟨-, rfl⟩ := guarded_eq_some hcall
      rfl
  | connectionClosed channelFirst =>
      rw [callback_connectionClosed hcall]
      exact onConnectionClosed_timers _
  | reconnect =>
      obtain ⟨htimer, -⟩ := guarded_eq_some hcall
      rw [hnone] at htimer
      cases htimer
  | stop =>
      obtain ⟨-, rfl⟩ := unguarded_eq_some hcall
      exact stop_timers ignoresUnknownTag r

theorem reaches_timers {ignoresUnknownTag : Bool} {settings : Settings} {r : Receiver}
    (hr : Reaches (step ignoresUnknownTag settings) anyStep start r) : r.reconnectTimers = 0 := by
  apply hr.invariant (fun r => r.reconnectTimers = 0) rfl
  intro before label after hnone _ hs
  exact step_timers hnone hs

-- Whenever the connection is lost before stop(), the program ends.
theorem lost_connection_never_recovers (ignoresUnknownTag : Bool) (settings : Settings)
    (r after : Receiver) (hr : Reaches (step ignoresUnknownTag settings) anyStep start r)
    (hclosing : r.closing = false) (channelFirst : Bool)
    (h : step ignoresUnknownTag settings r (.connectionClosed channelFirst) = some after) :
    after.crashed = some (.nameError "eply_code".toList) ∧ after.reconnectTimers = 0 ∧
      ¬Recovers ignoresUnknownTag settings after := by
  have hnone : after.reconnectTimers = 0 := step_timers (reaches_timers hr) h
  obtain ⟨result, hcall, rfl⟩ := step_eq_some h
  rw [callback_connectionClosed hcall] at hnone ⊢
  refine ⟨?_, hnone, ?_⟩
  · have hraise := connectionClosed_raises
      { r with client := r.client.loseConnection.release, consuming := false } hclosing
    rw [hraise]
    rfl
  · intro hrec
    have htimer := hrec.timer
    omega

def consumer : Receiver where
  client := { connection := .opened, channel := .opened, requests := [], held := true }
  closing := false
  consumerTag := true
  consuming := true
  reconnectTimers := 0
  running := true
  crashed := none
  closeCalls := 0
  closedThroughNone := false
  consumesAfterStop := 0

def brokenConsumer : Receiver :=
  { consumer with
    client := { connection := .closed, channel := .closed, requests := [], held := false }
    consuming := false
    crashed := some (.nameError "eply_code".toList) }

theorem reaches_consumer (ignoresUnknownTag : Bool) :
    Reaches (step ignoresUnknownTag defaultSettings) anyStep start consumer :=
  reaches_of_run_any (setUpReplies defaultSettings) (by cases ignoresUnknownTag <;> decide)

theorem consumer_never_recovers :
    brokenConsumer.crashed = some (.nameError "eply_code".toList) ∧ brokenConsumer.reconnectTimers = 0 ∧
      ¬Recovers true defaultSettings brokenConsumer :=
  lost_connection_never_recovers true defaultSettings consumer brokenConsumer (reaches_consumer true) rfl
    false (by decide)

-- A working consumer loses its connection.
theorem connection_loss_ends_consumer :
    Reaches (step true defaultSettings) anyStep start consumer ∧ consumer.closing = false ∧
      step true defaultSettings consumer (.connectionClosed false) = some brokenConsumer ∧
      ¬Recovers true defaultSettings brokenConsumer := by
  refine ⟨reaches_consumer true, rfl, by decide, ?_⟩
  intro hrec
  have hcompletes := hrec.completes
  cases hcompletes

end MesosPoc.Booting.Receiver
