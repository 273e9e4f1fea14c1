import MesosPoc.Booting.Receiver.Theorems
import MesosPoc.Booting.Client.Theorems

namespace MesosPoc.Booting.Receiver

open Machine

-- What stop() promises in every state: nothing is consumed after it, a channel
-- is closed once and not through None, and an answer that ends the connection is
-- outstanding.
structure StopOk (r : Receiver) : Prop where
  consumes : r.consumesAfterStop = 0
  closes : r.closeCalls ≤ 1
  notThroughNone : r.closedThroughNone = false
  outstanding : r.closing = true → r.client.connection = .opened →
    .basicCancel ∈ r.client.requests ∨ .channelClose ∈ r.client.requests ∨
      .connectionClose ∈ r.client.requests

-- The callbacks that cross with stop(): a stop() that finds an open connection
-- but no consumer to cancel, a connection or a binding that is granted after
-- stop(), and a cancel callback of a channel that has been closed.
def crossesStop (ignoresUnknownTag : Bool) (r : Receiver) : Label → Bool
  | .stop =>
      r.client.connection = .opened ∧ r.client.channel ≠ .closing ∧
        (r.client.channel ≠ .opened ∨ (ignoresUnknownTag && r.unknownTag))
  | .reply .connectionOpen => r.closing
  | .reply (.queueBind _ _ _) => r.closing
  | .reply .basicCancel => 0 < r.closeCalls
  | .consumerCancelled => 0 < r.closeCalls
  | _ => false

structure Stoppable (r : Receiver) : Prop where
  ordered : r.client.Ordered
  cancel : .basicCancel ∈ r.client.requests → r.closing = true ∧ r.client.held = true
  stopped : r.closing = true → r.client.connection = .opened →
    .basicCancel ∈ r.client.requests ∨ r.client.channel = .closing
  calls : r.closeCalls ≤ 1
  uncalled : r.client.connection = .opening ∨ r.client.channel = .opening ∨
    r.client.channel = .opened → r.closeCalls = 0
  called : r.client.channel = .closing → r.closeCalls = 1
  consuming : r.consuming = true → r.consumerTag = true ∧ r.client.held = true
  consumes : r.consumesAfterStop = 0
  notThroughNone : r.closedThroughNone = false
  timers : r.reconnectTimers = 0

theorem stopOk_of_stoppable (r : Receiver) (hs : Stoppable r) : StopOk r where
  consumes := hs.consumes
  closes := hs.calls
  notThroughNone := hs.notThroughNone
  outstanding hclosing hup := by
    rcases hs.stopped hclosing hup with h | h
    · exact Or.inl h
    · exact Or.inr (Or.inl (hs.ordered.channelClose.mpr h))

theorem stoppable_start : Stoppable start := by
  constructor
  case ordered => constructor <;> simp [start]
  all_goals simp [start]

theorem stoppable_finish (result : Result) (hs : Stoppable result.state) :
    Stoppable (finish result) := by
  cases hs
  constructor <;> assumption

theorem opened_or_closing (r : Receiver) (hs : Stoppable r) (hheld : r.client.held = true) :
    r.client.channel = .opened ∧ r.closeCalls = 0 ∨ r.client.channel = .closing ∧ r.closeCalls = 1 := by
  rcases hs.ordered.held.mp hheld with h | h
  · exact Or.inl ⟨h, hs.uncalled (Or.inr (Or.inr h))⟩
  · exact Or.inr ⟨h, hs.called h⟩

theorem stoppable_connectionOpen (r : Receiver) (hs : Stoppable r)
    (hopening : r.client.connection = .opening) (hclosing : r.closing = false) :
    Stoppable (onConnectionOpen
      { r with client := { r.client.drop .connectionOpen with connection := .opened } }).state := by
  obtain ⟨heq, ho⟩ := Client.ordered_connectionOpen r.client hs.ordered hopening
  have hcalls := hs.uncalled (Or.inl hopening)
  change Stoppable { r with client := Client.openChannel _ }
  rw [heq] at ho ⊢
  have hnone : r.client.held = false := by
    have := ho.held
    simpa using this
  constructor
  case ordered => exact ho
  case consuming => simpa using hs.consuming
  case notThroughNone => exact hs.notThroughNone
  case consumes => exact hs.consumes
  case timers => exact hs.timers
  all_goals simp [hclosing, hcalls]

theorem stoppable_channelOpen (settings : Settings) (r : Receiver) (hs : Stoppable r)
    (hup : r.client.connection = .opened) (hm : .channelOpen ∈ r.client.requests) :
    Stoppable (onChannelOpen settings
      { r with client := { r.client.drop .channelOpen with channel := .opened } }).state := by
  obtain ⟨heq, ho⟩ := Client.ordered_channelOpen r.client hs.ordered hup hm
  have hopening := hs.ordered.channelOpen hm
  have hcalls := hs.uncalled (Or.inr (Or.inl hopening))
  have hnot : r.closing = false := by
    cases hc : r.closing with
    | false => rfl
    | true =>
        have := hs.stopped hc hup
        simp [hs.ordered.opening hopening, hopening] at this
  change Stoppable { r with client := (Client.call _ _).state }
  rw [heq] at ho ⊢
  rw [Client.call_opened _ _ rfl rfl]
  constructor
  case ordered =>
    have := Client.ordered_call _ (.exchangeDeclare settings.exchangeName settings.exchangeType) ho
      (by simp [Client.OnChannel])
    rwa [Client.call_opened _ _ rfl rfl] at this
  case consuming => exact fun h => ⟨(hs.consuming h).1, rfl⟩
  case notThroughNone => exact hs.notThroughNone
  case consumes => exact hs.consumes
  case timers => exact hs.timers
  all_goals simp [hnot, hcalls]

theorem stoppable_drop (r : Receiver) (hs : Stoppable r) (request : Request)
    (hm : request ∈ r.client.requests) (hon : Client.OnChannel request)
    (hcancel : request ≠ .basicCancel) (hup : r.client.channel ≠ .closed) :
    Stoppable { r with client := r.client.drop request } where
  ordered := Client.ordered_drop r.client request hs.ordered hon hm hup
  cancel h := hs.cancel ((Client.mem_drop_iff _ _ _ hcancel.symm).mp h)
  stopped hc hu := (hs.stopped hc hu).imp_left (Client.mem_drop_iff _ _ _ hcancel.symm).mpr
  calls := hs.calls
  uncalled := hs.uncalled
  called := hs.called
  consuming := hs.consuming
  consumes := hs.consumes
  notThroughNone := hs.notThroughNone
  timers := hs.timers

-- A request on the channel, of the set-up chain.
theorem stoppable_call (r : Receiver) (hs : Stoppable r) (request : Request)
    (hon : Client.OnChannel request) (hcancel : request ≠ .basicCancel) :
    Stoppable (onClient (Client.call request) r).state := by
  have ho := Client.ordered_call r.client request hs.ordered hon
  by_cases hheld : r.client.held = true
  · by_cases hopen : r.client.channel = .opened
    · simp only [onClient, Client.call_opened r.client request hheld hopen, Outcome.within_done,
        Outcome.done_state] at ho ⊢
      exact {
        ordered := ho
        cancel := by simpa [hcancel.symm] using hs.cancel
        stopped := by simpa [hcancel.symm] using hs.stopped
        calls := hs.calls
        uncalled := hs.uncalled
        called := hs.called
        consuming := hs.consuming
        consumes := hs.consumes
        notThroughNone := hs.notThroughNone
        timers := hs.timers }
    · rw [onClient, Client.call_not_opened r.client request hheld hopen]
      exact hs
  · simpa [onClient, Client.call, hheld] using hs

theorem stoppable_startConsuming (r : Receiver) (hs : Stoppable r) (hclosing : r.closing = false) :
    Stoppable (startConsuming r).state := by
  unfold startConsuming
  by_cases hheld : r.client.held = true
  · by_cases hopen : r.client.channel = .opened
    · simp only [hheld, hopen, if_true]
      exact { hs with
        consuming := fun _ => ⟨rfl, hheld⟩
        consumes := by simpa [hclosing] using hs.consumes }
    · simp only [hheld, hopen, if_true, if_false]
      exact { hs with consumes := by simpa [hclosing] using hs.consumes }
  · simpa [hheld] using hs

-- The one close() of a channel.
theorem stoppable_closeChannel (r : Receiver) (hs : Stoppable r) (c : Client) (hc : c.Ordered)
    (hheld : c.held = true) (hopen : c.channel = .opened) (hcalls : r.closeCalls = 0)
    (hcancel : .basicCancel ∈ c.requests → .basicCancel ∈ r.client.requests) :
    Stoppable (closeChannel { r with client := c, consuming := false }).state := by
  have ho := Client.ordered_closeChannel c hc hheld
  have hup := hc.up (by simp [hopen])
  simp only [closeChannel, hheld, if_true, onClient, Client.closeChannel_opened c hheld hopen,
    Outcome.within_done, Outcome.done_state] at ho ⊢
  exact {
    ordered := ho
    cancel := by simpa [hheld] using fun h => (hs.cancel (hcancel h)).1
    stopped := by simp
    calls := by simp [hcalls]
    uncalled := by simp [hup]
    called := by simp [hcalls]
    consuming := by simp
    consumes := hs.consumes
    notThroughNone := hs.notThroughNone
    timers := hs.timers }

theorem stoppable_channelLost (r : Receiver) (hs : Stoppable r) (halive : r.client.alive = true) :
    Stoppable (onChannelClosed r.channelLost).state := by
  have hup := hs.ordered.up (by
    intro hclosed
    simp [Client.alive, hclosed] at halive)
  have ho := Client.ordered_closeConnection_loseChannel r.client hup
  simp only [onChannelClosed, channelLost, Outcome.done_state] at ho ⊢
  rw [Client.closeConnection_loseChannel r.client hup] at ho ⊢
  exact {
    ordered := ho
    cancel := by simp [Client.loseChannel]
    stopped := by simp
    calls := hs.calls
    uncalled := by simp
    called := by simp
    consuming := by simp
    consumes := hs.consumes
    notThroughNone := hs.notThroughNone
    timers := hs.timers }

theorem stoppable_connectionLost (r : Receiver) (hs : Stoppable r) :
    Stoppable { r with client := r.client.loseConnection.release, consuming := false } where
  ordered := Client.ordered_loseConnection r.client
  cancel := by simp [Client.loseConnection, Client.release]
  stopped := by simp [Client.loseConnection, Client.release]
  calls := hs.calls
  uncalled := by simp [Client.loseConnection, Client.release]
  called := by simp [Client.loseConnection, Client.release]
  consuming := by simp
  consumes := hs.consumes
  notThroughNone := hs.notThroughNone
  timers := hs.timers

theorem stoppable_connectionClosed (r : Receiver)
    (hs : Stoppable { r with client := r.client.release }) : Stoppable (onConnectionClosed r).state := by
  cases hclosing : r.closing with
  | false =>
      rw [connectionClosed_raises r hclosing]
      exact hs
  | true =>
      rw [connectionClosed_stops r hclosing]
      exact { hs with }

-- The answers on the channel.
theorem stoppable_onReply (settings : Settings) (ignoresUnknownTag : Bool) (r : Receiver)
    (hs : Stoppable r) (request : Request) (hm : request ∈ r.client.requests)
    (hon : Client.OnChannel request) (hup : r.client.channel ≠ .closed)
    (hn : crossesStop ignoresUnknownTag r (.reply request) = false) :
    Stoppable (onReply settings request { r with client := r.client.drop request }).state := by
  cases request with
  | connectionOpen => exact absurd rfl hon.1
  | channelOpen => exact absurd rfl hon.2.1
  | exchangeDeclare exchange kind =>
      have hdrop := stoppable_drop r hs _ hm hon (by simp) hup
      exact stoppable_call _ hdrop (.queueDeclare settings.queueName) (by simp [Client.OnChannel]) (by simp)
  | queueDeclare queue =>
      have hdrop := stoppable_drop r hs _ hm hon (by simp) hup
      exact stoppable_call _ hdrop
        (.queueBind settings.queueName settings.exchangeName settings.routingKey)
        (by simp [Client.OnChannel]) (by simp)
  | queueBind queue exchange routingKey =>
      have hdrop := stoppable_drop r hs _ hm hon (by simp) hup
      exact stoppable_startConsuming _ hdrop hn
  | basicCancel =>
      have hcalls : r.closeCalls = 0 := by simpa [crossesStop] using hn
      have hheld := (hs.cancel hm).2
      have hopen : r.client.channel = .opened := by
        rcases opened_or_closing r hs hheld with h | h
        · exact h.1
        · omega
      exact stoppable_closeChannel r hs _ (Client.ordered_drop r.client _ hs.ordered hon hm hup) hheld
        hopen hcalls List.mem_of_mem_erase
  | channelClose => exact absurd rfl hon.2.2.1
  | connectionClose => exact absurd rfl hon.2.2.2

theorem stoppable_stop (ignoresUnknownTag : Bool) (r : Receiver) (hs : Stoppable r)
    (hn : crossesStop ignoresUnknownTag r .stop = false) :
    Stoppable (stop ignoresUnknownTag r).state := by
  by_cases hheld : r.client.held = true
  · rcases opened_or_closing r hs hheld with ⟨hopen, -⟩ | ⟨hclose, -⟩
    · have hup := hs.ordered.up (by simp [hopen])
      have hknown : (ignoresUnknownTag && r.unknownTag) = false := by
        simpa [crossesStop, hopen, hup] using hn
      have ho := Client.ordered_call r.client .basicCancel hs.ordered (by simp [Client.OnChannel])
      rw [Client.call_opened r.client _ hheld hopen] at ho
      rw [stop_opened ignoresUnknownTag r hheld hopen hknown]
      exact { hs with
        ordered := ho
        cancel := fun _ => ⟨rfl, hheld⟩
        stopped := by simp }
    · have hne : r.client.channel ≠ .opened := by simp [hclose]
      rw [stop_not_opened ignoresUnknownTag r hheld hne]
      exact { hs with
        cancel := fun _ => ⟨rfl, hheld⟩
        stopped := fun _ _ => Or.inr hclose }
  · have hdown : r.client.connection ≠ .opened := by
      intro hup
      have hchannel := mt hs.ordered.held.mpr hheld
      simp only [not_or] at hchannel
      simp [crossesStop, hup, hchannel.1, hchannel.2] at hn
    rw [stop_silent ignoresUnknownTag r (by simp [hheld])]
    exact { hs with
      cancel := fun h => absurd (hs.cancel h).2 hheld
      stopped := fun _ hup => absurd hup hdown }

theorem stoppable_callback (ignoresUnknownTag : Bool) (settings : Settings) (r : Receiver)
    (hs : Stoppable r) (label : Label) (result : Result)
    (hn : crossesStop ignoresUnknownTag r label = false)
    (h : callback ignoresUnknownTag settings r label = some result) : Stoppable result.state := by
  cases label with
  | reply request =>
      obtain ⟨answered, ha, rfl⟩ := Option.map_eq_some_iff.mp h
      obtain ⟨hm, ⟨rfl, hopening, rfl⟩ | ⟨rfl, hup, rfl⟩ | ⟨hon, hup, rfl⟩⟩ := Client.answer_cases ha
      · exact stoppable_connectionOpen r hs hopening hn
      · exact stoppable_channelOpen settings r hs hup hm
      · exact stoppable_onReply settings ignoresUnknownTag r hs request hm hon hup hn
  | message raised =>
      obtain ⟨-, rfl⟩ := guarded_eq_some h
      exact hs
  | consumerCancelled =>
      obtain ⟨hconsuming, rfl⟩ := guarded_eq_some h
      obtain ⟨-, hheld⟩ := hs.consuming hconsuming
      have hcalls : r.closeCalls = 0 := by simpa [crossesStop] using hn
      have hopen : r.client.channel = .opened := by
        rcases opened_or_closing r hs hheld with h | h
        · exact h.1
        · omega
      simp only [onConsumerCancelled, hheld, if_true]
      exact stoppable_closeChannel r hs r.client hs.ordered hheld hopen hcalls id
  | channelClosed =>
      obtain ⟨halive, rfl⟩ := guarded_eq_some h
      exact stoppable_channelLost r hs halive
  | connectionClosed channelFirst =>
      rw [callback_connectionClosed h]
      exact stoppable_connectionClosed _ (stoppable_connectionLost r hs)
  | reconnect =>
      obtain ⟨htimer, -⟩ := guarded_eq_some h
      rw [hs.timers] at htimer
      cases htimer
  | stop =>
      obtain ⟨-, rfl⟩ := unguarded_eq_some h
      exact stoppable_stop ignoresUnknownTag r hs hn

end MesosPoc.Booting.Receiver
