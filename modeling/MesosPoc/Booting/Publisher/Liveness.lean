import MesosPoc.Booting.Publisher.Theorems

namespace MesosPoc.Booting.Publisher

open Machine

def IsSetUp : Request → Prop
  | .basicCancel => False
  | .channelClose => False
  | .connectionClose => False
  | _ => True

-- run() has connected again with all counters reset.
structure Reconnected (p : Publisher) : Prop where
  opening : p.client.connection = .opening
  requested : p.client.requests = [.connectionOpen]
  deliveries : p.deliveries = []
  acked : p.acked = 0
  nacked : p.nacked = 0
  messageNumber : p.messageNumber = 0
  publishTimers : p.publishTimers = 0

-- Something that keeps the Publisher going is outstanding.
def Live (settings : Settings) (p : Publisher) : Prop :=
  (∃ request, IsSetUp request ∧ (p.client.answer request).isSome) ∨
    (0 < p.publishTimers ∧ p.client.held = true ∧ p.client.channel = .opened) ∨
    (.channelClose ∈ p.client.requests ∨ .connectionClose ∈ p.client.requests) ∨
    (∃ again, callback settings p .retryTimer = some (.done again) ∧ Reconnected again)

-- The phases of a Publisher that has not been stopped: its client and the
-- numbers of its publish and retry timers.
inductive Phase : Client → Nat → Nat → Prop
  | connecting : Phase ⟨.opening, .closed, [.connectionOpen], false⟩ 0 0
  | opening : Phase ⟨.opened, .opening, [.channelOpen], false⟩ 0 0
  | declaring (request : Request) (hset : IsSetUp request) (hon : Client.OnChannel request) :
      Phase ⟨.opened, .opened, [request], true⟩ 0 0
  | publishing : Phase ⟨.opened, .opened, [], true⟩ 1 0
  | losing (timers : Nat) (hone : timers ≤ 1) :
      Phase ⟨.closing, .closed, [.connectionClose], false⟩ timers 0
  | lost (timers : Nat) (hone : timers ≤ 1) : Phase ⟨.closed, .closed, [], false⟩ timers 1

def InPhase (p : Publisher) : Prop :=
  Phase p.client p.publishTimers p.retryTimers

theorem drop_only (connection channel : Link) (request : Request) (held : Bool) :
    Client.drop request ⟨connection, channel, [request], held⟩ = ⟨connection, channel, [], held⟩ := by
  simp [Client.drop]

theorem phase_reply (settings : Settings) (p : Publisher) (hp : InPhase p) (request : Request)
    (result : Result) (h : callback settings p (.reply request) = some result) :
    result.raised = none ∧ InPhase result.state := by
  obtain ⟨answered, ha, rfl⟩ := Option.map_eq_some_iff.mp h
  obtain ⟨hm, hcases⟩ := Client.answer_cases ha
  obtain ⟨client, stopping, deliveries, acked, nacked, number, publish, retry, running, crashed, broker⟩ := p
  change Phase client publish retry at hp
  cases hp with
  | connecting =>
      obtain rfl : request = .connectionOpen := by simpa using hm
      obtain rfl : answered = _ := by simpa [Client.OnChannel] using hcases
      exact ⟨rfl, Phase.opening⟩
  | opening =>
      obtain rfl : request = .channelOpen := by simpa using hm
      obtain rfl : answered = _ := by simpa [Client.OnChannel] using hcases
      exact ⟨rfl, Phase.declaring _ trivial (by simp [Client.OnChannel])⟩
  | declaring request' hset hon =>
      obtain rfl : request = request' := by simpa using hm
      obtain ⟨-, -, rfl⟩ := (hcases.resolve_left fun h => hon.1 h.1).resolve_left fun h => hon.2.1 h.1
      simp only [drop_only]
      cases request with
      | exchangeDeclare exchange kind =>
          exact ⟨rfl, Phase.declaring _ trivial (by simp [Client.OnChannel])⟩
      | queueDeclare queue =>
          exact ⟨rfl, Phase.declaring _ trivial (by simp [Client.OnChannel])⟩
      | queueBind queue exchange routingKey => exact ⟨rfl, Phase.publishing⟩
      | connectionOpen => exact absurd rfl hon.1
      | channelOpen => exact absurd rfl hon.2.1
      | _ => exact hset.elim
  | publishing => cases hm
  | losing timers hone =>
      obtain rfl : request = .connectionClose := by simpa using hm
      simp [Client.OnChannel] at hcases
  | lost timers hone => cases hm

theorem phase_channelClosed (settings : Settings) (p : Publisher) (hp : InPhase p)
    (hgo : p.stopping = false) (result : Result)
    (h : callback settings p .channelClosed = some result) :
    result.raised = none ∧ InPhase result.state := by
  obtain ⟨halive, rfl⟩ := guarded_eq_some h
  obtain ⟨client, stopping, deliveries, acked, nacked, number, publish, retry, running, crashed, broker⟩ := p
  change Phase client publish retry at hp
  obtain rfl : stopping = false := hgo
  cases hp with
  | declaring request hset hon =>
      have hlost : Client.loseChannel ⟨.opened, .opened, [request], true⟩ =
          ⟨.opened, .closed, [], true⟩ := by
        simp [Client.loseChannel, hon.1, hon.2.2.2]
      simp only [channelLost, hlost]
      exact ⟨rfl, Phase.losing 0 (Nat.zero_le 1)⟩
  | publishing => exact ⟨rfl, Phase.losing 1 le_rfl⟩
  | connecting => cases halive
  | opening => cases halive
  | losing timers hone => cases halive
  | lost timers hone => cases halive

theorem phase_connectionClosed (settings : Settings) (p : Publisher) (hp : InPhase p)
    (hgo : p.stopping = false) (channelFirst : Bool) (result : Result)
    (h : callback settings p (.connectionClosed channelFirst) = some result) :
    result.raised = none ∧ InPhase result.state := by
  obtain ⟨hup, rfl⟩ := callback_connectionClosed h
  rw [onConnectionClosed_retry { p with client := p.client.loseConnection.release } hgo]
  obtain ⟨client, stopping, deliveries, acked, nacked, number, publish, retry, running, crashed, broker⟩ := p
  change Phase client publish retry at hp
  refine ⟨rfl, ?_⟩
  cases hp with
  | losing _ hone => exact Phase.lost publish hone
  | lost _ hone => exact absurd rfl hup
  | publishing => exact Phase.lost 1 le_rfl
  | _ => exact Phase.lost 0 (by omega)

theorem phase_publishTimer (settings : Settings) (p : Publisher) (hp : InPhase p) (result : Result)
    (h : callback settings p .publishTimer = some result) :
    result.raised = none ∧ InPhase result.state := by
  obtain ⟨htimer, rfl⟩ := guarded_eq_some h
  obtain ⟨client, stopping, deliveries, acked, nacked, number, timers, retry, running, crashed, broker⟩ := p
  change Phase client timers retry at hp
  cases hp with
  | publishing => exact ⟨rfl, Phase.publishing⟩
  | losing _ hone => exact ⟨rfl, Phase.losing (timers - 1) (by omega)⟩
  | lost timers hone => exact ⟨rfl, Phase.lost (timers - 1) (by omega)⟩
  | _ => cases htimer

theorem phase_retryTimer (settings : Settings) (p : Publisher) (hp : InPhase p)
    (hgo : p.stopping = false) (result : Result)
    (h : callback settings p .retryTimer = some result) :
    result.raised = none ∧ InPhase result.state := by
  obtain ⟨htimer, rfl⟩ := guarded_eq_some h
  obtain ⟨client, stopping, deliveries, acked, nacked, number, publish, retry, running, crashed, broker⟩ := p
  change Phase client publish retry at hp
  obtain rfl : stopping = false := hgo
  cases hp with
  | lost timers hone => exact ⟨rfl, Phase.connecting⟩
  | _ => cases htimer

theorem phase_confirm (settings : Settings) (p : Publisher) (hp : InPhase p) (kind : Confirmation)
    (tag : Nat) (multiple : Bool) (result : Result)
    (h : callback settings p (.confirm kind tag multiple) = some result) : InPhase result.state := by
  obtain ⟨-, rfl⟩ := guarded_eq_some h
  unfold onDeliveryConfirmation
  cases kind <;> simp only <;> split <;> exact hp

theorem phase_callback (settings : Settings) (p : Publisher) (hp : InPhase p)
    (hgo : p.stopping = false) (label : Label) (hstop : label ≠ .stop) (result : Result)
    (h : callback settings p label = some result) : InPhase result.state := by
  cases label with
  | reply request => exact (phase_reply settings p hp request result h).2
  | channelClosed => exact (phase_channelClosed settings p hp hgo result h).2
  | connectionClosed channelFirst => exact (phase_connectionClosed settings p hp hgo channelFirst result h).2
  | publishTimer => exact (phase_publishTimer settings p hp result h).2
  | retryTimer => exact (phase_retryTimer settings p hp hgo result h).2
  | confirm kind tag multiple => exact phase_confirm settings p hp kind tag multiple result h
  | stop => exact absurd rfl hstop

-- No callback but that of a confirm raises.
theorem phase_raises (settings : Settings) (p : Publisher) (hp : InPhase p) (hgo : p.stopping = false)
    (label : Label) (hconfirm : ∀ kind tag multiple, label ≠ .confirm kind tag multiple)
    (result : Result) (h : callback settings p label = some result) : result.raised = none := by
  cases label with
  | reply request => exact (phase_reply settings p hp request result h).1
  | channelClosed => exact (phase_channelClosed settings p hp hgo result h).1
  | connectionClosed channelFirst => exact (phase_connectionClosed settings p hp hgo channelFirst result h).1
  | publishTimer => exact (phase_publishTimer settings p hp result h).1
  | retryTimer => exact (phase_retryTimer settings p hp hgo result h).1
  | confirm kind tag multiple => exact absurd rfl (hconfirm kind tag multiple)
  | stop =>
      obtain ⟨-, rfl⟩ := unguarded_eq_some h
      obtain ⟨client, stopping, deliveries, acked, nacked, number, publish, retry, running, crashed, broker⟩ := p
      change Phase client publish retry at hp
      cases hp <;> rfl

theorem live_of_phase (settings : Settings) (p : Publisher) (hp : InPhase p)
    (hgo : p.stopping = false) : p.publishTimers ≤ 1 ∧ Live settings p := by
  obtain ⟨client, stopping, deliveries, acked, nacked, number, publish, retry, running, crashed, broker⟩ := p
  change Phase client publish retry at hp
  obtain rfl : stopping = false := hgo
  cases hp with
  | connecting => exact ⟨Nat.zero_le 1, Or.inl ⟨.connectionOpen, trivial, rfl⟩⟩
  | opening => exact ⟨Nat.zero_le 1, Or.inl ⟨.channelOpen, trivial, rfl⟩⟩
  | declaring request hset hon =>
      refine ⟨Nat.zero_le 1, Or.inl ⟨request, hset, ?_⟩⟩
      cases request with
      | connectionOpen => exact absurd rfl hon.1
      | channelOpen => exact absurd rfl hon.2.1
      | channelClose => exact hset.elim
      | connectionClose => exact hset.elim
      | _ => simp [Client.answer]
  | publishing => exact ⟨le_rfl, Or.inr (Or.inl ⟨Nat.one_pos, rfl, rfl⟩)⟩
  | losing timers hone => exact ⟨hone, Or.inr (Or.inr (Or.inl (Or.inr (List.mem_singleton_self _))))⟩
  | lost timers hone =>
      refine ⟨hone, Or.inr (Or.inr (Or.inr ⟨_, rfl, ?_⟩))⟩
      constructor <;> rfl

theorem stopping_onReply (settings : Settings) (request : Request) (p : Publisher) :
    (onReply settings request p).state.stopping = p.stopping := by
  cases request with
  | queueBind queue exchange routingKey =>
      simp only [onReply, onBind, startPublishing, enableDeliveryConfirmations]
      split
      · split <;> rfl
      · rfl
  | _ => rfl

theorem stopping_stop (p : Publisher) : (stop p).state.stopping = true := by
  have hclose : (closeChannel { p with stopping := true }).state.stopping = true := by
    unfold closeChannel
    split <;> rfl
  unfold stop Outcome.andThen
  split
  · exact hclose
  · exact hclose

-- _stopping is never taken back.
theorem stopping_callback (settings : Settings) (p : Publisher) (hstopping : p.stopping = true)
    (label : Label) (result : Result) (h : callback settings p label = some result) :
    result.state.stopping = true := by
  cases label with
  | reply request =>
      obtain ⟨answered, -, rfl⟩ := Option.map_eq_some_iff.mp h
      exact (stopping_onReply settings request _).trans hstopping
  | channelClosed =>
      obtain ⟨-, rfl⟩ := guarded_eq_some h
      simp only [onChannelClosed]
      split <;> exact hstopping
  | connectionClosed channelFirst =>
      obtain ⟨-, rfl⟩ := callback_connectionClosed h
      rw [onConnectionClosed_stopping { p with client := p.client.loseConnection.release } hstopping]
      exact hstopping
  | publishTimer =>
      obtain ⟨-, rfl⟩ := guarded_eq_some h
      unfold publishMessage
      split <;> exact hstopping
  | retryTimer =>
      obtain ⟨-, rfl⟩ := guarded_eq_some h
      unfold run
      split <;> exact hstopping
  | confirm kind tag multiple =>
      obtain ⟨-, rfl⟩ := guarded_eq_some h
      unfold onDeliveryConfirmation
      cases kind <;> simp only <;> split <;> exact hstopping
  | stop =>
      obtain ⟨-, rfl⟩ := unguarded_eq_some h
      exact stopping_stop p

theorem inPhase_of_reaches (settings : Settings) (p : Publisher)
    (hr : Reaches (step settings) anyStep start p) : p.stopping = false → InPhase p := by
  apply hr.invariant (fun p => p.stopping = false → InPhase p) (fun _ => Phase.connecting)
  intro p label after ih _ hs hgo
  obtain ⟨result, hcall, rfl⟩ := step_eq_some hs
  change result.state.stopping = false at hgo
  have hbefore : p.stopping = false := by
    cases hstopping : p.stopping with
    | false => rfl
    | true => rw [stopping_callback settings p hstopping label result hcall] at hgo; exact hgo
  have hlabel : label ≠ .stop := by
    rintro rfl
    obtain ⟨-, rfl⟩ := unguarded_eq_some hcall
    rw [stopping_stop] at hgo
    cases hgo
  exact phase_callback settings p (ih hbefore) hbefore label hlabel result hcall

-- As long as it is not stopped, the Publisher goes on.
theorem never_silently_dead (settings : Settings) (p : Publisher)
    (hr : Reaches (step settings) anyStep start p) (hgo : p.stopping = false) :
    p.publishTimers ≤ 1 ∧ Live settings p ∧
      ∀ label after, step settings p label = some after →
        (∀ kind tag multiple, label ≠ .confirm kind tag multiple) → after.crashed = none := by
  have hp := inPhase_of_reaches settings p hr hgo
  obtain ⟨hone, hlive⟩ := live_of_phase settings p hp hgo
  refine ⟨hone, hlive, ?_⟩
  intro label after hs hconfirm
  obtain ⟨result, hcall, rfl⟩ := step_eq_some hs
  exact phase_raises settings p hp hgo label hconfirm result hcall

-- The connection is lost after the first message.
def lossAfterMessage (settings : Settings) : List Label :=
  [.reply .connectionOpen, .reply .channelOpen,
    .reply (.exchangeDeclare settings.exchangeName settings.exchangeType),
    .reply (.queueDeclare settings.queueName),
    .reply (.queueBind settings.queueName settings.exchangeName settings.routingKey),
    .publishTimer, .connectionClosed true]

def retrying : Publisher where
  client := { connection := .closed, channel := .closed, requests := [], held := false }
  stopping := false
  deliveries := [1]
  acked := 0
  nacked := 0
  messageNumber := 1
  publishTimers := 1
  retryTimers := 1
  running := true
  crashed := none
  broker := { published := 1, acks := [], nacks := [] }

theorem retrying_not_dead :
    retrying.publishTimers ≤ 1 ∧ Live defaultSettings retrying ∧
      ∀ label after, step defaultSettings retrying label = some after →
        (∀ kind tag multiple, label ≠ .confirm kind tag multiple) → after.crashed = none :=
  never_silently_dead defaultSettings retrying
    (reaches_of_run_any (lossAfterMessage defaultSettings) (by decide)) rfl

end MesosPoc.Booting.Publisher
