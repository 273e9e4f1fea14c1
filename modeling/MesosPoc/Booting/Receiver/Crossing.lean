import MesosPoc.Booting.Receiver.Stopping

namespace MesosPoc.Booting.Receiver

open Machine

-- A stop() that asks the broker for nothing leaves nothing outstanding.
theorem stop_crosses (ignoresUnknownTag : Bool) (r : Receiver) (hs : Stoppable r)
    (hclosing : r.closing ≠ true) (hc : crossesStop ignoresUnknownTag r .stop = true) :
    ¬StopOk (finish (stop ignoresUnknownTag r)) := by
  simp only [crossesStop, decide_eq_true_eq] at hc
  obtain ⟨hup, hchannel, hcause⟩ := hc
  have hsilent : r.client.held = false ∨
      r.client.channel = .opened ∧ (ignoresUnknownTag && r.unknownTag) = true := by
    by_cases hopen : r.client.channel = .opened
    · exact Or.inr ⟨hopen, hcause.resolve_left (not_not.mpr hopen)⟩
    · left
      simpa [hopen, hchannel] using hs.ordered.held
  rw [stop_silent ignoresUnknownTag r hsilent]
  intro hok
  rcases hok.outstanding rfl hup with h | h | h
  · exact hclosing (hs.cancel h).1
  · exact hchannel (hs.ordered.channelClose.mp h)
  · have hlink : r.client.connection = .closing := hs.ordered.connectionClose h
    rw [hup] at hlink
    cases hlink

theorem closes_again (r : Receiver) (hheld : r.client.held = true) (hcalls : 0 < r.closeCalls) :
    ¬StopOk (finish (closeChannel r)) := by
  intro hok
  have hcount : (finish (closeChannel r)).closeCalls = r.closeCalls + 1 := by
    simp [finish, closeChannel, hheld, onClient, Outcome.within]
  have hle := hok.closes
  omega

theorem reply_crosses (ignoresUnknownTag : Bool) (settings : Settings) (r : Receiver)
    (hs : Stoppable r) (request : Request) (answered : Client)
    (ha : r.client.answer request = some answered)
    (hc : crossesStop ignoresUnknownTag r (.reply request) = true) :
    ¬StopOk (finish (onReply settings request { r with client := answered })) := by
  obtain ⟨hm, hcases⟩ := Client.answer_cases ha
  cases request with
  | connectionOpen =>
      obtain ⟨-, hopening, rfl⟩ : True ∧ r.client.connection = .opening ∧
          answered = { r.client.drop .connectionOpen with connection := .opened } := by
        simpa [Client.OnChannel] using hcases
      obtain ⟨heq, -⟩ := Client.ordered_connectionOpen r.client hs.ordered hopening
      intro hok
      have hclosing : r.closing = true := hc
      have hout := hok.outstanding hclosing rfl
      simp only [finish, onReply, onConnectionOpen, onClient, Client.onConnectionOpen, heq,
        Outcome.within_done, Outcome.done_state] at hout
      simp at hout
  | queueBind queue exchange routingKey =>
      obtain ⟨hup, rfl⟩ : r.client.channel ≠ .closed ∧ answered = r.client.drop _ := by
        simpa [Client.OnChannel] using hcases
      have hheld : r.client.held = true := by
        apply hs.ordered.held.mpr
        cases hchannel : r.client.channel with
        | opening => simp [hs.ordered.opening hchannel] at hm
        | closed => exact absurd hchannel hup
        | opened => exact Or.inl rfl
        | closing => exact Or.inr rfl
      have hclosing : r.closing = true := hc
      intro hok
      have hzero := hok.consumes
      simp only [finish, onReply, onBind, startConsuming, Client.drop, hheld, if_true, hclosing] at hzero
      split at hzero <;> simp at hzero
  | basicCancel =>
      obtain ⟨-, rfl⟩ : r.client.channel ≠ .closed ∧ answered = r.client.drop _ := by
        simpa [Client.OnChannel] using hcases
      exact closes_again _ (hs.cancel hm).2 (by simpa [crossesStop] using hc)
  | _ => simp [crossesStop] at hc

theorem crosses_not_ok (ignoresUnknownTag : Bool) (settings : Settings) (r : Receiver)
    (hs : Stoppable r) (label : Label) (after : Receiver)
    (hc : crossesStop ignoresUnknownTag r label = true)
    (h : step ignoresUnknownTag settings r label = some after) : ¬StopOk after := by
  obtain ⟨result, hcall, rfl⟩ := step_eq_some h
  cases label with
  | reply request =>
      obtain ⟨answered, ha, rfl⟩ := Option.map_eq_some_iff.mp hcall
      exact reply_crosses ignoresUnknownTag settings r hs request answered ha hc
  | consumerCancelled =>
      obtain ⟨hconsuming, rfl⟩ := guarded_eq_some hcall
      obtain ⟨-, hheld⟩ := hs.consuming hconsuming
      simp only [onConsumerCancelled, hheld, if_true]
      exact closes_again _ hheld (by simpa [crossesStop] using hc)
  | stop =>
      obtain ⟨hclosing, rfl⟩ := unguarded_eq_some hcall
      exact stop_crosses ignoresUnknownTag r hs hclosing hc
  | _ => simp [crossesStop] at hc

-- stop() keeps its promise in every state of a run exactly when no callback of
-- the run crosses with it.
theorem stop_stops_iff (ignoresUnknownTag : Bool) (settings : Settings) (labels : List Label) :
    Along (step ignoresUnknownTag settings) StopOk start labels ↔
      Allowed (step ignoresUnknownTag settings)
        (fun r label => crossesStop ignoresUnknownTag r label = false) start labels := by
  apply along_iff_allowed stopOk_of_stoppable _ _ labels start stoppable_start
  · intro r label after hs hn h
    obtain ⟨result, hcall, rfl⟩ := step_eq_some h
    exact stoppable_finish result (stoppable_callback ignoresUnknownTag settings r hs label result hn hcall)
  · intro r label after hs hc h
    exact crosses_not_ok ignoresUnknownTag settings r hs label after (by simpa using hc) h

-- stop() comes while the channel is being opened.
def stopWhileOpening (settings : Settings) : List Label :=
  [.reply .connectionOpen, .stop, .reply .channelOpen,
    .reply (.exchangeDeclare settings.exchangeName settings.exchangeType),
    .reply (.queueDeclare settings.queueName),
    .reply (.queueBind settings.queueName settings.exchangeName settings.routingKey)]

def consumingAfterStop : Receiver where
  client := { connection := .opened, channel := .opened, requests := [], held := true }
  closing := true
  consumerTag := true
  consuming := true
  reconnectTimers := 0
  running := true
  crashed := none
  closeCalls := 0
  closedThroughNone := false
  consumesAfterStop := 1

theorem run_stopWhileOpening (ignoresUnknownTag : Bool) :
    Machine.run (step ignoresUnknownTag defaultSettings) start (stopWhileOpening defaultSettings) =
      some consumingAfterStop := by
  cases ignoresUnknownTag <;> decide

theorem consumes_after_stop :
    ¬Along (step true defaultSettings) StopOk start (stopWhileOpening defaultSettings) ∧
      ¬Along (step false defaultSettings) StopOk start (stopWhileOpening defaultSettings) := by
  constructor
  · intro h
    have hconsumes := (h.last (run_stopWhileOpening true)).consumes
    cases hconsumes
  · intro h
    have hconsumes := (h.last (run_stopWhileOpening false)).consumes
    cases hconsumes

end MesosPoc.Booting.Receiver
