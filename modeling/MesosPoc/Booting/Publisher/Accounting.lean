import MesosPoc.Booting.Publisher.Theorems

namespace MesosPoc.Booting.Publisher

open Machine

structure Accounting (p : Publisher) : Prop where
  published : p.messageNumber = p.broker.published
  deliveries : p.deliveries = p.broker.outstanding
  total : p.acked + p.nacked + p.deliveries.length = p.messageNumber
  acked : p.acked = p.broker.acks.length
  nacked : p.nacked = p.broker.nacks.length

-- A confirm covers exactly the tag it carries.
def coversOwnTag (p : Publisher) : Label → Bool
  | .confirm _ tag multiple => p.broker.covers tag multiple = [tag]
  | _ => true

structure Counted (p : Publisher) : Prop where
  accounting : Accounting p
  past : ∀ tag ∈ p.broker.covered, tag ≤ p.broker.published

theorem counted_start : Counted start := by
  refine ⟨?_, by simp [start, Confirms.empty, Confirms.covered]⟩
  constructor <;> simp [start, Confirms.empty, Confirms.outstanding]

-- All that the accounting depends on.
def books (p : Publisher) : List Nat × Nat × Nat × Nat × Confirms :=
  (p.deliveries, p.acked, p.nacked, p.messageNumber, p.broker)

theorem counted_of_books {p after : Publisher} (hc : Counted p) (h : after.books = p.books) :
    Counted after := by
  simp only [books, Prod.mk.injEq] at h
  obtain ⟨hdeliveries, hacked, hnacked, hnumber, hbroker⟩ := h
  obtain ⟨⟨h1, h2, h3, h4, h5⟩, hpast⟩ := hc
  rw [← hbroker] at hpast
  refine ⟨⟨?_, ?_, ?_, ?_, ?_⟩, hpast⟩
  · rw [hnumber, hbroker, h1]
  · rw [hdeliveries, hbroker, h2]
  · rw [hacked, hnacked, hdeliveries, hnumber, h3]
  · rw [hacked, hbroker, h4]
  · rw [hnacked, hbroker, h5]

theorem books_onBind (p : Publisher) : (onBind p).state.books = p.books := by
  unfold onBind startPublishing enableDeliveryConfirmations
  by_cases hheld : p.client.held <;> by_cases hopen : p.client.channel = .opened <;>
    simp [hheld, hopen, scheduleNextMessage, books]

theorem books_onReply (settings : Settings) (request : Request) (p : Publisher) :
    (onReply settings request p).state.books = p.books := by
  cases request with
  | queueBind queue exchange routingKey => exact books_onBind p
  | _ => rfl

theorem books_onChannelClosed (p : Publisher) : (onChannelClosed p).state.books = p.books := by
  simp only [onChannelClosed]
  split <;> rfl

theorem books_onConnectionClosed (p : Publisher) : (onConnectionClosed p).state.books = p.books := by
  simp only [onConnectionClosed]
  split <;> rfl

theorem books_stop (p : Publisher) : (stop p).state.books = p.books := by
  have hclose : (closeChannel { p with stopping := true }).state.books = p.books := by
    unfold closeChannel
    split <;> rfl
  unfold stop Outcome.andThen
  split
  · exact hclose
  · exact hclose

theorem counted_publishMessage (p : Publisher) (hc : Counted p) :
    Counted (publishMessage p).state := by
  unfold publishMessage
  split
  · exact hc
  · obtain ⟨⟨hpublished, hdeliveries, htotal, hacked, hnacked⟩, hpast⟩ := hc
    refine ⟨⟨?_, ?_, ?_, hacked, hnacked⟩, ?_⟩
    · change p.messageNumber + 1 = p.broker.published + 1
      rw [hpublished]
    · change p.deliveries ++ [p.messageNumber + 1] = p.broker.publish.outstanding
      rw [Confirms.outstanding_publish p.broker hpast, hdeliveries, hpublished]
    · change p.acked + p.nacked + (p.deliveries ++ [p.messageNumber + 1]).length = p.messageNumber + 1
      simp only [List.length_append, List.length_singleton]
      omega
    · intro tag hm
      exact Nat.le_succ_of_le (hpast tag hm)

theorem counted_run (p : Publisher) (hc : Counted p) : Counted (run p).state := by
  unfold run
  split
  · exact counted_of_books hc rfl
  · exact counted_of_books counted_start rfl

-- The confirm of one outstanding tag.
theorem counted_confirm (p : Publisher) (hc : Counted p) (kind : Confirmation) (tag : Nat)
    (hm : tag ∈ p.broker.outstanding) :
    Counted (onDeliveryConfirmation kind tag { p with broker := p.broker.cover [tag] kind }).state := by
  obtain ⟨⟨hpublished, hdeliveries, htotal, hacked, hnacked⟩, hpast⟩ := hc
  have hdelivered : tag ∈ p.deliveries := by rwa [hdeliveries]
  have hlength : (p.deliveries.erase tag).length + 1 = p.deliveries.length := by
    have := List.length_pos_of_mem hdelivered
    rw [List.length_erase_of_mem hdelivered]
    omega
  have hpast' : ∀ other ∈ (p.broker.cover [tag] kind).covered,
      other ≤ (p.broker.cover [tag] kind).published := by
    intro other ho
    rw [Confirms.published_cover]
    rcases (p.broker.mem_covered_cover [tag] kind other).mp ho with ho | ho
    · exact hpast other ho
    · rw [List.mem_singleton.mp ho]
      exact ((p.broker.mem_outstanding tag).mp hm).1.2
  have hout := p.broker.outstanding_cover_self tag kind
  cases kind with
  | ack =>
      simp only [onDeliveryConfirmation, hdelivered, if_true, Outcome.done_state]
      refine ⟨⟨hpublished, ?_, ?_, ?_, hnacked⟩, hpast'⟩
      · simp only [hdeliveries, hout]
      · simp only
        omega
      · simp [Confirms.cover, hacked]
  | nack =>
      simp only [onDeliveryConfirmation, hdelivered, if_true, Outcome.done_state]
      refine ⟨⟨hpublished, ?_, ?_, hacked, ?_⟩, hpast'⟩
      · simp only [hdeliveries, hout]
      · simp only
        omega
      · simp [Confirms.cover, hnacked]

theorem counted_callback (settings : Settings) (p : Publisher) (hc : Counted p) (label : Label)
    (result : Result) (hown : coversOwnTag p label = true)
    (h : callback settings p label = some result) : Counted result.state := by
  cases label with
  | reply request =>
      obtain ⟨answered, -, rfl⟩ := Option.map_eq_some_iff.mp h
      exact counted_of_books hc (books_onReply settings request _)
  | channelClosed =>
      obtain ⟨-, rfl⟩ := guarded_eq_some h
      exact counted_of_books hc (books_onChannelClosed _)
  | connectionClosed channelFirst =>
      obtain ⟨-, rfl⟩ := callback_connectionClosed h
      exact counted_of_books hc (books_onConnectionClosed _)
  | publishTimer =>
      obtain ⟨-, rfl⟩ := guarded_eq_some h
      exact counted_publishMessage _ (counted_of_books hc rfl)
  | retryTimer =>
      obtain ⟨-, rfl⟩ := guarded_eq_some h
      exact counted_run _ (counted_of_books hc rfl)
  | confirm kind tag multiple =>
      obtain ⟨-, rfl⟩ := guarded_eq_some h
      have hcovers : p.broker.covers tag multiple = [tag] := by simpa [coversOwnTag] using hown
      have hm : tag ∈ p.broker.outstanding := by
        apply p.broker.covers_subset tag multiple
        rw [hcovers]
        exact List.mem_singleton_self tag
      rw [hcovers]
      exact counted_confirm p hc kind tag hm
  | stop =>
      obtain ⟨-, rfl⟩ := unguarded_eq_some h
      exact counted_of_books hc (books_stop p)

-- The callback counts one tag and removes at most its own.
theorem onDeliveryConfirmation_cases (kind : Confirmation) (tag : Nat) (p : Publisher) :
    let after := (onDeliveryConfirmation kind tag p).state
    after.broker = p.broker ∧ after.acked + after.nacked = p.acked + p.nacked + 1 ∧
      (tag ∉ p.deliveries → after.deliveries = p.deliveries) := by
  unfold onDeliveryConfirmation
  cases kind <;> by_cases hm : tag ∈ p.deliveries <;> simp [hm] <;> omega

theorem length_cover (b : Confirms) (tags : List Nat) (kind : Confirmation) :
    (b.cover tags kind).acks.length + (b.cover tags kind).nacks.length =
      b.acks.length + b.nacks.length + tags.length := by
  cases kind <;> simp only [Confirms.cover, List.length_append] <;> omega

-- A confirm that covers other tags than its own spoils the accounting.
theorem confirm_miscounts (p : Publisher) (hc : Counted p) (kind : Confirmation) (tag : Nat)
    (multiple : Bool) (hne : p.broker.covers tag multiple ≠ [tag]) :
    ¬Accounting (finish (onDeliveryConfirmation kind tag
      { p with broker := p.broker.cover (p.broker.covers tag multiple) kind })) := by
  intro ha
  obtain ⟨hbroker, hcount, hkept⟩ := onDeliveryConfirmation_cases kind tag
    { p with broker := p.broker.cover (p.broker.covers tag multiple) kind }
  obtain ⟨-, hdeliveries, -, hacked, hnacked⟩ := ha
  simp only [finish, hbroker] at hdeliveries hacked hnacked hcount
  have hlength := length_cover p.broker (p.broker.covers tag multiple) kind
  obtain ⟨⟨-, hout, -, hacks, hnacks⟩, -⟩ := hc
  have hone : (p.broker.covers tag multiple).length = 1 := by omega
  obtain ⟨other, hother⟩ := List.length_eq_one_iff.mp hone
  have hmem : other ∈ p.broker.outstanding := by
    apply p.broker.covers_subset tag multiple
    rw [hother]
    exact List.mem_singleton_self other
  by_cases hm : tag ∈ p.broker.outstanding
  · have hself := p.broker.mem_covers_self tag multiple hm
    rw [hother, List.mem_singleton] at hself
    rw [hother, hself] at hne
    exact hne rfl
  · have hkept' := hkept (by rwa [hout])
    rw [hkept', hout, hother, Confirms.outstanding_cover] at hdeliveries
    rw [hdeliveries] at hmem
    simp at hmem

-- The counters are right in every state of a run exactly when every confirm of
-- the run covers its own tag and no other.
theorem accounting_iff (settings : Settings) (labels : List Label) :
    Along (step settings) Accounting start labels ↔
      Allowed (step settings) (fun p label => coversOwnTag p label = true) start labels := by
  apply along_iff_allowed (fun _ hc => hc.accounting) _ _ labels start counted_start
  · intro p label after hc hown h
    obtain ⟨result, hcall, rfl⟩ := step_eq_some h
    exact counted_of_books (counted_callback settings p hc label result hown hcall) rfl
  · intro p label after hc hown h
    obtain ⟨result, hcall, rfl⟩ := step_eq_some h
    cases label with
    | confirm kind tag multiple =>
        obtain ⟨-, rfl⟩ := guarded_eq_some hcall
        exact confirm_miscounts p hc kind tag multiple (by simpa [coversOwnTag] using hown)
    | _ => exact absurd rfl hown

-- Two messages are confirmed by one ack with the multiple flag.
def multipleAck (settings : Settings) : List Label :=
  [.reply .connectionOpen, .reply .channelOpen,
    .reply (.exchangeDeclare settings.exchangeName settings.exchangeType),
    .reply (.queueDeclare settings.queueName),
    .reply (.queueBind settings.queueName settings.exchangeName settings.routingKey),
    .publishTimer, .publishTimer, .confirm .ack 2 true]

def miscounted : Publisher where
  client := { connection := .opened, channel := .opened, requests := [], held := true }
  stopping := false
  deliveries := [1]
  acked := 1
  nacked := 0
  messageNumber := 2
  publishTimers := 1
  retryTimers := 0
  running := true
  crashed := none
  broker := { published := 2, acks := [1, 2], nacks := [] }

theorem multiple_ack_miscounted :
    Machine.run (step defaultSettings) start (multipleAck defaultSettings) = some miscounted ∧
      ¬Along (step defaultSettings) Accounting start (multipleAck defaultSettings) := by
  have hrun : Machine.run (step defaultSettings) start (multipleAck defaultSettings) =
      some miscounted := by
    decide
  refine ⟨hrun, ?_⟩
  intro h
  have hacked := (h.last hrun).acked
  cases hacked

end MesosPoc.Booting.Publisher
