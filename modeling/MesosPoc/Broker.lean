import Mathlib.Data.List.Count
import Mathlib.Data.List.Nodup
import Mathlib.Logic.Function.Basic

namespace MesosPoc

-- A message queue and its channels, which are numbered. deliver hands the next message
-- out to a channel that consumes the queue, with a prefetch count and a delivery tag.
structure Broker (μ β : Type) where
  empty : β
  publish : μ → β → β
  deliver : Nat → Nat → β → Option (Nat × μ × β)
  acknowledge : Nat → Nat → β → β
  close : Nat → β → β
  ready : β → List μ
  unacked : β → Nat → List (Nat × μ)

namespace Broker

section Documented

variable {μ β : Type} (broker : Broker μ β)

-- The delivery tags and the messages that a channel has not acknowledged.

def tags (b : β) (channel : Nat) : List Nat :=
  (broker.unacked b channel).map Prod.fst

def held (b : β) (channel : Nat) : List μ :=
  (broker.unacked b channel).map Prod.snd

def Apart (channel : Nat) (b b' : β) : Prop :=
  ∀ other, other ≠ channel → broker.unacked b' other = broker.unacked b other

-- A prefetch count of 0 is no limit.
structure Delivered (prefetch channel : Nat) (b : β) (tag : Nat) (message : μ) (b' : β) : Prop where
  first : broker.ready b = message :: broker.ready b'
  room : prefetch = 0 ∨ (broker.unacked b channel).length < prefetch
  fresh : tag ∉ broker.tags b channel
  entry : broker.unacked b' channel = broker.unacked b channel ++ [(tag, message)]
  apart : broker.Apart channel b b'

structure Acknowledged (channel tag : Nat) (b b' : β) : Prop where
  ready : broker.ready b' = broker.ready b
  entry : broker.unacked b' channel = (broker.unacked b channel).filter (·.1 ≠ tag)
  apart : broker.Apart channel b b'

-- What was not acknowledged is ready again, in its old place where no other channel has
-- messages of the queue.
structure Closed (channel : Nat) (b b' : β) : Prop where
  returned : (broker.ready b').Perm (broker.held b channel ++ broker.ready b)
  inPlace : (∀ other, other ≠ channel → broker.unacked b other = []) →
    broker.ready b' = broker.held b channel ++ broker.ready b
  entry : broker.unacked b' channel = []
  apart : broker.Apart channel b b'

-- What RabbitMQ documents of a queue, as long as it runs.
structure Documented : Prop where
  empty_ready : broker.ready broker.empty = []
  empty_unacked : ∀ channel, broker.unacked broker.empty channel = []
  published : ∀ message b, broker.ready (broker.publish message b) = broker.ready b ++ [message]
  published_unacked : ∀ message b channel, broker.unacked (broker.publish message b) channel = broker.unacked b channel
  delivered : ∀ prefetch channel b tag message b', broker.deliver prefetch channel b = some (tag, message, b') →
    broker.Delivered prefetch channel b tag message b'
  delivers : ∀ prefetch channel b message rest, broker.ready b = message :: rest →
    (broker.unacked b channel).length < prefetch → ∃ tag b', broker.deliver prefetch channel b = some (tag, message, b')
  acknowledged : ∀ channel tag b, tag ∈ broker.tags b channel →
    broker.Acknowledged channel tag b (broker.acknowledge channel tag b)
  closed : ∀ channel b, broker.Closed channel b (broker.close channel b)

end Documented

section Channels

-- A function of the channels that changes at one of them.
theorem count_channels {α : Type} [DecidableEq α] {f f' : Nat → List α} {channel : Nat}
    (h : ∀ other, other ≠ channel → f' other = f other) (channels : Nat) (hlt : channel < channels) (a : α) :
    ((List.range channels).flatMap f').count a + (f channel).count a =
      ((List.range channels).flatMap f).count a + (f' channel).count a := by
  induction channels with
  | zero => omega
  | succ channels ih =>
      simp only [List.range_succ, List.flatMap_append, List.flatMap_singleton, List.count_append]
      by_cases hlast : channel = channels
      · subst hlast
        have hsame : (List.range channel).flatMap f' = (List.range channel).flatMap f := by
          apply List.flatMap_congr
          intro other hm
          exact h other (Nat.ne_of_lt (List.mem_range.mp hm))
        rw [hsame]
        omega
      · have hrest := ih (by omega)
        rw [h channels (Ne.symm hlast)]
        omega

theorem count_channels_le {α : Type} [DecidableEq α] (f : Nat → List α) {channel channels : Nat}
    (hlt : channel < channels) (a : α) : (f channel).count a ≤ ((List.range channels).flatMap f).count a := by
  have hothers : ∀ other, other ≠ channel → Function.update f channel [] other = f other :=
    fun other hne => Function.update_of_ne hne _ _
  have hcount := count_channels hothers channels hlt a
  rw [Function.update_self, List.count_nil] at hcount
  omega

end Channels

section Copies

variable {μ β : Type} [DecidableEq μ] (broker : Broker μ β)

-- How often the broker has a message.
def copies (channels : Nat) (b : β) (message : μ) : Nat :=
  (broker.ready b).count message + ((List.range channels).flatMap (broker.held b)).count message

variable {broker} {channel channels tag : Nat} {b b' : β}

omit [DecidableEq μ] in
theorem Apart.held (h : broker.Apart channel b b') (other : Nat) (hne : other ≠ channel) :
    broker.held b' other = broker.held b other := by
  rw [Broker.held, Broker.held, h other hne]

theorem copies_empty (h : broker.Documented) (message : μ) : broker.copies channels broker.empty message = 0 := by
  have hheld : broker.held broker.empty = fun _ => [] := by
    funext channel
    rw [held, h.empty_unacked, List.map_nil]
  rw [copies, h.empty_ready, hheld, List.flatMap_eq_nil_iff.mpr (fun _ _ => rfl)]
  rfl

theorem copies_publish (h : broker.Documented) (published message : μ) :
    broker.copies channels (broker.publish published b) message =
      broker.copies channels b message + [published].count message := by
  have hheld : broker.held (broker.publish published b) = broker.held b := by
    funext channel
    rw [held, h.published_unacked, held]
  rw [copies, h.published, hheld, List.count_append, copies]
  omega

theorem Delivered.copies {prefetch : Nat} {delivered : μ} (h : broker.Delivered prefetch channel b tag delivered b')
    (hlt : channel < channels) (message : μ) : broker.copies channels b' message = broker.copies channels b message := by
  have hcount := count_channels h.apart.held channels hlt message
  have hentry : broker.held b' channel = broker.held b channel ++ [delivered] := by
    rw [held, h.entry, List.map_append, List.map_singleton, held]
  rw [hentry, List.count_append] at hcount
  rw [Broker.copies, Broker.copies, h.first, ← List.singleton_append, List.count_append]
  omega

-- The tag stands for one message.
theorem count_filter_tag (entries : List (Nat × μ)) (hnodup : (entries.map Prod.fst).Nodup) {acked : μ}
    (hm : (tag, acked) ∈ entries) (message : μ) :
    ((entries.filter (·.1 ≠ tag)).map Prod.snd).count message + [acked].count message =
      (entries.map Prod.snd).count message := by
  induction entries with
  | nil => exact absurd hm List.not_mem_nil
  | cons entry rest ih =>
      rw [List.map_cons, List.nodup_cons] at hnodup
      obtain ⟨hfirst, hnodup⟩ := hnodup
      rcases List.mem_cons.mp hm with rfl | hm
      · have hrest : rest.filter (·.1 ≠ tag) = rest := by
          apply List.filter_eq_self.mpr
          intro other hother
          have hne : other.1 ≠ tag := fun heq => hfirst (List.mem_map.mpr ⟨other, hother, heq⟩)
          simpa using hne
        rw [List.filter_cons_of_neg (by simp), hrest]
        simp only [List.map_cons, List.count_cons, List.count_nil]
        omega
      · have hne : entry.1 ≠ tag := fun heq => hfirst (List.mem_map.mpr ⟨(tag, acked), hm, heq.symm⟩)
        have hrest := ih hnodup hm
        rw [List.filter_cons_of_pos (by simpa using hne)]
        simp only [List.map_cons, List.count_cons, List.count_nil] at hrest ⊢
        omega

theorem Acknowledged.copies (h : broker.Acknowledged channel tag b b') (hnodup : (broker.tags b channel).Nodup)
    {acked : μ} (hm : (tag, acked) ∈ broker.unacked b channel) (hlt : channel < channels) (message : μ) :
    broker.copies channels b' message + [acked].count message = broker.copies channels b message := by
  have hcount := count_channels h.apart.held channels hlt message
  have hentry := count_filter_tag (broker.unacked b channel) hnodup hm message
  rw [← h.entry] at hentry
  rw [Broker.copies, Broker.copies, h.ready]
  simp only [held] at hcount ⊢
  omega

theorem Closed.copies (h : broker.Closed channel b b') (hlt : channel < channels) (message : μ) :
    broker.copies channels b' message = broker.copies channels b message := by
  have hcount := count_channels h.apart.held channels hlt message
  have hentry : broker.held b' channel = [] := by rw [held, h.entry, List.map_nil]
  rw [hentry, List.count_nil] at hcount
  rw [Broker.copies, Broker.copies, h.returned.count_eq, List.count_append]
  omega

end Copies

section Fifo

variable {μ : Type}

-- A queue that puts what comes back before what is ready, and counts the deliveries of
-- each channel for its tags.
structure Fifo (μ : Type) where
  queue : List μ
  entries : Nat → List (Nat × μ)
  deliveries : Nat → Nat
  numbered : ∀ channel, ∀ entry ∈ entries channel, entry.1 ≤ deliveries channel

namespace Fifo

def hand (channel : Nat) (message : μ) (rest : List μ) (b : Fifo μ) : Fifo μ where
  queue := rest
  entries := Function.update b.entries channel (b.entries channel ++ [(b.deliveries channel + 1, message)])
  deliveries := Function.update b.deliveries channel (b.deliveries channel + 1)
  numbered := by
    intro other entry hm
    by_cases hother : other = channel
    · subst hother
      rw [Function.update_self] at hm ⊢
      rcases List.mem_append.mp hm with hm | hm
      · exact Nat.le_succ_of_le (b.numbered other entry hm)
      · exact Nat.le_of_eq (congrArg Prod.fst (List.mem_singleton.mp hm))
    · rw [Function.update_of_ne hother] at hm ⊢
      exact b.numbered other entry hm

def keep (channel : Nat) (entries : List (Nat × μ)) (queue : List μ) (b : Fifo μ)
    (hsub : entries ⊆ b.entries channel) : Fifo μ where
  queue
  entries := Function.update b.entries channel entries
  deliveries := b.deliveries
  numbered := by
    intro other entry hm
    by_cases hother : other = channel
    · subst hother
      rw [Function.update_self] at hm
      exact b.numbered other entry (hsub hm)
    · rw [Function.update_of_ne hother] at hm
      exact b.numbered other entry hm

end Fifo

def fifo : Broker μ (Fifo μ) where
  empty := ⟨[], fun _ => [], fun _ => 0, fun _ => List.forall_mem_nil _⟩
  publish message b := { b with queue := b.queue ++ [message] }
  deliver prefetch channel b :=
    match b.queue with
    | [] => none
    | message :: rest =>
        if prefetch = 0 ∨ (b.entries channel).length < prefetch then
          some (b.deliveries channel + 1, message, b.hand channel message rest)
        else none
  acknowledge channel tag b :=
    b.keep channel ((b.entries channel).filter (·.1 ≠ tag)) b.queue (List.filter_subset_self _)
  close channel b := b.keep channel [] ((b.entries channel).map Prod.snd ++ b.queue) (List.nil_subset _)
  ready := Fifo.queue
  unacked := Fifo.entries

theorem fifo_documented : (fifo : Broker μ (Fifo μ)).Documented where
  empty_ready := rfl
  empty_unacked := fun _ => rfl
  published := fun _ _ => rfl
  published_unacked := fun _ _ _ => rfl
  delivered := by
    intro prefetch channel b tag message b' h
    simp only [fifo] at h
    split at h
    · cases h
    · rename_i first rest hqueue
      split at h
      · rename_i hroom
        obtain ⟨rfl, rfl, rfl⟩ : b.deliveries channel + 1 = tag ∧ first = message ∧
            b.hand channel first rest = b' := by simpa using h
        refine ⟨hqueue, hroom, ?_, Function.update_self _ _ _, fun other hne => Function.update_of_ne hne _ _⟩
        intro hm
        obtain ⟨entry, hentry, htag⟩ := List.mem_map.mp hm
        have hle := b.numbered channel entry hentry
        omega
      · cases h
  delivers := by
    intro prefetch channel b message rest hqueue hroom
    have hqueue : b.queue = message :: rest := hqueue
    refine ⟨b.deliveries channel + 1, b.hand channel message rest, ?_⟩
    simp only [fifo, hqueue]
    exact if_pos (.inr hroom)
  acknowledged := fun channel tag b _ =>
    ⟨rfl, Function.update_self _ _ _, fun other hne => Function.update_of_ne hne _ _⟩
  closed := fun channel b =>
    ⟨List.Perm.refl _, fun _ => rfl, Function.update_self _ _ _, fun other hne => Function.update_of_ne hne _ _⟩

end Fifo

end Broker

end MesosPoc
