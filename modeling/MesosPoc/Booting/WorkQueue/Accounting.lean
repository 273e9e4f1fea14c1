import MesosPoc.Booting.WorkQueue
import MesosPoc.Booting.Delivery.Poison

namespace MesosPoc.Booting.WorkQueue

open Machine

variable {β : Type} (broker : Broker Message β)

section Moves

-- on_message comes to its end with one acknowledgement, of a body that is sound, or it
-- raises before it has sent any.
theorem onMessage_acknowledges (play : List Str → Except PyError Unit) (delivery : Delivery) :
    (∃ e, (Receiver.onMessage (bound play) delivery []).raised = some e ∧
        acknowledgements (Receiver.onMessage (bound play) delivery []).state = []) ∨
      (Receiver.onMessage (bound play) delivery []).raised = none ∧ Sound delivery.body ∧
        acknowledgements (Receiver.onMessage (bound play) delivery []).state = [delivery.deliveryTag] := by
  rw [bound_onMessage]
  by_cases hsound : Sound delivery.body
  · obtain ⟨host, hmessage, hhost⟩ := (sound_iff delivery.body).mp hsound
    cases host with
    | none =>
        right
        simp only [onMessage, hmessage, Outcome.done_andThen, Outcome.done_raised, Outcome.done_state]
        exact ⟨trivial, hsound, rfl⟩
    | some value =>
        obtain ⟨text, rfl⟩ := hhost value rfl
        cases hplay : play (text.splitOn ',') with
        | error e =>
            left
            simp only [onMessage, hmessage, Ansible.test, Ansible.split, hplay, Outcome.raise_andThen]
            exact ⟨e, rfl, rfl⟩
        | ok done =>
            right
            simp only [onMessage, hmessage, Ansible.test, Ansible.split, hplay, Outcome.done_andThen,
              Outcome.done_raised, Outcome.done_state]
            exact ⟨trivial, hsound, rfl⟩
  · obtain ⟨e, he⟩ := onMessage_unsound play delivery [] hsound
    left
    rw [he]
    exact ⟨e, rfl, rfl⟩

-- All that one step can do.
inductive Moves (s : WorkQueue β) : Event → WorkQueue β → Prop
  | published (body : Str) :
      Moves s (.publish body)
        { s with
          broker := broker.publish ⟨s.published.length, body⟩ s.broker
          published := s.published ++ [⟨s.published.length, body⟩] }
  | started : Moves s .start { s with workers := s.workers ++ [.start] }
  | delivered (w tag : Nat) (message : Message) (next : β) (k : Worker) (hk : s.workers[w]? = some k)
      (hconnected : k.connected = true)
      (hdeliver : broker.deliver prefetchCount w s.broker = some (tag, message, next)) :
      Moves s (.deliver w) ({ s with broker := next }.setWorker w { k with inbox := k.inbox ++ [(tag, message)] })
  | finished (w tag : Nat) (play : List Str → Except PyError Unit) (message : Message) (rest : List (Nat × Message))
      (k : Worker) (hk : s.workers[w]? = some k) (halive : k.alive = true)
      (hinbox : k.inbox = (tag, message) :: rest) (hsound : Sound message.body) :
      Moves s (.handle w play)
        ({ s with
            handled := s.handled ++ [message]
            lost := s.lost ++ k.unsent [tag] message }.setWorker w { k.send [tag] with inbox := rest })
  | raised (w : Nat) (play : List Str → Except PyError Unit) (k : Worker) (hk : s.workers[w]? = some k)
      (halive : k.alive = true) : Moves s (.handle w play) (s.setWorker w { k with alive := false })
  | confirmed (w tag : Nat) (message : Message) (k : Worker) (hk : s.workers[w]? = some k)
      (hconnected : k.connected = true) (hacking : tag ∈ k.acking)
      (hentry : (tag, message) ∈ broker.unacked s.broker w) :
      Moves s (.confirm w tag)
        ({ s with
            broker := broker.acknowledge w tag s.broker
            acked := s.acked ++ [message] }.setWorker w { k with acking := k.acking.erase tag })
  | died (w : Nat) (k : Worker) (hk : s.workers[w]? = some k) (halive : k.alive = true) :
      Moves s (.die w) (s.setWorker w { k with alive := false })
  | closed (w : Nat) (k : Worker) (hk : s.workers[w]? = some k) (hconnected : k.connected = true) :
      Moves s (.close w)
        ({ s with
            broker := broker.close w s.broker
            lost := s.lost ++ k.sent (broker.unacked s.broker w) }.setWorker w
          { k with connected := false, acking := [] })

variable {broker} {s t : WorkQueue β} {event : Event} {w : Nat} {k : Worker}

theorem live_eq : s.live w = some k ↔ s.workers[w]? = some k ∧ k.alive = true :=
  Option.filter_eq_some_iff

theorem linked_eq : s.linked w = some k ↔ s.workers[w]? = some k ∧ k.connected = true :=
  Option.filter_eq_some_iff

theorem mem_of_lookup {α : Type} {entries : List (Nat × α)} {tag : Nat} {value : α}
    (h : entries.lookup tag = some value) : (tag, value) ∈ entries := by
  induction entries with
  | nil => cases h
  | cons entry rest ih =>
      obtain ⟨first, last⟩ := entry
      rw [List.lookup_cons] at h
      by_cases htag : tag = first
      · subst htag
        rw [beq_self_eq_true] at h
        obtain rfl := Option.some.inj h
        exact List.mem_cons_self
      · rw [beq_false_of_ne htag] at h
        exact List.mem_cons_of_mem _ (ih h)

theorem send_nil (k : Worker) : k.send [] = k := by
  unfold Worker.send
  split
  · rw [List.append_nil]
  · rfl

theorem unsent_nil (message : Message) (k : Worker) : k.unsent [] message = [] := by
  unfold Worker.unsent
  split <;> rfl

theorem moves_of_step (h : s.step broker event = some t) : Moves broker s event t := by
  cases event with
  | publish body =>
      obtain rfl := Option.some.inj h
      exact .published body
  | start =>
      obtain rfl := Option.some.inj h
      exact .started
  | deliver w =>
      simp only [step] at h
      split at h
      · rename_i k hlinked
        obtain ⟨hk, hconnected⟩ := linked_eq.mp hlinked
        split at h
        · rename_i tag message next hdeliver
          obtain rfl := Option.some.inj h
          exact .delivered w tag message next k hk hconnected hdeliver
        · cases h
      · cases h
  | handle w play =>
      simp only [step] at h
      split at h
      · rename_i k hlive
        obtain ⟨hk, halive⟩ := live_eq.mp hlive
        split at h
        · rename_i tag message rest hinbox
          rcases onMessage_acknowledges play ⟨tag, message.body⟩ with ⟨e, hraised, htags⟩ | ⟨hraised, hsound, htags⟩
          · simp only [hraised, htags, send_nil, unsent_nil, List.append_nil] at h
            obtain rfl := Option.some.inj h
            exact .raised w play k hk halive
          · simp only [hraised, htags] at h
            obtain rfl := Option.some.inj h
            exact .finished w tag play message rest k hk halive hinbox hsound
        · cases h
      · cases h
  | confirm w tag =>
      simp only [step] at h
      split at h
      · rename_i k hlinked
        obtain ⟨hk, hconnected⟩ := linked_eq.mp hlinked
        split at h
        · rename_i hacking
          split at h
          · rename_i message hlookup
            obtain rfl := Option.some.inj h
            exact .confirmed w tag message k hk hconnected (List.contains_iff_mem.mp hacking) (mem_of_lookup hlookup)
          · cases h
        · cases h
      · cases h
  | die w =>
      obtain ⟨k, hlive, rfl⟩ := Option.map_eq_some_iff.mp h
      obtain ⟨hk, halive⟩ := live_eq.mp hlive
      exact .died w k hk halive
  | close w =>
      simp only [step] at h
      split at h
      · rename_i k hlinked
        obtain ⟨hk, hconnected⟩ := linked_eq.mp hlinked
        obtain rfl := Option.some.inj h
        exact .closed w k hk hconnected
      · cases h

end Moves

section Invariant

-- What the broker has of the messages of a process: first those whose acknowledgement is
-- on its way, which are sound, and then the inbox.
structure Holds (b : β) (w : Nat) (k : Worker) : Prop where
  linked : k.connected = true → ∃ front, broker.unacked b w = front ++ k.inbox ∧ front.map Prod.fst = k.acking ∧
    ∀ entry ∈ front, Sound entry.2.body
  closed : k.connected = false → broker.unacked b w = []

-- The messages of a process with their acknowledgement on its way.
def sentBy (s : WorkQueue β) (w : Nat) : List Message :=
  match s.workers[w]? with
  | some k => k.sent (broker.unacked s.broker w)
  | none => []

def ackingCount (s : WorkQueue β) (message : Message) : Nat :=
  ((List.range s.workers.length).flatMap (sentBy broker s)).count message

def copies (s : WorkQueue β) (message : Message) : Nat :=
  broker.copies s.workers.length s.broker message

-- Every message is in one place: with the broker, on the queue or with one process, or
-- acknowledged. It was handled once for each acknowledgement that is on its way, has
-- arrived, or was lost.
structure Accounted (s : WorkQueue β) : Prop where
  tags : ∀ w, (broker.tags s.broker w).Nodup
  workers : ∀ (w : Nat) (k : Worker), s.workers[w]? = some k → Holds broker s.broker w k
  beyond : ∀ w, s.workers.length ≤ w → broker.unacked s.broker w = []
  numbered : ∀ (i : Nat) (message : Message), s.published[i]? = some message → message.number = i
  placed : ∀ message, copies broker s message + s.acked.count message = if message ∈ s.published then 1 else 0
  done : ∀ message, s.handled.count message =
    ackingCount broker s message + s.acked.count message + s.lost.count message
  prefetch : ∀ w, (broker.unacked s.broker w).length ≤ prefetchCount
  sound : ∀ message ∈ s.handled, Sound message.body

end Invariant

section Steps

variable {broker} {s t : WorkQueue β} {event : Event} {w : Nat} {k next : Worker}

theorem accounted_init (hb : broker.Documented) : Accounted broker (init broker) := by
  have hunacked (w : Nat) : broker.unacked (init broker).broker w = [] := hb.empty_unacked w
  refine ⟨?_, ?_, ?_, ?_, ?_, fun _ => rfl, ?_, List.forall_mem_nil _⟩
  · intro w
    rw [Broker.tags, hunacked]
    exact List.nodup_nil
  · intro w k hk
    cases hk
  · exact fun w _ => hunacked w
  · intro i message h
    cases h
  · intro message
    exact Broker.copies_empty hb message
  · intro w
    rw [hunacked]
    exact Nat.zero_le _

-- The tags of the inbox are not among those being acknowledged.
theorem sent_eq {front inbox : List (Nat × Message)} (hacking : front.map Prod.fst = k.acking)
    (hnodup : ((front ++ inbox).map Prod.fst).Nodup) : k.sent (front ++ inbox) = front.map Prod.snd := by
  rw [List.map_append, List.nodup_append] at hnodup
  have hfront : front.filter (fun entry => k.acking.contains entry.1) = front := by
    apply List.filter_eq_self.mpr
    intro entry hm
    rw [List.contains_iff_mem, ← hacking]
    exact List.mem_map_of_mem hm
  have hinbox : inbox.filter (fun entry => k.acking.contains entry.1) = [] := by
    apply List.filter_eq_nil_iff.mpr
    intro entry hm hacked
    rw [List.contains_iff_mem, ← hacking] at hacked
    exact hnodup.2.2 _ hacked _ (List.mem_map_of_mem hm) rfl
  rw [Worker.sent, List.filter_append, hfront, hinbox, List.append_nil]

theorem holds_linked {b : β} (hconnected : k.connected = true) (front : List (Nat × Message))
    (hunacked : broker.unacked b w = front ++ k.inbox) (hacking : front.map Prod.fst = k.acking)
    (hfront : ∀ entry ∈ front, Sound entry.2.body) : Holds broker b w k where
  linked := fun _ => ⟨front, hunacked, hacking, hfront⟩
  closed := by
    intro hclosed
    rw [hconnected] at hclosed
    cases hclosed

theorem holds_closed {b : β} (hconnected : k.connected = false) (hnone : broker.unacked b w = []) :
    Holds broker b w k where
  linked := by
    intro hlinked
    rw [hconnected] at hlinked
    cases hlinked
  closed := fun _ => hnone

-- What is unacknowledged of a connected process.
theorem Accounted.linked (h : Accounted broker s) (hk : s.workers[w]? = some k) (hconnected : k.connected = true) :
    ∃ front, broker.unacked s.broker w = front ++ k.inbox ∧ front.map Prod.fst = k.acking ∧
      (∀ entry ∈ front, Sound entry.2.body) ∧ k.sent (broker.unacked s.broker w) = front.map Prod.snd := by
  obtain ⟨front, hunacked, hacking, hfront⟩ := (h.workers w k hk).linked hconnected
  refine ⟨front, hunacked, hacking, hfront, ?_⟩
  rw [hunacked]
  exact sent_eq hacking (hunacked ▸ h.tags w)

theorem sentBy_eq (hk : s.workers[w]? = some k) : sentBy broker s w = k.sent (broker.unacked s.broker w) := by
  rw [sentBy, hk]

theorem sentBy_set (hk : s.workers[w]? = some k) (hworkers : t.workers = s.workers.set w next) :
    sentBy broker t w = next.sent (broker.unacked t.broker w) := by
  apply sentBy_eq
  rw [hworkers, List.getElem?_set_self (List.getElem?_eq_some_iff.mp hk).1]

-- A step that concerns one process and its channel.
theorem Accounted.of_set (h : Accounted broker s) (hk : s.workers[w]? = some k)
    (hworkers : t.workers = s.workers.set w next) (hpublished : t.published = s.published)
    (hapart : broker.Apart w s.broker t.broker) (htags : (broker.tags t.broker w).Nodup)
    (hholds : Holds broker t.broker w next)
    (hplaced : ∀ message, broker.copies s.workers.length t.broker message + t.acked.count message =
      broker.copies s.workers.length s.broker message + s.acked.count message)
    (hdone : ∀ message,
      t.handled.count message + (k.sent (broker.unacked s.broker w)).count message + s.acked.count message +
          s.lost.count message =
        s.handled.count message + (next.sent (broker.unacked t.broker w)).count message + t.acked.count message +
          t.lost.count message)
    (hprefetch : (broker.unacked t.broker w).length ≤ prefetchCount)
    (hsound : ∀ message ∈ t.handled, Sound message.body) : Accounted broker t := by
  have hlt : w < s.workers.length := (List.getElem?_eq_some_iff.mp hk).1
  have hlength : t.workers.length = s.workers.length := by rw [hworkers, List.length_set]
  have hother (other : Nat) (hne : other ≠ w) : t.workers[other]? = s.workers[other]? := by
    rw [hworkers, List.getElem?_set_ne (Ne.symm hne)]
  refine ⟨?_, ?_, ?_, ?_, ?_, ?_, ?_, hsound⟩
  · intro other
    by_cases hw : other = w
    · rw [hw]
      exact htags
    · rw [Broker.tags, hapart other hw]
      exact h.tags other
  · intro other k' hk'
    by_cases hw : other = w
    · subst hw
      rw [hworkers, List.getElem?_set_self hlt] at hk'
      obtain rfl := Option.some.inj hk'
      exact hholds
    · rw [hother other hw] at hk'
      obtain ⟨hlinked, hclosed⟩ := h.workers other k' hk'
      rw [← hapart other hw] at hlinked hclosed
      exact ⟨hlinked, hclosed⟩
  · intro other hle
    rw [hlength] at hle
    rw [hapart other (by omega)]
    exact h.beyond other hle
  · rw [hpublished]
    exact h.numbered
  · intro message
    rw [copies, hlength, hplaced, hpublished]
    exact h.placed message
  · intro message
    have hsame (other : Nat) (hne : other ≠ w) : sentBy broker t other = sentBy broker s other := by
      rw [sentBy, sentBy, hother other hne, hapart other hne]
    have hcount := Broker.count_channels hsame s.workers.length hlt message
    have hbefore := h.done message
    have hone := hdone message
    rw [sentBy_eq hk, sentBy_set hk hworkers] at hcount
    rw [ackingCount] at hbefore ⊢
    rw [hlength]
    omega
  · intro other
    by_cases hw : other = w
    · rw [hw]
      exact hprefetch
    · rw [hapart other hw]
      exact h.prefetch other

-- A step that the broker has no part in.
theorem Accounted.of_same (h : Accounted broker s) (hk : s.workers[w]? = some k)
    (hbroker : t.broker = s.broker) (hworkers : t.workers = s.workers.set w next)
    (hpublished : t.published = s.published) (hacked : t.acked = s.acked) (hholds : Holds broker s.broker w next)
    (hdone : ∀ message,
      t.handled.count message + (k.sent (broker.unacked s.broker w)).count message + s.lost.count message =
        s.handled.count message + (next.sent (broker.unacked s.broker w)).count message + t.lost.count message)
    (hsound : ∀ message ∈ t.handled, Sound message.body) : Accounted broker t := by
  refine h.of_set hk hworkers hpublished ?_ ?_ ?_ ?_ ?_ ?_ hsound
  · intro other _
    rw [hbroker]
  · rw [hbroker]
    exact h.tags w
  · rw [hbroker]
    exact hholds
  · intro message
    rw [hbroker, hacked]
  · intro message
    have hone := hdone message
    rw [hbroker, hacked]
    omega
  · rw [hbroker]
    exact h.prefetch w

theorem Accounted.publish (hb : broker.Documented) (h : Accounted broker s) (body : Str) :
    Accounted broker
      { s with
        broker := broker.publish ⟨s.published.length, body⟩ s.broker
        published := s.published ++ [⟨s.published.length, body⟩] } := by
  have hunacked (w : Nat) : broker.unacked (broker.publish ⟨s.published.length, body⟩ s.broker) w =
      broker.unacked s.broker w := hb.published_unacked _ s.broker w
  refine ⟨?_, ?_, ?_, ?_, ?_, ?_, ?_, h.sound⟩
  · intro w
    rw [Broker.tags, hunacked]
    exact h.tags w
  · intro w k hk
    obtain ⟨hlinked, hclosed⟩ := h.workers w k hk
    rw [← hunacked] at hlinked hclosed
    exact ⟨hlinked, hclosed⟩
  · intro w hle
    rw [hunacked]
    exact h.beyond w hle
  · intro i message hget
    rcases Nat.lt_or_ge i s.published.length with hlt | hge
    · rw [List.getElem?_append_left hlt] at hget
      exact h.numbered i message hget
    · rw [List.getElem?_append_right hge, List.getElem?_singleton] at hget
      split at hget
      · obtain rfl := Option.some.inj hget
        show s.published.length = i
        omega
      · cases hget
  · intro message
    have hbefore := h.placed message
    show broker.copies s.workers.length (broker.publish ⟨s.published.length, body⟩ s.broker) message +
      s.acked.count message = _
    rw [copies] at hbefore
    rw [Broker.copies_publish hb, List.count_singleton]
    by_cases hnew : message = ⟨s.published.length, body⟩
    · have hnot : message ∉ s.published := by
        intro hm
        obtain ⟨i, hi⟩ := List.getElem?_of_mem hm
        have hlt := (List.getElem?_eq_some_iff.mp hi).1
        have hnumber := h.numbered i message hi
        rw [hnew] at hnumber
        simp only at hnumber
        omega
      rw [if_neg hnot] at hbefore
      rw [if_pos (by rw [hnew]; exact beq_self_eq_true _), if_pos (by rw [hnew]; exact List.mem_concat_self)]
      omega
    · have hiff : message ∈ s.published ++ [⟨s.published.length, body⟩] ↔ message ∈ s.published := by
        simp [hnew]
      rw [if_neg (by simpa using Ne.symm hnew), if_congr hiff rfl rfl]
      exact hbefore
  · intro message
    have hsent : sentBy broker
        { s with
          broker := broker.publish ⟨s.published.length, body⟩ s.broker
          published := s.published ++ [⟨s.published.length, body⟩] } = sentBy broker s := by
      funext w
      simp only [sentBy, hunacked]
    rw [ackingCount, hsent]
    exact h.done message
  · intro w
    rw [hunacked]
    exact h.prefetch w

theorem Accounted.start (h : Accounted broker s) : Accounted broker { s with workers := s.workers ++ [.start] } := by
  have hlength : (s.workers ++ [Worker.start]).length = s.workers.length + 1 := by
    rw [List.length_append, List.length_singleton]
  have hnone := h.beyond s.workers.length (Nat.le_refl _)
  refine ⟨h.tags, ?_, ?_, h.numbered, ?_, ?_, h.prefetch, h.sound⟩
  · intro w k hk
    rcases Nat.lt_or_ge w s.workers.length with hlt | hge
    · rw [List.getElem?_append_left hlt] at hk
      exact h.workers w k hk
    · have hlast : w = s.workers.length := by
        have hlt := (List.getElem?_eq_some_iff.mp hk).1
        simp only [hlength] at hlt
        omega
      subst hlast
      rw [List.getElem?_concat_length] at hk
      obtain rfl := Option.some.inj hk
      exact ⟨fun _ => ⟨[], hnone, rfl, List.forall_mem_nil _⟩, fun hconnected => by cases hconnected⟩
  · intro w hle
    simp only [hlength] at hle
    exact h.beyond w (by omega)
  · intro message
    have hbefore := h.placed message
    have hheld : broker.held s.broker s.workers.length = [] := by rw [Broker.held, hnone, List.map_nil]
    rw [copies, Broker.copies] at hbefore ⊢
    rw [hlength, List.range_succ, List.flatMap_append, List.flatMap_singleton, hheld, List.append_nil]
    exact hbefore
  · intro message
    have hbefore := h.done message
    have hsent : (List.range s.workers.length).flatMap
        (sentBy broker { s with workers := s.workers ++ [Worker.start] }) =
        (List.range s.workers.length).flatMap (sentBy broker s) := by
      apply List.flatMap_congr
      intro w hm
      simp only [sentBy, List.getElem?_append_left (List.mem_range.mp hm)]
    have hlast : sentBy broker { s with workers := s.workers ++ [Worker.start] } s.workers.length = [] := by
      simp only [sentBy, List.getElem?_concat_length, hnone]
      rfl
    rw [ackingCount] at hbefore ⊢
    rw [hlength, List.range_succ, List.flatMap_append, List.flatMap_singleton, hsent, hlast, List.append_nil]
    exact hbefore

theorem Accounted.deliver (hb : broker.Documented) (h : Accounted broker s) (hk : s.workers[w]? = some k)
    (hconnected : k.connected = true) {tag : Nat} {message : Message} {b : β}
    (hdeliver : broker.deliver prefetchCount w s.broker = some (tag, message, b)) :
    Accounted broker ({ s with broker := b }.setWorker w { k with inbox := k.inbox ++ [(tag, message)] }) := by
  have hdelivered := hb.delivered _ _ _ _ _ _ hdeliver
  obtain ⟨front, hunacked, hacking, hfront, hbefore⟩ := h.linked hk hconnected
  have hentries : broker.unacked b w = front ++ (k.inbox ++ [(tag, message)]) := by
    rw [hdelivered.entry, hunacked, List.append_assoc]
  have htags : (broker.tags b w).Nodup := by
    rw [Broker.tags, hdelivered.entry, List.map_append, List.map_singleton]
    refine List.nodup_append.mpr ⟨h.tags w, List.nodup_singleton tag, ?_⟩
    intro other hother new hnew heq
    obtain rfl : new = tag := List.mem_singleton.mp hnew
    rw [heq] at hother
    exact hdelivered.fresh hother
  refine h.of_set hk rfl rfl hdelivered.apart htags (holds_linked hconnected front hentries hacking hfront) ?_ ?_ ?_
    h.sound
  · intro other
    rw [← hdelivered.copies (List.getElem?_eq_some_iff.mp hk).1]
    rfl
  · intro other
    have hafter : ({ k with inbox := k.inbox ++ [(tag, message)] } : Worker).sent (broker.unacked b w) =
        front.map Prod.snd := by
      rw [hentries]
      exact sent_eq hacking (hentries ▸ htags)
    rw [hbefore]
    show _ = s.handled.count other + (({ k with inbox := k.inbox ++ [(tag, message)] } : Worker).sent
      (broker.unacked b w)).count other + s.acked.count other + s.lost.count other
    rw [hafter]
    rfl
  · have hroom := hdelivered.room
    show (broker.unacked b w).length ≤ prefetchCount
    rw [hdelivered.entry, List.length_append, List.length_singleton]
    rcases hroom with hzero | hroom
    · cases hzero
    · omega

theorem Accounted.finish (h : Accounted broker s) (hk : s.workers[w]? = some k) {tag : Nat} {message : Message}
    {rest : List (Nat × Message)} (hinbox : k.inbox = (tag, message) :: rest) (hsound : Sound message.body) :
    Accounted broker
      ({ s with
          handled := s.handled ++ [message]
          lost := s.lost ++ k.unsent [tag] message }.setWorker w { k.send [tag] with inbox := rest }) := by
  have hhandled := List.forall_mem_append.mpr ⟨h.sound, List.forall_mem_singleton.mpr hsound⟩
  cases hconnected : k.connected with
  | false =>
      have hnone := (h.workers w k hk).closed hconnected
      have hsend : k.send [tag] = k := by rw [Worker.send, hconnected, if_neg Bool.false_ne_true]
      have hunsent : k.unsent [tag] message = [message] := by
        rw [Worker.unsent, hconnected, if_neg Bool.false_ne_true, List.map_singleton]
      rw [hsend, hunsent]
      refine h.of_same hk rfl rfl rfl rfl (holds_closed hconnected hnone) ?_ hhandled
      intro other
      show (s.handled ++ [message]).count other + (k.sent (broker.unacked s.broker w)).count other +
          s.lost.count other =
        s.handled.count other + (({ k with inbox := rest } : Worker).sent (broker.unacked s.broker w)).count other +
          (s.lost ++ [message]).count other
      simp only [Worker.sent, hnone, List.count_append, List.filter_nil, List.map_nil, List.count_nil]
      omega
  | true =>
      obtain ⟨front, hunacked, hacking, hfront, hbefore⟩ := h.linked hk hconnected
      have hsend : k.send [tag] = { k with acking := k.acking ++ [tag] } := by
        rw [Worker.send, hconnected, if_pos rfl]
      have hunsent : k.unsent [tag] message = [] := by rw [Worker.unsent, hconnected, if_pos rfl]
      have hentries : broker.unacked s.broker w = front ++ [(tag, message)] ++ rest := by
        rw [hunacked, hinbox, List.append_assoc, List.singleton_append]
      have hacking' : (front ++ [(tag, message)]).map Prod.fst = k.acking ++ [tag] := by
        rw [List.map_append, hacking, List.map_singleton]
      rw [hsend, hunsent, List.append_nil]
      refine h.of_same hk rfl rfl rfl rfl (holds_linked hconnected _ hentries hacking' ?_) ?_ hhandled
      · exact List.forall_mem_append.mpr ⟨hfront, List.forall_mem_singleton.mpr hsound⟩
      · intro other
        have hafter : ({ k with acking := k.acking ++ [tag], inbox := rest } : Worker).sent
            (broker.unacked s.broker w) = front.map Prod.snd ++ [message] := by
          rw [hentries, sent_eq hacking' (hentries ▸ h.tags w), List.map_append, List.map_singleton]
        show (s.handled ++ [message]).count other + (k.sent (broker.unacked s.broker w)).count other +
            s.lost.count other =
          s.handled.count other + (({ k with acking := k.acking ++ [tag], inbox := rest } : Worker).sent
            (broker.unacked s.broker w)).count other + s.lost.count other
        rw [hbefore, hafter, List.count_append, List.count_append]
        omega

theorem Accounted.die (h : Accounted broker s) (hk : s.workers[w]? = some k) :
    Accounted broker (s.setWorker w { k with alive := false }) :=
  h.of_same hk rfl rfl rfl rfl ⟨(h.workers w k hk).linked, (h.workers w k hk).closed⟩ (fun _ => rfl) h.sound

theorem Accounted.confirm (hb : broker.Documented) (h : Accounted broker s) (hk : s.workers[w]? = some k)
    (hconnected : k.connected = true) {tag : Nat} {message : Message} (htag : tag ∈ k.acking)
    (hentry : (tag, message) ∈ broker.unacked s.broker w) :
    Accounted broker
      ({ s with
          broker := broker.acknowledge w tag s.broker
          acked := s.acked ++ [message] }.setWorker w { k with acking := k.acking.erase tag }) := by
  have hacked := hb.acknowledged w tag s.broker (List.mem_map.mpr ⟨_, hentry, rfl⟩)
  obtain ⟨front, hunacked, hacking, hfront, hbefore⟩ := h.linked hk hconnected
  have hnodup := h.tags w
  rw [Broker.tags, hunacked, List.map_append, List.nodup_append] at hnodup
  obtain ⟨hnodupfront, -, hdisjoint⟩ := hnodup
  have hinbox : k.inbox.filter (fun entry => entry.1 ≠ tag) = k.inbox := by
    apply List.filter_eq_self.mpr
    intro entry hm
    have hne : entry.1 ≠ tag := fun heq => hdisjoint tag (hacking ▸ htag) _ (List.mem_map_of_mem hm) heq.symm
    simpa using hne
  have hentries : broker.unacked (broker.acknowledge w tag s.broker) w =
      front.filter (fun entry => entry.1 ≠ tag) ++ k.inbox := by
    rw [hacked.entry, hunacked, List.filter_append, hinbox]
  have hacking' : (front.filter fun entry => entry.1 ≠ tag).map Prod.fst = k.acking.erase tag := by
    rw [← hacking, hnodupfront.erase_eq_filter, List.filter_map]
    apply congrArg (List.map Prod.fst)
    apply List.filter_congr
    intro entry _
    exact decide_not.trans (congrArg _ (Bool.beq_eq_decide_eq _ _).symm)
  have hmem : (tag, message) ∈ front := by
    rw [hunacked] at hentry
    rcases List.mem_append.mp hentry with hm | hm
    · exact hm
    · exact absurd rfl (hdisjoint tag (hacking ▸ htag) tag (List.mem_map.mpr ⟨_, hm, rfl⟩))
  have htags : (broker.tags (broker.acknowledge w tag s.broker) w).Nodup := by
    rw [Broker.tags, hacked.entry]
    exact (h.tags w).sublist ((List.filter_sublist).map Prod.fst)
  refine h.of_set hk rfl rfl hacked.apart htags (holds_linked hconnected _ hentries hacking' ?_) ?_ ?_ ?_ h.sound
  · exact fun entry hm => hfront entry (List.mem_of_mem_filter hm)
  · intro other
    have hcopies := hacked.copies (h.tags w) hentry (List.getElem?_eq_some_iff.mp hk).1 other
    show broker.copies s.workers.length (broker.acknowledge w tag s.broker) other +
      (s.acked ++ [message]).count other = _
    rw [List.count_append]
    omega
  · intro other
    have hafter : ({ k with acking := k.acking.erase tag } : Worker).sent
        (broker.unacked (broker.acknowledge w tag s.broker) w) =
          (front.filter fun entry => entry.1 ≠ tag).map Prod.snd := by
      rw [hentries]
      exact sent_eq hacking' (hentries ▸ htags)
    have hcount := Broker.count_filter_tag front hnodupfront hmem other
    show s.handled.count other + (k.sent (broker.unacked s.broker w)).count other + s.acked.count other +
        s.lost.count other =
      s.handled.count other + (({ k with acking := k.acking.erase tag } : Worker).sent
        (broker.unacked (broker.acknowledge w tag s.broker) w)).count other + (s.acked ++ [message]).count other +
          s.lost.count other
    rw [hbefore, hafter, List.count_append]
    omega
  · show (broker.unacked (broker.acknowledge w tag s.broker) w).length ≤ prefetchCount
    rw [hacked.entry]
    exact (List.length_filter_le _ _).trans (h.prefetch w)

theorem Accounted.close (hb : broker.Documented) (h : Accounted broker s) (hk : s.workers[w]? = some k) :
    Accounted broker
      ({ s with
          broker := broker.close w s.broker
          lost := s.lost ++ k.sent (broker.unacked s.broker w) }.setWorker w
        { k with connected := false, acking := [] }) := by
  have hclosed := hb.closed w s.broker
  have hnone := hclosed.entry
  refine h.of_set hk rfl rfl hclosed.apart ?_ (holds_closed rfl hnone) ?_ ?_ ?_ h.sound
  · show (broker.tags (broker.close w s.broker) w).Nodup
    rw [Broker.tags, hnone]
    exact List.nodup_nil
  · intro other
    rw [← hclosed.copies (List.getElem?_eq_some_iff.mp hk).1]
    rfl
  · intro other
    show s.handled.count other + (k.sent (broker.unacked s.broker w)).count other + s.acked.count other +
        s.lost.count other =
      s.handled.count other + (({ k with connected := false, acking := [] } : Worker).sent
        (broker.unacked (broker.close w s.broker) w)).count other + s.acked.count other +
          (s.lost ++ k.sent (broker.unacked s.broker w)).count other
    rw [hnone, List.count_append]
    show _ = s.handled.count other + 0 + _ + _
    omega
  · show (broker.unacked (broker.close w s.broker) w).length ≤ prefetchCount
    rw [hnone]
    exact Nat.zero_le _

theorem accounted_step (hb : broker.Documented) (h : Accounted broker s) (hstep : s.step broker event = some t) :
    Accounted broker t := by
  cases moves_of_step hstep with
  | published body => exact h.publish hb body
  | started => exact h.start
  | delivered w tag message next k hk hconnected hdeliver => exact h.deliver hb hk hconnected hdeliver
  | finished w tag play message rest k hk halive hinbox hsound => exact h.finish hk hinbox hsound
  | raised w play k hk halive => exact h.die hk
  | confirmed w tag message k hk hconnected hacking hentry => exact h.confirm hb hk hconnected hacking hentry
  | died w k hk halive => exact h.die hk
  | closed w k hk hconnected => exact h.close hb hk

theorem accounted_run (hb : broker.Documented) (events : List Event)
    (hrun : run (step broker) (init broker) events = some s) : Accounted broker s :=
  (reaches_of_run_any events hrun).invariant (Accounted broker) (accounted_init hb)
    fun _ _ _ h _ hs => accounted_step hb h hs

-- Nothing can be done with a message that is not sound: it stays on the queue or with a
-- process that has not come to its end.
theorem Accounted.unsound (h : Accounted broker s) {message : Message} (hm : message ∈ s.published)
    (hunsound : ¬Sound message.body) :
    message ∉ s.handled ∧ message ∉ s.acked ∧
      (message ∈ broker.ready s.broker ∨
        ∃ (w : Nat) (k : Worker), s.linked w = some k ∧ message ∈ k.inbox.map Prod.snd) := by
  have hhandled : message ∉ s.handled := fun hm => hunsound (h.sound message hm)
  have hdone := h.done message
  rw [List.count_eq_zero.mpr hhandled] at hdone
  have hacked : message ∉ s.acked := by
    rw [← List.count_eq_zero]
    omega
  refine ⟨hhandled, hacked, ?_⟩
  have hplaced := h.placed message
  rw [if_pos hm, List.count_eq_zero.mpr hacked, copies, Broker.copies] at hplaced
  by_cases hready : message ∈ broker.ready s.broker
  · exact Or.inl hready
  · rw [List.count_eq_zero.mpr hready] at hplaced
    have hpos : 0 < ((List.range s.workers.length).flatMap (broker.held s.broker)).count message := by omega
    obtain ⟨w, hw, hheld⟩ := List.mem_flatMap.mp (List.count_pos_iff.mp hpos)
    obtain ⟨k, hk⟩ : ∃ k, s.workers[w]? = some k := ⟨_, List.getElem?_eq_getElem (List.mem_range.mp hw)⟩
    obtain ⟨hlinked, hclosed⟩ := h.workers w k hk
    rw [Broker.held] at hheld
    cases hconnected : k.connected with
    | false =>
        rw [hclosed hconnected] at hheld
        cases hheld
    | true =>
        obtain ⟨front, hunacked, -, hfront⟩ := hlinked hconnected
        refine Or.inr ⟨w, k, linked_eq.mpr ⟨hk, hconnected⟩, ?_⟩
        rw [hunacked, List.map_append] at hheld
        rcases List.mem_append.mp hheld with hm | hm
        · obtain ⟨entry, hentry, rfl⟩ := List.mem_map.mp hm
          exact absurd (hfront entry hentry) hunsound
        · exact hm

end Steps

-- Whatever the order in which messages are published and handed out, processes handle
-- them, acknowledgements arrive, processes start and die, and connections are closed.
theorem work_accounted (hb : broker.Documented) (events : List Event) (s : WorkQueue β)
    (hrun : run (step broker) (init broker) events = some s) :
    (∀ message, copies broker s message + s.acked.count message = if message ∈ s.published then 1 else 0) ∧
      (∀ message, s.handled.count message =
        ackingCount broker s message + s.acked.count message + s.lost.count message) ∧
      (∀ w, (broker.unacked s.broker w).length ≤ prefetchCount) ∧
      ∀ message ∈ s.published, ¬Sound message.body →
        message ∉ s.handled ∧ message ∉ s.acked ∧
          (message ∈ broker.ready s.broker ∨
            ∃ (w : Nat) (k : Worker), s.linked w = some k ∧ message ∈ k.inbox.map Prod.snd) := by
  have h := accounted_run hb events hrun
  exact ⟨h.placed, h.done, h.prefetch, fun message hm hunsound => h.unsound hm hunsound⟩

-- A message that is handled again, after its acknowledgement was lost.

def emptyBody : Str := "\x7b\x7d".toList

def handledTwice : List Event :=
  [.publish emptyBody, .start, .deliver 0, .handle 0 fun _ => .ok (), .die 0, .close 0, .start, .deliver 1,
    .handle 1 fun _ => .ok (), .confirm 1 1]

theorem handledTwice_accounted :
    ∃ s, run (step Broker.fifo) (init Broker.fifo) handledTwice = some s ∧
      s.handled.map Message.number = [0, 0] ∧ s.acked.map Message.number = [0] ∧ s.lost.map Message.number = [0] ∧
      ∀ message, s.handled.count message =
        ackingCount Broker.fifo s message + s.acked.count message + s.lost.count message := by
  refine ⟨_, rfl, rfl, rfl, rfl, ?_⟩
  exact (work_accounted Broker.fifo Broker.fifo_documented handledTwice _ rfl).2.1

end MesosPoc.Booting.WorkQueue
