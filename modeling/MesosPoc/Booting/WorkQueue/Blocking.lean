import MesosPoc.Booting.WorkQueue.Accounting

namespace MesosPoc.Booting.WorkQueue

open Machine

variable {β : Type}

-- A receiver is started only when no other one has a connection.
def Alone (s : WorkQueue β) (event : Event) : Prop :=
  event = .start → ∀ w, s.linked w = none

-- With one receiver at a time the messages keep their order.
structure Ordered (broker : Broker Message β) (s : WorkQueue β) : Prop where
  line : ∀ w, (broker.held s.broker w ++ broker.ready s.broker).Pairwise fun m m' => m.number < m'.number
  alone : ∀ w w', (s.linked w).isSome → (s.linked w').isSome → w = w'

section Steps

variable {broker : Broker Message β} {s t : WorkQueue β} {event : Event} {w : Nat} {k next : Worker}

theorem published_of_broker (h : Accounted broker s) {message : Message}
    (hm : message ∈ broker.held s.broker w ++ broker.ready s.broker) : message ∈ s.published := by
  have hplaced := h.placed message
  by_contra hno
  rw [if_neg hno, copies, Broker.copies] at hplaced
  rcases List.mem_append.mp hm with hm | hm
  · have hlt : w < s.workers.length := by
      by_contra hge
      rw [Broker.held, h.beyond w (by omega)] at hm
      cases hm
    have hle := Broker.count_channels_le (broker.held s.broker) hlt message
    have hpos := List.count_pos_iff.mpr hm
    omega
  · have hpos := List.count_pos_iff.mpr hm
    omega

theorem lt_of_published (h : Accounted broker s) {message : Message} (hm : message ∈ s.published) :
    message.number < s.published.length := by
  obtain ⟨i, hi⟩ := List.getElem?_of_mem hm
  rw [h.numbered i message hi]
  exact (List.getElem?_eq_some_iff.mp hi).1

theorem linked_set (hk : s.workers[w]? = some k) (hworkers : t.workers = s.workers.set w next)
    (hconnected : next.connected = true → k.connected = true) (w' : Nat) (hlinked : (t.linked w').isSome) :
    (s.linked w').isSome := by
  obtain ⟨k', hk'⟩ := Option.isSome_iff_exists.mp hlinked
  obtain ⟨hget, hconnected'⟩ := linked_eq.mp hk'
  rw [hworkers, List.getElem?_set] at hget
  by_cases hw : w = w'
  · subst hw
    rw [if_pos rfl, if_pos (List.getElem?_eq_some_iff.mp hk).1] at hget
    obtain rfl := Option.some.inj hget
    rw [linked_eq.mpr ⟨hk, hconnected hconnected'⟩]
    rfl
  · rw [if_neg hw] at hget
    rw [linked_eq.mpr ⟨hget, hconnected'⟩]
    rfl

-- A step of one process, after which the broker has no message that is out of its place.
theorem Ordered.of_set (h : Ordered broker s) (hk : s.workers[w]? = some k)
    (hworkers : t.workers = s.workers.set w next) (hconnected : next.connected = true → k.connected = true)
    (hline : ∀ w', ∃ old, (broker.held t.broker w' ++ broker.ready t.broker).Sublist
      (broker.held s.broker old ++ broker.ready s.broker)) : Ordered broker t where
  line := by
    intro w'
    obtain ⟨old, hsub⟩ := hline w'
    exact (h.line old).sublist hsub
  alone := fun w₁ w₂ h₁ h₂ =>
    h.alone w₁ w₂ (linked_set hk hworkers hconnected w₁ h₁) (linked_set hk hworkers hconnected w₂ h₂)

theorem ordered_init (hb : broker.Documented) : Ordered broker (init broker) := by
  refine ⟨?_, ?_⟩
  · intro w
    have hheld : broker.held (init broker).broker w = [] := by
      rw [Broker.held, show broker.unacked (init broker).broker w = [] from hb.empty_unacked w, List.map_nil]
    rw [hheld, show broker.ready (init broker).broker = [] from hb.empty_ready]
    exact List.Pairwise.nil
  · intro w w' hw
    cases hw

theorem Ordered.publish (hb : broker.Documented) (h : Ordered broker s) (ha : Accounted broker s) (body : Str) :
    Ordered broker
      { s with
        broker := broker.publish ⟨s.published.length, body⟩ s.broker
        published := s.published ++ [⟨s.published.length, body⟩] } where
  line := by
    intro w
    have hheld : broker.held (broker.publish ⟨s.published.length, body⟩ s.broker) w = broker.held s.broker w := by
      rw [Broker.held, hb.published_unacked, Broker.held]
    rw [hheld, hb.published, ← List.append_assoc]
    refine List.pairwise_append.mpr ⟨h.line w, List.pairwise_singleton _ _, ?_⟩
    intro message hm last hlast
    rw [List.mem_singleton.mp hlast]
    exact lt_of_published ha (published_of_broker ha hm)
  alone := h.alone

theorem Ordered.start (h : Ordered broker s) (halone : ∀ w, s.linked w = none) :
    Ordered broker { s with workers := s.workers ++ [.start] } where
  line := h.line
  alone := by
    have hlast (w : Nat) (hlinked : (({ s with workers := s.workers ++ [Worker.start] } : WorkQueue β).linked w).isSome) :
        w = s.workers.length := by
      obtain ⟨k, hk⟩ := Option.isSome_iff_exists.mp hlinked
      obtain ⟨hget, hconnected⟩ := linked_eq.mp hk
      rcases Nat.lt_or_ge w s.workers.length with hlt | hge
      · rw [List.getElem?_append_left hlt] at hget
        have hnone := halone w
        rw [linked_eq.mpr ⟨hget, hconnected⟩] at hnone
        cases hnone
      · have hlt := (List.getElem?_eq_some_iff.mp hget).1
        simp only [List.length_append, List.length_singleton] at hlt
        omega
    intro w w' hw hw'
    rw [hlast w hw, hlast w' hw']

theorem Ordered.close (hb : broker.Documented) (h : Ordered broker s) (ha : Accounted broker s)
    (hk : s.workers[w]? = some k) (hconnected : k.connected = true) (lost : List Message) :
    Ordered broker
      ({ s with
          broker := broker.close w s.broker
          lost := lost }.setWorker w { k with connected := false, acking := [] }) := by
  have hclosed := hb.closed w s.broker
  have hother (w' : Nat) (hne : w' ≠ w) : broker.unacked s.broker w' = [] := by
    rcases Nat.lt_or_ge w' s.workers.length with hlt | hge
    · obtain ⟨k', hk'⟩ : ∃ k', s.workers[w']? = some k' := ⟨_, List.getElem?_eq_getElem hlt⟩
      refine (ha.workers w' k' hk').closed ?_
      rw [← Bool.not_eq_true]
      intro hconnected'
      apply hne
      apply h.alone
      · rw [linked_eq.mpr ⟨hk', hconnected'⟩]
        rfl
      · rw [linked_eq.mpr ⟨hk, hconnected⟩]
        rfl
    · exact ha.beyond w' hge
  refine h.of_set hk rfl (fun hlinked => by cases hlinked) ?_
  intro w'
  have hheld : broker.held (broker.close w s.broker) w' = [] := by
    by_cases hw : w' = w
    · rw [hw, Broker.held, hclosed.entry, List.map_nil]
    · rw [Broker.held, hclosed.apart w' hw, hother w' hw, List.map_nil]
  refine ⟨w, ?_⟩
  show (broker.held (broker.close w s.broker) w' ++ broker.ready (broker.close w s.broker)).Sublist _
  rw [hheld, hclosed.inPlace hother, List.nil_append]

theorem Ordered.same (h : Ordered broker s) (hk : s.workers[w]? = some k) (hbroker : t.broker = s.broker)
    (hworkers : t.workers = s.workers.set w next) (hconnected : next.connected = k.connected) : Ordered broker t := by
  refine h.of_set hk hworkers (fun hnext => by rw [← hconnected, hnext]) ?_
  intro w'
  rw [hbroker]
  exact ⟨w', List.Sublist.refl _⟩

theorem send_connected (tags : List Nat) (k : Worker) : (k.send tags).connected = k.connected := by
  unfold Worker.send
  split <;> rfl

theorem ordered_step (hb : broker.Documented) (h : Ordered broker s) (ha : Accounted broker s)
    (halone : Alone s event) (hstep : s.step broker event = some t) : Ordered broker t := by
  cases moves_of_step hstep with
  | published body => exact h.publish hb ha body
  | started => exact h.start (halone rfl)
  | delivered w tag message b k hk hconnected hdeliver =>
      have hdelivered := hb.delivered _ _ _ _ _ _ hdeliver
      refine h.of_set hk rfl (fun _ => hconnected) ?_
      intro w'
      refine ⟨w', ?_⟩
      show (broker.held b w' ++ broker.ready b).Sublist _
      rw [hdelivered.first]
      by_cases hw : w' = w
      · rw [hw, Broker.held, hdelivered.entry, List.map_append, List.map_singleton, List.append_assoc,
          List.singleton_append, Broker.held]
      · rw [Broker.held, hdelivered.apart w' hw, Broker.held]
        exact (List.sublist_cons_self _ _).append_left _
  | finished w tag play message rest k hk halive hinbox hsound =>
      exact h.same hk rfl rfl (send_connected [tag] k)
  | raised w play k hk halive => exact h.same hk rfl rfl rfl
  | confirmed w tag message k hk hconnected hacking hentry =>
      have hacked := hb.acknowledged w tag s.broker (List.mem_map.mpr ⟨_, hentry, rfl⟩)
      refine h.of_set hk rfl (fun _ => hconnected) ?_
      intro w'
      refine ⟨w', ?_⟩
      show (broker.held (broker.acknowledge w tag s.broker) w' ++
        broker.ready (broker.acknowledge w tag s.broker)).Sublist _
      rw [hacked.ready]
      apply List.Sublist.append_right
      by_cases hw : w' = w
      · rw [hw, Broker.held, hacked.entry]
        exact List.filter_sublist.map Prod.snd
      · rw [Broker.held, hacked.apart w' hw, Broker.held]
  | died w k hk halive => exact h.same hk rfl rfl rfl
  | closed w k hk hconnected => exact h.close hb ha hk hconnected _

-- No acknowledgement arrives while the oldest message without one is not sound.
theorem acked_step (h : Ordered broker s) (ha : Accounted broker s) {poison : Message}
    (hm : poison ∈ s.published) (hunsound : ¬Sound poison.body)
    (holdest : ∀ message ∈ s.published, message.number < poison.number → message ∈ s.acked)
    (hstep : s.step broker event = some t) : t.acked = s.acked := by
  cases moves_of_step hstep with
  | confirmed w tag message k hk hconnected hacking hentry =>
      exfalso
      obtain ⟨front, hunacked, hfront, hsounds⟩ := (ha.workers w k hk).linked hconnected
      have hheld : message ∈ broker.held s.broker w := List.mem_map.mpr ⟨_, hentry, rfl⟩
      have hpublished := published_of_broker ha (List.mem_append_left (broker.ready s.broker) hheld)
      have holder : ¬message.number < poison.number := by
        intro hlt
        have hplaced := ha.placed message
        have hacked := List.count_pos_iff.mpr (holdest message hpublished hlt)
        have hle := Broker.count_channels_le (broker.held s.broker) (List.getElem?_eq_some_iff.mp hk).1 message
        have hpos := List.count_pos_iff.mpr hheld
        rw [if_pos hpublished, copies, Broker.copies] at hplaced
        omega
      have hline := h.line w
      rw [List.pairwise_append] at hline
      obtain ⟨-, -, hready | ⟨w', k', hlinked, hinbox⟩⟩ := ha.unsound hm hunsound
      · exact holder (hline.2.2 message hheld poison hready)
      · obtain rfl : w' = w := by
          apply h.alone
          · rw [hlinked]
            rfl
          · rw [linked_eq.mpr ⟨hk, hconnected⟩]
            rfl
        obtain rfl : k' = k := Option.some.inj ((linked_eq.mp hlinked).1.symm.trans hk)
        have hmem : (tag, message) ∈ front := by
          have hnodup := ha.tags w'
          rw [Broker.tags, hunacked, List.map_append, List.nodup_append] at hnodup
          rw [hunacked] at hentry
          rcases List.mem_append.mp hentry with hm | hm
          · exact hm
          · exact absurd rfl (hnodup.2.2 tag (hfront ▸ hacking) tag (List.mem_map.mpr ⟨_, hm, rfl⟩))
        have hsorted := hline.1
        rw [Broker.held, hunacked, List.map_append, List.pairwise_append] at hsorted
        exact holder (hsorted.2.2 message (List.mem_map.mpr ⟨_, hmem, rfl⟩) poison hinbox)
  | _ => rfl

theorem published_step (hstep : s.step broker event = some t) : ∃ new, t.published = s.published ++ new := by
  cases moves_of_step hstep with
  | published body => exact ⟨[_], rfl⟩
  | _ => exact ⟨[], (List.append_nil _).symm⟩

theorem mem_of_older (ha : Accounted broker s) (hnext : Accounted broker t) {new : List Message}
    (hpublished : t.published = s.published ++ new) {message last : Message} (hlast : last ∈ s.published)
    (hm : message ∈ t.published) (hlt : message.number < last.number) : message ∈ s.published := by
  obtain ⟨i, hi⟩ := List.getElem?_of_mem hm
  have hnumber := hnext.numbered i message hi
  have hlength := lt_of_published ha hlast
  rw [hpublished, List.getElem?_append_left (by omega)] at hi
  exact List.mem_of_getElem? hi

theorem ordered_run (hb : broker.Documented) (events : List Event) (h : Ordered broker s) (ha : Accounted broker s)
    (halone : Allowed (step broker) Alone s events) (hrun : run (step broker) s events = some t) :
    Ordered broker t ∧ Accounted broker t :=
  (reaches_of_run events hrun halone).invariant (fun s => Ordered broker s ∧ Accounted broker s) ⟨h, ha⟩
    fun _ _ _ h hevent hs => ⟨ordered_step hb h.1 h.2 hevent hs, accounted_step hb h.2 hs⟩

end Steps

-- With one receiver at a time a message that is not sound blocks the queue: once all older
-- ones are acknowledged, no acknowledgement ever arrives again, however often a receiver is
-- started.
theorem poison_blocks (broker : Broker Message β) (hb : broker.Documented) (events more : List Event)
    (s t : WorkQueue β) (hrun : run (step broker) (init broker) events = some s)
    (halone : Allowed (step broker) Alone (init broker) events) (hmore : run (step broker) s more = some t)
    (halone' : Allowed (step broker) Alone s more) (poison : Message) (hm : poison ∈ s.published)
    (hunsound : ¬Sound poison.body)
    (holdest : ∀ message ∈ s.published, message.number < poison.number → message ∈ s.acked) :
    t.acked = s.acked := by
  obtain ⟨h, ha⟩ := ordered_run hb events (ordered_init hb) (accounted_init hb) halone hrun
  clear hrun halone
  induction more generalizing s with
  | nil =>
      obtain rfl : s = t := Option.some.inj hmore
      rfl
  | cons event rest ih =>
      obtain ⟨next, hs, hmore⟩ := Option.bind_eq_some_iff.mp hmore
      obtain ⟨hevent, hrest⟩ := halone' next hs
      have hsame := acked_step h ha hm hunsound holdest hs
      have hnext := accounted_step hb ha hs
      obtain ⟨new, hpublished⟩ := published_step hs
      have hm' : poison ∈ next.published := by
        rw [hpublished]
        exact List.mem_append_left new hm
      rw [← hsame] at holdest ⊢
      refine ih next hmore hrest hm' ?_ (ordered_step hb h ha hevent hs) hnext
      exact fun message hmessage hlt => holdest message (mem_of_older ha hnext hpublished hm hmessage hlt) hlt

-- A message that is not JSON. A receiver dies of it, and so will the next one.

def plainBody : Str := "host".toList

def plainPublished : WorkQueue (Broker.Fifo Message) :=
  { init Broker.fifo with
    broker := Broker.fifo.publish ⟨0, plainBody⟩ Broker.fifo.empty
    published := [⟨0, plainBody⟩] }

def dyingReceiver : List Event :=
  [.publish emptyBody, .start, .deliver 0, .deliver 0, .handle 0 fun _ => .ok (), .close 0, .start, .deliver 1]

theorem unsound_plain : ¬Sound plainBody := by
  rintro ⟨pairs, hloads, -⟩
  have hplain : Json.loads plainBody = .error .valueError := loads_plain
  rw [hplain] at hloads
  cases hloads

theorem alone_of_other {s : WorkQueue (Broker.Fifo Message)} {event : Event} (h : event ≠ .start) : Alone s event :=
  fun heq => absurd heq h

theorem dyingReceiver_alone : Allowed (step Broker.fifo) Alone plainPublished dyingReceiver := by
  rintro published ⟨⟩
  refine ⟨alone_of_other nofun, ?_⟩
  rintro started ⟨⟩
  refine ⟨fun _ w => rfl, ?_⟩
  rintro delivered ⟨⟩
  refine ⟨alone_of_other nofun, ?_⟩
  rintro again ⟨⟩
  refine ⟨alone_of_other nofun, ?_⟩
  rintro died ⟨⟩
  refine ⟨alone_of_other nofun, ?_⟩
  rintro closed ⟨⟩
  refine ⟨alone_of_other nofun, ?_⟩
  rintro restarted ⟨⟩
  refine ⟨?_, ?_⟩
  · intro _ w
    cases w <;> rfl
  · rintro last ⟨⟩
    exact ⟨alone_of_other nofun, trivial⟩

theorem dyingReceiver_blocked :
    ∃ t, run (step Broker.fifo) plainPublished dyingReceiver = some t ∧ t.acked = plainPublished.acked := by
  refine ⟨_, rfl, poison_blocks Broker.fifo Broker.fifo_documented [.publish plainBody] dyingReceiver plainPublished
    _ rfl ?_ rfl dyingReceiver_alone ⟨0, plainBody⟩ List.mem_cons_self unsound_plain ?_⟩
  · rintro published ⟨⟩
    exact ⟨alone_of_other nofun, trivial⟩
  · intro message _ hlt
    exact absurd hlt (Nat.not_lt_zero _)

end MesosPoc.Booting.WorkQueue
