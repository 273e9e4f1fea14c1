import MesosPoc.Booting.WorkQueue.Blocking

namespace MesosPoc.Booting.WorkQueue

open Machine

variable {β : Type} {broker : Broker Message β}

-- A play that raises nothing.
def quietPlay (_ : List Str) : Except PyError Unit := .ok ()

section Steps

variable {s : WorkQueue β} {w : Nat} {k next : Worker}

theorem getElem?_setWorker (hk : s.workers[w]? = some k) : (s.setWorker w next).workers[w]? = some next :=
  List.getElem?_set_self (List.getElem?_eq_some_iff.mp hk).1

-- Every connection can be closed.
theorem all_close (broker : Broker Message β) (s : WorkQueue β) (count : Nat) :
    ∃ events t, run (step broker) s events = some t ∧ t.workers.length = s.workers.length ∧
      t.published = s.published ∧ ∀ w < count, t.linked w = none := by
  induction count with
  | zero => exact ⟨[], s, rfl, rfl, rfl, fun w hw => absurd hw (Nat.not_lt_zero w)⟩
  | succ count ih =>
      obtain ⟨events, t, hrun, hlength, hpublished, hnone⟩ := ih
      cases hlinked : t.linked count with
      | none =>
          refine ⟨events, t, hrun, hlength, hpublished, ?_⟩
          intro w hw
          by_cases heq : w = count
          · rw [heq, hlinked]
          · exact hnone w (by omega)
      | some k =>
          let closed : WorkQueue β :=
            { t with
              broker := broker.close count t.broker
              lost := t.lost ++ k.sent (broker.unacked t.broker count) }.setWorker count
            { k with connected := false, acking := [] }
          have hstep : t.step broker (.close count) = some closed := by simp only [step, hlinked, closed]
          refine ⟨events ++ [.close count], closed, ?_, ?_, hpublished, ?_⟩
          · rw [run_append events _ hrun, run, hstep]
            rfl
          · show (t.workers.set count _).length = s.workers.length
            rw [List.length_set, hlength]
          · intro w hw
            show ((t.workers.set count { k with connected := false, acking := [] })[w]?).filter
              Worker.connected = none
            by_cases heq : count = w
            · rw [List.getElem?_set, if_pos heq]
              split <;> rfl
            · rw [List.getElem?_set_ne heq]
              exact hnone w (by omega)

theorem handle_sound (broker : Broker Message β) {tag : Nat} {message : Message} {rest : List (Nat × Message)}
    (hlive : s.live w = some k) (hinbox : k.inbox = (tag, message) :: rest) (hsound : Sound message.body) :
    s.step broker (.handle w quietPlay) = some
      ({ s with
          handled := s.handled ++ [message]
          lost := s.lost ++ k.unsent [tag] message }.setWorker w { k.send [tag] with inbox := rest }) := by
  have hquiet : ∀ hosts, quietPlay hosts = .ok () := fun _ => rfl
  have hdone := onMessage_sound hquiet ⟨tag, message.body⟩ [] hsound
  rcases onMessage_acknowledges quietPlay ⟨tag, message.body⟩ with ⟨e, hraised, -⟩ | ⟨hraised, -, htags⟩
  · rw [bound_onMessage, hdone] at hraised
    cases hraised
  · simp only [step, hlive, hinbox, hraised, htags]

-- A receiver that is started takes the first message, and has it acknowledged when it is
-- sound.
theorem take_first (hb : broker.Documented) (h : Accounted broker s) (message : Message) (rest : List Message)
    (hready : broker.ready s.broker = message :: rest) :
    ∃ events t, run (step broker) s events = some t ∧ broker.ready t.broker = rest ∧ t.published = s.published ∧
      (∀ other ∈ s.acked, other ∈ t.acked) ∧ (Sound message.body → message ∈ t.acked) := by
  have hnone := h.beyond s.workers.length (Nat.le_refl _)
  obtain ⟨tag, b, hdeliver⟩ := hb.delivers prefetchCount s.workers.length s.broker message rest hready (by
    rw [hnone]
    exact Nat.zero_lt_succ _)
  have hdelivered := hb.delivered _ _ _ _ _ _ hdeliver
  have hrest : broker.ready b = rest := by
    have hfirst := hdelivered.first
    rw [hready] at hfirst
    exact (List.cons.inj hfirst).2.symm
  have hentry : broker.unacked b s.workers.length = [(tag, message)] := by
    rw [hdelivered.entry, hnone, List.nil_append]
  let started : WorkQueue β := { s with workers := s.workers ++ [.start] }
  let taken : WorkQueue β := { started with broker := b }.setWorker s.workers.length ⟨true, true, [], [(tag, message)]⟩
  have hstarted : started.workers[s.workers.length]? = some .start := List.getElem?_concat_length
  have htaken : run (step broker) s [.start, .deliver s.workers.length] = some taken := by
    have hlinked : started.linked s.workers.length = some .start := linked_eq.mpr ⟨hstarted, rfl⟩
    have hdeliver' : broker.deliver prefetchCount s.workers.length started.broker = some (tag, message, b) := hdeliver
    have htake : started.step broker (.deliver s.workers.length) = some taken := by
      simp only [step, hlinked, hdeliver']
      rfl
    rw [run, step, Option.bind_some, run, htake]
    rfl
  by_cases hsound : Sound message.body
  · have hworker : taken.workers[s.workers.length]? = some ⟨true, true, [], [(tag, message)]⟩ :=
      getElem?_setWorker (s := { started with broker := b }) hstarted
    have hhandle := handle_sound broker (live_eq.mpr ⟨hworker, rfl⟩) rfl hsound
    let handled : WorkQueue β :=
      { taken with
        handled := taken.handled ++ [message]
        lost := taken.lost ++ [] }.setWorker s.workers.length ⟨true, true, [tag], []⟩
    have hlinked : handled.linked s.workers.length = some ⟨true, true, [tag], []⟩ :=
      linked_eq.mpr ⟨getElem?_setWorker (s := { taken with
        handled := taken.handled ++ [message]
        lost := taken.lost ++ [] }) hworker, rfl⟩
    have hlookup : (broker.unacked handled.broker s.workers.length).lookup tag = some message := by
      show (broker.unacked b s.workers.length).lookup tag = some message
      rw [hentry, List.lookup_cons_self]
    let confirmed : WorkQueue β :=
      { handled with
        broker := broker.acknowledge s.workers.length tag b
        acked := s.acked ++ [message] }.setWorker s.workers.length ⟨true, true, [tag].erase tag, []⟩
    have hconfirm : handled.step broker (.confirm s.workers.length tag) = some confirmed := by
      have hcontains : [tag].contains tag = true := List.contains_iff_mem.mpr List.mem_cons_self
      simp only [step, hlinked, hcontains, if_true, hlookup]
      rfl
    have hacked := hb.acknowledged s.workers.length tag b (by
      rw [Broker.tags, hentry]
      exact List.mem_cons_self)
    refine ⟨[.start, .deliver s.workers.length] ++
      [.handle s.workers.length quietPlay, .confirm s.workers.length tag], confirmed, ?_, hacked.ready.trans hrest, rfl,
      fun other hm => List.mem_append_left _ hm, fun _ => List.mem_append_right _ List.mem_cons_self⟩
    rw [run_append _ _ htaken, run, hhandle, Option.bind_some, run]
    show (handled.step broker (.confirm s.workers.length tag)).bind _ = _
    rw [hconfirm]
    rfl
  · exact ⟨_, taken, htaken, hrest, rfl, fun other hm => hm, fun hs => absurd hs hsound⟩

theorem take_all (hb : broker.Documented) (past : List Event) (s : WorkQueue β)
    (hrun : run (step broker) (init broker) past = some s) :
    ∃ events t, run (step broker) s events = some t ∧ t.published = s.published ∧ (∀ m ∈ s.acked, m ∈ t.acked) ∧
      ∀ message ∈ broker.ready s.broker, Sound message.body → message ∈ t.acked := by
  induction hready : broker.ready s.broker generalizing past s with
  | nil => exact ⟨[], s, rfl, rfl, fun m hm => hm, List.forall_mem_nil _⟩
  | cons message rest ih =>
      obtain ⟨events, t, htake, hrest, hpublished, hacked, hfirst⟩ :=
        take_first hb (accounted_run hb past hrun) message rest hready
      have hrunt : run (step broker) (init broker) (past ++ events) = some t := by
        rw [run_append past events hrun, htake]
      obtain ⟨more, last, hmore, hpublished', hacked', hall⟩ := ih (past ++ events) t hrunt hrest
      refine ⟨events ++ more, last, by rw [run_append events more htake, hmore], hpublished'.trans hpublished,
        fun m hm => hacked' m (hacked m hm), ?_⟩
      intro other hm hsound
      rcases List.mem_cons.mp hm with rfl | hm
      · exact hacked' other (hfirst hsound)
      · exact hall other hm hsound

end Steps

-- Where more receivers can be started nothing is lost for good: whatever has happened, the
-- run can go on until exactly the sound messages are acknowledged.
theorem drains (broker : Broker Message β) (hb : broker.Documented) (events : List Event) (s : WorkQueue β)
    (hrun : run (step broker) (init broker) events = some s) :
    ∃ more t, run (step broker) s more = some t ∧ t.published = s.published ∧
      ∀ message ∈ t.published, message ∈ t.acked ↔ Sound message.body := by
  obtain ⟨closings, u, hclosings, hlength, hpublished, hnone⟩ := all_close broker s s.workers.length
  have hrunu : run (step broker) (init broker) (events ++ closings) = some u := by
    rw [run_append events closings hrun, hclosings]
  have hu := accounted_run hb (events ++ closings) hrunu
  obtain ⟨more, t, hmore, hpublished', hacked, hall⟩ := take_all hb (events ++ closings) u hrunu
  have ht := accounted_run hb (events ++ closings ++ more) (by rw [run_append _ more hrunu, hmore])
  refine ⟨closings ++ more, t, by rw [run_append closings more hclosings, hmore], hpublished'.trans hpublished, ?_⟩
  intro message hm
  constructor
  · intro hm'
    by_contra hunsound
    exact (ht.unsound hm hunsound).2.1 hm'
  · intro hsound
    rw [hpublished'] at hm
    -- no channel is left, so that the message is acknowledged or ready
    have hheld : ((List.range u.workers.length).flatMap (broker.held u.broker)).count message = 0 := by
      rw [List.count_eq_zero]
      intro hm'
      obtain ⟨w, hw, hheld⟩ := List.mem_flatMap.mp hm'
      obtain ⟨k, hk⟩ : ∃ k, u.workers[w]? = some k := ⟨_, List.getElem?_eq_getElem (List.mem_range.mp hw)⟩
      have hconnected : k.connected = false := by
        rw [← Bool.not_eq_true]
        intro hconnected
        have hlinked := hnone w (by rw [← hlength]; exact List.mem_range.mp hw)
        rw [linked_eq.mpr ⟨hk, hconnected⟩] at hlinked
        cases hlinked
      rw [Broker.held, (hu.workers w k hk).closed hconnected] at hheld
      cases hheld
    have hplaced := hu.placed message
    rw [if_pos hm, copies, Broker.copies, hheld] at hplaced
    by_cases hm' : message ∈ u.acked
    · exact hacked message hm'
    · rw [List.count_eq_zero.mpr hm'] at hplaced
      exact hall message (List.count_pos_iff.mp (by omega)) hsound

-- A receiver has died of the first message, and the second one is still to be handled.

def poisonedEvents : List Event :=
  [.publish plainBody, .publish emptyBody, .start, .deliver 0, .deliver 0, .handle 0 quietPlay]

theorem poisonedEvents_drains :
    ∃ s, run (step Broker.fifo) (init Broker.fifo) poisonedEvents = some s ∧
      ∃ more t, run (step Broker.fifo) s more = some t ∧ t.published = s.published ∧
        ∀ message ∈ t.published, message ∈ t.acked ↔ Sound message.body :=
  ⟨_, rfl, drains Broker.fifo Broker.fifo_documented poisonedEvents _ rfl⟩

end MesosPoc.Booting.WorkQueue
