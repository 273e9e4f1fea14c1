import MesosPoc.Performance.Pipeline.Polls
import MesosPoc.Performance.Case.Closing
import MesosPoc.Watch.Decoding

namespace MesosPoc.Performance

open Watch Loop Machine Python

section Watcher

-- What the loop does with its sink depends on nothing that is in it.
theorem watchEvents_sink (s next : State (List Str)) (h : watchEvents s = .ok next) :
    ∃ queued, next.sink = s.sink ++ queued ∧
      ∀ queue, watchEvents { s with sink := queue } = .ok { next with sink := queue ++ queued } := by
  have hnext : ∀ mid : State (List Str), mid.sink = s.sink →
      readNext (fun queue event => queue ++ [event]) mid = next →
      (∀ queue : List Str, parseSize { s with sink := queue } = .ok { mid with sink := queue }) →
      ∃ queued, next.sink = s.sink ++ queued ∧
        ∀ queue, watchEvents { s with sink := queue } = .ok { next with sink := queue ++ queued } := by
    rintro mid hsink rfl hparsed
    by_cases hlength : mid.length = -1
    · refine ⟨[], ?_, ?_⟩
      · simp only [readNext, if_pos hlength, hsink, List.append_nil]
      · intro queue
        rw [watchEvents, body, hparsed]
        simp only [Except.map, readNext, if_pos hlength, List.append_nil]
    · refine ⟨[(read mid.stream mid.length).1], ?_, ?_⟩
      · simp only [readNext, if_neg hlength, hsink]
      · intro queue
        rw [watchEvents, body, hparsed]
        simp only [Except.map, readNext, if_neg hlength]
  unfold watchEvents body at h
  by_cases hend : endsWith s.buffer crlf = true
  · by_cases hline : 0 < (rstrip s.buffer).length
    · cases hsize : int16 (rstrip s.buffer) with
      | error e =>
          simp only [parseSize, if_pos hend, if_pos hline, hsize, Except.map] at h
          cases h
      | ok length =>
          simp only [parseSize, if_pos hend, if_pos hline, hsize, Except.map] at h
          refine hnext { s with buffer := [], length := length } rfl (Except.ok.inj h) ?_
          intro queue
          simp only [parseSize, if_pos hend, if_pos hline, hsize, Except.map]
    · simp only [parseSize, if_pos hend, if_neg hline, Except.map] at h
      refine hnext { s with buffer := rstrip s.buffer } rfl (Except.ok.inj h) ?_
      intro queue
      simp only [parseSize, if_pos hend, if_neg hline]
  · simp only [parseSize, if_neg hend, Except.map] at h
    refine hnext s rfl (Except.ok.inj h) ?_
    intro queue
    simp only [parseSize, if_neg hend]

-- After some iterations the watcher is where it would be alone, and what it has queued
-- has been polled or is on the queue, in order.
structure InStep (chunks : List Chunk) (count : Nat) (watcher : State (List Str)) (polls : List (Option Str))
    (alone : State (List Str)) : Prop where
  iterated : iterate watchEvents count (connect (frames chunks) []) = .ok alone
  same : watcher = { alone with sink := watcher.sink }
  queued : taken polls ++ watcher.sink = alone.sink

variable {w : World} {urlopen : Str → Except PyError (List Chunk)} {chunks : List Chunk} {count : Nat}
  {watcher alone : State (List Str)} {polls : List (Option Str)} {s t : Pipeline}

theorem inStep_connect (chunks : List Chunk) (polls : List (Option Str)) (hpolls : taken polls = []) :
    InStep chunks 0 (connect (frames chunks) []) polls (connect (frames chunks) []) :=
  ⟨rfl, rfl, by rw [hpolls, List.nil_append]⟩

theorem iterate_decodes (chunks : List Chunk) : Decodes watchEvents [] (fun passed queue => queue = passed) chunks := by
  apply (body_decodes (fun queue event => queue ++ [event]) [] chunks).mono
  intro passed queue h
  rw [h, foldl_append_singleton, List.nil_append]

theorem InStep.starts (h : InStep chunks count watcher polls alone) : alone.sink <+: payloads chunks := by
  obtain ⟨st, passed, hst, ⟨rest, rfl⟩, hsink⟩ := (iterate_decodes chunks).2.1 count
  obtain rfl : st = alone := Except.ok.inj (hst.symm.trans h.iterated)
  rw [hsink, payloads, payloads, List.map_append]
  exact List.prefix_append _ _

theorem InStep.read (h : InStep chunks count watcher polls alone) :
    ∃ after next, watchEvents watcher = .ok after ∧ InStep chunks (count + 1) after polls next := by
  obtain ⟨next, -, hnext, -, -⟩ := (iterate_decodes chunks).2.1 (count + 1)
  have hbody : watchEvents alone = .ok next := by
    rw [iterate_add_ok count 1 _ _ h.iterated] at hnext
    unfold iterate at hnext
    split at hnext
    · rename_i after hafter
      rw [hafter]
      exact hnext
    · cases hnext
  obtain ⟨queued, hsink, hall⟩ := watchEvents_sink alone next hbody
  refine ⟨{ next with sink := watcher.sink ++ queued }, next, ?_, hnext, rfl, ?_⟩
  · rw [h.same]
    exact hall watcher.sink
  · rw [hsink, ← h.queued, List.append_assoc]

theorem taken_snoc (polls : List (Option Str)) (poll : Option Str) :
    taken (polls ++ [poll]) = taken polls ++ poll.toList := by
  rw [taken, List.filterMap_append]
  cases poll <;> rfl

theorem InStep.poll (h : InStep chunks count watcher polls alone) :
    InStep chunks count { watcher with sink := watcher.sink.tail } (polls ++ [watcher.sink.head?]) alone := by
  refine ⟨h.iterated, ?_, ?_⟩
  · rw [h.same]
  · rw [← h.queued, taken_snoc, List.append_assoc]
    cases watcher.sink <;> rfl

-- Where the two threads are: before the stream is open nothing has been polled, and a
-- watcher that is not there has had nothing to deliver.
def Abreast (w : World) (urlopen : Str → Except PyError (List Chunk)) (s : Pipeline) : Prop :=
  match s.watcher with
  | .opening => startsWatcher w = .ok true ∧ taken s.polls = []
  | .reading watcher => ∃ count alone, InStep (response w urlopen) count watcher s.polls alone
  | .dead queue => queue = [] ∧ taken s.polls = [] ∧ response w urlopen = []

theorem abreast_started (w : World) (urlopen : Str → Except PyError (List Chunk)) :
    Abreast w urlopen (started w) := by
  unfold Abreast started
  split
  · rename_i hwatcher
    split at hwatcher
    · rename_i hstarts
      exact ⟨hstarts, rfl⟩
    · cases hwatcher
  · rename_i hwatcher
    split at hwatcher <;> cases hwatcher
  · rename_i queue hwatcher
    split at hwatcher
    · cases hwatcher
    · rename_i hstarts
      obtain rfl := WatchThread.dead.inj hwatcher
      refine ⟨rfl, rfl, ?_⟩
      unfold response
      split
      · rename_i htrue _
        exact absurd htrue hstarts
      · rfl

theorem abreast_connect (urlopen : Str → Except PyError (List Chunk)) (hstarts : startsWatcher w = .ok true)
    (hpolls : taken s.polls = []) (hwatcher : s.watcher = .opening) :
    ∃ t, takeMove w urlopen s .connect = some t ∧ t.watcher ≠ .opening ∧ Abreast w urlopen t := by
  cases hopen : openWatch w urlopen with
  | ok chunks =>
      refine ⟨{ s with watcher := .reading (connect (frames chunks) []) }, ?_, by simp, ?_⟩
      · simp only [takeMove, hwatcher, hopen]
      · have hresponse : response w urlopen = chunks := by simp only [response, hstarts, hopen]
        show ∃ count alone, InStep (response w urlopen) count _ s.polls alone
        rw [hresponse]
        exact ⟨0, _, inStep_connect chunks s.polls hpolls⟩
  | error e =>
      refine ⟨{ s with watcher := .dead [] }, ?_, by simp, rfl, hpolls, ?_⟩
      · simp only [takeMove, hwatcher, hopen]
      · simp only [response, hstarts, hopen]

theorem abreast_step (move : Move) (h : Abreast w urlopen s) (hs : takeMove w urlopen s move = some t) :
    Abreast w urlopen t := by
  cases hwatcher : s.watcher with
  | opening =>
      simp only [Abreast, hwatcher] at h
      cases move with
      | connect =>
          obtain ⟨t', ht', -, habreast⟩ := abreast_connect urlopen h.1 h.2 hwatcher
          obtain rfl := Option.some.inj (hs.symm.trans ht')
          exact habreast
      | read => simp [takeMove, hwatcher] at hs
      | poll =>
          simp only [takeMove, hwatcher] at hs
          obtain ⟨-, rfl⟩ := guarded_eq_some hs
          refine ⟨h.1, ?_⟩
          simp only [taken_snoc, h.2]
          rfl
  | reading watcher =>
      simp only [Abreast, hwatcher] at h
      obtain ⟨count, alone, hinstep⟩ := h
      cases move with
      | connect => simp [takeMove, hwatcher] at hs
      | read =>
          obtain ⟨after, next, hread, hnext⟩ := hinstep.read
          simp only [takeMove, hwatcher, hread, Option.some.injEq] at hs
          subst hs
          exact ⟨count + 1, next, hnext⟩
      | poll =>
          simp only [takeMove, hwatcher] at hs
          obtain ⟨-, rfl⟩ := guarded_eq_some hs
          exact ⟨count, alone, hinstep.poll⟩
  | dead queue =>
      simp only [Abreast, hwatcher] at h
      obtain ⟨rfl, hpolls, hresponse⟩ := h
      cases move with
      | connect => simp [takeMove, hwatcher] at hs
      | read => simp [takeMove, hwatcher] at hs
      | poll =>
          simp only [takeMove, hwatcher] at hs
          obtain ⟨-, rfl⟩ := guarded_eq_some hs
          refine ⟨rfl, ?_, hresponse⟩
          simp only [taken_snoc, hpolls]
          rfl

theorem abreast_run (moves : List Move) (h : Abreast w urlopen s) (hrun : run (takeMove w urlopen) s moves = some t) :
    Abreast w urlopen t :=
  (reaches_of_run_any moves hrun).invariant (Abreast w urlopen) h fun _ move _ h _ hs => abreast_step move h hs

-- Reading on disturbs nothing.
theorem InStep.reading (w : World) (urlopen : Str → Except PyError (List Chunk)) (more : Nat)
    (h : InStep chunks count watcher polls alone) :
    ∃ moves after alone', run (takeMove w urlopen) ⟨.reading watcher, polls⟩ moves = some ⟨.reading after, polls⟩ ∧
      InStep chunks (count + more) after polls alone' := by
  induction more generalizing watcher count alone with
  | zero => exact ⟨[], watcher, alone, rfl, h⟩
  | succ more ih =>
      obtain ⟨after, next, hread, hnext⟩ := h.read
      obtain ⟨moves, last, alone', hrun, hlast⟩ := ih hnext
      refine ⟨.read :: moves, last, alone', ?_, ?_⟩
      · simp only [run, takeMove, hread, Option.bind_some]
        exact hrun
      · rw [Nat.add_right_comm] at hlast
        exact hlast

theorem InStep.mainAfter_payloads (h : InStep chunks count watcher polls alone)
    (outcome : Outcome PyError (List Action)) (hmain : mainAfter w polls = some outcome) :
    mainAfter w ((payloads chunks).map some) = some outcome := by
  obtain ⟨rest, hrest⟩ := h.starts
  rw [← hrest, ← h.queued, List.append_assoc, List.map_append]
  rw [mainAfter_taken] at hmain
  exact mainAfter_append _ _ outcome hmain

-- With all events on the queue main gets as far as it ever will.
theorem InStep.polling (w : World) (urlopen : Str → Except PyError (List Chunk))
    (h : InStep chunks count watcher polls alone) (hall : alone.sink = payloads chunks) :
    ∃ moves t, run (takeMove w urlopen) ⟨.reading watcher, polls⟩ moves = some t ∧
      mainAfter w t.polls = mainAfter w ((payloads chunks).map some) := by
  induction hn : watcher.sink.length generalizing watcher polls with
  | zero =>
      have hnil : watcher.sink = [] := List.length_eq_zero_iff.mp hn
      refine ⟨[], _, rfl, ?_⟩
      rw [mainAfter_taken, ← hall, ← h.queued, hnil, List.append_nil]
  | succ n ih =>
      cases hmain : mainAfter w polls with
      | some outcome => exact ⟨[], _, rfl, by rw [hmain, h.mainAfter_payloads outcome hmain]⟩
      | none =>
          have hstep : takeMove w urlopen ⟨.reading watcher, polls⟩ .poll = some
              ⟨.reading { watcher with sink := watcher.sink.tail }, polls ++ [watcher.sink.head?]⟩ := by
            rw [takeMove, hmain]
            rfl
          have htail : watcher.sink.tail.length = n := by
            rw [List.length_tail, hn]
            rfl
          obtain ⟨moves, t, hrun, hsame⟩ := ih h.poll htail
          exact ⟨.poll :: moves, t, by rw [run, hstep]; exact hrun, hsame⟩

-- Main in a state with no event on its way.
theorem mainAfter_nothing (hpolls : taken polls = []) (hresponse : response w urlopen = []) :
    mainAfter w polls = mainAfter w ((payloads (response w urlopen)).map some) := by
  rw [mainAfter_taken, hpolls, hresponse]
  rfl

theorem Abreast.outcome (h : Abreast w urlopen s) (outcome : Outcome PyError (List Action))
    (hmain : mainAfter w s.polls = some outcome) :
    mainAfter w ((payloads (response w urlopen)).map some) = some outcome := by
  cases hwatcher : s.watcher with
  | opening =>
      simp only [Abreast, hwatcher] at h
      rw [mainAfter_taken, h.2] at hmain
      exact mainAfter_append [] _ outcome hmain
  | reading watcher =>
      simp only [Abreast, hwatcher] at h
      obtain ⟨count, alone, hinstep⟩ := h
      exact hinstep.mainAfter_payloads outcome hmain
  | dead queue =>
      simp only [Abreast, hwatcher] at h
      rw [← mainAfter_nothing h.2.1 h.2.2]
      exact hmain

theorem Abreast.gets_on (h : Abreast w urlopen s) (hopen : s.watcher ≠ .opening) :
    ∃ moves t, run (takeMove w urlopen) s moves = some t ∧
      mainAfter w t.polls = mainAfter w ((payloads (response w urlopen)).map some) := by
  obtain ⟨watcher, polls⟩ := s
  cases watcher with
  | opening => exact absurd rfl hopen
  | reading watcher =>
      obtain ⟨count, alone, hinstep⟩ : ∃ count alone, InStep (response w urlopen) count watcher polls alone := h
      obtain ⟨enough, hall⟩ := (iterate_decodes (response w urlopen)).2.2
      obtain ⟨moves, after, alone', hread, hafter⟩ := hinstep.reading w urlopen enough
      obtain ⟨st, hst, hsink⟩ := hall (count + enough) (Nat.le_add_left enough count)
      obtain rfl : st = alone' := Except.ok.inj (hst.symm.trans hafter.iterated)
      obtain ⟨more, last, hpoll, hsame⟩ := hafter.polling w urlopen hsink
      exact ⟨moves ++ more, last, by rw [run_append moves more hread, hpoll], hsame⟩
  | dead queue =>
      obtain ⟨-, hpolls, hresponse⟩ : queue = [] ∧ taken polls = [] ∧ response w urlopen = [] := h
      exact ⟨[], _, rfl, mainAfter_nothing hpolls hresponse⟩

end Watcher

-- Whatever the interleaving of the two threads, main does what it does when it polls
-- exactly the payloads that the API server sends, in order, and it can always get there. A
-- watcher that main does not start, or that cannot open its stream, delivers none.
theorem main_interleaved (w : World) (urlopen : Str → Except PyError (List Chunk)) (moves : List Move) (s : Pipeline)
    (hrun : run (takeMove w urlopen) (started w) moves = some s) :
    (mainAfter w s.polls = none ∨
        mainAfter w s.polls = mainAfter w ((payloads (response w urlopen)).map some)) ∧
      ∃ more t, run (takeMove w urlopen) s more = some t ∧
        mainAfter w t.polls = mainAfter w ((payloads (response w urlopen)).map some) := by
  have habreast := abreast_run moves (abreast_started w urlopen) hrun
  refine ⟨?_, ?_⟩
  · cases hmain : mainAfter w s.polls with
    | none => exact Or.inl rfl
    | some outcome => exact Or.inr (habreast.outcome outcome hmain).symm
  · by_cases hopening : s.watcher = .opening
    · have hwaiting := habreast
      simp only [Abreast, hopening] at hwaiting
      obtain ⟨opened, hconnect, hne, hnext⟩ := abreast_connect urlopen hwaiting.1 hwaiting.2 hopening
      obtain ⟨more, t, hmore, hsame⟩ := hnext.gets_on hne
      refine ⟨.connect :: more, t, ?_, hsame⟩
      rw [run, hconnect]
      exact hmore
    · exact habreast.gets_on hopening

-- One event in one chunk, and a poll before the watcher has opened its stream.

def podChunk : Chunk where
  size := "106".toList
  payload := podReady
  hex := by decide
  denotes := by decide +kernel

def upnodeUrl : Str := "http://10.0.0.9:8080/api/v1/namespaces/default/pods?watch=true".toList

def oneChunk (url : Str) : Except PyError (List Chunk) :=
  if url = upnodeUrl then .ok [podChunk] else .error (.exception "not found".toList)

theorem upnode_waits : mainAfter (upnodeWorld []) [] = none := by
  have hmain := main_loaded { upnodeWorld [] with polls := [] } upnode upnodeSettings (load_upnode []) rfl
    (settings_upnode []) (by decide)
  exact hmain

theorem upnode_starts : startsWatcher (upnodeWorld []) = .ok true := by
  rw [startsWatcher, load_upnode []]
  rfl

theorem upnode_opens : openWatch (upnodeWorld []) oneChunk = .ok [podChunk] := by
  rw [openWatch, load_upnode []]
  rfl

theorem upnode_interleaved :
    response (upnodeWorld []) oneChunk = [podChunk] ∧
      ∃ s, run (takeMove (upnodeWorld []) oneChunk) (started (upnodeWorld [])) [.poll, .connect, .read] = some s ∧
        (mainAfter (upnodeWorld []) s.polls = none ∨ mainAfter (upnodeWorld []) s.polls =
          mainAfter (upnodeWorld []) ((payloads (response (upnodeWorld []) oneChunk)).map some)) ∧
        ∃ more t, run (takeMove (upnodeWorld []) oneChunk) s more = some t ∧ mainAfter (upnodeWorld []) t.polls =
          mainAfter (upnodeWorld []) ((payloads (response (upnodeWorld []) oneChunk)).map some) := by
  have hresponse : response (upnodeWorld []) oneChunk = [podChunk] := by
    simp only [response, upnode_starts, upnode_opens]
  refine ⟨hresponse, ?_⟩
  obtain ⟨after, -, hread, -⟩ := (inStep_connect [podChunk] [none] rfl).read
  have hstarted : started (upnodeWorld []) = ⟨.opening, []⟩ := by
    simp only [started, upnode_starts]
  have hpoll : takeMove (upnodeWorld []) oneChunk ⟨.opening, []⟩ .poll = some ⟨.opening, [none]⟩ := by
    rw [takeMove, upnode_waits]
    rfl
  have hrun : run (takeMove (upnodeWorld []) oneChunk) (started (upnodeWorld [])) [.poll, .connect, .read] =
      some ⟨.reading after, [none]⟩ := by
    rw [hstarted, run, hpoll]
    simp only [run, Option.bind_some, takeMove, upnode_opens, hread]
  exact ⟨_, hrun, main_interleaved (upnodeWorld []) oneChunk [.poll, .connect, .read] _ hrun⟩

end MesosPoc.Performance
