import MesosPoc.Performance.Process.Counting
import MesosPoc.Watch.Decoding

namespace MesosPoc.Performance

open Python Loop Watch

def isObject : Json → Bool
  | .obj _ => true
  | _ => false

-- One event of the stream: a JSON object and a newline.
def IsWatchEvent (event : Str) : Prop :=
  ∃ text data, event = text ++ "\n".toList ∧ Json.loads text = .ok data ∧ isObject data = true

-- Some events, and one way to cut their bytes into chunks.
structure Cutting where
  events : List Str
  chunks : List Chunk
  objects : ∀ event ∈ events, IsWatchEvent event
  nonempty : ∀ chunk ∈ chunks, chunk.payload ≠ []
  bytes : (payloads chunks).flatten = events.flatten

-- What watchEvents has queued when it has read all chunks.
def Queues (chunks : List Chunk) (queue : List Str) : Prop :=
  ∃ enough, ∀ count, enough ≤ count →
    ∃ s, iterate watchEvents count (connect (frames chunks) []) = .ok s ∧ s.sink = queue

-- Where the pieces of a text end.
def sizes (pieces : List Str) : List Nat :=
  pieces.map List.length

-- Pieces of one text are the same when they end at the same places.
theorem eq_iff_sizes (pieces others : List Str) (h : pieces.flatten = others.flatten) :
    pieces = others ↔ sizes pieces = sizes others := by
  rw [List.eq_iff_flatten_eq, sizes, sizes]
  exact and_iff_right h

theorem queues_iff (chunks : List Chunk) (queue : List Str) :
    Queues chunks queue ↔ queue = payloads chunks := by
  obtain ⟨-, -, hpayloads⟩ := (watch_loops_decode chunks).1
  constructor
  · rintro ⟨enough, hqueue⟩
    obtain ⟨other, hall⟩ := hpayloads
    obtain ⟨s, hs, hsink⟩ := hqueue (max enough other) (le_max_left enough other)
    obtain ⟨s', hs', hsink'⟩ := hall (max enough other) (le_max_right enough other)
    obtain rfl : s = s' := Except.ok.inj (hs.symm.trans hs')
    exact hsink.symm.trans hsink'
  · rintro rfl
    exact hpayloads

-- Each chunk becomes one item of the queue, whatever part of an event it is.
-- Queues and results therefore agree exactly when the cuts do.
theorem chunks_queued (cut : Cutting) :
    Decodes watchEvents [] (fun passed queue => queue = passed) cut.chunks ∧
      (∀ queue, Queues cut.chunks queue ↔ queue = payloads cut.chunks) ∧
      (Queues cut.chunks cut.events ↔ sizes (payloads cut.chunks) = sizes cut.events) ∧
      ∀ other : Cutting, other.events.flatten = cut.events.flatten →
        ((∃ queue, Queues cut.chunks queue ∧ Queues other.chunks queue) ↔
          sizes (payloads cut.chunks) = sizes (payloads other.chunks)) ∧
        (sizes (payloads cut.chunks) = sizes (payloads other.chunks) →
          ∀ queue queue', Queues cut.chunks queue → Queues other.chunks queue' →
            ∀ checker beginTime target, processEvents checker beginTime target (queue.map some) =
              processEvents checker beginTime target (queue'.map some)) := by
  refine ⟨(watch_loops_decode cut.chunks).1, queues_iff cut.chunks, ?_, ?_⟩
  · rw [queues_iff, ← eq_iff_sizes _ _ cut.bytes]
    exact eq_comm
  · intro other hbytes
    have hflatten : (payloads cut.chunks).flatten = (payloads other.chunks).flatten := by
      rw [cut.bytes, other.bytes, hbytes]
    have hsame := eq_iff_sizes _ _ hflatten
    refine ⟨?_, ?_⟩
    · rw [← hsame]
      constructor
      · rintro ⟨queue, hq, hq'⟩
        exact ((queues_iff _ _).mp hq).symm.trans ((queues_iff _ _).mp hq')
      · intro heq
        exact ⟨payloads cut.chunks, (queues_iff _ _).mpr rfl, (queues_iff _ _).mpr heq⟩
    · intro hsizes queue queue' hq hq' checker beginTime target
      rw [(queues_iff _ _).mp hq, (queues_iff _ _).mp hq', hsame.mpr hsizes]

-- The first hundred bytes of an event and the rest of it.
def firstPart : Chunk where
  size := "64".toList
  payload := podReady.take 100
  hex := by decide
  denotes := by decide +kernel

def lastPart : Chunk where
  size := "A2".toList
  payload := podReady.drop 100
  hex := by decide
  denotes := by decide +kernel

theorem podReady_isWatchEvent : IsWatchEvent podReady := by
  have hloads : holds (Json.loads podReady.dropLast) isObject = true := by decide +kernel
  obtain ⟨data, hdata, hobject⟩ := (holds_iff _ _).mp hloads
  exact ⟨podReady.dropLast, data, by decide +kernel, hdata, hobject⟩

def podReadyCut : Cutting where
  events := [podReady]
  chunks := [firstPart, lastPart]
  objects := by
    intro event hm
    rw [List.mem_singleton.mp hm]
    exact podReady_isWatchEvent
  nonempty := by
    intro chunk hm
    rcases List.mem_cons.mp hm with rfl | hm
    · decide +kernel
    · rw [List.mem_singleton.mp hm]
      decide +kernel
  bytes := by
    simp [payloads, firstPart, lastPart]

-- An event that arrives in two chunks is two items, and the first of them is no
-- JSON text.
theorem cut_event_raises :
    ¬Queues podReadyCut.chunks podReadyCut.events ∧
      Queues podReadyCut.chunks (payloads podReadyCut.chunks) ∧
      processEvents .creation caseBegin 1 ((payloads podReadyCut.chunks).map some) = .raised .valueError ∧
      processEvents .creation caseBegin 1 (podReadyCut.events.map some) =
        .returned (some podStarted) [] := by
  refine ⟨?_, (queues_iff _ _).mpr rfl, by decide +kernel, processEvents_podReady []⟩
  intro h
  have hlength := congrArg List.length ((queues_iff _ _).mp h)
  simp [podReadyCut, payloads] at hlength

end MesosPoc.Performance
