import MesosPoc.Watch.Decoding

namespace MesosPoc.Watch

open Python Loop

-- The chunk of size zero that ends a chunked body.
def zeroChunk : Chunk where
  size := ['0']
  payload := []
  hex := by decide
  denotes := by decide

-- The payloads that lie whole in the first bytes of the frames of some chunks.
def wholePayloads : List Chunk → Nat → List Str
  | [], _ => []
  | chunk :: chunks, available =>
      if chunk.size.length + crlf.length + chunk.payload.length ≤ available then
        chunk.payload :: wholePayloads chunks (available - chunk.frame.length)
      else []

-- The body of a watch loop has no break and no return, and opens no second
-- stream. Only an exception ends it.
def Leaves {σ : Type} (loop : State σ → Except PyError (State σ)) (start : State σ) : Prop :=
  ∃ count e, iterate loop count start = .error e

-- A loop ends on a stream that stops after a number of bytes, and until then
-- delivers nothing but whole payloads.
def EndsCleanly {σ : Type} (loop : State σ → Except PyError (State σ)) (empty : σ)
    (delivered : List Str → σ → Prop) (chunks : List Chunk) (cut : Nat) : Prop :=
  let start := connect ((frames (chunks ++ [zeroChunk])).take cut) empty
  Leaves loop start ∧
    ∀ count s, iterate loop count start = .ok s →
      ∃ passed, passed <+: wholePayloads chunks cut ∧ delivered passed s.sink

section Deliver

variable {σ : Type} (deliver : σ → Str → σ)

-- The loop stands inside the framing of a stream that may stop anywhere.
def Inside (s : State σ) : Prop :=
  s.length = -1 ∧ ∃ chunks rest, Position chunks s.buffer rest ∧ s.stream <+: rest

theorem body_inside (s : State σ) (h : Inside s) :
    ∃ next, body deliver s = .ok next ∧ Inside next := by
  obtain ⟨buffer, length, stream, sink⟩ := s
  obtain ⟨rfl, chunks, rest, hp, hs⟩ := h
  obtain ⟨next, hbody, hlength, chunks', rest', hp', hs', -⟩ :=
    body_advances deliver chunks buffer stream rest sink hp hs
  exact ⟨next, hbody, hlength, chunks', rest', hp', hs'⟩

theorem connect_inside (chunks : List Chunk) (cut : Nat) (sink : σ) :
    Inside (connect ((frames chunks).take cut) sink) :=
  ⟨rfl, chunks, frames chunks, Position.start chunks, List.take_prefix cut _⟩

-- However the stream ends, the loop is never left.
theorem body_never_leaves (chunks : List Chunk) (cut : Nat) (sink : σ) :
    ¬Leaves (body deliver) (connect ((frames chunks).take cut) sink) := by
  rintro ⟨count, e, he⟩
  obtain ⟨s, hs, -⟩ := iterate_invariant (body_inside deliver) count _ (connect_inside chunks cut sink)
  rw [he] at hs
  cases hs

end Deliver

-- On no stream of chunks, ended by a zero chunk or cut at any byte, does one of
-- the watch loops end.
theorem watch_loops_never_end (chunks : List Chunk) (cut : Nat) :
    ¬EndsCleanly watchEvents [] (fun passed queue => queue = passed) chunks cut ∧
      ¬EndsCleanly main [] (fun passed timers => timers.length = passed.length) chunks cut := by
  constructor
  · rintro ⟨hl, -⟩
    exact body_never_leaves _ _ cut _ hl
  · rintro ⟨hl, -⟩
    exact body_never_leaves _ _ cut _ hl

def helloChunk : Chunk where
  size := ['5']
  payload := "hello".toList
  hex := by decide
  denotes := by decide

-- The stream stops after three bytes of a payload of five.
theorem cut_payload_queued :
    (frames ([helloChunk] ++ [zeroChunk])).take 6 = "5\r\nhel".toList ∧
      iterate watchEvents 4 (connect "5\r\nhel".toList []) = .ok ⟨[], -1, [], ["hel".toList]⟩ ∧
      ¬EndsCleanly watchEvents [] (fun passed queue => queue = passed) [helloChunk] 6 := by
  refine ⟨by decide, rfl, ?_⟩
  rintro ⟨hl, -⟩
  exact body_never_leaves _ _ 6 _ hl

end MesosPoc.Watch
