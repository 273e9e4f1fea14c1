import MesosPoc.Watch.Position

namespace MesosPoc.Watch

open Python Loop

-- The loop is between two chunks: flag -1, and at most the framing CRLF of the
-- last chunk in its buffer.
def AtBoundary {σ : Type} (s : State σ) (rest : Str) : Prop :=
  (s.buffer = [] ∨ s.buffer = crlf) ∧ s.length = -1 ∧ s.stream = rest

-- A loop undoes the framing of a sequence of chunks: it comes to a boundary
-- after each prefix of them, has delivered a prefix of the payloads at any time
-- and all of them from some time on.
def Decodes {σ : Type} (loop : State σ → Except PyError (State σ)) (empty : σ)
    (delivered : List Str → σ → Prop) (chunks : List Chunk) : Prop :=
  (∀ passed rest, chunks = passed ++ rest →
    ∃ count s, iterate loop count (connect (frames chunks) empty) = .ok s ∧
      AtBoundary s (frames rest) ∧ delivered (payloads passed) s.sink) ∧
  (∀ count, ∃ s passed, iterate loop count (connect (frames chunks) empty) = .ok s ∧
    passed <+: chunks ∧ delivered (payloads passed) s.sink) ∧
  (∃ enough, ∀ count, enough ≤ count →
    ∃ s, iterate loop count (connect (frames chunks) empty) = .ok s ∧
      delivered (payloads chunks) s.sink)

theorem frames_append (first more : List Chunk) :
    frames (first ++ more) = frames first ++ frames more := by
  simp [frames]

theorem Decodes.mono {σ : Type} {loop : State σ → Except PyError (State σ)} {empty : σ}
    {delivered weaker : List Str → σ → Prop} {chunks : List Chunk}
    (hd : Decodes loop empty delivered chunks)
    (h : ∀ passed sink, delivered passed sink → weaker passed sink) :
    Decodes loop empty weaker chunks := by
  obtain ⟨hboundary, halways, enough, hall⟩ := hd
  refine ⟨?_, ?_, enough, ?_⟩
  · intro passed rest hsplit
    obtain ⟨count, s, hs, hat, hsink⟩ := hboundary passed rest hsplit
    exact ⟨count, s, hs, hat, h _ _ hsink⟩
  · intro count
    obtain ⟨s, passed, hs, hpre, hsink⟩ := halways count
    exact ⟨s, passed, hs, hpre, h _ _ hsink⟩
  · intro count hcount
    obtain ⟨s, hs, hsink⟩ := hall count hcount
    exact ⟨s, hs, h _ _ hsink⟩

section Deliver

variable {σ : Type} (deliver : σ → Str → σ)

theorem iterate_frames (chunks : List Chunk) (buffer rest : Str) (sink : σ)
    (hb : buffer = [] ∨ buffer = crlf) :
    ∃ count s, iterate (body deliver) count ⟨buffer, -1, frames chunks ++ rest, sink⟩ = .ok s ∧
      AtBoundary s rest ∧ s.sink = (payloads chunks).foldl deliver sink := by
  induction chunks generalizing buffer sink with
  | nil => exact ⟨0, _, rfl, ⟨hb, rfl, rfl⟩, rfl⟩
  | cons chunk chunks ih =>
      obtain ⟨count, s, hs, hat, hsink⟩ := ih crlf (deliver sink chunk.payload) (Or.inr rfl)
      have hraw : frames (chunk :: chunks) ++ rest = chunk.frame ++ (frames chunks ++ rest) := by
        simp [frames]
      have hfirst := iterate_frame deliver chunk buffer (frames chunks ++ rest) sink hb
      refine ⟨chunk.size.length + 5 + count, s, ?_, hat, hsink⟩
      rw [hraw, iterate_add_ok _ _ _ _ hfirst]
      exact hs

-- At the end of the stream a loop that is between chunks delivers nothing more.
theorem iterate_at_end (count : Nat) (s : State σ) (hat : AtBoundary s []) :
    ∃ next, iterate (body deliver) count s = .ok next ∧ next.sink = s.sink := by
  obtain ⟨buffer, length, stream, sink⟩ := s
  obtain ⟨hb, rfl, rfl⟩ := hat
  have hfixed := body_end deliver [] sink (by decide)
  cases count with
  | zero => exact ⟨_, rfl, rfl⟩
  | succ count =>
      refine ⟨⟨[], -1, [], sink⟩, ?_, rfl⟩
      rcases hb with rfl | rfl
      · exact iterate_fixed _ _ hfixed
      · rw [iterate_blank]
        exact iterate_fixed _ _ hfixed

-- What a loop has passed and delivered on a stream that is not cut.
def Tracks (chunks : List Chunk) (empty : σ) (s : State σ) : Prop :=
  s.length = -1 ∧ ∃ passed remaining, chunks = passed ++ remaining ∧
    Position remaining s.buffer s.stream ∧ s.sink = (payloads passed).foldl deliver empty

theorem body_tracks (chunks : List Chunk) (empty : σ) (s : State σ)
    (ht : Tracks deliver chunks empty s) :
    ∃ next, body deliver s = .ok next ∧ Tracks deliver chunks empty next := by
  obtain ⟨buffer, length, stream, sink⟩ := s
  obtain ⟨rfl, passed, remaining, hsplit, hp, hsink⟩ := ht
  obtain ⟨next, hbody, hlength, remaining', rest', hp', -, hfull, hdelivered⟩ :=
    body_advances deliver remaining buffer stream stream sink hp (List.prefix_refl stream)
  refine ⟨next, hbody, hlength, ?_⟩
  rw [← hfull rfl] at hp'
  rcases hdelivered with ⟨rfl, hsame⟩ | ⟨chunk, rfl, hone, hwhole⟩
  · exact ⟨passed, remaining', hsplit, hp', hsame.trans hsink⟩
  · refine ⟨passed ++ [chunk], remaining', by simp [hsplit], hp', ?_⟩
    rw [hone, hwhole rfl]
    simp only at hsink
    simp [payloads, hsink]

theorem body_decodes (empty : σ) (chunks : List Chunk) :
    Decodes (body deliver) empty (fun passed sink => sink = passed.foldl deliver empty) chunks := by
  refine ⟨?_, ?_, ?_⟩
  · rintro passed rest rfl
    rw [frames_append]
    exact iterate_frames deliver passed [] (frames rest) empty (Or.inl rfl)
  · intro count
    have hstart : Tracks deliver chunks empty (connect (frames chunks) empty) :=
      ⟨rfl, [], chunks, rfl, Position.start chunks, rfl⟩
    obtain ⟨s, hs, -, passed, remaining, hsplit, -, hsink⟩ :=
      iterate_invariant (body_tracks deliver chunks empty) count _ hstart
    exact ⟨s, passed, hs, ⟨remaining, hsplit.symm⟩, hsink⟩
  · obtain ⟨enough, s, hs, hat, hsink⟩ :=
      iterate_frames deliver chunks [] [] empty (Or.inl rfl)
    refine ⟨enough, ?_⟩
    intro count hcount
    obtain ⟨more, rfl⟩ := Nat.exists_eq_add_of_le hcount
    obtain ⟨next, hnext, hsame⟩ := iterate_at_end deliver more s hat
    refine ⟨next, ?_, hsame.trans hsink⟩
    rw [List.append_nil] at hs
    exact (iterate_add_ok _ _ _ _ hs).trans hnext

end Deliver

theorem foldl_append_singleton (passed queue : List Str) :
    passed.foldl (fun queue event => queue ++ [event]) queue = queue ++ passed := by
  induction passed generalizing queue with
  | nil => simp
  | cons event rest ih => simp [ih]

theorem length_foldl_restartTimer (passed : List Str) (timers : List LoadBalancer.Timer) :
    (passed.foldl (fun timers _ => LoadBalancer.restartTimer timers) timers).length =
      timers.length + passed.length := by
  induction passed generalizing timers with
  | nil => rfl
  | cons event rest ih =>
      rw [List.foldl_cons, ih, LoadBalancer.length_restartTimer, List.length_cons]
      omega

-- Both watch loops undo the chunk framing: watchEvents queues exactly the
-- payloads in order, and main starts one new reload timer for each.
theorem watch_loops_decode (chunks : List Chunk) :
    Decodes watchEvents [] (fun passed queue => queue = passed) chunks ∧
      Decodes main [] (fun passed timers => timers.length = passed.length) chunks := by
  constructor
  · apply (body_decodes (fun queue event => queue ++ [event]) [] chunks).mono
    intro passed queue h
    rw [h, foldl_append_singleton, List.nil_append]
  · apply (body_decodes (fun timers _ => LoadBalancer.restartTimer timers) [] chunks).mono
    intro passed timers h
    rw [h, length_foldl_restartTimer]
    simp

end MesosPoc.Watch
