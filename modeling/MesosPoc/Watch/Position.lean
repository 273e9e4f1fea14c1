import MesosPoc.Watch.Body

namespace MesosPoc.Watch

open Python Loop

-- Where a loop stands in the framing of the chunks it has still to deliver:
-- what its buffer holds and what an uncut stream would still contain.
inductive Position : List Chunk → Str → Str → Prop
  | done : Position [] [] []
  | boundary (chunks : List Chunk) (before after : Str) (h : before ++ after = crlf) :
      Position chunks before (after ++ frames chunks)
  | line (chunk : Chunk) (chunks : List Chunk) (before after : Str)
      (h : before ++ after = chunk.size ++ crlf) :
      Position (chunk :: chunks) before (after ++ (chunk.payload ++ crlf ++ frames chunks))

theorem frames_cons (chunk : Chunk) (chunks : List Chunk) :
    frames (chunk :: chunks) = chunk.size ++ crlf ++ (chunk.payload ++ crlf ++ frames chunks) := by
  simp [frames, Chunk.frame]

theorem Position.start (chunks : List Chunk) : Position chunks [] (frames chunks) := by
  cases chunks with
  | nil => exact .done
  | cons chunk chunks =>
      rw [frames_cons]
      exact .line chunk chunks [] _ rfl

-- A part of a line that lacks its last byte has no newline.
theorem newline_notMem_of_append (text before after : Str) (c : Char) (ht : '\n' ∉ text)
    (h : before ++ c :: after = text ++ crlf) : '\n' ∉ before := by
  have hd := congrArg List.dropLast h
  have hcrlf : (text ++ crlf).dropLast = text ++ ['\r'] := by
    rw [List.dropLast_append_of_ne_nil (by decide)]
    rfl
  rw [List.dropLast_append_of_ne_nil (by simp), hcrlf] at hd
  intro hm
  have hmem : '\n' ∈ text ++ ['\r'] := hd ▸ List.mem_append_left _ hm
  simp [ht] at hmem

section Advance

variable {σ : Type} (deliver : σ → Str → σ)

-- One iteration takes a position to a position. It delivers nothing, or what
-- the stream still has of the payload of the next chunk. From an uncut stream
-- that is the whole payload.
def Advances (chunks : List Chunk) (stream rest : Str) (sink : σ) (next : State σ) : Prop :=
  next.length = -1 ∧ ∃ chunks' rest', Position chunks' next.buffer rest' ∧ next.stream <+: rest' ∧
    (stream = rest → next.stream = rest') ∧
    ((chunks' = chunks ∧ next.sink = sink) ∨
      ∃ chunk, chunks = chunk :: chunks' ∧
        next.sink = deliver sink (stream.take chunk.payload.length) ∧
        (stream = rest → stream.take chunk.payload.length = chunk.payload))

theorem body_advances_byte (chunks : List Chunk) (buffer stream rest : Str) (c : Char) (sink : σ)
    (hb : '\n' ∉ buffer) (hp : Position chunks buffer (c :: rest))
    (hnext : Position chunks (buffer ++ [c]) rest) (hs : stream <+: c :: rest) :
    ∃ next, body deliver ⟨buffer, -1, stream, sink⟩ = .ok next ∧
      Advances deliver chunks stream (c :: rest) sink next := by
  refine ⟨_, body_read deliver buffer stream sink (endsWith_crlf_of_newline_notMem buffer hb), rfl, ?_⟩
  cases stream with
  | nil =>
      refine ⟨chunks, c :: rest, by simpa using hp, List.nil_prefix, ?_, Or.inl ⟨rfl, rfl⟩⟩
      intro h
      simp at h
  | cons d stream =>
      obtain ⟨rfl, htail⟩ := List.cons_prefix_cons.mp hs
      refine ⟨chunks, rest, by simpa using hnext, by simpa using htail, ?_, Or.inl ⟨rfl, rfl⟩⟩
      intro h
      simpa using h

theorem body_advances_chunk (chunk : Chunk) (chunks : List Chunk) (stream : Str) (sink : σ)
    (hs : stream <+: chunk.payload ++ crlf ++ frames chunks) :
    ∃ next, body deliver ⟨chunk.size ++ crlf, -1, stream, sink⟩ = .ok next ∧
      Advances deliver (chunk :: chunks) stream (chunk.payload ++ crlf ++ frames chunks) sink next := by
  refine ⟨_, body_chunk deliver chunk.size stream sink chunk.hex, rfl, chunks, crlf ++ frames chunks,
    .boundary chunks [] crlf rfl, ?_, ?_, Or.inr ⟨chunk, rfl, ?_, ?_⟩⟩
  · have hd := hs.drop chunk.payload.length
    rwa [List.append_assoc, List.drop_left, ← chunk.denotes] at hd
  · rintro rfl
    simp only [chunk.denotes, List.append_assoc, List.drop_left]
  · rw [chunk.denotes]
  · rintro rfl
    simp only [List.append_assoc, List.take_left]

theorem body_advances_start (chunks : List Chunk) (stream : Str) (sink : σ)
    (hs : stream <+: frames chunks) :
    ∃ next, body deliver ⟨[], -1, stream, sink⟩ = .ok next ∧
      Advances deliver chunks stream (frames chunks) sink next := by
  cases chunks with
  | nil =>
      obtain rfl : stream = [] := List.prefix_nil.mp hs
      exact ⟨_, body_end deliver [] sink (by decide), rfl, [], [], .done, List.nil_prefix,
        fun _ => rfl, Or.inl ⟨rfl, rfl⟩⟩
  | cons chunk chunks =>
      have hne : chunk.size ≠ [] := chunk.hex.1
      rw [frames_cons] at hs ⊢
      cases hsize : chunk.size with
      | nil => exact absurd hsize hne
      | cons c digits =>
          rw [hsize] at hs
          refine body_advances_byte deliver (chunk :: chunks) [] stream _ c sink (by simp) ?_ ?_ hs
          · exact Position.line chunk chunks [] (c :: digits ++ crlf) (by rw [hsize]; rfl)
          · exact Position.line chunk chunks [c] (digits ++ crlf) (by rw [hsize]; rfl)

theorem body_advances (chunks : List Chunk) (buffer stream rest : Str) (sink : σ)
    (hp : Position chunks buffer rest) (hs : stream <+: rest) :
    ∃ next, body deliver ⟨buffer, -1, stream, sink⟩ = .ok next ∧
      Advances deliver chunks stream rest sink next := by
  cases hp with
  | done => exact body_advances_start deliver [] stream sink hs
  | boundary chunks before after h =>
      cases after with
      | nil =>
          obtain rfl : buffer = crlf := by simpa using h
          rw [body_blank]
          exact body_advances_start deliver chunks stream sink hs
      | cons c after =>
          have hnext : (buffer ++ [c]) ++ after = crlf := by simpa using h
          exact body_advances_byte deliver chunks buffer stream _ c sink
            (newline_notMem_of_append [] buffer after c (by simp) h)
            (.boundary chunks buffer (c :: after) h) (.boundary chunks _ after hnext) hs
  | line chunk chunks before after h =>
      cases after with
      | nil =>
          obtain rfl : buffer = chunk.size ++ crlf := by simpa using h
          exact body_advances_chunk deliver chunk chunks stream sink hs
      | cons c after =>
          have hnext : (buffer ++ [c]) ++ after = chunk.size ++ crlf := by simpa using h
          exact body_advances_byte deliver (chunk :: chunks) buffer stream _ c sink
            (newline_notMem_of_append chunk.size buffer after c
              (newline_notMem_hex chunk.size chunk.hex.2) h)
            (.line chunk chunks buffer (c :: after) h) (.line chunk chunks _ after hnext) hs

end Advance

end MesosPoc.Watch
