import MesosPoc.Watch
import MesosPoc.Python.Theorems

namespace MesosPoc.Watch

open Python Loop

section Body

variable {σ : Type} (deliver : σ → Str → σ)

theorem read_one (stream : Str) : read stream 1 = (stream.take 1, stream.drop 1) := by
  simp [read]

theorem read_nat (stream : Str) (n : Nat) : read stream n = (stream.take n, stream.drop n) := by
  have hn : ¬((n : Int) < 0) := by omega
  simp only [read, hn, ite_false, Int.toNat_natCast]

-- Between chunks the loop moves one byte from the stream to the buffer.
theorem body_read (buffer stream : Str) (sink : σ) (he : endsWith buffer crlf = false) :
    body deliver ⟨buffer, -1, stream, sink⟩ =
      .ok ⟨buffer ++ stream.take 1, -1, stream.drop 1, sink⟩ := by
  simp only [body, parseSize, he, Bool.false_eq_true, ite_false, Except.map, readNext, ite_true,
    read_one]

-- The framing CRLF of the chunk before is dropped from the buffer.
theorem body_blank (stream : Str) (sink : σ) :
    body deliver ⟨crlf, -1, stream, sink⟩ = body deliver ⟨[], -1, stream, sink⟩ := by
  have hline : rstrip crlf = [] := by decide
  have hblank : endsWith crlf crlf = true := by decide
  have hnil : endsWith [] crlf = false := by decide
  simp only [body, parseSize, hblank, hline, hnil, ite_true, List.length_nil, Nat.lt_irrefl,
    ite_false, Bool.false_eq_true]

-- A size line is decoded and its payload read and delivered in one iteration.
theorem body_chunk (size stream : Str) (sink : σ) (hs : IsHex size) :
    body deliver ⟨size ++ crlf, -1, stream, sink⟩ =
      .ok ⟨[], -1, stream.drop (hexValue size), deliver sink (stream.take (hexValue size))⟩ := by
  have hline : rstrip (size ++ crlf) = size := rstrip_hex_crlf size hs.2
  have hpos : 0 < size.length := List.length_pos_iff.mpr hs.1
  have hflag : ((hexValue size : Int) = -1) = False := by
    apply eq_false
    omega
  simp only [body, parseSize, endsWith_crlf_append, ite_true, hline, hpos, int16_hex size hs,
    Except.map, readNext, hflag, ite_false, read_nat]

-- The bytes of a line are read one an iteration.
theorem iterate_line (text : Str) (last : Char) (buffer rest : Str) (sink : σ)
    (hb : '\n' ∉ buffer) (ht : '\n' ∉ text) :
    iterate (body deliver) (text.length + 1) ⟨buffer, -1, text ++ last :: rest, sink⟩ =
      .ok ⟨buffer ++ text ++ [last], -1, rest, sink⟩ := by
  induction text generalizing buffer with
  | nil =>
      rw [iterate_succ_ok _ _ _ (body_read deliver buffer _ sink
        (endsWith_crlf_of_newline_notMem buffer hb))]
      simp [iterate]
  | cons c text ih =>
      rw [List.length_cons, iterate_succ_ok _ _ _ (body_read deliver buffer _ sink
        (endsWith_crlf_of_newline_notMem buffer hb))]
      simp only [List.mem_cons, not_or] at ht
      obtain ⟨hc, htext⟩ := ht
      have hbuffer : '\n' ∉ buffer ++ [c] := by simp [hb, hc]
      have hnext := ih (buffer ++ [c]) hbuffer htext
      simpa only [List.cons_append, List.take_succ_cons, List.take_zero, List.drop_succ_cons,
        List.drop_zero, List.append_assoc, List.nil_append] using hnext

theorem iterate_blank (count : Nat) (stream : Str) (sink : σ) :
    iterate (body deliver) (count + 1) ⟨crlf, -1, stream, sink⟩ =
      iterate (body deliver) (count + 1) ⟨[], -1, stream, sink⟩ := by
  simp only [iterate, body_blank]

-- Between chunks the loop collects the whole size line of the next one.
theorem iterate_size (chunk : Chunk) (buffer rest : Str) (sink : σ)
    (hb : buffer = [] ∨ buffer = crlf) :
    iterate (body deliver) (chunk.size.length + 2) ⟨buffer, -1, chunk.size ++ crlf ++ rest, sink⟩ =
      .ok ⟨chunk.size ++ crlf, -1, rest, sink⟩ := by
  have hsize : '\n' ∉ chunk.size ++ ['\r'] := by
    simp [newline_notMem_hex chunk.size chunk.hex.2]
  have hline := iterate_line deliver (chunk.size ++ ['\r']) '\n' [] rest sink (by simp) hsize
  have hraw : chunk.size ++ ['\r'] ++ '\n' :: rest = chunk.size ++ crlf ++ rest := by simp [crlf]
  have hbuffer : [] ++ (chunk.size ++ ['\r']) ++ ['\n'] = chunk.size ++ crlf := by simp [crlf]
  rw [hraw, hbuffer, List.length_append] at hline
  rcases hb with rfl | rfl
  · exact hline
  · rw [iterate_blank]
    exact hline

-- From there it passes one whole chunk.
theorem iterate_frame (chunk : Chunk) (buffer rest : Str) (sink : σ)
    (hb : buffer = [] ∨ buffer = crlf) :
    iterate (body deliver) (chunk.size.length + 5) ⟨buffer, -1, chunk.frame ++ rest, sink⟩ =
      .ok ⟨crlf, -1, rest, deliver sink chunk.payload⟩ := by
  have hsize := iterate_size deliver chunk buffer (chunk.payload ++ crlf ++ rest) sink hb
  have hbody := body_chunk deliver chunk.size (chunk.payload ++ crlf ++ rest) sink chunk.hex
  have hend := iterate_line deliver ['\r'] '\n' [] rest (deliver sink chunk.payload)
    (by simp) (by simp)
  have hraw : chunk.frame ++ rest = chunk.size ++ crlf ++ (chunk.payload ++ crlf ++ rest) := by
    simp [Chunk.frame]
  have hcount : chunk.size.length + 5 = chunk.size.length + 2 + (2 + 1) := rfl
  rw [hraw, hcount, iterate_add_ok _ _ _ _ hsize, iterate_succ_ok _ _ _ hbody]
  simp only [chunk.denotes, List.append_assoc, List.take_left, List.drop_left]
  exact hend

-- At the end of the stream an incomplete line stays in the buffer for ever.
theorem body_end (buffer : Str) (sink : σ) (he : endsWith buffer crlf = false) :
    body deliver ⟨buffer, -1, [], sink⟩ = .ok ⟨buffer, -1, [], sink⟩ := by
  rw [body_read deliver buffer [] sink he]
  simp

end Body

end MesosPoc.Watch
