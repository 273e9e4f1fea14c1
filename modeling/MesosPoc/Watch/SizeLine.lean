import MesosPoc.Watch.Body
import MesosPoc.Python.Literals

namespace MesosPoc.Watch

open Python

-- The chunk-size line of the chunked transfer coding.
def ChunkSizeLine (line : Str) (n : Nat) : Prop :=
  ∃ digits extension, line = digits ++ extension ++ crlf ∧ IsHex digits ∧ hexValue digits = n ∧
    (extension = [] ∨ extension.head? = some ';')

-- What a loop makes of a line between two chunks. A literal gives the length,
-- which is the mode flag when it is -1 and lets the stream be read to its end when
-- it is less.
structure ReadsSizeLine {σ : Type} (loop : State σ → Except PyError (State σ)) (deliver : σ → Str → σ)
    (line stream : Str) (sink : σ) : Prop where
  size : ∀ n, parseSize ⟨line, -1, stream, sink⟩ = .ok ⟨[], n, stream, sink⟩ ↔
    IntLiteral line n ∨ (Blank line ∧ n = -1)
  payload : ∀ n : Nat, IntLiteral line n →
    loop ⟨line, -1, stream, sink⟩ = .ok ⟨[], -1, stream.drop n, deliver sink (stream.take n)⟩
  flag : IntLiteral line (-1) →
    loop ⟨line, -1, stream, sink⟩ = .ok ⟨stream.take 1, -1, stream.drop 1, sink⟩
  negative : ∀ n, IntLiteral line n → n < -1 →
    loop ⟨line, -1, stream, sink⟩ = .ok ⟨[], -1, [], deliver sink stream⟩
  blank : Blank line → loop ⟨line, -1, stream, sink⟩ = .ok ⟨stream.take 1, -1, stream.drop 1, sink⟩
  other : ¬Blank line → (∀ n, ¬IntLiteral line n) →
    loop ⟨line, -1, stream, sink⟩ = .error .valueError

section Line

variable {σ : Type} (deliver : σ → Str → σ)

theorem parseSize_line (line stream : Str) (sink : σ) (he : endsWith line crlf = true) (hb : ¬Blank line) :
    parseSize ⟨line, -1, stream, sink⟩ =
      (int16 line).map fun length => ⟨[], length, stream, sink⟩ := by
  have hpos : 0 < (rstrip line).length := by
    apply List.length_pos_iff.mpr
    intro hnil
    exact hb ((blank_rstrip_iff line).mp hnil)
  simp only [parseSize, he, ite_true, hpos, int16_rstrip]

theorem parseSize_blank (line stream : Str) (sink : σ) (he : endsWith line crlf = true) (hb : Blank line) :
    parseSize ⟨line, -1, stream, sink⟩ = .ok ⟨[], -1, stream, sink⟩ := by
  have hnil : rstrip line = [] := (blank_rstrip_iff line).mpr hb
  simp only [parseSize, he, ite_true, hnil, List.length_nil, Nat.lt_irrefl, ite_false]

theorem parseSize_literal (line stream : Str) (sink : σ) (n : Int) (he : endsWith line crlf = true)
    (h : IntLiteral line n) : parseSize ⟨line, -1, stream, sink⟩ = .ok ⟨[], n, stream, sink⟩ := by
  rw [parseSize_line line stream sink he h.not_blank, (int16_eq_ok_iff line n).mpr h]
  rfl

theorem parseSize_ok_iff (line stream : Str) (sink : σ) (n : Int) (he : endsWith line crlf = true) :
    parseSize ⟨line, -1, stream, sink⟩ = .ok ⟨[], n, stream, sink⟩ ↔
      IntLiteral line n ∨ (Blank line ∧ n = -1) := by
  constructor
  · intro h
    by_cases hb : Blank line
    · rw [parseSize_blank line stream sink he hb] at h
      have hn := congrArg State.length (Except.ok.inj h)
      exact Or.inr ⟨hb, hn.symm⟩
    · rw [parseSize_line line stream sink he hb] at h
      cases hint : int16 line with
      | error e =>
          rw [hint] at h
          cases h
      | ok length =>
          rw [hint] at h
          have hn : length = n := congrArg State.length (Except.ok.inj h)
          exact Or.inl ((int16_eq_ok_iff line n).mp (hn ▸ hint))
  · rintro (h | ⟨hb, rfl⟩)
    · exact parseSize_literal line stream sink n he h
    · exact parseSize_blank line stream sink he hb

theorem readNext_flag (stream : Str) (sink : σ) :
    readNext deliver ⟨[], -1, stream, sink⟩ = ⟨stream.take 1, -1, stream.drop 1, sink⟩ := by
  simp only [readNext, ite_true, read_one, List.nil_append]

theorem body_readsSizeLine (line stream : Str) (sink : σ) (he : endsWith line crlf = true) :
    ReadsSizeLine (body deliver) deliver line stream sink where
  size n := parseSize_ok_iff line stream sink n he
  payload n h := by
    have hflag : ¬((n : Int) = -1) := by omega
    rw [body, parseSize_literal line stream sink n he h]
    simp only [Except.map, readNext, if_neg hflag, read_nat]
  flag h := by
    rw [body, parseSize_literal line stream sink (-1) he h, Except.map, readNext_flag]
  negative n h hn := by
    have hflag : ¬(n = -1) := by omega
    have hread : n < 0 := by omega
    rw [body, parseSize_literal line stream sink n he h]
    simp only [Except.map, readNext, if_neg hflag, read, if_pos hread]
  blank hb := by
    rw [body, parseSize_blank line stream sink he hb, Except.map, readNext_flag]
  other hb h := by
    rw [body, parseSize_line line stream sink he hb]
    cases hint : int16 line with
    | error e =>
        rw [int16_error line e hint]
        rfl
    | ok n => exact absurd ((int16_eq_ok_iff line n).mp hint) (h n)

end Line

-- Both watch loops read the size with int(s, 16), for every line that comes
-- between two chunks.
theorem watch_loops_read_size (text stream : Str) :
    (∀ queue, ReadsSizeLine watchEvents (fun queue event => queue ++ [event]) (text ++ crlf) stream queue) ∧
      ∀ timers, ReadsSizeLine main (fun timers _ => LoadBalancer.restartTimer timers) (text ++ crlf)
        stream timers := by
  have he := endsWith_crlf_append text
  constructor
  · intro queue
    exact body_readsSizeLine _ (text ++ crlf) stream queue he
  · intro timers
    exact body_readsSizeLine _ (text ++ crlf) stream timers he

theorem hex_of_chunkSizeLine (line : Str) (n : Nat) (h : ChunkSizeLine line n) :
    ∃ c, line.head? = some c ∧ (hexDigit c).isSome := by
  obtain ⟨digits, extension, rfl, hd, -, -⟩ := h
  cases digits with
  | nil => exact absurd rfl hd.1
  | cons c rest => exact ⟨c, rfl, hd.2 c List.mem_cons_self⟩

-- A sign makes the size negative and the rest of the stream one payload, and an
-- extension, which the coding allows, makes the loop raise.
theorem signed_size_read :
    watchEvents ⟨"-5\r\n".toList, -1, "abc".toList, []⟩ = .ok ⟨[], -1, [], ["abc".toList]⟩ ∧
      (∀ n, ¬ChunkSizeLine "-5\r\n".toList n) ∧
      watchEvents ⟨"3;x\r\n".toList, -1, "abc".toList, []⟩ = .error .valueError ∧
      ChunkSizeLine "3;x\r\n".toList 3 := by
  refine ⟨rfl, ?_, rfl, ⟨['3'], [';', 'x'], rfl, by decide, rfl, Or.inr rfl⟩⟩
  intro n h
  obtain ⟨c, hc, hx⟩ := hex_of_chunkSizeLine _ n h
  obtain rfl : '-' = c := Option.some.inj hc
  exact absurd hx (by decide)

end MesosPoc.Watch
