import MesosPoc.Python

namespace MesosPoc.KeepAlive

-- httplib.HTTPResponse.read: the next bytes of the body, up to the number that was asked
-- for, and none only at its end.
structure RawRead where
  read : Option Nat → Str → Str × Str
  splits : ∀ amt rest, (read amt rest).1 ++ (read amt rest).2 = rest
  bounded : ∀ n rest, (read (some n) rest).1.length ≤ n
  progresses : ∀ n rest, 0 < n → rest ≠ [] → (read (some n) rest).1 ≠ []
  whole : ∀ rest, (read none rest).1 = rest

-- The buffer of an HTTPResponse, and the body that its raw read has not given yet.
structure Reader where
  rbuf : Str
  rest : Str
deriving DecidableEq

def Reader.pending (r : Reader) : Str := r.rbuf ++ r.rest

def rbufsize : Nat := 8096

def find (text : Str) : Option Nat := text.findIdx? fun c => c = '\n'

namespace Reader

variable (raw : RawRead)

def read (amt : Option Nat) (r : Reader) : Str × Reader :=
  match amt with
  | none => (r.rbuf ++ (raw.read none r.rest).1, ⟨[], (raw.read none r.rest).2⟩)
  | some n =>
      if r.rbuf ≠ [] ∧ n ≤ r.rbuf.length then (r.rbuf.take n, { r with rbuf := r.rbuf.drop n })
      else
        let got := raw.read (some (n - r.rbuf.length)) r.rest
        (r.rbuf ++ got.1, ⟨[], got.2⟩)

-- The loop of readline. The index is that of the first newline of the buffer.
def fill (limit : Int) : Nat → Option Nat → Reader → Option Nat × Reader
  | 0, i, r => (i, r)
  | fuel + 1, i, r =>
      if i = none ∧ ¬(0 < limit ∧ limit ≤ r.rbuf.length) then
        let got := raw.read (some rbufsize) r.rest
        if got.1 = [] then (i, { r with rest := got.2 })
        else fill limit fuel ((find got.1).map (· + r.rbuf.length)) ⟨r.rbuf ++ got.1, got.2⟩
      else (i, r)

def lineEnd (rbuf : Str) : Option Nat → Nat
  | none => rbuf.length
  | some i => i + 1

def readline (fuel : Nat) (limit : Int) (r : Reader) : Str × Reader :=
  let filled := fill raw limit fuel (find r.rbuf) r
  let rbuf := filled.2.rbuf
  let i := if 0 ≤ limit ∧ limit < rbuf.length then limit.toNat else lineEnd rbuf filled.1
  (rbuf.take i, { filled.2 with rbuf := rbuf.drop i })

def readlinesFrom (lineFuel : Nat) (sizehint : Int) : Nat → Nat → Reader → List Str × Reader
  | 0, _, r => ([], r)
  | fuel + 1, total, r =>
      let (line, next) := readline raw lineFuel (-1) r
      if line = [] then ([], next)
      else if sizehint ≠ 0 ∧ sizehint ≤ (total + line.length : Nat) then ([line], next)
      else
        let (lines, last) := readlinesFrom lineFuel sizehint fuel (total + line.length) next
        (line :: lines, last)

def readlines (fuel : Nat) (sizehint : Int) (r : Reader) : List Str × Reader :=
  readlinesFrom raw fuel sizehint fuel 0 r

end Reader

inductive Call
  | read (amt : Option Nat)
  | readline (limit : Int)
  | readlines (sizehint : Int)
deriving DecidableEq

def Call.run (raw : RawRead) (fuel : Nat) (r : Reader) : Call → List Str × Reader
  | .read amt => ([(r.read raw amt).1], (r.read raw amt).2)
  | .readline limit => ([(r.readline raw fuel limit).1], (r.readline raw fuel limit).2)
  | .readlines sizehint => r.readlines raw fuel sizehint

def runCalls (raw : RawRead) (fuel : Nat) : Reader → List Call → List (List Str)
  | _, [] => []
  | r, call :: rest => (call.run raw fuel r).1 :: runCalls raw fuel (call.run raw fuel r).2 rest

-- The same methods on a body without a buffer.

def firstLine : Str → Str
  | [] => []
  | c :: rest => if c = '\n' then [c] else c :: firstLine rest

def splitLines : Str → List Str
  | [] => []
  | c :: rest =>
      if c = '\n' then [c] :: splitLines rest
      else
        match splitLines rest with
        | [] => [[c]]
        | line :: lines => (c :: line) :: lines

def upTo (sizehint : Int) : Nat → List Str → List Str
  | _, [] => []
  | total, line :: lines =>
      if sizehint ≠ 0 ∧ sizehint ≤ (total + line.length : Nat) then [line]
      else line :: upTo sizehint (total + line.length) lines

-- A line that is cut at a limit may be longer than a line: the limit counts when more
-- than that is in the buffer, wherever the newline is.
def Call.Fits (text : Str) (out : List Str) : Call → Prop
  | .read none => out = [text]
  | .read (some n) => ∃ part, out = [part] ∧ part <+: text ∧ part.length ≤ n ∧ (part = [] → n = 0 ∨ text = [])
  | .readline limit =>
      if limit < 0 then out = [firstLine text]
      else out = [text.take limit.toNat] ∨ (out = [firstLine text] ∧ (firstLine text).length ≤ limit.toNat)
  | .readlines sizehint => out = upTo sizehint 0 (splitLines text)

-- Each call starts where the one before it has ended.
def Serves : Str → List Call → List (List Str) → Prop
  | _, [], outs => outs = []
  | _, _ :: _, [] => False
  | text, call :: calls, out :: outs =>
      call.Fits text out ∧ out.flatten <+: text ∧ Serves (text.drop out.flatten.length) calls outs

theorem find_append (front more : Str) (h : find front = none) :
    find (front ++ more) = (find more).map (· + front.length) := by
  simp only [find] at h ⊢
  rw [List.findIdx?_append, h]
  rfl

theorem firstLine_of_find (text more : Str) (i : Nat) (h : find text = some i) :
    text.take (i + 1) = firstLine (text ++ more) ∧ i < text.length := by
  induction text generalizing i with
  | nil => cases h
  | cons c rest ih =>
      by_cases hc : c = '\n'
      · have hi : i = 0 := by
          simp only [find, List.findIdx?_cons, hc, decide_true, if_true, Option.some.injEq] at h
          exact h.symm
        subst i
        simp [firstLine, hc]
      · simp only [find, List.findIdx?_cons, hc, decide_false, Bool.false_eq_true, if_false,
          Option.map_eq_some_iff] at h
        obtain ⟨j, hj, rfl⟩ := h
        obtain ⟨hline, hlt⟩ := ih j hj
        refine ⟨?_, Nat.succ_lt_succ hlt⟩
        rw [List.take_succ_cons, hline, List.cons_append, firstLine, if_neg hc]

theorem firstLine_of_find_none (text : Str) (h : find text = none) : firstLine text = text := by
  induction text with
  | nil => rfl
  | cons c rest ih =>
      by_cases hc : c = '\n'
      · simp [find, List.findIdx?_cons, hc] at h
      · simp only [find, List.findIdx?_cons, hc, decide_false, Bool.false_eq_true, if_false,
          Option.map_eq_none_iff] at h
        rw [firstLine, if_neg hc, ih h]

theorem splitLines_of_ne_nil (text : Str) (h : text ≠ []) :
    splitLines text = firstLine text :: splitLines (text.drop (firstLine text).length) := by
  induction text with
  | nil => exact absurd rfl h
  | cons c rest ih =>
      by_cases hc : c = '\n'
      · simp [splitLines, firstLine, hc]
      · cases rest with
        | nil => simp [splitLines, firstLine, hc]
        | cons d more =>
            have hfirst : firstLine (c :: d :: more) = c :: firstLine (d :: more) := by
              rw [firstLine, if_neg hc]
            rw [hfirst, splitLines, if_neg hc, ih (by simp)]
            rfl

theorem firstLine_ne_nil (text : Str) (h : text ≠ []) : firstLine text ≠ [] := by
  cases text with
  | nil => exact absurd rfl h
  | cons c rest =>
      unfold firstLine
      split <;> simp

namespace Reader

variable (raw : RawRead)

theorem read_pending (amt : Option Nat) (r : Reader) :
    (r.read raw amt).1 ++ (r.read raw amt).2.pending = r.pending := by
  cases amt with
  | none => simp [read, pending, raw.splits]
  | some n =>
      by_cases h : r.rbuf ≠ [] ∧ n ≤ r.rbuf.length
      · simp only [read, if_pos h, pending]
        rw [← List.append_assoc, List.take_append_drop]
      · simp only [read, if_neg h, pending, List.nil_append, List.append_assoc, raw.splits]

theorem fill_spec (limit : Int) (fuel : Nat) (i : Option Nat) (r : Reader) (hi : i = find r.rbuf)
    (hfuel : r.rest.length < fuel) :
    (fill raw limit fuel i r).1 = find (fill raw limit fuel i r).2.rbuf ∧
      (fill raw limit fuel i r).2.pending = r.pending ∧
      ((fill raw limit fuel i r).1 = none → (fill raw limit fuel i r).2.rest = [] ∨
        (0 < limit ∧ limit ≤ (fill raw limit fuel i r).2.rbuf.length)) := by
  induction fuel generalizing i r with
  | zero => omega
  | succ fuel ih =>
      by_cases hcond : i = none ∧ ¬(0 < limit ∧ limit ≤ r.rbuf.length)
      · have hsplit := raw.splits (some rbufsize) r.rest
        by_cases hnew : (raw.read (some rbufsize) r.rest).1 = []
        · have hrest : r.rest = [] := by
            by_contra hne
            exact raw.progresses rbufsize r.rest (by decide) hne hnew
          rw [hnew, List.nil_append] at hsplit
          simp only [fill, if_pos hcond, if_pos hnew]
          refine ⟨hi, ?_, fun _ => Or.inl ?_⟩
          · simp [pending, hsplit]
          · rw [hsplit, hrest]
        · have hindex : (find (raw.read (some rbufsize) r.rest).1).map (· + r.rbuf.length) =
              find (r.rbuf ++ (raw.read (some rbufsize) r.rest).1) :=
            (find_append _ _ (hi.symm.trans hcond.1)).symm
          have hless : (raw.read (some rbufsize) r.rest).2.length < fuel := by
            have hlength := congrArg List.length hsplit
            have hpos := List.length_pos_iff.mpr hnew
            rw [List.length_append] at hlength
            omega
          obtain ⟨hfind, hpending, hend⟩ := ih _ ⟨r.rbuf ++ (raw.read (some rbufsize) r.rest).1, _⟩ hindex hless
          simp only [fill, if_pos hcond, if_neg hnew]
          refine ⟨hfind, ?_, hend⟩
          rw [hpending]
          simp only [pending, List.append_assoc, hsplit]
      · simp only [fill, if_neg hcond]
        refine ⟨hi, trivial, ?_⟩
        intro hnone
        rw [Classical.not_and_iff_not_or_not, not_not] at hcond
        exact Or.inr (hcond.resolve_left fun h => h hnone)

-- What readline returns and what it leaves, when the loop has had enough turns.
theorem readline_spec (fuel : Nat) (limit : Int) (r : Reader) (hfuel : r.rest.length < fuel) :
    (r.readline raw fuel limit).1 ++ (r.readline raw fuel limit).2.pending = r.pending ∧
      (if limit < 0 then (r.readline raw fuel limit).1 = firstLine r.pending
       else (r.readline raw fuel limit).1 = r.pending.take limit.toNat ∨
        ((r.readline raw fuel limit).1 = firstLine r.pending ∧
          (firstLine r.pending).length ≤ limit.toNat)) := by
  obtain ⟨hfind, hpending, hend⟩ := fill_spec raw limit fuel (find r.rbuf) r rfl hfuel
  unfold readline
  generalize fill raw limit fuel (find r.rbuf) r = filled at hfind hpending hend ⊢
  obtain ⟨i, rbuf, rest⟩ := filled
  simp only [pending] at hfind hpending hend ⊢
  -- the index up to which a line goes
  have hline : rbuf.take (lineEnd rbuf i) = firstLine (rbuf ++ rest) ∨
      (i = none ∧ 0 < limit ∧ limit ≤ rbuf.length) := by
    cases i with
    | some i => exact Or.inl (firstLine_of_find rbuf rest i hfind.symm).1
    | none =>
        rcases hend rfl with hrest | hlimit
        · subst hrest
          rw [List.append_nil, firstLine_of_find_none rbuf hfind.symm, lineEnd, List.take_length]
          exact Or.inl rfl
        · exact Or.inr ⟨rfl, hlimit⟩
  by_cases hcut : 0 ≤ limit ∧ limit < rbuf.length
  · have hle : limit.toNat ≤ rbuf.length := by omega
    simp only [if_pos hcut, if_neg (show ¬limit < 0 by omega)]
    refine ⟨?_, Or.inl ?_⟩
    · rw [← List.append_assoc, List.take_append_drop, hpending]
    · rw [← hpending, List.take_append_of_le_length hle]
  · simp only [if_neg hcut]
    refine ⟨?_, ?_⟩
    · rw [← List.append_assoc, List.take_append_drop, hpending]
    · rw [← hpending]
      rcases hline with hline | ⟨rfl, hpos, hle⟩
      · rw [hline]
        split
        · rfl
        · refine Or.inr ⟨rfl, ?_⟩
          rw [← hline]
          have hle := List.length_take_le' (lineEnd rbuf i) rbuf
          omega
      · have hexact : limit.toNat = rbuf.length := by omega
        rw [if_neg (by omega), hexact, lineEnd, List.take_length, List.take_left]
        exact Or.inl rfl

theorem read_fits (amt : Option Nat) (r : Reader) : (Call.read amt).Fits r.pending [(r.read raw amt).1] := by
  cases amt with
  | none => simp [Call.Fits, read, pending, raw.whole]
  | some n =>
      refine ⟨_, rfl, ⟨_, read_pending raw (some n) r⟩, ?_, ?_⟩
      · by_cases h : r.rbuf ≠ [] ∧ n ≤ r.rbuf.length
        · simp only [read, if_pos h]
          exact List.length_take_le n r.rbuf
        · have hbound := raw.bounded (n - r.rbuf.length) r.rest
          have hlength : r.rbuf.length ≤ n := by
            by_cases hempty : r.rbuf = []
            · simp [hempty]
            · have hn : ¬n ≤ r.rbuf.length := fun hle => h ⟨hempty, hle⟩
              omega
          simp only [read, if_neg h, List.length_append]
          omega
      · intro hnil
        by_cases h : r.rbuf ≠ [] ∧ n ≤ r.rbuf.length
        · simp only [read, if_pos h, List.take_eq_nil_iff] at hnil
          exact Or.inl (hnil.resolve_right h.1)
        · simp only [read, if_neg h, List.append_eq_nil_iff] at hnil
          obtain ⟨hbuf, hgot⟩ := hnil
          by_cases hn : n = 0
          · exact Or.inl hn
          · refine Or.inr ?_
            by_contra hne
            rw [pending, hbuf, List.nil_append] at hne
            rw [hbuf, List.length_nil, Nat.sub_zero] at hgot
            exact raw.progresses n r.rest (Nat.pos_of_ne_zero hn) hne hgot

theorem readlinesFrom_spec (lineFuel fuel total : Nat) (sizehint : Int) (r : Reader)
    (hline : r.pending.length < lineFuel) (hfuel : r.pending.length < fuel) :
    (r.readlinesFrom raw lineFuel sizehint fuel total).1 = upTo sizehint total (splitLines r.pending) ∧
      (r.readlinesFrom raw lineFuel sizehint fuel total).1.flatten ++
        (r.readlinesFrom raw lineFuel sizehint fuel total).2.pending = r.pending := by
  induction fuel generalizing total r with
  | zero => omega
  | succ fuel ih =>
      have hrest : r.rest.length < lineFuel := by
        have hle : r.rest.length ≤ r.pending.length := by simp [pending]
        omega
      obtain ⟨hpending, hfirst⟩ := readline_spec raw lineFuel (-1) r hrest
      rw [if_pos (by omega)] at hfirst
      unfold readlinesFrom
      generalize r.readline raw lineFuel (-1) = answer at hpending hfirst ⊢
      obtain ⟨line, next⟩ := answer
      simp only at hpending hfirst ⊢
      by_cases hempty : r.pending = []
      · have hnil : line = [] := by simp [hfirst, hempty, firstLine]
        simp only [hnil, if_true]
        rw [hnil, List.nil_append] at hpending
        simp [hempty, splitLines, upTo, hpending]
      · have hne : line ≠ [] := hfirst ▸ firstLine_ne_nil _ hempty
        have hlines : splitLines r.pending = line :: splitLines next.pending := by
          rw [splitLines_of_ne_nil _ hempty, ← hfirst, ← hpending, List.drop_left]
        have hless : next.pending.length < r.pending.length := by
          have hlength := congrArg List.length hpending
          have hpos := List.length_pos_iff.mpr hne
          rw [List.length_append] at hlength
          omega
        rw [if_neg hne, hlines, upTo]
        by_cases hstop : sizehint ≠ 0 ∧ sizehint ≤ (total + line.length : Nat)
        · simp only [if_pos hstop]
          exact ⟨trivial, by simpa using hpending⟩
        · obtain ⟨hmore, hleft⟩ := ih (total + line.length) next (by omega) (by omega)
          simp only [if_neg hstop]
          refine ⟨by rw [hmore], ?_⟩
          rw [List.flatten_cons, List.append_assoc, hleft, hpending]

end Reader

-- The bytes of a call are the next ones, and the next call goes on behind them.
theorem Call.run_fits (raw : RawRead) (fuel : Nat) (call : Call) (r : Reader) (hfuel : r.pending.length < fuel) :
    call.Fits r.pending (call.run raw fuel r).1 ∧
      (call.run raw fuel r).1.flatten ++ (call.run raw fuel r).2.pending = r.pending := by
  have hrest : r.rest.length < fuel := by
    have hle : r.rest.length ≤ r.pending.length := by simp [Reader.pending]
    omega
  cases call with
  | read amt =>
      exact ⟨Reader.read_fits raw amt r, by simpa [Call.run] using Reader.read_pending raw amt r⟩
  | readline limit =>
      obtain ⟨hpending, hline⟩ := Reader.readline_spec raw fuel limit r hrest
      refine ⟨?_, by simpa [Call.run] using hpending⟩
      simp only [Call.Fits, Call.run]
      by_cases hlimit : limit < 0
      · rw [if_pos hlimit] at hline ⊢
        rw [hline]
      · rw [if_neg hlimit] at hline ⊢
        rcases hline with hcut | ⟨hfirst, hle⟩
        · exact Or.inl (by rw [hcut])
        · exact Or.inr ⟨by rw [hfirst], hle⟩
  | readlines sizehint => exact Reader.readlinesFrom_spec raw fuel fuel 0 sizehint r hfuel hfuel

theorem serves_from (raw : RawRead) (fuel : Nat) (calls : List Call) (r : Reader) (hfuel : r.pending.length < fuel) :
    Serves r.pending calls (runCalls raw fuel r calls) := by
  induction calls generalizing r with
  | nil => rfl
  | cons call rest ih =>
      obtain ⟨hfits, hpending⟩ := Call.run_fits raw fuel call r hfuel
      have hnext : (call.run raw fuel r).2.pending = r.pending.drop (call.run raw fuel r).1.flatten.length := by
        rw [← hpending, List.drop_left]
      have hless : (call.run raw fuel r).2.pending.length < fuel := by
        rw [hnext, List.length_drop]
        omega
      refine ⟨hfits, ⟨_, hpending⟩, ?_⟩
      rw [← hnext]
      exact ih _ hless

-- Any mix of read, readline and readlines gives the body as it is, without a gap or a
-- byte given twice, in the lines that are there, however the raw reads cut it.
theorem body_served (raw : RawRead) (fuel : Nat) (body : Str) (calls : List Call) (hfuel : body.length < fuel) :
    Serves body calls (runCalls raw fuel ⟨[], body⟩ calls) :=
  serves_from raw fuel calls ⟨[], body⟩ (by simpa [Reader.pending] using hfuel)

-- A socket that gives what it is asked for.
def wholeReads : RawRead where
  read
    | none, rest => (rest, [])
    | some n, rest => (rest.take n, rest.drop n)
  splits amt rest := by
    cases amt with
    | none => simp
    | some n => simp
  bounded n rest := List.length_take_le n rest
  progresses n rest hn hrest := by simp [hrest, hn.ne']
  whole _ := rfl

theorem twoLines_served :
    Serves "ab\ncd\n".toList [.readline (-1), .read (some 1), .readlines 0]
      (runCalls wholeReads 7 ⟨[], "ab\ncd\n".toList⟩ [.readline (-1), .read (some 1), .readlines 0]) :=
  body_served wholeReads 7 "ab\ncd\n".toList _ (by decide)

example : runCalls wholeReads 7 ⟨[], "ab\ncd\n".toList⟩ [.readline (-1), .read (some 1), .readlines 0] =
    [["ab\n".toList], ["c".toList], ["d\n".toList]] := by decide +kernel

end MesosPoc.KeepAlive
