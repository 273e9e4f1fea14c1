import MesosPoc.Yaml.Scalars

namespace MesosPoc.Yaml

variable {schema : Schema}

def keyText (line : Str) : Str :=
  line.takeWhile isKeyChar

-- A line with a key and a scalar.
structure Field where
  key : Str
  text : Str
  word : key ≠ [] ∧ key.all isKeyChar = true

def Field.line (f : Field) : Str :=
  f.key ++ ':' :: ' ' :: f.text

section Lines

theorem isWhite_of_isKeyChar {c : Char} (h : isKeyChar c = true) : isWhite c = false ∧ c ≠ '#' := by
  refine ⟨?_, ?_⟩
  · cases hwhite : isWhite c with
    | false => rfl
    | true =>
        have hc : c = ' ' ∨ c = '\t' := by simpa [isWhite] using hwhite
        rcases hc with rfl | rfl <;> exact absurd h (by decide)
  · rintro rfl
    exact absurd h (by decide)

theorem keyText_line (f : Field) : keyText f.line = f.key ∧ f.line.dropWhile isKeyChar = ':' :: ' ' :: f.text := by
  have hall : ∀ c ∈ f.key, isKeyChar c = true := List.all_eq_true.mp f.word.2
  have hcolon : isKeyChar ':' ≠ true := by decide
  rw [keyText, Field.line]
  rw [List.takeWhile_append_of_pos hall, List.dropWhile_append_of_pos hall, List.takeWhile_cons_of_neg hcolon,
    List.dropWhile_cons_of_neg hcolon, List.append_nil]
  exact ⟨rfl, rfl⟩

theorem keyText_lines (fields : List (Field × Str)) :
    (fields.map fun field => field.1.line).map keyText = fields.map fun field => field.1.key := by
  rw [List.map_map]
  apply List.map_congr_left
  intro field _
  exact (keyText_line field.1).1

theorem readLine_field (schema : Schema) (f : Field) :
    readLine schema f.line = readNode schema f.key (' ' :: f.text) := by
  obtain ⟨htake, hdrop⟩ := keyText_line f
  obtain ⟨c, key, hkey⟩ := List.exists_cons_of_ne_nil f.word.1
  have hc : isKeyChar c = true := by
    apply List.all_eq_true.mp f.word.2
    rw [hkey]
    exact List.mem_cons_self
  obtain ⟨hwhite, hcomment⟩ := isWhite_of_isKeyChar hc
  have hline : f.line = c :: (key ++ ':' :: ' ' :: f.text) := by
    rw [Field.line, hkey, List.cons_append]
  have hskip : f.line.dropWhile isWhite = f.line := by
    rw [hline, List.dropWhile_cons_of_neg (by rw [hwhite]; exact Bool.false_ne_true)]
  unfold readLine
  rw [keyText] at htake
  rw [hskip, htake, hdrop]
  split
  next heq =>
    rw [hline] at heq
    cases heq
  next heq =>
    rw [hline] at heq
    exact absurd (List.cons.inj heq).1 hcomment
  next =>
    split
    next hnil => exact absurd hnil f.word.1
    next text htext _ =>
      cases htext
      exact if_pos rfl
    next hother => exact absurd rfl (hother _)

-- The key of a line is the word that it begins with.
theorem readLine_key {line : Str} :
    (∀ {key : Str} {value : Scalar}, readLine schema line = .entry key value → key = keyText line) ∧
      ∀ {o : Open}, readLine schema line = .opens o → o.key = keyText line := by
  unfold readLine keyText
  split
  · exact ⟨nofun, nofun⟩
  · exact ⟨nofun, nofun⟩
  · split
    · exact ⟨nofun, nofun⟩
    next text _ _ =>
      split
      · rcases readNode_cases schema (line.takeWhile isKeyChar) text with ⟨value, h⟩ | ⟨o, h, ho⟩ | h
        · rw [h]
          refine ⟨?_, nofun⟩
          intro _ _ hentry
          exact (Line.entry.inj hentry).1.symm
        · rw [h]
          refine ⟨nofun, ?_⟩
          intro _ hopens
          rw [← Line.opens.inj hopens, ho]
        · rw [h]
          exact ⟨nofun, nofun⟩
      · exact ⟨nofun, nofun⟩
    · exact ⟨nofun, nofun⟩

end Lines

section Runs

theorem resume_key {o : Open} {line : Str} :
    (∀ {key : Str} {value : Scalar}, resume o line = .entry key value → key = o.key) ∧
      (∀ {o' : Open}, resume o line = .opens o' → o'.key = o.key) ∧ resume o line ≠ .blank := by
  unfold resume
  split
  · refine ⟨nofun, ?_, nofun⟩
    intro _ h
    rw [← Line.opens.inj h]
  · split
    · split
      · refine ⟨?_, nofun, nofun⟩
        intro _ _ h
        exact (Line.entry.inj h).1.symm
      · exact ⟨nofun, nofun, nofun⟩
    · refine ⟨nofun, ?_, nofun⟩
      intro _ h
      rw [← Line.opens.inj h]
    · exact ⟨nofun, nofun, nofun⟩

-- The key of an entry is the one that is open, or the word at the beginning of a line.
theorem readLines_keys {before : Option Open} {lines : List Str} {entries : List (Str × Scalar)}
    (h : readLines schema before lines = some entries) :
    ∀ entry ∈ entries, entry.1 ∈ lines.map keyText ∨ ∃ o ∈ before, entry.1 = o.key := by
  induction lines generalizing before entries with
  | nil =>
      cases before with
      | none =>
          cases h
          exact nofun
      | some o => cases h
  | cons line rest ih =>
      have hrest : ∀ {tail : List (Str × Scalar)}, readLines schema none rest = some tail →
          ∀ entry ∈ tail, entry.1 ∈ (line :: rest).map keyText ∨ ∃ o ∈ before, entry.1 = o.key := by
        intro tail htail entry hentry
        rcases ih htail entry hentry with hkey | ⟨o, ho, -⟩
        · exact .inl (List.mem_cons_of_mem _ hkey)
        · cases ho
      have hfirst : ∀ {key : Str}, (∀ o, before = some o → key = o.key) → (before = none → key = keyText line) →
          key ∈ (line :: rest).map keyText ∨ ∃ o ∈ before, key = o.key := by
        intro key hopen hnone
        cases before with
        | none =>
            left
            rw [List.map_cons, hnone rfl]
            exact List.mem_cons_self
        | some o => exact .inr ⟨o, rfl, hopen o rfl⟩
      have hstep : ∀ {key : Str}, ((∃ value, step schema before line = .entry key value) ∨
          ∃ o, step schema before line = .opens o ∧ o.key = key) →
          key ∈ (line :: rest).map keyText ∨ ∃ o ∈ before, key = o.key := by
        intro key hkey
        apply hfirst
        · rintro o rfl
          rcases hkey with ⟨value, hentry⟩ | ⟨o', hopens, rfl⟩
          · exact resume_key.1 hentry
          · exact resume_key.2.1 hopens
        · rintro rfl
          rcases hkey with ⟨value, hentry⟩ | ⟨o', hopens, rfl⟩
          · exact readLine_key.1 hentry
          · exact readLine_key.2 hopens
      rw [readLines] at h
      intro entry hentry
      split at h
      next => exact hrest h entry hentry
      next key value hline =>
        obtain ⟨tail, htail, rfl⟩ := Option.map_eq_some_iff.mp h
        rcases List.mem_cons.mp hentry with rfl | hmem
        · exact hstep (.inl ⟨value, hline⟩)
        · exact hrest htail entry hmem
      next o hline =>
        rcases ih h entry hentry with hkey | ⟨o', ho', hkey⟩
        · exact .inl (List.mem_cons_of_mem _ hkey)
        · obtain rfl := Option.some.inj ho'
          rw [hkey]
          exact hstep (.inr ⟨o, hline, rfl⟩)
      next => cases h

-- A line that a scalar goes on with has no key of its own.
theorem readLines_open_keys {o : Open} {line : Str} {rest : List Str} {entries : List (Str × Scalar)}
    (h : readLines schema (some o) (line :: rest) = some entries) :
    ∀ entry ∈ entries, entry.1 ∈ rest.map keyText ∨ entry.1 = o.key := by
  rw [readLines, step] at h
  intro entry hentry
  split at h
  next hline => exact absurd hline resume_key.2.2
  next key value hline =>
    obtain ⟨tail, htail, rfl⟩ := Option.map_eq_some_iff.mp h
    rcases List.mem_cons.mp hentry with rfl | hmem
    · exact .inr (resume_key.1 hline)
    · rcases readLines_keys htail entry hmem with hkey | ⟨o', ho', -⟩
      · exact .inl hkey
      · cases ho'
  next o' hline =>
    rcases readLines_keys h entry hentry with hkey | ⟨o'', ho'', hkey⟩
    · exact .inl hkey
    · obtain rfl := Option.some.inj ho''
      exact .inr (hkey.trans (resume_key.2.1 hline))
  next => cases h

-- Lines are read with these strings under these keys.
def Reads (schema : Schema) (before : Option Open) (lines : List Str) (required : List (Str × Str)) : Prop :=
  ∃ entries, readLines schema before lines = some entries ∧
    ∀ field ∈ required, entries.lookup field.1 = some (.str field.2)

theorem readLines_field (f : Field) (rest : List Str) :
    readLines schema none (f.line :: rest) =
      match readNode schema f.key (' ' :: f.text) with
      | .blank => readLines schema none rest
      | .entry key value => (readLines schema none rest).map ((key, value) :: ·)
      | .opens o => readLines schema (some o) rest
      | .error => none := by
  have hline : step schema none f.line = readNode schema f.key (' ' :: f.text) := readLine_field schema f
  cases hnode : readNode schema f.key (' ' :: f.text) with
  | _ => simp only [readLines, hline, hnode]

theorem reads_entry_iff {f : Field} {value : Scalar} (rest : List Str) {required : List (Str × Str)}
    (hfresh : f.key ∉ required.map Prod.fst) (hentry : readNode schema f.key (' ' :: f.text) = .entry f.key value) :
    Reads schema none (f.line :: rest) required ↔ Reads schema none rest required := by
  have hlookup : ∀ entries : List (Str × Scalar), ∀ field ∈ required,
      ((f.key, value) :: entries).lookup field.1 = entries.lookup field.1 := by
    intro entries field hfield
    have hne : (field.1 == f.key) = false := by
      rw [beq_eq_false_iff_ne]
      intro hsame
      exact hfresh (hsame ▸ List.mem_map_of_mem hfield)
    rw [List.lookup_cons, hne]
  unfold Reads
  rw [readLines_field, hentry]
  constructor
  · rintro ⟨entries, hread, hrequired⟩
    obtain ⟨tail, htail, rfl⟩ := Option.map_eq_some_iff.mp hread
    refine ⟨tail, htail, ?_⟩
    intro field hfield
    rw [← hlookup tail field hfield]
    exact hrequired field hfield
  · rintro ⟨tail, htail, hrequired⟩
    refine ⟨(f.key, value) :: tail, Option.map_eq_some_iff.mpr ⟨tail, htail, rfl⟩, ?_⟩
    intro field hfield
    rw [hlookup tail field hfield]
    exact hrequired field hfield

-- A line whose key is required, where the lines after it cannot be read as part of its
-- scalar.
theorem reads_required_iff {f : Field} {v : Str} {rest : List Str} {required : List (Str × Str)}
    (hfresh : f.key ∉ required.map Prod.fst)
    (hclosed : ∀ o, readNode schema f.key (' ' :: f.text) = .opens o → ¬Reads schema (some o) rest required) :
    Reads schema none (f.line :: rest) ((f.key, v) :: required) ↔
      readNode schema f.key (' ' :: f.text) = .entry f.key (.str v) ∧ Reads schema none rest required := by
  constructor
  · rintro ⟨entries, hread, hrequired⟩
    have htail : ∀ field ∈ required, entries.lookup field.1 = some (.str field.2) :=
      fun field hfield => hrequired field (List.mem_cons_of_mem _ hfield)
    have hreads : Reads schema none (f.line :: rest) required := ⟨entries, hread, htail⟩
    have hhead := hrequired (f.key, v) List.mem_cons_self
    rw [readLines_field] at hread
    rcases readNode_cases schema f.key (' ' :: f.text) with ⟨value, hentry⟩ | ⟨o, hopens, -⟩ | herror
    · rw [hentry] at hread
      obtain ⟨tail, -, rfl⟩ := Option.map_eq_some_iff.mp hread
      rw [List.lookup_cons_self] at hhead
      rw [hentry, Option.some.inj hhead]
      exact ⟨rfl, (reads_entry_iff rest hfresh hentry).mp hreads⟩
    · rw [hopens] at hread
      exact absurd ⟨entries, hread, htail⟩ (hclosed o hopens)
    · rw [herror] at hread
      cases hread
  · rintro ⟨hentry, hreads⟩
    obtain ⟨entries, hread, hrequired⟩ := (reads_entry_iff rest hfresh hentry).mpr hreads
    refine ⟨entries, hread, ?_⟩
    intro field hfield
    rcases List.mem_cons.mp hfield with rfl | hmem
    · rw [readLines_field, hentry] at hread
      obtain ⟨tail, -, rfl⟩ := Option.map_eq_some_iff.mp hread
      exact List.lookup_cons_self
    · exact hrequired field hmem

-- An open scalar takes in the line that it goes on with, with its key.
theorem not_reads_open {o : Open} {next : Str} {rest : List Str} {required : List (Str × Str)} {v : Str}
    (hopen : o.key ≠ keyText next) (hrest : keyText next ∉ rest.map keyText)
    (hrequired : (keyText next, v) ∈ required) : ¬Reads schema (some o) (next :: rest) required := by
  rintro ⟨entries, hread, hlookups⟩
  have hlookup := hlookups (keyText next, v) hrequired
  have hnone : entries.lookup (keyText next) = none := by
    rw [List.lookup_eq_none_iff]
    intro entry hentry
    rw [bne_iff_ne]
    intro hkey
    rcases readLines_open_keys hread entry hentry with hmem | hsame
    · exact hrest (hkey ▸ hmem)
    · exact hopen (hsame.symm.trans hkey.symm)
  rw [hnone] at hlookup
  cases hlookup

theorem key_of_opens {key text : Str} {o : Open} (h : readNode schema key text = .opens o) : o.key = key := by
  rcases readNode_cases schema key text with ⟨value, hentry⟩ | ⟨o', hopens, ho'⟩ | herror
  · rw [hentry] at h
    cases h
  · rw [hopens] at h
    cases h
    exact ho'
  · rw [herror] at h
    cases h

theorem resume_open {o : Open} {line : Str} (hdouble : o.double = true) (hline : line.all notSpecial = true) :
    ∃ o', resume o line = .opens o' ∧ o'.key = o.key ∧ o'.double = true := by
  have htext : (line.dropWhile isWhite).all notSpecial = true := by
    rw [List.all_eq_true] at hline ⊢
    exact fun c hc => hline c ((List.dropWhile_suffix _).mem hc)
  obtain ⟨content, hscan⟩ := scanDouble_open htext
  unfold resume
  split
  · exact ⟨_, rfl, rfl, hdouble⟩
  · rw [if_pos hdouble, hscan]
    exact ⟨_, rfl, rfl, hdouble⟩

-- A line without a quote leaves a scalar in double quotes open.
theorem reads_open {o : Open} {line : Str} {rest : List Str} {required : List (Str × Str)} (hdouble : o.double = true)
    (hline : line.all notSpecial = true) (h : Reads schema (some o) (line :: rest) required) :
    ∃ o', o'.key = o.key ∧ o'.double = true ∧ Reads schema (some o') rest required := by
  obtain ⟨entries, hread, hlookups⟩ := h
  obtain ⟨o', hopens, hkey, hdouble'⟩ := resume_open hdouble hline
  rw [readLines, step, hopens] at hread
  exact ⟨o', hkey, hdouble', entries, hread, hlookups⟩

-- A document does not end within a scalar.
theorem not_reads_end {o : Open} {required : List (Str × Str)} : ¬Reads schema (some o) [[]] required := by
  rintro ⟨entries, hread, -⟩
  cases hread

-- Lines with required keys, one after the other.
theorem reads_fields_iff (fields : List (Field × Str)) {next : Str} {rest : List Str} {v : Str}
    {required : List (Str × Str)}
    (hlines : (fields.map (fun field => field.1.key) ++ (next :: rest).map keyText).Nodup)
    (hrequired : ∀ field ∈ required, field.1 ∈ rest.map keyText) :
    Reads schema none (fields.map (fun field => field.1.line) ++ next :: rest)
        (fields.map (fun field => (field.1.key, field.2)) ++ (keyText next, v) :: required) ↔
      (∀ field ∈ fields, readNode schema field.1.key (' ' :: field.1.text) = .entry field.1.key (.str field.2)) ∧
        Reads schema none (next :: rest) ((keyText next, v) :: required) := by
  induction fields with
  | nil => simp
  | cons field fields ih =>
      obtain ⟨f, value⟩ := field
      simp only [List.map_cons, List.cons_append] at hlines ⊢
      rw [List.nodup_cons] at hlines
      have hfresh : f.key ∉
          (fields.map (fun field => (field.1.key, field.2)) ++ (keyText next, v) :: required).map Prod.fst := by
        intro hmem
        apply hlines.1
        rw [List.map_append, List.map_map, List.map_cons, List.mem_append, List.mem_cons] at hmem
        rw [List.mem_append, List.mem_cons]
        rcases hmem with hmem | hmem | hmem
        · exact .inl hmem
        · exact .inr (.inl hmem)
        · obtain ⟨field, hfield, hkey⟩ := List.mem_map.mp hmem
          exact .inr (.inr (hkey ▸ hrequired field hfield))
      rw [reads_required_iff hfresh ?_, ih hlines.2]
      · simp [and_assoc]
      · intro o hopens
        cases fields with
        | nil =>
            rw [List.map_nil, List.nil_append, List.nodup_cons, List.mem_cons, not_or] at hlines
            apply not_reads_open _ hlines.2.1 List.mem_cons_self
            rw [key_of_opens hopens]
            exact hlines.1.1
        | cons second fields =>
            rw [List.map_cons, List.map_cons, List.cons_append, List.cons_append, ← (keyText_line second.1).1]
            rw [List.map_cons, List.cons_append, List.nodup_cons, List.mem_cons, not_or] at hlines
            apply not_reads_open _ _ List.mem_cons_self
            · rw [key_of_opens hopens, (keyText_line second.1).1]
              exact hlines.1.1
            · rw [List.map_append, keyText_lines, (keyText_line second.1).1]
              exact hlines.2.1

end Runs

end MesosPoc.Yaml
