import MesosPoc.Shell

namespace MesosPoc.Shell

theorem isBlank_of_any (s : Str) (h : s.any isBlank = false) : ∀ c ∈ s, isBlank c = false := by
  simpa using h

theorem fields_word (s : Str) (h : ∀ c ∈ s, isBlank c = false) (hs : s ≠ []) : fields s = [s] := by
  rw [fields, List.splitOnP_eq_singleton h]
  simp [hs]

theorem expand_word (files : Str → List Str) (s : Str) (h : isPattern s = false) : expand files s = [s] := by
  rw [expand, h]
  rfl

theorem unquoted_word (files : Str → List Str) (s : Str) (h : ∀ c ∈ s, isBlank c = false) (hs : s ≠ []) :
    unquoted files s = expand files s := by
  rw [unquoted, fields_word s h hs, List.flatMap_singleton]

theorem fields_append (s t : Str) {c : Char} (hc : isBlank c = true) :
    fields (s ++ c :: t) = fields s ++ fields t := by
  rw [fields, List.splitOnP_append_cons s t hc, List.filter_append]
  rfl

-- Words on lines of their own.
theorem fields_lines (words : List Str) (h : ∀ word ∈ words, word ≠ [] ∧ ∀ c ∈ word, isBlank c = false) :
    fields (['\n'].intercalate words) = words := by
  induction words with
  | nil => rfl
  | cons word rest ih =>
      obtain ⟨⟨hne, hblank⟩, hrest⟩ := List.forall_mem_cons.mp h
      cases rest with
      | nil =>
          rw [List.intercalate_singleton]
          exact fields_word word hblank hne
      | cons next rest =>
          rw [List.intercalate_cons_cons, List.append_assoc, List.singleton_append, fields_append _ _ rfl,
            fields_word word hblank hne, ih hrest]
          rfl

-- Words with one blank between them.
def spaced (first : Str) (rest : List Str) : Str :=
  first ++ rest.flatMap fun word => ' ' :: word

theorem fields_spaced (first : Str) (rest : List Str)
    (h : ∀ word ∈ first :: rest, word ≠ [] ∧ ∀ c ∈ word, isBlank c = false) :
    fields (spaced first rest) = first :: rest := by
  induction rest generalizing first with
  | nil =>
      rw [spaced, List.flatMap_nil, List.append_nil]
      exact fields_word first (h first List.mem_cons_self).2 (h first List.mem_cons_self).1
  | cons word rest ih =>
      obtain ⟨⟨hne, hblank⟩, hrest⟩ := List.forall_mem_cons.mp h
      have hspaced : spaced first (word :: rest) = first ++ ' ' :: spaced word rest := rfl
      rw [hspaced, fields_append _ _ rfl, fields_word first hblank hne, ih word hrest]
      rfl

theorem intercalate_spaced (first : Str) (rest : List Str) :
    [' '].intercalate (first :: rest) = spaced first rest := by
  induction rest generalizing first with
  | nil => simp [spaced]
  | cons word rest ih =>
      rw [List.intercalate_cons_cons, ih, spaced, spaced, List.flatMap_cons, List.append_assoc]
      rfl

theorem unquoted_spaced (files : Str → List Str) (first : Str) (rest : List Str)
    (h : ∀ word ∈ first :: rest, word ≠ [] ∧ (∀ c ∈ word, isBlank c = false) ∧ isPattern word = false) :
    [' '].intercalate (unquoted files (spaced first rest)) = spaced first rest := by
  have hfields := fields_spaced first rest fun word hm => ⟨(h word hm).1, (h word hm).2.1⟩
  have hexpand : (first :: rest).flatMap (expand files) = first :: rest := by
    rw [List.flatMap_congr fun word hm => expand_word files word (h word hm).2.2]
    exact List.flatMap_singleton' _
  rw [unquoted, hfields, hexpand, intercalate_spaced]

end MesosPoc.Shell
