import MesosPoc.Json.Equality
import MesosPoc.Performance.Case
import MesosPoc.Performance.Instantiation.Theorems
import MesosPoc.Performance.Instantiation.Scanning

namespace MesosPoc.Performance

open Json

section Files

variable {values : Str → Str}

-- The text of a file that does not end in a newline.
def fileText (lines : List Str) : Str :=
  ['\n'].intercalate lines

theorem fill_fileText (lines : List Str) :
    fill values (fileText lines) = fileText (lines.map (fill values)) := by
  unfold fileText
  induction lines with
  | nil => rfl
  | cons line rest ih =>
      cases rest with
      | nil => simp
      | cons next rest =>
          rw [List.intercalate_cons_cons, List.append_assoc, List.singleton_append,
            fill_parted line _ '\n' rfl (by decide) (by decide), ih]
          rfl

theorem lookup_fillPairs (key : Str) (pairs : List (Str × Json)) (hkeys : ∀ pair ∈ pairs, NoHole pair.1) :
    lookup key (fillPairs values pairs) = (lookup key pairs).map (fillJson values) := by
  induction pairs with
  | nil => rfl
  | cons pair pairs ih =>
      obtain ⟨name, value⟩ := pair
      obtain ⟨hname, hrest⟩ := List.forall_mem_cons.mp hkeys
      rw [fillPairs, lookup, lookup, ih hrest, fill_noHole values name hname]
      cases lookup key pairs with
      | some found => rfl
      | none =>
          by_cases hkey : name = key
          · simp [hkey]
          · simp [hkey]

-- A template whose placeholders are in its values.
def KeysPlain (j : Json) : Prop :=
  ∀ pairs, j = .obj pairs → ∀ pair ∈ pairs, NoHole pair.1

theorem getItem_fillJson (j : Json) (key : Str) (hkeys : KeysPlain j) :
    (fillJson values j).getItem key = (j.getItem key).map (fillJson values) := by
  cases j with
  | obj pairs =>
      rw [fillJson, getItem, getItem, lookup_fillPairs key pairs (hkeys pairs rfl)]
      cases lookup key pairs with
      | some value => rfl
      | none => rfl
  | _ => rfl

theorem quotable_valueOf {pairs : List Pair}
    (h : ∀ p ∈ pairs, Unescaped p.value ∧ utf8Valid (0, 0, 0) p.value = true) : Quotable (valueOf pairs) := by
  have hall : ∀ p : Placeholder, Unescaped (valueOf pairs p.name) ∧ utf8Valid (0, 0, 0) (valueOf pairs p.name) = true := by
    intro p
    unfold valueOf
    split
    · rename_i pair hfind
      exact h pair (List.mem_of_find?_eq_some hfind)
    · have htext : '{' :: p.name ++ ['}'] = p.text := rfl
      have hchars : ∀ c ∈ p.text, c ≠ '"' ∧ c ≠ '\\' ∧ 0x20 ≤ c.toNat ∧ c.toNat < 0x80 := by
        intro c hc
        rcases text_chars p c hc with hname | rfl | rfl
        · refine ⟨text_ne p '"' rfl (by decide) (by decide) c hc, text_ne p '\\' rfl (by decide) (by decide) c hc, ?_⟩
          simp only [isNameChar, decide_eq_true_eq] at hname
          rcases hname with ⟨hlow, hhigh⟩ | rfl
          · exact ⟨Nat.le_trans (by decide) hlow, Nat.lt_of_le_of_lt hhigh (by decide)⟩
          · decide
        · decide
        · decide
      rw [htext]
      refine ⟨fun c hc => ⟨(hchars c hc).1, (hchars c hc).2.1, (hchars c hc).2.2.1⟩, ?_⟩
      have hascii : ∀ s : Str, (∀ c ∈ s, c.toNat < 0x80) → utf8Valid (0, 0, 0) s = true := by
        intro s hs
        induction s with
        | nil => rfl
        | cons c s ih =>
            obtain ⟨hc, hs⟩ := List.forall_mem_cons.mp hs
            rw [utf8Valid_ascii hc, ih hs]
      exact hascii p.text fun c hc => (hchars c hc).2.2.2
  exact ⟨fun p => (hall p).1, fun p => (hall p).2⟩

-- What case.py reads from a file that template.sh has written is what the template
-- decodes to, with the values of suit.sh in its strings.
theorem instantiated_decodes (files : Str → List Str) (other : List Str → List Str → List Str)
    (template file : FileName) (lines : List Str) (pairs order : List Pair) (w : World) (j : Json)
    (hdistinct : Distinct pairs) (hne : pairs ≠ []) (hclean : ∀ p ∈ pairs, Clean p)
    (hclear : ∀ p ∈ pairs, ∀ q ∈ pairs, p.placeholder ≠ q.placeholder → Clear p q)
    (hquotable : ∀ p ∈ pairs, Unescaped p.value ∧ utf8Valid (0, 0, 0) p.value = true)
    (horder : order.Perm pairs) (hslash : '\\' ∉ fileText lines) (hloads : loads (fileText lines) = .ok j) :
    ∃ written, instantiateFile files other template file lines order = some (file.text, written) ∧
      loadTestCase { w with caseFile := some (.ok (fileText written)) } = .ok (fillJson (valueOf pairs) j) ∧
      (∀ key, KeysPlain j → (fillJson (valueOf pairs) j).getItem key =
        (j.getItem key).map (fillJson (valueOf pairs))) := by
  have hcleanOrder : ∀ p ∈ order, Clean p := fun p hm => hclean p (horder.mem_iff.mp hm)
  have horderNe : order ≠ [] := by
    rintro rfl
    exact hne horder.nil_eq.symm
  have hrun := instantiateFile_run files other template file lines order horderNe sent
    (fun p hm => argument_sent files p (hcleanOrder p hm).pattern (hcleanOrder p hm).slash)
    (fun p _ => sent_plain p) (fun p hm => sent_pattern p (hcleanOrder p hm).pattern)
  have hown : ∀ p ∈ pairs, insertedText p.placeholder (sent p) = p.value := by
    intro p hm
    rw [(hclean p hm).sent]
    exact (insertedText_eq_iff p.placeholder p.value).mpr (hclean p hm).ampersand
  have hpasses := (passes_iff (fun p => insertedText p.placeholder (sent p)) pairs hdistinct).mpr ⟨hown, hclear⟩
  refine ⟨lines.map (fill (valueOf pairs)), ?_, ?_, getItem_fillJson j⟩
  · rw [hrun]
    simp only [hpasses order horder]
  · rw [← fill_fileText]
    exact loads_fill (quotable_valueOf hquotable) _ j hslash hloads

-- namespace_template.json

def namespaceLines : List Str :=
  ["\x7b", "  \"kind\": \"Namespace\",", "  \"apiVersion\": \"v1\",", "  \"metadata\": \x7b",
    "    \"name\": \"\x7bNAMESPACE\x7d\"", "  \x7d", "\x7d"].map String.toList

def namespaceJson (name : String) : Json :=
  .obj [("kind".toList, .str "Namespace".toList), ("apiVersion".toList, .str "v1".toList),
    ("metadata".toList, .obj [("name".toList, .str name.toList)])]

def namespacePair : Pair where
  placeholder := ⟨"NAMESPACE".toList, List.cons_ne_nil _ _, List.all_eq_true.mp rfl⟩
  value := "demo1".toList
  plain := List.all_eq_true.mp rfl
  encoded := false

def namespaceWorld : World where
  caseFile := none
  str _ := .ok []
  setenv _ _ := .ok ()
  otherInt _ := .ok 0
  openLog _ _ := .ok ()
  popen _ := .error .typeError
  call _ := .ok ()
  otherChecker _ _ _ := .ok none
  polls := []
  beginTime := DateTime.min
  endTime := DateTime.min

theorem namespace_decodes :
    ∃ written, instantiateFile (fun _ => []) (fun _ _ => []) anyFile anyFile namespaceLines [namespacePair] =
        some (anyFile.text, written) ∧
      loadTestCase { namespaceWorld with caseFile := some (.ok (fileText written)) } =
        .ok (fillJson (valueOf [namespacePair]) (namespaceJson "\x7bNAMESPACE\x7d")) ∧
      (∀ key, KeysPlain (namespaceJson "\x7bNAMESPACE\x7d") →
        (fillJson (valueOf [namespacePair]) (namespaceJson "\x7bNAMESPACE\x7d")).getItem key =
          ((namespaceJson "\x7bNAMESPACE\x7d").getItem key).map (fillJson (valueOf [namespacePair]))) := by
  apply instantiated_decodes _ _ _ _ _ [namespacePair] _ namespaceWorld _ (List.pairwise_singleton _ _)
    (List.cons_ne_nil _ _) _ _ _ (List.Perm.refl _)
  · decide +kernel
  · exact loads_of_loadsTo _ _ (by decide +kernel)
  · intro p hp
    obtain rfl := List.mem_singleton.mp hp
    exact ⟨rfl, by decide, by decide, by decide +kernel⟩
  · intro p hp q hq hne
    obtain rfl := List.mem_singleton.mp hp
    obtain rfl := List.mem_singleton.mp hq
    exact absurd rfl hne
  · intro p hp
    obtain rfl := List.mem_singleton.mp hp
    have hall : (namespacePair.value.all fun c => c ≠ '"' ∧ c ≠ '\\' ∧ 0x20 ≤ c.toNat) = true := by
      decide +kernel
    refine ⟨?_, by decide +kernel⟩
    intro c hc
    simpa using List.all_eq_true.mp hall c hc

end Files

end MesosPoc.Performance
