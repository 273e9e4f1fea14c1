import MesosPoc.Flexvolume
import MesosPoc.Shell.Fields

namespace MesosPoc.Flexvolume

-- A character that the shell and the system leave in a name.
def isNameChar (c : Char) : Bool :=
  !(Shell.isBlank c || c = '/' || c = '*' || c = '?' || c = '[' || c = '\\')

-- A mount path: it begins at the root, and no component of it is . or ...
structure MountPath where
  names : List Str
  plain : ∀ name ∈ names, name ≠ [] ∧ name ≠ ['.'] ∧ name ≠ ['.', '.'] ∧ name.all isNameChar = true

namespace MountPath

variable (path : MountPath)

def text : Str :=
  match path.names with
  | [] => ['/']
  | names => names.flatMap fun name => '/' :: name

def components : List (Component Str) :=
  path.names.map .name

end MountPath

theorem slash_notMem {name : Str} (h : name.all isNameChar = true) : '/' ∉ name := by
  intro hmem
  have hslash := List.all_eq_true.mp h '/' hmem
  cases hslash

theorem isBlank_of_isNameChar {name : Str} (h : name.all isNameChar = true) :
    ∀ c ∈ name, Shell.isBlank c = false := by
  intro c hc
  have hname := List.all_eq_true.mp h c hc
  cases hblank : Shell.isBlank c with
  | true => simp [isNameChar, hblank] at hname
  | false => rfl

theorem intercalate_slash (first : Str) (rest : List Str) :
    ['/'].intercalate (first :: rest) = first ++ rest.flatMap fun name => '/' :: name := by
  induction rest generalizing first with
  | nil => simp
  | cons second rest ih =>
      rw [List.intercalate_cons_cons, ih, List.flatMap_cons, List.append_assoc]
      rfl

theorem splitOn_text (path : MountPath) (hnames : path.names ≠ []) : path.text.splitOn '/' = [] :: path.names := by
  have htext : path.text = ['/'].intercalate ([] :: path.names) := by
    rw [intercalate_slash, MountPath.text, List.nil_append]
    split
    next hnil => exact absurd hnil hnames
    next => rfl
  rw [htext]
  apply List.splitOn_intercalate
  · intro part hpart
    rcases List.mem_cons.mp hpart with rfl | hname
    · exact List.not_mem_nil
    · exact slash_notMem (path.plain part hname).2.2.2
  · exact List.cons_ne_nil _ _

theorem components_text (path : MountPath) : components path.text = path.components := by
  unfold components MountPath.components
  by_cases hnames : path.names = []
  · rw [MountPath.text, hnames]
    rfl
  · rw [splitOn_text path hnames, List.filter_cons_of_neg (by simp)]
    have hfilter : path.names.filter (fun part => part ≠ [] ∧ part ≠ ['.']) = path.names := by
      apply List.filter_eq_self.mpr
      intro name hname
      obtain ⟨hne, hdot, -, -⟩ := path.plain name hname
      simp [hne, hdot]
    rw [hfilter]
    apply List.map_congr_left
    intro name hname
    exact if_neg (path.plain name hname).2.2.1

theorem text_slash (path : MountPath) : ∃ rest, path.text = '/' :: rest := by
  unfold MountPath.text
  cases path.names with
  | nil => exact ⟨[], rfl⟩
  | cons name names => exact ⟨_, rfl⟩

theorem text_ne_nil (path : MountPath) : path.text ≠ [] := by
  obtain ⟨rest, htext⟩ := text_slash path
  rw [htext]
  exact List.cons_ne_nil _ _

theorem fields_text (path : MountPath) : Shell.fields path.text = [path.text] := by
  apply Shell.fields_word
  · unfold MountPath.text
    split
    · intro c hc
      rw [List.mem_singleton.mp hc]
      rfl
    · intro c hc
      obtain ⟨name, hname, hc⟩ := List.mem_flatMap.mp hc
      rcases List.mem_cons.mp hc with rfl | hc
      · rfl
      · exact isBlank_of_isNameChar (path.plain name hname).2.2.2 c hc
  · exact text_ne_nil path

theorem start_text (cwd : List Str) (path : MountPath) : start cwd path.text = [] := by
  obtain ⟨rest, htext⟩ := text_slash path
  rw [htext, start]

theorem onPath_text {κ : Type} (fs : FileSystem Str κ) (cwd : List Str)
    (command : FileSystem Str κ → List Str → List (Component Str) → FileSystem Str κ) (path : MountPath) :
    onPath fs cwd command path.text = command fs [] path.components := by
  rw [onPath, if_neg (text_ne_nil path), start_text, components_text]

end MesosPoc.Flexvolume
