import MesosPoc.Performance.Kill.Theorems
import Mathlib.Data.List.Perm.Basic

namespace MesosPoc.Performance

open Outcome

-- The names of the commands that were started.
def Kills.issuedNames {α ρ : Type} (s : Kills α ρ) : List Str :=
  s.issued.map Kill.name

-- Every call of randint has had a range that is not empty, and every call of pop an
-- index of its list.
structure InRange {α ρ : Type} (s : Kills α ρ) : Prop where
  ranges : ∀ range ∈ s.ranges, range.1 ≤ range.2
  indices : ∀ index ∈ s.indices, 0 ≤ index.1 ∧ index.1 < index.2

-- What is killed and what is left are parts of a list that do not overlap.
structure Selects {α ρ : Type} (names : List Str) (run : Outcome PyError (Kills α ρ)) : Prop where
  inRange : InRange run.state
  parts : (run.state.issuedNames ++ run.state.names).Subperm names
  distinct : (run.state.issuedNames ++ run.state.names).Nodup

section Iteration

variable {α ρ : Type} (killCommand : Json) (ask : Turn → Str → Except PyError α)
  (report : Str → α → Except PyError ρ)

-- The list and the calls of an iteration are those of its draw. The name is killed,
-- or the iteration raises.
theorem killName_selects (s : Kills α ρ) (turn : Turn) (name : Str) :
    ∃ o, killName killCommand ask report s turn name = o ∧ o.state.names = s.names ∧
      o.state.ranges = s.ranges ∧ o.state.indices = s.indices ∧
      (o.state.issuedNames = s.issuedNames ++ [name] ∨ o.state.issuedNames = s.issuedNames ∧ o.raised ≠ none) := by
  refine ⟨_, rfl, ?_⟩
  by_cases hs : ∃ asked command process, ask turn name = .ok asked ∧
      killLine killCommand name = .ok command ∧ turn.popen command = .ok process
  · obtain ⟨asked, command, process, hask, hline, hpopen⟩ := hs
    have hstarted := killName_started killCommand ask report s turn ⟨name, asked, command, process⟩ hask
      hline hpopen
    rw [hstarted]
    have hissued : (s.launched ⟨name, asked, command, process⟩).issuedNames = s.issuedNames ++ [name] := by
      simp [Kills.launched, Kills.issuedNames]
    cases report name asked with
    | error e => exact ⟨rfl, rfl, rfl, Or.inl hissued⟩
    | ok entry => exact ⟨rfl, rfl, rfl, Or.inl hissued⟩
  · push Not at hs
    obtain ⟨e, he⟩ := killName_idle killCommand ask report s turn name hs
    rw [he]
    exact ⟨rfl, rfl, rfl, Or.inr ⟨rfl, Option.some_ne_none e⟩⟩

theorem inRange_drawn (s : Kills α ρ) (i : Nat) (hi : i < s.names.length) (h : InRange s) :
    InRange (s.drawn i) := by
  refine ⟨?_, ?_⟩
  · intro range hm
    rcases List.mem_append.mp hm with hm | hm
    · exact h.ranges range hm
    · obtain rfl := List.mem_singleton.mp hm
      show (0 : Int) ≤ s.names.length - 1
      omega
  · intro index hm
    rcases List.mem_append.mp hm with hm | hm
    · exact h.indices index hm
    · obtain rfl := List.mem_singleton.mp hm
      show (0 : Int) ≤ i ∧ (i : Int) < s.names.length
      omega

theorem perm_drawn (issued names : List Str) (i : Nat) (hi : i < names.length) :
    (issued ++ [names[i]] ++ names.eraseIdx i).Perm (issued ++ names) := by
  rw [List.append_assoc]
  exact (List.getElem_cons_eraseIdx_perm hi).append_left issued

-- What one iteration keeps: the calls are in range, and the name drawn goes over to
-- those killed, or is lost in an iteration that raises.
theorem killOne_selects (s : Kills α ρ) (turn : Turn) (hn : s.names ≠ []) (hs : InRange s) :
    ∃ o, killOne killCommand ask report s turn = o ∧ InRange o.state ∧
      o.state.names.length + 1 = s.names.length ∧
      ((o.state.issuedNames ++ o.state.names).Perm (s.issuedNames ++ s.names) ∧
          o.state.issuedNames.length = s.issuedNames.length + 1 ∨
        (o.state.issuedNames ++ o.state.names).Subperm (s.issuedNames ++ s.names) ∧ o.raised ≠ none) := by
  obtain ⟨i, hi, -, hone⟩ := killOne_draw killCommand ask report s turn hn
  obtain ⟨o, ho, hnames, hranges, hindices, hissued⟩ :=
    killName_selects killCommand ask report (s.drawn i) turn s.names[i]
  have hdrawn := inRange_drawn s i hi hs
  have hlen : (s.names.eraseIdx i).length + 1 = s.names.length := by
    rw [List.length_eraseIdx_of_lt hi]
    omega
  have hperm := perm_drawn s.issuedNames s.names i hi
  refine ⟨o, hone.trans ho, ⟨?_, ?_⟩, ?_, ?_⟩
  · rw [hranges]
    exact hdrawn.ranges
  · rw [hindices]
    exact hdrawn.indices
  · rw [hnames]
    exact hlen
  · rw [hnames]
    rcases hissued with hissued | ⟨hissued, hraised⟩
    · left
      rw [hissued]
      exact ⟨hperm, by simp [Kills.drawn, Kills.issuedNames]⟩
    · right
      rw [hissued]
      refine ⟨?_, hraised⟩
      have hsub : (s.issuedNames ++ s.names.eraseIdx i).Sublist
          (s.issuedNames ++ [s.names[i]] ++ s.names.eraseIdx i) := by
        rw [List.append_assoc]
        exact (List.sublist_cons_self _ _).append_left _
      exact hsub.subperm.trans hperm.subperm

-- A loop that has at least as many names as iterations.
theorem forEach_selects (turns : List Turn) (s : Kills α ρ) (hlen : turns.length ≤ s.names.length)
    (hs : InRange s) :
    ∃ o, forEach (killOne killCommand ask report) s turns = o ∧ InRange o.state ∧
      (o.state.issuedNames ++ o.state.names).Subperm (s.issuedNames ++ s.names) ∧
      (o.raised = none → (o.state.issuedNames ++ o.state.names).Perm (s.issuedNames ++ s.names) ∧
        o.state.issuedNames.length = s.issuedNames.length + turns.length) := by
  induction turns generalizing s with
  | nil => exact ⟨_, rfl, hs, List.Subperm.refl _, fun _ => ⟨List.Perm.refl _, rfl⟩⟩
  | cons turn turns ih =>
      rw [List.length_cons] at hlen
      have hn : s.names ≠ [] := List.ne_nil_of_length_pos (by omega)
      obtain ⟨o, ho, hin, hnames, hparts⟩ := killOne_selects killCommand ask report s turn hn hs
      rw [forEach, ho]
      cases hr : o.raised with
      | some e =>
          rw [andThen_raised _ hr]
          refine ⟨o, rfl, hin, ?_, fun h => ?_⟩
          · rcases hparts with ⟨hperm, -⟩ | ⟨hsub, -⟩
            · exact hperm.subperm
            · exact hsub
          · rw [hr] at h
            cases h
      | none =>
          obtain ⟨hperm, hissued⟩ | ⟨-, hraised⟩ := hparts
          · rw [andThen_done _ hr]
            obtain ⟨o', ho', hin', hsub', hdone'⟩ := ih o.state (by omega) hin
            refine ⟨o', ho', hin', hsub'.trans hperm.subperm, ?_⟩
            intro hr'
            obtain ⟨hperm', hissued'⟩ := hdone' hr'
            refine ⟨hperm'.trans hperm, ?_⟩
            rw [hissued', hissued, List.length_cons]
            omega
          · exact absurd hr hraised

end Iteration

section Loops

variable {α ρ : Type} (config : Json) (ask : Turn → Str → Except PyError α)
  (report : Str → α → Except PyError ρ)

theorem inRange_start (names : List Str) : InRange (Kills.start names : Kills α ρ) :=
  ⟨List.forall_mem_nil _, List.forall_mem_nil _⟩

theorem killTurns_length (count : Int) (turns : Nat → Turn) :
    ((List.range count.toNat).map turns).length = count.toNat := by
  rw [List.length_map, List.length_range]

theorem killTurns_le (names : List Str) (count : Int) (hlen : count ≤ names.length) (turns : Nat → Turn) :
    ((List.range count.toNat).map turns).length ≤ (Kills.start names : Kills α ρ).names.length := by
  have hcount : count.toNat ≤ names.length := by omega
  rw [killTurns_length]
  exact hcount

theorem killLoop_selects (names : List Str) (hnames : names.Nodup) (count : Int)
    (hlen : count ≤ names.length) (turns : Nat → Turn) :
    Selects names (killLoop config ask report names count turns) := by
  unfold killLoop
  cases config.getItem "kill_command".toList with
  | error e => exact ⟨inRange_start names, List.Subperm.refl _, hnames⟩
  | ok killCommand =>
      obtain ⟨o, ho, hin, hsub, -⟩ := forEach_selects killCommand ask report
        ((List.range count.toNat).map turns) (.start names)
        (killTurns_le names count hlen turns) (inRange_start names)
      obtain ⟨l, hperm, hsublist⟩ : (o.state.issuedNames ++ o.state.names).Subperm names := hsub
      simp only [ho]
      exact ⟨hin, ⟨l, hperm, hsublist⟩, hperm.nodup_iff.mp (hsublist.nodup hnames)⟩

end Loops

end MesosPoc.Performance
