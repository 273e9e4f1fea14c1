import MesosPoc.Performance.Kill
import MesosPoc.Performance.Case.Theorems
import MesosPoc.Json.Equality
import Mathlib.Data.List.Perm.Subperm

namespace MesosPoc.Performance

open Outcome

-- The name that an iteration takes out of the list, with those left.
def Turn.select (turn : Turn) (names : List Str) : Except PyError (Str × List Str) := do
  let index ← turn.draw 0 (names.length - 1)
  pop names index

-- The iteration takes this name, gets this answer and starts its command.
def Launches {α : Type} (killCommand : Json) (ask : Turn → Str → Except PyError α) (names : List Str)
    (turn : Turn) (kill : Kill α) : Prop :=
  (∃ rest, turn.select names = .ok (kill.name, rest)) ∧ ask turn kill.name = .ok kill.asked ∧
    killLine killCommand kill.name = .ok kill.command ∧ turn.popen kill.command = .ok kill.process

section Selection

variable (turn : Turn) (names : List Str)

theorem pop_of_lt (i : Nat) (hi : i < names.length) :
    pop names i = .ok (names[i], names.eraseIdx i) := by
  have hpos : ¬((i : Int) < 0) := by omega
  simp [pop, hpos, List.getElem?_eq_getElem hi]

theorem exists_index (h : names ≠ []) : ∃ i < names.length, turn.draw 0 (names.length - 1) = .ok (i : Int) := by
  have hlen : 0 < names.length := List.length_pos_of_ne_nil h
  obtain ⟨hlow, hhigh⟩ := turn.between 0 (names.length - 1) (by omega)
  refine ⟨(turn.randint 0 (names.length - 1)).toNat, by omega, ?_⟩
  rw [Turn.draw, if_pos (by omega), Int.toNat_of_nonneg hlow]

theorem draw_nil : turn.draw 0 (([] : List Str).length - 1) = .error .valueError := by
  rw [Turn.draw, if_neg]
  decide

end Selection

section Updates

variable {α ρ : Type}

def Kills.launched (s : Kills α ρ) (kill : Kill α) : Kills α ρ :=
  { s with issued := s.issued ++ [kill] }

def Kills.reported (s : Kills α ρ) (entry : ρ) : Kills α ρ :=
  { s with killed := s.killed ++ [entry] }

-- The state after an iteration has called randint and pop.
def Kills.drawn (s : Kills α ρ) (i : Nat) : Kills α ρ :=
  { s with
    names := s.names.eraseIdx i
    ranges := s.ranges ++ [((0 : Int), (s.names.length : Int) - 1)]
    indices := s.indices ++ [((i : Int), s.names.length)] }

def Kills.Extends (s s' : Kills α ρ) : Prop :=
  s.issued <+: s'.issued ∧ s.killed <+: s'.killed

end Updates

section Iteration

variable {α ρ : Type} (killCommand : Json) (ask : Turn → Str → Except PyError α)
  (report : Str → α → Except PyError ρ)

variable {killCommand ask} in
theorem Launches.unique {names : List Str} {turn : Turn} {kill kill' : Kill α}
    (h : Launches killCommand ask names turn kill) (h' : Launches killCommand ask names turn kill') :
    kill = kill' := by
  obtain ⟨⟨rest, hselect⟩, hask, hline, hpopen⟩ := h
  obtain ⟨⟨rest', hselect'⟩, hask', hline', hpopen'⟩ := h'
  cases kill with
  | mk name asked command process =>
      cases kill' with
      | mk name' asked' command' process' =>
          obtain ⟨rfl, rfl⟩ : name = name' ∧ rest = rest' := by simpa [hselect] using hselect'
          obtain rfl : asked = asked' := Except.ok.inj (hask.symm.trans hask')
          obtain rfl : command = command' := Except.ok.inj (hline.symm.trans hline')
          obtain rfl : process = process' := Except.ok.inj (hpopen.symm.trans hpopen')
          rfl

theorem killName_started (s : Kills α ρ) (turn : Turn) (kill : Kill α)
    (hask : ask turn kill.name = .ok kill.asked) (hline : killLine killCommand kill.name = .ok kill.command)
    (hpopen : turn.popen kill.command = .ok kill.process) :
    killName killCommand ask report s turn kill.name =
      match report kill.name kill.asked with
      | .error e => .raise e (s.launched kill)
      | .ok entry => .done ((s.launched kill).reported entry) := by
  have hcheck : execCommandWithCheck turn.popen kill.command = .ok kill.process.stdout :=
    (execCommandWithCheck_eq_ok_iff turn.popen kill.command kill.process.stdout).mpr
      ⟨kill.process, hpopen, rfl⟩
  simp only [killName, hask, hline, hcheck, hpopen]
  rfl

theorem killName_idle (s : Kills α ρ) (turn : Turn) (name : Str)
    (h : ∀ asked command process, ask turn name = .ok asked → killLine killCommand name = .ok command →
      turn.popen command ≠ .ok process) :
    ∃ e, killName killCommand ask report s turn name = .raise e s := by
  unfold killName
  cases hask : ask turn name with
  | error e => exact ⟨e, rfl⟩
  | ok asked =>
      cases hline : killLine killCommand name with
      | error e => exact ⟨e, rfl⟩
      | ok command =>
          cases hpopen : turn.popen command with
          | ok process => exact absurd hpopen (h asked command process hask hline)
          | error e =>
              refine ⟨e, ?_⟩
              simp [execCommandWithCheck_eq, hpopen, Except.toOption, Except.map]

theorem killOne_nil (s : Kills α ρ) (turn : Turn) (h : s.names = []) :
    killOne killCommand ask report s turn =
      .raise .valueError { s with ranges := s.ranges ++ [((0 : Int), (s.names.length : Int) - 1)] } := by
  simp only [killOne, h, draw_nil]

theorem killOne_draw (s : Kills α ρ) (turn : Turn) (h : s.names ≠ []) :
    ∃ (i : Nat) (hi : i < s.names.length),
      turn.select s.names = .ok (s.names[i], s.names.eraseIdx i) ∧
        killOne killCommand ask report s turn =
          killName killCommand ask report (s.drawn i) turn s.names[i] := by
  obtain ⟨i, hi, hdraw⟩ := exists_index turn s.names h
  have hpop := pop_of_lt s.names i hi
  refine ⟨i, hi, ?_, ?_⟩
  · exact bind_eq_ok.mpr ⟨(i : Int), hdraw, hpop⟩
  · simp only [killOne, hdraw, hpop]
    rfl

-- What an iteration can do: it raises before it has started a command, or starts one
-- and reports it, unless the report raises.
theorem killOne_cases (s : Kills α ρ) (turn : Turn) :
    (∃ e s', killOne killCommand ask report s turn = .raise e s' ∧ s'.issued = s.issued ∧
        s'.killed = s.killed ∧ ∀ kill, ¬Launches killCommand ask s.names turn kill) ∨
      ∃ kill s', Launches killCommand ask s.names turn kill ∧ s'.issued = s.issued ++ [kill] ∧
        s'.killed = s.killed ∧ killOne killCommand ask report s turn =
          match report kill.name kill.asked with
          | .error e => .raise e s'
          | .ok entry => .done (s'.reported entry) := by
  by_cases hn : s.names = []
  · left
    refine ⟨_, _, killOne_nil killCommand ask report s turn hn, rfl, rfl, ?_⟩
    rintro kill ⟨⟨rest, hselect⟩, -⟩
    rw [hn] at hselect
    obtain ⟨index, hdraw, -⟩ := bind_eq_ok.mp hselect
    cases (draw_nil turn).symm.trans hdraw
  · obtain ⟨i, hi, hselect, hone⟩ := killOne_draw killCommand ask report s turn hn
    rw [hone]
    by_cases hl : ∃ kill, Launches killCommand ask s.names turn kill
    · obtain ⟨kill, ⟨rest, hselect'⟩, hask, hline, hpopen⟩ := hl
      have hname : s.names[i] = kill.name := by
        rw [hselect] at hselect'
        exact congrArg Prod.fst (Except.ok.inj hselect')
      right
      refine ⟨kill, (s.drawn i).launched kill, ⟨⟨rest, hselect'⟩, hask, hline, hpopen⟩, rfl, rfl, ?_⟩
      rw [hname]
      exact killName_started killCommand ask report (s.drawn i) turn kill hask hline hpopen
    · left
      obtain ⟨e, he⟩ := killName_idle killCommand ask report (s.drawn i) turn s.names[i] (by
        intro asked command process hask hline hpopen
        exact hl ⟨⟨s.names[i], asked, command, process⟩, ⟨_, hselect⟩, hask, hline, hpopen⟩)
      exact ⟨e, _, he, rfl, rfl, fun kill hkill => hl ⟨kill, hkill⟩⟩

-- Neither list ever loses an entry.
theorem killOne_extends (s : Kills α ρ) (turn : Turn) :
    s.Extends (killOne killCommand ask report s turn).state := by
  rcases killOne_cases killCommand ask report s turn with
    ⟨e, s', hone, hi, hk, -⟩ | ⟨kill, s', -, hi, hk, hone⟩
  · rw [hone, raise_state, Kills.Extends, hi, hk]
    exact ⟨List.prefix_refl _, List.prefix_refl _⟩
  · rw [hone]
    cases report kill.name kill.asked with
    | error e =>
        rw [raise_state, Kills.Extends, hi, hk]
        exact ⟨List.prefix_append _ _, List.prefix_refl _⟩
    | ok entry =>
        rw [done_state, Kills.reported, Kills.Extends, hi, hk]
        exact ⟨List.prefix_append _ _, List.prefix_append _ _⟩

theorem forEach_extends (turns : List Turn) (s : Kills α ρ) :
    s.Extends (forEach (killOne killCommand ask report) s turns).state := by
  have hstep (s' : Kills α ρ) (turn : Turn) (h : s.Extends s') :
      s.Extends (killOne killCommand ask report s' turn).state := by
    obtain ⟨hi, hk⟩ := killOne_extends killCommand ask report s' turn
    exact ⟨h.1.trans hi, h.2.trans hk⟩
  apply forEach_rule (fun _ _ => True) s.Extends (fun o => s.Extends o.state)
  · intro s' h
    exact h
  · intro s' turn h _ _
    exact hstep s' turn h
  · intro s' turn e h _ _
    exact hstep s' turn h
  · exact ⟨List.prefix_refl _, List.prefix_refl _⟩
  · exact meets_true turns s

-- The command of an iteration, if it starts one, meets a condition.
def EachKill (p : Kill α → Prop) (s : Kills α ρ) (turn : Turn) : Prop :=
  ∀ kill, Launches killCommand ask s.names turn kill → p kill

-- The two ways a loop may spoil what its commands and its reports say of each other:
-- a report that raises after its command, and a report that should not be there.
theorem killLoop_iff (p : Kill α → Prop) (R : Kill α → ρ → Prop) (good : Outcome PyError (Kills α ρ) → Prop)
    (hgood : ∀ o, List.Forall₂ R o.state.issued o.state.killed → good o)
    (hreported : ∀ kill entry, p kill → report kill.name kill.asked = .ok entry → R kill entry)
    (hlate : ∀ s kill issued e, List.Forall₂ R issued s.killed → s.issued = issued ++ [kill] →
      report kill.name kill.asked = .error e → (good (.raise e s) ↔ p kill))
    (hfalse : ∀ o kill entry issued killed, List.Forall₂ R issued killed → ¬p kill →
      report kill.name kill.asked = .ok entry → issued ++ [kill] <+: o.state.issued →
      killed ++ [entry] <+: o.state.killed → ¬good o)
    (turns : List Turn) (s : Kills α ρ) (hs : List.Forall₂ R s.issued s.killed) :
    good (forEach (killOne killCommand ask report) s turns) ↔
      Meets (killOne killCommand ask report) (EachKill killCommand ask p) s turns := by
  apply forEach_iff (EachKill killCommand ask p) (fun s => List.Forall₂ R s.issued s.killed) good _ _ _ _
    turns s hs
  · intro s hs
    exact hgood (.done s) hs
  · intro s turn hs hp hr
    rcases killOne_cases killCommand ask report s turn with
      ⟨e, s', hone, -, -, -⟩ | ⟨kill, s', hl, hi, hk, hone⟩
    · rw [hone] at hr
      cases hr
    · cases hreport : report kill.name kill.asked with
      | error e =>
          rw [hone, hreport] at hr
          cases hr
      | ok entry =>
          rw [hone, hreport, done_state, Kills.reported, hi, hk]
          exact List.rel_append hs (.cons (hreported kill entry (hp kill hl) hreport) .nil)
  · intro s turn e hs hp hr
    rcases killOne_cases killCommand ask report s turn with
      ⟨e', s', hone, hi, hk, -⟩ | ⟨kill, s', hl, hi, hk, hone⟩
    · rw [hone]
      apply hgood
      rw [raise_state, hi, hk]
      exact hs
    · cases hreport : report kill.name kill.asked with
      | error e' =>
          rw [hone, hreport]
          exact (hlate s' kill s.issued e' (by rw [hk]; exact hs) hi hreport).mpr (hp kill hl)
      | ok entry =>
          rw [hone, hreport] at hr
          cases hr
  · intro s turn rest hs hp
    unfold EachKill at hp
    push Not at hp
    obtain ⟨kill, hl, hkill⟩ := hp
    rcases killOne_cases killCommand ask report s turn with
      ⟨e, s', hone, -, -, hidle⟩ | ⟨kill', s', hl', hi, hk, hone⟩
    · exact absurd hl (hidle kill)
    · obtain rfl := hl.unique hl'
      cases hreport : report kill.name kill.asked with
      | error e =>
          rw [hone, hreport, raise_andThen, hlate s' kill s.issued e (by rw [hk]; exact hs) hi hreport]
          exact hkill
      | ok entry =>
          obtain ⟨hextI, hextK⟩ := forEach_extends killCommand ask report rest (s'.reported entry)
          rw [hone, hreport, done_andThen]
          apply hfalse _ kill entry s.issued s.killed hs hkill hreport
          · rw [← hi]
            exact hextI
          · rw [← hk]
            exact hextK

end Iteration

-- The lowest index is drawn, the answer is empty and the command exits with this status.
def lowTurn (status : Int) : Turn where
  randint low _ := low
  between _ _ h := ⟨Int.le_refl _, h⟩
  urlopen _ := .ok []
  popen _ := .ok { stdout := [], status }

def nodeToolConfig : Json :=
  .obj [("kill_command".toList, .str "kill".toList), ("api_server".toList, .str "127.0.0.1:8080".toList),
    ("namespace".toList, .str "default".toList)]

def itemsText : Str := "\x7b\"items\":[1,2]\x7d".toList

def itemsTurn : Turn := { lowTurn 0 with urlopen := fun _ => .ok itemsText }

theorem itemsText_loads : Json.loads itemsText = .ok (.obj [("items".toList, .arr [.int 1, .int 2])]) :=
  Json.loads_of_loadsTo _ _ (by decide +kernel)

end MesosPoc.Performance
