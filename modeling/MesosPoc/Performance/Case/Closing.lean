import MesosPoc.Performance.Case.Theorems
import MesosPoc.Json.Equality

namespace MesosPoc.Performance

open Json

-- The clear command, if there is one, can be run.
def Clears (w : World) (case : Json) : Prop :=
  ∀ command, clearCommand case = .ok (some command) → w.call command = .ok ()

-- When main reaches its STOP line and what follows it: there are a checker and a start
-- command, the command can be run, whatever its status, and prints nothing, no JSON, a
-- false value or an object whose target int takes, processEvents returns with a time that
-- can be printed, and the clear command can be run.
structure Measures (w : World) (case : Json) (s : Settings) : Prop where
  checker : s.checker.truthy = true
  returns : ∃ command process target endTime rest,
    case.getItem "start_command".toList = .ok command ∧ command.truthy = true ∧
      w.popen command = .ok process ∧ Targets w s.target (loadOutput process.stdout) target ∧
      processWith (fun event => checkerOf w s.checker event w.beginTime) target w.polls =
        .returned endTime rest ∧
      1900 ≤ (endTime.getD w.endTime).year
  clears : Clears w case

def Action.isStart : Action → Bool
  | .start _ _ => true
  | _ => false

def Action.isStop : Action → Bool
  | .stop _ _ _ => true
  | _ => false

def Action.cleared : Action → Option Json
  | .clear command => some command
  | _ => none

-- A run has logged one STOP line, with the name and the begin time of the START line,
-- has run the clear command of the case once if there is one, and raises what the try
-- block has raised.
structure Closes (w : World) (case : Json) (s : Settings) (run : Outcome PyError (List Action)) :
    Prop where
  stop : ∃ endTime, run.state.filter Action.isStop = [.stop s.caseName w.beginTime endTime]
  clear : ∃ command, clearCommand case = .ok command ∧ run.state.filterMap Action.cleared = command.toList
  error : ∀ body e, measureCase w case s = some body → body.raised = some e → run.raised = some e

section Closing

variable {w : World} {case : Json} {s : Settings}

theorem measureCase_returned (target : Int) (endTime : Option DateTime) (rest : List (Option Str))
    (hstart : startCase w case s.target = .ok target) (hchecker : s.checker.truthy = true)
    (hreturned : processWith (fun event => checkerOf w s.checker event w.beginTime) target w.polls =
      .returned endTime rest) : measureCase w case s = some (.done (some endTime)) := by
  simp only [measureCase, hstart, hchecker, hreturned, if_true]

-- For the two checkers every time that processEvents returns can be printed.
theorem measures_of_check (checker : Checker) (target : Int) (endTime : Option DateTime)
    (rest : List (Option Str)) (hname : checkerOf w s.checker = checker.check)
    (hchecker : s.checker.truthy = true) (hstart : startCase w case s.target = .ok target)
    (hreturned : processEvents checker w.beginTime target w.polls = .returned endTime rest)
    (hclock : 1900 ≤ w.endTime.year) (hclears : Clears w case) : Measures w case s := by
  obtain ⟨command, process, hget, ht, hpopen, htarget⟩ := (startCase_eq_ok_iff s.target target).mp hstart
  refine ⟨hchecker, ⟨command, process, target, endTime, rest, hget, ht, hpopen, htarget, ?_, ?_⟩, hclears⟩
  · rw [hname, processWith_check, hreturned]
  · cases endTime with
    | none => exact hclock
    | some t => exact processEvents_year checker w.beginTime w.polls rest target t hreturned

theorem measures_iff :
    Measures w case s ↔ (∃ endTime, measureCase w case s = some (.done (some endTime)) ∧
      1900 ≤ (endTime.getD w.endTime).year) ∧ Clears w case := by
  constructor
  · rintro ⟨hchecker, ⟨command, process, target, endTime, rest, hget, ht, hpopen, htarget, hreturned, hyear⟩, hclears⟩
    have hstart := (startCase_eq_ok_iff s.target target).mpr ⟨command, process, hget, ht, hpopen, htarget⟩
    exact ⟨⟨endTime, measureCase_returned target endTime rest hstart hchecker hreturned, hyear⟩, hclears⟩
  · rintro ⟨⟨endTime, h, hyear⟩, hclears⟩
    unfold measureCase at h
    cases hstart : startCase w case s.target with
    | error e =>
        rw [hstart] at h
        cases h
    | ok target =>
        obtain ⟨command, process, hget, ht, hpopen, htarget⟩ := (startCase_eq_ok_iff s.target target).mp hstart
        rw [hstart] at h
        by_cases hchecker : s.checker.truthy = true
        · simp only [if_pos hchecker] at h
          split at h
          · cases h
          · cases h
          · rename_i endTime' rest hreturned
            cases h
            exact ⟨hchecker, ⟨command, process, target, endTime, rest, hget, ht, hpopen, htarget, hreturned,
              hyear⟩, hclears⟩
        · simp only [if_neg hchecker] at h
          cases h

-- The try block leaves end_time bound only when it raises nothing.
theorem measureCase_cases (body : Outcome PyError (Option (Option DateTime)))
    (h : measureCase w case s = some body) :
    body.state = none ∨ ∃ endTime, body = .done (some endTime) := by
  unfold measureCase at h
  split at h
  · cases h
    exact Or.inl rfl
  · split at h
    · split at h
      · cases h
      · cases h
        exact Or.inl rfl
      · cases h
        exact Or.inr ⟨_, rfl⟩
    · cases h
      exact Or.inl rfl

theorem close_unbound (actions : List Action) (body : Outcome PyError (Option (Option DateTime)))
    (h : body.state = none) :
    close w case s actions body = .raise (.unboundLocalError "end_time".toList) actions := by
  rw [close, h]

theorem close_unprinted (actions : List Action) (endTime : Option DateTime) (hb : 1900 ≤ w.beginTime.year)
    (hyear : ¬1900 ≤ (endTime.getD w.endTime).year) :
    ∃ e, close w case s actions (.done (some endTime)) = .raise e actions := by
  obtain ⟨e, he⟩ := (stopLine_settles (s := s) _ hb).2 hyear
  refine ⟨e, ?_⟩
  simp only [close, Outcome.done_state, he]

theorem close_printed (actions : List Action) (endTime : Option DateTime) (command : Option Json)
    (hb : 1900 ≤ w.beginTime.year) (hyear : 1900 ≤ (endTime.getD w.endTime).year)
    (hc : clearCommand case = .ok command) (hclears : Clears w case) :
    (close w case s actions (.done (some endTime))).state =
      actions ++ .stop s.caseName w.beginTime (endTime.getD w.endTime) :: command.toList.map .clear := by
  have hline := (stopLine_settles (s := s) _ hb).1 hyear
  simp only [close, Outcome.done_state, hline, hc]
  cases command with
  | none => rfl
  | some command =>
      simp only [hclears command hc]
      rfl

-- A clear command that cannot be run.
theorem close_uncleared (actions : List Action) (endTime : Option DateTime) (command : Json) (e : PyError)
    (hb : 1900 ≤ w.beginTime.year) (hyear : 1900 ≤ (endTime.getD w.endTime).year)
    (hc : clearCommand case = .ok (some command)) (hcall : w.call command = .error e) :
    close w case s actions (.done (some endTime)) =
      .raise e (actions ++ [.stop s.caseName w.beginTime (endTime.getD w.endTime)]) := by
  have hline := (stopLine_settles (s := s) _ hb).1 hyear
  simp only [close, Outcome.done_state, hline, hc, hcall]

-- A run with a START line has come to the finally block from the try block.
theorem exists_body (run : Outcome PyError (List Action)) (hcase : loadTestCase w = .ok case)
    (hs : readSettings w case = .ok s) (h : main w = some run) (hstart : ∃ a ∈ run.state, a.isStart = true) :
    1900 ≤ w.beginTime.year ∧ ∃ body, measureCase w case s = some body ∧
      run = close w case s [.start s.caseName w.beginTime] body := by
  unfold main at h
  simp only [hcase, hs] at h
  obtain ⟨a, hm, -⟩ := hstart
  by_cases ht : case.truthy = true
  · rw [if_pos ht] at h
    by_cases hb : 1900 ≤ w.beginTime.year
    · rw [(strftime_settles w.beginTime).1 hb] at h
      obtain ⟨body, hbody, rfl⟩ := Option.map_eq_some_iff.mp h
      exact ⟨hb, body, hbody, rfl⟩
    · obtain ⟨e, he⟩ := (strftime_settles w.beginTime).2 hb
      rw [he] at h
      obtain rfl := Option.some.inj h
      cases hm
  · rw [if_neg ht] at h
    obtain rfl := Option.some.inj h
    cases hm

-- Nothing follows the START line when the finally block raises before its own line.
theorem not_closes_started (e : PyError) (caseName : Json) (t : DateTime) :
    ¬Closes w case s (.raise e [.start caseName t]) := by
  intro h
  obtain ⟨endTime, hstop⟩ := h.stop
  cases hstop

theorem closes_printed (endTime : Option DateTime) (hs : readSettings w case = .ok s)
    (hbody : measureCase w case s = some (.done (some endTime))) (hb : 1900 ≤ w.beginTime.year)
    (hyear : 1900 ≤ (endTime.getD w.endTime).year) (hclears : Clears w case) :
    Closes w case s (close w case s [.start s.caseName w.beginTime] (.done (some endTime))) := by
  obtain ⟨pairs, rfl⟩ := exists_obj_of_readSettings hs
  obtain ⟨command, hc⟩ := clearCommand_obj pairs
  have hstate : (close w (.obj pairs) s [.start s.caseName w.beginTime] (.done (some endTime))).state = _ :=
    close_printed [.start s.caseName w.beginTime] endTime command hb hyear hc hclears
  refine ⟨⟨endTime.getD w.endTime, ?_⟩, ⟨command, hc, ?_⟩, ?_⟩
  · rw [hstate]
    cases command with
    | none => rfl
    | some command => rfl
  · rw [hstate]
    cases command with
    | none => rfl
    | some command => rfl
  · intro body e hbody' hraised
    obtain rfl := Option.some.inj (hbody.symm.trans hbody')
    cases hraised

theorem not_closes_uncleared (endTime : Option DateTime) (hb : 1900 ≤ w.beginTime.year)
    (hyear : 1900 ≤ (endTime.getD w.endTime).year) (hclears : ¬Clears w case) :
    ¬Closes w case s (close w case s [.start s.caseName w.beginTime] (.done (some endTime))) := by
  unfold Clears at hclears
  push Not at hclears
  obtain ⟨command, hc, hcall⟩ := hclears
  cases herror : w.call command with
  | ok result => exact absurd herror hcall
  | error e =>
      have hclose : close w case s [.start s.caseName w.beginTime] (.done (some endTime)) = _ :=
        close_uncleared [.start s.caseName w.beginTime] endTime command e hb hyear hc herror
      rw [hclose]
      rintro ⟨-, ⟨command', hc', hcleared⟩, -⟩
      obtain rfl := Except.ok.inj (hc.symm.trans hc')
      cases hcleared

-- A run with a START line is closed exactly when it has measured its case and can clear it.
theorem closes_iff (w : World) (case : Json) (s : Settings) (run : Outcome PyError (List Action))
    (hcase : loadTestCase w = .ok case) (hs : readSettings w case = .ok s) (h : main w = some run)
    (hstart : ∃ a ∈ run.state, a.isStart = true) : Closes w case s run ↔ Measures w case s := by
  obtain ⟨hb, body, hbody, rfl⟩ := exists_body run hcase hs h hstart
  rw [measures_iff, hbody]
  rcases measureCase_cases body hbody with hunbound | ⟨endTime, rfl⟩
  · rw [close_unbound _ body hunbound]
    apply iff_of_false (not_closes_started _ _ _)
    rintro ⟨⟨endTime, hsome, -⟩, -⟩
    obtain rfl := Option.some.inj hsome
    cases hunbound
  · by_cases hyear : 1900 ≤ (endTime.getD w.endTime).year
    · by_cases hclears : Clears w case
      · exact iff_of_true (closes_printed endTime hs hbody hb hyear hclears) ⟨⟨endTime, rfl, hyear⟩, hclears⟩
      · exact iff_of_false (not_closes_uncleared endTime hb hyear hclears) fun h => hclears h.2
    · have hraised : ∃ e, close w case s _ (.done (some endTime)) = .raise e _ :=
        close_unprinted [.start s.caseName w.beginTime] endTime hb hyear
      obtain ⟨e, he⟩ := hraised
      rw [he]
      apply iff_of_false (not_closes_started _ _ _)
      rintro ⟨⟨endTime', hsome, hyear'⟩, -⟩
      obtain rfl : endTime = endTime' := by simpa [Outcome.done] using hsome
      exact hyear hyear'

end Closing

-- The case that restores a node with its clear command, with what its start command
-- gives.

def upnodeText : Str :=
  "\x7b\"case_name\":\"upnode\",\"api_server\":\"10.0.0.9:8080\",\"namespace\":\"default\",".toList ++
    "\"start_command\":\"reboot\",\"clear_command\":\"create\",\"exit_condition\":\"1\",".toList ++
    "\"checker\":\"checkCreationEvent\"\x7d".toList

def upnode : Json :=
  .obj [("case_name".toList, .str "upnode".toList), ("api_server".toList, .str "10.0.0.9:8080".toList),
    ("namespace".toList, .str "default".toList), ("start_command".toList, .str "reboot".toList),
    ("clear_command".toList, .str "create".toList), ("exit_condition".toList, .str "1".toList),
    ("checker".toList, .str "checkCreationEvent".toList)]

def upnodeSettings : Settings where
  target := 1
  checker := .str "checkCreationEvent".toList
  caseName := .str "upnode".toList

-- str(j) of a text is the text.
def textOf : Json → Except PyError Str
  | .str s => .ok s
  | _ => .error .typeError

-- A start command that prints this text.
def upnodeWorld (stdout : Str) : World where
  caseFile := some (.ok upnodeText)
  str := textOf
  setenv _ _ := .ok ()
  otherInt _ := .error .valueError
  openLog _ _ := .ok ()
  popen _ := .ok { stdout, status := 0 }
  call _ := .ok ()
  otherChecker _ _ _ := .error .typeError
  polls := [some podReady]
  beginTime := caseBegin
  endTime := podStarted

theorem load_upnode (stdout : Str) : loadTestCase (upnodeWorld stdout) = .ok upnode := by
  have hloads : loads upnodeText = .ok upnode := loads_of_loadsTo _ _ (by decide +kernel)
  exact hloads

theorem settings_upnode (stdout : Str) : readSettings (upnodeWorld stdout) upnode = .ok upnodeSettings :=
  rfl

def upnodeRun : Outcome PyError (List Action) :=
  .done [.start (.str "upnode".toList) caseBegin, .stop (.str "upnode".toList) caseBegin podStarted,
    .clear (.str "create".toList)]

theorem main_loaded (w : World) (case : Json) (s : Settings) (hcase : loadTestCase w = .ok case)
    (ht : case.truthy = true) (hs : readSettings w case = .ok s) (hb : 1900 ≤ w.beginTime.year) :
    main w = (measureCase w case s).map (close w case s [.start s.caseName w.beginTime]) := by
  have hprinted := (strftime_settles w.beginTime).1 hb
  simp only [main, hcase, ht, hs, hprinted, if_true]

theorem upnode_closed : Closes (upnodeWorld []) upnode upnodeSettings upnodeRun := by
  have hreturned : processEvents .creation caseBegin 1 [some podReady] = .returned (some podStarted) [] :=
    processEvents_podReady []
  have hmeasures : Measures (upnodeWorld []) upnode upnodeSettings :=
    measures_of_check .creation 1 (some podStarted) [] rfl rfl rfl hreturned (by decide) fun _ _ => rfl
  have hmeasured : measureCase (upnodeWorld []) upnode upnodeSettings =
      some (.done (some (some podStarted))) :=
    measureCase_returned 1 (some podStarted) [] rfl rfl
      ((processWith_check .creation caseBegin 1 [some podReady]).trans hreturned)
  have hmain : main (upnodeWorld []) = some upnodeRun := by
    rw [main_loaded (upnodeWorld []) upnode upnodeSettings (load_upnode []) rfl (settings_upnode []) (by decide),
      hmeasured]
    rfl
  exact (closes_iff _ _ _ _ (load_upnode []) (settings_upnode []) hmain
    ⟨_, List.mem_cons_self, rfl⟩).mpr hmeasures

def listText : Str := "[1]".toList

theorem start_upnode_list : startCase (upnodeWorld listText) upnode 1 = .error .attributeError := by
  have houtput : loadOutput listText = .arr [.int 1] := by
    have hloads : loads listText = .ok (.arr [.int 1]) := loads_of_loadsTo _ _ (by decide +kernel)
    rw [loadOutput, hloads]
    rfl
  have hread : readTarget (upnodeWorld listText) (loadOutput listText) 1 = .error .attributeError := by
    rw [houtput]
    rfl
  exact hread

-- A start command that prints a list leaves the node down: the error of has_key is
-- lost, and neither the STOP line is logged nor the clear command run.
theorem failed_upnode_not_closed :
    measureCase (upnodeWorld listText) upnode upnodeSettings = some (.raise .attributeError none) ∧
      main (upnodeWorld listText) = some (.raise (.unboundLocalError "end_time".toList)
        [.start (.str "upnode".toList) caseBegin]) ∧
      ¬Closes (upnodeWorld listText) upnode upnodeSettings (.raise (.unboundLocalError "end_time".toList)
        [.start (.str "upnode".toList) caseBegin]) := by
  have hmeasured : measureCase (upnodeWorld listText) upnode upnodeSettings =
      some (.raise .attributeError none) := by
    have hstart : startCase (upnodeWorld listText) upnode upnodeSettings.target = .error .attributeError :=
      start_upnode_list
    rw [measureCase, hstart]
  refine ⟨hmeasured, ?_, not_closes_started _ _ _⟩
  rw [main_loaded (upnodeWorld listText) upnode upnodeSettings (load_upnode listText) rfl
    (settings_upnode listText) (by decide), hmeasured]
  rfl

end MesosPoc.Performance
