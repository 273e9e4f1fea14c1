import MesosPoc.Performance.Case
import MesosPoc.Performance.Process.Counting
import MesosPoc.Json.Fields
import MesosPoc.RunningMax
import MesosPoc.Settles

namespace MesosPoc.Performance

open Json

-- The loop is that of the two checkers of the module.
theorem pollWith_check (checker : Checker) (beginTime : DateTime) (polls : List (Option Str)) (target : Int)
    (endTime : DateTime) :
    pollWith (fun event => checker.check event beginTime) target endTime polls =
      pollEvents checker beginTime target endTime polls := by
  induction polls generalizing target endTime with
  | nil => rfl
  | cons poll rest ih =>
      cases poll with
      | none => exact ih target endTime
      | some event =>
          rw [pollWith, pollEvents]
          cases checker.check event beginTime with
          | error e => rfl
          | ok record => simp only [ih]

theorem processWith_check (checker : Checker) (beginTime : DateTime) (target : Int)
    (polls : List (Option Str)) :
    processWith (fun event => checker.check event beginTime) target polls =
      processEvents checker beginTime target polls := by
  rw [processWith, processEvents, pollWith_check]

-- The two checkers print the time of a record before they return it.
theorem last_year (checker : Checker) (event : Str) (beginTime : DateTime) (record : Record)
    (h : checker.check event beginTime = .ok (some record)) : 1900 ≤ record.last.year := by
  obtain ⟨type, containerTime, firstTime, object, pod, hm⟩ := exists_matches checker event beginTime record h
  exact ((report_eq_ok_iff pod record.first record.last).mp hm.reported).2.2

theorem pollEvents_year (checker : Checker) (beginTime : DateTime) (polls rest : List (Option Str))
    (target : Int) (latest endTime : DateTime) (ht : 0 < target)
    (h : pollEvents checker beginTime target latest polls = .returned (some endTime) rest) :
    1900 ≤ endTime.year := by
  induction polls generalizing target latest with
  | nil => cases h
  | cons poll polls ih =>
      cases poll with
      | none => exact ih target latest ht h
      | some event =>
          cases hc : checker.check event beginTime with
          | error e => simp only [pollEvents, hc, reduceCtorEq] at h
          | ok result =>
              cases result with
              | none =>
                  rw [pollEvents_rejected event polls target latest ht hc] at h
                  exact ih target latest ht h
              | some record =>
                  by_cases hone : target = 1
                  · rw [hone, pollEvents_last event polls latest record hc] at h
                    obtain ⟨rfl, -⟩ : _ ∧ polls = rest := by simpa using h
                    have hyear := last_year checker event beginTime record hc
                    apply hyear.trans
                    apply DateTime.year_le_of_le
                    rw [RunningMax.ite_lt_eq_max]
                    exact le_max_right latest record.last
                  · rw [pollEvents_accepted event polls target latest (by omega) record hc] at h
                    exact ih (target - 1) _ (by omega) h

theorem processEvents_year (checker : Checker) (beginTime : DateTime) (polls rest : List (Option Str))
    (target : Int) (endTime : DateTime)
    (h : processEvents checker beginTime target polls = .returned (some endTime) rest) :
    1900 ≤ endTime.year := by
  unfold processEvents at h
  by_cases ht : target ≤ 0
  · rw [if_pos ht] at h
    cases h
  · rw [if_neg ht] at h
    exact pollEvents_year checker beginTime polls rest target DateTime.min endTime (by omega) h

-- The target of a case whose start command has given this result.
inductive Targets (w : World) (default : Int) : Json → Int → Prop
  | nothing (result : Json) (h : result.truthy = false) : Targets w default result default
  | unset (pairs : List (Str × Json)) (h : lookup "target".toList pairs = none) :
      Targets w default (.obj pairs) default
  | set (pairs : List (Str × Json)) (value : Json) (target : Int)
      (h : lookup "target".toList pairs = some value) (hvalue : int w value = .ok target) :
      Targets w default (.obj pairs) target

section StartCommand

variable {w : World} {case : Json}

theorem targets_of_readTarget (result : Json) (default target : Int)
    (h : readTarget w result default = .ok target) : Targets w default result target := by
  unfold readTarget at h
  by_cases ht : result.truthy = true
  · rw [if_pos ht] at h
    obtain ⟨found, hkey, h⟩ := bind_eq_ok.mp h
    cases result with
    | obj pairs =>
        cases hl : lookup "target".toList pairs with
        | none =>
            obtain rfl : false = found := Except.ok.inj ((hasKey_obj hl).symm.trans hkey)
            obtain rfl : default = target := Except.ok.inj h
            exact .unset pairs hl
        | some value =>
            obtain rfl : true = found := Except.ok.inj ((hasKey_obj hl).symm.trans hkey)
            obtain ⟨value', hget, h⟩ := bind_eq_ok.mp h
            obtain rfl : value = value' := Except.ok.inj ((getItem_of_lookup hl).symm.trans hget)
            exact .set pairs value target hl h
    | _ => cases hkey
  · rw [if_neg ht] at h
    obtain rfl : default = target := Except.ok.inj h
    exact .nothing result (Bool.eq_false_iff.mpr ht)

theorem readTarget_of_targets (result : Json) (default target : Int) (h : Targets w default result target) :
    readTarget w result default = .ok target := by
  unfold readTarget
  cases h with
  | nothing _ h =>
      rw [h]
      rfl
  | unset pairs h =>
      by_cases ht : (Json.obj pairs).truthy = true
      · rw [if_pos ht]
        exact bind_eq_ok.mpr ⟨false, hasKey_obj h, rfl⟩
      · rw [if_neg ht]
        rfl
  | set pairs value _ h hvalue =>
      have ht : (Json.obj pairs).truthy = true := by
        cases pairs with
        | nil => cases h
        | cons pair rest => rfl
      rw [if_pos ht]
      exact bind_eq_ok.mpr ⟨true, hasKey_obj h, bind_eq_ok.mpr ⟨value, getItem_of_lookup h, hvalue⟩⟩

theorem startCommand_eq_ok_iff (command : Json) :
    startCommand case = .ok command ↔
      case.getItem "start_command".toList = .ok command ∧ command.truthy = true := by
  unfold startCommand
  constructor
  · intro h
    obtain ⟨_ | _, hkey, h⟩ := bind_eq_ok.mp h
    · cases h
    · obtain ⟨command', hget, h⟩ := bind_eq_ok.mp h
      cases ht : command'.truthy with
      | false => simp [ht, throw, throwThe, MonadExceptOf.throw] at h
      | true =>
          rw [ht] at h
          obtain rfl : command' = command := Except.ok.inj h
          exact ⟨hget, ht⟩
  · rintro ⟨hget, ht⟩
    refine bind_eq_ok.mpr ⟨true, Json.hasKey_of_getItem hget, bind_eq_ok.mpr ⟨command, hget, ?_⟩⟩
    rw [ht]
    rfl

theorem startCase_eq_ok_iff (default target : Int) :
    startCase w case default = .ok target ↔
      ∃ command process, case.getItem "start_command".toList = .ok command ∧ command.truthy = true ∧
        w.popen command = .ok process ∧ Targets w default (loadOutput process.stdout) target := by
  unfold startCase
  constructor
  · intro h
    obtain ⟨command, hcommand, h⟩ := bind_eq_ok.mp h
    obtain ⟨output, houtput, h⟩ := bind_eq_ok.mp h
    obtain ⟨hget, ht⟩ := (startCommand_eq_ok_iff command).mp hcommand
    obtain ⟨process, hpopen, rfl⟩ := (execCommandWithCheck_eq_ok_iff w.popen command output).mp houtput
    exact ⟨command, process, hget, ht, hpopen, targets_of_readTarget _ _ _ h⟩
  · rintro ⟨command, process, hget, ht, hpopen, htarget⟩
    exact bind_eq_ok.mpr ⟨command, (startCommand_eq_ok_iff command).mpr ⟨hget, ht⟩,
      bind_eq_ok.mpr ⟨process.stdout,
        (execCommandWithCheck_eq_ok_iff w.popen command process.stdout).mpr ⟨process, hpopen, rfl⟩,
        readTarget_of_targets _ _ _ htarget⟩⟩

end StartCommand

section Finally

variable {w : World} {case : Json} {s : Settings}

theorem stopLine_settles (endTime : DateTime) (hb : 1900 ≤ w.beginTime.year) :
    Settles (stopLine w s endTime) (1900 ≤ endTime.year) (.stop s.caseName w.beginTime endTime) := by
  have hline : Settles (.ok (.stop s.caseName w.beginTime endTime) : Except PyError Action) True
      (.stop s.caseName w.beginTime endTime) := Settles.ok _
  apply Settles.after ((strftime_settles w.beginTime).1 hb)
  exact (Settles.bind (strftime_settles endTime) hline).congr (and_iff_left trivial)

theorem exists_obj_of_readSettings (h : readSettings w case = .ok s) : ∃ pairs, case = .obj pairs := by
  obtain ⟨apiServer, h, -⟩ := bind_eq_ok.mp h
  obtain ⟨found, hkey, -⟩ := bind_eq_ok.mp h
  cases case with
  | obj pairs => exact ⟨pairs, rfl⟩
  | _ => cases hkey

theorem clearCommand_obj (pairs : List (Str × Json)) : ∃ command, clearCommand (.obj pairs) = .ok command := by
  cases hl : lookup "clear_command".toList pairs with
  | none => exact ⟨none, bind_eq_ok.mpr ⟨false, hasKey_obj hl, rfl⟩⟩
  | some value => exact ⟨_, bind_eq_ok.mpr ⟨true, hasKey_obj hl,
      bind_eq_ok.mpr ⟨value, getItem_of_lookup hl, rfl⟩⟩⟩

end Finally

end MesosPoc.Performance
