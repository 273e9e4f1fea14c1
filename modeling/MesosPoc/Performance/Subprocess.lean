import MesosPoc.Python

namespace MesosPoc.Performance

-- A command that has ended.
structure Process where
  stdout : Str
  status : Int

-- communicate() gives the standard output and the standard error. Only the output is
-- piped, so that the second is None whatever the status.
def Process.communicate (process : Process) : Str × Option Str :=
  (process.stdout, none)

section Commands

variable {α : Type}

-- What the scripts call retcode is the second value of communicate.
def execCommandWithCheck (popen : α → Except PyError Process) (command : α) : Except PyError Str := do
  let process ← popen command
  let (output, retcode) := process.communicate
  if retcode.getD [] = [] then return output else throw (.calledProcessError (retcode.getD []))

theorem execCommandWithCheck_eq (popen : α → Except PyError Process) (command : α) :
    execCommandWithCheck popen command = (popen command).map Process.stdout := by
  unfold execCommandWithCheck
  cases popen command with
  | error e => rfl
  | ok process => rfl

theorem execCommandWithCheck_eq_ok_iff (popen : α → Except PyError Process) (command : α) (output : Str) :
    execCommandWithCheck popen command = .ok output ↔
      ∃ process, popen command = .ok process ∧ process.stdout = output := by
  rw [execCommandWithCheck_eq]
  cases popen command with
  | error e => simp [Except.map]
  | ok process => simp [Except.map]

end Commands

end MesosPoc.Performance
