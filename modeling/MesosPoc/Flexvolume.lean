import MesosPoc.FileSystem
import MesosPoc.Shell

namespace MesosPoc.Flexvolume

-- saltstack/quota.sh, the flexvolume driver.

variable {κ : Type}

def volume : List Str :=
  ["mnt".toList, "xfs".toList, "test".toList]

-- The components of the text of a path. A slash or a dot at its end is dropped here,
-- where rm refuses such a path for a link: a mount path of the theorems has neither.
def components (path : Str) : List (Component Str) :=
  ((path.splitOn '/').filter fun part => part ≠ [] ∧ part ≠ ['.']).map fun part =>
    if part = ['.', '.'] then .parent else .name part

-- Where a path begins: at the root, or in the working directory.
def start (cwd : List Str) (path : Str) : List Str :=
  match path with
  | '/' :: _ => []
  | _ => cwd

-- What a call prints, and the file system that it leaves.
structure Result (κ : Type) where
  status : Nat
  stdout : Str
  after : FileSystem Str κ

-- echo -ne puts single blanks between its words.
def success : Str := "\x7b\"status\": \"Success\"\x7d".toList

def attached : Str := "\x7b\"status\": \"Success\", \"device\":\"/etc/sdb\"\x7d".toList

section Operations

variable (fs : FileSystem Str κ) (cwd : List Str) (args : List Str)

def usage : Result κ := ⟨1, [], fs⟩

def attach : Result κ := ⟨0, attached, fs⟩

def detach : Result κ := ⟨0, success, fs⟩

-- A command on a path. Without a path it does nothing.
def onPath (command : FileSystem Str κ → List Str → List (Component Str) → FileSystem Str κ) (path : Str) :
    FileSystem Str κ :=
  if path = [] then fs else command fs (start cwd path) (components path)

-- ln -s with one path makes the link in the working directory, under the last name.
def ln (target : List Str) : FileSystem Str κ :=
  match target.getLast? with
  | some name => fs.put cwd name (.link { absolute := true, components := target.map .name })
  | none => fs

-- $MNTPATHo is another variable than $MNTPATH, and it is not set.
def domount : Result κ :=
  let mntpath := args.headD []
  let made := onPath fs cwd FileSystem.mkdirs mntpath
  let removed := onPath made cwd FileSystem.rmFr mntpath
  ⟨0, success, ln removed cwd volume⟩

def unmount : Result κ :=
  let mntpath := args.headD []
  let removed := onPath fs cwd FileSystem.rm mntpath
  ⟨0, success, onPath removed cwd FileSystem.mkdirs mntpath⟩

-- The dispatch. $* is split into words again.
def main : Result κ :=
  let op := args.headD []
  if op = "init".toList then ⟨0, success, fs⟩
  else if args.length < 2 then usage fs
  else
    let rest := args.tail.flatMap Shell.fields
    if op = "attach".toList then attach fs
    else if op = "detach".toList then detach fs
    else if op = "mount".toList then domount fs cwd rest
    else if op = "unmount".toList then unmount fs cwd rest
    else usage fs

end Operations

end MesosPoc.Flexvolume
