import MesosPoc.LoadBalancer.Services
import MesosPoc.Outcome

namespace MesosPoc.LoadBalancer

-- What a reload changes: the config file, and the runs of reload.sh with the
-- content of the file at each of them.
structure Host where
  file : Str
  reloads : List Str
deriving DecidableEq

-- What a reload depends on. A template that cannot be loaded or rendered raises,
-- and a write may fail after some bytes.
structure World where
  get : Str → Except PyError Str
  render : List RawService → Except PyError Str
  openError : Option PyError
  writeError : Option (Nat × PyError)

-- open(configfile, "w") truncates the file. When it fails, finally uses a name that
-- is not bound.
def writeConfig (w : World) (content : Str) (host : Host) : Outcome PyError Host :=
  match w.openError with
  | some _ => .raise (.unboundLocalError "file".toList) host
  | none =>
      match w.writeError with
      | some (k, e) => .raise e { host with file := content.take k }
      | none => .done { host with file := content }

def generateconfig (w : World) (server : Str) (host : Host) : Outcome PyError Host :=
  match loadservices w.get server with
  | .error e => .raise e host
  | .ok services =>
      match w.render services with
      | .error e => .raise e host
      | .ok content => writeConfig w content host

def reloadbalancer (w : World) (server : Str) (host : Host) : Outcome PyError Host :=
  (generateconfig w server host).andThen fun host =>
    .done { host with reloads := host.reloads ++ [host.file] }

-- All steps before the first byte is written succeed.
def Opens (w : World) (server content : Str) : Prop :=
  ∃ services, loadservices w.get server = .ok services ∧ w.render services = .ok content ∧
    w.openError = none

-- A reload that fails runs no reload.sh, and leaves the file as it was unless the
-- write itself fails.
structure ReloadsSafely (w : World) (server : Str) (host : Host) : Prop where
  unopened : (∀ content, ¬Opens w server content) →
    ∃ e, reloadbalancer w server host = .raise e host
  cut : ∀ content k e, Opens w server content → w.writeError = some (k, e) →
    reloadbalancer w server host = .raise e { host with file := content.take k }
  complete : ∀ content, Opens w server content → w.writeError = none →
    reloadbalancer w server host = .done ⟨content, host.reloads ++ [content]⟩

theorem generateconfig_unopened (w : World) (server : Str) (host : Host)
    (h : ∀ content, ¬Opens w server content) : ∃ e, generateconfig w server host = .raise e host := by
  unfold generateconfig
  cases hs : loadservices w.get server with
  | error e => exact ⟨e, rfl⟩
  | ok services =>
      cases hr : w.render services with
      | error e => exact ⟨e, by simp only [hr]⟩
      | ok content =>
          cases ho : w.openError with
          | none => exact absurd ⟨services, hs, hr, ho⟩ (h content)
          | some e =>
              refine ⟨.unboundLocalError "file".toList, ?_⟩
              simp only [hr, writeConfig, ho]

theorem generateconfig_opened (w : World) (server content : Str) (host : Host)
    (h : Opens w server content) : generateconfig w server host = writeConfig w content host := by
  obtain ⟨services, hs, hr, -⟩ := h
  simp only [generateconfig, hs, hr]

theorem writeConfig_cut (w : World) (content : Str) (host : Host) (k : Nat) (e : PyError)
    (ho : w.openError = none) (hw : w.writeError = some (k, e)) :
    writeConfig w content host = .raise e { host with file := content.take k } := by
  simp only [writeConfig, ho, hw]

theorem writeConfig_complete (w : World) (content : Str) (host : Host) (ho : w.openError = none)
    (hw : w.writeError = none) : writeConfig w content host = .done { host with file := content } := by
  simp only [writeConfig, ho, hw]

-- For every failure of a request, of decoding, of a missing key, of the template,
-- of opening the file and of the write.
theorem reloadbalancer_safe (w : World) (server : Str) (host : Host) : ReloadsSafely w server host where
  unopened h := by
    obtain ⟨e, he⟩ := generateconfig_unopened w server host h
    exact ⟨e, by rw [reloadbalancer, he, Outcome.raise_andThen]⟩
  cut content k e h hw := by
    have hopen : w.openError = none := h.choose_spec.2.2
    rw [reloadbalancer, generateconfig_opened w server content host h,
      writeConfig_cut w content host k e hopen hw, Outcome.raise_andThen]
  complete content h hw := by
    have hopen : w.openError = none := h.choose_spec.2.2
    rw [reloadbalancer, generateconfig_opened w server content host h,
      writeConfig_complete w content host hopen hw, Outcome.done_andThen]

-- No service, and a disk that is full after one byte.
def fullDisk : World where
  get _ := .ok "\x7b\"items\":[]\x7d".toList
  render _ := .ok "global".toList
  openError := none
  writeError := some (1, .exception "No space left on device".toList)

-- The file is truncated before it is written.
theorem fullDisk_cuts_file :
    reloadbalancer fullDisk "10.0.0.9:8080".toList ⟨"old".toList, []⟩ =
      .raise (.exception "No space left on device".toList) ⟨"g".toList, []⟩ := by
  decide +kernel

end MesosPoc.LoadBalancer
