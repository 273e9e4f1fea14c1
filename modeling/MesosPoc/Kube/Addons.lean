import MesosPoc.Kube

namespace MesosPoc.Kube

-- An object of the role k8s-addons, and the manifest file that it is created from.
structure Addon where
  resource : Str
  name : Str
  filename : Str
  resource_ne : resource ≠ []
  name_ne : name ≠ []
  filename_ne : filename ≠ []

def kubeconfig : Str := "/etc/kubernetes/kubectl.kubeconfig".toList

def kubeDns : Addon where
  resource := "rc".toList
  name := "kube-dns-v8".toList
  filename := "/etc/kubernetes/manifests_tmpl/skydns-rc.yaml".toList
  resource_ne := by decide
  name_ne := by decide
  filename_ne := by decide

def kubeUi : Addon where
  resource := "rc".toList
  name := "kube-ui-v1".toList
  filename := "/etc/kubernetes/manifests_tmpl/kube-ui-rc.yaml".toList
  resource_ne := by decide
  name_ne := by decide
  filename_ne := by decide

def kubeUiService : Addon where
  resource := "svc".toList
  name := "kube-ui".toList
  filename := "/etc/kubernetes/manifests_tmpl/kube-ui-svc.yaml".toList
  resource_ne := by decide
  name_ne := by decide
  filename_ne := by decide

-- The task "create or update": changed | ternary('latest', 'present')
def Addon.params (a : Addon) (changed : Bool) : Params :=
  { defaults with
    ns := some "kube-system".toList
    resource := some a.resource
    name := some a.name
    filename := some a.filename
    state := if changed then .latest else .present
    config := some kubeconfig }

-- The master that the tasks run on: the manifest file, and the cluster.
structure Master (σ : Type) where
  file : Option Str
  cluster : σ

-- One run of the role for an addon. An interrupted run ends between its two tasks.
structure Deployment where
  manifest : Str
  interrupted : Bool

section Role

variable {σ : Type} (kubectl : Option Str → Kubectl σ) (binary : Str) (a : Addon)

-- The copy or template task writes a file that differs, and registers that. kubectl finds
-- the file there. The result is that of the second task.
def deploy (d : Deployment) (m : Master σ) : Option (Except Failure (Bool × Str)) × Master σ :=
  let changed := decide (m.file ≠ some d.manifest)
  if d.interrupted then (none, { m with file := some d.manifest })
  else
    match main (kubectl (some d.manifest)) binary (a.params changed) m.cluster with
    | (result, after) => (some result, ⟨some d.manifest, after⟩)

def deployAll (ds : List Deployment) (m : Master σ) : Master σ :=
  ds.foldl (fun before d => (deploy kubectl binary a d before).2) m

end Role

-- The command line of a task of the addon.
def Addon.command (binary : Str) (cmd : List Str) : List Str :=
  [binary, "--api-version=v1".toList, "--namespace=kube-system".toList, "--kubeconfig=".toList ++ kubeconfig] ++ cmd

def Addon.get (a : Addon) : List Str := ["get".toList, a.resource, a.name, "--no-headers".toList]

def Addon.create (a : Addon) : List Str := ["create".toList, "--filename=".toList ++ a.filename]

def Addon.replace (a : Addon) : List Str :=
  ["replace".toList, "--force".toList, "--filename=".toList ++ a.filename]

-- What kubectl does for an addon, by its documentation. It may fail at any time. get
-- prints nothing for an object that does not exist, create does not touch one that
-- exists, replace --force deletes the object and creates it again.
structure Serves {σ : Type} (kubectl : Option Str → Kubectl σ) (binary : Str) (a : Addon)
    (object : σ → Option Str) : Prop where
  get : ∀ file s r after, (kubectl file).run (Addon.command binary a.get) s = (r, after) →
    object after = object s ∧ ∀ out err, r = .ok (0, out, err) → Performance.splitlines out ≠ [] → object s ≠ none
  create : ∀ manifest s r after, (kubectl (some manifest)).run (Addon.command binary a.create) s = (r, after) →
    (object after = object s ∨ object s = none ∧ object after = some manifest) ∧
      ∀ out err, r = .ok (0, out, err) → object s = none ∧ object after = some manifest
  replace : ∀ manifest s r after, (kubectl (some manifest)).run (Addon.command binary a.replace) s = (r, after) →
    (object after = object s ∨ object after = none ∨ object after = some manifest) ∧
      ∀ out err, r = .ok (0, out, err) → object after = some manifest

end MesosPoc.Kube
