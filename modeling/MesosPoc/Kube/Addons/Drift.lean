import MesosPoc.Kube.Addons

namespace MesosPoc.Kube

open Performance (splitlines)

section Tasks

variable {σ α β : Type}

theorem Task.andThen_eq {t : Task σ α} {next : α → Task σ β} {s last : σ} {r : Except Failure β}
    (h : t.andThen next s = (r, last)) :
    (∃ a mid, t s = (.ok a, mid) ∧ next a mid = (r, last)) ∨ ∃ e, t s = (.error e, last) ∧ r = .error e := by
  unfold Task.andThen at h
  split at h
  · rename_i a mid ht
    exact Or.inl ⟨a, mid, ht, h⟩
  · rename_i e mid ht
    obtain ⟨rfl, rfl⟩ := Prod.mk.inj h
    exact Or.inr ⟨e, ht, rfl⟩

end Tasks

theorem given_some {option : Str} (h : option ≠ []) (argument : Str → Str) :
    given (some option) argument = [argument option] := by
  cases option with
  | nil => exact absurd rfl h
  | cons c rest => rfl

theorem baseCmd_params (binary : Str) (a : Addon) (changed force : Bool) :
    baseCmd binary { a.params changed with force := force } =
      [binary, "--api-version=v1".toList, "--namespace=kube-system".toList, "--kubeconfig=".toList ++ kubeconfig] := rfl

section Commands

variable {σ : Type} {kubectl : Kubectl σ} {binary : Str} {p : Params} {cmd : List Str} {s after : σ}

-- execute runs one command, and has lines only when it succeeds.
theorem execute_eq {r : Except Failure (List Str)} (h : execute kubectl binary p cmd s = (r, after)) :
    ∃ answer, kubectl.run (baseCmd binary p ++ cmd) s = (answer, after) ∧
      ∀ lines, r = .ok lines → ∃ out err, answer = .ok (0, out, err) := by
  simp only [execute] at h
  split at h
  · rename_i rc out err mid hrun
    split at h
    · obtain ⟨rfl, rfl⟩ := Prod.mk.inj h
      exact ⟨_, hrun, fun lines heq => by cases heq⟩
    · rename_i hrc
      obtain ⟨rfl, rfl⟩ := Prod.mk.inj h
      refine ⟨_, hrun, fun lines heq => ⟨out, err, ?_⟩⟩
      rw [not_not.mp hrc]
  · rename_i message mid hrun
    obtain ⟨rfl, rfl⟩ := Prod.mk.inj h
    exact ⟨_, hrun, fun lines heq => by cases heq⟩

theorem executeNofail_eq {r : Except Failure (Option (List Str))}
    (h : executeNofail kubectl binary p cmd s = (r, after)) :
    ∃ answer, kubectl.run (baseCmd binary p ++ cmd) s = (answer, after) ∧
      ∀ lines, r = .ok (some lines) → ∃ out err, answer = .ok (0, out, err) ∧ lines = splitlines out := by
  unfold executeNofail at h
  split at h
  · rename_i rc out err mid hrun
    obtain ⟨rfl, rfl⟩ := Prod.mk.inj h
    refine ⟨_, hrun, ?_⟩
    intro lines heq
    split at heq
    · cases heq
    · rename_i hrc
      obtain rfl := Option.some.inj (Except.ok.inj heq)
      refine ⟨out, err, ?_, rfl⟩
      rw [not_not.mp hrc]
  · rename_i message mid hrun
    obtain ⟨rfl, rfl⟩ := Prod.mk.inj h
    exact ⟨_, hrun, fun lines heq => by cases heq⟩

end Commands

section Addons

variable {σ : Type} {kubectl : Option Str → Kubectl σ} {binary : Str} {a : Addon} {object : σ → Option Str}
  {manifest : Str} {changed : Bool} {s after : σ}

theorem exists_spec (hs : Serves kubectl binary a object) {file : Option Str} {r : Except Failure Bool}
    (h : resourceExists (kubectl file) binary (a.params changed) s = (r, after)) :
    object after = object s ∧ (r = .ok true → object s ≠ none) := by
  have hcmd : resourceExists (kubectl file) binary (a.params changed) =
      (executeNofail (kubectl file) binary (a.params changed) a.get).andThen
        fun result => .done (result.any (· ≠ [])) := by
    simp only [resourceExists, Addon.params, given_some a.resource_ne, given_some a.name_ne, id_eq]
    rfl
  have hbase : baseCmd binary (a.params changed) = _ := baseCmd_params binary a changed false
  rw [hcmd] at h
  rcases Task.andThen_eq h with ⟨result, mid, hget, hdone⟩ | ⟨e, hget, rfl⟩
  · obtain ⟨rfl, rfl⟩ := Prod.mk.inj hdone
    obtain ⟨answer, hrun, hlines⟩ := executeNofail_eq hget
    rw [hbase] at hrun
    obtain ⟨hsame, hfound⟩ := hs.get file s answer mid hrun
    refine ⟨hsame, ?_⟩
    intro heq
    have hany := Except.ok.inj heq
    cases result with
    | none => cases hany
    | some lines =>
        obtain ⟨out, err, hanswer, rfl⟩ := hlines lines rfl
        exact hfound out err hanswer (of_decide_eq_true hany)
  · obtain ⟨answer, hrun, -⟩ := executeNofail_eq hget
    rw [hbase] at hrun
    exact ⟨(hs.get file s answer after hrun).1, fun heq => by cases heq⟩

-- create without its check
theorem create_spec (hs : Serves kubectl binary a object) {r : Except Failure (List Str)}
    (h : create (kubectl (some manifest)) binary (a.params changed) false s = (r, after)) :
    (object after = object s ∨ object s = none ∧ object after = some manifest) ∧
      ∀ lines, r = .ok lines → object s = none ∧ object after = some manifest := by
  have hcmd : create (kubectl (some manifest)) binary (a.params changed) false s =
      execute (kubectl (some manifest)) binary (a.params changed) a.create s := by
    simp only [create, Bool.false_eq_true, if_false, Task.andThen, Task.done, withFile, Addon.params,
      given_some a.filename_ne]
    rfl
  rw [hcmd] at h
  obtain ⟨answer, hrun, hlines⟩ := execute_eq h
  have hbase : baseCmd binary (a.params changed) = _ := baseCmd_params binary a changed false
  rw [hbase] at hrun
  obtain ⟨hafter, hok⟩ := hs.create manifest s answer after hrun
  refine ⟨hafter, ?_⟩
  intro lines heq
  obtain ⟨out, err, hanswer⟩ := hlines lines heq
  exact hok out err hanswer

theorem replace_spec (hs : Serves kubectl binary a object) {r : Except Failure (List Str)}
    (h : replace (kubectl (some manifest)) binary { a.params changed with force := true } s = (r, after)) :
    (object after = object s ∨ object after = none ∨ object after = some manifest) ∧
      ∀ lines, r = .ok lines → object after = some manifest := by
  have hcmd : replace (kubectl (some manifest)) binary { a.params changed with force := true } s =
      execute (kubectl (some manifest)) binary { a.params changed with force := true } a.replace s := by
    simp only [replace, if_true, Task.andThen, Task.done, withFile, Addon.params, given_some a.filename_ne]
    rfl
  rw [hcmd] at h
  obtain ⟨answer, hrun, hlines⟩ := execute_eq h
  rw [baseCmd_params] at hrun
  obtain ⟨hafter, hok⟩ := hs.replace manifest s answer after hrun
  refine ⟨hafter, ?_⟩
  intro lines heq
  obtain ⟨out, err, hanswer⟩ := hlines lines heq
  exact hok out err hanswer

-- The task after the manifest has changed.
theorem latest_spec (hs : Serves kubectl binary a object) {r : Except Failure (Bool × Str)}
    (h : main (kubectl (some manifest)) binary (a.params true) s = (r, after)) :
    ∀ result, r = .ok result → object after = some manifest := by
  intro result heq
  subst heq
  rcases Task.andThen_eq h with ⟨lines, mid, hlatest, hdone⟩ | ⟨e, -, heq⟩
  · obtain ⟨-, rfl⟩ := Prod.mk.inj hdone
    rcases Task.andThen_eq hlatest with ⟨found, mid', -, hnext⟩ | ⟨e, -, heq⟩
    · cases found with
      | true => exact (replace_spec hs hnext).2 lines rfl
      | false => exact ((create_spec hs hnext).2 lines rfl).2
    · cases heq
  · cases heq

-- The task while the manifest is the same.
theorem present_spec (hs : Serves kubectl binary a object) {r : Except Failure (Bool × Str)}
    (h : main (kubectl (some manifest)) binary (a.params false) s = (r, after)) :
    (object after = object s ∨ object s = none ∧ object after = some manifest) ∧
      ∀ result, r = .ok result → object after ≠ none ∧ (object s ≠ none → result.1 = false) := by
  have hcreate : ∀ {r : Except Failure (List Str)},
      create (kubectl (some manifest)) binary (a.params false) true s = (r, after) →
        (object after = object s ∨ object s = none ∧ object after = some manifest) ∧
          ∀ lines, r = .ok lines → object after ≠ none ∧ (object s ≠ none → lines = []) := by
    intro r hr
    rcases Task.andThen_eq hr with ⟨found, mid, hexists, hnext⟩ | ⟨e, hexists, rfl⟩
    · have hexists : resourceExists (kubectl (some manifest)) binary (a.params false) s = (.ok found, mid) := hexists
      obtain ⟨hsame, hfound⟩ := exists_spec hs hexists
      cases found with
      | true =>
          obtain ⟨rfl, rfl⟩ := Prod.mk.inj hnext
          refine ⟨Or.inl hsame, ?_⟩
          intro lines heq
          exact ⟨hsame ▸ hfound rfl, fun _ => (Except.ok.inj heq).symm⟩
      | false =>
          have hunchecked : create (kubectl (some manifest)) binary (a.params false) false mid = (r, after) := hnext
          obtain ⟨hafter, hok⟩ := create_spec hs hunchecked
          rw [hsame] at hafter hok
          refine ⟨hafter, ?_⟩
          intro lines heq
          obtain ⟨hnone, hsome⟩ := hok lines heq
          exact ⟨by rw [hsome]; exact Option.some_ne_none manifest, fun hne => absurd hnone hne⟩
    · have hexists : resourceExists (kubectl (some manifest)) binary (a.params false) s = (.error e, after) := hexists
      exact ⟨Or.inl (exists_spec hs hexists).1, fun lines heq => by cases heq⟩
  rcases Task.andThen_eq h with ⟨lines, mid, htask, hdone⟩ | ⟨e, htask, rfl⟩
  · obtain ⟨rfl, rfl⟩ := Prod.mk.inj hdone
    obtain ⟨hafter, hok⟩ := hcreate htask
    obtain ⟨hne, hlines⟩ := hok lines rfl
    refine ⟨hafter, ?_⟩
    rintro result heq
    obtain rfl := Except.ok.inj heq
    refine ⟨hne, ?_⟩
    intro hs
    simp [hlines hs]
  · exact ⟨(hcreate htask).1, fun result heq => by cases heq⟩

theorem deploy_file (d : Deployment) (m : Master σ) : (deploy kubectl binary a d m).2.file = some d.manifest := by
  unfold deploy
  simp only
  split
  · rfl
  · rfl

-- A run whose manifest is already on the master.
theorem deploy_same (hs : Serves kubectl binary a object) (d : Deployment) (m : Master σ)
    (hfile : m.file = some d.manifest) :
    (object (deploy kubectl binary a d m).2.cluster = object m.cluster ∨
        object m.cluster = none ∧ object (deploy kubectl binary a d m).2.cluster = some d.manifest) ∧
      ∀ result, (deploy kubectl binary a d m).1 = some (.ok result) →
        object (deploy kubectl binary a d m).2.cluster ≠ none ∧ (object m.cluster ≠ none → result.1 = false) := by
  unfold deploy
  simp only [hfile, ne_eq, not_true_eq_false, decide_false]
  split
  · exact ⟨Or.inl rfl, fun result heq => by cases heq⟩
  · cases hmain : main (kubectl (some d.manifest)) binary (a.params false) m.cluster with
    | mk r after =>
        obtain ⟨hafter, hok⟩ := present_spec hs hmain
        exact ⟨hafter, fun result heq => hok result (Option.some.inj heq)⟩

theorem deploy_changed (hs : Serves kubectl binary a object) (d : Deployment) (m : Master σ)
    (hfile : m.file ≠ some d.manifest) (result : Bool × Str)
    (hok : (deploy kubectl binary a d m).1 = some (.ok result)) :
    object (deploy kubectl binary a d m).2.cluster = some d.manifest := by
  unfold deploy at hok ⊢
  simp only [hfile, ne_eq, not_false_eq_true, decide_true] at hok ⊢
  split
  · rename_i hinterrupted
    rw [if_pos hinterrupted] at hok
    cases hok
  · rename_i hinterrupted
    rw [if_neg hinterrupted] at hok
    cases hmain : main (kubectl (some d.manifest)) binary (a.params true) m.cluster with
    | mk r after =>
        rw [hmain] at hok
        exact latest_spec hs hmain result (Option.some.inj hok)

-- While the manifest stays the same, an object that exists stays, and one that does not
-- exist can only be created from the manifest.
theorem deployAll_same (hs : Serves kubectl binary a object) (ds : List Deployment) (m : Master σ)
    (hfile : m.file = some manifest) (hsame : ∀ d ∈ ds, d.manifest = manifest) :
    (deployAll kubectl binary a ds m).file = some manifest ∧
      (object (deployAll kubectl binary a ds m).cluster = object m.cluster ∨
        object m.cluster = none ∧ object (deployAll kubectl binary a ds m).cluster = some manifest) := by
  induction ds generalizing m with
  | nil => exact ⟨hfile, Or.inl rfl⟩
  | cons d rest ih =>
      rw [List.forall_mem_cons] at hsame
      obtain ⟨rfl, hrest⟩ := hsame
      obtain ⟨hlast, hobject⟩ := ih (deploy kubectl binary a d m).2 (deploy_file d m) hrest
      have hfold : deployAll kubectl binary a (d :: rest) m =
          deployAll kubectl binary a rest (deploy kubectl binary a d m).2 := rfl
      rw [hfold]
      refine ⟨hlast, ?_⟩
      rcases (deploy_same hs d m hfile).1 with heq | ⟨hnone, hsome⟩
      · rw [heq] at hobject
        exact hobject
      · refine Or.inr ⟨hnone, ?_⟩
        rw [hsome] at hobject
        rcases hobject with heq | ⟨hno, -⟩
        · exact heq
        · cases hno

-- After the run that changed the manifest file, any runs with the same manifest and a
-- successful one, the object is the one of the manifest exactly if the first of these runs
-- has left that or none. An older object that it has left stays, and is reported as
-- unchanged. A successful first run leaves none.
theorem drift_iff (hs : Serves kubectl binary a object) (m : Master σ) (change last : Deployment)
    (between : List Deployment) (hchange : m.file ≠ some change.manifest)
    (hsame : ∀ d ∈ between ++ [last], d.manifest = change.manifest) (result : Bool × Str)
    (hlast : (deploy kubectl binary a last (deployAll kubectl binary a (change :: between) m)).1 =
      some (.ok result)) :
    let changed := (deploy kubectl binary a change m).2
    let final := deployAll kubectl binary a (change :: (between ++ [last])) m
    (object final.cluster = some change.manifest ↔
        object changed.cluster = none ∨ object changed.cluster = some change.manifest) ∧
      (object final.cluster ≠ some change.manifest →
        object final.cluster = object changed.cluster ∧ result.1 = false) ∧
      (∀ first, (deploy kubectl binary a change m).1 = some (.ok first) →
        object changed.cluster = some change.manifest) := by
  intro changed final
  obtain ⟨hbetween, hone⟩ := List.forall_mem_append.mp hsame
  have hlastmanifest : last.manifest = change.manifest := hone last List.mem_cons_self
  obtain ⟨hmid, hmidobject⟩ := deployAll_same hs between changed (deploy_file change m) hbetween
  have hlast : (deploy kubectl binary a last (deployAll kubectl binary a between changed)).1 = some (.ok result) := hlast
  obtain ⟨hafter, hok⟩ := deploy_same hs last (deployAll kubectl binary a between changed) (hlastmanifest ▸ hmid)
  obtain ⟨hne, hunchanged⟩ := hok result hlast
  have hfinal : final = (deploy kubectl binary a last (deployAll kubectl binary a between changed)).2 := by
    show deployAll kubectl binary a (between ++ [last]) changed = _
    rw [deployAll, List.foldl_append]
    rfl
  rw [hlastmanifest] at hafter
  rw [hfinal]
  have hcases : object changed.cluster = none ∧
        object (deploy kubectl binary a last (deployAll kubectl binary a between changed)).2.cluster =
          some change.manifest ∨
      object changed.cluster ≠ none ∧ result.1 = false ∧
        object (deploy kubectl binary a last (deployAll kubectl binary a between changed)).2.cluster =
          object changed.cluster := by
    cases hobject : object changed.cluster with
    | none =>
        refine Or.inl ⟨rfl, ?_⟩
        rw [hobject] at hmidobject
        rcases hafter with heq | ⟨-, hsome⟩
        · rcases hmidobject with hmidnone | ⟨-, hmidsome⟩
          · rw [heq, hmidnone] at hne
            exact absurd rfl hne
          · rw [heq, hmidsome]
        · exact hsome
    | some old =>
        rw [hobject] at hmidobject
        have hmidold : object (deployAll kubectl binary a between changed).cluster = some old := by
          rcases hmidobject with hmidsame | ⟨hno, -⟩
          · exact hmidsame
          · cases hno
        have hmidne : object (deployAll kubectl binary a between changed).cluster ≠ none := by
          rw [hmidold]
          exact Option.some_ne_none old
        refine Or.inr ⟨Option.some_ne_none old, hunchanged hmidne, ?_⟩
        rcases hafter with heq | ⟨hno, -⟩
        · rw [heq, hmidold]
        · exact absurd hno hmidne
  refine ⟨?_, ?_, fun first hfirst => deploy_changed hs change m hchange first hfirst⟩
  · rcases hcases with ⟨hnone, hsome⟩ | ⟨hsome, -, heq⟩
    · exact iff_of_true hsome (Or.inl hnone)
    · rw [heq, or_iff_right hsome]
  · intro hdrift
    rcases hcases with ⟨-, hsome⟩ | ⟨-, hreported, heq⟩
    · exact absurd hsome hdrift
    · exact ⟨heq, hreported⟩

end Addons

-- An update that was interrupted between its tasks: the next run is a success and leaves
-- the old object.

def clusterOf (file : Option Str) : Kubectl (Option Str) where
  run args object :=
    if args[4]? = some "get".toList then
      (.ok (if object = none then (1, [], "not found".toList) else (0, "kube-dns-v8\n".toList, [])), object)
    else if args[4]? = some "create".toList then
      if object = none then (.ok (0, "created\n".toList, []), file) else (.ok (1, [], "exists".toList), object)
    else (.ok (0, "replaced\n".toList, []), file)

def kubectlPath : Str := "/usr/bin/kubectl".toList

theorem clusterOf_serves : Serves clusterOf kubectlPath kubeDns id where
  get := by
    intro file s r after h
    obtain ⟨rfl, rfl⟩ := Prod.mk.inj h
    refine ⟨rfl, ?_⟩
    rintro out err heq - rfl
    cases heq
  create := by
    intro manifest s r after h
    cases s with
    | none =>
        obtain ⟨rfl, rfl⟩ := Prod.mk.inj h
        exact ⟨Or.inr ⟨rfl, rfl⟩, fun _ _ _ => ⟨rfl, rfl⟩⟩
    | some old =>
        obtain ⟨rfl, rfl⟩ := Prod.mk.inj h
        refine ⟨Or.inl rfl, ?_⟩
        intro out err heq
        cases heq
  replace := by
    intro manifest s r after h
    obtain ⟨rfl, rfl⟩ := Prod.mk.inj h
    exact ⟨Or.inr (Or.inr rfl), fun _ _ _ => rfl⟩

def oldMaster : Master (Option Str) := ⟨some "v8".toList, some "v8".toList⟩

def interruptedUpdate : Deployment := ⟨"v9".toList, true⟩

def secondRun : Deployment := ⟨"v9".toList, false⟩

theorem oldMaster_drifts :
    (id (deployAll clusterOf kubectlPath kubeDns [interruptedUpdate, secondRun] oldMaster).cluster =
        some interruptedUpdate.manifest ↔
      id (deploy clusterOf kubectlPath kubeDns interruptedUpdate oldMaster).2.cluster = none ∨
        id (deploy clusterOf kubectlPath kubeDns interruptedUpdate oldMaster).2.cluster =
          some interruptedUpdate.manifest) ∧
      (id (deployAll clusterOf kubectlPath kubeDns [interruptedUpdate, secondRun] oldMaster).cluster ≠
          some interruptedUpdate.manifest →
        id (deployAll clusterOf kubectlPath kubeDns [interruptedUpdate, secondRun] oldMaster).cluster =
          id (deploy clusterOf kubectlPath kubeDns interruptedUpdate oldMaster).2.cluster ∧ false = false) ∧
      (∀ first, (deploy clusterOf kubectlPath kubeDns interruptedUpdate oldMaster).1 = some (.ok first) →
        id (deploy clusterOf kubectlPath kubeDns interruptedUpdate oldMaster).2.cluster =
          some interruptedUpdate.manifest) :=
  drift_iff clusterOf_serves oldMaster interruptedUpdate secondRun [] (by decide)
    (by simp [interruptedUpdate, secondRun]) (false, "success: ".toList) (by decide +kernel)

end MesosPoc.Kube
