import MesosPoc.Collectd.DockerPlugin.Threads

namespace MesosPoc.Collectd

-- A call of read_callback finds this container running.
def Lists (cid : Str) : Label → Prop
  | .call containers => cid ∈ ids (running containers)
  | _ => True

-- The entries that are still to be deleted.
def Callback.doomed : Callback → List Str
  | .listed gone _ => gone
  | _ => []

namespace DockerPlugin

open Machine

def Kept (s : DockerPlugin) (cid : Str) (i : Nat) : Prop :=
  s.stats.lookup cid = some i ∧ cid ∉ s.callback.doomed

section Entries

variable {s t : DockerPlugin} {label : Label} {cid : Str} {i : Nat}

theorem kept_of_same (hlabel : Lists cid label) (hdoomed : cid ∈ t.callback.doomed ↔ cid ∈ s.callback.doomed)
    (hlookup : t.stats.lookup cid = some i ↔ s.stats.lookup cid = some i) :
    t.Kept cid i ↔ s.Kept cid i ∧ Lists cid label := by
  unfold Kept
  rw [hlookup, hdoomed, and_iff_left hlabel]

-- Only a call that does not list the container gives up its entry.
theorem kept_step (hi : i < s.threads.length) (hstep : s.step label = some t) :
    t.Kept cid i ↔ s.Kept cid i ∧ Lists cid label := by
  cases moves_of_step hstep with
  | called containers hidle =>
      simp only [Kept, Lists, hidle, Callback.doomed, List.not_mem_nil, not_false_eq_true, and_true]
      apply and_congr_right
      intro hlookup
      have hm : cid ∈ s.stats.keys := AList.mem_keys.mp (AList.lookup_isSome.mp (by rw [hlookup]; rfl))
      rw [List.mem_filter, and_iff_right hm, Bool.not_eq_true', Bool.not_eq_false, List.contains_iff_mem]
  | discarded other gone containers hlisted hm =>
      simp only [Kept, Lists, and_true, hlisted, Callback.doomed, lookup_erase]
      by_cases hother : cid = other
      · subst hother
        rw [if_pos rfl]
        exact iff_of_false (fun h => by cases h.1) (fun h => h.2 hm)
      · rw [if_neg hother, List.mem_erase_of_ne hother]
  | returned hlisted => exact kept_of_same trivial (by rw [hlisted]; rfl) Iff.rfl
  | visited c rest hlisted =>
      refine kept_of_same trivial (by rw [hlisted]; rfl) ?_
      show (s.addThread c).stats.lookup cid = some i ↔ _
      rw [lookup_addThread]
      by_cases hnew : c.id ∉ s.stats ∧ cid = c.id
      · have hnone : s.stats.lookup cid = none := by
          rw [← Option.not_isSome_iff_eq_none, AList.lookup_isSome, hnew.2]
          exact hnew.1
        rw [if_pos hnew, hnone, Option.some.injEq]
        exact iff_of_false (by omega) (Option.some_ne_none i ∘ Eq.symm)
      · rw [if_neg hnew]
  | seen c rest thread hwaiting hthread havailable =>
      exact kept_of_same trivial (by rw [hwaiting]; rfl) Iff.rfl
  | taken c rest thread value htaking hthread hvalue hname =>
      exact kept_of_same trivial (by rw [htaking]; rfl) Iff.rfl
  | raised c rest htaking hname => exact kept_of_same trivial (by rw [htaking]; rfl) Iff.rfl
  | proceeded j thread next hthread hnext => exact kept_of_same trivial Iff.rfl Iff.rfl
  | answered j reading thread next hthread hnext => exact kept_of_same trivial Iff.rfl Iff.rfl

-- No thread is ever forgotten.
theorem threads_length_step (hstep : s.step label = some t) : s.threads.length ≤ t.threads.length := by
  cases moves_of_step hstep with
  | discarded cid gone containers hlisted hm =>
      show s.threads.length ≤ (s.stopThread cid).threads.length
      unfold stopThread
      split
      · rw [List.length_modify]
      · exact le_rfl
  | visited c rest hlisted =>
      show s.threads.length ≤ (s.addThread c).threads.length
      rw [threads_addThread, List.length_append]
      omega
  | proceeded j thread next hthread hnext =>
      rw [setThread, List.length_set]
  | answered j reading thread next hthread hnext =>
      rw [setThread, List.length_set]
  | _ => exact le_rfl

theorem kept_run (labels : List Label) (hi : i < s.threads.length) (hrun : run step s labels = some t) :
    t.Kept cid i ↔ s.Kept cid i ∧ ∀ label ∈ labels, Lists cid label := by
  induction labels generalizing s with
  | nil =>
      obtain rfl : s = t := Option.some.inj hrun
      simp
  | cons label rest ih =>
      obtain ⟨next, hs, hrun⟩ := Option.bind_eq_some_iff.mp hrun
      have hlength := threads_length_step hs
      rw [ih (by omega) hrun, kept_step hi hs, List.forall_mem_cons, and_assoc]

theorem kept_of_idle (hidle : s.callback = .idle) : s.Kept cid i ↔ s.stats.lookup cid = some i := by
  rw [Kept, hidle]
  exact and_iff_left List.not_mem_nil

theorem lt_of_lookup {past : List Label} (h : Accounted past s) (hlookup : s.stats.lookup cid = some i) :
    i < s.threads.length := by
  obtain ⟨thread, hthread, -⟩ := h.registered cid i hlookup
  exact (List.getElem?_eq_some_iff.mp hthread).1

end Entries

-- The entry of a container lives exactly as long as every call finds the container
-- running. What becomes of the thread does not matter.
theorem entry_kept_iff (labels more : List Label) (s t : DockerPlugin) (hrun : run step init labels = some s)
    (hmore : run step s more = some t) (hs : s.callback = .idle) (ht : t.callback = .idle) (cid : Str) (i : Nat)
    (hlookup : s.stats.lookup cid = some i) :
    t.stats.lookup cid = some i ↔ ∀ label ∈ more, Lists cid label := by
  have hi := lt_of_lookup (accounted_run labels hrun) hlookup
  rw [← kept_of_idle ht, kept_run more hi hmore, kept_of_idle hs, and_iff_right hlookup]

def servingLabels : List Label := [.call [web], .visit, .see, .take, .visit]

theorem web_kept :
    ∃ s t, run step init staleLabels = some s ∧ run step s servingLabels = some t ∧
      (t.stats.lookup "a".toList = some 0 ↔ ∀ label ∈ servingLabels, Lists "a".toList label) :=
  ⟨_, _, rfl, rfl, entry_kept_iff staleLabels servingLabels _ _ rfl rfl rfl rfl "a".toList 0 (by decide)⟩

end DockerPlugin

end MesosPoc.Collectd
