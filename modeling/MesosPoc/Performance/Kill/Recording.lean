import MesosPoc.Performance.Kill.Selection

namespace MesosPoc.Performance

open Outcome

-- The entry of a kill: its node and the number of the pods that were asked for.
def Records (kill : Kill Json) (entry : Str × Nat) : Prop :=
  entry.1 = kill.name ∧ len kill.asked = .ok entry.2

-- Every kill has exactly one entry in the list, also where killNodes raises.
structure Recorded (nodes : List Str) (run : Outcome PyError (Kills Json (Str × Nat))) : Prop where
  entries : List.Forall₂ Records run.state.issued run.state.killed
  once : nodes.Nodup → (run.state.killed.map Prod.fst).Nodup

-- The caller gets the list, unless there is nothing in it.
def Restorable (nodes : List Str) (run : Outcome PyError (Kills Json (Str × Nat))) : Prop :=
  Recorded nodes run ∧ (run.raised ≠ none → run.state.issued = [])

-- The body of an answer is a JSON object with a list of items, or with an object or a
-- text in its place.
def HasItems (output : Str) : Prop :=
  ∃ pairs items n, loadOutput output = .obj pairs ∧ Json.lookup "items".toList pairs = some items ∧
    len items = .ok n

theorem podsOf_countable_iff (output : Str) (pods : Json) (h : podsOf output = .ok pods) :
    (∃ n, len pods = .ok n) ↔ HasItems output := by
  have hnull : ¬∃ n, len .null = .ok n := by
    rintro ⟨n, hn⟩
    cases hn
  unfold podsOf at h
  by_cases ht : (loadOutput output).truthy = true
  · rw [if_pos ht] at h
    obtain ⟨found, hkey, h⟩ := bind_eq_ok.mp h
    cases hout : loadOutput output with
    | obj pairs =>
        rw [hout] at hkey h
        cases hl : Json.lookup "items".toList pairs with
        | none =>
            obtain rfl : false = found := Except.ok.inj ((Json.hasKey_obj hl).symm.trans hkey)
            obtain rfl := Except.ok.inj h
            apply iff_of_false hnull
            rintro ⟨pairs', items, n, hobj, hitems, -⟩
            rw [hout] at hobj
            obtain rfl := Json.obj.inj hobj
            rw [hl] at hitems
            cases hitems
        | some items =>
            obtain rfl : true = found := Except.ok.inj ((Json.hasKey_obj hl).symm.trans hkey)
            obtain rfl : items = pods := Except.ok.inj ((Json.getItem_of_lookup hl).symm.trans h)
            constructor
            · rintro ⟨n, hn⟩
              exact ⟨pairs, items, n, hout, hl, hn⟩
            · rintro ⟨pairs', items', n, hobj, hitems, hn⟩
              rw [hout] at hobj
              obtain rfl := Json.obj.inj hobj
              obtain rfl := Option.some.inj (hl.symm.trans hitems)
              exact ⟨n, hn⟩
    | _ =>
        rw [hout] at hkey
        cases hkey
  · rw [if_neg ht] at h
    obtain rfl := Except.ok.inj h
    apply iff_of_false hnull
    rintro ⟨pairs, items, n, hobj, hitems, -⟩
    rw [hobj] at ht
    cases pairs with
    | nil => cases hitems
    | cons pair pairs => exact ht rfl

section Loop

variable (format : Json → Except PyError Str) (config : Json)

def EachMeets (condition : Json → Kills Json (Str × Nat) → Turn → Prop) (nodes : List Str) (count : Int)
    (turns : Nat → Turn) : Prop :=
  ∀ killCommand, config.getItem "kill_command".toList = .ok killCommand →
    Meets (killOne killCommand (getNodePods format config) nodeEntry) (condition killCommand) (.start nodes)
      ((List.range count.toNat).map turns)

-- The query before a kill is answered with an object whose items have a length.
def Countable (killCommand : Json) (s : Kills Json (Str × Nat)) (turn : Turn) : Prop :=
  ∀ kill, Launches killCommand (getNodePods format config) s.names turn kill →
    ∃ url output, queryUrl format config kill.name = .ok url ∧ turn.urlopen url = .ok output ∧ HasItems output

-- After the first kill every iteration gets as far as its own.
def GoesOn (killCommand : Json) (s : Kills Json (Str × Nat)) (turn : Turn) : Prop :=
  s.issued ≠ [] → ∃ kill, Launches killCommand (getNodePods format config) s.names turn kill

variable (killCommand : Json)

theorem nodeEntry_ok_iff (name : Str) (pods : Json) (entry : Str × Nat) :
    nodeEntry name pods = .ok entry ↔ entry.1 = name ∧ len pods = .ok entry.2 := by
  constructor
  · intro h
    obtain ⟨n, hlen, h⟩ := bind_eq_ok.mp h
    obtain rfl := Except.ok.inj h
    exact ⟨rfl, hlen⟩
  · rintro ⟨rfl, hlen⟩
    exact bind_eq_ok.mpr ⟨entry.2, hlen, rfl⟩

theorem nodeEntry_error (name : Str) (pods : Json) (e : PyError) (h : nodeEntry name pods = .error e) :
    ¬∃ n, len pods = .ok n := by
  rintro ⟨n, hlen⟩
  have hok := (nodeEntry_ok_iff name pods (name, n)).mpr ⟨rfl, hlen⟩
  rw [h] at hok
  cases hok

theorem countable_iff (s : Kills Json (Str × Nat)) (turn : Turn) :
    Countable format config killCommand s turn ↔
      EachKill killCommand (getNodePods format config) (fun kill => ∃ n, len kill.asked = .ok n) s turn := by
  apply forall_congr'
  intro kill
  apply imp_congr_right
  rintro ⟨-, hask, -⟩
  obtain ⟨url, hurl, hask⟩ := bind_eq_ok.mp hask
  obtain ⟨output, houtput, hpods⟩ := bind_eq_ok.mp hask
  refine Iff.trans ?_ (podsOf_countable_iff output kill.asked hpods).symm
  constructor
  · rintro ⟨url', output', hurl', houtput', hitems⟩
    obtain rfl := Except.ok.inj (hurl.symm.trans hurl')
    obtain rfl := Except.ok.inj (houtput.symm.trans houtput')
    exact hitems
  · intro hitems
    exact ⟨url, output, hurl, houtput, hitems⟩

theorem entries_iff (turns : List Turn) (s : Kills Json (Str × Nat))
    (hs : List.Forall₂ Records s.issued s.killed) :
    List.Forall₂ Records (forEach (killOne killCommand (getNodePods format config) nodeEntry) s turns).state.issued
        (forEach (killOne killCommand (getNodePods format config) nodeEntry) s turns).state.killed ↔
      Meets (killOne killCommand (getNodePods format config) nodeEntry) (Countable format config killCommand) s
        turns := by
  rw [meets_congr (countable_iff format config killCommand)]
  apply killLoop_iff killCommand (getNodePods format config) nodeEntry (fun kill => ∃ n, len kill.asked = .ok n)
    Records (fun run => List.Forall₂ Records run.state.issued run.state.killed) _ _ _ _ turns s hs
  · intro run h
    exact h
  · intro kill entry _ h
    exact (nodeEntry_ok_iff kill.name kill.asked entry).mp h
  · intro s kill issued e h hi he
    apply iff_of_false _ (nodeEntry_error _ _ e he)
    intro hrecorded
    have hlen := hrecorded.length_eq
    rw [raise_state, hi, List.length_append, h.length_eq] at hlen
    exact absurd hlen (Nat.succ_ne_self _)
  · intro run kill entry issued killed _ hcount h _ _
    exact absurd ⟨entry.2, ((nodeEntry_ok_iff kill.name kill.asked entry).mp h).2⟩ hcount

-- A raise loses the list. It has to come before the first kill.
theorem kept_iff (turns : List Turn) (s : Kills Json (Str × Nat))
    (hp : Meets (killOne killCommand (getNodePods format config) nodeEntry) (Countable format config killCommand)
      s turns) :
    ((forEach (killOne killCommand (getNodePods format config) nodeEntry) s turns).raised ≠ none →
        (forEach (killOne killCommand (getNodePods format config) nodeEntry) s turns).state.issued = []) ↔
      Meets (killOne killCommand (getNodePods format config) nodeEntry) (GoesOn format config killCommand) s
        turns := by
  induction turns generalizing s with
  | nil => exact iff_of_true (fun h => absurd rfl h) trivial
  | cons turn turns ih =>
      obtain ⟨hcount, hrest⟩ := hp
      rcases killOne_cases killCommand (getNodePods format config) nodeEntry s turn with
        ⟨e, s', hone, hi, -, hidle⟩ | ⟨kill, s', hl, -, -, hone⟩
      · simp only [forEach, Meets, hone, raise_andThen, raise_raised, raise_state, reduceCtorEq,
          IsEmpty.forall_iff, and_true, ne_eq, not_false_eq_true, forall_true_left, hi]
        constructor
        · intro h hne
          exact absurd h hne
        · intro h
          by_contra hne
          obtain ⟨kill, hl⟩ := h hne
          exact hidle kill hl
      · obtain ⟨n, hlen⟩ := (countable_iff format config killCommand s turn).mp hcount kill hl
        have hentry := (nodeEntry_ok_iff kill.name kill.asked (kill.name, n)).mpr ⟨rfl, hlen⟩
        have hdone : killOne killCommand (getNodePods format config) nodeEntry s turn =
            .done (s'.reported (kill.name, n)) := by
          rw [hone, hentry]
        rw [hdone] at hrest
        simp only [forEach, Meets, hdone, done_andThen, done_raised, done_state, forall_true_left]
        have hnext := ih (s'.reported (kill.name, n)) (hrest rfl)
        rw [hnext]
        exact (and_iff_right fun _ => ⟨kill, hl⟩).symm

theorem issuedNames_of_entries (s : Kills Json (Str × Nat)) (h : List.Forall₂ Records s.issued s.killed) :
    s.killed.map Prod.fst = s.issuedNames := by
  have hnames (issued : List (Kill Json)) (killed : List (Str × Nat)) (h : List.Forall₂ Records issued killed) :
      killed.map Prod.fst = issued.map Kill.name := by
    induction h with
    | nil => rfl
    | cons hr _ ih => rw [List.map_cons, List.map_cons, hr.1, ih]
  exact hnames s.issued s.killed h

theorem killNodes_once (nodes : List Str) (count : Int) (hcount : count ≤ nodes.length) (turns : Nat → Turn)
    (hnodes : nodes.Nodup)
    (h : List.Forall₂ Records (killNodes format config nodes count turns).state.issued
      (killNodes format config nodes count turns).state.killed) :
    ((killNodes format config nodes count turns).state.killed.map Prod.fst).Nodup := by
  rw [issuedNames_of_entries _ h]
  have hdistinct := (killLoop_selects config (getNodePods format config) nodeEntry nodes hnodes count hcount
    turns).distinct
  exact hdistinct.of_append_left

-- Every kill has its entry exactly when the pods of its node can be counted, and the
-- caller has the list exactly when besides nothing raises after the first kill.
theorem killNodes_recorded_iff (nodes : List Str) (count : Int) (hcount : count ≤ nodes.length)
    (turns : Nat → Turn) :
    (Recorded nodes (killNodes format config nodes count turns) ↔
        EachMeets format config (Countable format config) nodes count turns) ∧
      (Restorable nodes (killNodes format config nodes count turns) ↔
        EachMeets format config (Countable format config) nodes count turns ∧
          EachMeets format config (GoesOn format config) nodes count turns) := by
  have hrecorded : Recorded nodes (killNodes format config nodes count turns) ↔
      EachMeets format config (Countable format config) nodes count turns := by
    have hentries : Recorded nodes (killNodes format config nodes count turns) ↔
        List.Forall₂ Records (killNodes format config nodes count turns).state.issued
          (killNodes format config nodes count turns).state.killed :=
      ⟨fun h => h.entries, fun h => ⟨h, fun hn => killNodes_once format config nodes count hcount turns hn h⟩⟩
    rw [hentries]
    unfold killNodes killLoop EachMeets
    cases hconfig : config.getItem "kill_command".toList with
    | error e => exact iff_of_true .nil (by rintro _ ⟨⟩)
    | ok killCommand =>
        simp only [Except.ok.injEq, forall_eq']
        exact entries_iff format config killCommand _ (.start nodes) .nil
  refine ⟨hrecorded, ?_⟩
  rw [Restorable, hrecorded]
  apply and_congr_right
  intro hcountable
  unfold killNodes killLoop
  unfold EachMeets at hcountable ⊢
  cases hconfig : config.getItem "kill_command".toList with
  | error e => exact iff_of_true (fun _ => rfl) (by rintro _ ⟨⟩)
  | ok killCommand =>
      simp only [Except.ok.injEq, forall_eq']
      exact kept_iff format config killCommand _ (.start nodes) (hcountable killCommand hconfig)

end Loop

def itemsRun : Outcome PyError (Kills Json (Str × Nat)) :=
  killNodes (fun _ => .ok []) nodeToolConfig ["a".toList, "b".toList] 1 fun _ => itemsTurn

theorem itemsText_hasItems : HasItems itemsText := by
  refine ⟨[("items".toList, .arr [.int 1, .int 2])], .arr [.int 1, .int 2], 2, ?_, rfl, rfl⟩
  rw [loadOutput, itemsText_loads]
  rfl

theorem items_node_restorable : Restorable ["a".toList, "b".toList] itemsRun := by
  refine (killNodes_recorded_iff (fun _ => .ok []) nodeToolConfig ["a".toList, "b".toList] 1 (by decide)
    fun _ => itemsTurn).2.mpr ⟨?_, ?_⟩
  · intro killCommand hget
    refine ⟨?_, fun _ => trivial⟩
    intro kill hl
    exact ⟨_, itemsText, rfl, rfl, itemsText_hasItems⟩
  · intro killCommand hget
    exact ⟨fun h => absurd rfl h, fun _ => trivial⟩

-- A server that answers with an empty body.
def silentRun : Outcome PyError (Kills Json (Str × Nat)) :=
  killNodes (fun _ => .ok []) nodeToolConfig ["a".toList, "b".toList] 1 fun _ => lowTurn 0

theorem silent_node_unrecorded :
    silentRun.state.issuedNames = ["a".toList] ∧ silentRun.state.killed = [] ∧
      silentRun.raised = some .typeError ∧ ¬Recorded ["a".toList, "b".toList] silentRun := by
  refine ⟨rfl, rfl, rfl, ?_⟩
  intro h
  cases h.entries.length_eq

end MesosPoc.Performance
