import MesosPoc.Performance.Suit

namespace MesosPoc.Performance.Suit

-- The replicas of the controller after a case. A number that is missing changes
-- nothing, and the kills are made good.
def CaseFile.replicasAfter (case : CaseFile) (replicas : Int) : Int :=
  match case.command with
  | .create count => count.getD replicas
  | .scale count => count.getD replicas
  | .delete => 0
  | .start => replicas

-- The case waits for as many events as replicas change, and for the right ones.
structure Kept (replicas : Int) (case : CaseFile) : Prop where
  nonneg : 0 ≤ case.replicasAfter replicas
  exitCondition : case.command ≠ .start →
    case.exitCondition = some ((case.replicasAfter replicas - replicas).natAbs : Int)
  creation : replicas < case.replicasAfter replicas → case.checker = .creation
  deletion : case.replicasAfter replicas < replicas → case.checker = .deletion
  cleared : case.command = .delete → case.exitCondition = some replicas

-- The books are kept along a sequence of cases.
def KeepsBooks : Int → List CaseFile → Prop
  | _, [] => True
  | replicas, case :: rest => Kept replicas case ∧ KeepsBooks (case.replicasAfter replicas) rest

-- The books are kept from one number of replicas to another.
inductive Leads : Int → Int → List CaseFile → Prop
  | nil (replicas : Int) : Leads replicas replicas []
  | cons {before after : Int} {case : CaseFile} {rest : List CaseFile} (hcase : Kept before case)
      (hrest : Leads (case.replicasAfter before) after rest) : Leads before after (case :: rest)

theorem Leads.append {before between after : Int} {first second : List CaseFile} (hfirst : Leads before between first)
    (hsecond : Leads between after second) : Leads before after (first ++ second) := by
  induction hfirst with
  | nil => exact hsecond
  | cons hcase _ ih => exact .cons hcase (ih hsecond)

theorem Leads.keepsBooks {before after : Int} {cases : List CaseFile} (h : Leads before after cases) :
    KeepsBooks before cases := by
  induction h with
  | nil => trivial
  | cons hcase _ ih => exact ⟨hcase, ih⟩

section Steps

variable {replicas : Int}

-- A case that scales keeps the books when its exit condition is the difference, and
-- its checker the one of the direction.
theorem kept_scaleDown (replicas : Int) {caseName : Str} {target exit : Int} (hnonneg : 0 ≤ target)
    (hexit : exit = replicas - target) (hle : target ≤ replicas) :
    Kept replicas (template scaleDownTemplate caseName [(.podCount, target), (.podDownCount, exit)]) where
  nonneg := hnonneg
  exitCondition := by
    intro _
    change some exit = some ((target - replicas).natAbs : Int)
    congr 1
    omega
  creation := by
    intro h
    change replicas < target at h
    omega
  deletion := fun _ => rfl
  cleared := fun h => by cases h

theorem kept_scaleUp (replicas : Int) {caseName : Str} {target exit : Int} (hnonneg : 0 ≤ target)
    (hexit : exit = target - replicas) (hle : replicas ≤ target) :
    Kept replicas (template scaleUpTemplate caseName [(.podCount, target), (.podUpCount, exit)]) where
  nonneg := hnonneg
  exitCondition := by
    intro _
    change some exit = some ((target - replicas).natAbs : Int)
    congr 1
    omega
  creation := fun _ => rfl
  deletion := by
    intro h
    change target < replicas at h
    omega
  cleared := fun h => by cases h

theorem kept_create {caseName : Str} {target : Int} (hnonneg : 0 ≤ target) :
    Kept 0 (template createTemplate caseName [(.podCount, target)]) where
  nonneg := hnonneg
  exitCondition := by
    intro _
    change some target = some ((target - 0).natAbs : Int)
    congr 1
    omega
  creation := fun _ => rfl
  deletion := by
    intro h
    change target < 0 at h
    omega
  cleared := fun h => by cases h

theorem kept_clear {caseName : Str} (hnonneg : 0 ≤ replicas) :
    Kept replicas (template clearTemplate caseName [(.podCount, replicas)]) where
  nonneg := Int.le_refl 0
  exitCondition := by
    intro _
    change some replicas = some ((0 - replicas).natAbs : Int)
    congr 1
    omega
  creation := by
    intro h
    change replicas < 0 at h
    omega
  deletion := fun _ => rfl
  cleared := fun _ => rfl

-- A kill leaves the controller as it is.
theorem kept_start {case : CaseFile} (hcommand : case.command = .start) (hnonneg : 0 ≤ replicas) :
    Kept replicas case := by
  have hafter : case.replicasAfter replicas = replicas := by
    rw [CaseFile.replicasAfter, hcommand]
  refine ⟨by rwa [hafter], fun h => absurd hcommand h, ?_, ?_, ?_⟩
  · intro h
    omega
  · intro h
    omega
  · intro h
    rw [hcommand] at h
    cases h

end Steps

theorem kept_of_mem {replicas : Int} {cases : List CaseFile} (h : KeepsBooks replicas cases) {case : CaseFile}
    (hcase : case ∈ cases) : ∃ before, Kept before case := by
  induction cases generalizing replicas with
  | nil => cases hcase
  | cons first rest ih =>
      rcases List.mem_cons.mp hcase with rfl | hrest
      · exact ⟨replicas, h.1⟩
      · exact ih h.2 hrest

section Counts

theorem arith_eq {x : Int} (hlow : -2 ^ 63 ≤ x) (hhigh : x < 2 ^ 63) : arith x = x := by
  unfold arith
  omega

theorem arith_natCast {n : Nat} (h : n < 2 ^ 63) : arith n = n :=
  arith_eq (by omega) (by omega)

-- The counts that suit.sh works with when nothing overflows.
structure Sound (counts : Counts) : Prop where
  count : 0 ≤ counts.podCount
  small : counts.podCount < 2 ^ 62
  up : counts.podUpCount = counts.podCount * 2
  down : 0 ≤ counts.podDownCount ∧ counts.podDownCount ≤ counts.podCount
  scale : 0 ≤ counts.podScaleCount

variable {counts : Counts}

theorem leads_kills (hcount : 0 ≤ counts.podCount) :
    Leads counts.podCount counts.podCount
      (if counts.concurrent = 1 then [template upnodeTemplate "KILL_NODE".toList [(.podUpCount, 1)]] else []) := by
  split
  · exact .cons (kept_start rfl hcount) (.nil _)
  · exact .nil _

theorem leads_fixed (h : Sound counts) :
    Leads counts.podCount counts.podCount
      (if counts.podCount ≥ counts.podScaleCount then
        [template scaleDownTemplate "SCALE_FIXED_DOWN".toList
          [(.podCount, arith (counts.podCount - counts.podScaleCount)), (.podDownCount, counts.podScaleCount)],
          template scaleUpTemplate "SCALE_FIXED_UP".toList
            [(.podCount, counts.podCount), (.podUpCount, counts.podScaleCount)]]
        else []) := by
  obtain ⟨hcount, hsmall, -, -, hscale⟩ := h
  split
  next hge =>
    rw [arith_eq (by omega) (by omega)]
    apply Leads.cons (kept_scaleDown counts.podCount (by omega) (by omega) (by omega))
    apply Leads.cons (kept_scaleUp (counts.podCount - counts.podScaleCount) hcount (by omega) (by omega))
    exact .nil _
  next => exact .nil _

-- KILL_POD, the scaling down and up by the ratio, and both restorings.
theorem leads_ratio (h : Sound counts) :
    Leads counts.podCount counts.podCount
      [template upTemplate "KILL_POD".toList [(.podUpCount, counts.killPodCount)],
        template scaleDownTemplate "SCALE_DOWN".toList
          [(.podCount, arith (counts.podCount - counts.podDownCount)), (.podDownCount, counts.podDownCount)],
        template scaleUpTemplate "RESTORE".toList
          [(.podCount, counts.podCount), (.podUpCount, counts.podDownCount)],
        template scaleUpTemplate "SCALE_UP".toList
          [(.podCount, counts.podUpCount), (.podUpCount, arith (counts.podUpCount - counts.podCount))],
        template scaleDownTemplate "RESTORE".toList
          [(.podCount, counts.podCount), (.podDownCount, arith (counts.podUpCount - counts.podCount))]] := by
  obtain ⟨hcount, hsmall, hup, ⟨hdown, hhalf⟩, -⟩ := h
  rw [arith_eq (show -2 ^ 63 ≤ counts.podCount - counts.podDownCount by omega) (by omega),
    arith_eq (show -2 ^ 63 ≤ counts.podUpCount - counts.podCount by omega) (by omega)]
  apply Leads.cons (kept_start rfl hcount)
  apply Leads.cons (kept_scaleDown counts.podCount (by omega) (by omega) (by omega))
  apply Leads.cons (kept_scaleUp (counts.podCount - counts.podDownCount) hcount (by omega) (by omega))
  apply Leads.cons (kept_scaleUp counts.podCount (by omega) rfl (by omega))
  apply Leads.cons (kept_scaleDown counts.podUpCount hcount rfl (by omega))
  exact .nil _

theorem suit_keepsBooks (h : Sound counts) : KeepsBooks 0 (suit counts) := by
  have hcreated : Leads 0 counts.podCount [template createTemplate "CREATE".toList [(.podCount, counts.podCount)]] :=
    .cons (kept_create h.count) (.nil _)
  have hcleared : Leads counts.podCount 0 [template clearTemplate "CLEAR".toList [(.podCount, counts.podCount)]] :=
    .cons (kept_clear h.count) (.nil _)
  exact ((((hcreated.append (leads_kills h.count)).append (leads_ratio h)).append (leads_fixed h)).append
    hcleared).keepsBooks

theorem podCount_eq {podTotal concurrent : Nat} (killPodCount : Int) (htotal : podTotal / concurrent < 2 ^ 63) :
    (podCounts podTotal concurrent killPodCount).podCount = (podTotal / concurrent : Nat) := by
  change arith ((podTotal : Int).tdiv concurrent) = _
  rw [← Int.ofNat_tdiv, arith_natCast htotal]

theorem podScaleCount_eq (podTotal concurrent : Nat) (killPodCount : Int) :
    (podCounts podTotal concurrent killPodCount).podScaleCount = (200 / concurrent : Nat) := by
  have hle := Nat.div_le_self 200 concurrent
  change arith (((200 : Nat) : Int).tdiv concurrent) = _
  rw [← Int.ofNat_tdiv, arith_natCast (by omega)]

theorem sound_podCounts {podTotal concurrent : Nat} (killPodCount : Int)
    (hsmall : podTotal / concurrent < 2 ^ 62) : Sound (podCounts podTotal concurrent killPodCount) := by
  have hcount := podCount_eq killPodCount (show podTotal / concurrent < 2 ^ 63 by omega)
  have hup : (podCounts podTotal concurrent killPodCount).podUpCount =
      arith ((podCounts podTotal concurrent killPodCount).podCount * 2) := rfl
  have hdown : (podCounts podTotal concurrent killPodCount).podDownCount =
      arith ((podCounts podTotal concurrent killPodCount).podCount.tdiv 2) := rfl
  have hscale := podScaleCount_eq podTotal concurrent killPodCount
  have hhalf : ((podTotal / concurrent : Nat) : Int).tdiv 2 = (podTotal / concurrent / 2 : Nat) :=
    (Int.ofNat_tdiv _ 2).symm
  rw [hcount] at hup hdown
  generalize podTotal / concurrent = n at hcount hsmall hup hdown hhalf
  rw [arith_eq (by omega) (by omega)] at hup
  rw [hhalf, arith_natCast (by omega)] at hdown
  refine ⟨?_, ?_, ?_, ?_, ?_⟩
  · omega
  · omega
  · rw [hup, hcount]
  · omega
  · rw [hscale]
    exact Int.natCast_nonneg _

-- A count that is too great is doubled to a negative one.
theorem upCount_negative {podTotal concurrent : Nat} (killPodCount : Int) (htotal : podTotal < 2 ^ 63)
    (hgreat : 2 ^ 62 ≤ podTotal / concurrent) : (podCounts podTotal concurrent killPodCount).podUpCount < 0 := by
  have hle := Nat.div_le_self podTotal concurrent
  have hcount := podCount_eq killPodCount (show podTotal / concurrent < 2 ^ 63 by omega)
  change arith ((podCounts podTotal concurrent killPodCount).podCount * 2) < 0
  rw [hcount, arith]
  generalize podTotal / concurrent = n at hgreat hle
  omega

theorem upCount_nonneg (h : KeepsBooks 0 (suit counts)) : 0 ≤ counts.podUpCount := by
  have hmem : template scaleUpTemplate "SCALE_UP".toList
      [(.podCount, counts.podUpCount), (.podUpCount, arith (counts.podUpCount - counts.podCount))] ∈ suit counts := by
    apply List.mem_append_left
    apply List.mem_append_left
    apply List.mem_append_right
    exact List.mem_cons_of_mem _ (List.mem_cons_of_mem _ (List.mem_cons_of_mem _ List.mem_cons_self))
  obtain ⟨_, hkept⟩ := kept_of_mem h hmem
  exact hkept.nonneg

end Counts

theorem keepsBooks_iff {podTotal concurrent : Nat} (killPodCount : Int) (htotal : podTotal < 2 ^ 63) :
    KeepsBooks 0 (suit (podCounts podTotal concurrent killPodCount)) ↔ podTotal / concurrent < 2 ^ 62 := by
  constructor
  · intro h
    by_contra hgreat
    have hnegative := upCount_negative killPodCount htotal (Nat.le_of_not_lt hgreat)
    exact absurd (upCount_nonneg h) (Int.not_le.mpr hnegative)
  · intro hsmall
    exact suit_keepsBooks (sound_podCounts killPodCount hsmall)

theorem default_keepsBooks : KeepsBooks 0 (suit (podCounts 400 100 1)) :=
  (keepsBooks_iff 1 (by decide)).mpr (by decide)

theorem doubled_count_overflows :
    (podCounts (2 ^ 62) 1 1).podUpCount = -2 ^ 63 ∧ ¬KeepsBooks 0 (suit (podCounts (2 ^ 62) 1 1)) := by
  have hup : (podCounts (2 ^ 62) 1 1).podUpCount = -2 ^ 63 := by decide
  refine ⟨hup, ?_⟩
  intro h
  have hnonneg := upCount_nonneg h
  rw [hup] at hnonneg
  revert hnonneg
  decide

-- The runs of batchtask.sh are those of the numbers of threads that it lets through.
theorem mem_batchtask {podTotal : Nat} {killPodCount : Int} {definition : List Nat} {counts : Counts}
    (h : counts ∈ batchtask podTotal killPodCount definition) :
    ∃ concurrent ∈ definition, concurrent ≤ podTotal ∧ counts = podCounts podTotal concurrent killPodCount := by
  induction definition with
  | nil => cases h
  | cons concurrent rest ih =>
      rw [batchtask] at h
      split at h
      · cases h
      next hle =>
        rcases List.mem_cons.mp h with rfl | hrest
        · exact ⟨concurrent, List.mem_cons_self, by omega, rfl⟩
        · obtain ⟨concurrent', hmem, hle', heq⟩ := ih hrest
          exact ⟨concurrent', List.mem_cons_of_mem _ hmem, hle', heq⟩

theorem batchtask_keepsBooks {podTotal : Nat} {killPodCount : Int} {definition : List Nat}
    (htotal : podTotal < 2 ^ 62) :
    ∀ counts ∈ batchtask podTotal killPodCount definition, KeepsBooks 0 (suit counts) := by
  intro counts hcounts
  obtain ⟨concurrent, -, -, rfl⟩ := mem_batchtask hcounts
  have hle := Nat.div_le_self podTotal concurrent
  exact suit_keepsBooks (sound_podCounts killPodCount (by omega))

end MesosPoc.Performance.Suit
