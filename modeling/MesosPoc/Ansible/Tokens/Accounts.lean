import MesosPoc.Ansible.Tokens
import MesosPoc.Ansible.Addresses

namespace MesosPoc.Ansible

open Jinja

section Grep

theorem startsLine_append (pattern more line : Str) :
    startsLine (pattern ++ more) line = (startsLine pattern line && startsLine more (line.drop pattern.length)) := by
  induction pattern generalizing line with
  | nil => rfl
  | cons p pattern ih =>
      cases line with
      | nil => rfl
      | cons c line => simp only [List.cons_append, startsLine, ih, List.length_cons, List.drop_succ_cons, Bool.and_assoc]

theorem startsLine_append_line (pattern line more : Str) (h : pattern.length ≤ line.length) :
    startsLine pattern (line ++ more) = startsLine pattern line := by
  induction pattern generalizing line with
  | nil => rfl
  | cons p pattern ih =>
      cases line with
      | nil => simp at h
      | cons c line => simp only [List.cons_append, startsLine, ih line (by simpa using h)]

theorem startsLine_self (text : Str) : startsLine text text = true := by
  induction text with
  | nil => rfl
  | cons c text ih => simp [startsLine, ih]

-- A comma that follows a word without one is the end of that word or comes later.
theorem comma_split {word before after rest : Str} (hword : ',' ∉ word)
    (h : before ++ ',' :: after = word ++ ',' :: rest) :
    (before = word ∧ after = rest) ∨ ∃ more, rest = more ++ ',' :: after := by
  induction word generalizing before with
  | nil =>
      cases before with
      | nil => exact Or.inl ⟨rfl, (List.cons.inj h).2⟩
      | cons c before => exact Or.inr ⟨before, (List.cons.inj h).2.symm⟩
  | cons d word ih =>
      simp only [List.mem_cons, not_or] at hword
      cases before with
      | nil => exact absurd (List.cons.inj h).1 hword.1
      | cons c before =>
          obtain ⟨rfl, htail⟩ := List.cons.inj h
          rcases ih hword.2 htail with ⟨rfl, hrest⟩ | hmore
          · exact Or.inl ⟨rfl, hrest⟩
          · exact Or.inr hmore

-- grep finds the accounts that an account matches as an expression.
theorem grep_knownLine (account token other : Str) (ht : ',' ∉ token) (ho : ',' ∉ other) :
    grep (',' :: (account ++ [','])) (knownLine token other) = true ↔
      account.length = other.length ∧ startsLine account other = true := by
  have hcomma : ∀ rest, startsLine [','] rest = true ↔ rest.head? = some ',' := by
    intro rest
    cases rest with
    | nil => simp [startsLine]
    | cons c rest => simp [startsLine, eq_comm]
  constructor
  · intro h
    obtain ⟨suffix, hm, hstarts⟩ := List.any_eq_true.mp h
    obtain ⟨before, hline⟩ := (List.mem_tails _ _).mp hm
    cases suffix with
    | nil => cases hstarts
    | cons c after =>
        simp only [startsLine, Bool.and_eq_true, Bool.or_eq_true, decide_eq_true_eq, startsLine_append,
          hcomma, List.head?_drop] at hstarts
        obtain ⟨hc, hpattern, hend⟩ := hstarts
        obtain rfl : ',' = c := by simpa using hc
        have hnone : ∀ i, other[i]? ≠ some ',' := fun i hi => ho (List.mem_of_getElem? hi)
        rcases comma_split ht hline with ⟨-, rfl⟩ | ⟨more, hmore⟩
        · have hlength : account.length = other.length := by
            by_contra hne
            by_cases hlt : account.length < other.length
            · rw [List.getElem?_append_left hlt] at hend
              exact hnone _ hend
            · obtain ⟨i, hi⟩ : ∃ i, account.length - other.length = i + 1 :=
                ⟨account.length - other.length - 1, by omega⟩
              rw [List.getElem?_append_right (by omega), hi, List.getElem?_cons_succ] at hend
              exact hnone i hend
          rw [startsLine_append_line account other _ hlength.le] at hpattern
          exact ⟨hlength, hpattern⟩
        · rcases comma_split ho hmore.symm with ⟨-, rfl⟩ | ⟨last, hlast⟩
          · exact absurd hend (hnone _)
          · exact absurd (hlast ▸ List.mem_append_right _ List.mem_cons_self) ho
  · rintro ⟨hlength, hstarts⟩
    refine List.any_eq_true.mpr ⟨',' :: (other ++ ',' :: other), ?_, ?_⟩
    · exact (List.mem_tails _ _).mpr ⟨token, rfl⟩
    · simp [startsLine, startsLine_append, startsLine_append_line account other _ hlength.le, hstarts, hlength]

-- Where the expression has a dot the account may have any character, so an account with as
-- many dots is the expression itself.
theorem count_le_of_startsLine (pattern line : Str) (hlength : pattern.length = line.length)
    (h : startsLine pattern line = true) :
    line.count '.' ≤ pattern.count '.' ∧ (line.count '.' = pattern.count '.' → pattern = line) := by
  induction pattern generalizing line with
  | nil =>
      obtain rfl : line = [] := List.length_eq_zero_iff.mp hlength.symm
      exact ⟨le_rfl, fun _ => rfl⟩
  | cons p pattern ih =>
      cases line with
      | nil => cases h
      | cons c line =>
          simp only [startsLine, Bool.and_eq_true, Bool.or_eq_true, decide_eq_true_eq] at h
          obtain ⟨hle, heq⟩ := ih line (by simpa using hlength) h.2
          by_cases hc : c = '.'
          · have hp : p = '.' := by
              rcases h.1 with hp | hp
              · exact hp
              · rw [hp, hc]
            subst hp hc
            simp only [List.count_cons_self]
            exact ⟨by omega, fun hsame => by rw [heq (by omega)]⟩
          · by_cases hp : p = '.'
            · subst p
              rw [List.count_cons_self, List.count_cons_of_ne hc]
              exact ⟨by omega, fun hsame => by omega⟩
            · obtain rfl : p = c := h.1.resolve_left hp
              rw [List.count_cons_of_ne hc, List.count_cons_of_ne hc]
              exact ⟨hle, fun hsame => by rw [heq hsame]⟩

end Grep

section Accounts

-- The accounts of a playbook: a component and a host with three dots, without a comma.
def IsAccount (text : Str) : Prop :=
  text.count '.' = 3 ∧ ',' ∉ text

theorem count_dot_ipv4 {host : Str} (h : IsIpv4 host) : host.count '.' = 3 := by
  obtain ⟨octets, hlength, rfl⟩ := h
  obtain ⟨a, b, c, d, rfl⟩ : ∃ a b c d, octets = [a, b, c, d] := by
    match octets, hlength with
    | [a, b, c, d], _ => exact ⟨a, b, c, d, rfl⟩
  have hzero : ∀ n : Nat, (str n).count '.' = 0 := by
    intro n
    rw [List.count_eq_zero]
    intro hm
    cases isDigit_of_mem_str hm
  simp [join, List.intercalate_cons_cons, hzero]

theorem isAccount_account (component host : Str) (hc : component ∈ masterComponents ++ minionComponents)
    (hh : IsIpv4 host) : IsAccount (account component host) := by
  have hplain : ∀ component ∈ masterComponents ++ minionComponents,
      component.count '.' = 0 ∧ ',' ∉ component := by decide
  obtain ⟨hdots, hcomma⟩ := hplain component hc
  refine ⟨?_, ?_⟩
  · rw [account, List.count_append, List.count_cons_of_ne (by decide), hdots, count_dot_ipv4 hh]
  · have hhost : ',' ∉ host := host_notMem hh rfl (by decide)
    simp [account, hcomma, hhost]

theorem account_injective (component : Str) : Function.Injective (account component) := by
  intro host other h
  exact (List.cons.inj (List.append_cancel_left h)).2

structure Kubernetes.Addressed (groups : Kubernetes) : Prop where
  master : ∀ host ∈ groups.master, IsIpv4 host
  minion : ∀ host ∈ groups.minion, IsIpv4 host

theorem mem_nested {components hosts : List Str} {text : Str} :
    text ∈ nested components hosts ↔ ∃ component ∈ components, ∃ host ∈ hosts, account component host = text := by
  simp [nested]

theorem isAccount_of_mem {groups : Kubernetes} (h : groups.Addressed) {text : Str} (hm : text ∈ groups.accounts) :
    IsAccount text := by
  rcases List.mem_append.mp hm with hm | hm
  · obtain ⟨component, hc, host, hh, rfl⟩ := mem_nested.mp hm
    exact isAccount_account component host (List.mem_append_left _ hc) (h.master host hh)
  · obtain ⟨component, hc, host, hh, rfl⟩ := mem_nested.mp hm
    exact isAccount_account component host (List.mem_append_right _ hc) (h.minion host hh)

end Accounts

section Runs

-- What the calls of the script have written: a line for each account, with the token of
-- the call that was the first one for it.
structure Keyed (tokens : Nat → Str) (count : Nat) (dir : TokenDir) (rows : List (Str × Nat)) : Prop where
  known : dir.known = rows.map fun row => knownLine (tokens row.2) row.1
  accounts : (rows.map Prod.fst).Nodup
  calls : (rows.map Prod.snd).Nodup
  below : ∀ row ∈ rows, row.2 < count
  valid : ∀ row ∈ rows, IsAccount row.1
  files : ∀ row ∈ rows, dir.files (tokenFile row.1) = some (tokens row.2 ++ ['\n'])
  named : ∀ name content, dir.files name = some content → ∃ row ∈ rows, name = tokenFile row.1

variable {tokens : Nat → Str} (htokens : ∀ call, ',' ∉ tokens call)

theorem keyed_empty : Keyed tokens 0 .empty [] := by
  constructor <;> simp [TokenDir.empty]

include htokens in
-- An account that is asked for has a line exactly when grep finds one.
theorem grep_known {count : Nat} {dir : TokenDir} {rows : List (Str × Nat)} (h : Keyed tokens count dir rows)
    {text : Str} (ht : IsAccount text) :
    dir.known.any (grep (',' :: (text ++ [',']))) = true ↔ text ∈ rows.map Prod.fst := by
  rw [h.known, List.any_map, List.any_eq_true]
  constructor
  · rintro ⟨row, hm, hgrep⟩
    have hrow := h.valid row hm
    obtain ⟨hlength, hstarts⟩ := (grep_knownLine text _ row.1 (htokens row.2) hrow.2).mp hgrep
    have hsame := (count_le_of_startsLine text row.1 hlength hstarts).2 (hrow.1.trans ht.1.symm)
    exact List.mem_map.mpr ⟨row, hm, hsame.symm⟩
  · intro hm
    obtain ⟨row, hrow, rfl⟩ := List.mem_map.mp hm
    refine ⟨row, hrow, (grep_knownLine row.1 _ row.1 (htokens row.2) (h.valid row hrow).2).mpr ⟨rfl, ?_⟩⟩
    exact startsLine_self row.1

include htokens in
theorem keyed_call {count : Nat} {dir : TokenDir} {rows : List (Str × Nat)} (h : Keyed tokens count dir rows)
    {text : Str} (ht : IsAccount text) :
    ∃ more, Keyed tokens (count + 1) (kubeGenToken dir text (tokens count)) (rows ++ more) ∧
      text ∈ (rows ++ more).map Prod.fst := by
  by_cases hm : text ∈ rows.map Prod.fst
  · have hskip : kubeGenToken dir text (tokens count) = dir := by
      rw [kubeGenToken, if_pos ((grep_known htokens h ht).mpr hm)]
    rw [hskip]
    refine ⟨[], ?_, by simpa using hm⟩
    rw [List.append_nil]
    exact { h with below := fun row hrow => Nat.lt_succ_of_lt (h.below row hrow) }
  · have hno : dir.known.any (grep (',' :: (text ++ [',']))) ≠ true := fun hany =>
      hm ((grep_known htokens h ht).mp hany)
    have hcount : count ∉ rows.map Prod.snd := by
      intro hmem
      obtain ⟨row, hrow, rfl⟩ := List.mem_map.mp hmem
      exact Nat.lt_irrefl _ (h.below row hrow)
    refine ⟨[(text, count)], ?_, by simp⟩
    rw [kubeGenToken, if_neg hno]
    constructor
    · simp [h.known]
    · rw [List.map_append, List.nodup_append]
      refine ⟨h.accounts, by simp, ?_⟩
      rintro other ho last hlast rfl
      obtain rfl : other = text := by simpa using hlast
      exact hm ho
    · rw [List.map_append, List.nodup_append]
      refine ⟨h.calls, by simp, ?_⟩
      rintro other ho last hlast rfl
      obtain rfl : other = count := by simpa using hlast
      exact hcount ho
    · intro row hrow
      rcases List.mem_append.mp hrow with hrow | hrow
      · exact Nat.lt_succ_of_lt (h.below row hrow)
      · obtain rfl := List.mem_singleton.mp hrow
        exact Nat.lt_succ_self count
    · intro row hrow
      rcases List.mem_append.mp hrow with hrow | hrow
      · exact h.valid row hrow
      · obtain rfl := List.mem_singleton.mp hrow
        exact ht
    · intro row hrow
      rcases List.mem_append.mp hrow with hrow | hrow
      · have hne : tokenFile row.1 ≠ tokenFile text := by
          intro heq
          exact hm (List.append_cancel_right heq ▸ List.mem_map_of_mem hrow)
        exact (if_neg hne).trans (h.files row hrow)
      · obtain rfl := List.mem_singleton.mp hrow
        exact if_pos rfl
    · intro name content hfile
      by_cases hname : name = tokenFile text
      · exact ⟨(text, count), by simp, hname⟩
      · obtain ⟨row, hrow, heq⟩ := h.named name content ((if_neg hname).symm.trans hfile)
        exact ⟨row, List.mem_append_left _ hrow, heq⟩

def calls (tokens : Nat → Str) (dir : TokenDir) (accounts : List Str) (first : Nat) : TokenDir :=
  (accounts.zipIdx first).foldl (fun dir (account, call) => kubeGenToken dir account (tokens call)) dir

include htokens in
theorem keyed_calls (accounts : List Str) {count : Nat} {dir : TokenDir} {rows : List (Str × Nat)}
    (h : Keyed tokens count dir rows) (ha : ∀ text ∈ accounts, IsAccount text) :
    ∃ more, Keyed tokens (count + accounts.length) (calls tokens dir accounts count) (rows ++ more) ∧
      ∀ text ∈ accounts, text ∈ (rows ++ more).map Prod.fst := by
  induction accounts generalizing count dir rows with
  | nil => exact ⟨[], by simpa [calls] using h, by simp⟩
  | cons text rest ih =>
      obtain ⟨htext, hrest⟩ := List.forall_mem_cons.mp ha
      obtain ⟨first, hfirst, hmem⟩ := keyed_call htokens h htext
      obtain ⟨more, hmore, hall⟩ := ih hfirst hrest
      refine ⟨first ++ more, ?_, ?_⟩
      · rw [← List.append_assoc, List.length_cons, Nat.add_comm rest.length, ← Nat.add_assoc]
        exact hmore
      · rw [← List.append_assoc, List.forall_mem_cons]
        refine ⟨?_, hall⟩
        rw [List.map_append]
        exact List.mem_append_left _ hmem

include htokens in
-- Accounts that have their lines are passed over.
theorem calls_known (accounts : List Str) {count : Nat} {dir : TokenDir} {rows : List (Str × Nat)}
    (h : Keyed tokens count dir rows) (ha : ∀ text ∈ accounts, IsAccount text)
    (hm : ∀ text ∈ accounts, text ∈ rows.map Prod.fst) (first : Nat) : calls tokens dir accounts first = dir := by
  induction accounts generalizing first with
  | nil => rfl
  | cons text rest ih =>
      obtain ⟨htext, hrest⟩ := List.forall_mem_cons.mp ha
      obtain ⟨hmem, hmore⟩ := List.forall_mem_cons.mp hm
      have hskip : kubeGenToken dir text (tokens first) = dir := by
        rw [kubeGenToken, if_pos ((grep_known htokens h htext).mpr hmem)]
      rw [calls, List.zipIdx_cons, List.foldl_cons]
      simp only [hskip]
      exact ih hrest hmore (first + 1)

theorem calls_append (dir : TokenDir) (accounts more : List Str) (first : Nat) :
    calls tokens dir (accounts ++ more) first =
      calls tokens (calls tokens dir accounts first) more (first + accounts.length) := by
  rw [calls, List.zipIdx_append, List.foldl_append]
  rfl

end Runs

section Users

variable {tokens : Nat → Str}

theorem splitOn_knownLine (token account : Str) (ht : ',' ∉ token) (ha : ',' ∉ account) :
    (knownLine token account).splitOn ',' = [token, account, account] := by
  have hline : knownLine token account = [','].intercalate [token, account, account] := by
    simp [knownLine, List.intercalate_cons_cons]
  rw [hline]
  apply List.splitOn_intercalate
  · simp [ht, ha]
  · simp

theorem users_eq {count : Nat} {dir : TokenDir} {rows : List (Str × Nat)} (h : Keyed tokens count dir rows)
    (htokens : ∀ call, ',' ∉ tokens call) (token : Str) :
    users dir token = (rows.filter fun row => tokens row.2 = token).map Prod.fst := by
  have hvalid := h.valid
  rw [users, h.known]
  clear h
  induction rows with
  | nil => rfl
  | cons row rest ih =>
      obtain ⟨hrow, hrest⟩ := List.forall_mem_cons.mp hvalid
      rw [List.map_cons, List.filterMap_cons, splitOn_knownLine _ _ (htokens row.2) hrow.2]
      by_cases heq : tokens row.2 = token
      · simp [heq, ih hrest]
      · simp [heq, ih hrest]

theorem authenticates_row {count : Nat} {dir : TokenDir} {rows : List (Str × Nat)} (h : Keyed tokens count dir rows)
    (htokens : ∀ call, ',' ∉ tokens call) (hinj : ∀ i < count, ∀ j < count, tokens i = tokens j → i = j)
    {text : Str} (hm : text ∈ rows.map Prod.fst) (user : Str) :
    Authenticates dir (dir.files (tokenFile text)) user ↔ user = text := by
  obtain ⟨row, hrow, rfl⟩ := List.mem_map.mp hm
  have hone : rows.filter (fun other => tokens other.2 = tokens row.2) = [row] := by
    have hnodup : (rows.map Prod.snd).Nodup := h.calls
    have hsame : rows.filter (fun other => tokens other.2 = tokens row.2) = rows.filter (fun other => other.2 = row.2) := by
      apply List.filter_congr
      intro other ho
      rw [decide_eq_decide]
      exact ⟨hinj other.2 (h.below other ho) row.2 (h.below row hrow), fun heq => by rw [heq]⟩
    rw [hsame]
    clear h hm hsame
    induction rows with
    | nil => cases hrow
    | cons first rest ih =>
        rw [List.map_cons, List.nodup_cons] at hnodup
        rcases List.mem_cons.mp hrow with rfl | hrow
        · have hrest : rest.filter (fun other => other.2 = row.2) = [] := by
            rw [List.filter_eq_nil_iff]
            intro other ho heq
            exact hnodup.1 (List.mem_map.mpr ⟨other, ho, by simpa using heq⟩)
          rw [List.filter_cons_of_pos (by simp), hrest]
        · have hne : first.2 ≠ row.2 := fun heq => hnodup.1 (heq ▸ List.mem_map_of_mem hrow)
          rw [List.filter_cons_of_neg (by simpa using hne), ih hrow hnodup.2]
  have husers : users dir (tokens row.2) = [row.1] := by
    rw [users_eq h htokens, hone]
    rfl
  rw [h.files row hrow]
  constructor
  · rintro ⟨token, htoken, huser⟩
    obtain rfl : tokens row.2 = token := List.append_cancel_right (Option.some.inj htoken)
    rw [husers] at huser
    exact (List.cons.inj huser).1.symm
  · rintro rfl
    exact ⟨_, rfl, husers⟩

end Users

-- After any runs of the playbook, with hosts that come and go, each master host has its
-- own credentials; those of a minion are the ones of the first minion. A further run
-- with the same hosts changes nothing, and no run changes what an earlier one has written.
structure Credentials (tokens : Nat → Str) (runs : List Kubernetes) (groups : Kubernetes) : Prop where
  masters : ∀ component ∈ masterComponents, ∀ host ∈ groups.master,
    Authenticates (genTokens tokens (runs ++ [groups]))
      (masterToken (genTokens tokens (runs ++ [groups])) component host) (account component host)
  minions : ∀ component ∈ nodeTokens, ∀ host ∈ groups.minion,
    (Authenticates (genTokens tokens (runs ++ [groups]))
      (minionToken (genTokens tokens (runs ++ [groups])) groups component host) (account component host) ↔
        groups.minion.head? = some host)
  again : genTokens tokens (runs ++ [groups, groups]) = genTokens tokens (runs ++ [groups])
  kept : (genTokens tokens runs).known <+: (genTokens tokens (runs ++ [groups])).known ∧
    ∀ name content, (genTokens tokens runs).files name = some content →
      (genTokens tokens (runs ++ [groups])).files name = some content

theorem nodeTokens_subset : nodeTokens ⊆ minionComponents :=
  (List.sublist_append_left nodeTokens ["system:calico".toList]).subset

theorem genTokens_eq (tokens : Nat → Str) (runs : List Kubernetes) :
    genTokens tokens runs = calls tokens .empty (runs.flatMap Kubernetes.accounts) 0 := rfl

theorem genTokens_append (tokens : Nat → Str) (runs more : List Kubernetes) :
    genTokens tokens (runs ++ more) = calls tokens (genTokens tokens runs) (more.flatMap Kubernetes.accounts)
      (runs.flatMap Kubernetes.accounts).length := by
  rw [genTokens_eq, List.flatMap_append, calls_append, Nat.zero_add, genTokens_eq]

theorem accounts_valid {runs : List Kubernetes} (h : ∀ groups ∈ runs, groups.Addressed) :
    ∀ text ∈ runs.flatMap Kubernetes.accounts, IsAccount text := by
  intro text hm
  obtain ⟨groups, hgroups, htext⟩ := List.mem_flatMap.mp hm
  exact isAccount_of_mem (h groups hgroups) htext

theorem credentials (tokens : Nat → Str) (runs : List Kubernetes) (groups : Kubernetes)
    (htokens : ∀ call, ',' ∉ tokens call)
    (hdistinct : ∀ i < ((runs ++ [groups]).flatMap Kubernetes.accounts).length,
      ∀ j < ((runs ++ [groups]).flatMap Kubernetes.accounts).length, tokens i = tokens j → i = j)
    (hruns : ∀ run ∈ runs, run.Addressed) (hgroups : groups.Addressed) : Credentials tokens runs groups := by
  obtain ⟨rows, hbefore, -⟩ := keyed_calls htokens (runs.flatMap Kubernetes.accounts) keyed_empty (accounts_valid hruns)
  rw [List.nil_append, ← genTokens_eq] at hbefore
  have hvalid : ∀ text ∈ groups.accounts, IsAccount text := fun text hm => isAccount_of_mem hgroups hm
  obtain ⟨more, hafter, hall⟩ := keyed_calls htokens groups.accounts hbefore hvalid
  have hdir : calls tokens (genTokens tokens runs) groups.accounts (0 + (runs.flatMap Kubernetes.accounts).length) =
      genTokens tokens (runs ++ [groups]) := by
    rw [genTokens_append, Nat.zero_add]
    simp
  have hcount : 0 + (runs.flatMap Kubernetes.accounts).length + groups.accounts.length =
      ((runs ++ [groups]).flatMap Kubernetes.accounts).length := by simp
  rw [hdir, hcount] at hafter
  have hauthentic : ∀ {text : Str} (user : Str), text ∈ groups.accounts →
      (Authenticates (genTokens tokens (runs ++ [groups]))
        ((genTokens tokens (runs ++ [groups])).files (tokenFile text)) user ↔ user = text) :=
    fun user hm => authenticates_row hafter htokens hdistinct (hall _ hm) user
  constructor
  · intro component hc host hh
    have hm : account component host ∈ groups.accounts :=
      List.mem_append_left _ (mem_nested.mpr ⟨component, hc, host, hh, rfl⟩)
    exact (hauthentic _ hm).mpr rfl
  · intro component hc host hh
    cases hhosts : groups.minion with
    | nil => simp [hhosts] at hh
    | cons first rest =>
        have hfirst : first ∈ groups.minion := hhosts ▸ List.mem_cons_self
        have hm : account component first ∈ groups.accounts :=
          List.mem_append_right _ (mem_nested.mpr ⟨component, nodeTokens_subset hc, first, hfirst, rfl⟩)
        have htoken : minionToken (genTokens tokens (runs ++ [groups])) groups component host =
            (genTokens tokens (runs ++ [groups])).files (tokenFile (account component first)) := by
          simp [minionToken, hhosts]
        rw [htoken, hauthentic _ hm, (account_injective component).eq_iff]
        simp [eq_comm]
  · have hsplit : runs ++ [groups, groups] = (runs ++ [groups]) ++ [groups] := by simp
    rw [hsplit, genTokens_append tokens (runs ++ [groups])]
    apply calls_known htokens _ hafter
    · simpa using hvalid
    · simpa using hall
  · refine ⟨?_, ?_⟩
    · rw [hbefore.known, hafter.known, List.map_append]
      exact List.prefix_append _ _
    · intro name content hfile
      obtain ⟨row, hrow, rfl⟩ := hbefore.named name content hfile
      rw [hafter.files row (List.mem_append_left _ hrow), ← hbefore.files row hrow, hfile]

-- Tokens of 32 letters that differ in the last one.
def letterTokens (call : Nat) : Str :=
  List.replicate 31 'x' ++ [Char.ofNat ('a'.toNat + call % 26)]

theorem comma_notMem_letterTokens (call : Nat) : ',' ∉ letterTokens call := by
  have hlast : ∀ last < 26, ',' ∉ List.replicate 31 'x' ++ [Char.ofNat ('a'.toNat + last)] := by decide
  exact hlast (call % 26) (Nat.mod_lt call (by omega))

def hosts (first second : Str) : Kubernetes where
  master := ["192.168.33.121".toList]
  minion := [first, second]

-- The run before, with a minion that has left, and the one after it.
def oldMinions : Kubernetes := hosts "192.168.33.131".toList "192.168.33.132".toList

def twoMinions : Kubernetes := hosts "192.168.33.133".toList "192.168.33.132".toList

theorem hosts_addressed {first second : Str} (hfirst : IsIpv4 first) (hsecond : IsIpv4 second) :
    (hosts first second).Addressed where
  master := by
    intro host hm
    obtain rfl := List.mem_singleton.mp hm
    exact ⟨[192, 168, 33, 121], rfl, by decide⟩
  minion := by
    intro host hm
    rcases List.mem_pair.mp hm with rfl | rfl
    · exact hfirst
    · exact hsecond

theorem twoMinions_credentials : Credentials letterTokens [oldMinions] twoMinions := by
  have hfirst : IsIpv4 "192.168.33.131".toList := ⟨[192, 168, 33, 131], rfl, by decide⟩
  have hsecond : IsIpv4 "192.168.33.132".toList := ⟨[192, 168, 33, 132], rfl, by decide⟩
  have hthird : IsIpv4 "192.168.33.133".toList := ⟨[192, 168, 33, 133], rfl, by decide⟩
  apply credentials letterTokens [oldMinions] twoMinions comma_notMem_letterTokens
  · decide +kernel
  · intro run hm
    obtain rfl := List.mem_singleton.mp hm
    exact hosts_addressed hfirst hsecond
  · exact hosts_addressed hthird hsecond

end MesosPoc.Ansible
