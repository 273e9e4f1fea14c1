import MesosPoc.Pillar
import MesosPoc.Yaml.Reading

namespace MesosPoc.Pillar

open Yaml

-- The file is read back with the string of each variable under its key.
def CarriesValues (schema : Schema) (env : Environment) : Prop :=
  ∃ entries, read schema (clusterParams env) = some entries ∧
    ∀ field ∈ written env, entries.lookup field.1.toList = some (.str field.2.text)

-- A plain scalar that stands for its own text.
def IsString (schema : Schema) (value : Value) : Prop :=
  IsPlain value.text ∧ schema.value value.text = .str value.text

-- The values that are put in quotes by way of echo and sed.
def escaped (env : Environment) : List Value :=
  [env.instancePrefix, env.admissionControl, env.enableClusterDns, env.dnsServerIp, env.dnsDomain,
    env.dnsReplicas, env.masterFloatingIp, env.opsServerIp, env.dockerOpts, env.httpProxy]

-- Each value may stand in the quotes, or without quotes, where its line has it.
structure Fits (schema : Schema) (env : Environment) : Prop where
  echoed : ∀ value ∈ escaped env, Shell.isEchoOption value.text = false
  nodeInstancePrefix : IsString schema env.nodeInstancePrefix
  serviceClusterIpRange : IsString schema env.serviceClusterIpRange
  etcdOut : '\'' ∉ env.etcdOut.text
  enableClusterUi : '"' ∉ env.enableClusterUi.text ∧ '\\' ∉ env.enableClusterUi.text
  numNodes : isKubemark env = true → env.numNodes.text ≠ [] ∧ IsString schema env.numNodes

section Printing

theorem isPrintable_newline : isPrintable '\n' = false := by decide

theorem splitOn_lines (lines : List Str) (h : ∀ l ∈ lines, l.all isPrintable = true) :
    (lines.flatMap (· ++ ['\n'])).splitOn '\n' = lines ++ [[]] := by
  have hjoin : lines.flatMap (· ++ ['\n']) = ['\n'].intercalate (lines ++ [[]]) := by
    clear h
    induction lines with
    | nil => rfl
    | cons l lines ih =>
        have hcons : ∃ next rest, lines ++ [[]] = next :: rest := List.exists_cons_of_ne_nil (by simp)
        obtain ⟨next, rest, hrest⟩ := hcons
        rw [List.flatMap_cons, List.cons_append, ih, hrest, List.intercalate_cons_cons]
  rw [hjoin]
  apply List.splitOn_intercalate
  · intro l hl hnewline
    rcases List.mem_append.mp hl with hmem | hmem
    · have hprintable := List.all_eq_true.mp (h l hmem) '\n' hnewline
      rw [isPrintable_newline] at hprintable
      cases hprintable
    · rw [List.mem_singleton.mp hmem] at hnewline
      cases hnewline
  · exact fun hnil => List.cons_ne_nil _ _ (List.append_eq_nil_iff.mp hnil).2

theorem read_lines (schema : Schema) (lines : List Str) (h : ∀ l ∈ lines, l.all isPrintable = true) :
    read schema (lines.flatMap (· ++ ['\n'])) = readLines schema none (lines ++ [[]]) := by
  unfold Yaml.read
  rw [if_pos, splitOn_lines lines h]
  rw [List.all_eq_true]
  intro c hc
  obtain ⟨l, hl, hc⟩ := List.mem_flatMap.mp hc
  rcases List.mem_append.mp hc with hmem | hmem
  · rw [List.all_eq_true.mp (h l hl) c hmem]
    rfl
  · rw [List.mem_singleton.mp hmem]
    rfl

theorem isPrintable_of_isKeyChar {c : Char} (h : isKeyChar c = true) : isPrintable c = true := by
  have hkey : c.isLower = true ∨ c = '_' := by simpa [isKeyChar] using h
  rcases hkey with hlower | rfl
  · have hrange : c.isLower = (decide (97 ≤ c.val) && decide (c.val ≤ 122)) := rfl
    have hbounds : 97 ≤ c.toNat ∧ c.toNat ≤ 122 := by
      rw [hrange, Bool.and_eq_true, decide_eq_true_iff, decide_eq_true_iff, UInt32.le_iff_toNat_le,
        UInt32.le_iff_toNat_le] at hlower
      exact hlower
    unfold isPrintable
    rw [decide_eq_true_iff]
    omega
  · decide

theorem printable_line (f : Field) (h : f.text.all isPrintable = true) : f.line.all isPrintable = true := by
  have hkey : f.key.all isPrintable = true := by
    have hword := f.word.2
    rw [List.all_eq_true] at hword ⊢
    exact fun c hc => isPrintable_of_isKeyChar (hword c hc)
  rw [Field.line, List.all_append, List.all_cons, List.all_cons, hkey, h]
  rfl

theorem printable_singleQuoted {text : Str} (h : text.all isPrintable = true) :
    (singleQuoted text).all isPrintable = true := by
  rw [singleQuoted, List.all_append, List.all_cons, h]
  rfl

theorem printable_doubleQuoted {text : Str} (h : text.all isPrintable = true) :
    (doubleQuoted text).all isPrintable = true := by
  rw [doubleQuoted, List.all_append, List.all_cons, h]
  rfl

theorem echoed_eq (value : Value) :
    Pillar.echoed value = if Shell.isEchoOption value.text then []
      else value.text.flatMap fun c => if c = '\'' then ['\'', '\''] else [c] := by
  have hecho : Shell.echo [value.text] = if Shell.isEchoOption value.text then [] else value.text := by
    rw [Shell.echo, List.dropWhile_cons]
    cases Shell.isEchoOption value.text with
    | true => rfl
    | false => simp
  rw [Pillar.echoed, hecho, Replace.replaceAll_singleton]
  split
  · rfl
  · rfl

theorem printable_echoed (value : Value) : (Pillar.echoed value).all isPrintable = true := by
  rw [echoed_eq]
  split
  · rfl
  · rw [List.all_eq_true]
    intro c hc
    obtain ⟨d, hd, hc⟩ := List.mem_flatMap.mp hc
    have hprintable := List.all_eq_true.mp value.printable d hd
    split at hc
    next hquote =>
      have hc' : c = '\'' := by simpa using hc
      rw [hc', ← hquote, hprintable]
    next => rw [List.mem_singleton.mp hc, hprintable]

end Printing

section Lines

variable (env : Environment)

def field (key : String) (node : Str) (word : key.toList ≠ [] ∧ key.toList.all isKeyChar = true) : Field :=
  ⟨key.toList, node, word⟩

-- The lines up to that of enable_cluster_ui, with the strings that belong there.
def fields : List (Field × Str) :=
  [(field "instance_prefix" (singleQuoted (Pillar.echoed env.instancePrefix)) (by decide), env.instancePrefix.text),
    (field "node_instance_prefix" env.nodeInstancePrefix.text (by decide), env.nodeInstancePrefix.text),
    (field "service_cluster_ip_range" env.serviceClusterIpRange.text (by decide), env.serviceClusterIpRange.text),
    (field "admission_control" (singleQuoted (Pillar.echoed env.admissionControl)) (by decide),
      env.admissionControl.text),
    (field "enable_cluster_dns" (singleQuoted (Pillar.echoed env.enableClusterDns)) (by decide),
      env.enableClusterDns.text),
    (field "dns_server" (singleQuoted (Pillar.echoed env.dnsServerIp)) (by decide), env.dnsServerIp.text),
    (field "dns_domain" (singleQuoted (Pillar.echoed env.dnsDomain)) (by decide), env.dnsDomain.text),
    (field "dns_replicas" (singleQuoted (Pillar.echoed env.dnsReplicas)) (by decide), env.dnsReplicas.text),
    (field "master_floating_ip" (singleQuoted (Pillar.echoed env.masterFloatingIp)) (by decide),
      env.masterFloatingIp.text),
    (field "ops_server_ip" (singleQuoted (Pillar.echoed env.opsServerIp)) (by decide), env.opsServerIp.text),
    (field "docker_opts" (singleQuoted (Pillar.echoed env.dockerOpts)) (by decide), env.dockerOpts.text),
    (field "http_proxy" (singleQuoted (Pillar.echoed env.httpProxy)) (by decide), env.httpProxy.text),
    (field "etcd_out" (singleQuoted env.etcdOut.text) (by decide), env.etcdOut.text)]

def uiField : Field :=
  field "enable_cluster_ui" (doubleQuoted (enableClusterUi env)) (by decide)

def networkField : Field :=
  field "network_provider" (singleQuoted "flannel".toList) (by decide)

def userField : Field :=
  field "user_kubemark" (singleQuoted "true".toList) (by decide)

def nodesField : Field :=
  field "num_nodes" (numNodes env) (by decide)

theorem heredoc_eq :
    heredoc env = (fields env).map (fun field => field.1.line) ++ [(uiField env).line, networkField.line] := rfl

def required : List (Str × Str) :=
  (written env).map fun field => (field.1.toList, field.2.text)

theorem required_eq :
    required env = (fields env).map (fun field => (field.1.key, field.2)) ++
      (keyText (uiField env).line, env.enableClusterUi.text) ::
        if isKubemark env then [(keyText (nodesField env).line, env.numNodes.text)] else [] := by
  rw [(keyText_line (uiField env)).1, (keyText_line (nodesField env)).1, required, written, List.map_append]
  cases isKubemark env with
  | true => rfl
  | false => rfl

theorem kubemark_eq :
    kubemark env = if isKubemark env then [userField.line, (nodesField env).line] else [] := rfl

theorem printable_fields : ∀ field ∈ fields env, field.1.text.all isPrintable = true := by
  have hechoed : ∀ value : Value, (singleQuoted (Pillar.echoed value)).all isPrintable = true :=
    fun value => printable_singleQuoted (printable_echoed value)
  simp only [fields, List.forall_mem_cons, field, hechoed, env.nodeInstancePrefix.printable,
    env.serviceClusterIpRange.printable, printable_singleQuoted env.etcdOut.printable, List.not_mem_nil,
    false_imp_iff, implies_true, and_self]

theorem printable_nodes : (numNodes env).all isPrintable = true := by
  unfold numNodes
  split
  · rfl
  · exact env.numNodes.printable

theorem printable_lines : ∀ l ∈ heredoc env ++ kubemark env, l.all isPrintable = true := by
  have hui : (uiField env).line.all isPrintable = true :=
    printable_line _ (printable_doubleQuoted env.enableClusterUi.printable)
  have hnetwork : networkField.line.all isPrintable = true := printable_line _ rfl
  have huser : userField.line.all isPrintable = true := printable_line _ rfl
  have hnodes : (nodesField env).line.all isPrintable = true := printable_line _ (printable_nodes env)
  rw [heredoc_eq, kubemark_eq]
  intro l hl
  rcases List.mem_append.mp hl with hmem | hmem
  · rcases List.mem_append.mp hmem with hmem | hmem
    · obtain ⟨field, hfield, rfl⟩ := List.mem_map.mp hmem
      exact printable_line _ (printable_fields env field hfield)
    · rcases List.mem_pair.mp hmem with rfl | rfl
      · exact hui
      · exact hnetwork
  · split at hmem
    · rcases List.mem_pair.mp hmem with rfl | rfl
      · exact huser
      · exact hnodes
    · cases hmem

theorem carries_iff_reads (schema : Schema) :
    CarriesValues schema env ↔ Reads schema none (heredoc env ++ kubemark env ++ [[]]) (required env) := by
  unfold CarriesValues Reads
  rw [clusterParams, read_lines schema _ (printable_lines env)]
  apply exists_congr
  intro entries
  rw [required, List.forall_mem_map]

end Lines

section Nodes

variable (schema : Schema) (key : Str)

theorem readNode_echoed_iff (value : Value) :
    readNode schema key (' ' :: singleQuoted (Pillar.echoed value)) = .entry key (.str value.text) ↔
      Shell.isEchoOption value.text = false := by
  rw [echoed_eq]
  cases hoption : Shell.isEchoOption value.text with
  | true =>
      refine iff_of_false ?_ nofun
      intro h
      have hempty : value.text = [] := (Scalar.str.inj (Line.entry.inj h).2).symm
      rw [hempty] at hoption
      cases hoption
  | false => exact iff_of_true (readNode_doubled schema key value.text) rfl

theorem readNode_singleQuoted_iff (v : Str) :
    readNode schema key (' ' :: singleQuoted v) = .entry key (.str v) ↔ '\'' ∉ v :=
  readNode_single_iff schema key v

theorem readNode_doubleQuoted_iff (v : Str) :
    readNode schema key (' ' :: doubleQuoted v) = .entry key (.str v) ↔ '"' ∉ v ∧ '\\' ∉ v := by
  have h : v.all notSpecial = true ↔ '"' ∉ v ∧ '\\' ∉ v := by
    simp only [List.all_eq_true, notSpecial, decide_eq_true_iff]
    constructor
    · intro h
      exact ⟨fun hmem => (h _ hmem).1 rfl, fun hmem => (h _ hmem).2 rfl⟩
    · rintro ⟨hquote, hslash⟩ c hc
      exact ⟨fun heq => hquote (heq ▸ hc), fun heq => hslash (heq ▸ hc)⟩
  rw [← h]
  exact readNode_double_iff schema key v

theorem fields_read_iff (env : Environment) :
    (∀ field ∈ fields env, readNode schema field.1.key (' ' :: field.1.text) = .entry field.1.key (.str field.2)) ↔
      (∀ value ∈ escaped env, Shell.isEchoOption value.text = false) ∧ IsString schema env.nodeInstancePrefix ∧
        IsString schema env.serviceClusterIpRange ∧ '\'' ∉ env.etcdOut.text := by
  simp only [fields, escaped, List.forall_mem_cons, field, readNode_echoed_iff, readNode_singleQuoted_iff,
    readNode_plain_iff, IsString, List.not_mem_nil, false_imp_iff, implies_true, and_true]
  tauto

end Nodes

section Tail

variable (env : Environment) (schema : Schema)

theorem ui_read_iff :
    readNode schema (uiField env).key (' ' :: (uiField env).text) =
        .entry (uiField env).key (.str env.enableClusterUi.text) ↔
      '"' ∉ env.enableClusterUi.text ∧ '\\' ∉ env.enableClusterUi.text :=
  readNode_doubleQuoted_iff schema _ env.enableClusterUi.text

theorem ui_opens {o : Open} (h : readNode schema (uiField env).key (' ' :: (uiField env).text) = .opens o) :
    o.key = "enable_cluster_ui".toList ∧ o.double = true :=
  ⟨key_of_opens h, double_of_quoted _ h⟩

-- The default is read as another value than the empty one.
theorem nodes_read_iff :
    readNode schema (nodesField env).key (' ' :: (nodesField env).text) =
        .entry (nodesField env).key (.str env.numNodes.text) ↔
      env.numNodes.text ≠ [] ∧ IsString schema env.numNodes := by
  have htext : (nodesField env).text = numNodes env := rfl
  rw [htext, numNodes]
  by_cases hempty : env.numNodes.text = []
  · rw [if_pos hempty, hempty]
    refine iff_of_false ?_ (fun h => h.1 rfl)
    intro h
    have hplain : IsPlain "20".toList := by
      refine isPlain_iff.mpr ⟨by decide, by decide, by decide⟩
    rw [readNode_plain schema _ hplain] at h
    cases schema.string _ _ (Line.entry.inj h).2
  · rw [if_neg hempty, readNode_plain_iff]
    exact (and_iff_right hempty).symm

theorem network_reads : readNode schema networkField.key (' ' :: networkField.text) =
    .entry networkField.key (.str "flannel".toList) :=
  (readNode_singleQuoted_iff schema _ _).mpr (by decide)

theorem user_reads : readNode schema userField.key (' ' :: userField.text) =
    .entry userField.key (.str "true".toList) :=
  (readNode_singleQuoted_iff schema _ _).mpr (by decide)

theorem reads_end : Reads schema none [[]] [] :=
  ⟨[], rfl, nofun⟩

theorem reads_plain_tail :
    Reads schema none ((uiField env).line :: networkField.line :: [[]])
        [((uiField env).key, env.enableClusterUi.text)] ↔
      '"' ∉ env.enableClusterUi.text ∧ '\\' ∉ env.enableClusterUi.text := by
  rw [reads_required_iff (List.not_mem_nil) ?_, ui_read_iff]
  · apply and_iff_left
    rw [reads_entry_iff _ List.not_mem_nil (network_reads schema)]
    exact reads_end schema
  · intro o hopens hreads
    obtain ⟨-, hdouble⟩ := ui_opens env schema hopens
    obtain ⟨o', -, -, hend⟩ := reads_open hdouble (by decide) hreads
    exact not_reads_end hend

theorem reads_kubemark_tail :
    Reads schema none ((uiField env).line :: networkField.line :: userField.line :: (nodesField env).line :: [[]])
        [((uiField env).key, env.enableClusterUi.text), ((nodesField env).key, env.numNodes.text)] ↔
      ('"' ∉ env.enableClusterUi.text ∧ '\\' ∉ env.enableClusterUi.text) ∧
        env.numNodes.text ≠ [] ∧ IsString schema env.numNodes := by
  have hnodes : Reads schema none [(nodesField env).line, []] [((nodesField env).key, env.numNodes.text)] ↔
      env.numNodes.text ≠ [] ∧ IsString schema env.numNodes := by
    rw [reads_required_iff (List.not_mem_nil) ?_, nodes_read_iff, and_iff_left (reads_end schema)]
    exact fun o _ => not_reads_end
  have hui : "enable_cluster_ui".toList ∉ ["num_nodes".toList] := by decide
  have hnetwork : "network_provider".toList ∉ ["num_nodes".toList] := by decide
  have huser : "user_kubemark".toList ∉ ["num_nodes".toList] := by decide
  rw [reads_required_iff hui ?_, ui_read_iff, reads_entry_iff _ hnetwork (network_reads schema),
    reads_entry_iff _ huser (user_reads schema), hnodes]
  intro o hopens hreads
  obtain ⟨hkey, hdouble⟩ := ui_opens env schema hopens
  obtain ⟨o', hkey', hdouble', hreads'⟩ := reads_open hdouble (by decide) hreads
  obtain ⟨o'', hkey'', -, hreads''⟩ := reads_open hdouble' (by decide) hreads'
  have hlast := (keyText_line (nodesField env)).1
  rw [← hlast] at hreads''
  apply not_reads_open _ _ List.mem_cons_self hreads''
  · rw [hkey'', hkey', hkey, hlast]
    exact fun h => hui (List.mem_singleton.mpr h)
  · rw [hlast]
    exact fun h => (nodesField env).word.1 (List.mem_singleton.mp h)

-- The keys of the lines, with the empty text after the last line break.
theorem keys_nodup :
    ((fields env).map (fun field => field.1.key) ++ "enable_cluster_ui".toList ::
      ["network_provider".toList, "user_kubemark".toList, "num_nodes".toList, []]).Nodup := by
  change (["instance_prefix".toList, "node_instance_prefix".toList, "service_cluster_ip_range".toList,
    "admission_control".toList, "enable_cluster_dns".toList, "dns_server".toList, "dns_domain".toList,
    "dns_replicas".toList, "master_floating_ip".toList, "ops_server_ip".toList, "docker_opts".toList,
    "http_proxy".toList, "etcd_out".toList, "enable_cluster_ui".toList, "network_provider".toList,
    "user_kubemark".toList, "num_nodes".toList, []] : List Str).Nodup
  decide

theorem plain_nodup :
    ((fields env).map (fun field => field.1.key) ++
      [(uiField env).line, networkField.line, []].map keyText).Nodup := by
  rw [List.map_cons, List.map_cons, (keyText_line (uiField env)).1, (keyText_line networkField).1]
  refine List.Nodup.sublist ?_ (keys_nodup env)
  apply List.Sublist.append_left
  apply List.Sublist.cons_cons
  apply List.Sublist.cons_cons
  exact List.Sublist.cons _ (List.Sublist.cons _ (List.Sublist.refl _))

theorem kubemark_nodup :
    ((fields env).map (fun field => field.1.key) ++
      [(uiField env).line, networkField.line, userField.line, (nodesField env).line, []].map keyText).Nodup := by
  rw [List.map_cons, List.map_cons, List.map_cons, List.map_cons, (keyText_line (uiField env)).1,
    (keyText_line networkField).1, (keyText_line userField).1, (keyText_line (nodesField env)).1]
  exact keys_nodup env

theorem reads_tail_iff :
    Reads schema none (heredoc env ++ kubemark env ++ [[]]) (required env) ↔
      (∀ field ∈ fields env,
        readNode schema field.1.key (' ' :: field.1.text) = .entry field.1.key (.str field.2)) ∧
      ('"' ∉ env.enableClusterUi.text ∧ '\\' ∉ env.enableClusterUi.text) ∧
        (isKubemark env = true → env.numNodes.text ≠ [] ∧ IsString schema env.numNodes) := by
  have hui := (keyText_line (uiField env)).1
  have hnodes := (keyText_line (nodesField env)).1
  rw [heredoc_eq, kubemark_eq, required_eq]
  simp only [List.append_assoc, List.cons_append, List.nil_append]
  cases hkubemark : isKubemark env with
  | true =>
      have hlast : ∀ field ∈ [(keyText (nodesField env).line, env.numNodes.text)],
          field.1 ∈ [networkField.line, userField.line, (nodesField env).line, []].map keyText := by
        intro field hfield
        rw [List.mem_singleton.mp hfield]
        exact List.mem_map_of_mem (by simp)
      rw [if_pos rfl, if_pos rfl, List.cons_append, List.cons_append, List.nil_append,
        reads_fields_iff (fields env) (kubemark_nodup env) hlast, hui, hnodes, reads_kubemark_tail]
      simp
  | false =>
      have hlast : ∀ field ∈ ([] : List (Str × Str)), field.1 ∈ [networkField.line, []].map keyText :=
        fun _ h => absurd h List.not_mem_nil
      rw [if_neg Bool.false_ne_true, if_neg Bool.false_ne_true, List.nil_append,
        reads_fields_iff (fields env) (plain_nodup env) hlast, hui, reads_plain_tail]
      simp

-- The file carries the values exactly where each of them fits its line.
theorem carriesValues_iff : CarriesValues schema env ↔ Fits schema env := by
  rw [carries_iff_reads, reads_tail_iff, fields_read_iff]
  constructor
  · rintro ⟨⟨hechoed, hinstance, hrange, hetcd⟩, hui, hnodes⟩
    exact ⟨hechoed, hinstance, hrange, hetcd, hui, hnodes⟩
  · intro h
    exact ⟨⟨h.echoed, h.nodeInstancePrefix, h.serviceClusterIpRange, h.etcdOut⟩, h.enableClusterUi, h.numNodes⟩

end Tail

section Samples

-- Where nothing is set, only what the plain scalars stand for is left to the schema.
theorem defaults_fit {schema : Schema}
    (hinstance : schema.value "kubernetes-minion".toList = .str "kubernetes-minion".toList)
    (hrange : schema.value "10.247.0.0/16".toList = .str "10.247.0.0/16".toList) : Fits schema defaults where
  echoed := by decide
  nodeInstancePrefix := ⟨isPlain_iff.mpr ⟨by decide, by decide, by decide⟩, hinstance⟩
  serviceClusterIpRange := ⟨isPlain_iff.mpr ⟨by decide, by decide, by decide⟩, hrange⟩
  etcdOut := by decide
  enableClusterUi := by decide
  numNodes := by
    intro h
    cases h

-- Every plain scalar is a string.
def failsafe : Schema where
  value := .str
  string := by
    intro text s h
    exact (Scalar.str.inj h).symm

theorem defaults_carried : CarriesValues failsafe defaults :=
  (carriesValues_iff defaults failsafe).mpr (defaults_fit rfl rfl)

def numbered : Environment :=
  { defaults with
    instancePrefix := value "pool #1" (by decide)
    nodeInstancePrefix := value "pool #1-minion" (by decide) }

-- The quoted value is kept, and the plain one is cut where a comment begins.
theorem numbered_prefix_cut :
    (read failsafe (clusterParams numbered)).map (fun entries =>
        (entries.lookup "instance_prefix".toList, entries.lookup "node_instance_prefix".toList)) =
      some (some (.str "pool #1".toList), some (.str "pool".toList)) ∧
    ¬CarriesValues failsafe numbered := by
  have hread : (read failsafe (clusterParams numbered)).map (fun entries =>
        (entries.lookup "instance_prefix".toList, entries.lookup "node_instance_prefix".toList)) =
      some (some (.str "pool #1".toList), some (.str "pool".toList)) := by
    decide +kernel
  refine ⟨hread, ?_⟩
  rintro ⟨entries, hentries, hwritten⟩
  have hcut := hwritten ("node_instance_prefix", numbered.nodeInstancePrefix) (by simp [written])
  rw [hentries, Option.map_some] at hread
  rw [(Prod.mk.inj (Option.some.inj hread)).2] at hcut
  revert hcut
  decide

end Samples

end MesosPoc.Pillar
