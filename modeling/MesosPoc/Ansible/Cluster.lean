import MesosPoc.Ansible.Addresses
import Mathlib.Data.List.Nodup

namespace MesosPoc.Ansible

open Jinja

section Names

-- The name of a host in the cluster.
def dashed (host : Str) : Str :=
  host.map fun c => if c = '.' then '-' else c

theorem replace_eq_dashed (host : Str) : replace ['.'] ['-'] host = dashed host := by
  rw [replace, Replace.replaceAll_singleton, dashed]
  induction host with
  | nil => rfl
  | cons c host ih =>
      rw [List.flatMap_cons, List.map_cons, ih]
      by_cases h : c = '.'
      · rw [if_pos h, if_pos h]
        rfl
      · rw [if_neg h, if_neg h]
        rfl

-- No address has a dash, so the dots can be put back.
theorem dots_dashed {host : Str} (hhost : IsIpv4 host) :
    ((dashed host).map fun c => if c = '-' then '.' else c) = host := by
  rw [dashed, List.map_map]
  refine (List.map_congr_left (g := id) ?_).trans (List.map_id host)
  intro c hc
  by_cases hdot : c = '.'
  · simp [hdot]
  · have hdash : c ≠ '-' := by
      rintro rfl
      exact host_notMem hhost rfl (by decide) hc
    simp [hdot, hdash]

theorem dashed_nodup {hosts : List Str} (hhosts : ∀ host ∈ hosts, IsIpv4 host) (h : hosts.Nodup) :
    (hosts.map dashed).Nodup := by
  apply List.Nodup.map_on _ h
  intro first hfirst second hsecond hsame
  rw [← dots_dashed (hhosts first hfirst), hsame, dots_dashed (hhosts second hsecond)]

theorem dashed_notMem {host : Str} (hhost : IsIpv4 host) {c : Char} (hdigit : c.isDigit = false) (hdot : c ≠ '.')
    (hdash : c ≠ '-') : c ∉ dashed host := by
  intro h
  obtain ⟨c', hc', hc⟩ := List.mem_map.mp h
  by_cases hc'dot : c' = '.'
  · rw [if_pos hc'dot] at hc
    exact hdash hc.symm
  · rw [if_neg hc'dot] at hc
    rw [hc] at hc'
    exact host_notMem hhost hdigit hdot hc'

end Names

section Cluster

-- A member of the cluster, as the loop writes it for a host.
def member (host : Str) : Str :=
  replace ['.'] ['-'] host ++ "=http://".toList ++ host ++ ":2380".toList

theorem comma_notMem_member {host : Str} (hhost : IsIpv4 host) : ',' ∉ member host := by
  have hname : ',' ∉ replace ['.'] ['-'] host := by
    rw [replace_eq_dashed]
    exact dashed_notMem hhost rfl (by decide) (by decide)
  have hscheme : ',' ∉ "=http://".toList := by decide
  have hport : ',' ∉ ":2380".toList := by decide
  have hhost' : ',' ∉ host := host_notMem hhost rfl (by decide)
  unfold member
  refine List.not_mem_append (List.not_mem_append (List.not_mem_append hname hscheme) hhost') hport

theorem etcdCluster_split {groups : Inventory} (h : groups.etcd.Addressed) :
    (etcdCluster groups).splitOn ',' = groups.etcd.hosts.map member := by
  have hvalue : etcdCluster groups = [','].intercalate (groups.etcd.hosts.map member) :=
    forLoop_eq member ',' groups.etcd.hosts
  rw [hvalue]
  apply List.splitOn_intercalate
  · intro item hitem
    obtain ⟨host, hhost, rfl⟩ := List.mem_map.mp hitem
    exact comma_notMem_member (h.2 host hhost)
  · simpa using h.1

theorem namesMembers {groups : Inventory} (h : groups.etcd.Addressed) : NamesMembers groups := by
  refine ⟨dashed, dashed_nodup h.2 groups.etcd.distinct, ?_⟩
  rw [etcdCluster_split h]
  apply List.map_congr_left
  intro host _
  rw [member, replace_eq_dashed]

theorem fields_options (options : List (Str × Str))
    (h : ∀ option ∈ options, option.1 ≠ [] ∧ ∀ c ∈ option.1, Shell.isBlank c = false) :
    Shell.fields (join [' '] (options.map fun (option, value) => option ++ ' ' :: value)) =
      options.flatMap fun option => option.1 :: Shell.fields option.2 := by
  unfold join
  induction options with
  | nil => rfl
  | cons option rest ih =>
      obtain ⟨⟨hne, hblank⟩, hrest⟩ := List.forall_mem_cons.mp h
      have hoption : Shell.fields (option.1 ++ ' ' :: option.2) = option.1 :: Shell.fields option.2 := by
        rw [Shell.fields_append _ _ rfl, Shell.fields_word option.1 hblank hne]
        rfl
      cases rest with
      | nil => simpa using hoption
      | cons next rest =>
          have hnext := ih hrest
          rw [List.map_cons] at hnext
          rw [List.map_cons, List.map_cons, List.intercalate_cons_cons, List.append_assoc, List.singleton_append,
            Shell.fields_append _ _ rfl, hnext, hoption]
          rfl

theorem dashed_word {host : Str} (hhost : IsIpv4 host) :
    dashed host ≠ [] ∧ ∀ c ∈ dashed host, Shell.isBlank c = false := by
  refine ⟨?_, ?_⟩
  · intro hnil
    exact host_ne_nil hhost (List.map_eq_nil_iff.mp hnil)
  · intro c hc
    have hspace : c ≠ ' ' := fun h => dashed_notMem hhost rfl (by decide) (by decide) (h ▸ hc)
    have htab : c ≠ '\t' := fun h => dashed_notMem hhost rfl (by decide) (by decide) (h ▸ hc)
    have hline : c ≠ '\n' := fun h => dashed_notMem hhost rfl (by decide) (by decide) (h ▸ hc)
    simp [Shell.isBlank, hspace, htab, hline]

theorem host_word {host : Str} (hhost : IsIpv4 host) : ∀ c ∈ host, Shell.isBlank c = false := by
  intro c hc
  have hspace : c ≠ ' ' := fun h => host_notMem hhost rfl (by decide) (h ▸ hc)
  have htab : c ≠ '\t' := fun h => host_notMem hhost rfl (by decide) (h ▸ hc)
  have hline : c ≠ '\n' := fun h => host_notMem hhost rfl (by decide) (h ▸ hc)
  simp [Shell.isBlank, hspace, htab, hline]

theorem etcdOptions_words (groups : Inventory) (clusterToken : Option Str) (name ip : Str) :
    ∀ option ∈ etcdOptions groups clusterToken name ip,
      option.1 ≠ [] ∧ ∀ c ∈ option.1, Shell.isBlank c = false := by
  have hwords : ((etcdOptions groups clusterToken name ip).map Prod.fst).all
      (fun word => !word.isEmpty && word.all (!Shell.isBlank ·)) = true := rfl
  intro option hoption
  have hword := List.all_eq_true.mp hwords option.1 (List.mem_map_of_mem hoption)
  simpa [List.all_eq_true] using hword

def clientUrls (host : Str) : Str :=
  "http://".toList ++ host ++ ":2379,http://".toList ++ host ++ ":4001".toList

def peerUrl (host : Str) : Str :=
  "http://".toList ++ host ++ ":2380".toList

theorem fields_clientUrls {host : Str} (hhost : IsIpv4 host) : Shell.fields (clientUrls host) = [clientUrls host] := by
  apply Shell.fields_word
  · unfold clientUrls
    simp only [List.forall_mem_append]
    refine ⟨⟨⟨⟨?_, host_word hhost⟩, ?_⟩, host_word hhost⟩, ?_⟩ <;> exact Shell.isBlank_of_any _ rfl
  · exact List.cons_ne_nil _ _

theorem fields_peerUrl {host : Str} (hhost : IsIpv4 host) : Shell.fields (peerUrl host) = [peerUrl host] := by
  apply Shell.fields_word
  · unfold peerUrl
    simp only [List.forall_mem_append]
    refine ⟨⟨?_, host_word hhost⟩, ?_⟩ <;> exact Shell.isBlank_of_any _ rfl
  · exact List.cons_ne_nil _ _

theorem etcdCommand_fields (groups : Inventory) {facts : Facts} (clusterToken : Option Str) {host : Str}
    (hhost : IsIpv4 host) (h : ipaddr facts = some host) :
    ∃ command rest, etcdCommand groups facts clusterToken = some command ∧
      Shell.fields command = "-name".toList :: dashed host :: "-advertise-client-urls".toList :: clientUrls host ::
        "-listen-client-urls".toList :: "http://0.0.0.0:2379,http://0.0.0.0:4001".toList ::
        "-initial-advertise-peer-urls".toList :: peerUrl host :: rest := by
  have hcommand : etcdCommand groups facts clusterToken =
      some (join [' '] ((etcdOptions groups clusterToken (dashed host) host).map
        fun (option, value) => option ++ ' ' :: value)) := by
    rw [etcdCommand, hostname, h, ← replace_eq_dashed]
    rfl
  have hfields := fields_options _ (etcdOptions_words groups clusterToken (dashed host) host)
  have hoptions : etcdOptions groups clusterToken (dashed host) host =
      ("-name".toList, dashed host) :: ("-advertise-client-urls".toList, clientUrls host) ::
        ("-listen-client-urls".toList, "http://0.0.0.0:2379,http://0.0.0.0:4001".toList) ::
        ("-initial-advertise-peer-urls".toList, peerUrl host) ::
        (etcdOptions groups clusterToken (dashed host) host).drop 4 := rfl
  have hlisten := Shell.fields_word "http://0.0.0.0:2379,http://0.0.0.0:4001".toList (Shell.isBlank_of_any _ rfl)
    (List.cons_ne_nil _ _)
  refine ⟨_, ((etcdOptions groups clusterToken (dashed host) host).drop 4).flatMap fun option =>
    option.1 :: Shell.fields option.2, hcommand, ?_⟩
  rw [hfields, hoptions, List.flatMap_cons, List.flatMap_cons, List.flatMap_cons, List.flatMap_cons,
    Shell.fields_word _ (dashed_word hhost).2 (dashed_word hhost).1, fields_clientUrls hhost, hlisten,
    fields_peerUrl hhost]
  rfl

-- An option that is not among the first words is looked for behind them.
theorem option_eq {name command : Str} (before : List Str) {after : List Str} {value : Str}
    (hbefore : name ∉ before) (h : Shell.fields command = before ++ name :: value :: after) :
    option name command = some value := by
  have hdrop : (before ++ name :: value :: after).dropWhile (· ≠ name) = name :: value :: after := by
    rw [List.dropWhile_append_of_pos]
    · rw [List.dropWhile_cons_of_neg (by simp)]
    · intro word hword
      have hne : word ≠ name := fun heq => hbefore (heq ▸ hword)
      simpa using hne
  rw [option, h, hdrop]
  rfl

theorem announcesMembers {groups : Inventory} (h : groups.etcd.Addressed) : AnnouncesMembers groups := by
  intro host hhost facts clusterToken hip
  have hipv4 := h.2 host hhost
  obtain ⟨command, rest, hcommand, hfields⟩ := etcdCommand_fields groups clusterToken hipv4 hip
  have hname : option "-name".toList command = some (dashed host) :=
    option_eq [] List.not_mem_nil hfields
  have hurl : option "-initial-advertise-peer-urls".toList command = some (peerUrl host) := by
    have hdashed : dashed host ≠ "-initial-advertise-peer-urls".toList := by
      intro heq
      apply dashed_notMem hipv4 (c := 'i') rfl (by decide) (by decide)
      rw [heq]
      decide
    have hclients : clientUrls host ≠ "-initial-advertise-peer-urls".toList := by
      intro heq
      cases congrArg List.head? heq
    apply option_eq ["-name".toList, dashed host, "-advertise-client-urls".toList, clientUrls host,
      "-listen-client-urls".toList, "http://0.0.0.0:2379,http://0.0.0.0:4001".toList] _ hfields
    simp only [List.mem_cons, List.not_mem_nil, or_false, not_or]
    exact ⟨by decide, hdashed.symm, by decide, hclients.symm, by decide, by decide⟩
  refine ⟨command, dashed host, peerUrl host, hcommand, hname, hurl, ?_⟩
  rw [etcdCluster_split h]
  refine List.mem_map.mpr ⟨host, hhost, ?_⟩
  have hscheme : "=http://".toList = '=' :: "http://".toList := by decide
  unfold member peerUrl
  rw [replace_eq_dashed, hscheme, List.append_assoc, List.append_assoc, List.cons_append, List.append_assoc]

end Cluster

theorem keepsHosts_iff (groups : Inventory) (k8sApiPort : Nat) (h : groups.Addressed) :
    KeepsHosts groups k8sApiPort ↔ groups.kubernetes.hosts.length = 1 := by
  constructor
  · intro hkeeps
    exact (k8sApiServers_lists_iff groups k8sApiPort h.kubernetes).mp hkeeps.kubernetes
  · intro hone
    exact
      { zookeeper := mesosZkAddrs_lists groups h.zookeeper
        etcd := lists_4001 h.etcd
        etcdEvent := lists_4001 h.etcdEvent
        kubernetes := (k8sApiServers_lists_iff groups k8sApiPort h.kubernetes).mpr hone
        members := namesMembers h.etcd
        announced := announcesMembers h.etcd }

section Samples

def oneHost : Group where
  hosts := ["10.0.0.1".toList]
  distinct := by decide

def twoHosts : Group where
  hosts := ["10.0.0.1".toList, "10.0.0.2".toList]
  distinct := by decide

-- Everything on two hosts, and the API servers on the hosts of another group.
def apiServersOn (group : Group) : Inventory where
  zookeeper := twoHosts
  mesosmaster := twoHosts
  etcd := twoHosts
  etcdEvent := twoHosts
  kubernetes := group

theorem oneHost_addressed : oneHost.Addressed := by
  refine ⟨List.cons_ne_nil _ _, ?_⟩
  intro host hhost
  rw [List.mem_singleton.mp hhost]
  exact ⟨[10, 0, 0, 1], rfl, by decide⟩

theorem twoHosts_addressed : twoHosts.Addressed := by
  refine ⟨List.cons_ne_nil _ _, ?_⟩
  intro host hhost
  rcases List.mem_pair.mp hhost with rfl | rfl
  · exact ⟨[10, 0, 0, 1], rfl, by decide⟩
  · exact ⟨[10, 0, 0, 2], rfl, by decide⟩

theorem apiServersOn_addressed {group : Group} (h : group.Addressed) : (apiServersOn group).Addressed :=
  ⟨twoHosts_addressed, twoHosts_addressed, twoHosts_addressed, h⟩

end Samples

theorem one_apiServer_kept : KeepsHosts (apiServersOn oneHost) 8080 :=
  (keepsHosts_iff (apiServersOn oneHost) 8080 (apiServersOn_addressed oneHost_addressed)).mpr rfl

theorem two_apiServers_lost :
    k8sApiServers (apiServersOn twoHosts) 8080 = "http://10.0.0.18080,10.0.0.2:8080".toList ∧
      ¬KeepsHosts (apiServersOn twoHosts) 8080 := by
  refine ⟨by decide, ?_⟩
  intro h
  have hlength := (k8sApiServers_lists_iff (apiServersOn twoHosts) 8080 twoHosts_addressed).mp h.kubernetes
  cases hlength

end MesosPoc.Ansible
