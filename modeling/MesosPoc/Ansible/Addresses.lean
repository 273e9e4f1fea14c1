import MesosPoc.Ansible.GroupVars
import MesosPoc.Shell.Fields

namespace MesosPoc.Ansible

open Jinja

-- Four octets.
def IsIpv4 (host : Str) : Prop :=
  ∃ octets : List UInt8, octets.length = 4 ∧ host = join ['.'] (octets.map fun octet => str octet.toNat)

def Group.Addressed (group : Group) : Prop :=
  group.hosts ≠ [] ∧ ∀ host ∈ group.hosts, IsIpv4 host

-- The inventories that the address lists are made for.
structure Inventory.Addressed (groups : Inventory) : Prop where
  zookeeper : groups.zookeeper.Addressed
  etcd : groups.etcd.Addressed
  etcdEvent : groups.etcdEvent.Addressed
  kubernetes : groups.kubernetes.Addressed

-- A value that is the list of the hosts with the port, in order, after its scheme
-- and before its path.
def Lists (scheme path port : Str) (hosts : List Str) (value : Str) : Prop :=
  ∃ body, value = scheme ++ body ++ path ∧ body.splitOn ',' = hosts.map fun host => host ++ ':' :: port

-- The word after an option of a command.
def option (name command : Str) : Option Str :=
  ((Shell.fields command).dropWhile (· ≠ name)).tail.head?

-- A member for each host, under names of their own.
def NamesMembers (groups : Inventory) : Prop :=
  ∃ name : Str → Str, (groups.etcd.hosts.map name).Nodup ∧
    (etcdCluster groups).splitOn ',' =
      groups.etcd.hosts.map fun host => name host ++ "=http://".toList ++ host ++ ":2380".toList

-- The members are the ones that the etcd of each host announces.
def AnnouncesMembers (groups : Inventory) : Prop :=
  ∀ host ∈ groups.etcd.hosts, ∀ facts clusterToken, ipaddr facts = some host →
    ∃ command name url, etcdCommand groups facts clusterToken = some command ∧
      option "-name".toList command = some name ∧
      option "-initial-advertise-peer-urls".toList command = some url ∧
      name ++ '=' :: url ∈ (etcdCluster groups).splitOn ','

structure KeepsHosts (groups : Inventory) (k8sApiPort : Nat) : Prop where
  zookeeper : Lists "zk://".toList "/mesos".toList "2181".toList groups.zookeeper.hosts (mesosZkAddrs groups)
  etcd : Lists "http://".toList [] "4001".toList groups.etcd.hosts (etcdServers groups)
  etcdEvent : Lists "http://".toList [] "4001".toList groups.etcdEvent.hosts (etcdEventServers groups)
  kubernetes :
    Lists "http://".toList [] (str k8sApiPort) groups.kubernetes.hosts (k8sApiServers groups k8sApiPort)
  members : NamesMembers groups
  announced : AnnouncesMembers groups

section Characters

theorem isDigit_of_mem_str {n : Nat} {c : Char} (h : c ∈ str n) : c.isDigit = true :=
  Nat.isDigit_of_mem_toDigits (by omega) (by omega) h

theorem mem_join {c : Char} {separator : Str} {items : List Str} (h : c ∈ join separator items) :
    c ∈ separator ∨ ∃ item ∈ items, c ∈ item := by
  unfold join at h
  induction items with
  | nil => cases h
  | cons item rest ih =>
      cases rest with
      | nil =>
          rw [List.intercalate_singleton] at h
          exact .inr ⟨item, List.mem_cons_self, h⟩
      | cons next rest =>
          rw [List.intercalate_cons_cons, List.mem_append, List.mem_append] at h
          rcases h with (h | h) | h
          · exact .inr ⟨item, List.mem_cons_self, h⟩
          · exact .inl h
          · rcases ih h with h | ⟨item', hmem, h⟩
            · exact .inl h
            · exact .inr ⟨item', List.mem_cons_of_mem _ hmem, h⟩

theorem digit_or_dot {host : Str} (hhost : IsIpv4 host) {c : Char} (h : c ∈ host) : c.isDigit = true ∨ c = '.' := by
  obtain ⟨octets, -, rfl⟩ := hhost
  rcases mem_join h with h | ⟨item, hitem, h⟩
  · exact .inr (List.mem_singleton.mp h)
  · obtain ⟨octet, -, rfl⟩ := List.mem_map.mp hitem
    exact .inl (isDigit_of_mem_str h)

theorem host_notMem {host : Str} (hhost : IsIpv4 host) {c : Char} (hdigit : c.isDigit = false) (hdot : c ≠ '.') :
    c ∉ host := by
  intro h
  rcases digit_or_dot hhost h with hc | hc
  · rw [hdigit] at hc
    cases hc
  · exact hdot hc

theorem host_ne_nil {host : Str} (hhost : IsIpv4 host) : host ≠ [] := by
  obtain ⟨octets, hlength, rfl⟩ := hhost
  intro hnil
  have hlength' := congrArg List.length hnil
  rw [length_join, List.length_map, hlength] at hlength'
  simp at hlength'

end Characters

section Lists

theorem comma_notMem {group : Group} (h : group.Addressed) : ∀ host ∈ group.hosts, ',' ∉ host :=
  fun host hhost => host_notMem (h.2 host hhost) rfl (by decide)

theorem comma_notMem_str (n : Nat) : ',' ∉ str n := by
  intro h
  cases isDigit_of_mem_str h

-- The separator has the port of the host before it.
theorem lists_join (scheme path port : Str) {group : Group} (h : group.Addressed) (hport : ',' ∉ port) :
    Lists scheme path port group.hosts
      (scheme ++ join (':' :: port ++ [',']) group.hosts ++ (':' :: port ++ path)) := by
  refine ⟨join (':' :: port ++ [',']) group.hosts ++ ':' :: port, ?_, ?_⟩
  · simp only [List.append_assoc]
  rw [join_append (':' :: port) ',' group.hosts h.1]
  apply List.splitOn_intercalate
  · intro item hitem hcomma
    obtain ⟨host, hhost, rfl⟩ := List.mem_map.mp hitem
    rcases List.mem_append.mp hcomma with hc | hc
    · exact comma_notMem h host hhost hc
    · rcases List.mem_cons.mp hc with hc | hc
      · cases hc
      · exact hport hc
  · simpa using h.1

theorem mesosZkAddrs_lists (groups : Inventory) (h : groups.zookeeper.Addressed) :
    Lists "zk://".toList "/mesos".toList "2181".toList groups.zookeeper.hosts (mesosZkAddrs groups) := by
  have hseparator : ":2181,".toList = ':' :: "2181".toList ++ [','] := by decide
  have hlast : ":2181/mesos".toList = ':' :: "2181".toList ++ "/mesos".toList := by decide
  unfold mesosZkAddrs
  rw [hseparator, hlast]
  exact lists_join "zk://".toList "/mesos".toList "2181".toList h (by decide)

theorem lists_4001 {group : Group} (h : group.Addressed) :
    Lists "http://".toList [] "4001".toList group.hosts
      ("http://".toList ++ join ":4001,".toList group.hosts ++ ":4001".toList) := by
  have hseparator : ":4001,".toList = ':' :: "4001".toList ++ [','] := by decide
  have hlast : ":4001".toList = ':' :: "4001".toList ++ [] := by decide
  rw [hseparator, hlast]
  exact lists_join "http://".toList [] "4001".toList h (by decide)

-- The colon stands before the last port only, so no other host keeps its own.
theorem lists_without_colon_iff (scheme port : Str) {group : Group} (h : group.Addressed) (hport : ',' ∉ port) :
    Lists scheme [] port group.hosts (scheme ++ join (port ++ [',']) group.hosts ++ [':'] ++ port) ↔
      group.hosts.length = 1 := by
  constructor
  · rintro ⟨body, hvalue, hbody⟩
    have hjoined : body = [','].intercalate (group.hosts.map fun host => host ++ ':' :: port) := by
      rw [← hbody, List.intercalate_splitOn]
    rw [← join_append (':' :: port) ',' _ h.1] at hjoined
    have hlength := congrArg List.length hvalue
    rw [hjoined] at hlength
    simp only [List.length_append, length_join, List.length_cons, List.length_nil, Nat.add_mul] at hlength
    have hpos := List.length_pos_of_ne_nil h.1
    omega
  · intro hone
    obtain ⟨host, hhosts⟩ := List.length_eq_one_iff.mp hone
    have hlists := lists_join scheme [] port h hport
    rw [hhosts] at hlists ⊢
    simpa [join] using hlists

theorem k8sApiServers_lists_iff (groups : Inventory) (k8sApiPort : Nat) (h : groups.kubernetes.Addressed) :
    Lists "http://".toList [] (str k8sApiPort) groups.kubernetes.hosts (k8sApiServers groups k8sApiPort) ↔
      groups.kubernetes.hosts.length = 1 :=
  lists_without_colon_iff "http://".toList (str k8sApiPort) h (comma_notMem_str k8sApiPort)

end Lists

end MesosPoc.Ansible
