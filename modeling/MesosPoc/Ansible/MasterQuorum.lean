import MesosPoc.Ansible.GroupVars
import MesosPoc.Quorum
import MesosPoc.LoadBalancer.Sections

namespace MesosPoc.Ansible

variable (groups : Inventory)

def Inventory.masters : Finset Str :=
  groups.mesosmaster.hosts.toFinset

-- The quorum that each of the masters gets is a majority of them, so that two
-- quorums have a master in common.
def MastersAgree : Prop :=
  ∀ facts : Str → Facts, ∀ env, some env ∈ startMesosMasterCluster groups facts →
    ∃ q : Nat, env.lookup "MESOS_QUORUM".toList = some (Jinja.str q) ∧ Majority groups.masters q ∧
      ∀ A B, IsQuorum groups.masters q A → IsQuorum groups.masters q B → (A ∩ B).Nonempty

theorem card_masters : groups.masters.card = groups.mesosmaster.hosts.length :=
  List.toFinset_card_of_nodup groups.mesosmaster.distinct

theorem mesosQuorum_eq : mesosQuorum groups = Jinja.str ((groups.zookeeper.hosts.length + 1) / 2 : Nat) := by
  rw [mesosQuorum, Jinja.round_half, Jinja.int_natCast]

theorem str_injective {m n : Nat} (h : Jinja.str m = Jinja.str n) : m = n :=
  LoadBalancer.decimal_injective h

theorem mesosMaster_quorum {facts : Facts} {env : List (Str × Str)} (h : mesosMaster groups facts = some env) :
    env.lookup "MESOS_QUORUM".toList = some (mesosQuorum groups) := by
  obtain ⟨ip, _, henv⟩ := Option.bind_eq_some_iff.mp h
  rw [← Option.some.inj henv]
  rfl

-- A host that is no virtual machine has its default address.
def plainFacts (host : Str) : Facts where
  ansibleDistribution := "Ubuntu".toList
  ansibleVirtualizationType := "kvm".toList
  ansibleDefaultIpv4Address := host
  ansibleAllIpv4Addresses := [host]

theorem exists_started (hmasters : groups.mesosmaster.hosts ≠ []) :
    ∃ env, some env ∈ startMesosMasterCluster groups plainFacts := by
  obtain ⟨host, hhost⟩ := List.exists_mem_of_ne_nil _ hmasters
  exact ⟨_, List.mem_map.mpr ⟨host, hhost, rfl⟩⟩

theorem mastersAgree_iff_majority (hmasters : groups.mesosmaster.hosts ≠ []) :
    MastersAgree groups ↔ Majority groups.masters ((groups.zookeeper.hosts.length + 1) / 2) := by
  constructor
  · intro h
    obtain ⟨env, henv⟩ := exists_started groups hmasters
    obtain ⟨q, hlookup, hmajority, -⟩ := h plainFacts env henv
    obtain ⟨host, -, hhost⟩ := List.mem_map.mp henv
    rw [mesosMaster_quorum groups hhost, mesosQuorum_eq] at hlookup
    rw [str_injective (Option.some.inj hlookup)]
    exact hmajority
  · intro hmajority facts env henv
    obtain ⟨host, -, hhost⟩ := List.mem_map.mp henv
    refine ⟨_, ?_, hmajority, ((majority_iff _ _).mp hmajority).2⟩
    rw [mesosMaster_quorum groups hhost, mesosQuorum_eq]

-- With n hosts in zookeeper and m masters: n is at most twice m, and more than m,
-- or as many where that is odd.
theorem mastersAgree_iff (hmasters : groups.mesosmaster.hosts ≠ []) :
    MastersAgree groups ↔
      groups.zookeeper.hosts.length ≤ 2 * groups.mesosmaster.hosts.length ∧
        (groups.mesosmaster.hosts.length < groups.zookeeper.hosts.length ∨
          groups.mesosmaster.hosts.length = groups.zookeeper.hosts.length ∧
            groups.zookeeper.hosts.length % 2 = 1) := by
  rw [mastersAgree_iff_majority groups hmasters, Majority, card_masters]
  omega

section Samples

def noHosts : Group where
  hosts := []
  distinct := List.nodup_nil

def threeMasters : Group where
  hosts := ["192.168.33.10".toList, "192.168.33.11".toList, "192.168.33.12".toList]
  distinct := by decide

def twoMasters : Group where
  hosts := ["192.168.33.10".toList, "192.168.33.11".toList]
  distinct := by decide

-- Both groups of the same hosts.
def mesosOn (group : Group) : Inventory where
  zookeeper := group
  mesosmaster := group
  etcd := noHosts
  etcdEvent := noHosts
  kubernetes := noHosts

end Samples

theorem three_masters_agree : MastersAgree (mesosOn threeMasters) :=
  (mastersAgree_iff (mesosOn threeMasters) (List.cons_ne_nil _ _)).mpr (by decide)

-- Each of two masters is a quorum of its own.
theorem two_masters_disagree :
    mesosQuorum (mesosOn twoMasters) = "1".toList ∧ ¬MastersAgree (mesosOn twoMasters) := by
  refine ⟨?_, ?_⟩
  · rw [mesosQuorum_eq]
    rfl
  · intro h
    have hmajority := (mastersAgree_iff_majority (mesosOn twoMasters) (List.cons_ne_nil _ _)).mp h
    revert hmajority
    unfold Majority
    decide

end MesosPoc.Ansible
