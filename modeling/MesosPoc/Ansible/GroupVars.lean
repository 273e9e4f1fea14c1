import MesosPoc.Jinja
import MesosPoc.Shell

namespace MesosPoc.Ansible

open Jinja

-- The names of the hosts of a group, in the order of the inventory.
structure Group where
  hosts : List Str
  distinct : hosts.Nodup

structure Inventory where
  zookeeper : Group
  mesosmaster : Group
  etcd : Group
  etcdEvent : Group
  kubernetes : Group

-- What Ansible gathers on a host.
structure Facts where
  ansibleDistribution : Str
  ansibleVirtualizationType : Str
  ansibleDefaultIpv4Address : Str
  ansibleAllIpv4Addresses : List Str

section GroupVars

variable (groups : Inventory) (facts : Facts)

-- module/group_vars/all.
def iscentos : Bool :=
  facts.ansibleDistribution = "CentOS".toList ∨ facts.ansibleDistribution = "Red Hat Enterprise Linux".toList

def mesosZkAddrs : Str :=
  "zk://".toList ++ join ":2181,".toList groups.zookeeper.hosts ++ ":2181/mesos".toList

def etcdServers : Str :=
  "http://".toList ++ join ":4001,".toList groups.etcd.hosts ++ ":4001".toList

def etcdEventServers : Str :=
  "http://".toList ++ join ":4001,".toList groups.etcdEvent.hosts ++ ":4001".toList

def k8sApiServers (k8sApiPort : Nat) : Str :=
  "http://".toList ++ join (str k8sApiPort ++ ",".toList) groups.kubernetes.hosts ++ ":".toList ++ str k8sApiPort

def mesosQuorum : Str :=
  str (int (Jinja.round ((groups.zookeeper.hosts.length : Rat) / 2)))

-- An address that is not there is an undefined variable.
def vagrantIp : Option Str :=
  if iscentos facts then facts.ansibleAllIpv4Addresses.getLast? else facts.ansibleAllIpv4Addresses[1]?

def ipaddr : Option Str :=
  if facts.ansibleVirtualizationType = "virtualbox".toList then vagrantIp facts
  else some facts.ansibleDefaultIpv4Address

def hostname : Option Str :=
  (ipaddr facts).map (replace ['.'] ['-'])

-- The blank before the end of the loop is stripped, and the line end after it too.
def clusterMember (item : Str) (last : Bool) : Str :=
  replace ['.'] ['-'] item ++ "=http://".toList ++ item ++ ":2380".toList ++ if last then [] else [',']

def etcdCluster : Str :=
  forLoop clusterMember groups.etcd.hosts

-- roles/mesos-master/tasks/main.yml, the environment of the container.
def mesosMaster : Option (List (Str × Str)) := do
  let ip ← ipaddr facts
  some [("MESOS_HOSTNAME".toList, ip), ("MESOS_IP".toList, ip), ("MESOS_ZK".toList, mesosZkAddrs groups),
    ("MESOS_QUORUM".toList, mesosQuorum groups), ("MESOS_LOG_DIR".toList, "/var/log/mesos".toList)]

-- roles/etcd/tasks/main.yml, the lines of the command of the container.
def etcdOptions (clusterToken : Option Str) (name ip : Str) : List (Str × Str) :=
  [("-name".toList, name),
    ("-advertise-client-urls".toList, "http://".toList ++ ip ++ ":2379,http://".toList ++ ip ++ ":4001".toList),
    ("-listen-client-urls".toList, "http://0.0.0.0:2379,http://0.0.0.0:4001".toList),
    ("-initial-advertise-peer-urls".toList, "http://".toList ++ ip ++ ":2380".toList),
    ("-listen-peer-urls".toList, "http://0.0.0.0:2380".toList),
    ("-initial-cluster-token".toList, clusterToken.getD "etcd-cluster".toList),
    ("-initial-cluster".toList, etcdCluster groups),
    ("-initial-cluster-state".toList, "new".toList)]

def etcdCommand (clusterToken : Option Str) : Option Str := do
  let name ← hostname facts
  let ip ← ipaddr facts
  some (join [' '] ((etcdOptions groups clusterToken name ip).map fun (option, value) => option ++ ' ' :: value))

end GroupVars

-- mesos_master.yml runs the role on the hosts of mesosmaster.
def startMesosMasterCluster (groups : Inventory) (facts : Str → Facts) : List (Option (List (Str × Str))) :=
  groups.mesosmaster.hosts.map fun host => mesosMaster groups (facts host)

end MesosPoc.Ansible
