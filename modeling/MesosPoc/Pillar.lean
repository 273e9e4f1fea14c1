import MesosPoc.Shell
import MesosPoc.Yaml

namespace MesosPoc.Pillar

-- saltstack/k8s_cluster_prepare/create-dynamic-salt-files.sh, cluster-params.sls.

-- The value of a variable: one line of printable characters.
structure Value where
  text : Str
  printable : text.all Yaml.isPrintable = true

structure Environment where
  instancePrefix : Value
  nodeInstancePrefix : Value
  serviceClusterIpRange : Value
  admissionControl : Value
  enableClusterDns : Value
  dnsServerIp : Value
  dnsDomain : Value
  dnsReplicas : Value
  masterFloatingIp : Value
  opsServerIp : Value
  dockerOpts : Value
  httpProxy : Value
  etcdOut : Value
  enableClusterUi : Value
  useKubemark : Value
  numNodes : Value

-- $(echo "$value" | sed -e "s/'/''/g")
def echoed (value : Value) : Str :=
  Replace.replaceAll ['\''] ['\'', '\''] (Shell.echo [value.text])

def line (key : String) (node : Str) : Str :=
  key.toList ++ ':' :: ' ' :: node

def singleQuoted (text : Str) : Str := '\'' :: text ++ ['\'']

def doubleQuoted (text : Str) : Str := '"' :: text ++ ['"']

section Lines

variable (env : Environment)

-- ${ENABLE_CLUSTER_UI:true} is the value from an offset on. There is no variable of the
-- name true, which counts as 0.
def enableClusterUi : Str :=
  env.enableClusterUi.text.drop 0

-- ${NUM_NODES:-20}
def numNodes : Str :=
  if env.numNodes.text = [] then "20".toList else env.numNodes.text

def heredoc : List Str :=
  [line "instance_prefix" (singleQuoted (echoed env.instancePrefix)),
    line "node_instance_prefix" env.nodeInstancePrefix.text,
    line "service_cluster_ip_range" env.serviceClusterIpRange.text,
    line "admission_control" (singleQuoted (echoed env.admissionControl)),
    line "enable_cluster_dns" (singleQuoted (echoed env.enableClusterDns)),
    line "dns_server" (singleQuoted (echoed env.dnsServerIp)),
    line "dns_domain" (singleQuoted (echoed env.dnsDomain)),
    line "dns_replicas" (singleQuoted (echoed env.dnsReplicas)),
    line "master_floating_ip" (singleQuoted (echoed env.masterFloatingIp)),
    line "ops_server_ip" (singleQuoted (echoed env.opsServerIp)),
    line "docker_opts" (singleQuoted (echoed env.dockerOpts)),
    line "http_proxy" (singleQuoted (echoed env.httpProxy)),
    line "etcd_out" (singleQuoted env.etcdOut.text),
    line "enable_cluster_ui" (doubleQuoted (enableClusterUi env)),
    line "network_provider" (singleQuoted "flannel".toList)]

-- [ "xtrue" == "x${USE_KUBEMARK}" ]
def isKubemark : Bool :=
  env.useKubemark.text = "true".toList

def kubemark : List Str :=
  if isKubemark env then
    [line "user_kubemark" (singleQuoted "true".toList), line "num_nodes" (numNodes env)]
  else []

def clusterParams : Str :=
  (heredoc env ++ kubemark env).flatMap (· ++ ['\n'])

-- The keys that the variables are written under.
def written : List (String × Value) :=
  [("instance_prefix", env.instancePrefix), ("node_instance_prefix", env.nodeInstancePrefix),
    ("service_cluster_ip_range", env.serviceClusterIpRange), ("admission_control", env.admissionControl),
    ("enable_cluster_dns", env.enableClusterDns), ("dns_server", env.dnsServerIp),
    ("dns_domain", env.dnsDomain), ("dns_replicas", env.dnsReplicas),
    ("master_floating_ip", env.masterFloatingIp), ("ops_server_ip", env.opsServerIp),
    ("docker_opts", env.dockerOpts), ("http_proxy", env.httpProxy), ("etcd_out", env.etcdOut),
    ("enable_cluster_ui", env.enableClusterUi)] ++
    if isKubemark env then [("num_nodes", env.numNodes)] else []

end Lines

-- config-default.sh and define-envs, where nothing is set before.
def value (text : String) (printable : text.toList.all Yaml.isPrintable = true) : Value :=
  ⟨text.toList, printable⟩

def defaults : Environment where
  instancePrefix := value "kubernetes" (by decide)
  nodeInstancePrefix := value "kubernetes-minion" (by decide)
  serviceClusterIpRange := value "10.247.0.0/16" (by decide)
  admissionControl :=
    value "NamespaceLifecycle,NamespaceExists,LimitRanger,SecurityContextDeny,ServiceAccount,ResourceQuota"
      (by decide)
  enableClusterDns := value "true" (by decide)
  dnsServerIp := value "10.147.3.10" (by decide)
  dnsDomain := value "cluster.local" (by decide)
  dnsReplicas := value "1" (by decide)
  masterFloatingIp := value "" (by decide)
  opsServerIp := value "" (by decide)
  dockerOpts := value "" (by decide)
  httpProxy := value "" (by decide)
  etcdOut := value "false" (by decide)
  enableClusterUi := value "false" (by decide)
  useKubemark := value "" (by decide)
  numNodes := value "" (by decide)

end MesosPoc.Pillar
