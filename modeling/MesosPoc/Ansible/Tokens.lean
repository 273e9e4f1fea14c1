import MesosPoc.Python

namespace MesosPoc.Ansible

-- grep with an expression whose only special character is the dot.

def startsLine : Str → Str → Bool
  | [], _ => true
  | _ :: _, [] => false
  | p :: pattern, c :: line => (p = '.' || p = c) && startsLine pattern line

def grep (pattern line : Str) : Bool :=
  line.tails.any (startsLine pattern)

-- The lines of known_tokens.csv, and the content of the token files by their names.
structure TokenDir where
  known : List Str
  files : Str → Option Str

def TokenDir.empty : TokenDir := ⟨[], fun _ => none⟩

def tokenFile (account : Str) : Str := account ++ ".token".toList

def knownLine (token account : Str) : Str :=
  token ++ ',' :: (account ++ ',' :: account)

-- kube-gen-token.sh with one account, and the token that /dev/urandom has for it.
def kubeGenToken (dir : TokenDir) (account token : Str) : TokenDir :=
  if dir.known.any (grep (',' :: (account ++ [',']))) then dir
  else
    { known := dir.known ++ [knownLine token account]
      files := fun name =>
        if name = tokenFile account then some (token ++ ['\n']) else dir.files name }

-- The hosts of the two groups of the roles, in the order of the inventory.
structure Kubernetes where
  master : List Str
  minion : List Str

def masterComponents : List Str :=
  ["system:controller_manager".toList, "system:scheduler".toList, "system:kubectl".toList, "system:proxy".toList]

def minionComponents : List Str :=
  ["system:kubelet".toList, "system:proxy".toList, "system:calico".toList]

def account (component host : Str) : Str := component ++ '-' :: host

-- with_nested: the hosts of a group for each component.
def nested (components hosts : List Str) : List Str :=
  components.flatMap fun component => hosts.map (account component)

def Kubernetes.accounts (groups : Kubernetes) : List Str :=
  nested masterComponents groups.master ++ nested minionComponents groups.minion

-- gen_tokens.yml in one run of the playbook after the other: a call of the script for
-- each account, each with a token of its own.
def genTokens (tokens : Nat → Str) (runs : List Kubernetes) : TokenDir :=
  (runs.flatMap Kubernetes.accounts).zipIdx.foldl
    (fun dir (account, call) => kubeGenToken dir account (tokens call)) .empty

-- k8s-master/tasks/main.yml reads the files of each host.
def masterToken (dir : TokenDir) (component host : Str) : Option Str :=
  dir.files (tokenFile (account component host))

-- The components that k8s-minion/tasks/main.yml gets the token values of.
def nodeTokens : List Str :=
  ["system:kubelet".toList, "system:proxy".toList]

-- It reads the files once, for the first host of the play, and the result is registered
-- on every host.
def minionToken (dir : TokenDir) (groups : Kubernetes) (component _host : Str) : Option Str :=
  groups.minion.head?.bind fun first => dir.files (tokenFile (account component first))

-- The users that the API server knows a token for.
def users (dir : TokenDir) (token : Str) : List Str :=
  dir.known.filterMap fun line =>
    match line.splitOn ',' with
    | word :: user :: _ => if word = token then some user else none
    | _ => none

-- The credentials of a host are those of an account: the file holds the token of that
-- account and of no other one.
def Authenticates (dir : TokenDir) (content : Option Str) (user : Str) : Prop :=
  ∃ token, content = some (token ++ ['\n']) ∧ users dir token = [user]

end MesosPoc.Ansible
