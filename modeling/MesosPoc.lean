import MesosPoc.LoadBalancer.Reload.Theorems
import MesosPoc.LoadBalancer.Routing
import MesosPoc.LoadBalancer.Rewriting.Stripping
import MesosPoc.LoadBalancer.Sections
import MesosPoc.LoadBalancer.Services.Theorems
import MesosPoc.LoadBalancer.Generate
import MesosPoc.Watch.EndOfStream
import MesosPoc.Watch.SizeLine
import MesosPoc.Booting.Receiver.Crossing
import MesosPoc.Booting.Receiver.Recovery
import MesosPoc.Booting.Publisher.Accounting
import MesosPoc.Booting.Publisher.Liveness
import MesosPoc.Booting.Delivery.Poison
import MesosPoc.Json.Theorems
import MesosPoc.Datetime
import MesosPoc.Performance.Process
import MesosPoc.Performance.Process.Counting
import MesosPoc.Performance.Process.Completion
import MesosPoc.Performance.Cutting
import MesosPoc.Performance.Checkers.Crashes
import MesosPoc.Performance.Checkers.Rounding
import MesosPoc.Performance.Checkers.Prefilter
import MesosPoc.Performance.Startup.Losses
import MesosPoc.Performance.Subprocess
import MesosPoc.Performance.Case.Closing
import MesosPoc.Performance.Kill.Statuses
import MesosPoc.Performance.Kill.Selection
import MesosPoc.Performance.Kill.Recording
import MesosPoc.Performance.Instantiation.Theorems
import MesosPoc.Ansible.MasterQuorum
import MesosPoc.Ansible.Cluster
import MesosPoc.Ansible.Influxdb.Peers
import MesosPoc.RegistryPerformance.Percentiles
import MesosPoc.Performance.Suit.Books
import MesosPoc.Flexvolume.Theorems
import MesosPoc.Pillar.Carrying
import MesosPoc.LoadBalancer.Dispatch
import MesosPoc.KeepAlive.Stranded
import MesosPoc.KeepAlive.Opening
import MesosPoc.KeepAlive.Reading
import MesosPoc.Ansible.Tokens.Accounts
import MesosPoc.Performance.Instantiation.Decoding
import MesosPoc.LoadBalancer.Fetching.Seen
import MesosPoc.LoadBalancer.Fetching.Calm
import MesosPoc.Performance.Pipeline.Interleaving
import MesosPoc.Collectd.DockerPlugin.Ending
import MesosPoc.Kube.Addons.Drift
import MesosPoc.Booting.WorkQueue.Draining
