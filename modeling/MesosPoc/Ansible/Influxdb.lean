import MesosPoc.Ansible.GroupVars

namespace MesosPoc.Ansible

open Jinja

-- module/influxdb.yml, with the role influxdb and its group_vars.

structure InfluxdbGroups where
  influxdb : Group
  influxdbData : Group

-- group[position], or group[position:]
inductive Pattern
  | at (position : Nat)
  | from (position : Nat)

-- None is an index past the end of a group.
def Pattern.select (hosts : List Str) : Pattern → Option (List Str)
  | .at position => if hosts = [] then some [] else hosts[position]?.map fun host => [host]
  | .from position => some (hosts.drop position)

structure Play where
  group : Group
  pattern : Pattern
  join : Option Str

-- The role on a host, with the value of JOIN for the container.
structure RoleRun where
  host : Str
  join : Option Str
deriving DecidableEq

section Plays

variable (groups : InfluxdbGroups)

def address (host : Str) : Str :=
  host ++ ":8088".toList

-- The first of no hosts is an undefined variable.
def influxdbJoined1 : Option Str :=
  groups.influxdb.hosts.head?.map address

-- influxdb_joined_2 and influxdb_joined_3 differ in the number.
def influxdbJoined (count : Nat) : Str :=
  forIndexed
    (fun index item => if index ≤ count then address item ++ if index = count then [] else [','] else [])
    1 groups.influxdb.hosts

def influxdbPlays : List Play :=
  [{ group := groups.influxdb, pattern := .at 0, join := some [] },
    { group := groups.influxdb, pattern := .at 1, join := influxdbJoined1 groups },
    { group := groups.influxdb, pattern := .at 2, join := some (influxdbJoined groups 2) },
    { group := groups.influxdbData, pattern := .from 3, join := some (influxdbJoined groups 3) }]

end Plays

-- An index past the end of a group ends the run of the plays, or leaves the play without
-- hosts.
def runPlays (stops : Bool) : List Play → List RoleRun
  | [] => []
  | play :: rest =>
      match play.pattern.select play.group.hosts with
      | some hosts => hosts.map (fun host => { host, join := play.join }) ++ runPlays stops rest
      | none => if stops then [] else runPlays stops rest

end MesosPoc.Ansible
