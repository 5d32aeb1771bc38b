/-
# What a command looks at

A command looks at its configuration, at the files that the configuration
names, and, to write a report, at the way to it.
-/

import Rollout.CommandLine.Run

namespace Rollout

/-- The files of a phase. -/
def PhaseSource.paths (s : PhaseSource) : List String :=
  [s.compose, s.keystore]

/-- The files that a configuration names. -/
def Configuration.paths (c : Configuration) : List String :=
  c.settings.configFile :: (c.bootstrap.paths ++ c.fleet.paths)

namespace CommandLine

/-- The path of the configuration. -/
def Command.config : Command → String
  | deploy target _ | check target => target.config
  | introspect _ _ config => config

/-- The path of the report. -/
def Command.output? : Command → Option String
  | deploy _ options => options.output
  | _ => none

/-- How the hosts of a command are reached. -/
def Command.ssh (command : Command) (w : Surroundings) : Except Failure Ssh :=
  match w.configuration command.config with
  | .ok c => .ok c.settings.ssh
  | .error f => .error f

/-- The paths that a command looks at. Those that the configuration names are
known as soon as the configuration is there. -/
def Command.paths (command : Command) (w : Surroundings) : List (List Char) :=
  let named := match w.configuration command.config with
    | .ok c => c.paths.map String.toList
    | .error _ => []
  let given := command.config :: command.output?.toList
  given.map (fun path => Path.expandHome w.home path.toList) ++ named

end CommandLine
end Rollout
