import RustyAutossh.Source.Clock

/-!
# The command line of the default mode

`splitAutosshArgs` takes the known flags and their values off the left of the arguments, and
`applyDashFOverrides` is what `-f` does to a clock that was resolved without it.
-/

namespace RustyAutossh

/-- `is_autossh_known_flag`. -/
def isAutosshKnownFlag (tok : String) : Bool :=
  ["-M", "-f", "-V", "-1", "--monitor-port", "--background", "--version", "--one-shot", "--poll",
    "--first-poll", "--gate-time", "--max-start", "--max-lifetime", "--ssh-path", "--pid-file",
    "--log-file", "--debug", "--log-level", "--strict", "--no-strict"].contains tok ||
  -- the last one is the inline form of `-M`
  ["--monitor-port=", "--poll=", "--first-poll=", "--gate-time=", "--max-start=",
    "--max-lifetime=", "--ssh-path=", "--pid-file=", "--log-file=", "--log-level=", "-M"].any
    fun p => p.toList.isPrefixOf tok.toList

/-- `flag_takes_value`. -/
def flagTakesValue (tok : String) : Bool :=
  ["-M", "--monitor-port", "--poll", "--first-poll", "--gate-time", "--max-start",
    "--max-lifetime", "--ssh-path", "--pid-file", "--log-file", "--log-level"].contains tok

/-- The loop of `split_autossh_args` from one of its turns on, with the flags so far. -/
def splitAutosshArgsFrom : List String → List String → List String × List String
  | [], autossh => (autossh, [])
  | tok :: rest, autossh =>
    if tok = "--" then (autossh, rest)
    else if isAutosshKnownFlag tok then
      if flagTakesValue tok then
        match rest with
        | val :: rest => splitAutosshArgsFrom rest (autossh ++ [tok, val])
        -- a flag at the end keeps its place without a value
        | [] => (autossh ++ [tok], [])
      else splitAutosshArgsFrom rest (autossh ++ [tok])
    else (autossh, tok :: rest)

/-- `split_autossh_args`. -/
def splitAutosshArgs (argv : List String) : List String × List String :=
  splitAutosshArgsFrom argv []

example : splitAutosshArgs ["-f", "-M", "--", "-M1", "--poll=5", "-L", "--", "x"] =
    (["-f", "-M", "--", "-M1", "--poll=5"], ["-L", "--", "x"]) := by decide +kernel

/-- `apply_dash_f_overrides`. -/
def applyDashFOverrides (clock : PollClock) (dashF : Bool) : PollClock :=
  if dashF then { clock with gateTime := 0 } else clock

end RustyAutossh
