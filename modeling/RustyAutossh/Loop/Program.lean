import RustyAutossh.Source.Main
import RustyAutossh.Loop.Startup

/-!
# The program

`run` dispatches on the arguments. Where a supervisor is to be run, `futures_blocking_run` blocks
on it and the dispatcher turns its result into the exit code of the process that goes on.
-/

namespace RustyAutossh

open Async

/-- What the program runs on. -/
structure Computer where
  env : EnvSnapshot
  daemon : DaemonHost
  /-- The machine, apart from what the environment and the host say of it. -/
  base : Machine
  /-- What clap makes of the arguments of the default mode. -/
  tryParse : List OsString → Except UInt8 Cli
  /-- The error of building the runtime. -/
  runtimeError : Option IoError

/-- The machine with the two variables it looks up in the environment. -/
def Computer.machine (c : Computer) : Machine :=
  { c.base with
    target := c.daemon.target
    autosshPath := c.env.vars "AUTOSSH_PATH"
    path := c.env.vars "PATH" }

/-- `futures_blocking_run`, cut after `n` turns of the loop. -/
def Computer.futuresBlockingRun (c : Computer) (supervisor : SshSupervisor) (n : Nat)
    (script : List (List Event)) (site : Site) : End AutosshError Flow × Site :=
  match c.runtimeError with
  | some e => (.fail (.io e), site)
  | none => supervisor.run c.machine n script site

/-- The function with which a mode's dispatcher maps an error to an exit code. -/
def CompatibilityMode.onError : CompatibilityMode → AutosshError → UInt8
  | .default => mapError
  | .strict => mapStrictError

/-- The exit code of the process, once it has one; a panic leaves with 101. -/
def exitCode (onError : AutosshError → UInt8) : End AutosshError Flow → Option UInt8
  | .ret .returned => some 0
  | .ret (.looping _) => none
  | .fail e => some (onError e)
  | .abort => some 101
  | .pending => none

/-- `main`: the exit code of the process that goes on, and the site it leaves. -/
def Computer.main (c : Computer) (argv : List OsString) (n : Nat) (script : List (List Event))
    (site : Site) : Option UInt8 × Site :=
  match runMode c.daemon.target c.env argv, run c.daemon c.env c.tryParse argv with
  | some _, some (.exit code) => (some code, site)
  | some mode, some (.run supervisor) =>
    let (out, site) := c.futuresBlockingRun supervisor n script site
    (exitCode mode.onError out, site)
  | _, _ => (some 101, site)

/-- Both modes give an error the same code. -/
theorem CompatibilityMode.onError_eq (mode : CompatibilityMode) : mode.onError = mapError := by
  cases mode with
  | default => rfl
  | strict =>
    funext e
    cases e <;> rfl

/-- The program that runs a supervisor leaves with the code of its result. -/
theorem Computer.main_of_run {c : Computer} {argv : List OsString} {supervisor : SshSupervisor}
    (h : run c.daemon c.env c.tryParse argv = some (.run supervisor)) (n : Nat)
    (script : List (List Event)) (site : Site) :
    c.main argv n script site =
      (exitCode mapError (c.futuresBlockingRun supervisor n script site).1,
        (c.futuresBlockingRun supervisor n script site).2) := by
  cases hmode : runMode c.daemon.target c.env argv with
  | none =>
    simp only [run, hmode] at h
    cases h
  | some mode => simp only [Computer.main, hmode, h, mode.onError_eq]

end RustyAutossh
