import RustyAutossh.Source.SshSupervisor
import RustyAutossh.Loop.Runs

/-!
# The effects of the library's run

`SshSupervisor::run` acquires its resources one after the other and releases them where
their owners go out of scope. Each function here gives its result and the site it leaves;
on an early return it has dropped what it owns, as the scopes of the source do.
-/

namespace RustyAutossh

open Async

/-- The platform with its TCP stack, the process id, and the file operations it refuses. -/
structure Machine extends Platform where
  tcp : TcpStack
  pid : UInt32
  /-- The error of replacing a file atomically. -/
  writeError : PathBuf → Option IoError
  /-- The error of opening a file for appending. -/
  openError : PathBuf → Option IoError
  /-- The error of `remove_file` on a file that exists. -/
  removeError : PathBuf → Option IoError

/-- What a run finds and leaves: the local ports listened on, the files with their
contents, and the host of the loop. -/
structure Site where
  listening : List UInt16
  files : PathBuf → Option (List UInt8)
  world : World

/-- Give a file new contents, or remove it. -/
def Site.setFile (site : Site) (path : PathBuf) (contents : Option (List UInt8)) : Site :=
  { site with files := fun p => if p = path then contents else site.files p }

/-- Dropping a listener closes it. -/
def Site.close (site : Site) (listener : TcpListener) : Site :=
  { site with listening := site.listening.erase listener.port }

/-- `bind_reuseaddr` and the port it opens. -/
def Machine.bindReuseaddr (m : Machine) (port : UInt16) (site : Site) :
    Except AutosshError TcpListener × Site :=
  match RustyAutossh.bindReuseaddr m.tcp site.listening port with
  | .ok listener => (.ok listener, { site with listening := listener.port :: site.listening })
  | .error e => (.error e, site)

/-- `ProbeLoop::bind` with the ports it opens and, on its early returns, closes. -/
def Machine.bindLoop (m : Machine) (mode : MonitorMode) (message : Option String) (site : Site) :
    Except AutosshError ProbeLoop × Site :=
  if message.any (·.contains '\n') then
    (.error (.internal "AUTOSSH_MESSAGE contains embedded newline"), site)
  else match mode with
    | .none => (.error (.internal "ProbeLoop::bind called with MonitorMode::None"), site)
    | .active port none =>
      match m.bindReuseaddr port site with
      | (.error e, site) => (.error e, site)
      | (.ok listenerIn, site) =>
        match localPort m.tcp listenerIn port with
        | .error e => (.error e, site.close listenerIn)
        | .ok inPort =>
          let outTarget := if port = 0 then 0 else saturatingAddU16 port 1
          match m.bindReuseaddr outTarget site with
          | (.error e, site) => (.error e, site.close listenerIn)
          | (.ok listenerOut, site) =>
            match localPort m.tcp listenerOut outTarget with
            | .error e => (.error e, (site.close listenerOut).close listenerIn)
            | .ok outPort =>
              (.ok ⟨listenerIn, some listenerOut, message, ⟨inPort, outPort⟩⟩, site)
    | .active port (some echo) =>
      match m.bindReuseaddr port site with
      | (.error e, site) => (.error e, site)
      | (.ok listenerIn, site) =>
        match localPort m.tcp listenerIn port with
        | .error e => (.error e, site.close listenerIn)
        | .ok inPort => (.ok ⟨listenerIn, none, message, ⟨inPort, echo⟩⟩, site)

/-- Dropping the monitor closes its listeners. -/
def Site.dropMonitor (site : Site) (monitor : Option ProbeLoop) : Site :=
  match monitor with
  | none => site
  | some loop =>
    match loop.listenerOut with
    | none => site.close loop.listenerIn
    | some out => (site.close loop.listenerIn).close out

/-- `PidfileGuard`. -/
structure PidfileGuard where
  path : PathBuf
  deriving DecidableEq, Repr

/-- `write_pid`: the file is replaced as a whole, or left as it was. -/
def Machine.writePid (m : Machine) (path : PathBuf) (site : Site) :
    Except AutosshError PidfileGuard × Site :=
  match m.writeError path with
  | some source => (.error (.pidfileWrite path source), site)
  | none => (.ok ⟨path⟩, site.setFile path (some (intoBytes (toString m.pid.toNat ++ "\n"))))

/-- `PidfileGuard::drop`, which ignores a removal that the system refuses. -/
def Machine.dropGuard (m : Machine) (pidfile : Option PidfileGuard) (site : Site) : Site :=
  match pidfile with
  | none => site
  | some pidfile =>
    match m.removeError pidfile.path with
    | some _ => site
    | none => site.setFile pidfile.path none

/-- `WorkerGuard`. -/
structure WorkerGuard where
  deriving DecidableEq, Repr

/-- `init_logfile`: a file that cannot be opened is no error. -/
def Machine.initLogfile (m : Machine) (path : Option PathBuf) (mode : CompatibilityMode)
    (site : Site) : Except AutosshError (Option WorkerGuard) × Site :=
  match path with
  | none => (.ok none, site)
  | some p =>
    match m.openError p with
    | some _ => (.ok none, site)
    | none =>
      (.ok (match mode with | .default => some {} | .strict => none),
        site.setFile p (some ((site.files p).getD [])))

/-- The ssh binary: the one given, or the one found. -/
def SshSupervisor.resolve (self : SshSupervisor) (m : Machine) (site : Site) :
    Except AutosshError PathBuf :=
  match self.sshPath with
  | some p => .ok p
  | none => resolveSshPath m.toPlatform fun p => (site.files p).isSome

/-- The monitor listeners, when a monitor is asked for. -/
def SshSupervisor.bindMonitor (self : SshSupervisor) (m : Machine) (site : Site) :
    Except AutosshError (Option ProbeLoop) × Site :=
  match self.monitorMode with
  | .none => (.ok none, site)
  | .active port echo =>
    match m.bindLoop (.active port echo) self.message site with
    | (.ok loop, site) => (.ok (some loop), site)
    | (.error e, site) => (.error e, site)

/-- The pidfile, when one is asked for. -/
def SshSupervisor.writePidfile (self : SshSupervisor) (m : Machine) (site : Site) :
    Except AutosshError (Option PidfileGuard) × Site :=
  match self.pidfilePath with
  | none => (.ok none, site)
  | some p =>
    match m.writePid p site with
    | (.ok pidfile, site) => (.ok (some pidfile), site)
    | (.error e, site) => (.error e, site)

/-- `SshSupervisor::run` cut after `n` turns of its loop. -/
def SshSupervisor.run (self : SshSupervisor) (m : Machine) (n : Nat)
    (script : List (List Event)) (site : Site) : End AutosshError Flow × Site :=
  match self.resolve m site with
  | .error e => (.fail e, site)
  | .ok sshPath =>
    match self.bindMonitor m site with
    | (.error e, site) => (.fail e, site)
    | (.ok monitor, site) =>
      match self.writePidfile m site with
      | (.error e, site) => (.fail e, site.dropMonitor monitor)
      | (.ok pidfile, site) =>
        match m.initLogfile self.logfilePath self.compatibilityMode site with
        | (.error e, site) => (.fail e, (m.dropGuard pidfile site).dropMonitor monitor)
        | (.ok _, site) =>
          let supervisor := self.supervisor sshPath monitor site.world.now
          let outcome := execute n script ⟨supervisor, site.world⟩
          let site := { site with world := outcome.state.world }
          match outcome.out with
          -- the loop goes on, and its record keeps the listeners and the guard
          | .pending => (.pending, site)
          | .ret (.looping next) => (.ret (.looping next), site)
          | out => (out, m.dropGuard pidfile (site.dropMonitor monitor))

end RustyAutossh
