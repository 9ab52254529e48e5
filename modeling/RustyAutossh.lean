import RustyAutossh.Async.Prog
import RustyAutossh.Async.Logic
import RustyAutossh.Source.Types
import RustyAutossh.Source.Clock
import RustyAutossh.Source.Monitor
import RustyAutossh.Source.Spawner
import RustyAutossh.Source.Supervisor
import RustyAutossh.Host.Runtime
import RustyAutossh.Loop.Code
import RustyAutossh.Host.Answers
import RustyAutossh.Loop.Pieces
import RustyAutossh.Loop.Tick
import RustyAutossh.Loop.Runs
import RustyAutossh.Host.Progress
import RustyAutossh.Loop.Core
import RustyAutossh.Loop.Relaunch
import RustyAutossh.Correctness.SingleChild
import RustyAutossh.Correctness.Retry
import RustyAutossh.Loop.Footprint
import RustyAutossh.Correctness.Shutdown
import RustyAutossh.Correctness.Tunnel
import RustyAutossh.Correctness.Echo
import RustyAutossh.Correctness.Result
import RustyAutossh.Correctness.Lifetime
import RustyAutossh.Loop.Waiting
import RustyAutossh.Correctness.Wakeup
import RustyAutossh.Correctness.Cap
import RustyAutossh.Correctness.Exit
import RustyAutossh.Source.Mode
import RustyAutossh.Source.Strict
import RustyAutossh.Source.SshSupervisor
import RustyAutossh.Loop.Startup
import RustyAutossh.Correctness.Boundary
import RustyAutossh.Correctness.Overrides
import RustyAutossh.Correctness.Ports
import RustyAutossh.Correctness.Startup
import RustyAutossh.Loop.Fallbacks
import RustyAutossh.Correctness.LoopTop
import RustyAutossh.Correctness.Timing
import RustyAutossh.Correctness.Budget
import RustyAutossh.Async.Hiding
import RustyAutossh.Loop.Unheard
import RustyAutossh.Correctness.Observed
import RustyAutossh.Loop.Growth
import RustyAutossh.Loop.Words
import RustyAutossh.Places
import RustyAutossh.Correctness.Stream
import RustyAutossh.Loop.Reaping
import RustyAutossh.Alternation
import RustyAutossh.Correctness.Reaped
import RustyAutossh.Framing
import RustyAutossh.Correctness.Heartbeat
import RustyAutossh.Correctness.Grammar
import RustyAutossh.Correctness.Handover
import RustyAutossh.Correctness.Lossless
import RustyAutossh.Source.Cli
import RustyAutossh.Correctness.Maximal
import RustyAutossh.Correctness.Splitters
import RustyAutossh.Source.Main
import RustyAutossh.Correctness.Precedence
import RustyAutossh.Correctness.MaxStart
import RustyAutossh.Correctness.Deadlines
import RustyAutossh.CommandLine
import RustyAutossh.Source.Daemonizer
import RustyAutossh.Correctness.Detach
import RustyAutossh.Correctness.Overlap
import RustyAutossh.Loop.Daemon
import RustyAutossh.Correctness.Logfile
import RustyAutossh.Correctness.Activation
import RustyAutossh.Async.Frozen
import RustyAutossh.Correctness.Spinning
import RustyAutossh.Async.Watch
import RustyAutossh.Correctness.OnTime
import RustyAutossh.Pacing
import RustyAutossh.Correctness.SpawnRate
import RustyAutossh.Relay
import RustyAutossh.Source.Signals
import RustyAutossh.Async.Refine
import RustyAutossh.Host.Station
import RustyAutossh.Correctness.Signals
import RustyAutossh.Discipline
import RustyAutossh.Correctness.Kills
import RustyAutossh.Loop.Program
import RustyAutossh.Correctness.ExitCode
import RustyAutossh.Correctness.Passthrough
import RustyAutossh.Correctness.Modes
import RustyAutossh.Correctness.Refusals
import RustyAutossh.Correctness.MonitorValue
import RustyAutossh.Correctness.Departure
import RustyAutossh.Correctness.Accounting
import RustyAutossh.Async.Twin
import RustyAutossh.Correctness.Contents
import RustyAutossh.Async.Guard
import RustyAutossh.Correctness.OwnChild
import RustyAutossh.Correctness.Keeping
