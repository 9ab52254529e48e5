import RustyAutossh.Source.Mode

/-!
# Detaching the process

On Windows `detach_windows` starts the program again with the arguments it was given, which
the operating system takes as one line of UTF-16 units. On Unix `daemonize_unix` opens the log
path for the two standard streams and leaves the directory the program was invoked in.
-/

namespace RustyAutossh

/-- The buffer `detach_windows` passes to `CreateProcessW`: the program and each argument in
double quotes, and the NUL behind them. -/
def cmdlineBuf (exe : List UInt16) (args : List (List UInt16)) : List UInt16 :=
  args.foldl (fun buf arg => buf ++ [0x20, 0x22] ++ arg ++ [0x22]) ([0x22] ++ exe ++ [0x22]) ++ [0]

/-- `Path::is_absolute` on Unix. -/
def OsString.isAbsolute (path : PathBuf) : Bool := path.bytes.head? == some 47

/-- A Unix system under the startup. Where a path leads does not change meanwhile; what a call
answers is up to the state of the file system. -/
structure Os (Dir Place Fs : Type) where
  root : Dir
  locate : Dir → PathBuf → Place
  locate_absolute : ∀ dir path, path.isAbsolute → locate dir path = locate root path
  /-- `open` for appending, which creates a file that is not there. -/
  openAppend : Place → Fs → Option IoError × Fs
  /-- What `Daemonize::start` does besides changing to `/`, with the text of its error. -/
  start : Fs → Option String × Fs

/-- The process, with the log path's opens in their order. -/
structure Process (Dir Place Fs : Type) where
  cwd : Dir
  fs : Fs
  opened : List (Place × Option IoError)
  /-- The path `fallback_to_stderr` has warned of. -/
  warned : Option PathBuf

/-- The process as it was invoked. -/
def Process.invoked {Dir Place Fs : Type} (dir : Dir) (fs : Fs) : Process Dir Place Fs :=
  ⟨dir, fs, [], none⟩

section Os

variable {Dir Place Fs : Type}

/-- `OpenOptions::new().create(true).append(true).open(path)`. -/
def Os.openLog (os : Os Dir Place Fs) (path : PathBuf) (p : Process Dir Place Fs) :
    Option IoError × Process Dir Place Fs :=
  let place := os.locate p.cwd path
  let (refused, fs) := os.openAppend place p.fs
  (refused, { p with fs := fs, opened := p.opened ++ [(place, refused)] })

theorem Os.openLog_eq (os : Os Dir Place Fs) {path : PathBuf} {p : Process Dir Place Fs}
    {refused : Option IoError} {fs : Fs}
    (h : os.openAppend (os.locate p.cwd path) p.fs = (refused, fs)) :
    os.openLog path p = (refused,
      { p with fs := fs, opened := p.opened ++ [(os.locate p.cwd path, refused)] }) := by
  simp only [Os.openLog, h]

/-- `Daemonize::start` with `working_directory("/")`, in the process that goes on. -/
def Os.daemonize (os : Os Dir Place Fs) (p : Process Dir Place Fs) :
    Except AutosshError Unit × Process Dir Place Fs :=
  match os.start p.fs with
  | (some reason, fs) => (.error (.daemonize reason), { p with fs := fs })
  | (none, fs) => (.ok (), { p with fs := fs, cwd := os.root })

/-- `daemonize_unix`. -/
def Os.daemonizeUnix (os : Os Dir Place Fs) (logfile : Option PathBuf)
    (p : Process Dir Place Fs) : Except AutosshError Unit × Process Dir Place Fs :=
  match logfile with
  | none => os.daemonize p
  | some path =>
    match os.openLog path p with
    | (some source, p) => (.error (.logfileWrite path source), p)
    | (none, p) =>
      match os.openLog path p with
      | (some source, p) => (.error (.logfileWrite path source), p)
      | (none, p) => os.daemonize p

end Os

end RustyAutossh
