import WorkspaceOs.Js.Collections
import WorkspaceOs.Js.Utf8Chunks
import WorkspaceOs.Posix.CommandLine

/-!
# The Docker sandbox runner

Untrusted code runs in a container that `docker run` starts. What the container may do is said by
flags on the command line, in front of the image and the command; what it writes comes back in
chunks.
-/

namespace WorkspaceOs

open Js Posix

structure SandboxRunOptions where
  image : JsString
  command : List JsString
  env : Option StringRecord := none
  networkAccess : Option Bool := none
  timeoutMs : Option Float := none

structure SandboxRunResult where
  exitCode : ℤ
  stdout : JsString
  stderr : JsString
deriving DecidableEq

structure DockerSandboxRunnerOptions where
  runtime : Option JsString := none
  memory : Option JsString := none
  cpus : Option JsString := none
  dockerBin : Option JsString := none
  timeoutExitCode : Option ℤ := none

structure DockerSandboxRunner where
  runtime : Option JsString
  memory : JsString
  cpus : JsString
  dockerBin : JsString
  timeoutExitCode : ℤ

def TIMEOUT_EXIT_CODE : ℤ := 124

namespace DockerSandboxRunner

def new (options : DockerSandboxRunnerOptions) : DockerSandboxRunner where
  runtime := options.runtime
  memory := options.memory.getD "256m"
  cpus := options.cpus.getD "1"
  dockerBin := options.dockerBin.getD "docker"
  timeoutExitCode := options.timeoutExitCode.getD TIMEOUT_EXIT_CODE

variable (runner : DockerSandboxRunner) (options : SandboxRunOptions) (name : JsString)

/-- The network is denied unless the options ask for it. -/
def network : JsString := if options.networkAccess = some true then "bridge" else "none"

/-- The arguments that `docker` is spawned with. -/
def args : List JsString :=
  let fixed : List JsString :=
    ["run", "--rm", "--name", name, "--cap-drop=ALL", "--security-opt", "no-new-privileges",
      "--read-only", "--tmpfs", "/tmp:rw,size=64m", "--pids-limit", "256", "--memory",
      runner.memory, "--cpus", runner.cpus, "--network", network options]
  let runtime : List JsString :=
    match runner.runtime with
    | some runtime => if runtime ≠ [] then ["--runtime", runtime] else []
    | none => []
  let environment : List JsString := (options.env.getD []).flatMap fun (key, value) =>
    ["--env", key ++ "=" ++ value]
  fixed ++ runtime ++ environment ++ options.image :: options.command

end DockerSandboxRunner

/-! ### What `docker run` is told -/

/-- What `docker run` reads: flags, among them the environment, the image and its command. -/
structure DockerRun where
  flags : List (Posix.Flag JsString)
  environment : List (JsString × Option JsString)
  image : JsString
  command : List JsString
deriving DecidableEq

namespace DockerRun

/-- A flag begins with a dash. -/
def isFlag (argument : JsString) : Bool := argument.head? == some 0x2D

/-- The variable that an `--env` flag sets. The value is left out where it is to be inherited. -/
def environment? : Posix.Flag JsString → Option (JsString × Option JsString)
  | .valued name value => if name = "--env" then some (splitFirst 0x3D value) else none
  | .alone _ => none

def ofLine (line : CommandLine JsString) : DockerRun where
  flags := line.flags.filter fun flag => (environment? flag).isNone
  environment := line.flags.filterMap environment?
  image := line.operand
  command := line.rest

/-- `docker`, as far as it reads the arguments of `docker run`. -/
def parse (takesValue : JsString → Bool) : List JsString → Option DockerRun
  | [] => none
  | subcommand :: arguments =>
    if subcommand = "run" then ((Usage.mk isFlag takesValue).parse arguments).map ofLine else none

/-- Which of the flags that the runner uses take a value. -/
structure KnowsFlags (takesValue : JsString → Bool) : Prop where
  rm : takesValue "--rm" = false
  name : takesValue "--name" = true
  capDrop : takesValue "--cap-drop=ALL" = false
  securityOpt : takesValue "--security-opt" = true
  readOnly : takesValue "--read-only" = false
  tmpfs : takesValue "--tmpfs" = true
  pidsLimit : takesValue "--pids-limit" = true
  memory : takesValue "--memory" = true
  cpus : takesValue "--cpus" = true
  network : takesValue "--network" = true
  runtime : takesValue "--runtime" = true
  env : takesValue "--env" = true

end DockerRun

namespace DockerSandboxRunner

variable (runner : DockerSandboxRunner) (options : SandboxRunOptions) (name : JsString)

/-- The flags that confine the container. -/
def isolation : List (Posix.Flag JsString) :=
  [.alone "--rm", .valued "--name" name, .alone "--cap-drop=ALL",
    .valued "--security-opt" "no-new-privileges", .alone "--read-only",
    .valued "--tmpfs" "/tmp:rw,size=64m", .valued "--pids-limit" "256",
    .valued "--memory" runner.memory, .valued "--cpus" runner.cpus,
    .valued "--network" (network options)] ++
  match runner.runtime with
  | some runtime => if runtime ≠ [] then [.valued "--runtime" runtime] else []
  | none => []

/-- What the options ask for, with the flags that confine the container and no other. -/
def intended : DockerRun where
  flags := isolation runner options name
  environment := (options.env.getD []).map fun entry => (entry.1, some entry.2)
  image := options.image
  command := options.command

/-- The flag that sets a variable. -/
def environmentFlag (entry : JsString × JsString) : Posix.Flag JsString :=
  .valued "--env" (entry.1 ++ "=" ++ entry.2)

/-- The command line of the arguments after `run`. -/
def line : CommandLine JsString where
  flags := isolation runner options name ++ (options.env.getD []).map environmentFlag
  operand := options.image
  rest := options.command

lemma args_eq :
    args runner options name = JsString.ofString "run" :: (line runner options name).arguments := by
  have henvironment (env : StringRecord) : (env.map environmentFlag).flatMap Posix.Flag.arguments =
      env.flatMap fun (key, value) => [JsString.ofString "--env", key ++ "=" ++ value] := by
    rw [List.flatMap_map]
    rfl
  simp only [args, CommandLine.arguments, line, List.flatMap_append, henvironment, isolation]
  cases runner.runtime with
  | none => rfl
  | some runtime => by_cases hruntime : runtime = [] <;> simp [hruntime]

/-- Every flag that confines the container is known, and sets no variable. -/
lemma forall_mem_isolation {takesValue : JsString → Bool} (h : DockerRun.KnowsFlags takesValue) :
    ∀ flag ∈ isolation runner options name,
      (Usage.mk DockerRun.isFlag takesValue).Knows flag ∧ DockerRun.environment? flag = none := by
  rw [isolation, List.forall_mem_append]
  constructor
  · simp only [List.forall_mem_cons]
    exact ⟨⟨⟨rfl, h.rm⟩, rfl⟩, ⟨⟨rfl, h.name⟩, rfl⟩, ⟨⟨rfl, h.capDrop⟩, rfl⟩,
      ⟨⟨rfl, h.securityOpt⟩, rfl⟩, ⟨⟨rfl, h.readOnly⟩, rfl⟩, ⟨⟨rfl, h.tmpfs⟩, rfl⟩,
      ⟨⟨rfl, h.pidsLimit⟩, rfl⟩, ⟨⟨rfl, h.memory⟩, rfl⟩, ⟨⟨rfl, h.cpus⟩, rfl⟩,
      ⟨⟨rfl, h.network⟩, rfl⟩, List.forall_mem_nil _⟩
  · cases runner.runtime with
    | none => exact List.forall_mem_nil _
    | some runtime =>
      dsimp only
      split_ifs
      · exact List.forall_mem_singleton.mpr ⟨⟨rfl, h.runtime⟩, rfl⟩
      · exact List.forall_mem_nil _

/-- What `docker run` makes of the line, if it reads the line as it was meant. -/
lemma ofLine_line {takesValue : JsString → Bool} (h : DockerRun.KnowsFlags takesValue) :
    DockerRun.ofLine (line runner options name) =
      { intended runner options name with
        environment := (options.env.getD []).map fun entry =>
          splitFirst 0x3D (entry.1 ++ 0x3D :: entry.2) } := by
  have hisolation := forall_mem_isolation runner options name h
  have hsplit (entry : JsString × JsString) : DockerRun.environment? (environmentFlag entry) =
      some (splitFirst 0x3D (entry.1 ++ 0x3D :: entry.2)) := by
    rw [environmentFlag, List.append_assoc]
    rfl
  have hnone : (isolation runner options name).filterMap DockerRun.environment? = [] :=
    List.filterMap_eq_nil_iff.mpr fun flag hflag => (hisolation flag hflag).2
  have hkept : (isolation runner options name).filter
      (fun flag => (DockerRun.environment? flag).isNone) = isolation runner options name :=
    List.filter_eq_self.mpr fun flag hflag => by simp [(hisolation flag hflag).2]
  simp [DockerRun.ofLine, line, intended, List.filterMap_append, hnone, hkept, hsplit,
    List.filterMap_map, Function.comp_def, List.filter_map]

lemma reads_line {takesValue : JsString → Bool} (h : DockerRun.KnowsFlags takesValue)
    (himage : DockerRun.isFlag options.image = false) :
    (Usage.mk DockerRun.isFlag takesValue).Reads (line runner options name) := by
  refine ⟨List.forall_mem_append.mpr ⟨fun flag hflag => ?_, ?_⟩, himage⟩
  · exact (forall_mem_isolation runner options name h flag hflag).1
  · rw [List.forall_mem_map]
    exact fun _ _ => ⟨rfl, h.env⟩

/-- `docker run` is told what the options ask for, and nothing else, exactly when the image does not
look like a flag and no variable has `=` in its name. -/
theorem parse_args_iff {takesValue : JsString → Bool} (h : DockerRun.KnowsFlags takesValue) :
    DockerRun.parse takesValue (args runner options name) = some (intended runner options name) ↔
      DockerRun.isFlag options.image = false ∧
        ∀ entry ∈ options.env.getD [], (0x3D : UInt16) ∉ entry.1 := by
  rw [args_eq, DockerRun.parse, if_pos rfl, Option.map_eq_some_iff]
  constructor
  · rintro ⟨parsed, hparse, hintended⟩
    obtain ⟨hreads, -⟩ := Usage.parse_eq_some_iff.mp hparse
    have hoperand : parsed.operand = options.image := congrArg DockerRun.image hintended
    have himage : DockerRun.isFlag options.image = false := hoperand ▸ hreads.operand
    have hline := Usage.parse_arguments (reads_line runner options name h himage)
    obtain rfl : parsed = line runner options name := Option.some.inj (hparse.symm.trans hline)
    rw [ofLine_line runner options name h] at hintended
    have henvironment := congrArg DockerRun.environment hintended
    refine ⟨himage, fun entry hentry => ?_⟩
    exact splitFirst_assignment.mp (List.map_inj_left.mp henvironment entry hentry)
  · rintro ⟨himage, hnames⟩
    have henvironment : (options.env.getD []).map
        (fun entry => splitFirst 0x3D (entry.1 ++ 0x3D :: entry.2)) =
          (options.env.getD []).map fun entry => (entry.1, some entry.2) :=
      List.map_congr_left fun entry hentry => splitFirst_assignment.mpr (hnames entry hentry)
    refine ⟨_, Usage.parse_arguments (reads_line runner options name h himage), ?_⟩
    rw [ofLine_line runner options name h, henvironment]
    rfl

/-- `docker run`, when the flags of the runner are the only ones with values. -/
def takesValue (flag : JsString) : Bool :=
  ["--name", "--security-opt", "--tmpfs", "--pids-limit", "--memory", "--cpus", "--network",
    "--runtime", "--env"].any fun name => flag == JsString.ofString name

lemma knowsFlags_takesValue : DockerRun.KnowsFlags takesValue := by
  constructor <;> rfl

/-- A plain image with a variable, on gVisor. -/
theorem parse_args_runsc : DockerRun.parse takesValue
    (args (new { runtime := some "runsc" })
      { image := "node:24", command := ["node", "-e", "1"], env := some [("A", "b=c")] } "box") =
    some (intended (new { runtime := some "runsc" })
      { image := "node:24", command := ["node", "-e", "1"], env := some [("A", "b=c")] } "box") :=
  (parse_args_iff _ _ _ knowsFlags_takesValue).mpr ⟨by decide, by decide⟩

/-- An image that looks like a flag lifts the confinement, and the command names the image. -/
theorem parse_args_privileged :
    let options : SandboxRunOptions := { image := "--privileged", command := ["alpine", "sh"] }
    let run : DockerRun :=
      { flags := isolation (new {}) options "box" ++ [.alone "--privileged"], environment := [],
        image := "alpine", command := ["sh"] }
    DockerRun.parse takesValue (args (new {}) options "box") = some run ∧
      run ≠ intended (new {}) options "box" := by
  decide

end DockerSandboxRunner

/-! ### The run -/

/-- What `run` is told of the process, of its pipes and of the clock. -/
inductive SandboxEvent where
  | stdout (chunk : Bytes)
  | stderr (chunk : Bytes)
  | timeout
  | error (err : JsString)
  | close (code : Option ℤ)

namespace SandboxEvent

/-- The process could not be started, or has ended. -/
def Ends : SandboxEvent → Prop
  | .error _ => True
  | .close _ => True
  | _ => False

def stdout? : SandboxEvent → Option Bytes
  | .stdout chunk => some chunk
  | _ => none

def stderr? : SandboxEvent → Option Bytes
  | .stderr chunk => some chunk
  | _ => none

end SandboxEvent

structure SandboxRun where
  spawned : List (JsString × List JsString)
  timer : Bool
  killed : Bool := false
  timedOut : Bool := false
  stdout : JsString := []
  stderr : JsString := []
  result : Option SandboxRunResult := none

namespace SandboxRun

/-- The promise is settled once. -/
def resolve (run : SandboxRun) (result : SandboxRunResult) : SandboxRun :=
  { run with timer := false, result := run.result.or (some result) }

end SandboxRun

namespace DockerSandboxRunner

variable (runner : DockerSandboxRunner) (options : SandboxRunOptions) (uuid name : JsString)

def start : SandboxRun where
  spawned := [(runner.dockerBin, args runner options name)]
  timer := options.timeoutMs.isSome

/-- Each chunk is decoded when it comes. The clock counts while the timer is set. -/
def handle (run : SandboxRun) : SandboxEvent → SandboxRun
  | .stdout chunk => { run with stdout := run.stdout ++ fromUtf8 chunk }
  | .stderr chunk => { run with stderr := run.stderr ++ fromUtf8 chunk }
  | .timeout =>
    if run.timer then
      let remove : List JsString := ["rm", "-f", name]
      { run with
        timer := false, timedOut := true, killed := true,
        spawned := run.spawned ++ [(runner.dockerBin, remove)] }
    else run
  | .error err =>
    run.resolve { exitCode := -1, stdout := run.stdout, stderr := run.stderr ++ err }
  | .close code =>
    run.resolve
      { exitCode := if run.timedOut then runner.timeoutExitCode else code.getD (-1),
        stdout := run.stdout, stderr := run.stderr }

def run (events : List SandboxEvent) : SandboxRun :=
  let name : JsString := "wsos-sbx-" ++ uuid
  events.foldl (handle runner name) (start runner options name)

variable {runner options uuid name} {before after events : List SandboxEvent}

/-- Until the process has ended there is no result, and each pipe is read chunk by chunk. -/
lemma foldl_handle_of_not_ends (h : ∀ event ∈ events, ¬ event.Ends) (state : SandboxRun) :
    (events.foldl (handle runner name) state).result = state.result ∧
      (events.foldl (handle runner name) state).stdout =
        state.stdout ++ (events.filterMap SandboxEvent.stdout?).flatMap fromUtf8 ∧
      (events.foldl (handle runner name) state).stderr =
        state.stderr ++ (events.filterMap SandboxEvent.stderr?).flatMap fromUtf8 := by
  induction events generalizing state with
  | nil => simp
  | cons event events ih =>
    obtain ⟨hevent, hevents⟩ := List.forall_mem_cons.mp h
    obtain ⟨hresult, hstdout, hstderr⟩ := ih hevents (handle runner name state event)
    rw [List.foldl_cons, hresult, hstdout, hstderr]
    cases event with
    | stdout chunk =>
      simp [handle, List.filterMap_cons, SandboxEvent.stdout?, SandboxEvent.stderr?]
    | stderr chunk =>
      simp [handle, List.filterMap_cons, SandboxEvent.stdout?, SandboxEvent.stderr?]
    | timeout =>
      cases htimer : state.timer <;>
        simp [handle, htimer, List.filterMap_cons, SandboxEvent.stdout?, SandboxEvent.stderr?]
    | error err => exact absurd trivial hevent
    | close code => exact absurd trivial hevent

/-- What the promise was settled with stays. -/
lemma foldl_handle_of_result {state : SandboxRun} {result : SandboxRunResult}
    (h : state.result = some result) :
    (events.foldl (handle runner name) state).result = some result := by
  induction events generalizing state with
  | nil => exact h
  | cons event events ih =>
    refine ih ?_
    cases event with
    | stdout chunk => exact h
    | stderr chunk => exact h
    | timeout => cases htimer : state.timer <;> simp [handle, htimer, h]
    | error err => simp [handle, SandboxRun.resolve, h]
    | close code => simp [handle, SandboxRun.resolve, h]

/-- The output of a process that ends is what it wrote exactly when no chunk of it ends within a
code point that the bytes after it go on with. -/
theorem output_run_iff (code : Option ℤ) (h : ∀ event ∈ before, ¬ event.Ends) :
    ∃ result, (run runner options uuid (before ++ .close code :: after)).result = some result ∧
      (result.stdout = fromUtf8 (before.filterMap SandboxEvent.stdout?).flatten ↔
        NoneCut (before.filterMap SandboxEvent.stdout?)) ∧
      (result.stderr = fromUtf8 (before.filterMap SandboxEvent.stderr?).flatten ↔
        NoneCut (before.filterMap SandboxEvent.stderr?)) := by
  obtain ⟨hresult, hstdout, hstderr⟩ :=
    @foldl_handle_of_not_ends runner ("wsos-sbx-" ++ uuid) before h (start runner options _)
  rw [run, List.foldl_append, List.foldl_cons]
  refine ⟨_, foldl_handle_of_result (congrArg (Option.or · _) hresult), ?_, ?_⟩
  · rw [← flatMap_fromUtf8_iff, hstdout]
    exact Iff.rfl
  · rw [← flatMap_fromUtf8_iff, hstderr]
    exact Iff.rfl

/-- Both pipes, and a process that ends by itself. -/
theorem output_run_both_pipes :
    ∃ result, (run (new {}) { image := "alpine", command := ["cat"] } "1"
    ([.stdout [0xE2, 0x82], .stderr [0x41], .stdout [0xAC]] ++ .close (some 0) :: [])).result =
      some result ∧
      (result.stdout = fromUtf8 [0xE2, 0x82, 0xAC] ↔ NoneCut [[0xE2, 0x82], [0xAC]]) ∧
      (result.stderr = fromUtf8 [0x41] ↔ NoneCut [[0x41]]) :=
  output_run_iff (some 0) (by simp [SandboxEvent.Ends])

/-- The same bytes in one chunk and in two: a euro sign, and three replacement characters. -/
theorem output_run_euro :
    let stdout (events : List SandboxEvent) : Option JsString :=
      (run (new {}) { image := "alpine", command := ["cat"] } "1" events).result.map (·.stdout)
    stdout [.stdout [0xE2, 0x82, 0xAC], .close (some 0)] = some (fromUtf8 [0xE2, 0x82, 0xAC]) ∧
      stdout [.stdout [0xE2], .stdout [0x82, 0xAC], .close (some 0)] = some "���" ∧
      fromUtf8 [0xE2, 0x82, 0xAC] = "€" := by
  decide

end DockerSandboxRunner

end WorkspaceOs
