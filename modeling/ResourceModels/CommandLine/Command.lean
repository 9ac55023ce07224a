import ResourceModels.CommandLine.Options
import ResourceModels.Pipeline

/-!
# The command

Options and settings choose the source, and the pipeline does the rest. A failure is reported by
what was being done when it came.
-/

namespace ResourceModels.CommandLine

/-- Why a run fails. -/
inductive Failure where
  | settings (path : Path) (error : SettingsError)
  | cluster (error : SettingsError)
  | generation (models : Path) (error : PipelineError)
  deriving DecidableEq, Repr

/-- What was being done. -/
def Failure.message : Failure → String
  | .settings path _ => "failed to load " ++ path.text
  | .cluster _ => "failed to configure cluster source"
  | .generation models _ => "failed to generate models into " ++ models.text

/-- How the program ends. -/
inductive Outcome where
  | stopped (stop : Stop)
  | failed (failure : Failure)
  | written (paths : List Path)
  deriving DecidableEq, Repr

def Outcome.exitCode : Outcome → Nat
  | .stopped stop => stop.exitCode
  | .failed _ => 1
  | .written _ => 0

def versionText : String := "kubemodel 0.3.0\n"

def helpText : String :=
  "Generate Pydantic models from Kubernetes OpenAPI v3 schemas\n\n" ++
  "Usage: kubemodel [OPTIONS]\n\n" ++
  "Options:\n" ++
  "  -l, --log-level <LOG_LEVEL>      error, warn, info, debug or trace [default: info]\n" ++
  "  -o, --output-path <OUTPUT_PATH>  Directory generated models are written to\n" ++
  "  -s, --specs-path <SPECS_PATH>    Directory merged schemas are cached in\n" ++
  "      --config <CONFIG>            Config file to read [default: .kubemodel.yaml]\n" ++
  "      --source <SOURCE>            Where to read schemas from: cluster or github\n" ++
  "      --server <SERVER>            API server URL for the cluster source\n" ++
  "      --k8s-version <K8S_VERSION>  Release tag or branch for the github source\n" ++
  "  -h, --help                       Print help\n" ++
  "  -V, --version                    Print version\n"

/-- What is printed on standard output. -/
def Outcome.output : Outcome → String
  | .stopped .help => helpText
  | .stopped .version => versionText
  | _ => ""

section

variable {m : Type → Type} [Monad m]

/-- The extractor for the source in the settings. Only a cluster needs a token. -/
def extractor (settings : Settings) (client : Http.Client m) (fs : FileSystem) :
    Except Failure (Extractor m) :=
  match settings.source.kind with
  | .cluster => do
    let token ← (settings.source.cluster.bearerToken fs).mapError .cluster
    let cluster := Cluster.ofServer settings.source.cluster.server token
    .ok ⟨cluster.source client, some .byTitle⟩
  | .github => .ok ⟨settings.source.github.source client, none⟩

/-- Run the command on a file system. -/
def run (arguments : List String) (client : Http.Client m) (fs : FileSystem) :
    m (Outcome × FileSystem) :=
  match Options.parse arguments with
  | .error stop => pure (.stopped stop, fs)
  | .ok options =>
    match options.resolve fs with
    | .error error => pure (.failed (.settings options.config error), fs)
    | .ok settings =>
      match extractor settings client fs with
      | .error failure => pure (.failed failure, fs)
      | .ok extractor => do
        let models : Path := ⟨settings.outputPath⟩
        match ← Pipeline.generate { extractor } models ⟨settings.specsPath⟩ fs with
        | (.error error, fs) => pure (.failed (.generation models error), fs)
        | (.ok paths, fs) => pure (.written paths, fs)

end

end ResourceModels.CommandLine
