import AssetLift.FileTree.Resolve
import AssetLift.Settings
import AssetLift.Yaml.Reader

/-!
# Loading a configuration

A configuration is made of defaults, which variables of the environment can change, and of the pairs
of a configuration file over them. What a path has given is kept, so that a path is read once.

* `Config.defaults` — the pairs that hold without a file.
* `Config.load` — the configuration of a path.
* `Config.Cache` — what has been loaded; the 128 paths last asked for are kept.
-/

namespace AssetLift

/-- The variables of the environment. -/
abbrev Environment := List (String × String)

namespace Environment

/-- The value of a variable. -/
def get? (e : Environment) (name : String) : Option String := e.lookup name

/-- Sets a variable. -/
def put (e : Environment) (name value : String) : Environment :=
  (name, value) :: e.filter (·.1 ≠ name)

end Environment

namespace Config

/-- The variable that a key's default is taken from. -/
def variableOf (key : String) : String := "I2F_" ++ key

/-- The default of a key: a variable, or else the one of the settings. -/
def defaultText (env : Environment) (key fallback : String) : Value × Value :=
  (.text key, .text ((env.get? (variableOf key)).getD fallback))

/-- The pairs that hold without a file. -/
def defaults (env : Environment) : Config :=
  let base : Settings := {}
  let skip := match env.get? (variableOf "SKIP_DIRS") with
    | some s => (Blank.items s).map Value.text
    | none => base.skipDirs
  [defaultText env "TEMPLATE_EXTENSION" base.templateExtension,
    defaultText env "STYLE_EXTENSION" base.styleExtension,
    defaultText env "CANDIDATE_SUFFIX" base.candidateSuffix,
    defaultText env "SOURCE_SUFFIX" base.sourceSuffix,
    defaultText env "DECORATOR_NAME" base.decoratorName,
    defaultText env "QUOTE" base.quote,
    (.text "SKIP_DIRS", .list skip)]

/-- Why a configuration cannot be loaded. -/
inductive LoadFault where
  | io (fault : IoFault)
  | bytes (fault : Utf8.BadBytes)
  | document (fault : Yaml.Fault)
  /-- The file holds no map. -/
  | notMap (path shape : String)
  deriving DecidableEq

/-- The wording of each fault. -/
def LoadFault.message : LoadFault → String
  | .io f => f.message
  | .bytes f => f.message
  | .document f => f.message
  | .notMap path shape => s!"❌ Config file {path} must contain a mapping, got {shape}"

/-- Whether the text of a path ends as only that of a directory does. -/
def namesDirectory (path : String) : Bool := path.endsWith "/" || path.endsWith "/."

/-- What a path leads to. A path that cannot be followed leads nowhere. -/
def target (t : FileTree) (path : String) : Option FileNode :=
  let p := Path.ofString path
  if path = "" || p.fault?.isSome then none
  else
    match t.resolve true p with
    | .ok (.present _ (.file content mode)) =>
      if namesDirectory path then none else some (.file content mode)
    | .ok (.present _ n) => some n
    | _ => none

/-- A text with every line break written as a line feed. -/
def unifyBreaks : List Char → List Char
  | [] => []
  | '\r' :: '\n' :: rest => '\n' :: unifyBreaks rest
  | c :: rest => (if c = '\r' then '\n' else c) :: unifyBreaks rest

/-- How many bytes of a configuration file are read at a time. -/
def blockSize : Nat := 8192

/-- The pairs of a configuration file. A file whose value does not count as given holds none. -/
def parse (read : Yaml.Reader) (path : String) (content : Bytes) : Except LoadFault Config := do
  let text ← (Utf8.decodeBlocks blockSize content).mapError .bytes
  let value ← (read (String.ofList (unifyBreaks text.toList))).mapError .document
  match value with
  | .map pairs => return pairs
  | v => if v.truthy then throw (.notMap path v.shape) else return []

/-- The configuration of a path: the pairs of the file over the defaults, or the defaults alone. -/
def load (read : Yaml.Reader) (env : Environment) (t : FileTree) (path : String) :
    Except LoadFault Config :=
  match target t path with
  | none => .ok (defaults env)
  | some (.file content _) => (·.overlay (defaults env)) <$> parse read path content
  | some _ => .error (.io (.errno .isDirectory path))

/-! ## Keeping what was loaded -/

/-- The configurations loaded, the one last asked for first. -/
abbrev Cache := List (String × Config)

/-- How many configurations are kept. -/
def cacheSize : Nat := 128

/-- The configuration of a path, loaded if it has not been. Faults are not kept. -/
def Cache.load (c : Cache) (read : Yaml.Reader) (env : Environment) (t : FileTree) (path : String) :
    Except LoadFault Config × Cache :=
  match c.lookup path with
  | some config => (.ok config, (path, config) :: c.filter (·.1 ≠ path))
  | none =>
    match Config.load read env t path with
    | .ok config => (.ok config, ((path, config) :: c).take cacheSize)
    | .error f => (.error f, c)

end Config

end AssetLift
