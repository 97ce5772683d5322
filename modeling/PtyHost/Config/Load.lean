import PtyHost.Config.FromToml
import PtyHost.Environment
import PtyHost.FileSystem

/-!
# Loading a configuration

Environment variables come before the configuration file, and this comes before the defaults. How
the text of the file is read as a table is for a reader of documents to say.
-/

namespace PtyHost.Config

/-- The file that is looked for when none is named. -/
def defaultFile : Path := .ofAscii "termhost.toml"

/-- The failure to read a file that is not text. -/
def notText : OsError := .custom "stream did not contain valid UTF-8"

section Reader

variable (read : Toml.Reader) (fs : FileSystem) (cwd : Place)

/-- The configuration in a file. -/
def ofFile (path : Path) : Except ConfigError Config :=
  match fs.read cwd path with
  | .error cause => .error (.read path cause)
  | .ok contents =>
    match Utf8.decode? contents with
    | none => .error (.read path notText)
    | some text =>
      match (read text).bind ofEntries? with
      | none => .error (.parse path)
      | some c => .ok c

/-- The configuration before overrides: that of the file named, which has to be there, or of the
default file, or the default. -/
def base (path : Option Path) : Except ConfigError Config :=
  match path with
  | some path => ofFile read fs cwd path
  | none => if fs.exists? cwd defaultFile then ofFile read fs cwd defaultFile else .ok {}

end Reader

/-- A configuration that has been checked, or why there is none. -/
def validated (c : Config) : Except ConfigError Config :=
  match c.validate with
  | none => .ok c
  | some e => .error e

/-- The configuration that a program starts with. -/
def load (read : Toml.Reader) (fs : FileSystem) (cwd : Place) (environment : Environment)
    (path : Option Path) : Except ConfigError Config := do
  validated ((← base read fs cwd path).override environment.text?)

/-- A configuration that has been checked is unchanged and can be used. -/
theorem validated_eq_ok_iff {c d : Config} : validated c = .ok d ↔ c = d ∧ d.validate = none := by
  unfold validated
  cases h : c.validate with
  | none =>
    simp only [Except.ok.injEq]
    constructor
    · rintro rfl
      exact ⟨rfl, h⟩
    · exact fun hd ↦ hd.1
  | some e =>
    simp only [reduceCtorEq, false_iff, not_and]
    rintro rfl
    simp [h]

end PtyHost.Config
