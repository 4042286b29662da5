/-
Configurations from files.

The file is a TOML document.  Tables and values with unknown names are passed over.
-/
import LogLens.Codec.Reader
import LogLens.LogFile
import LogLens.Toml.Reader

namespace LogLens

/-- Why a configuration could not be loaded. -/
inductive ConfigError where
  | unreadable (cause : ReadError)
  | notUtf8
  /-- The file is no TOML document, or has a value of the wrong type. -/
  | malformed
  deriving DecidableEq

namespace ConfigError

/-- Whether the file was not even read as a text. -/
def isReadError : ConfigError → Bool
  | malformed => false
  | _ => true

def message (path : String) : ConfigError → String
  | unreadable cause => "Failed to read config file '" ++ path ++ "': " ++ cause.message
  | notUtf8 =>
    "Failed to read config file '" ++ path ++ "': stream did not contain valid UTF-8"
  | malformed => "Failed to parse config file '" ++ path ++ "'"

end ConfigError

namespace Config

def ofToml? (s : String) : Option Config :=
  (Toml.parse? s).bind (ofJson? true)

/-- The configuration that the bytes of a file describe. -/
def ofBytes (bytes : List UInt8) : Except ConfigError Config :=
  match Utf8.decode? bytes with
  | none => .error .notUtf8
  | some s =>
    match ofToml? s with
    | some c => .ok c
    | none => .error .malformed

/-- The configuration of a file; without a file everything has its default. -/
def load (read : String → Except ReadError (List UInt8)) : Option String → Except ConfigError Config
  | none => .ok {}
  | some path =>
    match read path with
    | .error cause => .error (.unreadable cause)
    | .ok bytes => ofBytes bytes

end Config
end LogLens
