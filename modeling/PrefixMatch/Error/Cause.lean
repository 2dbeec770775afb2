/-!
# Error — Cause

Everything that can go wrong around a trie, as data.  Lookups themselves never fail.  Each type has
one `message` function that holds the wording; `Failure` joins them and `Failure.chain` lists the
messages from the outermost cause to the innermost one.
-/

namespace PrefixMatch

/-- A failure of the file system. -/
inductive IoError where
  | notFound
  | exists
  | notADirectory
  | isADirectory
  | nameTooLong
  /-- A path holds a NUL character. -/
  | nulInName
  /-- The bytes of a text file are no UTF-8. -/
  | notUtf8
  /-- Any other failure, in the words of the system. -/
  | other (text : String)
  deriving DecidableEq, Repr

/-- Why a configuration could not be loaded or written. -/
inductive ConfigError where
  | fileNotFound (path : String)
  | unsupportedFormat (path : String)
  /-- The file or the environment could not be read as a configuration; `detail` is what the reader said. -/
  | unreadable (detail : String)
  | invalid (problem : String)
  | unwritable (detail : String)
  deriving DecidableEq, Repr

/-- What keeps a configuration from being loaded. -/
inductive LoadFailure where
  | refused (e : ConfigError)
  /-- The program crashes on the way. -/
  | crash
  deriving DecidableEq, Repr

/-- Why a vocabulary could not be loaded. -/
inductive VocabularyError where
  | unreadable (path : String) (cause : IoError)
  | unknownFormat (path : String)
  /-- The text is not valid in its format; `detail` is what the reader said. -/
  | malformed (path : String) (detail : String)
  | notAMapping (path : String)
  deriving DecidableEq, Repr

/-- Why a cipher refused its work. -/
inductive CipherError where
  | wrongKey
  | malformed (detail : String)
  | internal (detail : String)
  deriving DecidableEq, Repr

/-- Any failure outside the trie itself. -/
inductive Failure where
  | config (e : ConfigError)
  | vocabulary (e : VocabularyError)
  | cipher (e : CipherError)
  | io (e : IoError)
  | custom (text : String)
  deriving DecidableEq, Repr

namespace IoError

/-- The words of the system. -/
def message : IoError → String
  | .notFound => "No such file or directory (os error 2)"
  | .exists => "File exists (os error 17)"
  | .notADirectory => "Not a directory (os error 20)"
  | .isADirectory => "Is a directory (os error 21)"
  | .nameTooLong => "File name too long (os error 36)"
  | .nulInName => "file name contained an unexpected NUL byte"
  | .notUtf8 => "stream did not contain valid UTF-8"
  | .other text => text

end IoError

namespace ConfigError

/-- The wording of a configuration error. -/
def message : ConfigError → String
  | .fileNotFound path => "Configuration file not found: " ++ path
  | .unsupportedFormat path => "Unsupported configuration file format: " ++ path
  | .unreadable detail => "Failed to parse configuration: " ++ detail
  | .invalid problem => "Configuration validation error: " ++ problem
  | .unwritable detail => "Failed to serialize configuration: " ++ detail

end ConfigError

namespace VocabularyError

/-- The wording of a vocabulary error. -/
def message : VocabularyError → String
  | .unreadable path cause => "Failed to read vocabulary " ++ path ++ ": " ++ cause.message
  | .unknownFormat path => "Cannot determine vocabulary format for " ++ path
  | .malformed path detail => "Failed to parse vocabulary " ++ path ++ ": " ++ detail
  | .notAMapping path => "Vocabulary " ++ path ++ " must contain a top-level mapping"

/-- The messages of the causes below a vocabulary error. -/
def causes : VocabularyError → List String
  | .unreadable _ cause => [cause.message]
  | _ => []

end VocabularyError

namespace CipherError

/-- The wording of a cipher error. -/
def message : CipherError → String
  | .wrongKey => "Wrong key or password"
  | .malformed detail => "Malformed ciphertext: " ++ detail
  | .internal detail => "Cipher failure: " ++ detail

/-- Whether the key was at fault. -/
def isWrongKey : CipherError → Bool
  | .wrongKey => true
  | _ => false

end CipherError

namespace Failure

/-- The wording of a failure. -/
def message : Failure → String
  | .config e => "Configuration error: " ++ e.message
  | .vocabulary e => "Vocabulary error: " ++ e.message
  | .cipher e => "Cipher error: " ++ e.message
  | .io e => "IO error: " ++ e.message
  | .custom text => text

/-- The messages of a failure and of its causes, the outermost first. -/
def chain (e : Failure) : List String :=
  e.message ::
    match e with
    | .config e => [e.message]
    | .vocabulary e => e.message :: e.causes
    | .cipher e => [e.message]
    | .io e => [e.message]
    | .custom _ => []

end Failure

end PrefixMatch
