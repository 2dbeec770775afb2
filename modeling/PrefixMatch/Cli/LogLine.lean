import PrefixMatch.Config.Basic
import PrefixMatch.Json.Written

/-!
# Cli — Log line

An event as a line of the log: a JSON object, or the level, the target, the message and the fields in
turn.
-/

namespace PrefixMatch.Cli.LogLine

/-- The name of a level as the log shows it. -/
def levelName (l : Level) : String :=
  String.ofList (l.name.toList.map Char.toUpper)

/-- The value of a field as JSON. -/
def jsonValue : FieldValue → String
  | .text s => Json.writeText s
  | .number n => toString n
  | .flag b => if b then "true" else "false"

/-- The value of a field as text. -/
def plainValue : FieldValue → String
  | .text s => s
  | .number n => toString n
  | .flag b => if b then "true" else "false"

/-- A JSON object of members that are written already. -/
def jsonObject (members : List (String × String)) : String :=
  "\x7b" ++ ",".intercalate (members.map fun (k, v) => Json.writeText k ++ ":" ++ v) ++ "\x7d"

/-- The event as a JSON object. -/
def json (e : Event) : String :=
  let fields := ("message", FieldValue.text e.message) :: e.fields
  jsonObject
    [ ("level", Json.writeText (levelName e.level)),
      ("fields", jsonObject (fields.map fun (k, v) => (k, jsonValue v))),
      ("target", Json.writeText e.target) ]

/-- The event as plain text. -/
def plain (e : Event) : String :=
  levelName e.level ++ " " ++ e.target ++ ": " ++ e.message ++
    String.join (e.fields.map fun (k, v) => " " ++ k ++ "=" ++ plainValue v)

/-- The event as the settings ask for it. -/
def text (settings : LogSettings) (e : Event) : String :=
  (if settings.json then json e else plain e) ++ "\n"

end PrefixMatch.Cli.LogLine
