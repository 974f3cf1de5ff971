import WordStm.Toml.Document

/-!
# Configurations as text

A configuration can be written as a TOML document.  Reading one can fail in two
ways: the text gives no configuration, or it gives one that describes no region.
-/

namespace WordStm

/-- Why a text gives no usable configuration. -/
inductive ConfigTextError where
  /-- The text is no document, or the document no configuration.  In the second
  case there may be a line that says what is wrong. -/
  | unreadable (line : Option String)
  | unusable (error : ConfigError)
  deriving DecidableEq

/-- The first line of a message. -/
def firstLine (message : String) : String :=
  let line := message.toList.takeWhile (· != '\n')
  let ended := line.length < message.toList.length
  String.ofList (if ended ∧ line.getLast? = some '\r' then line.dropLast else line)

/-- Read a configuration without checking it. -/
def RegionConfig.ofText? (source : String) : Except ConfigTextError RegionConfig :=
  match Toml.Table.ofText? source with
  | none => .error (.unreadable none)
  | some table =>
      match RegionConfig.ofData table.toData with
      | .ok config => .ok config
      | .error error => .error (.unreadable (error.message?.map firstLine))

/-- Read a configuration and check it. -/
def RegionConfig.ofText (source : String) :
    Except Fault (Except ConfigTextError RegionConfig) :=
  match RegionConfig.ofText? source with
  | .error error => .ok (.error error)
  | .ok config =>
      match config.check with
      | .error fault => .error fault
      | .ok (.error error) => .ok (.error (.unusable error))
      | .ok (.ok ()) => .ok (.ok config)

end WordStm
