import Workflow.Definition.Record
import Workflow.Json.Format
import Workflow.Text.Blank
import Workflow.Yaml.Format

/-! Definitions as documents. A document is JSON or YAML by the name of its file or, where that
says nothing, by its first character. -/

namespace Workflow

open Document

inductive Markup where
  | json
  | yaml
deriving DecidableEq, Repr

namespace Markup

/-- A text whose first character that is no blank opens an object is JSON. -/
def ofText (text : String) : Markup :=
  if (Text.trimStart text.toList).head? = some '{' then json else yaml

/-- What follows the last point of a file's name, unless the name begins with it. -/
def extension? (path : String) : Option String :=
  let name := (path.toList.reverse.takeWhile (· ≠ '/')).reverse
  let after := (name.reverse.takeWhile (· ≠ '.')).reverse
  if name.length ≤ after.length + 1 then none else some (String.ofList after)

/-- The markup that the extension of a file names, in lower case only. -/
def ofPath? (path : String) : Option Markup :=
  match extension? path with
  | some "json" => some json
  | some "yaml" => some yaml
  | some "yml" => some yaml
  | _ => none

end Markup

namespace Definition

/-- Reads a definition; one without an identifier gets the fresh one. -/
def ofMarkup (markup : Markup) (fresh : Uuid) (text : String) : Reading Definition :=
  match markup with
  | .json => Json.readDocument (Definition.read fresh) text
  | .yaml => Yaml.readDocument (Definition.read fresh) text

def ofText (fresh : Uuid) (text : String) : Reading Definition :=
  ofMarkup (Markup.ofText text) fresh text

def ofFile (path : String) (fresh : Uuid) (content : ByteArray) : Reading Definition :=
  match String.fromUTF8? content with
  | some text => ofMarkup ((Markup.ofPath? path).getD (Markup.ofText text)) fresh text
  | none => .error .unreadable

end Definition

end Workflow
