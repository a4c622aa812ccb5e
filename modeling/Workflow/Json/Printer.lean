import Workflow.Json.Basic

/-! The compact text of a JSON value. In a string only the quote, the backslash and the control
characters are escaped, the latter by a letter where there is one and else by four digits. -/

namespace Workflow.Json

open Workflow.Text

def escapeLetter? (c : Char) : Option Char :=
  if c = '"' then some '"'
  else if c = '\\' then some '\\'
  else if c = '\x08' then some 'b'
  else if c = '\x0c' then some 'f'
  else if c = '\n' then some 'n'
  else if c = '\r' then some 'r'
  else if c = '\t' then some 't'
  else none

def escape (c : Char) : List Char :=
  match escapeLetter? c with
  | some letter => ['\\', letter]
  | none =>
    if c.toNat < 0x20 then
      ['\\', 'u', '0', '0', hexChar (c.toNat / 16), hexChar (c.toNat % 16)]
    else
      [c]

def quote (text : String) : List Char :=
  '"' :: text.toList.flatMap escape ++ ['"']

mutual
def chars : Json → List Char
  | .null => "null".toList
  | .bool true => "true".toList
  | .bool false => "false".toList
  | .number value => value.chars
  | .string value => quote value
  | .array items => '[' :: itemChars items
  | .object members => '{' :: memberChars members
termination_by structural value => value

def itemChars : List Json → List Char
  | [] => [']']
  | item :: rest => chars item ++ (if rest.isEmpty then [']'] else ',' :: itemChars rest)
termination_by structural items => items

def memberChars : List (String × Json) → List Char
  | [] => ['}']
  | (key, value) :: rest =>
    quote key ++ ':' :: chars value ++ (if rest.isEmpty then ['}'] else ',' :: memberChars rest)
termination_by structural members => members
end

def render (value : Json) : String :=
  String.ofList value.chars

end Workflow.Json
