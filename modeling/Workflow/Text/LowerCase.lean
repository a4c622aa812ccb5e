import Workflow.Text.CaseRanges
import Workflow.Text.LowerRows

/-! Full lower-casing. Every character has its simple partner, with two exceptions: a capital I
with a dot becomes two characters, and a capital sigma that ends a word takes its final form. -/

namespace Workflow.Text

def inRanges (ranges : List (Nat × Nat)) (c : Char) : Bool :=
  ranges.any fun range => range.1 ≤ c.toNat && c.toNat ≤ range.2

def isCaseIgnorable (c : Char) : Bool :=
  inRanges caseIgnorableRanges c

def isCased (c : Char) : Bool :=
  inRanges casedRanges c

/-- The nearest character that is not passed over has case. -/
def meetsCased (chars : List Char) : Bool :=
  match chars.dropWhile isCaseIgnorable with
  | [] => false
  | c :: _ => isCased c

def lowerSimple (c : Char) : Char :=
  if c.toNat < 0x80 then
    c.toLower
  else
    match lowerRows.findSome? (·.find? c.toNat) with
    | some code => Char.ofNat code
    | none => c

/-- Lower-cases a text of which `before` was read already, last character first. -/
def lowerAfter (before : List Char) : List Char → List Char
  | [] => []
  | c :: rest =>
    let lowered :=
      if c = 'Σ' then
        if meetsCased before && !meetsCased rest then ['ς'] else ['σ']
      else if c = 'İ' then
        ['i', '\u0307']
      else
        [lowerSimple c]
    lowered ++ lowerAfter (c :: before) rest

def lower (text : String) : String :=
  String.ofList (lowerAfter [] text.toList)

end Workflow.Text
