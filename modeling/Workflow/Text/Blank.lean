/-! Blank characters are those of the Unicode property White_Space. Trimming takes them off the
ends of a text, and a text of nothing else is blank. -/

namespace Workflow.Text

def isBlank (c : Char) : Bool :=
  let code := c.toNat
  (9 ≤ code && code ≤ 13) || code == 0x20 || code == 0x85 || code == 0xA0 || code == 0x1680 ||
    (0x2000 ≤ code && code ≤ 0x200A) || code == 0x2028 || code == 0x2029 || code == 0x202F ||
    code == 0x205F || code == 0x3000

def trimStart (chars : List Char) : List Char :=
  chars.dropWhile isBlank

def trimEnd (chars : List Char) : List Char :=
  (trimStart chars.reverse).reverse

def trim (chars : List Char) : List Char :=
  trimEnd (trimStart chars)

/-- A text with no character but blanks, the empty text among them. -/
def Blank (text : String) : Prop :=
  ∀ c ∈ text.toList, isBlank c = true

instance (text : String) : Decidable (Blank text) :=
  List.decidableBAll (isBlank · = true) text.toList

end Workflow.Text
