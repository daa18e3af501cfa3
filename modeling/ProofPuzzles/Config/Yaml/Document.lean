import ProofPuzzles.Config.Yaml.Layout
import ProofPuzzles.Config.Yaml.Reading
import ProofPuzzles.Config.Yaml.Unfolding

/-!
# YAML documents

Reads the value of the only document of a text.
-/

namespace ProofPuzzles.Config.Yaml

/-- Whether the character may stand in a document. -/
def isAllowed (c : Char) : Bool :=
  let n := c.toNat
  n = 0x09 || n = 0x0a || n = 0x0d || (0x20 ≤ n && n ≤ 0x7e) || n = 0x85
    || (0xa0 ≤ n && n ≤ 0xd7ff) || (0xe000 ≤ n && n ≤ 0xfffd) || 0x10000 ≤ n

/-- The text with a line feed for each carriage return, alone or with the line feed behind it, and
    for each next-line control. -/
def unifyBreaks : List Char → List Char
  | [] => []
  | '\r' :: '\n' :: cs => '\n' :: unifyBreaks cs
  | c :: cs => (if c = '\r' || c.toNat = 0x85 then '\n' else c) :: unifyBreaks cs

/-- The text behind the mark that tells the order of its bytes, if it begins with that mark. -/
def dropByteOrderMark : List Char → List Char
  | [] => []
  | c :: cs => if c.toNat = 0xfeff then cs else c :: cs

/-- The value of the only document of a text: a mapping down to the parts of its entries, which are
    whole if the key says so. A text without a document stands for nothing. -/
def read (isWhole : Value → Bool) (text : String) : Except Fault Value := do
  let cs := text.toList
  if !cs.all isAllowed then .error .malformed
  else match ← Reading.document? (tokensOf (dropByteOrderMark (unifyBreaks cs))) with
    | none => return .null
    | some (nodes, root) => return (← nodes.objects root).unfolded isWhole root

end ProofPuzzles.Config.Yaml
