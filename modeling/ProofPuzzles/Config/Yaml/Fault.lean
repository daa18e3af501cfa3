import ProofPuzzles.Config.Calendar
import ProofPuzzles.Config.Number

/-!
# Faults of documents

Why a text has no value as a document. Most texts that have none are malformed; some are well
formed but name a value that does not exist.
-/

namespace ProofPuzzles.Config.Yaml

/-- Why a text has no value as a document. -/
inductive Fault where
  | malformed
  /-- An escape asks for a code beyond all characters. -/
  | codeOutside
  /-- An escape asks for a code that is too large even for a code. -/
  | codeTooLarge
  | number (e : NumberFault)
  | calendar (e : Calendar.Fault)
  /-- A word that is marked as a truth value is none. -/
  | noTruthValue
  /-- A word that is marked as a number is empty. -/
  | noDigits
  /-- A word that is marked as a day or a moment is none. -/
  | noStamp
  /-- A mapping is marked as a day or a moment. -/
  | stampOfMapping
  /-- A mapping stands for itself. -/
  | endless
  deriving Repr, DecidableEq

/-- The wording of each fault. -/
def Fault.message : Fault → String
  | .malformed => "malformed document"
  | .codeOutside => "chr() arg not in range(0x110000)"
  | .codeTooLarge => "code of a character too large"
  | .number e => e.message
  | .calendar e => e.message
  | .noTruthValue => "not a truth value"
  | .noDigits => "a number without digits"
  | .noStamp => "neither a day nor a moment"
  | .stampOfMapping => "a day or a moment that is not a word"
  | .endless => "a mapping that stands for itself"

end ProofPuzzles.Config.Yaml
