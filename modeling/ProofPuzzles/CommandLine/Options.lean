import ProofPuzzles.Text.DecimalDigit
import ProofPuzzles.Text.Quoted

/-!
# Options of a command

A command has options, some of which take a value, and perhaps one word. An option is named by
a word with two hyphens, which can be shortened as long as only one option is meant, or by a
letter with one hyphen. Its value stands behind an equals sign, directly behind the letter, or
in the next argument; two hyphens in the same argument stand for no value. Arguments for which
there is no use are collected. The arguments are taken in order, and the first fault ends the
reading.
-/

namespace ProofPuzzles.CommandLine

/-- Why the reading of arguments ends early. -/
inductive Stop where
  /-- The arguments are wrong, for the given reason. -/
  | usage (message : String)
  /-- Help was asked for. -/
  | help
  deriving Repr, DecidableEq

def argumentFault (names : List String) (complaint : String) : Stop :=
  .usage ("argument " ++ "/".intercalate names ++ ": " ++ complaint)

/-- An option, with what its value, if there is one, does to the settings of the command. -/
structure OptionSpec (α : Type) where
  names : List String
  takesValue : Bool
  apply : Option String → α → Except Stop α

/-- The options of a command, and what its word does to the settings if it has one. -/
structure CommandSpec (α : Type) where
  options : List (OptionSpec α)
  word? : Option (String → α → Except Stop α)

/-- An argument, seen by itself. -/
inductive Token (α : Type) where
  | word (s : String)
  /-- Two hyphens: only words follow. -/
  | separator
  /-- An option by the name used, with what stands behind the name in the same argument. -/
  | option (spec : OptionSpec α) (name : String) (attached? : Option String)
  | unknown (s : String)

section

variable {α : Type}

def findOption? (options : List (OptionSpec α)) (name : String) : Option (OptionSpec α) :=
  options.find? (·.names.contains name)

/-- The characters without a line feed at the end. -/
def dropFinalFeed (cs : List Char) : List Char :=
  if cs.getLast? = some '\n' then cs.dropLast else cs

/-- Whether the argument is a negative number. A line feed can stand at its end. -/
def isNegativeNumber (cs : List Char) : Bool :=
  let isDigit := fun c => (Text.decimalDigit? c).isSome
  match dropFinalFeed cs with
  | '-' :: cs =>
    let (whole, rest) := cs.span isDigit
    match rest with
    | [] => !whole.isEmpty
    | '.' :: fraction => !fraction.isEmpty && fraction.all isDigit
    | _ => false
  | _ => false

/-- The name before the first equals sign, and the value after it. -/
def splitValue (cs : List Char) : List Char × Option (List Char) :=
  let (name, rest) := cs.span (· ≠ '=')
  match rest with
  | [] => (name, none)
  | _ :: value => (name, some value)

/-- The options that a shortened name or a letter with a value can mean. -/
def meanings (options : List (OptionSpec α)) (cs : List Char) :
    List (OptionSpec α × String × Option String) :=
  let named := options.flatMap fun spec => spec.names.map (spec, ·)
  if ['-', '-'].isPrefixOf cs then
    let (name, value?) := splitValue cs
    (named.filter fun n => name.isPrefixOf n.2.toList).map fun (spec, n) =>
      (spec, n, value?.map String.ofList)
  else
    named.filterMap fun (spec, n) =>
      if n.toList = cs.take 2 then some (spec, n, some (String.ofList (cs.drop 2)))
      else if cs.isPrefixOf n.toList then some (spec, n, none)
      else none

/-- What an argument is by itself. Negative numbers and arguments with spaces are words unless they
    name an option. -/
def classify (options : List (OptionSpec α)) (arg : String) : Except Stop (Token α) :=
  match arg.toList with
  | '-' :: c :: cs =>
    match findOption? options arg with
    | some spec => .ok (.option spec arg none)
    | none =>
      let all := '-' :: c :: cs
      let (name, value?) := splitValue all
      match findOption? options (String.ofList name), value? with
      | some spec, some value =>
        .ok (.option spec (String.ofList name) (some (String.ofList value)))
      | _, _ =>
        match meanings options all with
        | [(spec, name, attached?)] => .ok (.option spec name attached?)
        | [] =>
          if isNegativeNumber all || all.contains ' ' then .ok (.word arg) else .ok (.unknown arg)
        | several =>
          .error (.usage ("ambiguous option: " ++ arg ++ " could match "
            ++ ", ".intercalate (several.map (·.2.1))))
  | _ => .ok (.word arg)

/-- What the arguments are. Behind two hyphens all of them are words. -/
def classifyAll (options : List (OptionSpec α)) : List String → Except Stop (List (Token α))
  | [] => .ok []
  | arg :: args =>
    if arg = "--" then .ok (.separator :: args.map .word)
    else match classify options arg with
      | .error stop => .error stop
      | .ok token =>
        match classifyAll options args with
        | .error stop => .error stop
        | .ok tokens => .ok (token :: tokens)

/-- What letters written together behind one hyphen mean. -/
structure Letters (α : Type) where
  /-- The options in order, with their values. -/
  options : List (OptionSpec α × Option String)
  /-- An option after those whose value is in the next argument. -/
  open? : Option (OptionSpec α) := none

def attachedValue (cs : List Char) : Option String :=
  if cs = ['-', '-'] then none else some (String.ofList cs)

/-- The complaint that there is no use for what is attached to an option. -/
def ignored (spec : OptionSpec α) (cs : List Char) : Stop :=
  argumentFault spec.names ("ignored explicit argument " ++ Text.quoted (String.ofList cs))

/-- Reads what is attached to an option: its value, or further letters for options. -/
def together (options : List (OptionSpec α)) (spec : OptionSpec α) (name : String) :
    List Char → Except Stop (Letters α)
  | [] =>
    if spec.takesValue then .ok { options := [(spec, some "")] } else .error (ignored spec [])
  | c :: cs =>
    if spec.takesValue then .ok { options := [(spec, attachedValue (c :: cs))] }
    else if ['-', '-'].isPrefixOf name.toList then .error (ignored spec (c :: cs))
    else
      let next := String.ofList ['-', c]
      match findOption? options next with
      | none => .error (ignored spec (c :: cs))
      | some following =>
        let rest : Except Stop (Letters α) := match cs with
          | [] =>
            if following.takesValue then .ok { options := [], open? := some following }
            else .ok { options := [(following, none)] }
          | d :: ds => together options following next (d :: ds)
        rest.map fun letters => { letters with options := (spec, none) :: letters.options }

/-- Applies options with their values in order. -/
def applyAll : List (OptionSpec α × Option String) → α → Except Stop α
  | [], settings => .ok settings
  | (spec, value?) :: specs, settings =>
    match spec.apply value? settings with
    | .error stop => .error stop
    | .ok settings => applyAll specs settings

/-- Applies the arguments in order. The word is applied unless it was applied before; the arguments
    that have no use come with the result. -/
def applyTokens (command : CommandSpec α) (word? : Option (String → α → Except Stop α)) :
    List (Token α) → α → Except Stop (α × List String)
  | [], settings => .ok (settings, [])
  | .word s :: tokens, settings =>
    match word? with
    | some apply =>
      match apply s settings with
      | .error stop => .error stop
      | .ok settings =>
        match tokens with
        | .separator :: tokens => applyTokens command none tokens settings
        | tokens => applyTokens command none tokens settings
    | none => (applyTokens command none tokens settings).map fun (a, extras) => (a, s :: extras)
  | .separator :: tokens, settings =>
    if word?.isSome && !tokens.isEmpty then applyTokens command word? tokens settings
    else (applyTokens command word? tokens settings).map fun (a, extras) => (a, "--" :: extras)
  | .unknown s :: tokens, settings =>
    (applyTokens command word? tokens settings).map fun (a, extras) => (a, s :: extras)
  | .option spec name (some attached) :: tokens, settings =>
    match together command.options spec name attached.toList with
    | .error stop => .error stop
    | .ok ⟨options, none⟩ =>
      match applyAll options settings with
      | .error stop => .error stop
      | .ok settings => applyTokens command word? tokens settings
    | .ok ⟨options, some last⟩ =>
      match tokens with
      | .word value :: tokens =>
        match applyAll (options ++ [(last, some value)]) settings with
        | .error stop => .error stop
        | .ok settings => applyTokens command word? tokens settings
      | _ => .error (argumentFault last.names "expected one argument")
  | .option spec _ none :: tokens, settings =>
    if spec.takesValue then
      match tokens with
      | .word value :: tokens =>
        match spec.apply (some value) settings with
        | .error stop => .error stop
        | .ok settings => applyTokens command word? tokens settings
      | _ => .error (argumentFault spec.names "expected one argument")
    else match spec.apply none settings with
      | .error stop => .error stop
      | .ok settings => applyTokens command word? tokens settings

/-- Reads the arguments of a command. -/
def CommandSpec.read (command : CommandSpec α) (args : List String) (settings : α) :
    Except Stop (α × List String) :=
  match classifyAll command.options args with
  | .error stop => .error stop
  | .ok tokens => applyTokens command command.word? tokens settings

end

end ProofPuzzles.CommandLine
