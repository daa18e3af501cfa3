/-!
# Days and moments

Days of the calendar and moments of a day, as configuration files can hold them: how they are
written, which of them exist, and how complaints show them. A moment can come with the offset of
its clock from universal time.
-/

namespace ProofPuzzles.Config.Calendar

/-- A day of the calendar. -/
structure Date where
  year : Nat
  month : Nat
  day : Nat
  deriving Repr, DecidableEq

/-- A moment of a day. The offset of the clock is counted in seconds. -/
structure Moment where
  date : Date
  hour : Nat
  minute : Nat
  second : Nat
  microsecond : Nat
  offset? : Option Int
  deriving Repr, DecidableEq

/-- Why a day or a moment does not exist. -/
inductive Fault where
  | year (year : Nat)
  | month
  | day
  | hour
  | minute
  | second
  /-- The clock is a whole day or more off, by this many seconds. -/
  | offset (seconds : Int)
  deriving Repr, DecidableEq

/-! ## How days and moments are shown -/

/-- A number with zeros in front up to the given width. -/
def padded (width n : Nat) : String :=
  let digits := Nat.toDigits 10 n
  String.ofList (List.replicate (width - digits.length) '0' ++ digits)

def secondsPerDay : Int := 86400

/-- A span of time as complaints show it: in days, perhaps negative, and seconds on top. -/
def shownSpan (seconds : Int) : String :=
  let days := seconds.fdiv secondsPerDay
  let rest := seconds.fmod secondsPerDay
  let parts := (if days = 0 then [] else ["days=" ++ toString days])
    ++ (if rest = 0 then [] else ["seconds=" ++ toString rest])
  "datetime.timedelta(" ++ (if parts.isEmpty then "0" else ", ".intercalate parts) ++ ")"

/-- A list of numbers between parentheses behind the given name, with a last part. -/
def shownCall (name : String) (numbers : List Nat) (more : List String) : String :=
  name ++ "(" ++ ", ".intercalate (numbers.map toString ++ more) ++ ")"

namespace Date

/-- The day as complaints show it. -/
def shown (d : Date) : String := shownCall "datetime.date" [d.year, d.month, d.day] []

/-- The day as a text. -/
def text (d : Date) : String := padded 4 d.year ++ "-" ++ padded 2 d.month ++ "-" ++ padded 2 d.day

end Date

namespace Moment

/-- The moment as complaints show it. Seconds and their fraction are left out if they are zero. -/
def shown (m : Moment) : String :=
  let fraction := if m.microsecond = 0 then [] else [m.microsecond]
  let seconds := if m.second = 0 ∧ m.microsecond = 0 then [] else [m.second]
  let zone := match m.offset? with
    | none => []
    | some 0 => ["tzinfo=datetime.timezone.utc"]
    | some seconds => ["tzinfo=datetime.timezone(" ++ shownSpan seconds ++ ")"]
  shownCall "datetime.datetime"
    ([m.date.year, m.date.month, m.date.day, m.hour, m.minute] ++ seconds ++ fraction) zone

/-- An offset as hours and minutes with a sign. -/
def offsetText (seconds : Int) : String :=
  let minutes := seconds.natAbs / 60
  (if seconds < 0 then "-" else "+") ++ padded 2 (minutes / 60) ++ ":" ++ padded 2 (minutes % 60)

def text (m : Moment) : String :=
  m.date.text ++ " " ++ padded 2 m.hour ++ ":" ++ padded 2 m.minute ++ ":" ++ padded 2 m.second
    ++ (if m.microsecond = 0 then "" else "." ++ padded 6 m.microsecond)
    ++ (match m.offset? with
      | none => ""
      | some seconds => offsetText seconds)

end Moment

/-- The wording of each fault. -/
def Fault.message : Fault → String
  | .year n => "year " ++ toString n ++ " is out of range"
  | .month => "month must be in 1..12"
  | .day => "day is out of range for month"
  | .hour => "hour must be in 0..23"
  | .minute => "minute must be in 0..59"
  | .second => "second must be in 0..59"
  | .offset seconds =>
    "offset must be a timedelta strictly between -timedelta(hours=24) and timedelta(hours=24), not "
      ++ shownSpan seconds ++ "."

/-! ## Which days and moments exist -/

/-- Whether the year has a leap day. -/
def isLeapYear (year : Nat) : Bool := year % 4 = 0 && (year % 100 ≠ 0 || year % 400 = 0)

def daysInMonth (year month : Nat) : Nat :=
  if month = 2 then (if isLeapYear year then 29 else 28)
  else if [4, 6, 9, 11].contains month then 30
  else 31

/-- The first fault of a day. -/
def Date.fault? (d : Date) : Option Fault :=
  if d.year = 0 then some (.year d.year)
  else if d.month = 0 ∨ 12 < d.month then some .month
  else if d.day = 0 ∨ daysInMonth d.year d.month < d.day then some .day
  else none

/-- The first fault of a moment: the clock is looked at first. -/
def Moment.fault? (m : Moment) : Option Fault :=
  let offsetFault? := m.offset?.bind fun seconds =>
    if seconds.natAbs < secondsPerDay.natAbs then none else some (Fault.offset seconds)
  offsetFault? <|> m.date.fault? <|>
    if 23 < m.hour then some .hour
    else if 59 < m.minute then some .minute
    else if 59 < m.second then some .second
    else none

/-- The number of the day, counted from the day before the first year. -/
def Date.dayNumber (d : Date) : Nat :=
  let years := d.year - 1
  let months := (List.range (d.month - 1)).foldl (fun n m => n + daysInMonth d.year (m + 1)) 0
  365 * years + years / 4 - years / 100 + years / 400 + months + d.day

/-- The moment in microseconds of the clock of universal time. -/
def Moment.instant (m : Moment) (offset : Int) : Int :=
  let minutes := (m.date.dayNumber * 24 + m.hour) * 60 + m.minute
  (minutes * 60 + m.second - offset) * 1000000 + m.microsecond

/-- Whether two moments are the same. Clocks whose offset is known are compared by universal
    time. -/
def Moment.same (m n : Moment) : Bool :=
  match m.offset?, n.offset? with
  | some a, some b => m.instant a = n.instant b
  | none, none => m = n
  | _, _ => false

/-! ## How days and moments are written -/

/-- A day, or a moment of a day. -/
inductive Stamp where
  | date (d : Date)
  | moment (m : Moment)
  deriving Repr, DecidableEq

/-- The first fault of a day or a moment. -/
def Stamp.fault? : Stamp → Option Fault
  | .date d => d.fault?
  | .moment m => m.fault?

def ofDigits (cs : List Char) : Nat := cs.foldl (fun n c => 10 * n + (c.toNat - 48)) 0

/-- Takes at least and at most the given numbers of digits from the front. -/
def takeNumber (least most : Nat) (cs : List Char) : Option (Nat × List Char) :=
  let digits := (cs.takeWhile Char.isDigit).take most
  if digits.length < least then none else some (ofDigits digits, cs.drop digits.length)

/-- Takes a character and then a number of one or two digits, or of just two. -/
def takePart (separator : Char) (least : Nat) : List Char → Option (Nat × List Char)
  | c :: cs => if c = separator then takeNumber least 2 cs else none
  | [] => none

/-- Whether the character is a space or a tab. -/
def isGap (c : Char) : Bool := c = ' ' || c = '\t'

/-- What stands between a day and its time: a letter, or a gap. -/
def dropDivider : List Char → Option (List Char)
  | [] => none
  | c :: cs =>
    if c = 'T' || c = 't' then some cs
    else if isGap c then some (cs.dropWhile isGap)
    else none

/-- The microseconds behind the point, if there is one, and what follows. Digits from the seventh
    on are of no effect. -/
def takeFraction : List Char → Nat × List Char
  | '.' :: cs =>
    let digits := cs.takeWhile Char.isDigit
    let six := digits.take 6
    (ofDigits (six ++ List.replicate (6 - six.length) '0'), cs.dropWhile Char.isDigit)
  | cs => (0, cs)

/-- The offset of the clock at the end of a moment: none, the letter for universal time, or hours
    and perhaps minutes with a sign. -/
def readOffset (cs : List Char) : Option (Option Int) :=
  if cs.isEmpty then some none
  else match cs.dropWhile isGap with
    | ['Z'] => some (some 0)
    | sign :: cs =>
      if sign = '+' ∨ sign = '-' then
        match takeNumber 1 2 cs with
        | none => none
        | some (hours, cs) =>
          let minutes? := if cs.isEmpty then some (0, []) else takePart ':' 2 cs
          match minutes? with
          | some (minutes, []) =>
            let seconds : Int := (hours * 60 + minutes) * 60
            some (some (if sign = '-' then -seconds else seconds))
          | _ => none
      else none
    | [] => none

/-- The time that follows a day. -/
def readTime (date : Date) (cs : List Char) : Option Moment := do
  let cs ← dropDivider cs
  let (hour, cs) ← takeNumber 1 2 cs
  let (minute, cs) ← takePart ':' 2 cs
  let (second, cs) ← takePart ':' 2 cs
  let (microsecond, cs) := takeFraction cs
  let offset? ← readOffset cs
  return { date, hour, minute, second, microsecond, offset? }

/-- The day or moment that characters stand for: a year of four digits, a month and a day, with
    hyphens between them, and perhaps a time. -/
def read? (cs : List Char) : Option Stamp := do
  let (year, cs) ← takeNumber 4 4 cs
  let (month, cs) ← takePart '-' 1 cs
  let (day, cs) ← takePart '-' 1 cs
  let date : Date := { year, month, day }
  if cs.isEmpty then return .date date
  else return .moment (← readTime date cs)

/-- Whether characters stand for a day or a moment without saying so: a day by itself has a month
    and a day of two digits. -/
def isStamp (cs : List Char) : Bool :=
  match read? cs with
  | some (.date _) => cs.length = 10
  | some (.moment _) => true
  | none => false

end ProofPuzzles.Config.Calendar
