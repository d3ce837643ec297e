import ModelSchema.Api.Calendar
import ModelSchema.Text.Blank

namespace ModelSchema.Api

/-- A moment, in seconds since the beginning of 1970 and nanoseconds within the second. A leap
second belongs to the second before it, whose nanoseconds then reach to two billions. -/
structure Moment where
  seconds : Int
  nanoseconds : Nat
  deriving DecidableEq, Inhabited, Repr

namespace Moment

def secondsOfDay : Nat := 86400

def billion : Nat := 1000000000

def text (m : Moment) : String :=
  let days := m.seconds.fdiv secondsOfDay
  let ofDay := (m.seconds - days * secondsOfDay).toNat
  let second := ofDay % 60 + if billion ≤ m.nanoseconds then 1 else 0
  String.ofList <|
    (Date.ofDays days).text ++ 'T' :: Date.padded 2 (ofDay / 3600) ++
    ':' :: Date.padded 2 (ofDay / 60 % 60) ++ ':' :: Date.padded 2 second ++ ['Z']

inductive Problem where
  | tooShort
  | tooLong
  | invalid
  | outOfRange
  | impossible
  deriving DecidableEq, Repr

def Problem.message : Problem → String
  | .tooShort => "premature end of input"
  | .tooLong => "trailing input"
  | .invalid => "input contains invalid characters"
  | .outOfRange => "input is out of range"
  | .impossible => "no possible date and time matching input"

def skipBlank (text : List Char) : List Char :=
  text.dropWhile Text.isBlank

def expect (allowed : List Char) : List Char → Except Problem (List Char)
  | [] => .error .tooShort
  | c :: rest => if c ∈ allowed then .ok rest else .error .invalid

def mark (c : Char) (text : List Char) : Except Problem (List Char) :=
  expect [c] (skipBlank text)

def digits (width : Nat) (text : List Char) : Except Problem (List Char × List Char) :=
  match (text.take width).takeWhile Char.isDigit with
  | [] => .error (if text.isEmpty then .tooShort else .invalid)
  | ds => .ok (ds, text.drop ds.length)

def valueOf (digits : List Char) : Nat :=
  digits.foldl (fun n c => 10 * n + (c.toNat - 48)) 0

def field (least most : Nat) (text : List Char) : Except Problem (Nat × List Char) := do
  let (ds, rest) ← digits 2 (skipBlank text)
  if valueOf ds < least ∨ most < valueOf ds then throw .outOfRange
  return (valueOf ds, rest)

def year (text : List Char) : Except Problem (Int × List Char) :=
  let signed (sign : Int) (rest : List Char) : Except Problem (Int × List Char) := do
    let (ds, rest) ← digits rest.length rest
    let year := sign * valueOf ds
    if year < Int32.minValue.toInt ∨ Int32.maxValue.toInt < year then throw .outOfRange
    return (year, rest)
  match skipBlank text with
  | '-' :: rest => signed (-1) rest
  | '+' :: rest => signed 1 rest
  | rest => (digits 4 rest).map fun (ds, rest) => (Int.ofNat (valueOf ds), rest)

/-- The digits after a point, as nanoseconds; what is finer is dropped. -/
def fraction (text : List Char) : Except Problem (Nat × List Char) :=
  match text with
  | '.' :: rest =>
    (digits rest.length rest).map fun (ds, rest) =>
      (valueOf ((ds ++ List.replicate 9 '0').take 9), rest)
  | rest => .ok (0, rest)

def twoDigits (text : List Char) : Except Problem (Nat × List Char) :=
  match text with
  | a :: b :: rest =>
    if a.isDigit && b.isDigit then .ok (valueOf [a, b], rest) else .error .invalid
  | [a] => .error (if a.utf8Size < 2 then .tooShort else .invalid)
  | [] => .error .tooShort

/-- Hours and minutes, in seconds. Between them any colons and blanks may stand. -/
def hoursAndMinutes (text : List Char) : Except Problem (Nat × List Char) := do
  let (hours, rest) ← twoDigits text
  let (minutes, rest) ← twoDigits (rest.dropWhile fun c => c = ':' || Text.isBlank c)
  if 59 < minutes then throw .outOfRange
  return (hours * 3600 + minutes * 60, rest)

/-- The offset in seconds. It has a sign, for which the minus sign proper may stand as well, or is
told by a letter or a name to be none. -/
def offset (text : List Char) : Except Problem (Int × List Char) :=
  if (text.take 3).map Char.toUpper = ['U', 'T', 'C'] then .ok (0, text.drop 3)
  else
    match text with
    | [] => .error .tooShort
    | c :: rest =>
      if c = 'Z' ∨ c = 'z' then .ok (0, rest)
      else if c = '+' then (hoursAndMinutes rest).map fun (n, rest) => (Int.ofNat n, rest)
      else if c = '-' ∨ c = '−' then (hoursAndMinutes rest).map fun (n, rest) => (-Int.ofNat n, rest)
      else .error .invalid

/-- The moment at which clocks with such an offset show the date and time. The offset is shorter
than a day. -/
def ofClock? (date : Date) (hour minute second nanoseconds : Nat) (offset : Int) :
    Except Problem Moment :=
  if ¬date.isValid ∨ secondsOfDay ≤ offset.natAbs then .error .outOfRange
  else
    let isLeap := second = 60
    let ofDay : Int := hour * 3600 + minute * 60 + if isLeap then 59 else second
    let seconds := date.toDays * secondsOfDay + ofDay - offset
    let days := seconds.fdiv secondsOfDay
    if days < Date.firstDay ∨ Date.lastDay < days then .error .impossible
    else .ok ⟨seconds, nanoseconds + if isLeap then billion else 0⟩

def ofText? (s : String) : Except Problem Moment := do
  let (year, rest) ← year s.toList
  let (month, rest) ← field 1 12 (← mark '-' rest)
  let (day, rest) ← field 1 31 (← mark '-' rest)
  let (hour, rest) ← field 0 23 (← expect ['T', 't', ' '] rest)
  let (minute, rest) ← field 0 59 (← mark ':' rest)
  let (second, rest) ← field 0 60 (← mark ':' rest)
  let (nanoseconds, rest) ← fraction rest
  let (offset, rest) ← offset (skipBlank rest)
  unless (skipBlank rest).isEmpty do throw .tooLong
  ofClock? ⟨year, month, day⟩ hour minute second nanoseconds offset

end Moment

end ModelSchema.Api
