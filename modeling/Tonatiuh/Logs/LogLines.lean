import Mathlib.Data.List.Infix
import Tonatiuh.Logs.Redaction

/-! The log lines that show a secret: `JSON.stringify` of an object, or an object that `format` of
`util` inspects.

Of the object only the field with the secret is looked into; the other entries, and the text around
the object, are any text. `format` inspects with its default options: a break length of 80, at most
three levels of objects, and an object on a single line as long as it fits. -/

namespace Tonatiuh.Logs

/-- A string of a length that the checks of the credentials accept. -/
structure Secret where
  value : Units
  ne_nil : value ≠ []
  bounded : value.length ≤ 512

/-! ## Strings -/

def isHighSurrogate (c : UInt16) : Bool := 0xD800 ≤ c && c ≤ 0xDBFF

def isLowSurrogate (c : UInt16) : Bool := 0xDC00 ≤ c && c ≤ 0xDFFF

/-- The text with every code unit escaped that is not in a surrogate pair. -/
def escapeWith (escape : UInt16 → Units) : Units → Units
  | [] => []
  | [c] => escape c
  | c :: d :: t =>
    if isHighSurrogate c ∧ isLowSurrogate d then c :: d :: escapeWith escape t
    else escape c ++ escapeWith escape (d :: t)

/-- The last digits of a number. -/
def hexDigits (digits : Units) : Nat → Nat → Units
  | 0, _ => []
  | k + 1, n => hexDigits digits k (n / 16) ++ [digits.getD (n % 16) 48]

def lowerDigits : Units := units "0123456789abcdef"

def upperDigits : Units := units "0123456789ABCDEF"

/-- The escapes that `JSON.stringify` and `inspect` share. -/
def escapeCommon (c : UInt16) : Option Units :=
  if c = 92 then some (units "\\\\")
  else if c = 8 then some (units "\\b")
  else if c = 9 then some (units "\\t")
  else if c = 10 then some (units "\\n")
  else if c = 12 then some (units "\\f")
  else if c = 13 then some (units "\\r")
  else if isHighSurrogate c ∨
    isLowSurrogate c then some (units "\\u" ++ hexDigits lowerDigits 4 c.toNat)
  else none

/-- The escape of `JSON.stringify`. -/
def escapeJson (c : UInt16) : Units :=
  if c = 34 then units "\\\""
  else (escapeCommon c).getD <|
    if c < 32 then units "\\u" ++ hexDigits lowerDigits 4 c.toNat else [c]

def quoteJson (value : Units) : Units := 34 :: escapeWith escapeJson value ++ [34]

/-- The escape of `inspect`: a single quote only between single quotes. -/
def escapeInspect (quote c : UInt16) : Units :=
  if c = 39 ∧ quote = 39 then units "\\'"
  else (escapeCommon c).getD <|
    if c < 32 ∨ (127 ≤ c ∧ c < 160) then units "\\x" ++ hexDigits upperDigits 2 c.toNat else [c]

/-- Single quotes, if need be double quotes or backticks. -/
def inspectQuote (value : Units) : UInt16 :=
  if 39 ∉ value then 39
  else if 34 ∉ value then 34
  else if 96 ∉ value ∧ ¬ units "$\x7b" <:+: value then 96
  else 39

/-- `strEscape`. -/
def strEscape (value : Units) : Units :=
  inspectQuote value :: escapeWith (escapeInspect (inspectQuote value)) value ++
    [inspectQuote value]

/-- `value.split(/(?<=\n)/)`. -/
def splitLines : Units → List Units
  | [] => []
  | c :: t =>
    if c = 10 then [c] :: splitLines t
    else
      match splitLines t with
      | [] => [[c]]
      | line :: lines => (c :: line) :: lines

def breakLength : Nat := 80

/-- `formatPrimitive`: a long string of several lines is broken into them. -/
def formatPrimitive (indentationLvl : Nat) (value : Units) : Units :=
  if 16 < value.length ∧ breakLength < value.length + indentationLvl + 4 then
    (units " +\n" ++ List.replicate (indentationLvl + 2) 32).intercalate
      ((splitLines value).map strEscape)
  else strEscape value

/-! ## Objects -/

/-- `isBelowBreakLength`. -/
def isBelowBreakLength (output : List Units) (start : Nat) : Bool :=
  let totalLength := output.length + start
  totalLength + output.length ≤ breakLength &&
    totalLength + (output.map List.length).sum ≤ breakLength

/-- What `inspect` writes around the entries of an object, and between them: a blank, or a new
line. -/
def gap (single : Bool) (indentationLvl : Nat) : Units :=
  if single then [32] else 10 :: List.replicate (indentationLvl + 2) 32

def lastGap (single : Bool) (indentationLvl : Nat) : Units :=
  if single then [32] else 10 :: List.replicate indentationLvl 32

/-- The entries are shown on a single line. -/
def isSingleLine (indentationLvl : Nat) (opening : Units) (output : List Units) : Bool :=
  isBelowBreakLength output (output.length + indentationLvl + opening.length + 10) &&
    output.all fun e => 10 ∉ e

/-- `reduceToSingleString`. -/
def reduceToSingleString (indentationLvl : Nat) (opening closing : Units)
    (output : List Units) : Units :=
  let single := isSingleLine indentationLvl opening output
  opening ++ gap single indentationLvl ++ (44 :: gap single indentationLvl).intercalate output ++
    lastGap single indentationLvl ++ closing

/-- An object, or another collection, with an entry that is looked into. -/
structure Frame where
  opening : Units
  before : List Units
  key : Units
  after : List Units
  closing : Units

namespace Frame

def output (f : Frame) (inner : Units) : List Units := f.before ++ (f.key ++ inner) :: f.after

def inspect (f : Frame) (indentationLvl : Nat) (inner : Units) : Units :=
  reduceToSingleString indentationLvl f.opening f.closing (f.output inner)

def isSingle (f : Frame) (indentationLvl : Nat) (inner : Units) : Bool :=
  isSingleLine indentationLvl f.opening (f.output inner)

end Frame

/-- Objects within each other, the innermost first. -/
def inspectFrames : List Frame → Units → Units
  | [], inner => inner
  | f :: outer, inner => inspectFrames outer (f.inspect (2 * outer.length) inner)

/-- Which of the objects are shown on a single line. -/
def layoutFrames : List Frame → Units → List Bool
  | [], _ => []
  | f :: outer, inner =>
    f.isSingle (2 * outer.length) inner :: layoutFrames outer (f.inspect (2 * outer.length) inner)

/-! ## Lines -/

/-- A line with the JSON of an object that has the field, or that contains such an object. -/
structure JsonLine where
  lead : Units := []
  before : List Units := []
  field : SecretField
  after : List Units := []
  trail : Units := []

namespace JsonLine

def value (_ : JsonLine) (v : Secret) : Units := quoteJson v.value

def text (l : JsonLine) (v : Secret) : Units :=
  l.lead ++ units "\x7b" ++
    (units ",").intercalate (l.before ++
      (quoteJson l.field.name ++ units ":" ++ l.value v) :: l.after) ++
    units "\x7d" ++ l.trail

end JsonLine

/-- A line with the inspection of an object that has the field. Objects deeper than the third level
are not shown. -/
structure FormatLine where
  lead : Units := []
  className : Units := []
  before : List Units := []
  field : SecretField
  after : List Units := []
  outer : List Frame := []
  depth : outer.length ≤ 2 := by decide
  trail : Units := []

namespace FormatLine

def object (l : FormatLine) : Frame where
  opening := l.className ++ units "\x7b"
  before := l.before
  key := l.field.name ++ units ": "
  after := l.after
  closing := units "\x7d"

def frames (l : FormatLine) : List Frame := l.object :: l.outer

def value (l : FormatLine) (v : Secret) : Units := formatPrimitive (2 * l.frames.length) v.value

def text (l : FormatLine) (v : Secret) : Units :=
  l.lead ++ inspectFrames l.frames (l.value v) ++ l.trail

end FormatLine

inductive LogLine where
  | stringify (l : JsonLine)
  | format (l : FormatLine)

namespace LogLine

/-- The value as it is shown, between its quotes. -/
def value : LogLine → Secret → Units
  | stringify l => l.value
  | format l => l.value

def text : LogLine → Secret → Units
  | stringify l => l.text
  | format l => l.text

/-- How the line is laid out around the value. -/
def layout : LogLine → Secret → List Bool
  | stringify _, _ => []
  | format l, v => layoutFrames l.frames (l.value v)

/-- The quotes around a value that has none of its own. -/
def quote : LogLine → UInt16
  | stringify _ => 34
  | format _ => 39

/-- Between its quotes the value has none of the characters at which the expression ends. -/
def Unbroken (line : LogLine) (v : Secret) : Prop :=
  ∃ inner, line.value v = line.quote :: inner ++ [line.quote] ∧ ∀ c ∈ inner, isSeparator c = false

end LogLine

end Tonatiuh.Logs
