import Permit.Constraint.Basic
import Permit.Issue
import Permit.Number.Numeral
import Permit.Text.Case
import Permit.Violation

namespace Permit

structure Settings where
  appName : String := "field-policy"
  logLevel : String := "INFO"
  structuredLogs : Bool := false
  metricsEnabled : Bool := true
  cacheSize : Int := 256
  maxPathSegments : Int := 32
  /-- The depth below which a change is listed as a whole. -/
  maxDiffDepth : Int := 64
  /-- The rules of a permitted path that is declared without any. -/
  defaultRule : String := "*"
deriving Repr, DecidableEq, Inhabited

namespace Settings

/-- What a source gives for each name. -/
abbrev Source := String → Option Value

/-- A setting: its default, or what is read from the value given for it. -/
def field {α : Type} (source : Source) (name : String) (default : α)
    (read : String → Value → Reading α) : Reading α :=
  match source name with
  | none => .ok default
  | some v => read name v

/-- The texts that stand for a flag, in any case of ASCII letters. -/
def flagTexts : List (String × Bool) :=
  [("0", false), ("off", false), ("f", false), ("false", false), ("n", false), ("no", false),
   ("1", true), ("on", true), ("t", true), ("true", true), ("y", true), ("yes", true)]

def flagOfText (name : String) (s : String) : Reading Bool :=
  match flagTexts.find? (·.1 == String.ofList (s.toList.map Char.toLower)) with
  | some (_, b) => .ok b
  | none => Reading.complain name .unreadableFlag

/-- The bound of the whole numbers of one machine word. -/
def wholeBound : Nat := 9223372036854775808

/-- Reads a flag from a whole number; one beyond a machine word is of the wrong type. -/
def flagOfInt (name : String) (n : Int) : Reading Bool :=
  if n = 0 then .ok false
  else if n = 1 then .ok true
  else if -wholeBound ≤ n && n < wholeBound then Reading.complain name .unreadableFlag
  else Reading.complain name .notFlag

/-- The text that a value is, if it is one or bytes that encode one. -/
def encodedText? : Value → Option (Option String)
  | .text s => some (some s)
  | .bytes b => some (String.fromUTF8? ⟨b.toArray⟩)
  | _ => none

def wholeOf (x : Number.Binary64) : Except Complaint Int :=
  match x with
  | .nan _ => .error .notFinite
  | .infinite _ => .error .notFinite
  | x =>
    match x.toInt? with
    | none => .error .fraction
    | some n => if n.natAbs < wholeBound then .ok n else .error .tooManyDigits

def readFlag (name : String) (v : Value) : Reading Bool :=
  match encodedText? v with
  | some (some s) => flagOfText name s
  | some none => Reading.complain name .unreadableFlag
  | none =>
    match v with
    | .bool b => .ok b
    | .int n => flagOfInt name n
    | .float x =>
      match wholeOf x with
      | .ok n => flagOfInt name n
      | .error _ => Reading.complain name .notFlag
    | _ => Reading.complain name .notFlag

/-- Blank characters but for the separators among the control characters. -/
def isSpace (c : Char) : Bool := Text.isBlank c && !(28 ≤ c.toNat && c.toNat ≤ 31)

/-- Leaves out the spaces at both ends. -/
def trimSpaces (cs : List Char) : List Char :=
  ((cs.dropWhile isSpace).reverse.dropWhile isSpace).reverse

/-- Leaves out a point and the zeros after it, if nothing else follows. -/
def dropZeroFraction (cs : List Char) : List Char :=
  let whole := cs.takeWhile (· != '.')
  if (cs.drop (whole.length + 1)).all (· == '0') then whole else cs

/-- Digits with single underscores between them. -/
def groupedDigits? (cs : List Char) : Option (List Char) :=
  let groups := Text.splitChars '_' cs
  if groups.all fun g => !g.isEmpty && g.all Number.isAsciiDigit then some groups.flatten
  else none

/-- Reads an integer numeral: a sign or none, digits in groups, and a fraction of
zeros or none. A negative one may not begin with a zero. -/
def integerOfText (s : String) : Except Complaint Int :=
  let cs := trimSpaces s.toList
  let negative := cs.head? == some '-'
  let body := if negative || cs.head? == some '+' then cs.drop 1 else cs
  match groupedDigits? (dropZeroFraction body) with
  | none => .error .unreadableInteger
  | some digits =>
    if negative && 1 < digits.length && digits.head? == some '0' then .error .unreadableInteger
    else if Number.digitLimit < (digits.dropWhile (· == '0')).length then .error .tooManyDigits
    else
      let n : Int := Number.digitsValue digits
      .ok (if negative then -n else n)

def readInteger (v : Value) : Except Complaint Int :=
  match encodedText? v with
  | some (some s) => integerOfText s
  | some none => .error .unreadableInteger
  | none =>
    match v with
    | .bool b => .ok (if b then 1 else 0)
    | .int n => .ok n
    | .float x => wholeOf x
    | _ => .error .notInteger

/-- Reads an integer that is not below a bound. -/
def readCount (least : Int) (name : String) (v : Value) : Reading Int :=
  match readInteger v with
  | .error complaint => Reading.complain name complaint
  | .ok n => if n < least then Reading.complain name (.below least) else .ok n

def levelNames : List String := ["DEBUG", "INFO", "WARNING", "ERROR", "CRITICAL"]

/-- Reads the name of a level, in any case and between blanks. -/
def readLevel (name : String) (v : Value) : Reading String := do
  let given ← FieldMessage.readText name v
  let level := Text.toUpperAscii (Text.trim given)
  if levelNames.contains level then return level
  else
    Reading.complain name
      (.refused s!"log_level must be a standard logging level name, got '{given}'")

/-- Reads rules, which may not be blank. -/
def readRule (name : String) (v : Value) : Reading String := do
  let rule := Text.trim (← FieldMessage.readText name v)
  if rule = "" then Reading.complain name (.refused "default_value_rule cannot be empty")
  else return rule

def read (source : Source) : Reading Settings :=
  let start := (field source "app_name" "field-policy" FieldMessage.readText).map Settings.mk
  let start := Reading.ap start (field source "log_level" "INFO" readLevel)
  let start := Reading.ap start (field source "structured_logs" false readFlag)
  let start := Reading.ap start (field source "metrics_enabled" true readFlag)
  let start := Reading.ap start (field source "compiler_cache_size" 256 (readCount 0))
  let start := Reading.ap start (field source "compiler_max_path_segments" 32 (readCount 1))
  let start := Reading.ap start (field source "diff_max_depth" 64 (readCount 1))
  Reading.ap start (field source "default_value_rule" "*" readRule)

def toValue (s : Settings) : Value :=
  .record [("app_name", .text s.appName), ("log_level", .text s.logLevel),
    ("structured_logs", .bool s.structuredLogs), ("metrics_enabled", .bool s.metricsEnabled),
    ("compiler_cache_size", .int s.cacheSize),
    ("compiler_max_path_segments", .int s.maxPathSegments),
    ("diff_max_depth", .int s.maxDiffDepth), ("default_value_rule", .text s.defaultRule)]

/-- Without a source the settings are the defaults. -/
theorem read_nothing : read (fun _ => none) = .ok {} := rfl

end Settings
end Permit
