import Permit.Text.Basic

/-!
Files of settings: lines `NAME=value`. A line may begin with `export`, a comment
starts at a `#`, and a value may stand between quotes, in which it may go over
several lines and hold escapes. A line that is not well formed is skipped.

In every value, `${NAME}` stands for an earlier value or a variable of the
environment, and `${NAME:-text}` for `text` if there is neither.

* `EnvFile.read` gives the bindings of a file in order.
-/
namespace Permit.EnvFile

/-- A name and its value; a name without an equals sign has none. -/
structure Binding where
  name : String
  value : Option String
deriving Repr, DecidableEq, Inhabited

def isNewline (c : Char) : Bool := c = '\n' || c = '\r'

def isInlineBlank (c : Char) : Bool := Text.isBlank c && !isNewline c

/-- A text up to the quote that closes it, and the rest. A quote after a backslash
does not close it, unless no other quote does. -/
def untilQuote (quote : Char) : List Char → Option (List Char × List Char)
  | [] => none
  | '\\' :: c :: rest =>
    if c = quote then
      match untilQuote quote rest with
      | some (text, rest) => some ('\\' :: c :: text, rest)
      | none => some (['\\'], rest)
    else (untilQuote quote (c :: rest)).map fun (text, rest) => ('\\' :: text, rest)
  | c :: rest =>
    if c = quote then some ([], rest)
    else (untilQuote quote rest).map fun (text, rest) => (c :: text, rest)

/-- The character that an escape stands for between quotes of a kind. -/
def escaped? (quote : Char) (c : Char) : Option Char :=
  if c = '\\' || c = '\'' then some c
  else if quote = '\'' then none
  else
    match c with
    | '"' => some '"'
    | 'a' => some '\x07'
    | 'b' => some '\x08'
    | 'f' => some '\x0c'
    | 'n' => some '\n'
    | 'r' => some '\r'
    | 't' => some '\t'
    | 'v' => some '\x0b'
    | _ => none

/-- Replaces the escapes in a quoted text. -/
def unescape (quote : Char) : List Char → List Char
  | [] => []
  | '\\' :: c :: rest =>
    match escaped? quote c with
    | some e => e :: unescape quote rest
    | none => '\\' :: unescape quote (c :: rest)
  | c :: rest => c :: unescape quote rest

/-- Leaves out a comment, which begins with a `#` after a blank. -/
def dropComment (afterBlank : Bool) : List Char → List Char
  | [] => []
  | c :: rest =>
    if c = '#' && afterBlank then [] else c :: dropComment (Text.isBlank c) rest

def trimRight (cs : List Char) : List Char := (cs.reverse.dropWhile Text.isBlank).reverse

/-- A value and the rest; none if a quote is not closed. -/
def readValue : List Char → Option (List Char × List Char)
  | [] => some ([], [])
  | c :: rest =>
    if c = '\'' || c = '"' then
      (untilQuote c rest).map fun (text, rest) => (unescape c text, rest)
    else
      let line := (c :: rest).takeWhile fun c => !isNewline c
      some (trimRight (dropComment false line), (c :: rest).dropWhile fun c => !isNewline c)

/-- A name and the rest; none if there is no name. -/
def readName : List Char → Option (List Char × List Char)
  | [] => none
  | '\'' :: rest =>
    match rest.takeWhile (· != '\''), rest.dropWhile (· != '\'') with
    | c :: name, _ :: after => some (c :: name, after)
    | _, _ => none
  | cs =>
    let isPart (c : Char) : Bool := c != '=' && c != '#' && !Text.isBlank c
    match cs.takeWhile isPart with
    | [] => none
    | name => some (name, cs.dropWhile isPart)

/-- Leaves out the word `export` and the blanks after it. -/
def dropExport (cs : List Char) : List Char :=
  match cs with
  | 'e' :: 'x' :: 'p' :: 'o' :: 'r' :: 't' :: c :: rest =>
    if isInlineBlank c then rest.dropWhile isInlineBlank else cs
  | cs => cs

def nextLine (cs : List Char) : List Char := (cs.dropWhile fun c => !isNewline c).drop 1

/-- What follows a binding: nothing but blanks and a comment up to the end of the line. -/
def endsLine (cs : List Char) : Bool :=
  match cs.dropWhile isInlineBlank with
  | [] => true
  | c :: _ => isNewline c || c = '#'

/-- One binding and the rest; none for a comment or a line that is not well formed. -/
def readBinding (cs : List Char) : Option Binding × List Char :=
  match readName (dropExport cs) with
  | none => (none, nextLine cs)
  | some (name, rest) =>
    match rest.dropWhile isInlineBlank with
    | '=' :: after =>
      let after := after.dropWhile isInlineBlank
      match readValue after with
      | none => (none, nextLine after)
      | some (value, rest) =>
        (if endsLine rest then some ⟨String.ofList name, some (String.ofList value)⟩ else none,
          nextLine rest)
    | rest =>
      (if endsLine rest then some ⟨String.ofList name, none⟩ else none, nextLine rest)

/-- The bindings of a text; `fuel` bounds their number. -/
def readBindings : (fuel : Nat) → List Char → List Binding
  | 0, _ => []
  | fuel + 1, cs =>
    match cs.dropWhile Text.isBlank with
    | [] => []
    | cs =>
      let (binding, rest) := readBinding cs
      binding.toList ++ readBindings fuel rest

/-- A variable: its name, what stands for it if it has no value, and the rest. The
`${` in front of it has been read. -/
def readVariable (cs : List Char) : Option (List Char × List Char × List Char) :=
  let name := cs.takeWhile fun c => c != '\x7d' && c != ':'
  match cs.dropWhile fun c => c != '\x7d' && c != ':' with
  | '\x7d' :: rest => some (name, [], rest)
  | ':' :: '-' :: rest =>
    match rest.dropWhile (· != '\x7d') with
    | _ :: after => some (name, rest.takeWhile (· != '\x7d'), after)
    | [] => none
  | _ => none

/-- Replaces the variables in a value; `fuel` bounds its length. -/
def expand (find : String → Option String) : (fuel : Nat) → List Char → List Char
  | 0, cs => cs
  | _, [] => []
  | fuel + 1, c :: rest =>
    match c, rest with
    | '$', '\x7b' :: after =>
      match readVariable after with
      | some (name, other, rest) =>
        ((find (String.ofList name)).map String.toList).getD other ++ expand find fuel rest
      | none => c :: expand find fuel rest
    | _, _ => c :: expand find fuel rest

/-- Replaces the variables in the values of bindings, in order. -/
def resolve (environment : String → Option String) :
    (known : List Binding) → List Binding → List Binding
  | _, [] => []
  | known, b :: rest =>
    let find (name : String) : Option String :=
      match known.find? (·.name == name) with
      | some k => some (k.value.getD "")
      | none => environment name
    let value := b.value.map fun v => String.ofList (expand find v.length v.toList)
    ⟨b.name, value⟩ :: resolve environment (⟨b.name, value⟩ :: known) rest

/-- Line ends in the one form `\n`. -/
def unifyNewlines : List Char → List Char
  | [] => []
  | '\r' :: '\n' :: rest => '\n' :: unifyNewlines rest
  | c :: rest => (if c = '\r' then '\n' else c) :: unifyNewlines rest

def read (environment : String → Option String) (contents : String) : List Binding :=
  let cs := unifyNewlines contents.toList
  resolve environment [] (readBindings cs.length cs)

end Permit.EnvFile
