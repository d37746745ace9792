import Permit.Template.Layout

/-!
Message templates: text in which `{name}` stands for a field. A doubled brace
stands for one brace. A field may be followed by steps into its text (`[0]`), by a
conversion (`!r`) and by a layout (`:>8`); a layout may itself hold fields.

A template is read into its parts first. Reading stops at a fault, and the parts in
front of it are filled all the same, so the first thing that is wrong, from left to
right, is the one reported.

* `Template.parts` reads a template; `Template.fill` fills it.
-/
namespace Permit.Template

structure Field where
  /-- The name with the steps that follow it. -/
  name : List Char
  conversion : Option Char := none
  layout : List Char := []
deriving Repr, DecidableEq, Inhabited

inductive Part where
  | text (cs : List Char)
  | field (f : Field)
deriving Repr, DecidableEq, Inhabited

/-- A field name up to the mark that ends it, that mark and the rest. Within
brackets every character but the closing one belongs to the name. -/
def readName (inBrackets : Bool) :
    List Char → Except TemplateFault (List Char × Char × List Char)
  | [] => .error .unclosedField
  | c :: rest =>
    if inBrackets then keep c (readName (c != ']') rest)
    else if c = '\x7b' then .error .braceInName
    else if c = '\x7d' || c = ':' || c = '!' then .ok ([], c, rest)
    else keep c (readName (c = '[') rest)
where
  keep (c : Char) (read : Except TemplateFault (List Char × Char × List Char)) :
      Except TemplateFault (List Char × Char × List Char) :=
    read.map fun (name, mark, rest) => (c :: name, mark, rest)

/-- A layout up to the brace that ends the field; braces within it are counted. -/
def readLayout (depth : Nat) : List Char → Except TemplateFault (List Char × List Char)
  | [] => .error .unclosedLayout
  | c :: rest =>
    if c = '\x7d' && depth = 0 then .ok ([], rest)
    else
      let depth := if c = '\x7b' then depth + 1 else if c = '\x7d' then depth - 1 else depth
      (readLayout depth rest).map fun (layout, rest) => (c :: layout, rest)

/-- What follows the name of a field with a conversion. -/
def readConversion (name : List Char) : List Char → Except TemplateFault (Field × List Char)
  | [] => .error .missingConversion
  | [_] => .error .unclosedLayout
  | mark :: next :: rest =>
    if next = '\x7d' then .ok (⟨name, some mark, []⟩, rest)
    else if next != ':' then .error .textAfterConversion
    else (readLayout 0 rest).map fun (layout, rest) => (⟨name, some mark, layout⟩, rest)

/-- A field; its opening brace has been read. -/
def readField (cs : List Char) : Except TemplateFault (Field × List Char) := do
  let (name, mark, rest) ← readName false cs
  if mark = '!' then readConversion name rest
  else if mark = ':' then
    let (layout, rest) ← readLayout 0 rest
    return (⟨name, none, layout⟩, rest)
  else return (⟨name, none, []⟩, rest)

/-- The parts of a template up to its end or to the first fault; `fuel` bounds
their number, `text` is the text read since the last part, in reverse. -/
def readParts (fuel : Nat) (text : List Char) : List Char → List Part × Option TemplateFault
  | [] => ([.text text.reverse], none)
  | c :: rest =>
    match fuel with
    | 0 => ([], none)
    | fuel + 1 =>
      if c = '\x7b' || c = '\x7d' then
        match rest with
        | [] => ([], some (.loneBrace c))
        | next :: after =>
          if next = c then readParts fuel (c :: text) after
          else if c = '\x7d' then ([], some (.loneBrace c))
          else
            match readField rest with
            | .error fault => ([.text text.reverse], some fault)
            | .ok (f, rest) =>
              let (parts, fault) := readParts fuel [] rest
              (.text text.reverse :: .field f :: parts, fault)
      else readParts fuel (c :: text) rest

/-- The parts of a template up to its end or to the first fault. -/
def parts (template : List Char) : List Part × Option TemplateFault :=
  readParts template.length [] template

/-- A run of decimal digits as a number; none if there is anything else, or nothing. -/
def position? (cs : List Char) : Except TemplateFault (Option Nat) := do
  let (value, rest) ← readNumber 0 cs
  return if cs.isEmpty || !rest.isEmpty then none else some value

/-- Follows the steps after a field name into the text of the field. -/
def follow (text : List Char) (steps : List Char) : Except TemplateFault (List Char) :=
  match steps with
  | [] => .ok text
  | '.' :: rest =>
    let name := rest.takeWhile fun c => c != '.' && c != '['
    if name.isEmpty then .error .emptyStep else .error (.noAttribute (String.ofList name))
  | '[' :: rest =>
    let key := rest.takeWhile (· != ']')
    match _after : rest.dropWhile (· != ']') with
    | [] => .error .unclosedIndex
    | _ :: after => do
      let index ← position? key
      if key.isEmpty then throw .emptyStep
      match index with
      | none => throw .indexNotNumber
      | some i =>
        match text[i]? with
        | none => throw .indexOutOfRange
        | some c => follow [c] after
  | _ => .error .textAfterIndex
termination_by steps.length
decreasing_by
  have := (List.dropWhile_sublist (l := rest) (· != ']')).length_le
  rw [_after] at this
  simp only [List.length_cons] at this ⊢
  omega

def lookUp (fields : List (String × String)) (name : List Char) :
    Except TemplateFault (List Char) := do
  let first := name.takeWhile fun c => c != '.' && c != '['
  let steps := name.dropWhile fun c => c != '.' && c != '['
  if first.isEmpty then throw (.noPosition 0)
  if let some index ← position? first then throw (.noPosition index)
  match fields.find? (·.1 == String.ofList first) with
  | none => throw (.unknownField (String.ofList first))
  | some (_, text) => follow text.toList steps

def convert (conversion : Option Char) (text : List Char) : Except TemplateFault (List Char) :=
  match conversion with
  | none => .ok text
  | some 's' => .ok text
  | some 'r' => .ok (Text.quote (String.ofList text)).toList
  | some 'a' => .ok (Text.quoteAscii (String.ofList text)).toList
  | some mark => if mark = '\x00' then .ok text else .error (.unknownConversion mark)

/-- Fills one part; `expand` fills the fields within a layout. -/
def fillPart (expand : List Char → Except TemplateFault (List Char))
    (fields : List (String × String)) : Part → Except TemplateFault (List Char)
  | .text cs => .ok cs
  | .field f => do
    let text ← convert f.conversion (← lookUp fields f.name)
    let layout ← if f.layout.contains '\x7b' then expand f.layout else pure f.layout
    if layout.isEmpty then return text
    return (← Layout.read layout).apply text

/-- Fills the parts of a template, in order, and then reports a fault of its text. -/
def fillWith (expand : List Char → Except TemplateFault (List Char))
    (fields : List (String × String)) (template : List Char) :
    Except TemplateFault (List Char) := do
  let (parts, fault) := parts template
  let filled ← parts.mapM (fillPart expand fields)
  match fault with
  | some fault => throw fault
  | none => return filled.flatten

/-- Fills a template with the texts of its fields. A layout may hold fields, but a
layout within a layout may not. -/
def fill (fields : List (String × String)) (template : String) :
    Except TemplateFault String :=
  let inner := fillWith (fun _ => .error .tooDeep) fields
  (fillWith inner fields template.toList).map String.ofList

end Permit.Template
