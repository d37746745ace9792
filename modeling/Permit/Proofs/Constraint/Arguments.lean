import Mathlib.Data.List.Forall2
import Permit.Proofs.Constraint.Rendering

/-!
What becomes of the text after a colon. For a rule that takes its argument whole it is one
argument, commas and all (`wholeArgs`); for any other rule it is taken apart at its commas
(`partedArgs`). Which of the two happens is settled by the name as it stands before the colon,
a blank at its end included, so such a blank costs a whole argument its commas (`Parted`).

* `readToken_whole`: the arguments of one token; the text after the colon is kept whole just
  if the token is not parted;
* `read_whole`: the arguments of a definition, token by token.
-/
namespace Permit.Constraint

open Text

def nameText (token : String) : List Char := (cutChars ':' (trimRight token.toList)).1

/-- The text after the first colon of a token, without the blanks at its right end. -/
def argText (token : String) : List Char := (cutChars ':' (trimRight token.toList)).2.getD []

/-- The text after the colon as the only argument, if there is any text. -/
def wholeArgs (token : String) : List String :=
  if argText token = [] then [] else [String.ofList (argText token)]

/-- The pieces of the text after the colon, without the blanks around them. -/
def partedArgs (token : String) : List String :=
  (splitChars ',' (argText token)).map fun arg => String.ofList (trimChars arg)

/-- A blank stands right before the colon, and in the text after it there is something that
taking it apart loses: a comma, or a blank at the beginning. -/
structure Parted (token : String) : Prop where
  loose : ¬ FlushRight (nameText token)
  apart : ',' ∈ argText token ∨ ∃ c ∈ (argText token).head?, isBlank c = true

variable {token : String} {c : Constraint} {definition : Value} {constraints : List Constraint}

theorem flushRight_argText (token : String) : FlushRight (argText token) := by
  rw [argText]
  cases cut : (cutChars ':' (trimRight token.toList)).2 with
  | none => exact fun c last => by cases last
  | some rest =>
    rw [Option.getD_some]
    by_cases none : rest = []
    · rw [none]
      exact fun c last => by cases last
    · have flush := flushRight_trimRight token.toList
      rw [eq_of_cutChars cut, List.append_cons] at flush
      exact (flushRight_append_iff none).mp flush

/-- The names of rules that take their argument whole have no blanks around them. -/
theorem flush_of_takesWhole {name : List Char} (taken : takesWhole (String.ofList name) = true) :
    name ≠ [] ∧ Flush name := by
  have same : String.ofList name = "regex" ∨ String.ofList name = "equals" := by
    simpa [takesWhole] using taken
  rcases same with same | same <;>
  · rw [← String.toList_ofList (l := name), same]
    decide

/-- A token that is not blank is read by the text before its colon, without the blanks in front,
and by the text after it. -/
theorem readToken_cut (filled : trimChars token.toList ≠ []) :
    ∃ before name, Blank before ∧ nameText token = before ++ name ∧
      (∀ c ∈ name.head?, isBlank c = false) ∧
      readToken token = some ⟨String.ofList (trimChars name), readArgs name (argText token)⟩ := by
  obtain ⟨before, blank, right⟩ := exists_trimRight_eq filled
  have free : ':' ∉ before := by
    intro inside
    have solid : isBlank ':' = false := by decide
    rw [blank ':' inside] at solid
    cases solid
  have cut := cutChars_append_left free (trimChars token.toList)
  rw [← right] at cut
  refine ⟨before, (cutChars ':' (trimChars token.toList)).1, blank, ?_, ?_, ?_⟩
  · rw [nameText, cut]
  · -- the name begins as the trimmed token does, unless a colon comes first
    have flush := (flush_trimChars token.toList).left
    cases chars : trimChars token.toList with
    | nil => exact absurd chars filled
    | cons d rest =>
      rw [chars] at flush
      by_cases colon : d = ':'
      · simp [cutChars, colon]
      · simpa [cutChars, colon] using flush
  · have empty : (trimChars token.toList).isEmpty = false := by simpa using filled
    simp only [readToken, empty, Bool.false_eq_true, if_false]
    rw [argText, cut]

theorem partedArgs_eq (plain : ',' ∉ argText token)
    (begins : ∀ c ∈ (argText token).head?, isBlank c = false) :
    partedArgs token = [String.ofList (argText token)] := by
  have flush : Flush (argText token) := ⟨begins, flushRight_argText token⟩
  rw [partedArgs, splitChars_of_not_mem plain, List.map_singleton, trimChars_flush flush]

/-- Taking a text apart that has a comma or begins with a blank does not leave it as it is. -/
theorem partedArgs_ne
    (apart : ',' ∈ argText token ∨ ∃ c ∈ (argText token).head?, isBlank c = true) :
    partedArgs token ≠ [String.ofList (argText token)] := by
  intro same
  obtain ⟨piece, split, trimmed⟩ := List.map_eq_singleton_iff.mp same
  have whole := join_split ',' (argText token)
  rw [split, joinChars] at whole
  have plain : ',' ∉ argText token :=
    whole ▸ not_mem_of_mem_split ',' (argText token) piece (split ▸ List.mem_singleton_self piece)
  obtain ⟨c, first, blank⟩ := apart.resolve_left plain
  have own : trimChars (argText token) = argText token := by
    rw [whole] at trimmed
    exact String.ofList_injective trimmed
  have solid := (flush_trimChars (argText token)).left c (own.symm ▸ first)
  rw [blank] at solid
  cases solid

/-- **The argument of one token.** A rule that takes its argument whole gets the text after the
colon as it stands, unless the token is parted; then it gets the pieces, and never the text. -/
theorem readToken_whole (read : readToken token = some c) :
    c.rule = String.ofList (trimChars (nameText token)) ∧ (takesWhole c.rule = true →
      (¬ Parted token → c.args = wholeArgs token) ∧
      (Parted token → c.args = partedArgs token ∧ c.args ≠ wholeArgs token)) := by
  have filled : trimChars token.toList ≠ [] := by
    intro none
    rw [readToken, none] at read
    cases read
  obtain ⟨before, name, blank, text, begins, read'⟩ := readToken_cut filled
  obtain rfl := Option.some.inj (read'.symm.trans read)
  have named : trimChars (nameText token) = trimChars name := by
    rw [text, trimChars, trimLeft_blank blank]
    rfl
  refine ⟨by rw [named], fun taken => ?_⟩
  dsimp only at taken ⊢
  have some : name ≠ [] := by
    rintro rfl
    exact (flush_of_takesWhole taken).1 rfl
  have ends : FlushRight (nameText token) ↔ FlushRight name := by
    rw [text]
    exact flushRight_append_iff some
  by_cases tight : FlushRight (nameText token)
  · -- the name stands as it is and is known as that of a rule that takes the text whole
    have own : trimChars name = name := trimChars_flush ⟨begins, ends.mp tight⟩
    rw [own] at taken
    refine ⟨fun _ => ?_, fun parted => absurd tight parted.loose⟩
    simp [readArgs, taken, wholeArgs]
  · have unknown : takesWhole (String.ofList name) = false := by
      rw [Bool.eq_false_iff]
      exact fun known => tight (ends.mpr (flush_of_takesWhole known).2.right)
    have args : readArgs name (argText token) =
        if argText token = [] then [] else partedArgs token := by
      simp [readArgs, unknown, partedArgs]
    rw [args, wholeArgs]
    constructor
    · intro kept
      have plain : ',' ∉ argText token := fun comma => kept ⟨tight, .inl comma⟩
      have solid : ∀ c ∈ (argText token).head?, isBlank c = false := by
        intro c first
        by_contra other
        exact kept ⟨tight, .inr ⟨c, first, by simpa using other⟩⟩
      rw [partedArgs_eq plain solid]
    · intro parted
      have filled : argText token ≠ [] := by
        intro none
        have apart := parted.apart
        simp [none] at apart
      rw [if_neg filled, if_neg filled]
      exact ⟨rfl, partedArgs_ne parted.apart⟩

theorem readToken_eq_none_iff : readToken token = none ↔ Blank token.toList := by
  refine ⟨fun none => ?_, readToken_blank⟩
  by_cases filled : trimChars token.toList = []
  · obtain ⟨before, blank, whole⟩ := exists_trimLeft token.toList
    obtain ⟨after, blank', rest⟩ := exists_trimRight (trimLeft token.toList)
    have right : trimRight (trimLeft token.toList) = [] := filled
    rw [right, List.nil_append] at rest
    rw [whole, rest]
    exact fun c inside => (List.mem_append.mp inside).elim (blank c) (blank' c)
  · obtain ⟨_, _, _, _, _, read⟩ := readToken_cut filled
    rw [none] at read
    cases read

theorem forall₂_readToken (tokens : List String) :
    List.Forall₂ (fun token c => readToken token = some c)
      (tokens.filter fun token => decide (¬ Blank token.toList)) (tokens.filterMap readToken) := by
  induction tokens with
  | nil => exact .nil
  | cons token rest ih =>
    cases read : readToken token with
    | none =>
      have blank := readToken_eq_none_iff.mp read
      rw [List.filterMap_cons_none read, List.filter_cons_of_neg (by simpa using blank)]
      exact ih
    | some c =>
      have filled : ¬ Blank token.toList := by
        rw [← readToken_eq_none_iff, read]
        rintro ⟨⟩
      rw [List.filterMap_cons_some read, List.filter_cons_of_pos (by simpa using filled)]
      exact .cons read ih

theorem read_of_tokens {tokens : List String} (given : tokens? definition = some tokens) :
    read definition = .ok (tokens.filterMap readToken) := by
  rw [read, given]

/-- **Arguments that are taken whole.** In every definition that is read, each token that is not
blank is one constraint, named by the text before its colon. One that takes its argument whole
has the text after the colon as its only argument, or none if there is no text, unless a blank
stands before the colon and the text has a comma or begins with a blank; then, and only then,
it has something else, namely the trimmed pieces of the text. -/
theorem read_whole (accepted : read definition = .ok constraints) :
    ∃ tokens, tokens? definition = some tokens ∧
      List.Forall₂ (fun token c => c.rule = String.ofList (trimChars (nameText token)) ∧
          (takesWhole c.rule = true → (¬ Parted token → c.args = wholeArgs token) ∧
            (Parted token → c.args = partedArgs token ∧ c.args ≠ wholeArgs token)))
        (tokens.filter fun token => decide (¬ Blank token.toList)) constraints := by
  cases given : tokens? definition with
  | none =>
    rw [read, given] at accepted
    cases quoted : definition.quote with
    | ok shown => simp [quoted] at accepted
    | error fault => simp [quoted] at accepted
  | some tokens =>
    obtain rfl := Except.ok.inj ((read_of_tokens given).symm.trans accepted)
    exact ⟨tokens, rfl, (forall₂_readToken tokens).imp fun _ _ => readToken_whole⟩

/-- A pattern with a comma and a blank in front, which stays as it is, and a text to be equal to
whose name is followed by a blank and which is taken apart. -/
theorem read_whole_pattern :
    read (.text "\tregex: a,b | |equals :p, q") =
        .ok [⟨"regex", [" a,b"]⟩, ⟨"equals", ["p", "q"]⟩] ∧
      [" a,b"] = wholeArgs "\tregex: a,b " ∧ ["p", "q"] ≠ wholeArgs "equals :p, q" := by
  have pieces : tokens? (.text "\tregex: a,b | |equals :p, q") =
      some ["\tregex: a,b ", " ", "equals :p, q"] := by decide +kernel
  have constraints : ["\tregex: a,b ", " ", "equals :p, q"].filterMap readToken =
      [⟨"regex", [" a,b"]⟩, ⟨"equals", ["p", "q"]⟩] := by decide +kernel
  have accepted := (read_of_tokens pieces).trans (congrArg Except.ok constraints)
  obtain ⟨tokens, given, each⟩ := read_whole accepted
  obtain rfl := Option.some.inj (pieces.symm.trans given)
  have filled : ["\tregex: a,b ", " ", "equals :p, q"].filter
      (fun token => decide (¬ Blank token.toList)) = ["\tregex: a,b ", "equals :p, q"] := by
    decide +kernel
  rw [filled, List.forall₂_cons, List.forall₂_cons] at each
  obtain ⟨⟨_, whole⟩, ⟨_, apart⟩, _⟩ := each
  have tight : ¬ Parted "\tregex: a,b " := fun parted => parted.loose (by decide +kernel)
  have parted : Parted "equals :p, q" := ⟨by decide +kernel, .inl (by decide +kernel)⟩
  exact ⟨accepted, (whole rfl).1 tight, ((apart rfl).2 parted).2⟩

/-- A blank before the colon: the pattern is taken apart at its comma. -/
theorem read_parted_blank :
    read (.text "regex :a,b") = .ok [⟨"regex", ["a", "b"]⟩] ∧
      wholeArgs "regex :a,b" = ["a,b"] := by
  have constraints : ["regex :a,b"].filterMap readToken = [⟨"regex", ["a", "b"]⟩] := by
    decide +kernel
  have pieces : tokens? (.text "regex :a,b") = some ["regex :a,b"] := by decide +kernel
  exact ⟨(read_of_tokens pieces).trans (congrArg Except.ok constraints), by decide +kernel⟩

end Permit.Constraint
