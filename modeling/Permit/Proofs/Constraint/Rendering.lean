import Permit.Constraint.Basic
import Permit.Proofs.Text.Trimming

/-!
Definitions written from constraints. A constraint is written as its name and, after a colon,
its arguments with commas between them (`Constraint.render`). What can be written so that it is
read back is said of the name and the arguments (`Writable`).

* `readToken_render`: a constraint that is written with blanks around it is read back;
* `read_render`: so is a list of them, written as a list of texts, or as one text with bars
  between them and any blank pieces besides.
-/
namespace Permit

namespace Constraint

open Text

/-- A constraint as a text: its name and, if there are arguments, a colon and the arguments
with commas between them. -/
def render (c : Constraint) : String :=
  if c.args = [] then c.rule else c.rule ++ ":" ++ Text.join ',' c.args

structure Writable (c : Constraint) : Prop where
  named : c.rule ≠ ""
  plain : ':' ∉ c.rule.toList
  flush : Flush c.rule.toList
  whole : takesWhole c.rule = true →
    c.args = [] ∨ ∃ arg, c.args = [arg] ∧ arg ≠ "" ∧ FlushRight arg.toList
  listed : takesWhole c.rule = false →
    c.args ≠ [""] ∧ ∀ arg ∈ c.args, ',' ∉ arg.toList ∧ Flush arg.toList

/-- No bar in the name or in an argument. -/
def BarFree (c : Constraint) : Prop :=
  '|' ∉ c.rule.toList ∧ ∀ arg ∈ c.args, '|' ∉ arg.toList

instance (c : Constraint) : Decidable c.BarFree := inferInstanceAs (Decidable (_ ∧ _))

variable {c : Constraint} {constraints : List Constraint} {texts tokens : List String}

theorem toList_render : c.render.toList =
    c.rule.toList ++ if c.args = [] then [] else ':' :: joinChars ',' (c.args.map String.toList) := by
  rw [render]
  split
  · rw [List.append_nil]
  · simp [Text.join]

namespace Writable

variable (h : c.Writable)

include h

/-- The arguments as they are written: there is something after the colon, it ends in no blank
and is read as the arguments. -/
theorem written (some : c.args ≠ []) :
    joinChars ',' (c.args.map String.toList) ≠ [] ∧
      FlushRight (joinChars ',' (c.args.map String.toList)) ∧
      readArgs c.rule.toList (joinChars ',' (c.args.map String.toList)) = c.args := by
  have same : String.ofList c.rule.toList = c.rule := String.ofList_toList
  cases taken : takesWhole c.rule with
  | true =>
    obtain ⟨arg, only, filled, flush⟩ := (h.whole taken).resolve_left some
    have chars : arg.toList ≠ [] := fun none => filled (String.toList_eq_nil_iff.mp none)
    rw [only]
    refine ⟨chars, flush, ?_⟩
    simp [readArgs, same, taken, joinChars, chars]
  | false =>
    obtain ⟨single, each⟩ := h.listed taken
    have pieces : ∀ piece ∈ c.args.map String.toList, ',' ∉ piece ∧ Flush piece := by
      intro piece inside
      obtain ⟨arg, given, rfl⟩ := List.mem_map.mp inside
      exact each arg given
    have filled : joinChars ',' (c.args.map String.toList) ≠ [] := by
      intro none
      rcases joinChars_eq_nil none with empty | blank
      · exact some (List.map_eq_nil_iff.mp empty)
      · obtain ⟨arg, only, none⟩ := List.map_eq_singleton_iff.mp blank
        exact single (only.trans (congrArg (fun a => [a]) (String.toList_eq_nil_iff.mp none)))
    refine ⟨filled, flushRight_joinChars (by decide) fun p inside => (pieces p inside).2.right, ?_⟩
    have split : splitChars ',' (joinChars ',' (c.args.map String.toList)) =
        c.args.map String.toList :=
      splitChars_joinChars (by simpa using some) fun piece inside => (pieces piece inside).1
    have trimmed : (c.args.map String.toList).map (fun arg => String.ofList (trimChars arg)) =
        c.args := by
      rw [List.map_map]
      refine (List.map_congr_left fun arg inside => ?_).trans (List.map_id _)
      rw [Function.comp_apply, trimChars_flush (each arg inside).2, String.ofList_toList]
      rfl
    rw [readArgs, same, taken, split, trimmed]
    simp [filled]

theorem flush_render : Flush c.render.toList := by
  have chars : c.rule.toList ≠ [] := fun none => h.named (String.toList_eq_nil_iff.mp none)
  rw [toList_render]
  constructor
  · intro d first
    rw [List.head?_append, Option.or_of_isSome (List.isSome_head?.mpr chars)] at first
    exact h.flush.left d first
  · by_cases none : c.args = []
    · simpa [none] using h.flush.right
    · obtain ⟨filled, flush, _⟩ := h.written none
      intro d last
      rw [if_neg none, List.getLast?_append, List.getLast?_cons_of_ne_nil filled,
        Option.or_of_isSome (by simpa using filled)] at last
      exact flush d last

/-- A constraint is read back from its text, whatever blanks stand around it. -/
theorem readToken_render {before after : String} (blank : Blank before.toList)
    (blank' : Blank after.toList) : readToken (before ++ c.render ++ after) = some c := by
  have trimmed : trimChars (before ++ c.render ++ after).toList = c.render.toList := by
    rw [String.toList_append, String.toList_append]
    exact trimChars_blanks h.flush_render blank blank'
  have chars : c.rule.toList ≠ [] := fun none => h.named (String.toList_eq_nil_iff.mp none)
  have name : String.ofList (trimChars c.rule.toList) = c.rule := by
    rw [trimChars_flush h.flush, String.ofList_toList]
  by_cases none : c.args = []
  · have text : c.render.toList = c.rule.toList := by simp [toList_render, none]
    have read : readArgs c.rule.toList [] = c.args := none.symm
    simp only [readToken, trimmed, text, cutChars_of_not_mem h.plain, name, Option.getD_none, read]
    simp [chars]
  · have text : c.render.toList =
        c.rule.toList ++ ':' :: joinChars ',' (c.args.map String.toList) := by
      simp [toList_render, none]
    have read := (h.written none).2.2
    simp only [readToken, trimmed, text, cutChars_append h.plain, name, Option.getD_some, read]
    simp

end Writable

/-- Pieces between which there are texts, each with blanks around it, and blank ones. -/
inductive Spaced : List String → List String → Prop where
  | nil : Spaced [] []
  | blank {token : String} {texts tokens : List String} :
    Blank token.toList → Spaced texts tokens → Spaced texts (token :: tokens)
  | text {before text after : String} {texts tokens : List String} :
    Blank before.toList → Blank after.toList → Spaced texts tokens →
    Spaced (text :: texts) ((before ++ text ++ after) :: tokens)

theorem Spaced.refl (texts : List String) : Spaced texts texts := by
  induction texts with
  | nil => exact .nil
  | cons text rest ih =>
    have none : Blank "".toList := by decide
    have spaced : Spaced (text :: rest) (("" ++ text ++ "") :: rest) := .text none none ih
    simpa using spaced

theorem readToken_blank {token : String} (blank : Blank token.toList) : readToken token = none := by
  rw [readToken, trimChars_blank blank]
  rfl

/-- Of pieces that hold texts of constraints, the constraints are left. -/
theorem Spaced.readTokens (spaced : Spaced texts tokens) :
    ∀ {constraints : List Constraint}, texts = constraints.map render →
      (∀ c ∈ constraints, c.Writable) → tokens.filterMap readToken = constraints := by
  induction spaced with
  | nil =>
    intro constraints given _
    rw [List.map_eq_nil_iff.mp given.symm]
    rfl
  | blank blank _ ih =>
    intro constraints given writable
    rw [List.filterMap_cons_none (readToken_blank blank)]
    exact ih given writable
  | text blank blank' _ ih =>
    intro constraints given writable
    cases constraints with
    | nil => cases given
    | cons c rest =>
      obtain ⟨rfl, others⟩ := List.cons.inj given
      have first := (writable c (List.mem_cons_self ..)).readToken_render blank blank'
      rw [List.filterMap_cons_some first,
        ih others fun other inside => writable other (List.mem_cons_of_mem _ inside)]

theorem not_mem_of_blank {cs : List Char} (blank : Blank cs) : '|' ∉ cs := by
  intro inside
  have solid : isBlank '|' = false := by decide
  rw [blank '|' inside] at solid
  cases solid

theorem BarFree.render (free : c.BarFree) : '|' ∉ c.render.toList := by
  rw [toList_render]
  intro inside
  rcases List.mem_append.mp inside with inside | inside
  · exact free.1 inside
  · split at inside
    · cases inside
    · rcases List.mem_cons.mp inside with same | inside
      · cases same
      · rcases mem_joinChars inside with same | ⟨piece, given, inside⟩
        · cases same
        · obtain ⟨arg, listed, rfl⟩ := List.mem_map.mp given
          exact free.2 arg listed inside

theorem Spaced.barFree (spaced : Spaced texts tokens) (free : ∀ text ∈ texts, '|' ∉ text.toList) :
    ∀ token ∈ tokens, '|' ∉ token.toList := by
  induction spaced with
  | nil => exact fun token inside => by cases inside
  | blank blank _ ih =>
    rw [List.forall_mem_cons]
    exact ⟨not_mem_of_blank blank, ih free⟩
  | text blank blank' _ ih =>
    obtain ⟨first, others⟩ := List.forall_mem_cons.mp free
    rw [List.forall_mem_cons]
    refine ⟨?_, ih others⟩
    simp [String.toList_append, not_mem_of_blank blank, not_mem_of_blank blank', first]

/-- A text of pieces without bars, which are joined by bars, is read piece by piece. -/
theorem read_join (free : ∀ token ∈ tokens, '|' ∉ token.toList) :
    read (.text (Text.join '|' tokens)) = .ok (tokens.filterMap readToken) := by
  cases tokens with
  | nil => rfl
  | cons token rest =>
    have split : Text.split '|' (Text.join '|' (token :: rest)) = token :: rest :=
      split_join (List.cons_ne_nil _ _) free
    simp only [read, tokens?, split]

theorem read_texts (tokens : List String) :
    read (.texts tokens) = .ok (tokens.filterMap readToken) := by
  have listed : tokens? (.texts tokens) = some tokens := texts?_texts tokens
  rw [read, listed]

/-- **Written and read back.** Constraints that can be written are read back, in their order,
from the list of their texts, and where no bar occurs in them, also from one text that has bars
between them, with any blanks around them and any blank pieces besides. -/
theorem read_render (writable : ∀ c ∈ constraints, c.Writable) :
    read (.texts (constraints.map render)) = .ok constraints ∧
      ((∀ c ∈ constraints, c.BarFree) → ∀ tokens, Spaced (constraints.map render) tokens →
        read (.text (Text.join '|' tokens)) = .ok constraints) := by
  constructor
  · rw [read_texts, (Spaced.refl _).readTokens rfl writable]
  · intro free tokens spaced
    have pieces := spaced.barFree (List.forall_mem_map.mpr fun c inside => (free c inside).render)
    rw [read_join pieces, spaced.readTokens rfl writable]

/-- A pattern with a comma, a colon and a blank in front, arguments that are empty, and a text
with a blank piece and blanks around the others. -/
theorem read_render_pattern :
    let constraints : List Constraint := [⟨"regex", [" a,b:c"]⟩, ⟨"in", ["", "x y", ""]⟩,
      ⟨"required", []⟩]
    read (.texts [("regex: a,b:c"), "in:,x y,", "required"]) = .ok constraints ∧
      read (.text "\tregex: a,b:c | |in:,x y, |required") = .ok constraints := by
  intro constraints
  have writable : ∀ c ∈ constraints, c.Writable := by
    intro c inside
    simp only [constraints, List.mem_cons, List.not_mem_nil, or_false] at inside
    rcases inside with rfl | rfl | rfl
    · exact ⟨by decide, by decide, by decide,
        fun _ => .inr ⟨_, rfl, by decide, by decide⟩, fun other => absurd other (by decide)⟩
    · exact ⟨by decide, by decide, by decide, fun other => absurd other (by decide),
        fun _ => by decide⟩
    · exact ⟨by decide, by decide, by decide, fun _ => .inl rfl, fun _ => by decide⟩
  have rendered : constraints.map render = ["regex: a,b:c", "in:,x y,", "required"] := by decide
  have spaced : Spaced ["regex: a,b:c", "in:,x y,", "required"]
      ["\t" ++ "regex: a,b:c" ++ " ", " ", "" ++ "in:,x y," ++ " ", "" ++ "required" ++ ""] :=
    .text (by decide) (by decide) (.blank (by decide)
      (.text (by decide) (by decide) (.text (by decide) (by decide) .nil)))
  have free : ∀ c ∈ constraints, c.BarFree := by decide
  obtain ⟨listed, joined⟩ := read_render writable
  rw [rendered] at listed joined
  have whole : Text.join '|' ["\t" ++ "regex: a,b:c" ++ " ", " ", "" ++ "in:,x y," ++ " ",
      "" ++ "required" ++ ""] = "\tregex: a,b:c | |in:,x y, |required" := by decide
  exact ⟨listed, whole ▸ joined free _ spaced⟩

end Constraint
end Permit
