import Permit.Text.Blank

namespace Permit.Text

/-- Puts a character in front of the first piece. -/
def consPiece (c : Char) : List (List Char) → List (List Char)
  | [] => [[c]]
  | piece :: pieces => (c :: piece) :: pieces

/-- The pieces between separators; there is one more of them than there are separators. -/
def splitChars (sep : Char) : List Char → List (List Char)
  | [] => [[]]
  | c :: rest => if c = sep then [] :: splitChars sep rest else consPiece c (splitChars sep rest)

def split (sep : Char) (s : String) : List String :=
  (splitChars sep s.toList).map String.ofList

def joinChars (sep : Char) : List (List Char) → List Char
  | [] => []
  | [piece] => piece
  | piece :: pieces => piece ++ sep :: joinChars sep pieces

def join (sep : Char) (pieces : List String) : String :=
  String.ofList (joinChars sep (pieces.map String.toList))

theorem consPiece_ne_nil (c : Char) (pieces : List (List Char)) : consPiece c pieces ≠ [] := by
  cases pieces <;> simp [consPiece]

theorem splitChars_ne_nil (sep : Char) (cs : List Char) : splitChars sep cs ≠ [] := by
  cases cs with
  | nil => simp [splitChars]
  | cons c rest =>
    simp only [splitChars]
    split
    · simp
    · exact consPiece_ne_nil _ _

theorem joinChars_consPiece (sep c : Char) (pieces : List (List Char)) (h : pieces ≠ []) :
    joinChars sep (consPiece c pieces) = c :: joinChars sep pieces := by
  match pieces with
  | [] => exact absurd rfl h
  | [piece] => rfl
  | piece :: next :: rest => simp [consPiece, joinChars]

theorem joinChars_nil_cons (sep : Char) (pieces : List (List Char)) (h : pieces ≠ []) :
    joinChars sep ([] :: pieces) = sep :: joinChars sep pieces := by
  match pieces with
  | [] => exact absurd rfl h
  | _ :: _ => simp [joinChars]

theorem join_split (sep : Char) (cs : List Char) : joinChars sep (splitChars sep cs) = cs := by
  induction cs with
  | nil => rfl
  | cons c rest ih =>
    simp only [splitChars]
    split
    · rename_i h
      rw [joinChars_nil_cons _ _ (splitChars_ne_nil sep rest), ih, h]
    · rw [joinChars_consPiece _ _ _ (splitChars_ne_nil sep rest), ih]

theorem not_mem_of_mem_split (sep : Char) (cs : List Char) :
    ∀ piece ∈ splitChars sep cs, sep ∉ piece := by
  induction cs with
  | nil => simp [splitChars]
  | cons c rest ih =>
    simp only [splitChars]
    split
    · intro piece h
      rcases List.mem_cons.mp h with rfl | h
      · simp
      · exact ih piece h
    · rename_i hc
      cases hs : splitChars sep rest with
      | nil => exact absurd hs (splitChars_ne_nil sep rest)
      | cons first others =>
        intro piece h
        rw [hs] at ih
        rcases List.mem_cons.mp h with rfl | h
        · have := ih first (List.mem_cons_self ..)
          simp only [List.mem_cons, not_or]
          exact ⟨fun e => hc e.symm, this⟩
        · exact ih piece (List.mem_cons_of_mem _ h)

def trimLeft (cs : List Char) : List Char := cs.dropWhile isBlank

def trimChars (cs : List Char) : List Char := (trimLeft (trimLeft cs).reverse).reverse

def trim (s : String) : String := String.ofList (trimChars s.toList)

/-- The text before the first separator and, if there is one, the text after it. -/
def cutChars (sep : Char) : List Char → List Char × Option (List Char)
  | [] => ([], none)
  | c :: rest =>
    if c = sep then ([], some rest)
    else let cut := cutChars sep rest; (c :: cut.1, cut.2)

/-- A text continued with copies of one character up to a width, at its left end. -/
def padLeft (fill : Char) (width : Nat) (s : String) : String :=
  "".pushn fill (width - s.length) ++ s

end Permit.Text
