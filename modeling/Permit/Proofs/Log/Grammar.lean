import Mathlib.Data.List.Basic
import Mathlib.Tactic.Common
import Permit.Log.Json

/-!
The grammar of JSON, and what a text of it stands for (`Datum`).

* `Reads`: a text begins with a datum, with items or with members, and goes on with a rest. What
  counts as a numeral is left open, since there are writers of names for numbers too;
* `Denotes`: a text stands for a datum by the grammar, with the numerals that it has (`Numeral`);
* `Reads.unique`, `denotes_unique`: a text stands for one datum at most;
* `textUnits_inj`: texts with the same sixteen-bit units are the same.
-/
namespace Permit.Log.Json

/-- What a JSON text stands for. A string is its sixteen-bit units, since an escape stands for one
of them, and a number stays the numeral that is written. -/
inductive Datum where
  | null
  | flag (b : Bool)
  | number (numeral : List Char)
  | string (units : List Nat)
  | array (items : List Datum)
  | object (members : List (List Nat × Datum))

inductive Phrase where
  | datum (d : Datum)
  /-- A datum with spaces around it. -/
  | item (d : Datum)
  | items (ds : List Datum)
  /-- A name and an item with a colon between them. -/
  | member (name : List Nat) (d : Datum)
  | members (ms : List (List Nat × Datum))

/-! ### Tokens -/

def isSpace (c : Char) : Bool := c = ' ' || c = '\t' || c = '\n' || c = '\r'

/-- A text without some spaces that it begins with. -/
def Spaces (s rest : List Char) : Prop :=
  ∃ spaces, (∀ c ∈ spaces, isSpace c = true) ∧ s = spaces ++ rest

def Digits (t : List Char) : Prop := t ≠ [] ∧ ∀ c ∈ t, c.isDigit = true

/-- Digits without a leading zero. -/
def Whole (t : List Char) : Prop := t = ['0'] ∨ Digits t ∧ t.head? ≠ some '0'

def Fraction (t : List Char) : Prop := t = [] ∨ ∃ digits, Digits digits ∧ t = '.' :: digits

def Exponent (t : List Char) : Prop :=
  t = [] ∨ ∃ mark sign digits, (mark = 'e' ∨ mark = 'E') ∧
    (sign = [] ∨ sign = ['+'] ∨ sign = ['-']) ∧ Digits digits ∧ t = mark :: (sign ++ digits)

def Numeral (t : List Char) : Prop :=
  ∃ sign whole fraction exponent, (sign = [] ∨ sign = ['-']) ∧ Whole whole ∧ Fraction fraction ∧
    Exponent exponent ∧ t = sign ++ whole ++ fraction ++ exponent

def hexDigit? (c : Char) : Option Nat :=
  if 48 ≤ c.toNat && c.toNat ≤ 57 then some (c.toNat - 48)
  else if 97 ≤ c.toNat && c.toNat ≤ 102 then some (c.toNat - 87)
  else if 65 ≤ c.toNat && c.toNat ≤ 70 then some (c.toNat - 55)
  else none

/-- What stands for one unit after a backslash. -/
def shortEscape? : Char → Option Nat
  | '"' => some 34
  | '\\' => some 92
  | '/' => some 47
  | 'b' => some 8
  | 'f' => some 12
  | 'n' => some 10
  | 'r' => some 13
  | 't' => some 9
  | _ => none

/-- The sixteen-bit units of a character: one, or two that share its bits. -/
def charUnits (c : Char) : List Nat :=
  if c.toNat < 0x10000 then [c.toNat]
  else [0xD800 + (c.toNat - 0x10000) / 0x400, 0xDC00 + (c.toNat - 0x10000) % 0x400]

def textUnits (s : String) : List Nat := s.toList.flatMap charUnits

def Datum.text (s : String) : Datum := .string (textUnits s)

/-- A string after its opening mark: its units, and the rest after its closing mark. -/
inductive StringRest : List Char → List Nat → List Char → Prop
  | close {r : List Char} : StringRest ('"' :: r) [] r
  | plain {c : Char} {s r : List Char} {units : List Nat} :
      c ≠ '"' → c ≠ '\\' → 32 ≤ c.toNat → StringRest s units r →
      StringRest (c :: s) (charUnits c ++ units) r
  | short {c : Char} {n : Nat} {s r : List Char} {units : List Nat} :
      shortEscape? c = some n → StringRest s units r → StringRest ('\\' :: c :: s) (n :: units) r
  | unit {a b c d : Char} {w x y z : Nat} {s r : List Char} {units : List Nat} :
      hexDigit? a = some w → hexDigit? b = some x → hexDigit? c = some y → hexDigit? d = some z →
      StringRest s units r →
      StringRest ('\\' :: 'u' :: a :: b :: c :: d :: s)
        ((((w * 16 + x) * 16 + y) * 16 + z) :: units) r

/-! ### Phrases -/

/-- A text begins with a phrase and goes on with a rest. -/
inductive Reads (numeral : List Char → Prop) : List Char → Phrase → List Char → Prop
  | null {r : List Char} : Reads numeral ('n' :: 'u' :: 'l' :: 'l' :: r) (.datum .null) r
  | true {r : List Char} : Reads numeral ('t' :: 'r' :: 'u' :: 'e' :: r) (.datum (.flag true)) r
  | false {r : List Char} :
      Reads numeral ('f' :: 'a' :: 'l' :: 's' :: 'e' :: r) (.datum (.flag false)) r
  | number {s t r : List Char} : numeral t → s = t ++ r →
      Reads numeral s (.datum (.number t)) r
  | string {s r : List Char} {units : List Nat} : StringRest s units r →
      Reads numeral ('"' :: s) (.datum (.string units)) r
  | emptyArray {s r : List Char} : Spaces s (']' :: r) →
      Reads numeral ('[' :: s) (.datum (.array [])) r
  | array {s r : List Char} {ds : List Datum} : Reads numeral s (.items ds) (']' :: r) →
      Reads numeral ('[' :: s) (.datum (.array ds)) r
  | emptyObject {s r : List Char} : Spaces s ('\x7d' :: r) →
      Reads numeral ('\x7b' :: s) (.datum (.object [])) r
  | object {s r : List Char} {ms : List (List Nat × Datum)} :
      Reads numeral s (.members ms) ('\x7d' :: r) →
      Reads numeral ('\x7b' :: s) (.datum (.object ms)) r
  | item {s t u r : List Char} {d : Datum} : Spaces s t → Reads numeral t (.datum d) u →
      Spaces u r → Reads numeral s (.item d) r
  | lastItem {s r : List Char} {d : Datum} : Reads numeral s (.item d) r →
      Reads numeral s (.items [d]) r
  | nextItem {s t r : List Char} {d : Datum} {ds : List Datum} :
      Reads numeral s (.item d) (',' :: t) → Reads numeral t (.items ds) r →
      Reads numeral s (.items (d :: ds)) r
  | member {s t u v r : List Char} {name : List Nat} {d : Datum} : Spaces s ('"' :: t) →
      StringRest t name u → Spaces u (':' :: v) → Reads numeral v (.item d) r →
      Reads numeral s (.member name d) r
  | lastMember {s r : List Char} {name : List Nat} {d : Datum} :
      Reads numeral s (.member name d) r → Reads numeral s (.members [(name, d)]) r
  | nextMember {s t r : List Char} {name : List Nat} {d : Datum} {ms : List (List Nat × Datum)} :
      Reads numeral s (.member name d) (',' :: t) → Reads numeral t (.members ms) r →
      Reads numeral s (.members ((name, d) :: ms)) r

/-- The numerals of JSON, and names for the numbers that have none. -/
def NumeralOrName (t : List Char) : Prop :=
  Numeral t ∨ t = "NaN".toList ∨ t = "Infinity".toList ∨ t = "-Infinity".toList

mutual

def Datum.numerals : Datum → List (List Char)
  | .number t => [t]
  | .array items => itemsNumerals items
  | .object members => membersNumerals members
  | _ => []

def itemsNumerals : List Datum → List (List Char)
  | [] => []
  | d :: rest => d.numerals ++ itemsNumerals rest

def membersNumerals : List (List Nat × Datum) → List (List Char)
  | [] => []
  | (_, d) :: rest => d.numerals ++ membersNumerals rest

end

def Phrase.numerals : Phrase → List (List Char)
  | .datum d => d.numerals
  | .item d => d.numerals
  | .items ds => itemsNumerals ds
  | .member _ d => d.numerals
  | .members ms => membersNumerals ms

/-- A text stands for a datum: nothing but spaces stands around it. -/
def Denotes (s : String) (d : Datum) : Prop := Reads Numeral s.toList (.item d) []

variable {numeral : List Char → Prop} {s t u r r' : List Char} {d d' : Datum} {p : Phrase}

/-! ### Sixteen-bit units -/

/-- The units of a text are parted into characters in one way. -/
theorem charUnits_append_inj {c c' : Char} {us us' : List Nat}
    (same : charUnits c ++ us = charUnits c' ++ us') : c = c' ∧ us = us' := by
  have valid (c : Char) : c.toNat < 0xD800 ∨ 0xDFFF < c.toNat ∧ c.toNat < 0x110000 := c.valid
  have left := valid c
  have right := valid c'
  unfold charUnits at same
  split at same <;> split at same <;>
    simp only [List.cons_append, List.nil_append, List.cons.injEq] at same
  · exact ⟨Char.toNat_inj.mp same.1, same.2⟩
  · omega
  · omega
  · exact ⟨Char.toNat_inj.mp (by omega), same.2.2⟩

theorem textUnits_inj {s s' : String} (same : textUnits s = textUnits s') : s = s' := by
  have inj (cs cs' : List Char) (same : cs.flatMap charUnits = cs'.flatMap charUnits) :
      cs = cs' := by
    have filled (c : Char) (us : List Nat) : charUnits c ++ us ≠ [] := by
      unfold charUnits
      split <;> simp
    induction cs generalizing cs' with
    | nil =>
      cases cs' with
      | nil => rfl
      | cons c' rest' => exact absurd same.symm (filled c' _)
    | cons c rest ih =>
      cases cs' with
      | nil => exact absurd same (filled c _)
      | cons c' rest' =>
        obtain ⟨rfl, others⟩ := charUnits_append_inj same
        rw [ih rest' others]
  exact String.toList_inj.mp (inj _ _ same)

/-! ### One reading at most -/

/-- What follows an item. -/
def isEnd (c : Char) : Bool := c = ',' || c = ']' || c = '\x7d'

/-- What follows a datum. -/
def isStop (c : Char) : Bool := isSpace c || isEnd c

inductive Opening where
  | null
  | flag (b : Bool)
  | number
  | string
  | array
  | object

def Datum.opening : Datum → Opening
  | .null => .null
  | .flag b => .flag b
  | .number _ => .number
  | .string _ => .string
  | .array _ => .array
  | .object _ => .object

def opening? : Char → Option Opening
  | 'n' => some .null
  | 't' => some (.flag true)
  | 'f' => some (.flag false)
  | '"' => some .string
  | '[' => some .array
  | '\x7b' => some .object
  | c => if c = '-' || c.isDigit || c = 'N' || c = 'I' then some .number else none

/-- A text that nothing ends within. -/
def Solid (t : List Char) : Prop := ∀ c ∈ t, isStop c = false

instance (t : List Char) : Decidable (Solid t) := List.decidableBAll (fun c => isStop c = false) t

/-- Numerals that can be told from everything else by their first character, and from what
follows them by their last. -/
structure Separable (numeral : List Char → Prop) : Prop where
  starts : ∀ t, numeral t → ∃ c rest, t = c :: rest ∧ opening? c = some .number
  solid : ∀ t, numeral t → Solid t

/-- A rest that may follow a datum. -/
def Stops (r : List Char) : Prop := ∀ c rest, r = c :: rest → isStop c = true

/-- A rest that may follow an item. -/
def Ends (r : List Char) : Prop := ∀ c rest, r = c :: rest → isEnd c = true

/-- A text that does not begin with a space. -/
def Settled (r : List Char) : Prop := ∀ c rest, r = c :: rest → isSpace c = false

theorem ends_cons {c : Char} (h : isEnd c = true) : Ends (c :: s) := by
  intro c' rest same
  cases same
  exact h

theorem settled_cons {c : Char} (h : isSpace c = false) : Settled (c :: s) := by
  intro c' rest same
  cases same
  exact h

theorem Ends.stops (h : Ends r) : Stops r := by
  intro c rest same
  rw [isStop, h c rest same, Bool.or_true]

theorem Ends.settled (h : Ends r) : Settled r := by
  intro c rest same
  have ends := h c rest same
  simp only [isEnd, Bool.or_eq_true, decide_eq_true_eq] at ends
  rcases ends with (rfl | rfl) | rfl <;> rfl

theorem Spaces.refl (s : List Char) : Spaces s s := ⟨[], nofun, rfl⟩

theorem Spaces.one (s : List Char) : Spaces (' ' :: s) s :=
  ⟨[' '], List.forall_mem_singleton.mpr rfl, rfl⟩

theorem Spaces.unique (h : Spaces s t) (h' : Spaces s u) (left : Settled t) (right : Settled u) :
    t = u := by
  obtain ⟨spaces, all, rfl⟩ := h
  obtain ⟨others, all', same⟩ := h'
  induction spaces generalizing others with
  | nil =>
    cases others with
    | nil => exact same
    | cons c rest =>
      have space := all' c (List.mem_cons_self ..)
      rw [left c _ same] at space
      cases space
  | cons c rest ih =>
    cases others with
    | nil =>
      have space := all c (List.mem_cons_self ..)
      rw [right c _ same.symm] at space
      cases space
    | cons c' rest' =>
      obtain ⟨-, same⟩ := List.cons.inj same
      exact ih (fun c inside => all c (List.mem_cons_of_mem _ inside)) rest'
        (fun c inside => all' c (List.mem_cons_of_mem _ inside)) same

theorem Spaces.stops (h : Spaces s t) (stops : Stops t) : Stops s := by
  obtain ⟨spaces, all, rfl⟩ := h
  intro c rest same
  cases spaces with
  | nil => exact stops c rest same
  | cons space others =>
    obtain ⟨rfl, -⟩ := List.cons.inj same
    simp [isStop, all space (List.mem_cons_self ..)]

theorem StringRest.unique {units units' : List Nat} (h : StringRest s units r)
    (h' : StringRest s units' r') : units = units' ∧ r = r' := by
  induction h generalizing units' r' with
  | close =>
    cases h' with
    | close => exact ⟨rfl, rfl⟩
    | plain other => exact absurd rfl other
  | plain mark slash _ _ ih =>
    cases h' with
    | close => exact absurd rfl mark
    | plain _ _ _ h' =>
      obtain ⟨rfl, rfl⟩ := ih h'
      exact ⟨rfl, rfl⟩
    | short | unit => exact absurd rfl slash
  | short known _ ih =>
    cases h' with
    | plain _ slash => exact absurd rfl slash
    | short known' h' =>
      obtain ⟨rfl, rfl⟩ := ih h'
      rw [known] at known'
      cases known'
      exact ⟨rfl, rfl⟩
    | unit => cases known
  | unit ha hb hc hd _ ih =>
    cases h' with
    | plain _ slash => exact absurd rfl slash
    | short known => cases known
    | unit ha' hb' hc' hd' h' =>
      obtain ⟨rfl, rfl⟩ := ih h'
      rw [ha] at ha'
      rw [hb] at hb'
      rw [hc] at hc'
      rw [hd] at hd'
      cases ha'
      cases hb'
      cases hc'
      cases hd'
      exact ⟨rfl, rfl⟩

theorem Reads.opens (sep : Separable numeral) (h : Reads numeral s (.datum d) r) :
    ∃ c rest, s = c :: rest ∧ opening? c = some d.opening := by
  cases h with
  | @number _ t _ h same =>
    obtain ⟨c, rest, rfl, starts⟩ := sep.starts t h
    exact ⟨c, rest ++ r, same, starts⟩
  | _ => exact ⟨_, _, rfl, rfl⟩

theorem Reads.opening_eq (sep : Separable numeral) (h : Reads numeral s (.datum d) r)
    (h' : Reads numeral s (.datum d') r') : d'.opening = d.opening := by
  obtain ⟨c, rest, rfl, opens⟩ := h.opens sep
  obtain ⟨c', rest', same, opens'⟩ := h'.opens sep
  cases same
  exact Option.some.inj (opens'.symm.trans opens)

theorem not_space_of_opening? {c : Char} {o : Opening} (h : opening? c = some o) :
    isSpace c = false := by
  by_contra space
  simp only [isSpace, Bool.not_eq_false, Bool.or_eq_true, decide_eq_true_eq] at space
  rcases space with ((rfl | rfl) | rfl) | rfl <;> cases h

theorem Reads.settled (sep : Separable numeral) (h : Reads numeral s (.datum d) r) :
    Settled s := by
  obtain ⟨c, rest, rfl, opens⟩ := h.opens sep
  intro c' rest' same
  cases same
  exact not_space_of_opening? opens

/-- There is no other reading of a text as a phrase of the sort. -/
def Unique (numeral : List Char → Prop) (s : List Char) (r : List Char) : Phrase → Prop
  | .datum d => ∀ d' r', Reads numeral s (.datum d') r' → Stops r → Stops r' → d = d' ∧ r = r'
  | .item d => ∀ d' r', Reads numeral s (.item d') r' → Ends r → Ends r' → d = d' ∧ r = r'
  | .member name d => ∀ name' d' r', Reads numeral s (.member name' d') r' → Ends r → Ends r' →
      name = name' ∧ d = d' ∧ r = r'
  | .items ds => ∀ ds' t t', Reads numeral s (.items ds') (']' :: t') → r = ']' :: t →
      ds = ds' ∧ t = t'
  | .members ms => ∀ ms' t t', Reads numeral s (.members ms') ('\x7d' :: t') → r = '\x7d' :: t →
      ms = ms' ∧ t = t'

/-- A text is parted at its first character that stops. -/
theorem append_unique (left : Solid t) (right : Solid u) (stops : Stops r) (stops' : Stops r')
    (same : t ++ r = u ++ r') : t = u ∧ r = r' := by
  induction t generalizing u with
  | nil =>
    cases u with
    | nil => exact ⟨rfl, same⟩
    | cons c rest =>
      have stop := stops c (rest ++ r') same
      rw [right c (List.mem_cons_self ..)] at stop
      cases stop
  | cons c rest ih =>
    cases u with
    | nil =>
      have stop := stops' c (rest ++ r) same.symm
      rw [left c (List.mem_cons_self ..)] at stop
      cases stop
    | cons c' rest' =>
      obtain ⟨rfl, others⟩ := List.cons.inj same
      obtain ⟨rfl, rests⟩ := ih (fun c inside => left c (List.mem_cons_of_mem _ inside))
        (fun c inside => right c (List.mem_cons_of_mem _ inside)) others
      exact ⟨rfl, rests⟩

theorem Reads.items_not_closed {ds : List Datum} (sep : Separable numeral)
    (h : Reads numeral s (.items ds) r) (closed : Spaces s (']' :: t)) : False := by
  have first {d : Datum} {u : List Char} (h : Reads numeral s (.item d) u) : False := by
    cases h with
    | item before h _ =>
      obtain rfl := before.unique closed (h.settled sep) (settled_cons rfl)
      obtain ⟨c, rest, same, opens⟩ := h.opens sep
      cases same
      cases opens
  cases h with
  | lastItem h | nextItem h _ => exact first h

theorem Reads.members_not_closed {ms : List (List Nat × Datum)}
    (h : Reads numeral s (.members ms) r) (closed : Spaces s ('\x7d' :: t)) : False := by
  have first {name : List Nat} {d : Datum} {u : List Char}
      (h : Reads numeral s (.member name d) u) : False := by
    cases h with
    | member before => cases before.unique closed (settled_cons rfl) (settled_cons rfl)
  cases h with
  | lastMember h | nextMember h _ => exact first h

theorem Reads.unique (sep : Separable numeral) (h : Reads numeral s p r) :
    Unique numeral s r p := by
  -- How a text begins tells the sort of the datum, and what follows tells where it ends.
  induction h with
  | null | true | false =>
    intro d' r' h' _ _
    have same := Reads.opening_eq sep (by constructor) h'
    cases d' <;> cases same
    cases h'
    exact ⟨rfl, rfl⟩
  | number h parts =>
    intro d' r' h' stops stops'
    have same := Reads.opening_eq sep (.number h parts) h'
    cases d' <;> cases same
    cases h' with
    | number h' parts' =>
      obtain ⟨rfl, rfl⟩ := append_unique (sep.solid _ h) (sep.solid _ h') stops stops'
        (parts.symm.trans parts')
      exact ⟨rfl, rfl⟩
  | string h =>
    intro d' r' h' _ _
    have same := Reads.opening_eq sep (.string h) h'
    cases d' <;> cases same
    cases h' with
    | string h' =>
      obtain ⟨rfl, rfl⟩ := h.unique h'
      exact ⟨rfl, rfl⟩
  | emptyArray h =>
    intro d' r' h' _ _
    have same := Reads.opening_eq sep (.emptyArray h) h'
    cases d' <;> cases same
    cases h' with
    | emptyArray h' =>
      cases h.unique h' (settled_cons rfl) (settled_cons rfl)
      exact ⟨rfl, rfl⟩
    | array h' => exact (h'.items_not_closed sep h).elim
  | array h ih =>
    intro d' r' h' _ _
    have same := Reads.opening_eq sep (.array h) h'
    cases d' <;> cases same
    cases h' with
    | emptyArray h' => exact (h.items_not_closed sep h').elim
    | array h' =>
      obtain ⟨rfl, rfl⟩ := ih _ _ _ h' rfl
      exact ⟨rfl, rfl⟩
  | emptyObject h =>
    intro d' r' h' _ _
    have same := Reads.opening_eq sep (.emptyObject h) h'
    cases d' <;> cases same
    cases h' with
    | emptyObject h' =>
      cases h.unique h' (settled_cons rfl) (settled_cons rfl)
      exact ⟨rfl, rfl⟩
    | object h' => exact (h'.members_not_closed h).elim
  | object h ih =>
    intro d' r' h' _ _
    have same := Reads.opening_eq sep (.object h) h'
    cases d' <;> cases same
    cases h' with
    | emptyObject h' => exact (h.members_not_closed h').elim
    | object h' =>
      obtain ⟨rfl, rfl⟩ := ih _ _ _ h' rfl
      exact ⟨rfl, rfl⟩
  | item before h after ih =>
    intro d' r' h' ends ends'
    cases h' with
    | item before' h' after' =>
      obtain rfl := before.unique before' (h.settled sep) (h'.settled sep)
      obtain ⟨rfl, rfl⟩ := ih _ _ h' (after.stops ends.stops) (after'.stops ends'.stops)
      exact ⟨rfl, after.unique after' ends.settled ends'.settled⟩
  | lastItem h ih =>
    rintro ds' t t' h' rfl
    cases h' with
    | lastItem h' =>
      obtain ⟨rfl, same⟩ := ih _ _ h' (ends_cons rfl) (ends_cons rfl)
      cases same
      exact ⟨rfl, rfl⟩
    | nextItem h' => cases (ih _ _ h' (ends_cons rfl) (ends_cons rfl)).2
  | nextItem h rest ih others =>
    rintro ds' t t' h' rfl
    cases h' with
    | lastItem h' => cases (ih _ _ h' (ends_cons rfl) (ends_cons rfl)).2
    | nextItem h' rest' =>
      obtain ⟨rfl, same⟩ := ih _ _ h' (ends_cons rfl) (ends_cons rfl)
      cases same
      obtain ⟨rfl, rfl⟩ := others _ _ _ rest' rfl
      exact ⟨rfl, rfl⟩
  | member before name colon _ ih =>
    intro name' d' r' h' ends ends'
    cases h' with
    | member before' name' colon' h' =>
      cases before.unique before' (settled_cons rfl) (settled_cons rfl)
      obtain ⟨rfl, rfl⟩ := name.unique name'
      cases colon.unique colon' (settled_cons rfl) (settled_cons rfl)
      exact ⟨rfl, ih _ _ h' ends ends'⟩
  | lastMember h ih =>
    rintro ms' t t' h' rfl
    cases h' with
    | lastMember h' =>
      obtain ⟨rfl, rfl, same⟩ := ih _ _ _ h' (ends_cons rfl) (ends_cons rfl)
      cases same
      exact ⟨rfl, rfl⟩
    | nextMember h' => cases (ih _ _ _ h' (ends_cons rfl) (ends_cons rfl)).2.2
  | nextMember h rest ih others =>
    rintro ms' t t' h' rfl
    cases h' with
    | lastMember h' => cases (ih _ _ _ h' (ends_cons rfl) (ends_cons rfl)).2.2
    | nextMember h' rest' =>
      obtain ⟨rfl, rfl, same⟩ := ih _ _ _ h' (ends_cons rfl) (ends_cons rfl)
      cases same
      obtain ⟨rfl, rfl⟩ := others _ _ _ rest' rfl
      exact ⟨rfl, rfl⟩

/-! ### Numerals -/

theorem Reads.of_numerals {numeral' : List Char → Prop} (h : Reads numeral s p r)
    (all : ∀ n ∈ p.numerals, numeral' n) : Reads numeral' s p r := by
  induction h with
  | null => exact .null
  | true => exact .true
  | false => exact .false
  | number _ parts => exact .number (all _ (List.mem_singleton_self _)) parts
  | string h => exact .string h
  | emptyArray h => exact .emptyArray h
  | array _ ih => exact .array (ih all)
  | emptyObject h => exact .emptyObject h
  | object _ ih => exact .object (ih all)
  | item before _ after ih => exact .item before (ih all) after
  | member before name colon _ ih => exact .member before name colon (ih all)
  | lastItem _ ih => exact .lastItem (ih fun n inside => all n (List.mem_append_left _ inside))
  | nextItem _ _ ih others =>
    exact .nextItem (ih fun n inside => all n (List.mem_append_left _ inside))
      (others fun n inside => all n (List.mem_append_right _ inside))
  | lastMember _ ih =>
    exact .lastMember (ih fun n inside => all n (List.mem_append_left _ inside))
  | nextMember _ _ ih others =>
    exact .nextMember (ih fun n inside => all n (List.mem_append_left _ inside))
      (others fun n inside => all n (List.mem_append_right _ inside))

theorem Reads.numeral_of_mem (h : Reads numeral s p r) : ∀ n ∈ p.numerals, numeral n := by
  induction h with
  | null | true | false | string | emptyArray | emptyObject => nofun
  | number h =>
    intro n inside
    rwa [List.mem_singleton.mp inside]
  | array _ ih | object _ ih | item _ _ _ ih | member _ _ _ _ ih => exact ih
  | lastItem _ ih =>
    intro n inside
    rw [Phrase.numerals, itemsNumerals, itemsNumerals, List.append_nil] at inside
    exact ih n inside
  | lastMember _ ih =>
    intro n inside
    rw [Phrase.numerals, membersNumerals, membersNumerals, List.append_nil] at inside
    exact ih n inside
  | nextItem _ _ ih others | nextMember _ _ ih others =>
    intro n inside
    exact (List.mem_append.mp inside).elim (ih n) (others n)

theorem Whole.digits (h : Whole t) : Digits t := by
  rcases h with rfl | ⟨digits, _⟩
  · exact ⟨List.cons_ne_nil _ _, List.forall_mem_singleton.mpr rfl⟩
  · exact digits

theorem Numeral.characters (h : Numeral t) :
    ∀ c ∈ t, c.isDigit = true ∨ c ∈ ['-', '+', '.', 'e', 'E'] := by
  obtain ⟨sign, whole, fraction, exponent, signed, counted, parted, raised, rfl⟩ := h
  intro c inside
  simp only [List.mem_append, or_assoc] at inside
  rcases inside with inside | inside | inside | inside
  · rcases signed with rfl | rfl
    · cases inside
    · rw [List.mem_singleton.mp inside]
      exact .inr (by decide)
  · exact .inl (counted.digits.2 c inside)
  · rcases parted with rfl | ⟨digits, each, rfl⟩
    · cases inside
    · rcases List.mem_cons.mp inside with rfl | inside
      · exact .inr (by decide)
      · exact .inl (each.2 c inside)
  · rcases raised with rfl | ⟨mark, sign, digits, marked, signed, each, rfl⟩
    · cases inside
    · rcases List.mem_cons.mp inside with rfl | inside
      · rcases marked with rfl | rfl <;> exact .inr (by decide)
      rcases List.mem_append.mp inside with inside | inside
      · rcases signed with rfl | rfl | rfl
        · cases inside
        all_goals
          rw [List.mem_singleton.mp inside]
          exact .inr (by decide)
      · exact .inl (each.2 c inside)

theorem not_stop_of_isDigit {c : Char} (digit : c.isDigit = true) : isStop c = false := by
  by_contra stop
  simp only [isStop, isSpace, isEnd, Bool.not_eq_false, Bool.or_eq_true, decide_eq_true_eq] at stop
  rcases stop with (((rfl | rfl) | rfl) | rfl) | (rfl | rfl) | rfl <;> cases digit

theorem opening?_of_isDigit {c : Char} (digit : c.isDigit = true) :
    opening? c = some .number := by
  unfold opening?
  split
  all_goals first
    | cases digit
    | rw [digit, Bool.or_true, Bool.true_or, Bool.true_or, if_pos rfl]

theorem Numeral.starts (h : Numeral t) : ∃ c rest, t = c :: rest ∧ opening? c = some .number := by
  obtain ⟨sign, whole, fraction, exponent, signed, counted, -, -, rfl⟩ := h
  obtain ⟨filled, each⟩ := counted.digits
  obtain ⟨first, others, rfl⟩ := List.exists_cons_of_ne_nil filled
  rcases signed with rfl | rfl
  · exact ⟨first, _, rfl, opening?_of_isDigit (each first (List.mem_cons_self ..))⟩
  · exact ⟨'-', _, rfl, rfl⟩

theorem separable_numeralOrName : Separable NumeralOrName where
  starts t h := by
    rcases h with numeral | rfl | rfl | rfl
    · exact numeral.starts
    all_goals exact ⟨_, _, rfl, rfl⟩
  solid t h := by
    have marks : Solid ['-', '+', '.', 'e', 'E'] := by decide
    rcases h with numeral | rfl | rfl | rfl
    · intro c inside
      exact (numeral.characters c inside).elim not_stop_of_isDigit (marks c)
    all_goals decide

theorem Denotes.reads {s : String} (h : Denotes s d) :
    Reads NumeralOrName s.toList (.item d) [] :=
  h.of_numerals fun n inside => .inl (h.numeral_of_mem n inside)

theorem reads_item_unique (h : Reads NumeralOrName s (.item d) [])
    (h' : Reads NumeralOrName s (.item d') []) : d = d' :=
  (h.unique separable_numeralOrName d' [] h' nofun nofun).1

/-- **A text stands for one datum at most.** -/
theorem denotes_unique {s : String} (h : Denotes s d) (h' : Denotes s d') : d = d' :=
  reads_item_unique h.reads h'.reads

end Permit.Log.Json
