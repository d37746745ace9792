import Mathlib.Data.Nat.Digits.Defs
import Permit.Proofs.Constraint.Index

/-!
The fields that a pattern stands for, said without the list in which they are gathered. A choice
of an element for each `*` that lands on a sequence (`Choice`) makes a place of the segments of a
pattern (`fill`), and the value of the field is what the data hold along it (`along?`).

Segments are followed from a list of fields by following them from each (`followAll_append`). So
what one field leads to can be said by itself, segment by segment (`followAll_listing`): the
choices in increasing order, and for each the field that it makes (`Listing`). In data of JSON
there is along a place what the data hold at it (`along?_of_at?`).

Main statement: a pattern that resolves does so to its instances, each once and in the order of
the elements that are chosen, and each instance resolves to itself (`fields_instances`).
-/
namespace Permit

namespace Number

theorem isNumeral_of_readPosition {s : String} {n : Nat} (some : s ≠ "")
    (run : readPosition s = .ok n) : Path.IsNumeral s ∧ n = numeralValue s := by
  simp only [readPosition] at run
  split at run
  · cases run
  · split at run
    next _ long =>
      have all := (List.takeWhile_prefix _).eq_of_length long
      exact ⟨⟨some, List.takeWhile_eq_self_iff.mp all⟩, (Except.ok.inj run).symm⟩
    next => cases run

theorem length_natText_le {i : Nat} (small : i < 10 ^ digitLimit) :
    (natText i).length ≤ digitLimit := by
  rw [natText, String.length_ofList]
  exact Nat.toDigits_length 10 i digitLimit (by decide) small

end Number

/-- What a value holds under a segment: a mapping the value of its entry, a sequence the element
at the position that the segment denotes. -/
def Value.under? (v : Value) (segment : String) : Option Value :=
  match v with
  | .map entries => Value.field? entries segment
  | other => other.items?.bind fun items =>
    if Path.IsNumeral segment then items[Number.numeralValue segment]? else none

namespace Constraint

def along? (held : Option Value) : List String → Option Value
  | [] => held
  | segment :: place => along? (held.bind fun v => v.under? segment) place

/-- A choice of an element for each `*` among segments. A `*` that lands on anything else than a
sequence leaves no choice. -/
inductive Choice : List String → Option Value → List Nat → Prop where
  | nil {held : Option Value} : Choice [] held []
  | name {segment : String} {pattern : List String} {held : Option Value} {choice : List Nat} :
      segment ≠ Path.wildcard → Choice pattern (held.bind fun v => v.under? segment) choice →
      Choice (segment :: pattern) held choice
  | element {pattern : List String} {v w : Value} {items : List Value} {index : Nat}
      {choice : List Nat} :
      v.items? = some items → items[index]? = some w → Choice pattern (some w) choice →
      Choice (Path.wildcard :: pattern) (some v) (index :: choice)

/-- Segments with each `*` replaced by the numeral of the element chosen for it. -/
def fill : List String → List Nat → List String
  | [], _ => []
  | segment :: pattern, choice =>
    if segment = Path.wildcard then
      choice.head?.elim segment Number.natText :: fill pattern choice.tail
    else segment :: fill pattern choice

/-- The field that a choice makes of segments, followed after some others from what is held. -/
def instanceOf (done pattern : List String) (held : Option Value) (choice : List Nat) : Field :=
  ⟨Path.ofSegments (done ++ fill pattern choice), along? held (fill pattern choice)⟩

variable {held : Option Value} {v w : Value} {items : List Value} {segment key : String}
  {pattern done place : List String} {choice choice' : List Nat} {index : Nat} {out : List Field}

/-! ### Choices -/

theorem fill_name (named : segment ≠ Path.wildcard) :
    fill (segment :: pattern) choice = segment :: fill pattern choice := by
  rw [fill, if_neg named]

theorem fill_element :
    fill (Path.wildcard :: pattern) (index :: choice) =
      Number.natText index :: fill pattern choice := by
  rw [fill, if_pos rfl]
  rfl

/-- A segment of a filled pattern is one of the pattern or a numeral. -/
theorem mem_fill (inside : key ∈ fill pattern choice) :
    key ∈ pattern ∨ ∃ index, key = Number.natText index := by
  induction pattern generalizing choice with
  | nil => cases inside
  | cons segment pattern ih =>
    rw [fill] at inside
    split at inside
    · rcases List.mem_cons.mp inside with rfl | inside
      · cases choice with
        | nil => exact .inl (List.mem_cons_self ..)
        | cons index others => exact .inr ⟨index, rfl⟩
      · exact (ih inside).imp_left (List.mem_cons_of_mem _)
    · rcases List.mem_cons.mp inside with rfl | inside
      · exact .inl (List.mem_cons_self ..)
      · exact (ih inside).imp_left (List.mem_cons_of_mem _)

theorem fill_ne_nil (some : pattern ≠ []) : fill pattern choice ≠ [] := by
  cases pattern with
  | nil => exact absurd rfl some
  | cons segment pattern =>
    rw [fill]
    split <;> exact List.cons_ne_nil _ _

theorem Choice.eq_of_fill {held' : Option Value} (h : Choice pattern held choice)
    (h' : Choice pattern held' choice') (same : fill pattern choice = fill pattern choice') :
    choice = choice' := by
  induction h generalizing held' choice' with
  | nil =>
    cases h'
    rfl
  | name named _ ih =>
    cases h' with
    | name _ rest =>
      rw [fill_name named, fill_name named] at same
      exact ih rest (List.cons.inj same).2
    | element => exact absurd rfl named
  | element _ _ _ ih =>
    cases h' with
    | name named _ => exact absurd rfl named
    | element _ _ rest =>
      rw [fill_element, fill_element] at same
      obtain ⟨first, others⟩ := List.cons.inj same
      rw [Number.natText_inj first, ih rest others]

/-! ### Following -/

theorem under?_sequence (sequence : v.items? = some items) :
    v.under? segment =
      if Path.IsNumeral segment then items[Number.numeralValue segment]? else none := by
  cases v <;> cases sequence <;> rfl

theorem eq_under?_of_step? {found : Option Value} (run : step? segment held = .ok found) :
    found = held.bind fun v => v.under? segment := by
  cases held with
  | none =>
    cases run
    rfl
  | some v =>
    cases sequence : v.items? with
    | none =>
      cases v with
      | map entries =>
        cases run
        rfl
      | list _ | tuple _ => cases sequence
      | _ =>
        cases run
        rfl
    | some items =>
      rw [Option.bind_some, under?_sequence sequence]
      rw [step?_sequence sequence] at run
      split at run
      next digits =>
        have some := (allDigits_iff.mp digits).1
        split at run
        next n position =>
          obtain ⟨numeral, rfl⟩ := Number.isNumeral_of_readPosition some position
          rw [if_pos numeral]
          exact (Except.ok.inj run).symm
        next => cases run
      next other =>
        rw [if_neg]
        · exact (Except.ok.inj run).symm
        · intro numeral
          exact other (allDigits_iff.mpr
            ⟨numeral.1, fun c member => isDigit_of_isDecimal (numeral.2 c member)⟩)

/-- Under the numeral of a position a sequence holds the element there. -/
theorem under?_natText (sequence : v.items? = some items) :
    v.under? (Number.natText index) = items[index]? := by
  rw [under?_sequence sequence, if_pos (Path.isNumeral_natText index), Number.numeralValue_natText]

theorem under?_part (json : v.isJson = true) (found : Keyed.find? v.parts key = some w) :
    v.under? key = some w := by
  cases v, json using Value.isJson_induction with
  | scalar v json plain =>
    rw [Value.parts_of_scalar plain] at found
    cases found
  | list items _ _ =>
    obtain ⟨index, numeral, given⟩ :=
      Diff.exists_index_of_mem_positions (Keyed.mem_of_find? found)
    rw [Nat.zero_add] at numeral
    change key = Number.natText index at numeral
    rw [numeral, under?_natText rfl, given]
  | record fields _ _ _ =>
    rw [Value.parts_record] at found
    rw [← found, ← Value.field?_fields]
    rfl

/-- **Along a place** there is what the data hold at it. A numeral that is not the one of a
position, such as one with a zero in front, leads to an element too. -/
theorem along?_of_at? (json : v.isJson = true) (held : v.at? place = some w) :
    along? (some v) place = some w := by
  induction place generalizing v with
  | nil => exact held
  | cons key place ih =>
    obtain ⟨part, found, held⟩ := Value.at?_cons.mp held
    rw [along?, Option.bind_some, under?_part json found]
    exact ih (Value.isJson_part json found) held

theorem follow_name (named : segment ≠ Path.wildcard) (filled : "" ∉ done) {led : List Field}
    (run : follow segment ⟨Path.ofSegments done, held⟩ = .ok led) :
    led = [⟨Path.ofSegments (done ++ [segment]), held.bind fun v => v.under? segment⟩] := by
  rw [follow, if_neg named] at run
  obtain ⟨found, step, same⟩ := Outcome.bind_eq_ok_iff.mp run
  cases same
  rw [← eq_under?_of_step? step, ← extend_ofSegments filled]

theorem follow_natText (filled : "" ∉ done) (sequence : v.items? = some items)
    (given : items[index]? = some w) (small : index < 10 ^ Number.digitLimit) :
    follow (Number.natText index) ⟨Path.ofSegments done, some v⟩ =
      .ok [⟨Path.ofSegments (done ++ [Number.natText index]), some w⟩] := by
  have step := step?_numeral sequence (Path.isNumeral_natText index)
    (Number.length_natText_le small)
  rw [Number.numeralValue_natText, given] at step
  rw [follow_of_step? (Number.natText_ne_wildcard index) step, extend_ofSegments filled]

theorem followAll_cons {field : Field} :
    followAll (segment :: pattern) [field] = .ok out ↔
      ∃ led, follow segment field = .ok led ∧ followAll pattern led = .ok out := by
  rw [followAll, Outcome.bind_eq_ok_iff]
  constructor
  · rintro ⟨next, step, run⟩
    obtain ⟨led, others, first, none, rfl⟩ := Outcome.mapM_cons_eq_ok_iff.mp step
    cases none
    exact ⟨led, first, by simpa using run⟩
  · rintro ⟨led, first, run⟩
    have step := Outcome.mapM_cons_eq_ok_iff.mpr ⟨led, [], first, List.mapM_nil, rfl⟩
    exact ⟨[led], step, by simpa using run⟩

theorem followAll_append {xs ys : List Field} (run : followAll pattern (xs ++ ys) = .ok out) :
    ∃ first second, followAll pattern xs = .ok first ∧ followAll pattern ys = .ok second ∧
      out = first ++ second := by
  induction pattern generalizing xs ys with
  | nil =>
    cases run
    exact ⟨xs, ys, rfl, rfl, rfl⟩
  | cons segment pattern ih =>
    obtain ⟨next, step, run⟩ := Outcome.bind_eq_ok_iff.mp run
    rw [List.mapM_append] at step
    obtain ⟨led, first, step⟩ := Outcome.bind_eq_ok_iff.mp step
    obtain ⟨led', second, same⟩ := Outcome.bind_eq_ok_iff.mp step
    cases same
    rw [List.flatten_append] at run
    obtain ⟨out, out', left, right, rfl⟩ := ih run
    exact ⟨out, out', Outcome.bind_eq_ok_iff.mpr ⟨led, first, left⟩,
      Outcome.bind_eq_ok_iff.mpr ⟨led', second, right⟩, rfl⟩

theorem followAll_nil (pattern : List String) : followAll pattern [] = .ok [] := by
  induction pattern with
  | nil => rfl
  | cons segment pattern ih => exact ih

/-! ### Instances -/

structure Listing (done pattern : List String) (held : Option Value) (chosen : List Nat → Prop)
    (choices : List (List Nat)) (out : List Field) : Prop where
  increasing : choices.Pairwise (· < ·)
  mem_iff : ∀ choice, choice ∈ choices ↔ chosen choice
  listed : out = choices.map (instanceOf done pattern held)
  /-- The place that a choice makes leads to the field of the choice. -/
  again : ∀ choice ∈ choices, (∀ index ∈ choice, index < 10 ^ Number.digitLimit) →
    followAll (fill pattern choice) [⟨Path.ofSegments done, held⟩] =
      .ok [instanceOf done pattern held choice]

namespace Listing

variable {chosen chosen' : List Nat → Prop} {choices choices' : List (List Nat)}
  {out' : List Field}

theorem congr (h : Listing done pattern held chosen choices out)
    (same : ∀ choice, chosen choice ↔ chosen' choice) :
    Listing done pattern held chosen' choices out :=
  ⟨h.increasing, fun choice => (h.mem_iff choice).trans (same choice), h.listed, h.again⟩

theorem empty (none : ∀ choice, ¬ chosen choice) : Listing done pattern held chosen [] [] := by
  constructor
  · exact .nil
  · intro choice
    exact iff_of_false List.not_mem_nil (none choice)
  · rfl
  · intro choice inside
    cases inside

theorem append (h : Listing done pattern held chosen choices out)
    (h' : Listing done pattern held chosen' choices' out')
    (before : ∀ choice choice', chosen choice → chosen' choice' → choice < choice') :
    Listing done pattern held (fun choice => chosen choice ∨ chosen' choice)
      (choices ++ choices') (out ++ out') := by
  constructor
  · apply List.pairwise_append.mpr
    refine ⟨h.increasing, h'.increasing, fun choice inside choice' inside' => ?_⟩
    exact before choice choice' ((h.mem_iff choice).mp inside) ((h'.mem_iff choice').mp inside')
  · intro choice
    rw [List.mem_append, h.mem_iff, h'.mem_iff]
  · rw [List.map_append, ← h.listed, ← h'.listed]
  · intro choice inside
    rcases List.mem_append.mp inside with inside | inside
    · exact h.again choice inside
    · exact h'.again choice inside

theorem name (named : segment ≠ Path.wildcard) {led : List Field} (filled : "" ∉ done)
    (run : follow segment ⟨Path.ofSegments done, held⟩ = .ok led)
    (h : Listing (done ++ [segment]) pattern (held.bind fun v => v.under? segment) chosen
      choices out) :
    Listing done (segment :: pattern) held chosen choices out := by
  have made (choice : List Nat) :
      instanceOf (done ++ [segment]) pattern (held.bind fun v => v.under? segment) choice =
        instanceOf done (segment :: pattern) held choice := by
    rw [instanceOf, instanceOf, fill_name named, List.append_assoc, List.singleton_append, along?]
  constructor
  · exact h.increasing
  · exact h.mem_iff
  · rw [h.listed]
    exact List.map_congr_left fun choice _ => made choice
  · intro choice inside small
    have again := h.again choice inside small
    rw [made] at again
    rw [follow_name named filled run] at run
    rw [fill_name named]
    exact followAll_cons.mpr ⟨_, run, again⟩

theorem element (sequence : v.items? = some items) (given : items[index]? = some w)
    (filled : "" ∉ done)
    (h : Listing (done ++ [Number.natText index]) pattern (some w) chosen choices out) :
    Listing done (Path.wildcard :: pattern) (some v)
      (fun choice => ∃ others, choice = index :: others ∧ chosen others)
      (choices.map (index :: ·)) out := by
  have made (others : List Nat) :
      instanceOf (done ++ [Number.natText index]) pattern (some w) others =
        instanceOf done (Path.wildcard :: pattern) (some v) (index :: others) := by
    rw [instanceOf, instanceOf, fill_element, List.append_assoc, List.singleton_append, along?,
      Option.bind_some, under?_natText sequence, given]
  constructor
  · apply List.pairwise_map.mpr
    exact h.increasing.imp fun less => List.cons_lt_cons_iff.mpr (.inr ⟨rfl, less⟩)
  · intro choice
    rw [List.mem_map]
    constructor
    · rintro ⟨others, inside, rfl⟩
      exact ⟨others, rfl, (h.mem_iff others).mp inside⟩
    · rintro ⟨others, rfl, chosen⟩
      exact ⟨others, (h.mem_iff others).mpr chosen, rfl⟩
  · rw [h.listed, List.map_map]
    exact List.map_congr_left fun others _ => made others
  · intro choice inside small
    obtain ⟨others, member, rfl⟩ := List.mem_map.mp inside
    obtain ⟨first, small⟩ := List.forall_mem_cons.mp small
    have again := h.again others member small
    rw [made] at again
    rw [fill_element]
    exact followAll_cons.mpr ⟨_, follow_natText filled sequence given first, again⟩

end Listing

/-- Choices that begin with an element of a sequence, from some position on. -/
def ChosenFrom (start : Nat) (items : List Value) (pattern : List String) (choice : List Nat) :
    Prop :=
  ∃ index others w, choice = index :: others ∧ start ≤ index ∧ items[index]? = some w ∧
    Choice pattern (some w) others

/-- The elements from some position on are the one there and those after it. -/
theorem chosenFrom_iff {start : Nat} (given : items[start]? = some w) :
    ((∃ others, choice = start :: others ∧ Choice pattern (some w) others) ∨
      ChosenFrom (start + 1) items pattern choice) ↔ ChosenFrom start items pattern choice := by
  constructor
  · rintro (⟨others, rfl, chosen⟩ | ⟨index, others, x, rfl, later, given', chosen⟩)
    · exact ⟨start, others, w, rfl, Nat.le_refl _, given, chosen⟩
    · exact ⟨index, others, x, rfl, by omega, given', chosen⟩
  · rintro ⟨index, others, x, rfl, later, given', chosen⟩
    by_cases first : index = start
    · subst first
      rw [given] at given'
      cases given'
      exact .inl ⟨others, rfl, chosen⟩
    · exact .inr ⟨index, others, x, rfl, by omega, given', chosen⟩

theorem chosenFrom_zero (sequence : v.items? = some items) :
    ChosenFrom 0 items pattern choice ↔ Choice (Path.wildcard :: pattern) (some v) choice := by
  constructor
  · rintro ⟨index, others, w, rfl, _, given, chosen⟩
    exact .element sequence given chosen
  · intro h
    cases h with
    | name named _ => exact absurd rfl named
    | element sequence' given chosen =>
      rw [sequence] at sequence'
      cases sequence'
      exact ⟨_, _, _, rfl, Nat.zero_le _, given, chosen⟩

/-- The fields of all elements of a sequence from some position on. -/
theorem elements_listing (sequence : v.items? = some items) (filled : "" ∉ done)
    (each : ∀ index w out, items[index]? = some w →
      followAll pattern [⟨Path.ofSegments (done ++ [Number.natText index]), some w⟩] = .ok out →
      ∃ choices, Listing (done ++ [Number.natText index]) pattern (some w)
        (Choice pattern (some w)) choices out) :
    ∀ (rest : List Value) (start : Nat) {out : List Field}, items.drop start = rest →
      followAll pattern (elementFields (Path.ofSegments done) start rest) = .ok out →
      ∃ choices, Listing done (Path.wildcard :: pattern) (some v)
        (ChosenFrom start items pattern) choices out := by
  intro rest
  induction rest with
  | nil =>
    intro start out last run
    rw [elementFields, followAll_nil] at run
    cases run
    refine ⟨[], .empty ?_⟩
    rintro _ ⟨index, others, w, _, later, given, _⟩
    have inside := (List.getElem?_eq_some_iff.mp given).1
    have short := List.drop_eq_nil_iff.mp last
    omega
  | cons w rest ih =>
    intro start out last run
    have given : items[start]? = some w := by
      have first := @List.getElem?_drop _ items start 0
      rw [last] at first
      exact first.symm
    have others : items.drop (start + 1) = rest := by
      rw [← List.tail_drop, last, List.tail_cons]
    rw [elementFields, ← List.singleton_append, extend_ofSegments filled] at run
    obtain ⟨first, second, left, right, rfl⟩ := followAll_append run
    obtain ⟨choices, own⟩ := each start w first given left
    obtain ⟨choices', later⟩ := ih (start + 1) others right
    have all := (own.element sequence given filled).append later ?_
    · exact ⟨_, all.congr fun choice => chosenFrom_iff given⟩
    · rintro _ _ ⟨tail, rfl, _⟩ ⟨index, tail', x, rfl, later, _⟩
      exact List.cons_lt_cons_iff.mpr (.inl (Nat.lt_of_succ_le later))

/-- **Following a pattern.** The segments of a pattern, followed from a field, lead to what all
choices make of them. -/
theorem followAll_listing {pattern : List String} : ∀ {done : List String} {held : Option Value}
    {out : List Field}, "" ∉ done ++ pattern →
    followAll pattern [⟨Path.ofSegments done, held⟩] = .ok out →
    ∃ choices, Listing done pattern held (Choice pattern held) choices out := by
  induction pattern with
  | nil =>
    intro done held out _ run
    cases run
    have made : instanceOf done [] held [] = ⟨Path.ofSegments done, held⟩ := by
      rw [instanceOf, fill, List.append_nil, along?]
    refine ⟨[[]], List.pairwise_singleton _ _, fun choice => ?_, ?_, ?_⟩
    · rw [List.mem_singleton]
      constructor
      · rintro rfl
        exact .nil
      · intro h
        cases h
        rfl
    · rw [List.map_singleton, made]
    · intro choice inside _
      rw [List.mem_singleton.mp inside, made]
      rfl
  | cons segment pattern ih =>
    intro done held out filled follows
    obtain ⟨led, step, run⟩ := followAll_cons.mp follows
    have before : "" ∉ done := fun inside => filled (List.mem_append_left _ inside)
    have after {other : String} (some : other ≠ "") : "" ∉ (done ++ [other]) ++ pattern := by
      simp only [List.mem_append, List.mem_cons, not_or] at filled ⊢
      exact ⟨⟨before, some.symm, List.not_mem_nil⟩, filled.2.2⟩
    by_cases all : segment = Path.wildcard
    · subst all
      rw [follow, if_pos rfl] at step
      cases step
      cases sequence : held.bind Value.items? with
      | none =>
        simp only [sequence, followAll_nil, Except.ok.injEq] at run
        subst run
        refine ⟨[], .empty fun choice h => ?_⟩
        cases h with
        | name named _ => exact absurd rfl named
        | element sequence' _ _ =>
          rw [Option.bind_some, sequence'] at sequence
          cases sequence
      | some items =>
        simp only [sequence] at run
        obtain ⟨v, rfl, sequence⟩ := Option.bind_eq_some_iff.mp sequence
        obtain ⟨choices, listing⟩ := elements_listing sequence before
          (fun index w out _ run => ih (after (Number.natText_ne_empty index)) run)
          items 0 List.drop_zero run
        exact ⟨choices, listing.congr fun choice => chosenFrom_zero sequence⟩
    · have some : segment ≠ "" := by
        rintro rfl
        exact filled (List.mem_append_right _ (List.mem_cons_self ..))
      have led_eq := follow_name all before step
      rw [led_eq] at run
      obtain ⟨choices, listing⟩ := ih (after some) run
      refine ⟨choices, (listing.name all before step).congr fun choice => ?_⟩
      constructor
      · exact .name all
      · intro h
        cases h with
        | name _ rest => exact rest
        | element => exact absurd rfl all

/-- The place that a choice makes of a pattern is read back from its path. -/
theorem segments_instanceOf (some : pattern ≠ [])
    (free : ∀ segment ∈ pattern, Path.DotFree segment) (held : Option Value) (choice : List Nat) :
    Path.segments (instanceOf [] pattern held choice).path = fill pattern choice := by
  rw [instanceOf, List.nil_append]
  apply Path.segments_ofSegments (fill_ne_nil some)
  intro key inside
  rcases mem_fill inside with member | ⟨index, rfl⟩
  · exact free key member
  · exact Number.dotFree_natText index

/-- **The instances of a pattern.** Let a pattern without empty segments resolve in data. Its fields
are those that the choices of an element for each `*` that lands on a sequence make of it, in the
lexicographic order of the choices: under the pattern with each `*` replaced by the numeral of the
element, what the data hold there, if anything. No two fields share a path, and resolving the path
of one gives that field alone, if the positions in it are not too long to be read. -/
theorem fields_instances {data : Value} {pattern : String} {out : List Field}
    (filled : "" ∉ Path.segments pattern) (run : fields data pattern = .ok out) :
    ∃ choices : List (List Nat), choices.Pairwise (· < ·) ∧
      (∀ choice, choice ∈ choices ↔ Choice (Path.segments pattern) (some data) choice) ∧
      out = choices.map (fun choice =>
        ⟨Path.ofSegments (fill (Path.segments pattern) choice),
          along? (some data) (fill (Path.segments pattern) choice)⟩) ∧
      (out.map (·.path)).Nodup ∧
      ∀ choice ∈ choices, (∀ index ∈ choice, index < 10 ^ Number.digitLimit) →
        fields data (Path.ofSegments (fill (Path.segments pattern) choice)) =
          .ok [⟨Path.ofSegments (fill (Path.segments pattern) choice),
            along? (some data) (fill (Path.segments pattern) choice)⟩] := by
  have start : (⟨"", some data⟩ : Field) = ⟨Path.ofSegments [], some data⟩ := rfl
  have named : "" ∉ [] ++ Path.segments pattern := by rwa [List.nil_append]
  rw [fields, start] at run
  obtain ⟨choices, listing⟩ := followAll_listing named run
  have read := @segments_instanceOf (Path.segments pattern) (Path.segments_ne_nil pattern)
    (fun _ => Path.dotFree_of_mem_segments) (some data)
  refine ⟨choices, listing.increasing, listing.mem_iff, listing.listed, ?_, ?_⟩
  · have once : choices.Nodup := listing.increasing.imp fun less same => by
      subst same
      exact List.lt_irrefl _ less
    rw [listing.listed, List.map_map]
    apply once.map_on
    intro choice inside choice' inside' same
    have places := congrArg Path.segments same
    simp only [Function.comp_apply, read] at places
    exact ((listing.mem_iff choice).mp inside).eq_of_fill
      ((listing.mem_iff choice').mp inside') places
  · intro choice inside small
    have again := listing.again choice inside small
    rw [← read] at again
    exact again

/-- A `*` in each element of a list that a `*` stands for: one of the inner parts is no list, and
an element lacks what is asked for. -/
theorem fields_instances_nested :
    ∃ data out, data = Value.record [("u", .list [
        .record [("t", .list [.record [("n", .int 1)], .record []])], .record [("t", .text "z")]])] ∧
      "" ∉ Path.segments "u.*.t.*.n" ∧ fields data "u.*.t.*.n" = .ok out ∧
      out.map (·.path) = ["u.0.t.0.n", "u.0.t.1.n"] ∧
      out.map (·.value.isSome) = [true, false] ∧
      ∃ choices : List (List Nat), choices.Pairwise (· < ·) ∧
        (∀ choice, choice ∈ choices ↔
          Choice (Path.segments "u.*.t.*.n") (some data) choice) ∧
        out = choices.map (fun choice =>
          ⟨Path.ofSegments (fill (Path.segments "u.*.t.*.n") choice),
            along? (some data) (fill (Path.segments "u.*.t.*.n") choice)⟩) ∧
        (out.map (·.path)).Nodup ∧
        ∀ choice ∈ choices, (∀ index ∈ choice, index < 10 ^ Number.digitLimit) →
          fields data (Path.ofSegments (fill (Path.segments "u.*.t.*.n") choice)) =
            .ok [⟨Path.ofSegments (fill (Path.segments "u.*.t.*.n") choice),
              along? (some data) (fill (Path.segments "u.*.t.*.n") choice)⟩] := by
  let data : Value := .record [("u", .list [
    .record [("t", .list [.record [("n", .int 1)], .record []])], .record [("t", .text "z")]])]
  have filled : "" ∉ Path.segments "u.*.t.*.n" := by decide +kernel
  have resolved : (fields data "u.*.t.*.n").toOption.any (fun out =>
      decide (out.map (·.path) = ["u.0.t.0.n", "u.0.t.1.n"]) &&
        decide (out.map (·.value.isSome) = [true, false])) = true := by
    decide +kernel
  obtain ⟨out, run, told⟩ := Outcome.exists_of_any resolved
  obtain ⟨paths, values⟩ := Bool.and_eq_true_iff.mp told
  exact ⟨data, out, rfl, filled, run, of_decide_eq_true paths, of_decide_eq_true values,
    fields_instances filled run⟩

end Constraint
end Permit
