import Permit.Proofs.Authorization.Query
import Permit.Proofs.Constraint.Totality

/-!
Every way in which the check of a request can end. The check for fields of data of JSON
passes or rejects; the check for values reports every breach that an evaluation finds
(`ends_checkValues_of_breaches`) and otherwise stops at the fault of the evaluation. Main
statement: under sound definitions a check passes, rejects fields, rejects values, or stops
at a number that it cannot convert, and then an integer of the data is too large or a path
has digits that denote no position (`check_settled`).
-/
namespace Permit.Authorization

open Permit.Action Constraint

variable {s : Session} {permitted data : Value} {rules entries : List (Value × Value)}
  {tree : GrantTree} {breaches : List Breach} {reason : Prop}

/-- How a check may end: it passes, rejects, or, for a reason, stops at a number. -/
inductive Settled (reason : Prop) : Except Fault Unit → Prop where
  | passed : Settled reason (.ok ())
  | fields (messages : List FieldMessage) :
    Settled reason (.error (.violation { kind := .fields, messages }))
  | values (messages : List FieldMessage) :
    Settled reason (.error (.violation { kind := .values, messages }))
  | stopped (cause : Number.NumeralFault) : reason → Settled reason (.error (.numeral cause))

def breachMessage (b : Breach) : FieldMessage :=
  ⟨b.field, Validation.valueMessage b.field, some b.rule⟩

theorem messageOf_breach (b : Breach) : Validation.messageOf b.toValue = .ok (breachMessage b) :=
  rfl

theorem mapM_messageOf (breaches : List Breach) :
    (breaches.map Breach.toValue).mapM Validation.messageOf = .ok (breaches.map breachMessage) := by
  induction breaches with
  | nil => rfl
  | cons b rest ih =>
    rw [List.map_cons, List.mapM_cons, messageOf_breach, ih]
    rfl

/-- What the check for values ends with, given the breaches that are found. -/
def valuesVerdict (breaches : List Breach) : Except Fault Unit :=
  if breaches.isEmpty then .ok ()
  else .error (.violation { kind := .values, messages := breaches.map breachMessage })

theorem ends_checkValues_of_breaches
    (declares : normalize s.settings.defaultRule permitted = .ok (some rules))
    (found : evaluate s.rules [] .all (orEmpty data) (.map rules) = .ok breaches) :
    Ends (checkValues Evaluator.engine permitted data) s (valuesVerdict breaches) := by
  refine .after (run_declared declares) (ends_within ?_)
  let inquiry : Inquiry := { data := orEmpty data, rules := .map rules }
  have engine := @Evaluator.ends_engine
    { s with spans := s.spans.enter "field_policy.authorize_field_values" } .all inquiry
  rw [found] at engine
  cases breaches with
  | nil =>
    have executed : Ends (Validation.execute Evaluator.engine .all inquiry) _
        (.ok { inquiry, state := .executed }) := Validation.ends_execute engine
    exact executed.bind fun s₁ _ => Session.ends_recordAuthorization _ _ 0
  | cons b rest =>
    let failed : Validation :=
      { inquiry, state := .executed, errors := breachList (b :: rest) }
    have executed : Ends (Validation.execute Evaluator.engine .all inquiry) _ (.ok failed) :=
      Validation.ends_execute engine
    have messages : messagesOf failed = .ok ((b :: rest).map breachMessage) := by
      have report : failed.report =
          (((b :: rest).map Breach.toValue).mapM Validation.messageOf).map .messages := rfl
      rw [messagesOf, report, mapM_messageOf]
      rfl
    refine executed.bind fun s₁ _ => ?_
    have told : Ends (lift (messagesOf failed)) s₁ (.ok ((b :: rest).map breachMessage)) :=
      messages ▸ ends_lift _
    exact told.bind fun s₂ _ => ends_reject _ _ _ _

/-- A number that cannot be converted stops the check for values. -/
theorem ends_checkValues_of_numeral {cause : Number.NumeralFault}
    (declares : normalize s.settings.defaultRule permitted = .ok (some rules))
    (failed : evaluate s.rules [] .all (orEmpty data) (.map rules) = .error (.numeral cause)) :
    Ends (checkValues Evaluator.engine permitted data) s (.error (.numeral cause)) := by
  refine .after (run_declared declares) (ends_within ?_)
  have engine := @Evaluator.ends_engine
    { s with spans := s.spans.enter "field_policy.authorize_field_values" } .all
    { data := orEmpty data, rules := .map rules }
  rw [failed] at engine
  exact (Validation.ends_execute engine).bind_error

/-- Counting how a request fared does not change how it ends. -/
theorem ends_counted {action : Action Unit} {outcome : Except Fault Unit}
    (h : Ends action s outcome) : Ends (counted action) s outcome := by
  cases outcome with
  | ok =>
    exact (ends_tryCatch_ok h _).bind fun s₁ _ => Session.ends_recordAuthorization _ _ 0
  | error fault =>
    refine (ends_tryCatch_error h fun s₁ _ => ?_).bind_error
    cases fault with
    | violation v =>
      exact (Session.ends_recordAuthorization _ _ 0).bind fun s₂ _ => ends_throw _
    | _ => exact ends_throw _

/-- The check for values is settled, if a fault of the evaluation is of a number. -/
theorem checkValues_settled
    (declares : normalize s.settings.defaultRule permitted = .ok (some rules))
    (faults : ∀ fault, evaluate s.rules [] .all (orEmpty data) (.map rules) = .error fault →
      (∃ cause, fault = .numeral cause) ∧ reason) :
    ∃ outcome, Ends (checkValues Evaluator.engine permitted data) s outcome ∧
      Settled reason outcome := by
  cases found : evaluate s.rules [] .all (orEmpty data) (.map rules) with
  | ok breaches =>
    refine ⟨_, ends_checkValues_of_breaches declares found, ?_⟩
    unfold valuesVerdict
    split
    · exact .passed
    · exact .values _
  | error fault =>
    obtain ⟨⟨cause, rfl⟩, because⟩ := faults fault found
    exact ⟨_, ends_checkValues_of_numeral declares found, .stopped cause because⟩

theorem checkFields_settled
    (declares : normalize s.settings.defaultRule permitted = .ok (some rules))
    (compiles : s.treeOf (rules.map (·.1)) = .ok tree) (json : data.isJson = true) :
    Ends (checkFields permitted data) s (.ok ()) ∨
      ∃ messages, Ends (checkFields permitted data) s
        (.error (.violation { kind := .fields, messages })) := by
  obtain ⟨fields, found, _⟩ :=
    unauthorized_json tree s.settings.maxDiffDepth (isJson_orEmpty json)
  have ends := ends_checkFields declares compiles found
  rw [verdict] at ends
  split at ends
  · exact .inl ends
  · exact .inr ⟨_, ends⟩

theorem oversized_of_orEmpty (h : (orEmpty data).Oversized) : data.Oversized := by
  cases data with
  | null =>
    obtain ⟨place, n, held, _⟩ := h
    cases place with
    | nil => cases held
    | cons key rest => cases held
  | _ => exact h

/-- What can stop a check: an integer of the data that is too large, or a path with a segment
of digits that denotes no position. -/
def Stops (data : Value) (entries : List (Value × Value)) : Prop :=
  data.Oversized ∨ ∃ entry ∈ entries, ∃ text, entry.1 = .text text ∧
    ∃ segment ∈ Path.segments text, Unreadable segment

/-- Under paths that are texts and sound definitions, the check for values stops only at what
can stop it. -/
theorem stops_of_evaluate {texts : List String} {fault : Fault} {default : String}
    (paths : entries.map (·.1) = texts.map Value.text)
    (defines : ∀ entry ∈ entries, Defines (rulesOr default entry.2)) (json : data.isJson = true)
    (failed : evaluate RuleSet.builtIn [] .all (orEmpty data)
      (.map (entries.map fun entry => (entry.1, rulesOr default entry.2))) = .error fault) :
    (∃ cause, fault = .numeral cause) ∧ Stops data entries := by
  have named : (entries.map fun entry => (entry.1, rulesOr default entry.2)).map (·.1) =
      texts.map Value.text := by
    rw [List.map_map]
    exact paths
  obtain ⟨cause, large | ⟨text, given, unreadable⟩⟩ := overflow_of_evaluate
    (isJson_orEmpty json) named (List.forall_mem_map.mpr defines) failed
  · exact ⟨cause, .inl (oversized_of_orEmpty large)⟩
  · have member : Value.text text ∈ entries.map (·.1) := paths ▸ List.mem_map_of_mem given
    obtain ⟨entry, inside, name⟩ := List.mem_map.mp member
    exact ⟨cause, .inr ⟨entry, inside, text, name, unreadable⟩⟩

/-- **Nothing else escapes.** Under paths that compile and definitions that are sound, the
check of data of JSON passes, rejects fields, rejects values, or stops at a number that it
cannot convert; it does so only where an integer of the data is too large, or a path has a
segment of digits that denotes no position. -/
theorem check_settled (known : s.rules = RuleSet.builtIn)
    (compiles : s.treeOf (entries.map (·.1)) = .ok tree)
    (defines : ∀ entry ∈ entries, Defines (rulesOr s.settings.defaultRule entry.2))
    (json : data.isJson = true) :
    ∃ outcome, Ends (check Evaluator.engine (.map entries) data) s outcome ∧
      Settled (Stops data entries) outcome := by
  have declares : normalize s.settings.defaultRule (.map entries) =
      .ok (some (entries.map fun entry =>
        (entry.1, rulesOr s.settings.defaultRule entry.2))) := rfl
  have paths : (entries.map fun entry => (entry.1, rulesOr s.settings.defaultRule entry.2)).map
      (·.1) = entries.map (·.1) := by
    rw [List.map_map]
    rfl
  obtain ⟨limit, built⟩ := Session.treeOf_compiled compiles
  have texts := (GrantTree.map_textsOf built).symm
  rcases checkFields_settled declares (paths.symm ▸ compiles) json with passes | ⟨messages, ends⟩
  · -- the check for values starts with the settings and the rules that there were
    obtain ⟨s₁, run, kept⟩ := passes
    rw [← kept.settings] at declares
    obtain ⟨outcome, ⟨s₂, run', kept'⟩, settled⟩ :=
      checkValues_settled declares fun fault failed => by
        rw [kept.rules, known] at failed
        exact stops_of_evaluate texts (kept.settings ▸ defines) json failed
    refine ⟨outcome, ends_counted ⟨s₂, ?_, kept.trans kept'⟩, settled⟩
    rw [run_bind, run]
    exact run'
  · exact ⟨_, ends_counted ends.bind_error, .fields messages⟩

/-- A number with a bound, and texts with a greatest length. -/
theorem check_settled_bounds :
    ∃ outcome, Ends (check Evaluator.engine
        (.map [(.text "n", .text "required|above:0"), (.text "tags.*", .text "string|max:8")])
        (.record [("n", .int 5), ("tags", .list [.text "a"])])) {} outcome ∧
      Settled (Stops (.record [("n", .int 5), ("tags", .list [.text "a"])])
        [(.text "n", .text "required|above:0"), (.text "tags.*", .text "string|max:8")])
        outcome := by
  have compiles : ({} : Session).treeOf [.text "n", .text "tags.*"] =
      .ok ⟨.node .fields [("n", .whole), ("tags", .node .elements [("*", .whole)])],
        ["n", "tags.*"]⟩ := rfl
  have number {text : String} (reads : (Number.readFloat? text).isSome = true) :
      ∃ arg x, [text] = [arg] ∧ Number.readFloat? arg = some x := by
    obtain ⟨x, reads⟩ := Option.isSome_iff_exists.mp reads
    exact ⟨text, x, rfl, reads⟩
  have first : Defines (.text "required|above:0") := by
    refine ⟨[⟨"required", []⟩, ⟨"above", ["0"]⟩], rfl, fun c inside => ?_⟩
    rcases List.mem_cons.mp inside with rfl | inside
    · exact .inl rfl
    · cases List.mem_singleton.mp inside
      exact .inr ⟨.above, by decide, rfl, fun _ => number (by decide +kernel)⟩
  have second : Defines (.text "string|max:8") := by
    refine ⟨[⟨"string", []⟩, ⟨"max", ["8"]⟩], rfl, fun c inside => ?_⟩
    rcases List.mem_cons.mp inside with rfl | inside
    · exact .inr ⟨.string, by decide, rfl, fun takes => by cases takes⟩
    · cases List.mem_singleton.mp inside
      exact .inr ⟨.atMost, by decide, rfl, fun _ => number (by decide +kernel)⟩
  refine check_settled (s := {}) rfl compiles (fun entry inside => ?_) (by decide)
  rcases List.mem_cons.mp inside with rfl | inside
  · exact first
  · cases List.mem_singleton.mp inside
    exact second

/-- Whether a check ends at an integer that has no floating-point number. -/
def endsLarge (outcome : Except Fault Unit) : Bool := outcome matches .error (.numeral .tooLarge)

theorem eq_of_endsLarge {outcome : Except Fault Unit} (h : endsLarge outcome = true) :
    outcome = .error (.numeral .tooLarge) := by
  unfold endsLarge at h
  split at h
  · rfl
  · cases h

/-- An integer beyond the floating-point numbers, where a number is asked for. -/
theorem check_stops_large :
    ∃ s', (check Evaluator.engine (.map [(.text "n", .text "number")])
      (.record [("n", .int (10 ^ 309))])).run {} = (.error (.numeral .tooLarge), s') := by
  have stopped : endsLarge ((check Evaluator.engine (.map [(.text "n", .text "number")])
      (.record [("n", .int (10 ^ 309))])).run ({} : Session)).1 = true := by decide +kernel
  cases run : (check Evaluator.engine (.map [(.text "n", .text "number")])
      (.record [("n", .int (10 ^ 309))])).run ({} : Session) with
  | mk outcome s' =>
    rw [run] at stopped
    exact ⟨s', by rw [← eq_of_endsLarge stopped]⟩

end Permit.Authorization
