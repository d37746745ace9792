import Permit.Log.Record
import Permit.Proofs.Log.Encodable

namespace Permit.Log

open Json Outcome

variable {r : Record} {service requestId level logger message : String}
  {span : Option CurrentSpan}

/-- Values that can be asked for their hexadecimal text, whether they have one or not. -/
def IsIdentifier : Value → Prop
  | .int _ | .bool _ | .float _ | .text _ => True
  | _ => False

/-- Both identifiers of a span can be asked for their texts. -/
def Identified (span : Option CurrentSpan) : Prop :=
  ∀ s, span = some s → ∀ context, s.context = some context → ∀ e ∈ context,
    e.1 = "trace_id" ∨ e.1 = "span_id" → IsIdentifier e.2

/-- A record as loggers make it. It tells its level and its logger by texts, its time has a date
and its arguments fit its message. -/
structure Record.Formed (r : Record) (level logger message : String) : Prop where
  level : r.level = .text level
  logger : r.logger = .text logger
  message : text r.message r.arguments = .ok message
  dated : ∃ stamp, r.timestamp = .ok stamp
  failure : ∀ f, r.failure = some f → Encodable f.kind ∧ Encodable f.text

theorem identifierText_ok {v : Value} (h : IsIdentifier v) (width : Nat) :
    ∃ found, identifierText width v = .ok found := by
  cases v <;> first | exact ⟨_, rfl⟩ | cases h

theorem Identified.ok (h : Identified span) {name : String}
    (known : name = "trace_id" ∨ name = "span_id") (width : Nat) :
    ∃ found, CurrentSpan.identifier span name width = .ok found := by
  unfold CurrentSpan.identifier
  split
  next => exact ⟨_, rfl⟩
  next s =>
    split
    next label v found =>
      split at found
      next =>
        obtain ⟨context, has, found⟩ := Option.bind_eq_some_iff.mp found
        have same : label = name :=
          beq_iff_eq.mp (List.find?_some (p := fun e : String × Value => e.1 == name) found)
        exact identifierText_ok
          (h s rfl context has _ (List.mem_of_find?_eq_some found) (same ▸ known)) width
      next => cases found
    next => exact ⟨_, rfl⟩

/-- The entries of a line, given the texts of its parts. -/
def Record.entriesOf (r : Record) (service requestId level logger message stamp : String)
    (trace spanId : Option String) : List (String × Value) :=
  [("timestamp", .text stamp), ("service", .text service), ("level", .text level),
      ("logger", .text logger), ("message", .text message)] ++
    entry? "request_id" (if requestId = "" then none else some (.text requestId)) ++
    entry? "trace_id" (trace.map .text) ++
    entry? "span_id" (spanId.map .text) ++
    entry? "exception" (r.failure.map fun f =>
      .record [("type", f.kind), ("message", f.text)]) ++
    entry? "extra" (if r.extra.isEmpty then none else some (.record r.extra))

theorem Record.Formed.entries_eq (h : r.Formed level logger message) (identified : Identified span)
    (service requestId : String) :
    ∃ stamp trace spanId, r.entries service requestId span =
      .ok (r.entriesOf service requestId level logger message stamp trace spanId) := by
  obtain ⟨stamp, dated⟩ := h.dated
  obtain ⟨trace, traced⟩ := identified.ok (.inl rfl) 32
  obtain ⟨spanId, spanned⟩ := identified.ok (.inr rfl) 16
  refine ⟨stamp, trace, spanId, ?_⟩
  rw [Record.entries, dated, h.message, CurrentSpan.traceId, traced, CurrentSpan.spanId, spanned,
    h.level, h.logger]
  rfl

theorem Record.line_eq_ok_iff {fields : List (String × Value)} {line : String}
    (h : r.entries service requestId span = .ok fields) :
    r.line service requestId span = .ok line ↔ write (.record fields) = .ok line := by
  rw [Record.line, h]
  exact mapError_eq_ok_iff

theorem forall_mem_entry? {name : String} {v : Option Value} {p : Value → Prop} :
    (∀ f ∈ Record.entry? name v, p f.2) ↔ ∀ w, v = some w → p w := by
  cases v with
  | none => exact iff_of_true nofun nofun
  | some w => simp [Record.entry?]

/-- Nothing but the further attributes of a record can keep its line from having a form. -/
theorem Record.Formed.encodable_iff (h : r.Formed level logger message)
    (service requestId stamp : String) (trace spanId : Option String) :
    Encodable (.record (r.entriesOf service requestId level logger message stamp trace spanId)) ↔
      ∀ e ∈ r.extra, Encodable e.2 := by
  have optional (o : Option String) : ∀ w, o.map Value.text = some w → Encodable w := by
    intro w found
    obtain ⟨s, _, rfl⟩ := Option.map_eq_some_iff.mp found
    exact encodable_text s
  have requested : ∀ w, (if requestId = "" then none else some (Value.text requestId)) = some w →
      Encodable w := by
    intro w found
    split at found
    · cases found
    · cases found
      exact encodable_text requestId
  have failed : ∀ w, (r.failure.map fun f =>
      Value.record [("type", f.kind), ("message", f.text)]) = some w → Encodable w := by
    intro w found
    obtain ⟨f, has, rfl⟩ := Option.map_eq_some_iff.mp found
    obtain ⟨kind, text⟩ := h.failure f has
    exact encodable_record.mpr
      (List.forall_mem_cons.mpr ⟨kind, List.forall_mem_singleton.mpr text⟩)
  have further : (∀ w, (if r.extra.isEmpty then none else some (Value.record r.extra)) = some w →
      Encodable w) ↔ ∀ e ∈ r.extra, Encodable e.2 := by
    rw [← encodable_record]
    cases r.extra with
    | nil => exact iff_of_true nofun (encodable_record.mpr nofun)
    | cons e rest => simp
  -- All entries but the last are texts, or made of the texts of a failure.
  rw [encodable_record, Record.entriesOf]
  simp only [List.forall_mem_append, forall_mem_entry?, List.forall_mem_cons, encodable_text,
    List.not_mem_nil, false_implies, implies_true, true_and]
  exact ⟨fun h => further.mp h.2,
    fun h => ⟨⟨⟨⟨requested, optional trace⟩, optional spanId⟩, failed⟩, further.mpr h⟩⟩

theorem filter_entry? (name other : String) (v : Option Value) :
    (Record.entry? other v).filter (·.1 == name) =
      if other = name then Record.entry? other v else [] := by
  cases v with
  | none => simp [Record.entry?]
  | some w => simp [Record.entry?, List.filter_cons]

/-- What the line of a record holds under the names that do not depend on the record. -/
theorem Record.under_entriesOf (r : Record)
    (service requestId level logger message stamp : String) (trace spanId : Option String) :
    let d := datum (.record (r.entriesOf service requestId level logger message stamp trace spanId))
    d.under "message" = [.text message] ∧ d.under "service" = [.text service] ∧
      d.under "level" = [.text level] ∧ d.under "logger" = [.text logger] ∧
      d.under "request_id" = if requestId = "" then [] else [.text requestId] := by
  have request : (Record.entry? "request_id"
      (if requestId = "" then none else some (.text requestId))).map (fun f => datum f.2) =
        if requestId = "" then [] else [.text requestId] := by
    split <;> rfl
  intro d
  simp only [d, under_record, Record.entriesOf, List.filter_append, filter_entry?, List.map_append]
  refine ⟨rfl, rfl, rfl, rfl, ?_⟩
  simpa using request

/-- **The line of a record is one JSON text if the further attributes of the record have forms, and
only then.** It never breaks, and where it is JSON, its message, service, level, logger and
request are those that were given. -/
theorem line_denotes_iff (r : Record) (service requestId level logger message : String)
    (span : Option CurrentSpan) (formed : r.Formed level logger message)
    (identified : Identified span) :
    ((∃ line, r.line service requestId span = .ok line ∧ ∃ d, Denotes line d) ↔
        ∀ e ∈ r.extra, Encodable e.2) ∧
      ∀ line, r.line service requestId span = .ok line →
        Printable line.toList ∧ ∀ d, Denotes line d →
          d.under "message" = [.text message] ∧ d.under "service" = [.text service] ∧
          d.under "level" = [.text level] ∧ d.under "logger" = [.text logger] ∧
          d.under "request_id" = if requestId = "" then [] else [.text requestId] := by
  obtain ⟨stamp, trace, spanId, entered⟩ := formed.entries_eq identified service requestId
  simp only [Record.line_eq_ok_iff entered]
  refine ⟨(write_denotes_iff _).trans (formed.encodable_iff ..), fun line written => ?_⟩
  refine ⟨write_printable _ line written, fun d denotes => ?_⟩
  obtain rfl := eq_datum_of_denotes written denotes
  exact r.under_entriesOf ..

/-- A record of a request, within a span, with attributes of every kind. -/
theorem line_denotes_request :
    let r : Record :=
      { created := .int 0, level := .text "INFO", logger := .text "field_policy.test",
        message := .text "Rejected %s", arguments := .tuple [.text "a\n\"b"],
        failure := some ⟨.text "ValueError", .null⟩
        extra := [("check", .text "fields"),
          ("paths", .tuple [.bytes [255], .map [(.int 1, .null)]])] }
    let span : Option CurrentSpan := some ⟨true, some [("trace_id", .int 1), ("span_id", .int 2)]⟩
    r.Formed "INFO" "field_policy.test" "Rejected a\n\"b" ∧ Identified span ∧
      ∃ line, r.line "field-policy" "req-456" span = .ok line ∧ ∃ d, Denotes line d := by
  intro r span
  have worded : (text r.message r.arguments).toOption.any (· == "Rejected a\n\"b") = true := by
    decide +kernel
  have dated : r.timestamp.toOption.any (· == "1970-01-01T00:00:00+00:00") = true := by
    decide +kernel
  obtain ⟨message, written, same⟩ := exists_of_any worded
  obtain ⟨stamp, dated, _⟩ := exists_of_any dated
  have formed : r.Formed "INFO" "field_policy.test" "Rejected a\n\"b" :=
    { level := rfl
      logger := rfl
      message := eq_of_beq same ▸ written
      dated := ⟨stamp, dated⟩
      failure := by
        rintro f ⟨⟩
        exact ⟨encodable_text _, .scalar rfl trivial⟩ }
  have identified : Identified span := by
    intro s has context found e inside _
    obtain rfl := Option.some.inj has
    obtain rfl := Option.some.inj found
    simp only [List.mem_cons, List.not_mem_nil, or_false] at inside
    rcases inside with rfl | rfl <;> trivial
  refine ⟨formed, identified, (line_denotes_iff r _ _ _ _ _ span formed identified).1.mpr ?_⟩
  refine List.forall_mem_cons.mpr ⟨encodable_text _, List.forall_mem_singleton.mpr ?_⟩
  refine .sequence rfl (List.forall_mem_cons.mpr ⟨.scalar rfl trivial, ?_⟩)
  refine List.forall_mem_singleton.mpr (.mapping ?_ ?_)
  · have short : (Number.natText 1).length ≤ Number.digitLimit := by decide
    exact List.forall_mem_singleton.mpr short
  · exact List.forall_mem_singleton.mpr (.scalar rfl trivial)

/-- A mapping keyed by a tuple among the attributes of a record keeps it from having a line. -/
theorem line_lost :
    let r : Record :=
      { created := .int 0, level := .text "INFO", logger := .text "field_policy.test",
        message := .text "Test message",
        extra := [("k", .map [(.tuple [.int 1, .int 2], .int 3)])] }
    (∃ message, text r.message r.arguments = .ok message) ∧
      ¬ ∃ line, r.line "field-policy" "" none = .ok line := by
  intro r
  have worded : (text r.message r.arguments).toOption.any (· == "Test message") = true := by
    decide +kernel
  have lost : (r.line "field-policy" "" none).toOption.isNone = true := by decide +kernel
  refine ⟨(exists_of_any worded).imp fun _ => And.left, ?_⟩
  rintro ⟨line, written⟩
  rw [written] at lost
  cases lost

end Permit.Log
