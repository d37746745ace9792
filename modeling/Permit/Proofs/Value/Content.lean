import Mathlib.Algebra.Field.Rat
import Mathlib.Algebra.Order.Ring.Rat
import Mathlib.Data.List.Forall2
import Mathlib.Tactic.Ring
import Permit.Proofs.Number.Nearest
import Permit.Proofs.Value.Symmetry

/-!
What a value holds, apart from how it is written down: a number is its exact value, lists and
tuples are sequences, and a mapping is what stands under each text, whatever the order of its
keys. Main statement: on plain data the comparison by which changes are found is never refused
and finds two values unchanged if and only if they hold the same (`Plain.equal_iff_content`), so
that it is an equivalence (`equal_equivalence`).
-/
namespace Permit

inductive Content where
  | null
  | flag (b : Bool)
  | number (q : ℚ)
  | text (s : String)
  | bytes (b : List UInt8)
  | sequence (items : List Content)
  /-- What stands under each text, if anything does. -/
  | mapping (under : String → Option Content)
  /-- What is no plain data stands for itself. -/
  | other (v : Value)

namespace Number.Binary64

/-- The exact value of a finite number. -/
def exact (negative : Bool) (mantissa : Nat) (exponent : Int) : ℚ :=
  (if negative then -1 else 1) * mantissa * 2 ^ exponent

theorem ratio_eq_exact (s : Bool) (m : Nat) (e : Int) :
    ((ratio s m e).1 : ℚ) / (ratio s m e).2 = exact s m e := by
  have signed (n : Nat) :
      ((if s then -(n : Int) else n : Int) : ℚ) = (if s then -1 else 1) * n := by
    cases s <;> simp
  cases e with
  | ofNat k =>
    simp only [ratio, scaled, signed, exact, Int.ofNat_eq_natCast,
      zpow_natCast, Nat.pow_eq]
    push_cast
    ring
  | negSucc k =>
    simp only [ratio, scaled, signed, exact, zpow_negSucc, Nat.pow_eq]
    push_cast
    rw [one_mul, div_eq_mul_inv]

theorem compareRatio_eq_iff {a b : Int × Nat} (ha : 0 < a.2) (hb : 0 < b.2) :
    (compareRatio a b == .eq) = true ↔ (a.1 : ℚ) / a.2 = b.1 / b.2 := by
  have left : (a.2 : ℚ) ≠ 0 := by exact_mod_cast ha.ne'
  have right : (b.2 : ℚ) ≠ 0 := by exact_mod_cast hb.ne'
  rw [beq_iff_eq, compareRatio, Int.compare_eq_eq, div_eq_div_iff left right]
  exact_mod_cast Iff.rfl

theorem eq_finite_iff (s s' : Bool) (m m' : Nat) (e e' : Int) :
    (finite s m e).eq (.finite s' m' e') = true ↔
      exact s m e = exact s' m' e' := by
  rw [← ratio_eq_exact, ← ratio_eq_exact,
    ← compareRatio_eq_iff (ratio_den_pos s m e) (ratio_den_pos s' m' e')]
  simp [eq, compare?]

theorem eqInt_finite_iff (s : Bool) (m : Nat) (e n : Int) :
    (finite s m e).eqInt n = true ↔ exact s m e = n := by
  have counted := compareRatio_eq_iff (b := (n, 1)) (ratio_den_pos s m e) Nat.one_pos
  rw [Nat.cast_one, div_one, ratio_eq_exact] at counted
  exact counted

end Number.Binary64

namespace Value

open Number (Binary64)

mutual

def content : Value → Content
  | .null => .null
  | .bool b => .flag b
  | .int n => .number n
  | .float (.finite s m e) => .number (Binary64.exact s m e)
  | .text s => .text s
  | .bytes b => .bytes b
  | .list items => .sequence (itemsContent items)
  | .tuple items => .sequence (itemsContent items)
  | .map entries => .mapping (contentUnder entries)
  | v => .other v

def itemsContent : List Value → List Content
  | [] => []
  | v :: rest => v.content :: itemsContent rest

/-- What stands under a text among entries. -/
def contentUnder : List (Value × Value) → String → Option Content
  | [], _ => none
  | (key, v) :: rest, name =>
    match key with
    | .text other => if other = name then some v.content else contentUnder rest name
    | _ => contentUnder rest name

end

/-- Plain data: null, flags, finite numbers, texts, bytes, lists, tuples, and mappings from
texts, each key once. -/
inductive Plain : Value → Prop where
  | null : Plain .null
  | bool (b : Bool) : Plain (.bool b)
  | int (n : Int) : Plain (.int n)
  | float (negative : Bool) (mantissa : Nat) (exponent : Int) :
      Plain (.float (.finite negative mantissa exponent))
  | text (s : String) : Plain (.text s)
  | bytes (b : List UInt8) : Plain (.bytes b)
  | list {items : List Value} : (∀ v ∈ items, Plain v) → Plain (.list items)
  | tuple {items : List Value} : (∀ v ∈ items, Plain v) → Plain (.tuple items)
  | record {fields : List (String × Value)} :
      (Keyed.keys fields).Nodup → (∀ f ∈ fields, Plain f.2) → Plain (record fields)

variable {x y : Value} {xs ys : List Value} {fields others : List (String × Value)}

/-! ### Never refused -/

theorem Plain.scalar_answers (hx : x.Plain) (single : x.isContainer = false) (hy : y.Plain) :
    ∃ b, x.equal y = .ok b := by
  rw [equal_scalar single]
  split
  · exact ⟨_, rfl⟩
  · cases hx <;> cases hy <;> exact ⟨_, rfl⟩

/-- Comparing plain data is never refused. -/
theorem Plain.equal_answers (hx : x.Plain) : ∀ y : Value, y.Plain → ∃ b, x.equal y = .ok b := by
  induction hx with
  | list _ ih | tuple _ ih =>
    intro y hy
    cases hy with
    | list parts | tuple parts =>
      simp only [equal, items?]
      split
      · exact exists_equalItems ih parts
      · exact ⟨_, rfl⟩
    | _ => exact ⟨_, rfl⟩
  | record _ _ ih =>
    intro y hy
    cases hy with
    | record _ parts =>
      simp only [Value.record, equal]
      split
      · exact exists_equalEntries ih parts
      · exact ⟨_, rfl⟩
    | _ => exact ⟨_, rfl⟩
  | null | bool _ | int _ | float _ _ _ | text _ | bytes _ =>
    exact fun y hy => Plain.scalar_answers (by constructor) rfl hy

/-! ### What two contents have in common -/

theorem itemsContent_eq_map (items : List Value) : itemsContent items = items.map content := by
  induction items with
  | nil => rfl
  | cons v rest ih => rw [itemsContent, ih, List.map_cons]

theorem contentUnder_fields (fields : List (String × Value)) (name : String) :
    contentUnder (fields.map fun f => (.text f.1, f.2)) name =
      (Keyed.find? fields name).map content := by
  induction fields with
  | nil => rfl
  | cons f rest ih =>
    rw [List.map_cons, contentUnder, Keyed.find?]
    simp only [ih]
    split <;> rfl

theorem content_record (fields : List (String × Value)) :
    (record fields).content = .mapping fun name => (Keyed.find? fields name).map content := by
  rw [record, content, Content.mapping.injEq]
  exact funext (contentUnder_fields fields)

theorem content_items {v : Value} {items : List Value} (h : v.items? = some items) :
    v.content = .sequence (items.map content) := by
  cases v with
  | list _ | tuple _ =>
    cases h
    rw [content, itemsContent_eq_map]
  | _ => cases h

theorem map_content_eq_iff :
    xs.map content = ys.map content ↔ List.Forall₂ (fun x y => x.content = y.content) xs ys := by
  rw [← List.forall₂_eq_eq_eq, List.forall₂_map_left_iff, List.forall₂_map_right_iff]

theorem map_content_rel_iff {o o' : Option Value} :
    o.map content = o'.map content ↔ Option.Rel (fun x y => x.content = y.content) o o' := by
  constructor
  · intro same
    cases o <;> cases o' <;> first
      | exact .none
      | cases same
      | exact .some (Option.some.inj same)
  · rintro (⟨same⟩ | _)
    · exact congrArg some same
    · rfl

/-- Two records hold the same if they are as long and each entry of the first is met in the
second. -/
theorem content_record_eq_iff (once : (Keyed.keys fields).Nodup)
    (once' : (Keyed.keys others).Nodup) :
    (record fields).content = (record others).content ↔
      fields.length = others.length ∧
        ∀ f ∈ fields, ∃ y, Keyed.find? others f.1 = some y ∧ f.2.content = y.content := by
  rw [content_record, content_record, Content.mapping.injEq, funext_iff]
  constructor
  · exact fun same => fields_of_rel once once' fun name => map_content_rel_iff.mp (same name)
  · exact fun ⟨long, each⟩ name => map_content_rel_iff.mpr (rel_fields long once each name)

/-! ### Comparing -/

theorem ok_eq_ok_true_iff {b : Bool} {p : Prop} (h : b = true ↔ p) :
    (.ok b : Except Refusal Bool) = .ok true ↔ p := by
  rw [Except.ok.injEq, h]

/-- Sequences are unchanged from one another if their elements are. -/
theorem sequence_equal_iff (left : x.items? = some xs) (right : y.items? = some ys)
    (each : ∀ a ∈ xs, ∀ b ∈ ys, (a.equal b = .ok true ↔ a.content = b.content)) :
    x.equal y = .ok true ↔ x.content = y.content := by
  rw [equal_sequence_eq_true left right, content_items left, content_items right,
    Content.sequence.injEq, map_content_eq_iff, List.forall₂_iff_zip, List.forall₂_iff_zip]
  refine and_congr_right fun _ => forall₂_congr fun a b => ?_
  exact forall_congr' fun inside =>
    each a (List.of_mem_zip inside).1 b (List.of_mem_zip inside).2

/-- **Unchanged is holding the same.** -/
theorem Plain.equal_iff_content (hx : x.Plain) :
    ∀ y : Value, y.Plain → (x.equal y = .ok true ↔ x.content = y.content) := by
  induction hx with
  | null =>
    rintro _ ⟨⟩
    case null => exact iff_of_true rfl rfl
    all_goals exact iff_of_false nofun nofun
  | bool a =>
    rintro _ ⟨⟩
    case bool b => exact ok_eq_ok_true_iff (beq_iff_eq.trans (Content.flag.injEq a b).symm.to_iff)
    all_goals exact iff_of_false nofun nofun
  | int m =>
    rintro _ ⟨⟩
    case int n =>
      refine ok_eq_ok_true_iff (beq_iff_eq.trans ?_)
      simp [content]
    case float s d e =>
      refine ok_eq_ok_true_iff ((Binary64.eqInt_finite_iff s d e m).trans ?_)
      rw [content, content, Content.number.injEq, eq_comm]
    all_goals exact iff_of_false nofun nofun
  | float s d e =>
    rintro _ ⟨⟩
    case int n =>
      refine ok_eq_ok_true_iff ((Binary64.eqInt_finite_iff s d e n).trans ?_)
      rw [content, content, Content.number.injEq]
    case float s' d' e' =>
      refine ok_eq_ok_true_iff ((Binary64.eq_finite_iff s s' d d' e e').trans ?_)
      rw [content, content, Content.number.injEq]
    all_goals exact iff_of_false nofun nofun
  | text s =>
    rintro _ ⟨⟩
    case text t => exact ok_eq_ok_true_iff (beq_iff_eq.trans (Content.text.injEq s t).symm.to_iff)
    all_goals exact iff_of_false nofun nofun
  | bytes b =>
    rintro _ ⟨⟩
    case bytes c => exact ok_eq_ok_true_iff (beq_iff_eq.trans (Content.bytes.injEq b c).symm.to_iff)
    all_goals exact iff_of_false nofun nofun
  | list _ ih | tuple _ ih =>
    rintro _ ⟨⟩
    case list ys parts =>
      exact sequence_equal_iff rfl rfl fun a inside b inside' => ih a inside b (parts b inside')
    case tuple ys parts =>
      exact sequence_equal_iff rfl rfl fun a inside b inside' => ih a inside b (parts b inside')
    all_goals exact iff_of_false nofun nofun
  | record once _ ih =>
    rintro _ ⟨⟩
    case record others once' parts =>
      rw [equal_record_eq_true, content_record_eq_iff once once']
      refine and_congr_right fun _ => forall₂_congr fun f inside => exists_congr fun y => ?_
      exact and_congr_right fun found => ih f inside y (parts _ (Keyed.mem_of_find? found))
    all_goals exact iff_of_false nofun nofun

/-- **Being unchanged is an equivalence** on plain data: the comparison always answers, and it
says of two values that they are unchanged from one another if and only if they hold the same. -/
theorem equal_equivalence :
    Equivalence (fun x y : {v : Value // v.Plain} => x.1.equal y.1 = .ok true) ∧
      ∀ x y : Value, x.Plain → y.Plain →
        (∃ b, x.equal y = .ok b) ∧ (x.equal y = .ok true ↔ x.content = y.content) := by
  refine ⟨⟨fun x => ?_, fun {x y} => ?_, fun {x y z} => ?_⟩, fun x y hx hy => ?_⟩
  · exact (x.2.equal_iff_content x.1 x.2).mpr rfl
  · rw [x.2.equal_iff_content y.1 y.2, y.2.equal_iff_content x.1 x.2]
    exact Eq.symm
  · rw [x.2.equal_iff_content y.1 y.2, y.2.equal_iff_content z.1 z.2,
      x.2.equal_iff_content z.1 z.2]
    exact Eq.trans
  · exact ⟨hx.equal_answers y hy, hx.equal_iff_content y hy⟩

/-- Keys in another order, a tuple for a list and `1.0` for `1`. -/
theorem equal_equivalence_restated :
    let x := record [("a", .int 1), ("b", .list [.bool true, .null])]
    let y := record [("b", .tuple [.bool true, .null]),
      ("a", .float (.finite false 4503599627370496 (-52)))]
    x.Plain ∧ y.Plain ∧ x.equal y = .ok true ∧ x.content = y.content := by
  intro x y
  have hx : x.Plain := by
    refine .record (by decide) (List.forall_mem_cons.mpr ⟨.int 1, ?_⟩)
    refine List.forall_mem_singleton.mpr (.list (List.forall_mem_cons.mpr ⟨.bool true, ?_⟩))
    exact List.forall_mem_singleton.mpr .null
  have hy : y.Plain := by
    refine .record (by decide) (List.forall_mem_cons.mpr ⟨.tuple ?_, ?_⟩)
    · exact List.forall_mem_cons.mpr ⟨.bool true, List.forall_mem_singleton.mpr .null⟩
    · exact List.forall_mem_singleton.mpr (.float ..)
  have same : x.equal y = .ok true := by decide +kernel
  exact ⟨hx, hy, same, (equal_equivalence.2 x y hx hy).2.mp same⟩

end Value
end Permit
