import Permit.Projection
import Permit.Value.Equality
import Permit.Value.Plain

/-!
Shaping what a response carries. Objects are turned into plain data first. An
envelope, a mapping with a sequence under `data`, keeps all its entries and has
only those items projected; a sequence is projected item by item; anything else is
projected as one value.
-/
namespace Permit.Response

def dataKey : String := "data"

def envelopeItems? (entries : List (Value × Value)) : Option (List Value) :=
  (Value.field? entries dataKey).bind Value.items?

/-- Items turned into plain data and projected. -/
def shapeItems (tree : GrantTree) (items : List Value) : Value :=
  .list (tree.projectAll (items.map Value.toPlain))

/-- An entry of an envelope: the items are shaped, everything else is kept. -/
def shapeEntry (tree : GrantTree) (items : List Value) (entry : Value × Value) : Value × Value :=
  if Value.sameKey entry.1 (.text dataKey) then (entry.1, shapeItems tree items) else entry

def shapePlain (tree : GrantTree) (content : Value) : Value :=
  match content with
  | .map entries =>
    match envelopeItems? entries with
    | some items => .map (entries.map (shapeEntry tree items))
    | none => tree.project content
  | .list items => shapeItems tree items
  | .tuple items => shapeItems tree items
  | _ => tree.project content

def shape (tree : GrantTree) (content : Value) : Value := shapePlain tree content.toPlain

end Permit.Response
