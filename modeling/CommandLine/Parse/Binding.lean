import CommandLine.Parse.State
import CommandLine.Record

/-!
# Binding

Once every token is taken, what the arguments have received is written into the destination, in the
order of the table.  An argument that was not given leaves its field alone, except that an array is
always replaced; if it is required, binding stops there, and what is already written stays.
-/

namespace CommandLine.Binding

/-- Writes one argument, or tells why that fails; the field of a collection that refuses an item
keeps what it took before. -/
def bindOne (r : Record) (h : Held) : Record × Option ArgumentError :=
  let d := h.declaration
  if !h.seen && d.policy.required then (r, some (.missing d.long))
  else if !h.seen && d.kind ≠ .array then (r, none)
  else
    let (contents, refusal) := d.slot.bind (r d.field) h.items
    (r.set d.field contents, refusal.map (.refused d.long))

def bindAll (r : Record) : List Held → Record × Option ArgumentError
  | [] => (r, none)
  | h :: rest =>
      match bindOne r h with
      | (r, none) => bindAll r rest
      | (r, some error) => (r, some error)

end CommandLine.Binding
