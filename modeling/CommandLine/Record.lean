import CommandLine.Slot

/-!
# Destinations

What a command line is parsed into: the contents of fields, by name.
-/

namespace CommandLine

abbrev Record := String → Contents

namespace Record

def empty : Record :=
  fun _ => []

def set (r : Record) (field : String) (contents : Contents) : Record :=
  fun other => if other = field then contents else r other

@[simp] theorem set_same (r : Record) (field : String) (contents : Contents) :
    r.set field contents field = contents := by
  simp [set]

theorem set_other (r : Record) {field other : String} (contents : Contents) (h : other ≠ field) :
    r.set field contents other = r other := by
  simp [set, h]

end Record

end CommandLine
