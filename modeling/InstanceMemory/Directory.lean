/-!
# Directories

A directory holds values under names, in ascending order of the names. Each name stands at most
once.
-/

set_option autoImplicit false

namespace InstanceMemory

/-- Values under names, the names in ascending order. -/
abbrev Directory (α : Type) := List (String × α)

namespace Directory

variable {α : Type}

/-- The value under a name. -/
def get? (d : Directory α) (name : String) : Option α := d.lookup name

/-- Puts a value under a name, in the place of any other. -/
def insert (name : String) (value : α) : Directory α → Directory α
  | [] => [(name, value)]
  | (other, v) :: rest =>
    if name < other then (name, value) :: (other, v) :: rest
    else if other < name then (other, v) :: insert name value rest
    else (name, value) :: rest

/-- Takes a name out. -/
def erase (name : String) (d : Directory α) : Directory α := d.filter (·.1 != name)

/-- The values in the order of their names. -/
def values (d : Directory α) : List α := d.map (·.2)

end Directory
end InstanceMemory
