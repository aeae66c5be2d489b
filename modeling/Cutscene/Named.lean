namespace Cutscene

abbrev Named (α : Type) := List (String × α)

namespace Named

variable {α : Type}

def get? (name : String) (table : Named α) : Option α := table.lookup name

def has (name : String) (table : Named α) : Bool := (table.get? name).isSome

/-- Puts an entry in its place, over one of the same name. -/
def insert (name : String) (a : α) : Named α → Named α
  | [] => [(name, a)]
  | (other, b) :: rest =>
      if name < other then (name, a) :: (other, b) :: rest
      else if name = other then (name, a) :: rest
      else (other, b) :: insert name a rest

def erase (name : String) (table : Named α) : Named α := table.filter fun entry => entry.1 != name

def modify (name : String) (f : α → α) (table : Named α) : Named α :=
  table.map fun (other, a) => (other, if other = name then f a else a)

end Named

end Cutscene
