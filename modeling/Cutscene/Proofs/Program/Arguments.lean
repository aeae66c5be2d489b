import Cutscene.Program.Arguments
import Cutscene.Proofs.Except

namespace Cutscene

variable {ο : Type} {P : ο → Prop}

def Slot.Keeps (slot : Slot ο) (P : ο → Prop) : Prop :=
  ∀ value o o', slot.read value o = .ok o' → P o → P o'

namespace CommandLine

structure Keeps (c : CommandLine ο) (arguments : List String) (P : ο → Prop) : Prop where
  value : ∀ name slot, .value name slot ∈ c.switches → slot.Keeps P
  operand : ∀ slot, c.operand = some slot → slot.Keeps P
  flag : ∀ name set o, .flag name set ∈ c.switches → name ∈ arguments → P o → P (set o)

variable {c : CommandLine ο} {p p' : Progress ο} {arguments : List String}

end CommandLine

end Cutscene
