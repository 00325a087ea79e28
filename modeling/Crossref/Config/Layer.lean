/-
Laying one configuration over another. Two mappings are joined key by key, and so are the mappings that they hold under
one key; anything else that the upper layer says takes the place of what the lower one says. The keys of the lower
layer come first.
-/
import Crossref.Config.Value

namespace Crossref.Config

mutual

/-- What is there once the value has been laid over `base`. -/
def Value.over : Value → Value → Value
  | .mapping entries, .mapping base => .mapping (Mapping.over entries base)
  | .mapping entries, _ => .mapping entries
  | .list items, _ => .list items
  | .scalar s, _ => .scalar s

def Mapping.over : List (Scalar × Value) → Mapping → Mapping
  | [], base => base
  | (key, v) :: rest, base =>
    match base.get? key with
    | some old => Mapping.over rest (base.set key (v.over old))
    | none => Mapping.over rest (base.set key v)

end

end Crossref.Config
