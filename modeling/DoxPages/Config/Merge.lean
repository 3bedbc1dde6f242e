import DoxPages.Config.Value

/-!
# Layering settings

Two mappings are merged entry by entry, and so are two mappings under one key.
Any other value of the upper layer, a list too, takes the place of the lower one.
-/

namespace DoxPages

mutual

/-- The upper value over the lower one. -/
def Value.over (lower : Value) : Value → Value
  | .mapping upper =>
    match lower with
    | .mapping entries => .mapping (Settings.merge entries upper)
    | _ => .mapping upper
  | v => v

/-- The upper entries over the lower ones; keys that are there keep their places. -/
def Settings.merge (lower : List (Scalar × Value)) : List (Scalar × Value) → List (Scalar × Value)
  | [] => lower
  | (k, v) :: upper =>
    let merged := match lower.lookup k with
      | some old => old.over v
      | none => v
    Settings.merge (Assoc.put k merged lower) upper

end

end DoxPages
