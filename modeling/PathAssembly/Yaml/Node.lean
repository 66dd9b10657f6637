import PathAssembly.Text.CodePoint

/-!
# Document nodes

The structure of a document before its scalars are resolved.
-/

namespace PathAssembly.Yaml

inductive Node where
  | empty
  | plain (text : List Char)
  | quoted (text : List Text.CodePoint)
  | list (items : List Node)
  | map (pairs : List (Node × Node))

end PathAssembly.Yaml
