/-!
# Capitals

Names in inputs are matched without regard to case, by their capitals. Besides the basic Latin
letters ten letters and ligatures have capitals that are basic Latin letters; all other characters
stay as they are, since no name to match holds one.
-/

namespace PathAssembly.Text

def capital (c : Char) : List Char :=
  match c.toNat with
  | 0xdf => ['S', 'S']
  | 0x131 => ['I']
  | 0x17f => ['S']
  | 0xfb00 => ['F', 'F']
  | 0xfb01 => ['F', 'I']
  | 0xfb02 => ['F', 'L']
  | 0xfb03 => ['F', 'F', 'I']
  | 0xfb04 => ['F', 'F', 'L']
  | 0xfb05 | 0xfb06 => ['S', 'T']
  | _ => [c.toUpper]

def capitals (cs : List Char) : List Char := cs.flatMap capital

end PathAssembly.Text
