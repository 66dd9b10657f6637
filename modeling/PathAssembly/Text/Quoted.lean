import PathAssembly.Text.CodePoint
import PathAssembly.Text.Printable

/-!
# Quoted texts

A text between quotes: single ones, or double ones if the text holds a single quote and no double
one. A backslash and the quote in use are escaped, line breaks and tabs have letters of their own,
and characters that are not printable, and halves of characters, are written by number.
-/

namespace PathAssembly.Text

def quoteFor (ps : List CodePoint) : Char :=
  if ps.contains (.char '\'') && !ps.contains (.char '"') then '"' else '\''

def hexPadded (width n : Nat) : List Char :=
  let digits := Nat.toDigits 16 n
  List.replicate (width - digits.length) '0' ++ digits

def byNumber (n : Nat) : List Char :=
  if n < 0x100 then '\\' :: 'x' :: hexPadded 2 n
  else if n < 0x10000 then '\\' :: 'u' :: hexPadded 4 n
  else '\\' :: 'U' :: hexPadded 8 n

def escape (quote c : Char) : List Char :=
  if c == quote || c == '\\' then ['\\', c]
  else if c == '\n' then ['\\', 'n']
  else if c == '\r' then ['\\', 'r']
  else if c == '\t' then ['\\', 't']
  else if isPrintable c then [c]
  else byNumber c.toNat

def escapePoint (quote : Char) : CodePoint → List Char
  | .char c => escape quote c
  | p => byNumber p.number

def quotedPoints (ps : List CodePoint) : String :=
  let quote := quoteFor ps
  String.ofList (quote :: ps.flatMap (escapePoint quote) ++ [quote])

def quoted (text : String) : String := quotedPoints (points text)

end PathAssembly.Text
