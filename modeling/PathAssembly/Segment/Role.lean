import PathAssembly.Fault
import PathAssembly.Text.Capital

/-!
# Names of segment and link types

The closed sets of names that segments and links carry. Every name has a number; texts are matched
by their capitals.
-/

namespace PathAssembly

/-- The role of a segment: what lookup returned it. -/
inductive SegmentType where
  | unspecified
  | up
  | core
  | down
  deriving DecidableEq, Repr

namespace SegmentType

def all : List SegmentType := [unspecified, up, core, down]

def name : SegmentType → String
  | unspecified => "UNSPECIFIED"
  | up => "UP"
  | core => "CORE"
  | down => "DOWN"

def label : SegmentType → String
  | unspecified => "unspecified"
  | up => "up"
  | core => "core"
  | down => "down"

def number : SegmentType → Nat
  | unspecified => 0
  | up => 1
  | core => 2
  | down => 3

def ofText (text : String) : Except Fault SegmentType :=
  match all.find? fun t => t.name.toList == Text.capitals text.toList with
  | some t => .ok t
  | none => .error (.unknownSegmentType text)

theorem ofText_label (t : SegmentType) : ofText t.label = .ok t := by
  cases t <;> decide +kernel

end SegmentType

inductive LinkType where
  | unspecified
  | direct
  | multiHop
  | openNet
  deriving DecidableEq, Repr

namespace LinkType

def all : List LinkType := [unspecified, direct, multiHop, openNet]

def name : LinkType → String
  | unspecified => "UNSPECIFIED"
  | direct => "DIRECT"
  | multiHop => "MULTI_HOP"
  | openNet => "OPEN_NET"

def label : LinkType → String
  | unspecified => "unspecified"
  | direct => "direct"
  | multiHop => "multi_hop"
  | openNet => "open_net"

def number : LinkType → Nat
  | unspecified => 0
  | direct => 1
  | multiHop => 2
  | openNet => 3

def ofText (text : String) : Except Fault LinkType :=
  match all.find? fun t => t.name.toList == Text.capitals text.toList with
  | some t => .ok t
  | none => .error (.unknownLinkType text)

theorem ofText_label (t : LinkType) : ofText t.label = .ok t := by
  cases t <;> decide +kernel

end LinkType

end PathAssembly
