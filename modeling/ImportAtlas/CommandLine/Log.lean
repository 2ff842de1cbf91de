import ImportAtlas.ModulePath
import ImportAtlas.Text.Visible

/-!
The log: messages with a level and the part of the program they come from, and which are shown.

What is shown is set by rules. A rule holds for the parts whose names begin with its own name, and
the rule with the longest name decides.
-/

namespace ImportAtlas.CommandLine

/-- How much a message matters, and how much is shown. -/
inductive Level where
  | off
  | error
  | warn
  | info
  | debug
  | trace
  deriving DecidableEq, Repr

namespace Level

def name : Level → String
  | off => "OFF"
  | error => "ERROR"
  | warn => "WARN"
  | info => "INFO"
  | debug => "DEBUG"
  | trace => "TRACE"

/-- The level of a name in any letter case. -/
def ofName? (name : String) : Option Level :=
  [off, error, warn, info, debug, trace].find? (·.name == name.toUpper)

/-- The number of levels that matter more. -/
def rank : Level → Nat
  | off => 0
  | error => 1
  | warn => 2
  | info => 3
  | debug => 4
  | trace => 5

def isShownAt (level shown : Level) : Bool := level.rank ≤ shown.rank

end Level

inductive Part where
  | program
  | scan
  | drawing
  deriving DecidableEq, Repr

def Part.name : Part → String
  | program => "betsy"
  | scan => "betsy::graph::dependency_graph"
  | drawing => "betsy::export::dot"

structure Message where
  level : Level
  part : Part
  text : String
  deriving DecidableEq, Repr

/-- The line of the message; a text of several lines goes on indented. -/
def Message.line (m : Message) : String :=
  let padding := String.ofList (List.replicate (5 - m.level.name.length) ' ')
  s!"[{m.level.name}{padding} {m.part.name}] " ++
    "\n    ".intercalate ((ModulePath.split '\n' m.text.toList).map String.ofList) ++ "\n"

/-- What is shown of the parts whose names begin in a certain way. -/
structure LogRule where
  start : String
  level : Level
  deriving DecidableEq, Repr

/-- The rules of a log and a text that all messages must hold. -/
structure LogFilter where
  rules : List LogRule
  wanted : String := ""
  deriving DecidableEq, Repr

namespace LogFilter

def addRule (rules : List LogRule) (rule : LogRule) : List LogRule :=
  if rules.any (·.start == rule.start) then
    rules.map fun r => if r.start == rule.start then rule else r
  else rules ++ [rule]

def trimmed (s : List Char) : String := .ofList (Text.trim s)

def readRule (text : List Char) : Except String LogRule :=
  match ModulePath.split '=' text with
  | [one] =>
    -- a single word is a level for all parts, or the beginning of the names of some
    match Level.ofName? (.ofList one) with
    | some level => .ok ⟨"", level⟩
    | none => .ok ⟨.ofList one, .trace⟩
  | [start, level] =>
    if trimmed level = "" then .ok ⟨.ofList start, .trace⟩
    else
      match Level.ofName? (trimmed level) with
      | some level => .ok ⟨.ofList start, level⟩
      | none => .error (trimmed level)
  | _ => .error (.ofList text)

/-- The filter that a text spells, with a warning for each part that cannot be understood. -/
def ofText (text : String) : LogFilter × List String :=
  let warning (what : String) : String := s!"warning: invalid logging spec {what}, ignoring it\n"
  match ModulePath.split '/' text.toList with
  | rules :: rest =>
    if rest.length > 1 then (⟨[], ""⟩, [warning s!"'{text}' (too many '/'s)"])
    else
      -- rules stand in front of the slash, what messages must hold behind it
      let results := (((ModulePath.split ',' rules).map Text.trim).filter (!·.isEmpty)).map readRule
      let warnings := results.filterMap fun
        | .error what => some (warning s!"'{what}'")
        | .ok _ => none
      let rules := results.filterMap Except.toOption
      (⟨rules.foldl addRule [], String.ofList (rest.headD [])⟩, warnings)
  | [] => (⟨[], ""⟩, [])

/-- The level that is set for a part: of the longest rules the last one decides. -/
def levelOf (f : LogFilter) (part : Part) : Level :=
  if f.rules.isEmpty then .error
  else
    let fitting := f.rules.filter fun rule => rule.start.toList.isPrefixOf part.name.toList
    let longest := fitting.foldl (fun (best : Option LogRule) rule =>
      if best.any fun b => rule.start.utf8ByteSize < b.start.utf8ByteSize then best
      else some rule) none
    longest.elim .off LogRule.level

def holds (wanted : List Char) : List Char → Bool
  | [] => wanted.isEmpty
  | c :: cs => wanted.isPrefixOf (c :: cs) || holds wanted cs

def shows (f : LogFilter) (m : Message) : Bool :=
  m.level.isShownAt (f.levelOf m.part) && holds f.wanted.toList m.text.toList

end LogFilter

end ImportAtlas.CommandLine
