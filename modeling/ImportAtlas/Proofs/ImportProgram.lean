import ImportAtlas.ImportStatement
import ImportAtlas.Text.Name

/-!
Programs of imports: a fragment of the language, how its programs are written and which import
statements they hold.

The fragment has `pass`, every form of `import`, and blocks that nest to any depth. Well-formed
programs only can be built: a word that is reserved is no identifier, a block has a first
statement, and a relative import has a first dot.
-/

namespace ImportAtlas.Program

open Text

/-! ### Words -/

/-- The keywords of the language, the words that the grammar gives a meaning at some places, and
the module that is imported from to change the language. -/
def reservedWords : List String :=
  ["False", "None", "True", "and", "as", "assert", "async", "await", "break", "class", "continue",
    "def", "del", "elif", "else", "except", "finally", "for", "from", "global", "if", "import",
    "in", "is", "lambda", "nonlocal", "not", "or", "pass", "raise", "return", "try", "while",
    "with", "yield", "print", "exec", "match", "type", "__future__"]

def isFirst (c : Char) : Bool := c.isAlpha || c == '_'

def isOther (c : Char) : Bool := c.isAlphanum || c == '_'

structure Identifier where
  first : Char
  others : List Char
  isFirst_first : isFirst first = true
  isOther_others : others.all isOther = true
  free : ¬String.ofList (first :: others) ∈ reservedWords

namespace Identifier

def chars (x : Identifier) : List Char := x.first :: x.others

def text (x : Identifier) : String := String.ofList x.chars

end Identifier

structure DottedName where
  first : Identifier
  others : List Identifier

namespace DottedName

/-- What is written behind the first identifier. -/
def restChars (xs : List Identifier) : List Char := xs.flatMap fun x => '.' :: x.chars

def chars (n : DottedName) : List Char := n.first.chars ++ restChars n.others

def path (n : DottedName) : ModulePath := ⟨(n.first :: n.others).map Identifier.text⟩

end DottedName

/-! ### Imports -/

structure ImportedName where
  target : DottedName
  alias? : Option Identifier

namespace ImportedName

def aliasChars : Option Identifier → List Char
  | none => []
  | some x => ' ' :: "as".toList ++ ' ' :: x.chars

def chars (n : ImportedName) : List Char := n.target.chars ++ aliasChars n.alias?

/-- What is written behind the first name of a list. -/
def restChars (ns : List ImportedName) : List Char := ns.flatMap fun n => ',' :: ' ' :: n.chars

def listChars (first : ImportedName) (others : List ImportedName) : List Char :=
  first.chars ++ restChars others

end ImportedName

/-- What is imported from a module: everything, or names in or without brackets, with or without
a comma at the end. -/
inductive Names where
  | star
  | list (first : ImportedName) (others : List ImportedName) (brackets comma : Bool)

namespace Names

def lastComma (comma : Bool) : List Char := if comma then [','] else []

def chars : Names → List Char
  | star => ['*']
  | list first others brackets comma =>
    let names := ImportedName.listChars first others ++ lastComma comma
    if brackets then '(' :: names ++ [')'] else names

def texts : Names → List String
  | star => []
  | list first others _ _ => (first :: others).map fun n => n.target.path.text

def isStar : Names → Bool
  | star => true
  | list .. => false

end Names

/-- The module that is imported from: a dotted name, or one dot and more with a dotted name or
without. -/
inductive Origin where
  | absolute (module : DottedName)
  | relative (dots : Nat) (module : Option DottedName)

namespace Origin

def chars : Origin → List Char
  | absolute m => m.chars
  | relative n none => List.replicate (n + 1) '.'
  | relative n (some m) => List.replicate (n + 1) '.' ++ m.chars

def level : Origin → Nat
  | absolute _ => 0
  | relative n _ => n + 1

def path : Origin → ModulePath
  | absolute m => m.path
  | relative _ none => .empty
  | relative _ (some m) => m.path

end Origin

inductive Import where
  | modules (first : ImportedName) (others : List ImportedName)
  | names (origin : Origin) (names : Names)

namespace Import

def word : Import → String
  | modules .. => "import"
  | names .. => "from"

/-- What is written behind the word. -/
def argument : Import → List Char
  | modules first others => ImportedName.listChars first others
  | names origin ns => origin.chars ++ ' ' :: "import".toList ++ ' ' :: ns.chars

def chars (i : Import) : List Char := i.word.toList ++ ' ' :: i.argument

def statement : Import → ImportStatement
  | modules first others => .plain ((first :: others).map fun n => n.target.path)
  | names origin ns => .fromModule origin.level origin.path ns.texts ns.isStar

end Import

/-! ### Statements -/

/-- The head of a block. -/
inductive Head where
  | ifTest (x : Identifier)
  | whileTest (x : Identifier)
  | function (f : Identifier)
  | classBody (c : Identifier)

namespace Head

def word : Head → String
  | ifTest _ => "if"
  | whileTest _ => "while"
  | function _ => "def"
  | classBody _ => "class"

/-- What is written between the word and the colon. -/
def argument : Head → List Char
  | ifTest x | whileTest x => x.chars
  | function f => f.chars ++ ['(', ')']
  | classBody c => c.chars

def chars (h : Head) : List Char := h.word.toList ++ ' ' :: h.argument

end Head

/-- The clause behind the block of a `try`. -/
inductive Handler where
  | except (e : Identifier)
  | cleanup

namespace Handler

def word : Handler → String
  | except _ => "except"
  | cleanup => "finally"

/-- What is written between the word and the colon. -/
def argument : Handler → List Char
  | except e => ' ' :: e.chars
  | cleanup => []

def chars (h : Handler) : List Char := h.word.toList ++ h.argument

end Handler

inductive Statement where
  | pass
  | imports (i : Import)
  | block (head : Head) (first : Statement) (others : List Statement)
  | attempt (first : Statement) (others : List Statement) (handler : Handler)
      (second : Statement) (rest : List Statement)

/-- A line at a depth of blocks, four spaces for each. -/
def line (depth : Nat) (text : List Char) : List Char :=
  List.replicate (4 * depth) ' ' ++ text ++ ['\n']

mutual

/-- How a statement is written at a depth of blocks. -/
def Statement.chars (depth : Nat) : Statement → List Char
  | .pass => line depth "pass".toList
  | .imports i => line depth i.chars
  | .block head s ss =>
    line depth (head.chars ++ [':']) ++ s.chars (depth + 1) ++ allChars (depth + 1) ss
  | .attempt s ss handler t ts =>
    line depth ("try".toList ++ [':']) ++ s.chars (depth + 1) ++ allChars (depth + 1) ss ++
      line depth (handler.chars ++ [':']) ++ t.chars (depth + 1) ++ allChars (depth + 1) ts

def allChars (depth : Nat) : List Statement → List Char
  | [] => []
  | s :: ss => s.chars depth ++ allChars depth ss

end

mutual

/-- The import statements of a statement in the order in which they are written. -/
def Statement.importStatements : Statement → List ImportStatement
  | .pass => []
  | .imports i => [i.statement]
  | .block _ s ss => s.importStatements ++ importStatements ss
  | .attempt s ss _ t ts =>
    s.importStatements ++ importStatements ss ++ t.importStatements ++ importStatements ts

def importStatements : List Statement → List ImportStatement
  | [] => []
  | s :: ss => s.importStatements ++ importStatements ss

end

/-- The text of a program. -/
def text (statements : List Statement) : String := String.ofList (allChars 0 statements)

end ImportAtlas.Program
