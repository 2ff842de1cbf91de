import ImportAtlas.Source.Expression

/-!
The patterns of `case`: literals, names, calls of classes, sequences, mappings and alternatives.
-/

namespace ImportAtlas.Source

open Reader

namespace CasePattern

def dottedStep (e : Expect) (done : List Tree) : Reader (Option (List Tree)) := do
  match ← next e with
  | .mark _ => return none
  | .lexeme =>
    unless ← atSymbol "." do return none
    let dot ← symbol "."
    return some ((← nextName) :: dot :: done)

variable (nested : Nested) (pattern : Bool → Reader Tree)

/-- What may follow a pattern: a closing bracket if it stands in brackets. -/
def after (inner : Bool) : Expect := { close := inner }

/-- Parts behind commas up to the closing bracket. -/
def partStep (closing : String) (part : Reader Tree) (done : List Tree) :
    Reader (Option (List Tree)) := do
  lexeme (after true)
  unless ← atSymbol "," do return none
  let comma ← symbol ","
  lexeme { close := true, quote := true }
  if ← atSymbol closing then return some (comma :: done)
  return some ((← part) :: comma :: done)

def bracketed (opening closing : String) (part : Reader Tree) : Reader (List Tree) := do
  let openToken ← symbol opening
  lexeme { close := true, quote := true }
  if ← atSymbol closing then return [openToken, ← symbol closing]
  let first ← part
  let parts ← iterate (partStep closing part) nested.rounds [first]
  let closeToken ← nextSymbol closing (after true)
  return openToken :: parts.reverse ++ [closeToken]

def numeric (inner : Bool) : Reader Tree := do
  let sign ← if ← atSymbol "-" then pure [← symbol "-"] else pure []
  lexeme
  let value ← number
  lexeme (after inner)
  let imaginary ←
    if (← atSymbol "+") || (← atSymbol "-") then do
      let operator ← take .symbol 1
      lexeme
      pure [operator, ← number]
    else pure []
  return phrase .casePattern (sign ++ value :: imaginary)

def rest : Reader Tree := do
  let star ← if ← atSymbol "**" then symbol "**" else symbol "*"
  return .node .splat star.position [star, ← nextName]

/-- A name with dots, or a class with its arguments. -/
def named (inner : Bool) : Reader Tree := do
  let first ← name
  let path ← iterate (dottedStep (after inner)) nested.rounds [first]
  lexeme (after inner)
  if ← atSymbol "(" then
    let args ← bracketed nested "(" ")" (pattern true)
    return .node .call first.position (phrase .dottedName path.reverse :: args)
  return phrase .dottedName path.reverse

/-- A pattern without alternatives; `union` reads the keys of mappings. -/
def single (union : Bool → Reader Tree) (inner : Bool) : Reader Tree := do
  if ← atString then Expression.strings nested { close := inner }
  else if (numberAt (← Reader.rest)).isSome then numeric inner
  else if (← word?).isSome then
    if ((← word?).map constants.contains).getD false then Expression.wordOperand
    else named nested pattern inner
  else
    let p ← position
    match ← symbol? with
    | some "-" => numeric inner
    | some "*" | some "**" => rest
    | some "[" => return .node .casePattern p (← bracketed nested "[" "]" (pattern true))
    | some "(" => return .node .casePattern p (← bracketed nested "(" ")" (pattern true))
    | some "\x7b" =>
      let item := do
        if (← atSymbol "*") || (← atSymbol "**") then rest
        else
          let key ← union false
          let colon ← nextSymbol ":"
          lexeme operandStart
          return .node .pair key.position [key, colon, ← pattern true]
      return .node .casePattern p (← bracketed nested "\x7b" "\x7d" item)
    | _ => stop

def unionStep (part : Bool → Reader Tree) (inner : Bool) (done : List Tree) :
    Reader (Option (List Tree)) := do
  lexeme (after inner)
  unless ← atSymbol "|" do return none
  let bar ← symbol "|"
  lexeme operandStart
  return some ((← part inner) :: bar :: done)

def union : Nat → Bool → Reader Tree
  | 0, _ => stop
  | n + 1, inner => do
    let part := single nested pattern (union n)
    let first ← part inner
    return phrase .casePattern
      (← iterate (unionStep part inner) nested.rounds [first]).reverse

def asStep (inner : Bool) (done : List Tree) : Reader (Option (List Tree)) := do
  lexeme (after inner)
  unless ← atWord "as" do return none
  let word ← keyword "as"
  return some ((← nextName) :: word :: done)

/-- A pattern: alternatives, or a keyword with alternatives, and the names it is bound to. -/
def whole (inner : Bool) : Reader Tree := do
  let first ← union nested pattern nested.rounds inner
  lexeme (after inner)
  let base ←
    if first.isName && (← atSymbol "=") then do
      let equals ← symbol "="
      lexeme operandStart
      let value ← union nested pattern nested.rounds inner
      pure [value, equals, first]
    else pure [first]
  return phrase .casePattern (← iterate (asStep inner) nested.rounds base).reverse

end CasePattern

/-- A pattern whose brackets nest at most as deep as the bound; `inner` if it is in brackets. -/
def casePattern (nested : Nested) : Nat → (inner : Bool) → Reader Tree
  | 0, _ => stop
  | n + 1, inner => CasePattern.whole nested (casePattern nested n) inner

end ImportAtlas.Source
