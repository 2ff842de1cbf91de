import ImportAtlas.Text.Name

/-!
The lexemes of Python at the front of a text: words, numbers and operators.

Each function looks at the front of the text only and takes the longest lexeme of its class.
Whether a word is a keyword is not decided here: that depends on what may stand at the place.
-/

namespace ImportAtlas.Source

open ImportAtlas.Text

def wordLength : List Char → Nat
  | [] => 0
  | c :: cs => if isNameStart c then 1 + (cs.takeWhile isNameContinue).length else 0

def wordAt (cs : List Char) : Option String :=
  match wordLength cs with
  | 0 => none
  | n => some (String.ofList (cs.take n))

def symbolAt : List Char → Option String
  | '*' :: '*' :: '=' :: _ => some "**="
  | '*' :: '*' :: _ => some "**"
  | '*' :: '=' :: _ => some "*="
  | '*' :: _ => some "*"
  | '/' :: '/' :: '=' :: _ => some "//="
  | '/' :: '/' :: _ => some "//"
  | '/' :: '=' :: _ => some "/="
  | '/' :: _ => some "/"
  | '<' :: '<' :: '=' :: _ => some "<<="
  | '<' :: '<' :: _ => some "<<"
  | '<' :: '=' :: _ => some "<="
  | '<' :: '>' :: _ => some "<>"
  | '<' :: _ => some "<"
  | '>' :: '>' :: '=' :: _ => some ">>="
  | '>' :: '>' :: _ => some ">>"
  | '>' :: '=' :: _ => some ">="
  | '>' :: _ => some ">"
  | '+' :: '=' :: _ => some "+="
  | '+' :: _ => some "+"
  | '-' :: '=' :: _ => some "-="
  | '-' :: '>' :: _ => some "->"
  | '-' :: _ => some "-"
  | '%' :: '=' :: _ => some "%="
  | '%' :: _ => some "%"
  | '@' :: '=' :: _ => some "@="
  | '@' :: _ => some "@"
  | '&' :: '=' :: _ => some "&="
  | '&' :: _ => some "&"
  | '|' :: '=' :: _ => some "|="
  | '|' :: _ => some "|"
  | '^' :: '=' :: _ => some "^="
  | '^' :: _ => some "^"
  | '=' :: '=' :: _ => some "=="
  | '=' :: _ => some "="
  | '!' :: '=' :: _ => some "!="
  | ':' :: '=' :: _ => some ":="
  | ':' :: _ => some ":"
  | '.' :: '.' :: '.' :: _ => some "..."
  | '.' :: _ => some "."
  | '~' :: _ => some "~"
  | ',' :: _ => some ","
  | ';' :: _ => some ";"
  | '(' :: _ => some "("
  | ')' :: _ => some ")"
  | '[' :: _ => some "["
  | ']' :: _ => some "]"
  | '\x7b' :: _ => some "\x7b"
  | '\x7d' :: _ => some "\x7d"
  | _ => none

namespace Number

def digitsAfter : Bool → List Char → Nat
  | _, [] => 0
  | grouped, c :: cs =>
    if c.isDigit then 1 + digitsAfter false cs
    else if c = '_' && !grouped then 1 + digitsAfter true cs
    else 0

/-- The length of a run of decimal digits, a single underscore allowed after each. -/
def digits : List Char → Nat
  | c :: cs => if c.isDigit then 1 + digitsAfter false cs else 0
  | [] => 0

/-- The length of a run of digits of another base, a single underscore allowed before each. -/
def digitsOf (isDigit : Char → Bool) : List Char → Nat
  | '_' :: c :: cs => if isDigit c then 2 + digitsOf isDigit cs else 0
  | c :: cs => if isDigit c then 1 + digitsOf isDigit cs else 0
  | [] => 0

def exponent : List Char → Nat
  | e :: cs =>
    if e = 'e' || e = 'E' then
      match cs with
      | '+' :: ds | '-' :: ds => if digits ds = 0 then 0 else 2 + digits ds
      | ds => if digits ds = 0 then 0 else 1 + digits ds
    else 0
  | [] => 0

/-- One if the text begins with one of the marks, else zero. -/
def mark (marks : List Char) : List Char → Nat
  | c :: _ => if marks.contains c then 1 else 0
  | [] => 0

def isHexDigit (c : Char) : Bool :=
  c.isDigit || ('a' ≤ c && c ≤ 'f') || ('A' ≤ c && c ≤ 'F')

/-- An integer behind a base mark of two characters, with an optional mark of a long integer. -/
def based (isDigit : Char → Bool) (cs : List Char) : Option Nat :=
  match digitsOf isDigit cs with
  | 0 => none
  | n => some (2 + n + mark ['l', 'L'] (cs.drop n))

/-- A fraction and an exponent behind `n` characters, with an optional imaginary mark. -/
def floatFrom (n : Nat) (cs : List Char) : Nat :=
  let m := exponent cs
  n + m + mark ['j', 'J'] (cs.drop m)

def decimal (cs : List Char) : Option (Nat × Bool) :=
  match digits cs, cs.drop (digits cs) with
  | 0, '.' :: ds =>
    match digits ds with
    | 0 => none
    | n => some (floatFrom (1 + n) (ds.drop n), false)
  | 0, _ => none
  | n, '.' :: ds => some (floatFrom (n + 1 + digits ds) (ds.drop (digits ds)), false)
  | n, ds =>
    match exponent ds with
    | 0 => some (n + mark ['l', 'L', 'j', 'J'] ds, true)
    | _ => some (floatFrom n ds, false)

end Number

/-- The length of the number at the front, and whether it is an integer. -/
def numberAt (cs : List Char) : Option (Nat × Bool) :=
  let integer : Option Nat :=
    match cs with
    | '0' :: b :: ds =>
      if b = 'x' || b = 'X' then Number.based Number.isHexDigit ds
      else if b = 'o' || b = 'O' then Number.based (fun c => '0' ≤ c && c ≤ '7') ds
      else if b = 'b' || b = 'B' then Number.based (fun c => c = '0' || c = '1') ds
      else none
    | _ => none
  match integer with
  | some n => some (n, true)
  | none => Number.decimal cs

/-- The signs before and around the quotes of a string. -/
structure Quote where
  /-- Characters up to and with the opening quotes. -/
  length : Nat
  mark : Char
  triple : Bool
  format : Bool
  raw : Bool
  bytes : Bool
  deriving DecidableEq, Repr

/-- The opening of a string at the front: any run of the letters f, r, b and u, then quotes. -/
def quoteFrom (n : Nat) (format raw bytes : Bool) : List Char → Option Quote
  | [] => none
  | c :: cs =>
    if c = 'f' || c = 'F' then quoteFrom (n + 1) true raw bytes cs
    else if c = 'r' || c = 'R' then quoteFrom (n + 1) format true bytes cs
    else if c = 'b' || c = 'B' then quoteFrom (n + 1) format raw true cs
    else if c = 'u' || c = 'U' then quoteFrom (n + 1) format raw bytes cs
    else if c = '"' || c = '\'' then
      match cs with
      | d :: e :: _ =>
        if d = c && e = c then some ⟨n + 3, c, true, format, raw, bytes⟩
        else some ⟨n + 1, c, false, format, raw, bytes⟩
      | _ => some ⟨n + 1, c, false, format, raw, bytes⟩
    else if c = '\x60' then some ⟨n + 1, c, false, format, raw, bytes⟩
    else none

def quoteAt (cs : List Char) : Option Quote := quoteFrom 0 false false false cs

end ImportAtlas.Source
