import ImportAtlas.Json.Reader
import ImportAtlas.Text.Decimal

/-!
JSON numbers.

A number without fraction and exponent is an integer if it fits in 64 bits. Everything else is a
floating-point number: the digits that fit in 64 bits, multiplied or divided by a power of ten.
-/

namespace ImportAtlas.Json

/-- A number as it is written, its digits apart. -/
structure Numeral where
  negative : Bool
  whole : List Nat
  fraction : Option (List Nat)
  /-- the exponent is negative, and its digits -/
  exponent : Option (Bool × List Nat)
  deriving DecidableEq, Repr

/-- The number of different values of 64 bits. -/
def wordCount : Nat := 0x10000000000000000

/-- The digits are taken into a number as long as it has 64 bits; the rest is left. -/
def gather : Nat → List Nat → Nat × List Nat
  | n, [] => (n, [])
  | n, d :: ds => if 10 * n + d < wordCount then gather (10 * n + d) ds else (n, d :: ds)

def powerOfTen (n : Nat) : Float := .ofScientific 1 false n

/-- The number divided by a power of ten, in steps of `10 ^ 308`. -/
def scaleDown (f : Float) (n : Nat) : Float :=
  if n ≤ 308 then f / powerOfTen n
  else if f == 0 then f
  else scaleDown (f / powerOfTen 308) (n - 308)
termination_by n

/-- The number multiplied by a power of ten, unless that is too large. -/
def scale? (f : Float) (e : Int) : Option Float :=
  if e < 0 then some (scaleDown f e.natAbs)
  else if e ≤ 308 then
    let g := f * powerOfTen e.natAbs
    if g.isInf then none else some g
  else if f == 0 then some f
  else none

/-- The first digits that exceed the range of exponents. -/
def tooLong (digits : List Nat) : Option Nat :=
  (List.range (digits.length + 1)).find? fun n =>
    (digits.take n).foldl (fun e d => 10 * e + d) 0 > 2147483647

namespace Numeral

/-- The numeral as a number that is no integer, or the number of digits of its exponent after which
it is known to be too large. -/
def float (n : Numeral) : Except Nat Float :=
  let (s, left) := gather 0 n.whole
  let fraction := n.fraction.getD []
  let (s, left') := gather s fraction
  let places : Int := left.length - (fraction.length - left'.length : Int)
  let sign (f : Float) : Float := if n.negative then -f else f
  let digits := n.exponent.elim [] (·.2)
  let down := n.exponent.elim false (·.1)
  match tooLong digits with
  | some k => if s ≠ 0 && !down then .error k else .ok (sign 0)
  | none =>
    let e : Nat := digits.foldl (fun e d => 10 * e + d) 0
    let shift : Int := if down then -e else e
    match scale? (.ofNat s) (places + shift) with
    | some f => .ok (sign f)
    | none => .error digits.length

/-- The integer that the numeral is, if it is one of 64 bits. -/
def integer? (n : Numeral) : Option Int :=
  match n.fraction, n.exponent, gather 0 n.whole with
  | none, none, (s, []) =>
    if !n.negative then some s
    else if s ≠ 0 && 2 * s ≤ wordCount then some (-s)
    else none
  | _, _, _ => none

end Numeral

namespace Reader

def isDigit (c : Char) : Bool := '0' ≤ c && c ≤ '9'

def digits : Reader (List Nat) := do
  let ds := (← get).rest.takeWhile isDigit
  modify (·.dropWhile isDigit)
  return ds.map fun c => c.toNat - 48

def wholePart (atEnd : Fault) : Reader (List Nat) := do
  match ← peek? with
  | none => fail atEnd
  | some c =>
    unless isDigit c do failNext .badNumber
    if c = '0' then
      skip
      if (← peek?).any isDigit then failNext .badNumber
      return [0]
    digits

/-- Takes a point and the digits behind it. -/
def fractionPart (atEnd : Fault) : Reader (Option (List Nat)) := do
  unless (← peek?) = some '.' do return none
  skip
  let ds ← digits
  if ds.isEmpty then failNext (if (← peek?).isSome then .badNumber else atEnd)
  return some ds

def exponentPart (atEnd : Fault) : Reader (Option (Bool × List Nat)) := do
  unless (← peek?).any (fun c => c = 'e' || c = 'E') do return none
  skip
  let sign ← peek?
  if sign = some '+' || sign = some '-' then skip
  match ← peek? with
  | none => fail atEnd
  | some c =>
    unless isDigit c do failNext .badNumber
    return some (sign = some '-', ← digits)

def numeral (negative : Bool) (atEnd : Fault) : Reader Numeral := do
  return ⟨negative, ← wholePart atEnd, ← fractionPart atEnd, ← exponentPart atEnd⟩

def number (negative : Bool) : Reader Shape := do
  let start ← get
  let n ← numeral negative .endInValue
  match n.integer? with
  | some i => return .integer i
  | none =>
    match n.float with
    | .ok f => return .fraction (Text.floatText f)
    | .error taken =>
      let length := start.rest.length - (← get).rest.length
      set (start.drop (length - (n.exponent.elim 0 (·.2.length) - taken)))
      fail .hugeNumber

end Reader

end ImportAtlas.Json
