import FunctionWorker.Text.Blank
import FunctionWorker.Text.Identifier

/-!
Literals in the source text of attributes. Only integers are read closely: they may have a sign, a
base, underscores between digits, and the name of a type behind them.
-/

namespace FunctionWorker

/-- A literal. The sign of an integer is kept apart, since minus zero is a numeral too. -/
inductive Literal where
  | bool (b : Bool)
  | text (s : String)
  | char (c : Char)
  | octets
  | integer (negative : Bool) (magnitude : Nat)
  | float
  deriving DecidableEq, Repr

namespace Literal

/-- The value of a digit in a base of at most sixteen. -/
def digit? (base : Nat) (c : Char) : Option Nat :=
  if c.isDigit then some (c.toNat - '0'.toNat)
  else if base ≤ 10 then none
  else if 'a' ≤ c ∧ c ≤ 'f' then some (c.toNat - 'a'.toNat + 10)
  else if 'A' ≤ c ∧ c ≤ 'F' then some (c.toNat - 'A'.toNat + 10)
  else none

/-- The digits at the beginning of a text, without underscores, and the rest. -/
def digits (base : Nat) : List Char → List Nat × List Char
  | [] => ([], [])
  | c :: cs =>
    if c = '_' then digits base cs
    else
      match digit? base c with
      | some d =>
        let (ds, rest) := digits base cs
        (d :: ds, rest)
      | none => ([], c :: cs)

/-- The base that a text announces, and the text behind the announcement. -/
def base : List Char → Nat × List Char
  | '0' :: 'x' :: cs => (16, cs)
  | '0' :: 'o' :: cs => (8, cs)
  | '0' :: 'b' :: cs => (2, cs)
  | cs => (10, cs)

/-- Whether a text may stand behind the digits: nothing, or a name. -/
def isSuffix (cs : List Char) : Bool :=
  cs.isEmpty || Text.isName cs

/-- Whether digits in base ten go on as a fraction or with an exponent. -/
def continuesAsFloat : List Char → Bool
  | '.' :: _ => true
  | c :: rest =>
    (c = 'e' || c = 'E') &&
      (rest.dropWhile (· = '_')).head?.any fun d => d.isDigit || d = '+' || d = '-'
  | [] => false

def magnitude? (cs : List Char) : Option Nat :=
  if !cs.head?.any Char.isDigit then none
  else
    let (base, cs) := base cs
    let (ds, rest) := digits base cs
    if ds.isEmpty || ds.any (base ≤ ·) then none
    else if base = 10 && continuesAsFloat rest then none
    else if isSuffix rest then some (ds.foldl (fun n d => base * n + d) 0)
    else none

def dropSign : List Char → List Char
  | '+' :: cs => cs
  | '-' :: cs => cs
  | cs => cs

/-- Whether what follows a point belongs to a fraction. A name behind the point is a member of the
number, and two points are a range. -/
def isFraction (cs : List Char) : Bool := cs.head?.all fun c => !Text.isNameStart c && c != '.'

/-- Whether a text is a float: digits, and a fraction or an exponent. -/
def isFloat (cs : List Char) : Bool :=
  let (whole, rest) := digits 10 cs
  if whole.isEmpty || !cs.head?.any Char.isDigit then false
  else
    match rest with
    | '.' :: fraction =>
      let rest := (digits 10 fraction).2
      isFraction fraction && (isSuffix rest || isExponent rest)
    | rest => isExponent rest
where
  /-- Whether a text is an exponent, and perhaps a name behind it. -/
  isExponent : List Char → Bool
    | c :: rest =>
      let (ds, suffix) := digits 10 (dropSign (rest.dropWhile (· = '_')))
      (c = 'e' || c = 'E') && !ds.isEmpty && isSuffix suffix
    | [] => false

/-- Reads a numeral, which may have a sign. Blanks may stand around the sign and the digits. -/
def ofNumeral? (source : String) : Option Literal :=
  let (negative, cs) :=
    match Text.trim source.toList with
    | '-' :: cs => (true, cs.dropWhile Text.isBlank)
    | cs => (false, cs)
  match magnitude? cs with
  | some n => some (.integer negative n)
  | none => if isFloat cs then some .float else none

end Literal

end FunctionWorker
