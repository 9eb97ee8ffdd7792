import ClassGraph.Error

/-!
# Pieces of JSON text

Readers for the parts of a JSON text that settings are made of, and one that passes over a value
of any kind. A reader takes characters from the front of the text; it stops at the first fault
from left to right.

* `Json.string`: a string, escapes resolved; surrogate escapes must come in pairs;
* `Json.number`: a number, which counts as an integer only if it is written without fraction and
  exponent and does not exceed 64 bits; a number beyond the doubles is malformed;
* `Json.clash`: refuses a value of another kind than the wanted one, which is still read as far
  as it is a single word, number or string;
* `Json.skipValue`: passes over a value. It is laxer: surrogates need no partner and numbers have
  no bounds.

Steps that repeat count down from the length of the text: each takes at least one character.
-/

namespace ClassGraph

namespace Json

/-- Takes characters from the front of a text, or finds a fault. -/
abbrev Reader := StateT (List Char) (Except TextFault)

/-- Is the character one of the four blanks? -/
def isBlank (c : Char) : Bool := c = ' ' || c = '\n' || c = '\t' || c = '\r'

/-- The next character, which stays where it is. -/
def peek? : Reader (Option Char) := return (← get).head?

/-- Drops the next character. -/
def drop : Reader Unit := modify List.tail

/-- The next character; the text must not end here. -/
def peek : Reader Char := do
  match ← peek? with
  | some c => return c
  | none => throw .ended

/-- Takes the next character. -/
def next : Reader Char := do
  let c ← peek
  drop
  return c

/-- Passes over blanks and looks at the character after them. -/
def peekVisible : Reader Char := do
  modify (·.dropWhile isBlank)
  peek

/-- Takes the characters of a word. -/
def word : List Char → Reader Unit
  | [] => return
  | w :: ws => do
    if (← next) = w then word ws else throw .malformed

/-- Takes one sign, which blanks may precede. -/
def sign (c : Char) : Reader Unit := do
  if (← peekVisible) = c then drop else throw .malformed

/-- As many steps as a loop over the rest of the text can take. -/
def steps : Reader Nat := return (← get).length + 1

/-! ## Strings -/

/-- The value of a hexadecimal digit. -/
def hexDigit? (c : Char) : Option Nat :=
  if c.isDigit then some (c.toNat - 48)
  else if 'a' ≤ c ∧ c ≤ 'f' then some (c.toNat - 87)
  else if 'A' ≤ c ∧ c ≤ 'F' then some (c.toNat - 55)
  else none

/-- Four hexadecimal digits. The text has ended when fewer than four bytes are left. -/
def codeUnit : Reader Nat := do
  let front := (← get).take 4
  if front.foldl (· + ·.utf8Size) 0 < 4 then throw .ended
  match front.mapM hexDigit? with
  | some ds =>
    modify (·.drop 4)
    return ds.foldl (fun n d => 16 * n + d) 0
  | none => throw .malformed

/-- Is the code unit the first half of a pair? -/
def isHighSurrogate (n : Nat) : Bool := 0xD800 ≤ n && n ≤ 0xDBFF

/-- Is the code unit the second half of a pair? -/
def isLowSurrogate (n : Nat) : Bool := 0xDC00 ≤ n && n ≤ 0xDFFF

/-- The character after a backslash and a `u`; one beyond 16 bits takes a second escape. -/
def codePoint : Reader Char := do
  let n ← codeUnit
  if isLowSurrogate n then throw .malformed
  if isHighSurrogate n then
    word ['\\', 'u']
    let low ← codeUnit
    if isLowSurrogate low then
      return .ofNat (0x10000 + (n - 0xD800) * 0x400 + (low - 0xDC00))
    else throw .malformed
  else return .ofNat n

/-- The character that a one-letter escape stands for. -/
def escape? : Char → Option Char
  | '"' => some '"'
  | '\\' => some '\\'
  | '/' => some '/'
  | 'b' => some '\x08'
  | 'f' => some '\x0c'
  | 'n' => some '\n'
  | 'r' => some '\r'
  | 't' => some '\t'
  | _ => none

/-- The character after a backslash; `unicode` reads what follows a `u`. -/
def escape (unicode : Reader Char) : Reader Char := do
  let c ← next
  if c = 'u' then unicode
  else match escape? c with
    | some d => return d
    | none => throw .malformed

/-- The rest of a string after its opening quote; `acc` holds the characters so far, last one
first. -/
def charsAfter (unicode : Reader Char) (acc : List Char) : Nat → Reader String
  | 0 => throw .malformed
  | fuel + 1 => do
    let c ← next
    if c = '"' then return .ofList acc.reverse
    else if c = '\\' then
      let c ← escape unicode
      charsAfter unicode (c :: acc) fuel
    else if c.toNat < 0x20 then throw .malformed
    else charsAfter unicode (c :: acc) fuel

/-- The rest of a string after its opening quote. -/
def string : Reader String := do charsAfter codePoint [] (← steps)

/-- Passes over the rest of a string after its opening quote. -/
def skipString : Reader Unit := do
  let _ ← charsAfter (return .ofNat (← codeUnit)) [] (← steps)

/-! ## Numbers -/

/-- Takes digits, as values. -/
def digits : Reader (List Nat) := do
  let cs ← get
  set (cs.dropWhile Char.isDigit)
  return (cs.takeWhile Char.isDigit).map (·.toNat - 48)

/-- Takes digits, at least one of them. -/
def someDigits : Reader (List Nat) := do
  match ← digits with
  | [] => do
    let _ ← peek
    throw .malformed
  | ds => return ds

/-- The digits before the point: one nought, or digits that do not begin with one. -/
def whole : Reader (List Nat) := do
  match ← someDigits with
  | 0 :: _ :: _ => throw .malformed
  | ds => return ds

/-- The digits of the fraction, if there is one. -/
def fraction? : Reader (Option (List Nat)) := do
  match ← peek? with
  | some '.' =>
    drop
    return some (← someDigits)
  | _ => return none

/-- The sign of an exponent. -/
def exponentSign : Reader Int := do
  match ← peek? with
  | some '+' => drop; return 1
  | some '-' => drop; return -1
  | _ => return 1

/-- The exponent, if there is one. -/
def exponent? : Reader (Option Int) := do
  match ← peek? with
  | some 'e' | some 'E' =>
    drop
    let s ← exponentSign
    let ds ← someDigits
    return some (s * Int.ofNat (ds.foldl (fun n d => 10 * n + d) 0))
  | _ => return none

/-- Appends digits to `n` until the next one would take it beyond 64 bits; with how many were
taken. -/
def takeDigits (n : Nat) : List Nat → Nat × Nat
  | [] => (n, 0)
  | d :: ds =>
    if 10 * n + d < 2 ^ 64 then
      let (m, k) := takeDigits (10 * n + d) ds
      (m, k + 1)
    else (n, 0)

/-- Does `n * 10 ^ e` lie beyond the doubles? -/
def isHuge (n : Nat) (e : Int) : Bool :=
  n ≠ 0 && 0 ≤ e && (308 < e || (Float.ofNat n * Float.ofScientific 1 false e.toNat).isInf)

/-- A number without its sign; its value, if it is an integer of at most 64 bits. -/
def number : Reader (Option Nat) := do
  let ds ← whole
  let fraction ← fraction?
  let exponent ← exponent?
  let (n, taken) := takeDigits 0 ds
  let dropped := ds.length - taken
  let (m, places) := takeDigits n (fraction.getD [])
  if isHuge m (dropped - places + exponent.getD 0) then throw .malformed
  if dropped = 0 ∧ fraction.isNone ∧ exponent.isNone then return some n else return none

/-- Passes over a number without its sign. A digit that is missing is malformed wherever it is. -/
def skipNumber : Reader Unit := fun cs =>
  let parts : Reader Unit := do
    let _ ← whole
    let _ ← fraction?
    let _ ← exponent?
  (parts cs).mapError fun _ => .malformed

/-! ## Values of any kind -/

/-- Takes a word, a number or a string, as `num` and `str` read them. -/
def scalar (num str : Reader Unit) : Reader Unit := do
  let c ← peek
  if c = 'n' then word ['n', 'u', 'l', 'l']
  else if c = 't' then word ['t', 'r', 'u', 'e']
  else if c = 'f' then word ['f', 'a', 'l', 's', 'e']
  else if c = '"' then drop; str
  else if c = '-' then drop; num
  else if c.isDigit then num
  else throw .malformed

/-- Refuses the value at the front, because another kind of value is wanted. -/
def clash {α : Type} : Reader α := do
  let c ← peek
  if c ≠ '[' ∧ c ≠ '\x7b' then
    scalar (discard number) (discard string)
  throw .mismatched

/-- What a value may stand in. -/
inductive Bracket
  | array
  | object

/-- The sign that closes the bracket. -/
def Bracket.close : Bracket → Char
  | array => ']'
  | object => '\x7d'

/-- Passes over what stands before a value: in an object a key and a colon. -/
def skipKey : Bracket → Reader Unit
  | .array => return
  | .object => do
    sign '"'
    skipString
    sign ':'

mutual

/-- Passes over a value and all that follows it up to the end of the outermost one of the
brackets that it stands in, given innermost first. -/
def skipWithin (within : List Bracket) : Nat → Reader Unit
  | 0 => throw .malformed
  | fuel + 1 => do
    let c ← peekVisible
    if c = '[' then drop; skipFirst within .array fuel
    else if c = '\x7b' then drop; skipFirst within .object fuel
    else
      scalar skipNumber skipString
      skipRest within fuel

/-- Goes on after an opening sign. -/
def skipFirst (within : List Bracket) (b : Bracket) : Nat → Reader Unit
  | 0 => throw .malformed
  | fuel + 1 => do
    if (← peekVisible) = b.close then drop; skipRest within fuel
    else
      skipKey b
      skipWithin (b :: within) fuel

/-- Goes on after a value. -/
def skipRest (within : List Bracket) : Nat → Reader Unit
  | 0 => throw .malformed
  | fuel + 1 =>
    match within with
    | [] => return
    | b :: within => do
      let c ← peekVisible
      drop
      if c = ',' then
        skipKey b
        skipWithin (b :: within) fuel
      else if c = b.close then skipRest within fuel
      else throw .malformed

end

/-- Passes over a value of any kind. -/
def skipValue : Reader Unit := do skipWithin [] (2 * (← steps))

end Json

end ClassGraph
