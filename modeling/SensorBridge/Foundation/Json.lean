import SensorBridge.Foundation.Text

/-!
# JSON

A text is read in two steps. A scanner goes through it character by character: it leaves out the
white space, and puts words and strings together to tokens (`scan`). A parser, with a stack of the
arrays and objects that have begun, builds a value of the tokens (`parse`). Numbers are read as
rationals, exactly, and an object keeps its members in order, also several of one name.

The grammar is that of the standard: there are no control characters in strings, no surrogates that
stand alone, no zeros in front of a number and no commas at an end.
-/

namespace SensorBridge.Foundation.Json

/-- A literal. -/
inductive Literal where
  | null
  | bool (b : Bool)
  | number (q : ℚ)

/-- A value. -/
inductive Value where
  | literal (l : Literal)
  | string (s : String)
  | array (items : List Value)
  | object (members : List (String × Value))

/-- A token. -/
inductive Token where
  | literal (l : Literal)
  | string (s : String)
  | comma
  | colon
  | openArray
  | closeArray
  | openObject
  | closeObject

/-! ### Literals -/

/-- Digits with a point after the first ones. -/
def decimal (whole fraction : List Char) : ℚ :=
  (Nat.ofDigitChars 10 (whole ++ fraction) 0 : ℚ) / 10 ^ fraction.length

/-- Digits. -/
def readNatural (cs : List Char) : Option ℕ :=
  if cs ≠ [] ∧ cs.all Char.isDigit then some (Nat.ofDigitChars 10 cs 0) else none

/-- An exponent, or nothing. -/
def readExponent (q : ℚ) : List Char → Option ℚ
  | [] => some q
  | c :: '+' :: cs => if c = 'e' ∨ c = 'E' then (readNatural cs).map fun e => q * 10 ^ e else none
  | c :: '-' :: cs => if c = 'e' ∨ c = 'E' then (readNatural cs).map fun e => q / 10 ^ e else none
  | c :: cs => if c = 'e' ∨ c = 'E' then (readNatural cs).map fun e => q * 10 ^ e else none

/-- A point and digits, or nothing, before an exponent. -/
def readFraction (whole : List Char) : List Char → Option ℚ
  | '.' :: cs =>
    if cs.takeWhile Char.isDigit = [] then none
    else readExponent (decimal whole (cs.takeWhile Char.isDigit)) (cs.dropWhile Char.isDigit)
  | cs => readExponent (decimal whole []) cs

/-- A number without its sign. -/
def readUnsigned (cs : List Char) : Option ℚ :=
  let whole := cs.takeWhile Char.isDigit
  if whole = [] ∨ (whole.head? = some '0' ∧ whole ≠ ['0']) then none
  else readFraction whole (cs.dropWhile Char.isDigit)

/-- A number. -/
def readNumber : List Char → Option ℚ
  | '-' :: cs => (readUnsigned cs).map (- ·)
  | cs => readUnsigned cs

/-- A word. -/
def readLiteral (w : List Char) : Option Literal :=
  if w = "null".toList then some .null
  else if w = "true".toList then some (.bool true)
  else if w = "false".toList then some (.bool false)
  else (readNumber w).map .number

/-! ### The scanner -/

/-- A part of a string: a character, or a unit of UTF-16. -/
inductive Piece where
  | char (c : Char)
  | unit (u : ℕ)

/-- The first of two surrogates. -/
def IsHigh (u : ℕ) : Prop := 0xD800 ≤ u ∧ u < 0xDC00

/-- The second of two surrogates. -/
def IsLow (u : ℕ) : Prop := 0xDC00 ≤ u ∧ u < 0xE000

instance (u : ℕ) : Decidable (IsHigh u) := inferInstanceAs (Decidable (_ ∧ _))

instance (u : ℕ) : Decidable (IsLow u) := inferInstanceAs (Decidable (_ ∧ _))

/-- The characters of the parts. Two surrogates are one, and none stands alone. -/
def joinPieces : List Piece → Option (List Char)
  | [] => some []
  | .char c :: ps => (joinPieces ps).map (c :: ·)
  | .unit u :: .unit v :: ps =>
    if IsHigh u ∧ IsLow v then
      (joinPieces ps).map (Char.ofNat (0x10000 + (u - 0xD800) * 0x400 + (v - 0xDC00)) :: ·)
    else if IsHigh u ∨ IsLow u then none
    else (joinPieces (.unit v :: ps)).map (Char.ofNat u :: ·)
  | .unit u :: ps => if IsHigh u ∨ IsLow u then none else (joinPieces ps).map (Char.ofNat u :: ·)

/-- Where a scanner is: outside of strings, with a word that has begun, or in a string, there after a
backslash, or in the four digits of a unit. -/
inductive Mode where
  | word (w : List Char)
  | string (ps : List Piece)
  | escape (ps : List Piece)
  | hex (ps : List Piece) (count value : ℕ)

def isWhitespace (c : Char) : Bool := c = ' ' ∨ c = '\t' ∨ c = '\n' ∨ c = '\r'

/-- The characters that are tokens. -/
def structural (c : Char) : Option Token :=
  if c = ',' then some .comma
  else if c = ':' then some .colon
  else if c = '[' then some .openArray
  else if c = ']' then some .closeArray
  else if c = '\x7b' then some .openObject
  else if c = '\x7d' then some .closeObject
  else none

/-- What a character stands for after a backslash. -/
def escaped (c : Char) : Option Char :=
  if c = '"' ∨ c = '\\' ∨ c = '/' then some c
  else if c = 'b' then some '\x08'
  else if c = 'f' then some '\x0c'
  else if c = 'n' then some '\n'
  else if c = 'r' then some '\r'
  else if c = 't' then some '\t'
  else none

/-- A hexadecimal digit. -/
def hexDigit (c : Char) : Option ℕ :=
  if c.isDigit then some (c.toNat - '0'.toNat)
  else if 'a' ≤ c ∧ c ≤ 'f' then some (c.toNat - 'a'.toNat + 10)
  else if 'A' ≤ c ∧ c ≤ 'F' then some (c.toNat - 'A'.toNat + 10)
  else none

/-- A word has ended. -/
def endWord (w : List Char) : Option (List Token) :=
  if w = [] then some [] else (readLiteral w).map fun l => [.literal l]

/-- One character: the tokens that it ends. -/
def step : Mode → Char → Option (List Token × Mode)
  | .word w, c =>
    if isWhitespace c then (endWord w).map fun ts => (ts, .word [])
    else match structural c with
      | some t => (endWord w).map fun ts => (ts ++ [t], .word [])
      | none =>
        if c ≠ '"' then some ([], .word (w ++ [c])) else if w = [] then some ([], .string []) else none
  | .string ps, c =>
    if c = '"' then (joinPieces ps).map fun cs => ([.string (.ofList cs)], .word [])
    else if c = '\\' then some ([], .escape ps)
    else if c.toNat < 0x20 then none
    else some ([], .string (ps ++ [.char c]))
  | .escape ps, c =>
    if c = 'u' then some ([], .hex ps 0 0) else (escaped c).map fun d => ([], .string (ps ++ [.char d]))
  | .hex ps count value, c =>
    (hexDigit c).map fun d =>
      ([], if count = 3 then .string (ps ++ [.unit (16 * value + d)]) else .hex ps (count + 1) (16 * value + d))

/-- The characters of a text. -/
def scan : Mode → List Char → Option (List Token × Mode)
  | m, [] => some ([], m)
  | m, c :: cs => (step m c).bind fun r => (scan r.2 cs).map fun s => (r.1 ++ s.1, s.2)

/-- After a text. -/
def finish : Mode → Option (List Token)
  | .word w => endWord w
  | _ => none

/-! ### The parser -/

/-- An array or an object that has begun, up to the item or the member that comes. -/
inductive Frame where
  | array (items : List Value)
  | object (members : List (String × Value)) (key : String)

/-- What a parser expects: a value, one or the end of an array or an object, a key, the colon after it,
or what may follow a value. -/
inductive Parser where
  | value (stack : List Frame)
  | beginArray (stack : List Frame)
  | beginObject (stack : List Frame)
  | key (stack : List Frame) (members : List (String × Value))
  | colon (stack : List Frame) (members : List (String × Value)) (key : String)
  | done (stack : List Frame) (v : Value)

namespace Parser

/-- A token where a value is expected. -/
def beginValue (stack : List Frame) : Token → Option Parser
  | .literal l => some (.done stack (.literal l))
  | .string s => some (.done stack (.string s))
  | .openArray => some (.beginArray stack)
  | .openObject => some (.beginObject stack)
  | _ => none

/-- One token. -/
def step : Parser → Token → Option Parser
  | .value stack, t => beginValue stack t
  | .beginArray stack, .closeArray => some (.done stack (.array []))
  | .beginArray stack, t => beginValue (.array [] :: stack) t
  | .beginObject stack, .closeObject => some (.done stack (.object []))
  | .beginObject stack, .string k => some (.colon stack [] k)
  | .key stack members, .string k => some (.colon stack members k)
  | .colon stack members k, .colon => some (.value (.object members k :: stack))
  | .done (.array items :: stack) v, .comma => some (.value (.array (items ++ [v]) :: stack))
  | .done (.array items :: stack) v, .closeArray => some (.done stack (.array (items ++ [v])))
  | .done (.object members k :: stack) v, .comma => some (.key stack (members ++ [(k, v)]))
  | .done (.object members k :: stack) v, .closeObject =>
    some (.done stack (.object (members ++ [(k, v)])))
  | _, _ => none

/-- The tokens of a text. -/
def run (p : Parser) (ts : List Token) : Option Parser := ts.foldlM step p

/-- After a text. -/
def finish : Parser → Option Value
  | .done [] v => some v
  | _ => none

end Parser

/-- The value of all tokens. -/
def parse (ts : List Token) : Option Value := ((Parser.value []).run ts).bind Parser.finish

/-- Reads a text. -/
def read (text : String) : Option Value :=
  (scan (.word []) text.toList).bind fun r => (finish r.2).bind fun ts => parse (r.1 ++ ts)

end SensorBridge.Foundation.Json
