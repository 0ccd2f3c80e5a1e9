/-! Tokens of JSON text. The lexer is a machine that takes one character at a time, so
a text of any length is read in one pass. Only what the readers of this library can use
is kept of a token: the value of a plain natural number, and the characters of a text
whose escapes stand for characters. -/
namespace OledPanel.Json

inductive Token where
  | openArray
  | closeArray
  | openObject
  | closeObject
  | comma
  | colon
  | null
  | flag (b : Bool)
  /-- The value of a numeral without sign, fraction and exponent; `none` for any other. -/
  | number (value : Option Nat)
  /-- The characters of a text; `none` when a surrogate stands alone in it. -/
  | text (chars : Option String)
deriving DecidableEq

/-- What stands between quotation marks: characters, and code units written as escapes. -/
inductive Piece where
  | char (c : Char)
  | unit (n : Nat)
deriving DecidableEq

def isHigh (n : Nat) : Bool := 0xD800 ≤ n && n < 0xDC00

def isLow (n : Nat) : Bool := 0xDC00 ≤ n && n < 0xE000

/-- A high surrogate needs a low one behind it, and a low one needs a high one in front. -/
def decode : List Piece → Option (List Char)
  | [] => some []
  | .char c :: r => (decode r).map (c :: ·)
  | .unit h :: .unit l :: r =>
    if isHigh h then
      if isLow l then
        (decode r).map (Char.ofNat (0x10000 + (h - 0xD800) * 0x400 + (l - 0xDC00)) :: ·)
      else none
    else if isLow h then none
    else (decode (.unit l :: r)).map (Char.ofNat h :: ·)
  | .unit n :: r =>
    if isHigh n || isLow n then none else (decode r).map (Char.ofNat n :: ·)

/-- How far a numeral has been read, named for its last part. -/
inductive Part where
  | sign
  | zero
  | whole
  | point
  | fraction
  | exponent
  | exponentSign
  | exponentDigits
deriving DecidableEq

/-- A numeral may end after these parts. -/
def Part.complete : Part → Bool
  | .zero | .whole | .fraction | .exponentDigits => true
  | .sign | .point | .exponent | .exponentSign => false

def Part.next (p : Part) (c : Char) : Option Part :=
  match p with
  | .sign => if c = '0' then some .zero else if c.isDigit then some .whole else none
  | .zero => after
  | .whole => if c.isDigit then some .whole else after
  | .point | .fraction => if c.isDigit then some .fraction else exponent
  | .exponent =>
    if c = '+' ∨ c = '-' then some .exponentSign
    else if c.isDigit then some .exponentDigits else none
  | .exponentSign | .exponentDigits => if c.isDigit then some .exponentDigits else none
where
  exponent : Option Part :=
    if (c = 'e' ∨ c = 'E') ∧ p.complete then some .exponent else none
  after : Option Part := if c = '.' then some .point else exponent

inductive Mode where
  | between
  /-- The characters still to come of a literal name, of which there is at least one. -/
  | name (next : Char) (rest : List Char) (t : Token)
  /-- The part of a numeral, and its value as long as it may be a plain natural number. -/
  | number (p : Part) (value : Option Nat)
  /-- The pieces of a text so far, the last one first. -/
  | text (pieces : List Piece)
  | escape (pieces : List Piece)
  /-- A code unit with digits still to come. -/
  | unit (pieces : List Piece) (missing : Nat) (value : Nat)

structure Lexer where
  mode : Mode
  /-- The tokens so far, the last one first. -/
  tokens : List Token

def Lexer.start : Lexer := ⟨.between, []⟩

def isBlank (c : Char) : Bool := c = ' ' || c = '\n' || c = '\t' || c = '\r'

def hexValue (c : Char) : Option Nat :=
  if '0' ≤ c ∧ c ≤ '9' then some (c.toNat - 48)
  else if 'a' ≤ c ∧ c ≤ 'f' then some (c.toNat - 87)
  else if 'A' ≤ c ∧ c ≤ 'F' then some (c.toNat - 55)
  else none

/-- The character a one-letter escape stands for. -/
def escaped : Char → Option Char
  | '"' => some '"'
  | '\\' => some '\\'
  | '/' => some '/'
  | 'b' => some '\x08'
  | 'f' => some '\x0c'
  | 'n' => some '\n'
  | 'r' => some '\r'
  | 't' => some '\t'
  | _ => none

/-- A token may start at any character between two others. -/
def begin (ts : List Token) (c : Char) : Option Lexer :=
  match c with
  | '[' => some ⟨.between, .openArray :: ts⟩
  | ']' => some ⟨.between, .closeArray :: ts⟩
  | '{' => some ⟨.between, .openObject :: ts⟩
  | '}' => some ⟨.between, .closeObject :: ts⟩
  | ',' => some ⟨.between, .comma :: ts⟩
  | ':' => some ⟨.between, .colon :: ts⟩
  | 'n' => some ⟨.name 'u' ['l', 'l'] .null, ts⟩
  | 't' => some ⟨.name 'r' ['u', 'e'] (.flag true), ts⟩
  | 'f' => some ⟨.name 'a' ['l', 's', 'e'] (.flag false), ts⟩
  | '"' => some ⟨.text [], ts⟩
  | '-' => some ⟨.number .sign none, ts⟩
  | '0' => some ⟨.number .zero (some 0), ts⟩
  | c =>
    if c.isDigit then some ⟨.number .whole (some (c.toNat - 48)), ts⟩
    else if isBlank c then some ⟨.between, ts⟩
    else none

/-- A digit of the whole part adds to the value; any other part takes it away. -/
def grown (p : Part) (value : Option Nat) (c : Char) : Option Nat :=
  match p with
  | .whole => value.map fun v => 10 * v + (c.toNat - 48)
  | _ => none

def Lexer.step (l : Lexer) (c : Char) : Option Lexer :=
  match l.mode with
  | .between => begin l.tokens c
  | .name next rest t =>
    if c = next then
      match rest with
      | [] => some ⟨.between, t :: l.tokens⟩
      | x :: r => some ⟨.name x r t, l.tokens⟩
    else none
  | .number p value =>
    match p.next c with
    | some q => some ⟨.number q (grown q value c), l.tokens⟩
    | none => if p.complete then begin (.number value :: l.tokens) c else none
  | .text ps =>
    if c = '"' then some ⟨.between, .text ((decode ps.reverse).map String.ofList) :: l.tokens⟩
    else if c = '\\' then some ⟨.escape ps, l.tokens⟩
    else if c.toNat < 0x20 then none
    else some ⟨.text (.char c :: ps), l.tokens⟩
  | .escape ps =>
    if c = 'u' then some ⟨.unit ps 4 0, l.tokens⟩
    else (escaped c).map fun x => ⟨.text (.char x :: ps), l.tokens⟩
  | .unit ps missing value =>
    (hexValue c).map fun d =>
      let value := 16 * value + d
      if missing ≤ 1 then ⟨.text (.unit value :: ps), l.tokens⟩
      else ⟨.unit ps (missing - 1) value, l.tokens⟩

/-- The tokens in order, unless the text ends inside one. -/
def Lexer.finish (l : Lexer) : Option (List Token) :=
  match l.mode with
  | .between => some l.tokens.reverse
  | .number p value => if p.complete then some (.number value :: l.tokens).reverse else none
  | _ => none

def tokens (cs : List Char) : Option (List Token) :=
  (cs.foldlM Lexer.step Lexer.start).bind Lexer.finish

end OledPanel.Json
