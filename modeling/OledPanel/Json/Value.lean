import OledPanel.Json.Token

/-! Values of JSON text. The builder is a machine over the tokens with a stack of the
arrays and objects that are still open, so values may be nested to any depth. Fields
of an object stay in the order of the text and may repeat a key. -/
namespace OledPanel.Json

inductive Value where
  | null
  | flag (b : Bool)
  | number (value : Option Nat)
  | text (chars : Option String)
  | array (items : List Value)
  | object (fields : List (Option String × Value))

/-- An array or object still open, with what it holds so far, the last one first. -/
inductive Frame where
  | array (items : List Value)
  | object (fields : List (Option String × Value))
  /-- An object whose last key waits for its value. -/
  | field (fields : List (Option String × Value)) (key : Option String)

/-- What the next token has to be. -/
inductive Want where
  | value
  | itemOrClose
  | keyOrClose
  | key
  | colon (key : Option String)
  | commaOrClose
  | nothing (v : Value)

structure Builder where
  stack : List Frame
  want : Want

def Builder.start : Builder := ⟨[], .value⟩

/-- A complete value goes into the innermost open frame. -/
def place (v : Value) : List Frame → Option Builder
  | [] => some ⟨[], .nothing v⟩
  | .array items :: st => some ⟨.array (v :: items) :: st, .commaOrClose⟩
  | .field fields key :: st => some ⟨.object ((key, v) :: fields) :: st, .commaOrClose⟩
  | .object _ :: _ => none

/-- The first token of a value. -/
def Builder.value (st : List Frame) : Token → Option Builder
  | .openArray => some ⟨.array [] :: st, .itemOrClose⟩
  | .openObject => some ⟨.object [] :: st, .keyOrClose⟩
  | .null => place .null st
  | .flag b => place (.flag b) st
  | .number n => place (.number n) st
  | .text s => place (.text s) st
  | .closeArray | .closeObject | .comma | .colon => none

def Builder.step (b : Builder) (t : Token) : Option Builder :=
  match b.want, t, b.stack with
  | .value, t, st => Builder.value st t
  | .itemOrClose, .closeArray, .array items :: st => place (.array items.reverse) st
  | .itemOrClose, t, st => Builder.value st t
  | .keyOrClose, .closeObject, .object fields :: st => place (.object fields.reverse) st
  | .keyOrClose, .text s, st => some ⟨st, .colon s⟩
  | .key, .text s, st => some ⟨st, .colon s⟩
  | .colon key, .colon, .object fields :: st => some ⟨.field fields key :: st, .value⟩
  | .commaOrClose, .comma, .array items :: st => some ⟨.array items :: st, .value⟩
  | .commaOrClose, .closeArray, .array items :: st => place (.array items.reverse) st
  | .commaOrClose, .comma, .object fields :: st => some ⟨.object fields :: st, .key⟩
  | .commaOrClose, .closeObject, .object fields :: st => place (.object fields.reverse) st
  | _, _, _ => none

def Builder.finish (b : Builder) : Option Value :=
  match b.want with
  | .nothing v => some v
  | _ => none

/-- A text is one value with nothing but blanks around it. -/
def read (cs : List Char) : Option Value :=
  (tokens cs).bind fun ts => (ts.foldlM Builder.step Builder.start).bind Builder.finish

end OledPanel.Json
