/-
  A reader of JSON text.

  A reader consumes the front of a text and either returns a value or stops at
  the first flaw it meets. A flaw is one of three: the text breaks the grammar,
  the text ends inside a value, or the value is well formed but of another
  shape than the one asked for. Readers of larger things are put together from
  readers of their parts in the order of the text, so the flaw reported is
  always the one that stands first.

  Strings that are read must name characters: half of a surrogate pair alone
  breaks the grammar. Values that are passed over (`skip`) are only checked for
  their outline, so there it goes unnoticed.
-/
import ScriptCheck.Json.Numeral

namespace ScriptCheck.Json

/-- Why a text is refused. -/
inductive Flaw
  /-- The text breaks the grammar. -/
  | malformed
  /-- The text ends before the value does. -/
  | truncated
  /-- The value is not of the shape asked for. -/
  | mismatch
deriving DecidableEq, Repr

/-- A reader takes what it needs from the front of a text. -/
abbrev Reader := StateT (List Char) (Except Flaw)

namespace Reader

/-! ## Characters -/

/-- The characters that may stand between the parts of a value. -/
def isBlank (c : Char) : Bool := c = ' ' || c = '\n' || c = '\t' || c = '\r'

/-- The next character that is no blank; it stays in the text. -/
def ahead : Reader Char := do
  match (← get).dropWhile isBlank with
  | [] => throw .truncated
  | c :: rest => set (c :: rest); return c

/-- Drops the character in front. -/
def advance : Reader Unit := modify List.tail

/-- Reads the given characters. -/
def word : List Char → Reader Unit
  | [] => return ()
  | expected :: more => do
    match ← get with
    | [] => throw .truncated
    | c :: rest =>
      if c = expected then
        set rest
        word more
      else
        throw .malformed

/-- Takes the digits in front. -/
def digits : Reader (List Char) := do
  let text ← get
  set (text.dropWhile Char.isDigit)
  return text.takeWhile Char.isDigit

/-! ## Numbers -/

/-- Reads the digits that must follow; `atEnd` is the flaw of a text that ends instead. -/
def someDigits (atEnd : Flaw) : Reader (List Char) := do
  match ← get with
  | [] => throw atEnd
  | c :: _ => if c.isDigit then digits else throw .malformed

/-- Reads the exponent of a number, if there is one. -/
def exponent (atEnd : Flaw) : Reader (Option Int) := do
  match ← get with
  | c :: rest =>
    if c = 'e' || c = 'E' then
      let negative := rest.head? = some '-'
      set (if negative || rest.head? = some '+' then rest.tail else rest)
      let power := (Numeral.valueOf (← someDigits atEnd) : Int)
      return some (if negative then -power else power)
    else
      return none
  | [] => return none

/-- Reads a number; `atEnd` is the flaw of a text that ends where a digit must follow. -/
def numeral (atEnd : Flaw) : Reader Numeral := do
  let negative := (← get).head? = some '-'
  if negative then advance
  let whole ← someDigits atEnd
  if whole.head? = some '0' && whole.length > 1 then throw .malformed
  let mut fraction := []
  if (← get).head? = some '.' then
    advance
    fraction ← someDigits atEnd
  return ⟨negative, whole, fraction, ← exponent atEnd⟩

/-! ## Strings -/

/-- What the inside of a string is about to say. -/
inductive StringMode
  /-- The next character. -/
  | plain
  /-- What stands after a backslash. -/
  | escape
  /-- More digits of a code unit, after the first half of a pair if there was one. -/
  | unit (missing code : Nat) (high : Option Nat)
  /-- The backslash of the second half of a pair. -/
  | pairEscape (high : Nat)
  /-- The letter of the second half of a pair. -/
  | pairUnit (high : Nat)

/-- The character that a letter after a backslash stands for. -/
def escaped : Char → Option Char
  | '"' => some '"'
  | '\\' => some '\\'
  | '/' => some '/'
  | 'b' => some '\x08'
  | 'f' => some '\x0c'
  | 'n' => some '\n'
  | 'r' => some '\r'
  | 't' => some '\t'
  | _ => none

/-- The value of a hexadecimal digit. -/
def hexDigit (c : Char) : Option Nat :=
  if '0' ≤ c && c ≤ '9' then some (c.toNat - 48)
  else if 'a' ≤ c && c ≤ 'f' then some (c.toNat - 87)
  else if 'A' ≤ c && c ≤ 'F' then some (c.toNat - 55)
  else none

/-- Whether a text is too short to hold four digits, counted in the bytes it takes. -/
def lacksDigits (text : List Char) : Bool := (String.ofList (text.take 4)).utf8ByteSize < 4

/-- What a finished code unit means: a character, or the first half of a pair. -/
def finishUnit (code : Nat) (high : Option Nat) : Except Flaw (Sum Nat Char) :=
  let isLow := 0xDC00 ≤ code && code ≤ 0xDFFF
  match high with
  | some high =>
    if isLow then
      .ok (.inr (Char.ofNat (0x10000 + (high - 0xD800) * 0x400 + (code - 0xDC00))))
    else
      .error .malformed
  | none =>
    if isLow then .error .malformed
    else if 0xD800 ≤ code && code ≤ 0xDBFF then .ok (.inl code)
    else .ok (.inr (Char.ofNat code))

/-- Reads the inside of a string up to its closing quote. With `strict` off, code units are only
    checked for their digits. `read` holds the characters so far, the last one first. -/
def scanString (strict : Bool) :
    StringMode → List Char → List Char → Except Flaw (List Char × List Char)
  | _, _, [] => .error .truncated
  | .plain, read, c :: rest =>
    if c = '"' then .ok (read.reverse, rest)
    else if c = '\\' then scanString strict .escape read rest
    else if c.toNat < 0x20 then .error .malformed
    else scanString strict .plain (c :: read) rest
  | .escape, read, c :: rest =>
    match escaped c with
    | some meant => scanString strict .plain (meant :: read) rest
    | none =>
      if c ≠ 'u' then .error .malformed
      else if lacksDigits rest then .error .truncated
      else scanString strict (.unit 4 0 none) read rest
  | .unit missing code high, read, c :: rest =>
    match hexDigit c with
    | none => .error .malformed
    | some digit =>
      let code := 16 * code + digit
      if missing > 1 then scanString strict (.unit (missing - 1) code high) read rest
      else if !strict then scanString strict .plain read rest
      else
        match finishUnit code high with
        | .error flaw => .error flaw
        | .ok (.inl high) => scanString strict (.pairEscape high) read rest
        | .ok (.inr meant) => scanString strict .plain (meant :: read) rest
  | .pairEscape high, read, c :: rest =>
    if c = '\\' then scanString strict (.pairUnit high) read rest else .error .malformed
  | .pairUnit high, read, c :: rest =>
    if c ≠ 'u' then .error .malformed
    else if lacksDigits rest then .error .truncated
    else scanString strict (.unit 4 0 (some high)) read rest

/-- Reads a string whose opening quote stands in front. -/
def quoted (strict : Bool) : Reader String := do
  advance
  let (inside, rest) ← scanString strict .plain [] (← get)
  set rest
  return String.ofList inside

/-! ## Containers -/

/-- Reads the colon between a key and its value. -/
def colon : Reader Unit := do
  if (← ahead) = ':' then advance else throw .malformed

/-- Whether another entry follows in a container that `closer` ends; the comma in front of it is
    taken, the closer is not. -/
def another (closer : Char) (first : Bool) : Reader Bool := do
  let c ← ahead
  if c = closer then return false
  else if first then return true
  else if c = ',' then
    advance
    if (← ahead) = closer then throw .malformed else return true
  else throw .malformed

/-- Reads a key and its colon. -/
def key (strict : Bool) : Reader String := do
  if (← ahead) ≠ '"' then throw .malformed
  let name ← quoted strict
  return name

/-- Reads the entries of a container one after the other; each takes at least one character, so
    `budget` is never used up when it is the length of the text. -/
def entries (closer : Char) (entry : σ → Reader σ) : Nat → Bool → σ → Reader σ
  | 0, _, _ => throw .malformed
  | budget + 1, first, state => do
    if ← another closer first then
      entries closer entry budget false (← entry state)
    else
      advance
      return state

/-- Reads a container whose opening bracket stands in front. -/
def container (closer : Char) (entry : σ → Reader σ) (start : σ) : Reader σ := do
  advance
  entries closer entry ((← get).length + 1) true start

/-! ## Values that are passed over -/

/-- Passes over one value; every nested value begins later in the text. -/
def skipWithin : Nat → Reader Unit
  | 0 => throw .malformed
  | budget + 1 => do
    let c ← ahead
    if c = '"' then
      discard (quoted false)
    else if c = '[' then
      container ']' (fun _ => skipWithin budget) ()
    else if c = '{' then
      container '}' (fun _ => do discard (key false); colon; skipWithin budget) ()
    else if c = 'n' then word "null".toList
    else if c = 't' then word "true".toList
    else if c = 'f' then word "false".toList
    else if c = '-' || c.isDigit then discard (numeral .malformed)
    else throw .malformed

/-- Passes over the value in front. -/
def skip : Reader Unit := do skipWithin ((← get).length + 1)

/-! ## Values of a known shape -/

/-- Refuses the value in front because of its shape, unless it is flawed itself. -/
def refuse : Reader α := do
  let c ← ahead
  if c = '"' then discard (quoted true)
  else if c = 'n' then word "null".toList
  else if c = 't' then word "true".toList
  else if c = 'f' then word "false".toList
  else if c = '-' || c.isDigit then
    if (← numeral .truncated).isHuge then throw .malformed
  else if c ≠ '[' && c ≠ '{' then throw .malformed
  throw .mismatch

/-- Reads nothing but `null`. -/
def null : Reader Unit := do
  if (← ahead) = 'n' then word "null".toList else refuse

/-- Reads a truth value. -/
def boolean : Reader Bool := do
  let c ← ahead
  if c = 't' then
    word "true".toList
    return true
  else if c = 'f' then
    word "false".toList
    return false
  else refuse

/-- Reads a string. -/
def string : Reader String := do
  if (← ahead) = '"' then quoted true else refuse

/-- Reads a natural number of at most 32 bits. -/
def word32 : Reader Nat := do
  let c ← ahead
  if c = '-' || c.isDigit then
    let n ← numeral .truncated
    match n.natural? with
    | some value => if value ≤ 0xFFFFFFFF then return value else throw .mismatch
    | none => if n.isHuge then throw .malformed else throw .mismatch
  else refuse

/-- Reads an array of things of one kind. -/
def list (item : Reader α) : Reader (List α) := do
  if (← ahead) = '[' then
    return (← container ']' (fun read => return (← item) :: read) []).reverse
  else refuse

/-- Reads an object, handing each key to a reader of its value. -/
def members (member : String → σ → Reader σ) (start : σ) : Reader σ := do
  if (← ahead) = '{' then
    container '}' (fun state => do let name ← key true; colon; member name state) start
  else refuse

/-- Reads the elements of an array into the fields in front, each in turn; the array may be the
    shorter one, but not the longer. -/
def positional (field : String → σ → Reader σ) :
    List String → Bool → σ → List String → Reader (σ × List String)
  | [], _, state, seen => do
    if (← ahead) = ']' then
      advance
      return (state, seen)
    else throw .malformed
  | name :: names, first, state, seen => do
    if ← another ']' first then
      positional field names false (← field name state) (name :: seen)
    else
      advance
      return (state, seen)

/-- Reads a record: an object with the named fields in any order, where other keys are passed
    over and a field may stand only once, or an array of the fields in their order. Returns the
    fields that stood there too. -/
def record (names : List String) (field : String → σ → Reader σ) (start : σ) :
    Reader (σ × List String) := do
  if (← ahead) = '[' then
    advance
    positional field names true start []
  else if (← ahead) = '{' then
    let member : σ × List String → Reader (σ × List String) := fun (state, seen) => do
      let name ← key true
      if seen.contains name then throw .mismatch
      colon
      if names.contains name then return (← field name state, name :: seen)
      skip
      return (state, seen)
    container '}' member (start, [])
  else refuse

/-- Reads a record of which no field may be missing. -/
def complete (names : List String) (field : String → σ → Reader σ) (start : σ) : Reader σ := do
  let (state, seen) ← record names field start
  if seen.length = names.length then return state else throw .mismatch

/-- Reads one of several named cases without content, a string or an object with `null` inside. -/
def named (cases : List (String × α)) : Reader α := do
  let pick (name : String) : Reader α :=
    match cases.lookup name with
    | some value => return value
    | none => throw .mismatch
  if (← ahead) = '"' then
    pick (← string)
  else if (← ahead) = '{' then
    advance
    let value ← pick (← key true)
    colon
    null
    if (← ahead) = '}' then
      advance
      return value
    else throw .malformed
  else refuse

end Reader

/-- The value of a whole text: nothing but blanks may follow it. -/
def parse (reader : Reader α) (text : String) : Except Flaw α := do
  let (value, rest) ← reader.run text.toList
  if rest.all Reader.isBlank then return value else throw .malformed

/-! ## What is read -/

/-- Blanks may stand around a number; a leading zero may not stand in it. -/
example : parse Reader.word32 " 12 " = .ok 12 ∧ parse Reader.word32 "01" = .error .malformed :=
  ⟨rfl, rfl⟩

/-- A text that breaks off is told from one that goes on wrongly. -/
example : parse Reader.boolean "tru" = .error .truncated ∧
    parse Reader.boolean "trus" = .error .malformed ∧
    parse Reader.boolean "true x" = .error .malformed ∧
    parse Reader.boolean "null" = .error .mismatch :=
  ⟨rfl, rfl, rfl, rfl⟩

end ScriptCheck.Json
