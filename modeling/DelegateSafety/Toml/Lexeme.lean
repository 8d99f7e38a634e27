import DelegateSafety.Text.Digits

/-! # The smallest parts of a TOML text

Strings are read here, and comments are dropped. All other characters stand for themselves. A line
ends with a line feed, which a carriage return may precede; a string of several lines keeps its line
ends as they are written.
-/
namespace DelegateSafety.Toml

inductive Lexeme where
  | char (c : Char)
  | newline
  /-- A string, and whether its quotes were the triple ones. -/
  | text (value : String) (triple : Bool)

/-- A character, or the end of a line. -/
inductive Symbol where
  | char (c : Char)
  | lineEnd (withReturn : Bool)
  deriving DecidableEq

def Symbol.spelling : Symbol → List Char
  | char c => [c]
  | lineEnd withReturn => if withReturn then ['\r', '\n'] else ['\n']

def symbols : List Char → List Symbol
  | '\r' :: '\n' :: rest => .lineEnd true :: symbols rest
  | '\n' :: rest => .lineEnd false :: symbols rest
  | c :: rest => .char c :: symbols rest
  | [] => []

def apostrophe : Char := '\x27'

def isControl (c : Char) : Bool := (c.toNat < 0x20 && c != '\t') || c.toNat == 0x7F

/-- What is being read. The characters of a string come latest first. -/
inductive Scanning where
  | plain
  | comment
  /-- One opening quote, or two. -/
  | opening (quote : Char) (two : Bool)
  | line (quote : Char) (chars : List Char)
  /-- Between triple quotes, behind a number of quotes that may turn out to close the string. -/
  | block (quote : Char) (chars : List Char) (quotes : Nat)
  | blockStart (quote : Char)
  | escape (triple : Bool) (chars : List Char)
  | code (triple : Bool) (chars : List Char) (missing : Nat) (value : Nat)
  /-- Behind a backslash at the end of a line; the line may have ended already. -/
  | gap (chars : List Char) (ended : Bool)

/-- The lexemes so far, latest first, and what is being read. -/
abbrev Scan := List Lexeme × Scanning

def textOf (chars : List Char) (triple : Bool) : Lexeme :=
  .text (String.ofList chars.reverse) triple

def escaped? : Char → Option Char
  | 'b' => some '\x08'
  | 't' => some '\t'
  | 'n' => some '\n'
  | 'f' => some '\x0c'
  | 'r' => some '\r'
  | 'e' => some '\x1b'
  | '"' => some '"'
  | '\\' => some '\\'
  | _ => none

def codeLength? : Char → Option Nat
  | 'x' => some 2
  | 'u' => some 4
  | 'U' => some 8
  | _ => none

def resume (triple : Bool) (chars : List Char) : Scanning :=
  if triple then .block '"' chars 0 else .line '"' chars

def plainStep (done : List Lexeme) : Symbol → Scan
  | .lineEnd _ => (.newline :: done, .plain)
  | .char c =>
    if c = '#' then (done, .comment)
    else if c = '"' || c = apostrophe then (done, .opening c false)
    else (.char c :: done, .plain)

def lineStep (done : List Lexeme) (quote : Char) (chars : List Char) : Symbol → Option Scan
  | .lineEnd _ => none
  | .char c =>
    if c = quote then some (textOf chars false :: done, .plain)
    else if c = '\\' && quote = '"' then some (done, .escape false chars)
    else if isControl c then none
    else some (done, .line quote (c :: chars))

/-- What is neither a backslash nor a quote goes into a string of several lines as it is. -/
def blockText (done : List Lexeme) (quote : Char) (chars : List Char) (s : Symbol) : Option Scan :=
  match s with
  | .lineEnd _ => some (done, .block quote (s.spelling.reverse ++ chars) 0)
  | .char c => if isControl c then none else some (done, .block quote (c :: chars) 0)

/-- Up to two quotes belong to a string that three more close. -/
def blockStep (done : List Lexeme) (quote : Char) (chars : List Char) (quotes : Nat) (s : Symbol) :
    Option Scan :=
  if s = .char quote then
    if quotes = 5 then none else some (done, .block quote chars (quotes + 1))
  else if 3 ≤ quotes then
    some (plainStep (textOf (List.replicate (quotes - 3) quote ++ chars) true :: done) s)
  else
    let chars := List.replicate quotes quote ++ chars
    if s = .char '\\' && quote = '"' then some (done, .escape true chars)
    else blockText done quote chars s

def escapeStep (done : List Lexeme) (triple : Bool) (chars : List Char) : Symbol → Option Scan
  | .lineEnd _ => if triple then some (done, .gap chars true) else none
  | .char c =>
    match escaped? c, codeLength? c with
    | some e, _ => some (done, resume triple (e :: chars))
    | _, some length => some (done, .code triple chars length 0)
    | none, none =>
      if triple && (c = ' ' || c = '\t') then some (done, .gap chars false) else none

def codeStep (done : List Lexeme) (triple : Bool) (chars : List Char) (missing value : Nat) :
    Symbol → Option Scan
  | .lineEnd _ => none
  | .char c =>
    (digitValue? c).bind fun digit =>
      let value := 16 * value + digit
      if missing ≠ 1 then some (done, .code triple chars (missing - 1) value)
      else if value.isValidChar then some (done, resume triple (Char.ofNat value :: chars))
      else none

def gapStep (done : List Lexeme) (chars : List Char) (ended : Bool) (s : Symbol) : Option Scan :=
  match s with
  | .lineEnd _ => some (done, .gap chars true)
  | .char c =>
    if c = ' ' || c = '\t' then some (done, .gap chars ended)
    else if ended then blockStep done '"' chars 0 s
    else none

def step : Scan → Symbol → Option Scan
  | (done, .plain), s => some (plainStep done s)
  | (done, .comment), .lineEnd _ => some (.newline :: done, .plain)
  | (done, .comment), .char c => if isControl c then none else some (done, .comment)
  | (done, .opening quote false), s =>
    if s = .char quote then some (done, .opening quote true) else lineStep done quote [] s
  | (done, .opening quote true), s =>
    if s = .char quote then some (done, .blockStart quote)
    else some (plainStep (textOf [] false :: done) s)
  | (done, .line quote chars), s => lineStep done quote chars s
  | (done, .blockStart quote), .lineEnd _ => some (done, .block quote [] 0)
  | (done, .blockStart quote), s => blockStep done quote [] 0 s
  | (done, .block quote chars quotes), s => blockStep done quote chars quotes s
  | (done, .escape triple chars), s => escapeStep done triple chars s
  | (done, .code triple chars missing value), s => codeStep done triple chars missing value s
  | (done, .gap chars ended), s => gapStep done chars ended s

def finish : Scan → Option (List Lexeme)
  | (done, .plain) | (done, .comment) => some done.reverse
  | (done, .opening _ true) => some (textOf [] false :: done).reverse
  | (done, .block quote chars quotes) =>
    if 3 ≤ quotes then
      some (textOf (List.replicate (quotes - 3) quote ++ chars) true :: done).reverse
    else none
  | _ => none

def withoutMark : List Char → List Char
  | '\ufeff' :: rest => rest
  | chars => chars

/-- The lexemes of a text, which a byte order mark may open. -/
def lexemes? (text : String) : Option (List Lexeme) :=
  ((symbols (withoutMark text.toList)).foldlM step ([], .plain)).bind finish

end DelegateSafety.Toml
