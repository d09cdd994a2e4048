/-!
Quoted text. Six characters have an escape of two characters: the quote, the backslash, line feed,
tab, carriage return and NUL. Every other character stands for itself. A reader meets the
characters after the opening quote, so `escape` writes and `read` reads the part between the quotes.
-/
namespace TypedConfig.Text

/-- The letter that follows the backslash in the escape of a character that has one. -/
def escapeLetter? (c : Char) : Option Char :=
  if c = '"' then some '"'
  else if c = '\\' then some '\\'
  else if c = '\n' then some 'n'
  else if c = '\t' then some 't'
  else if c = '\r' then some 'r'
  else if c = '\x00' then some '0'
  else none

/-- The character that the letter after a backslash stands for, if the pair is an escape. -/
def unescapeLetter? (c : Char) : Option Char :=
  if c = '"' then some '"'
  else if c = '\\' then some '\\'
  else if c = 'n' then some '\n'
  else if c = 't' then some '\t'
  else if c = 'r' then some '\r'
  else if c = '0' then some '\x00'
  else none

/-- The text between the quotes that reads as the given characters. -/
def escape : List Char → List Char
  | [] => []
  | c :: rest =>
    match escapeLetter? c with
    | some letter => '\\' :: letter :: escape rest
    | none => c :: escape rest

/-- The given characters between quotes. -/
def quote (cs : List Char) : List Char :=
  '"' :: (escape cs ++ ['"'])

/-- What a reader of quoted text has found: the characters meant, the characters of the source that
were used up to and including the closing quote, and the source after it. -/
structure Quoted where
  value : List Char
  used : List Char
  rest : List Char
deriving Repr, DecidableEq

/-- Reads from just after an opening quote to the closing one. A line feed or the end of the text
before the closing quote leaves the text unterminated. A backslash before a character that makes no
escape stands for itself, and so does that character. -/
def Quoted.read : List Char → Option Quoted
  | [] => none
  | '\\' :: [] => none
  | '\\' :: c :: rest =>
    if c = '\n' then none
    else (Quoted.read rest).map fun q =>
      match unescapeLetter? c with
      | some meant => { q with value := meant :: q.value, used := '\\' :: c :: q.used }
      | none => { q with value := '\\' :: c :: q.value, used := '\\' :: c :: q.used }
  | c :: rest =>
    if c = '"' then some ⟨[], [c], rest⟩
    else if c = '\n' then none
    else (Quoted.read rest).map fun q => { q with value := c :: q.value, used := c :: q.used }

end TypedConfig.Text
