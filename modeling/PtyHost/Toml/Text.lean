import PtyHost.Text.Numeral

/-!
# The characters of a TOML document

White space, comments, strings and keys. A reader takes the characters to be read and gives what
it found with those that are left, or nothing if they do not begin as they should. Lines end with
a line feed; `unixLines` removes the carriage returns in front of these.
-/

namespace PtyHost.Toml

/-- The text with a line feed alone at the end of each line. -/
def unixLines : List Char → List Char
  | '\r' :: '\n' :: rest => '\n' :: unixLines rest
  | c :: rest => c :: unixLines rest
  | [] => []

/-- Space and tab. -/
def isBlank (c : Char) : Bool := c = ' ' || c = '\t'

/-- The characters that a comment or a string may hold as they are. -/
def isPlain (c : Char) : Bool := c = '\t' || (' ' ≤ c && c ≠ '\x7f')

/-- The text behind blanks. -/
def skipBlanks (cs : List Char) : List Char := cs.dropWhile isBlank

/-- The text behind a comment, if there is one. -/
def skipComment : List Char → List Char
  | '#' :: rest => rest.dropWhile isPlain
  | cs => cs

/-- The text behind the end of a line, which blanks and a comment may come before. -/
def lineEnd? (cs : List Char) : Option (List Char) :=
  match skipComment (skipBlanks cs) with
  | [] => some []
  | '\n' :: rest => some rest
  | _ => none

/-- The text behind blanks, comments and line ends. -/
def skipLines : (fuel : Nat) → List Char → List Char
  | 0, cs => cs
  | fuel + 1, cs =>
    match skipBlanks cs with
    | '\n' :: rest => skipLines fuel rest
    | '#' :: rest =>
      match rest.dropWhile isPlain with
      | '\n' :: rest => skipLines fuel rest
      | _ => '#' :: rest
    | cs => cs

/-- The text behind blanks, comments and line ends. -/
def skipGap (cs : List Char) : List Char := skipLines cs.length cs

/-- The character of a number in hexadecimal digits. -/
def hexChar? (digits : List Char) : Option Char := do
  let n := Numeral.ofDigits 16 (← digits.mapM Numeral.hexDigit?)
  if n.isValidChar then some (Char.ofNat n) else none

/-- What a backslash and a character stand for. -/
def escaped? : Char → Option Char
  | 'b' => some '\x08'
  | 't' => some '\t'
  | 'n' => some '\n'
  | 'f' => some '\x0c'
  | 'r' => some '\r'
  | '"' => some '"'
  | '\\' => some '\\'
  | _ => none

/-- The character that an escape stands for, read behind its backslash. -/
def escape? : List Char → Option (Char × List Char)
  | 'u' :: a :: b :: c :: d :: rest => do return (← hexChar? [a, b, c, d], rest)
  | 'U' :: a :: b :: c :: d :: e :: f :: g :: h :: rest => do
    return (← hexChar? [a, b, c, d, e, f, g, h], rest)
  | c :: rest => do return (← escaped? c, rest)
  | [] => none

/-- A string on one line, read behind its opening quote; `out` holds its characters so far, the
newest first. -/
def basicBody : (fuel : Nat) → (out : List Char) → List Char → Option (String × List Char)
  | 0, _, _ => none
  | _ + 1, out, '"' :: rest => some (String.ofList out.reverse, rest)
  | fuel + 1, out, '\\' :: rest => do
    let (c, rest) ← escape? rest
    basicBody fuel (c :: out) rest
  | fuel + 1, out, c :: rest => if isPlain c then basicBody fuel (c :: out) rest else none
  | _ + 1, _, [] => none

/-- A string of several lines, read behind its opening quotes. A backslash at the end of a line
swallows the white space behind it. Up to two quotes may stand in front of the closing ones. -/
def multilineBasicBody : (fuel : Nat) → (out : List Char) → List Char → Option (String × List Char)
  | 0, _, _ => none
  | _ + 1, out, '"' :: '"' :: '"' :: '"' :: '"' :: rest =>
    some (String.ofList ('"' :: '"' :: out).reverse, rest)
  | _ + 1, out, '"' :: '"' :: '"' :: '"' :: rest => some (String.ofList ('"' :: out).reverse, rest)
  | _ + 1, out, '"' :: '"' :: '"' :: rest => some (String.ofList out.reverse, rest)
  | fuel + 1, out, '\\' :: rest =>
    match skipBlanks rest with
    | '\n' :: rest => multilineBasicBody fuel out (rest.dropWhile fun c ↦ isBlank c || c = '\n')
    | _ => do
      let (c, rest) ← escape? rest
      multilineBasicBody fuel (c :: out) rest
  | fuel + 1, out, c :: rest =>
    if isPlain c || c = '\n' then multilineBasicBody fuel (c :: out) rest else none
  | _ + 1, _, [] => none

/-- A literal string on one line, read behind its opening quote. -/
def literalBody (cs : List Char) : Option (String × List Char) :=
  match cs.dropWhile fun c ↦ isPlain c && c ≠ '\x27' with
  | '\x27' :: rest =>
    some (String.ofList (cs.takeWhile fun c ↦ isPlain c && c ≠ '\x27'), rest)
  | _ => none

/-- A literal string of several lines, read behind its opening quotes. -/
def multilineLiteralBody : (out : List Char) → List Char → Option (String × List Char)
  | out, '\x27' :: '\x27' :: '\x27' :: '\x27' :: '\x27' :: rest =>
    some (String.ofList ('\x27' :: '\x27' :: out).reverse, rest)
  | out, '\x27' :: '\x27' :: '\x27' :: '\x27' :: rest =>
    some (String.ofList ('\x27' :: out).reverse, rest)
  | out, '\x27' :: '\x27' :: '\x27' :: rest => some (String.ofList out.reverse, rest)
  | out, c :: rest => if isPlain c || c = '\n' then multilineLiteralBody (c :: out) rest else none
  | _, [] => none

/-- The text without a line end at its start. -/
def skipFirstLineEnd : List Char → List Char
  | '\n' :: rest => rest
  | cs => cs

/-- A string of any of the four kinds. -/
def string? : List Char → Option (String × List Char)
  | '"' :: '"' :: '"' :: rest => multilineBasicBody (rest.length + 1) [] (skipFirstLineEnd rest)
  | '"' :: rest => basicBody (rest.length + 1) [] rest
  | '\x27' :: '\x27' :: '\x27' :: rest => multilineLiteralBody [] (skipFirstLineEnd rest)
  | '\x27' :: rest => literalBody rest
  | _ => none

/-- The characters of a key without quotes. -/
def isBare (c : Char) : Bool := c.isAlphanum || c = '_' || c = '-'

/-- A key without dots. -/
def simpleKey? : List Char → Option (String × List Char)
  | '"' :: rest => basicBody (rest.length + 1) [] rest
  | '\x27' :: rest => literalBody rest
  | cs => do
    guard (cs.takeWhile isBare ≠ [])
    return (String.ofList (cs.takeWhile isBare), cs.dropWhile isBare)

/-- The most keys that dots may join. -/
def maxKeys : Nat := 79

/-- One or more keys joined by dots, with the blanks around each. -/
def keys? : (fuel : Nat) → List Char → Option ((List String) × List Char)
  | 0, _ => none
  | fuel + 1, cs => do
    let (key, rest) ← simpleKey? (skipBlanks cs)
    match skipBlanks rest with
    | '.' :: rest => do
      let (keys, rest) ← keys? fuel rest
      return (key :: keys, rest)
    | rest => return ([key], rest)

/-- A key, given as the keys in front of its last dot and the one behind it. -/
def keyPath? (cs : List Char) : Option ((List String × String) × List Char) := do
  let (keys, rest) ← keys? maxKeys cs
  return ((keys.dropLast, ← keys.getLast?), rest)

end PtyHost.Toml
