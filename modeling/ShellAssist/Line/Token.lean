import ShellAssist.Text.Blank

namespace ShellAssist.Line

/-!
# Words of a command line

A command line is cut at white space that no quote and no backslash protects. Quotes and backslashes
stay in the words, so that the line can be put together again; `unquote` removes them.

* `Mode` — what protects the next character;
* `tokenize` — the words of a line, with an empty last word behind free white space;
* `unquote` — a word's text without its quoting;
* `escapeName` — a name with every special character behind a backslash.
-/

/-- What protects the next character. -/
inductive Mode where
  | free
  | quoted (quote : Char)
  | escaped
  deriving DecidableEq, Repr

/-- Whether a character opens a quoted part. -/
def isQuote (c : Char) : Bool :=
  c = '"' || c = '\''

/-- What protects the character behind `c`. Inside quotes only the same quote has a meaning. -/
def Mode.next : Mode → Char → Mode
  | .escaped, _ => .free
  | .quoted quote, c => if c = quote then .free else .quoted quote
  | .free, c => if c = '\\' then .escaped else if isQuote c then .quoted c else .free

/-- The words from here on; `word` holds the characters of the word being read, latest first. At the
end of the text a word not begun is empty. -/
def wordsFrom (mode : Mode) (word : Option (List Char)) : List Char → List (List Char)
  | [] => [(word.getD []).reverse]
  | c :: rest =>
    if mode = .free && Chars.isBlank c then
      word.toList.map List.reverse ++ wordsFrom .free none rest
    else wordsFrom (mode.next c) (some (c :: word.getD [])) rest

/-- The words of a command line. -/
def tokenizeChars (text : List Char) : List (List Char) :=
  if text.isEmpty then [] else wordsFrom .free none text

/-- A word's text without its quoting, from a mode on. A backslash at the end stays. -/
def unquoteFrom : Mode → List Char → List Char
  | .escaped, [] => ['\\']
  | _, [] => []
  | .escaped, c :: rest => c :: unquoteFrom .free rest
  | .quoted quote, c :: rest =>
    if c = quote then unquoteFrom .free rest else c :: unquoteFrom (.quoted quote) rest
  | .free, c :: rest =>
    if c = '\\' then unquoteFrom .escaped rest
    else if isQuote c then unquoteFrom (.quoted c) rest
    else c :: unquoteFrom .free rest

/-- The characters that need a backslash in a name that is not quoted. -/
def specialChars : List Char :=
  [' ', '\t', '\n', '\\', '\'', '"', '$', '\x60', '&', ';', '|', '<', '>', '(', ')', '*', '?',
   '[', ']', '\x7b', '\x7d', '!', '#']

/-- A name's characters with the special ones behind backslashes. -/
def escapeChars (name : List Char) : List Char :=
  name.flatMap fun c => if specialChars.contains c then ['\\', c] else [c]

/-- The words of a command line. -/
def tokenize (text : String) : List String :=
  (tokenizeChars text.toList).map String.ofList

/-- A word's text without its quoting. -/
def unquote (word : String) : String :=
  String.ofList (unquoteFrom .free word.toList)

/-- A name as it is inserted in a command line without quotes. -/
def escapeName (name : String) : String :=
  String.ofList (escapeChars name.toList)

end ShellAssist.Line
