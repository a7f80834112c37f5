namespace ShellAssist.Screen

/-!
# Markup

Text on the screen is markup: a tag in brackets changes its style. `escape` puts backslashes before
what would be read as a tag, so that any text is shown as it is.
-/

/-- Whether a character can begin a tag. -/
def beginsTag (c : Char) : Bool :=
  ('a' ≤ c && c ≤ 'z') || c = '#' || c = '/' || c = '@'

/-- Whether what follows an opening bracket makes a tag: it is closed before another one is
opened. -/
def isTag : List Char → Bool
  | [] => false
  | c :: rest => beginsTag c && rest.find? (fun d => d = '[' || d = ']') = some ']'

/-- The escaped text; `run` counts the backslashes right before it. Before a tag they are doubled,
and one more is put. -/
def escapeFrom (run : Nat) : List Char → List Char
  | [] => []
  | c :: rest =>
    if c = '\\' then c :: escapeFrom (run + 1) rest
    else if c = '[' && isTag rest then
      List.replicate (run + 1) '\\' ++ c :: escapeFrom 0 rest
    else c :: escapeFrom 0 rest

/-- Whether a text ends in a backslash but not in two. -/
def endsInOneBackslash (text : List Char) : Bool :=
  match text.reverse with
  | '\\' :: '\\' :: _ => false
  | '\\' :: _ => true
  | _ => false

/-- The markup that shows a text as it is. A lone backslash at the end is doubled, lest it escape
what comes behind. -/
def escape (text : String) : String :=
  let escaped := escapeFrom 0 text.toList
  String.ofList (if endsInOneBackslash escaped then escaped ++ ['\\'] else escaped)

end ShellAssist.Screen
