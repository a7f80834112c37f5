import ShellAssist.Text.Table.UpperCase

namespace ShellAssist.Text

/-!
# Upper case

The full mapping to upper case over all scripts; no letter's upper case depends on its neighbours.
-/

/-- The upper case of a character. -/
def upperChar (c : Char) : List Char :=
  if c.toNat < 0x80 then [c.toUpper]
  else match upperCaseSpread.lookup c.toNat with
    | some letters => letters.map Char.ofNat
    | none =>
      match upperCaseRuns.find? fun (first, last, step, _) =>
          first ≤ c.toNat && c.toNat ≤ last && (c.toNat - first) % step = 0 with
      | some (_, _, _, shift) => [Char.ofNat (c.toNat + shift).toNat]
      | none => [c]

/-- Upper case of a text. -/
def upper (text : String) : String :=
  String.ofList (text.toList.flatMap upperChar)

end ShellAssist.Text
