/-!
# Taking texts apart

`dropPrefix?` and `dropSuffix?` remove a given part from an end of a text, `splitLast?` cuts a text
at the last place where a separator stands.  Names are compared without regard to the case of ASCII
letters by `sameLetters`.
-/

namespace TypedMemory.Text

/-- What follows `lead` in `text`, when `text` starts with it. -/
def dropPrefix? : (lead text : List Char) → Option (List Char)
  | [], text => some text
  | _ :: _, [] => none
  | c :: lead, d :: text => if c = d then dropPrefix? lead text else none

/-- What precedes `tail` in `text`, when `text` ends with it. -/
def dropSuffix? (tail text : List Char) : Option (List Char) :=
  (dropPrefix? tail.reverse text.reverse).map List.reverse

/-- The parts before and after the last place where `separator` stands in `text`. -/
def splitLast? (separator : List Char) : List Char → Option (List Char × List Char)
  | [] => none
  | c :: rest =>
    match splitLast? separator rest with
    | some (before, after) => some (c :: before, after)
    | none => (dropPrefix? separator (c :: rest)).map fun after => ([], after)

/-- Equality up to the case of ASCII letters. -/
def sameLetters (a b : List Char) : Bool :=
  a.map Char.toLower == b.map Char.toLower

end TypedMemory.Text
