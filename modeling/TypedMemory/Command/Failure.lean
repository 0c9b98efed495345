import TypedMemory.Error

/-!
# Failures of commands

How the failure of a command is told: what was being done, and the causes behind it.
-/

namespace TypedMemory

/-- A failure and what lies behind it, the nearest cause first. -/
structure Failure where
  message : String
  causes : List String := []
  deriving DecidableEq, Repr

namespace Failure

def ofError (e : Error) : Failure :=
  ⟨e.message, []⟩

/-- The failure of an activity because of an error.  Behind the error of a file stands what the file
system reported. -/
def within (activity : String) (e : Error) : Failure :=
  match e with
  | .io reason | .json reason => ⟨activity, [e.message, reason]⟩
  | e => ⟨activity, [e.message]⟩

/-- A text behind `lead`, with its later lines indented as far. -/
def hanging (lead text : String) : String :=
  let margin := String.ofList (List.replicate lead.length ' ')
  lead ++ ("\n" ++ margin).intercalate (text.splitOn "\n")

/-- The failure with its causes, which are numbered if there are several. -/
def text (f : Failure) : String :=
  let causes :=
    match f.causes with
    | [] => []
    | [cause] => ["", "", "Caused by:", hanging "    " cause]
    | causes =>
      ["", "", "Caused by:"] ++ causes.zipIdx.map fun (cause, index) =>
        hanging (Numeral.padLeft ' ' 5 (Numeral.decimal index) ++ ": ") cause
  "Error: " ++ f.message ++ "\n".intercalate causes

end Failure

end TypedMemory
