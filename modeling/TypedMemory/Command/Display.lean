import TypedMemory.Report
import TypedMemory.Text.Hex
import TypedMemory.Text.Utf8

/-!
# Printed lines

Platforms and reports as lines for a terminal.
-/

namespace TypedMemory

def bold (text : String) : String :=
  "\x1b[1m" ++ text ++ "\x1b[0m"

def cyan (text : String) : String :=
  "\x1b[36m" ++ text ++ "\x1b[39m"

def dimmed (text : String) : String :=
  "\x1b[2m" ++ text ++ "\x1b[0m"

/-- Lines with their ends. -/
def printed (lines : List String) : String :=
  String.join (lines.map (· ++ "\n"))

def Platform.lines (p : Platform) : List String :=
  [bold p.text,
    "  os:         " ++ p.os.name,
    "  bits:       " ++ Numeral.decimal p.bits.toNat,
    "  byte order: " ++ p.byteOrder.name ++ " (resolves to " ++
      (ByteOrder.native.resolve p).name ++ ")",
    "  pointer:    " ++ Numeral.decimal p.pointerSize ++ " bytes",
    "  int:        " ++ Numeral.decimal p.intSize ++ " bytes",
    "  long:       " ++ Numeral.decimal p.longSize ++ " bytes"]

/-- The line of a member in the table of a report. -/
def ReportRow.line (width : Nat) (row : ReportRow) : String :=
  "  " ++ Numeral.padLeft ' ' 7 (Hex.offset row.offset) ++ "  " ++
    Numeral.padRight ' ' width row.name ++ "  " ++
    Numeral.padLeft ' ' 4 (Numeral.decimal row.size) ++ "  " ++ dimmed row.type

def Report.lines (r : Report) : List String :=
  let width := (r.rows.map fun row => Utf8.size row.name).foldl max 0
  [r.kind.name ++ " " ++ bold r.name ++ " on " ++ cyan r.platform.text,
    "size " ++ Numeral.decimal r.size ++ " align " ++ Numeral.decimal r.alignment ++ " start " ++
      Hex.offset r.start,
    ""] ++ r.rows.map (·.line width)

end TypedMemory
