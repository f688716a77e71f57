import Zasper.JsonText
import Zasper.Strings

/-!
# Notebooks

A notebook as it lies on disk (`NotebookDisk`) and as the editor holds it
(`Notebook`), and the two conversions between them: `parseNotebook` joins the
lines of the multi-line fields, `convertToNbDisk` cuts them again. Nil lists and
maps are `none`.
-/
namespace Zasper.Notebooks
open Zasper.Maps Zasper.JsonValues Zasper.Strings
set_option linter.unusedSimpArgs false

/-- A map from strings to JSON values of any type. -/
abbrev Bundle := Dict String Value

structure NotebookLanguageInfo where
  codemirrorMode : String
  fileExtension : String
  mimetype : String
  name : String
  version : String
  nbConvertExport : String
  pygmentsLexer : String
deriving DecidableEq

structure NotebookMetadata where
  kernelSpec : String
  displayName : String
  language : String
  name : String
  languageInfo : NotebookLanguageInfo
deriving DecidableEq

structure OutputDisk where
  outputType : String
  executionCount : Int64
  data : Option Bundle
  text : Option (List String)
  metadata : Option Bundle
  ename : String
  evalue : String
  traceback : Option (List String)
deriving DecidableEq

structure Output where
  outputType : String
  executionCount : Int64
  data : Option Bundle
  text : String
  metadata : Option Bundle
  ename : String
  evalue : String
  traceback : Option (List String)
deriving DecidableEq

structure CellDisk where
  source : Option (List String)
  executionCount : Int64
  cellType : String
  attachments : Option Bundle
  outputs : Option (List OutputDisk)
  cellMetadata : Option Bundle
deriving DecidableEq

structure Cell where
  source : String
  executionCount : Int64
  cellType : String
  attachments : Option Bundle
  outputs : Option (List Output)
  cellMetadata : Option Bundle
deriving DecidableEq

structure NotebookDisk where
  cells : Option (List CellDisk)
  nbformat : Int64
  nbformatMinor : Int64
  metadata : NotebookMetadata
deriving DecidableEq

structure Notebook where
  cells : Option (List Cell)
  nbformat : Int64
  nbformatMinor : Int64
  metadata : NotebookMetadata
deriving DecidableEq

/-- The items of a list, none for nil. -/
def items {α : Type} (list : Option (List α)) : List α := list.getD []

/-- The entries of a map, none for nil. -/
def bundle (m : Option Bundle) : Bundle := m.getD .empty

/-- A nil slice with items appended to it: it stays nil where there are none. -/
def appended {α : Type} (added : List α) : Option (List α) := if added = [] then none else some added

@[simp] theorem items_some {α : Type} (list : List α) : items (some list) = list := rfl
@[simp] theorem items_none {α : Type} : items (none : Option (List α)) = [] := rfl
@[simp] theorem items_map {α β : Type} (f : α → β) (list : Option (List α)) :
    items (list.map (List.map f)) = (items list).map f := by
  cases list <;> rfl
@[simp] theorem bundle_some (m : Bundle) : bundle (some m) = m := rfl
@[simp] theorem items_appended {α : Type} (added : List α) : items (appended added) = added := by
  unfold appended; split_ifs with empty
  · simp [empty]
  · rfl

/-! ## Values as text -/

/-- The digits of a number, and the power of ten that the last of them stands for. -/
def decimal : Number → Nat × Int
  | .int n => (n.natAbs,0)
  | .decimal d => (d.whole * 10^d.places + d.fraction,d.exponent.getD 0 - d.places)

/-- Digits without zeros at their end, a point after the first, and the exponent in
    two digits at least. -/
def scientific (digits : List Char) (exponent : Int) : List Char :=
  let kept := (digits.reverse.dropWhile (· = '0')).reverse
  let power := Nat.toDigits 10 exponent.natAbs
  kept.take 1 ++ (if kept.length ≤ 1 then [] else '.' :: kept.drop 1) ++
    'e' :: (if exponent < 0 then '-' else '+') :: ((if power.length < 2 then ['0'] else []) ++ power)

/-- `%v` of a `float64`; exponents below -4 and above 5 are written. -/
def sprintNumber (n : Number) : String :=
  let (c,last) := decimal n
  let digits := Nat.toDigits 10 c
  let exponent : Int := (digits.length : Int) - 1 + last
  String.ofList (if exponent < -4 ∨ 6 ≤ exponent then JsonText.signText n.negative ++ scientific digits exponent
    else JsonText.numberText (.fixed n.negative c last))

mutual
/-- `%v` of a decoded value: maps as `map[k:v k:v]`, lists as `[v v]`. -/
def sprintV : Json → String
  | .null => "<nil>"
  | .bool b => if b then "true" else "false"
  | .num n => sprintNumber n
  | .str s => s
  | .arr items => "[" ++ " ".intercalate (sprintItems items) ++ "]"
  | .obj members => "map[" ++ " ".intercalate (sprintMembers members) ++ "]"
def sprintItems : List Json → List String
  | [] => []
  | j :: rest => sprintV j :: sprintItems rest
def sprintMembers : List (String × Json) → List String
  | [] => []
  | (k,j) :: rest => (k ++ ":" ++ sprintV j) :: sprintMembers rest
end

example : sprintNumber (.int (-1500000)) = "-1.5e+06" := by decide
example : sprintNumber (.fixed false 25 (-6)) = "2.5e-05" := by decide
example : sprintNumber (.decimal negZero) = "-0" := by decide

/-! ## Mime bundles -/

/-- Whether a mime type is JSON. -/
def isJSONMime (mime : String) : Bool :=
  mime = "application/json" || (hasPrefix mime "application/" && hasSuffix mime "+json")

/-- A list of values as strings, where they are strings. -/
def toStringSlice (input : List Value) : Option (List String) := input.mapM Value.asString?

/-- What one entry of a mime bundle becomes. A list with an item that is no string
    is left out. -/
def rejoinValue (key : String) (value : Value) : Option Value :=
  if !isJSONMime key then
    match value.asList? with
    | some valueList =>
      if valueList.all (fun v => v.asString?.isSome) then
        (toStringSlice valueList).map (fun lines => .str (String.join lines))
      else none
    | none => some (.str (sprintV value.json))
  else some (.str (sprintV value.json))

/-- Rejoins the multi-line string fields of a mime bundle. -/
def rejoinMimeBundle (data : Option Bundle) : Option Bundle := some ((bundle data).filterMap rejoinValue)

def nonTextSplitMimes : Dict String Bool :=
  .ofEntries [("application/javascript",false),("image/svg+xml",false),("application/json",false)]

/-- A text cut after each line feed, without a line feed at the end of its last line. -/
def splitText (text : String) : List String :=
  let splitValue := splitAfter text '\n'
  splitValue.dropLast ++ (splitValue.getLast?.toList.map (fun last => trimSuffix last "\n"))

def splitValue (key : String) (value : Value) : Value :=
  if hasPrefix key "text/" || (nonTextSplitMimes.get? key).getD false then
    match value.asString? with
    | some strVal => .list ((splitText strVal).map Value.str)
    | none => value
  else value

/-- Splits the multi-line string fields of a mime bundle. -/
def splitMimeBundle (data : Option Bundle) : Option Bundle := some ((bundle data).map splitValue)

/-! ## From disk -/

def rejoinOutput (output : OutputDisk) : Output :=
  { outputType := output.outputType
    executionCount := output.executionCount
    metadata := output.metadata
    text := String.join (items output.text)
    ename := if output.outputType = "error" then output.ename else ""
    evalue := if output.outputType = "error" then output.evalue else ""
    traceback := if output.outputType = "error" then output.traceback else none
    data := if output.outputType = "stream" then none else rejoinMimeBundle output.data }

def rejoinCell (cell : CellDisk) : Cell :=
  { source := String.join (items cell.source)
    cellType := cell.cellType
    executionCount := cell.executionCount
    cellMetadata := cell.cellMetadata
    attachments := rejoinMimeBundle cell.attachments
    outputs := if cell.cellType = "code" then appended ((items cell.outputs).map rejoinOutput) else none }

/-- Joins the multi-line fields of a notebook. The format numbers are not taken over. -/
def rejoinLines (nbDisk : NotebookDisk) : Notebook :=
  { metadata := nbDisk.metadata
    cells := appended ((items nbDisk.cells).map rejoinCell)
    nbformat := 0
    nbformatMinor := 0 }

/-- Removes transient metadata from the cells of a notebook. -/
def stripTransient (nb : NotebookDisk) : NotebookDisk :=
  { nb with cells := nb.cells.map (fun cells => cells.map (fun cell =>
      { cell with cellMetadata := cell.cellMetadata.map (fun m => m.erase "trusted") })) }

/-- The source joins the lines first and strips the notebook it was given then. The
    joined cells share the metadata maps of that notebook, so they are stripped too. -/
def parseNotebook (nb : NotebookDisk) : Notebook := rejoinLines (stripTransient nb)

/-! ## To disk -/

/-- An attachment as a bundle with the one key `data`. -/
def wrapAttachment (v : Value) : Value :=
  .dict (.ofEntries [("data",.str (match v.asString? with
    | some str => str
    | none => sprintV v.json))])

def outputToDisk (out : Output) : OutputDisk :=
  { outputType := out.outputType
    executionCount := out.executionCount
    data := splitMimeBundle out.data
    text := some (splitAfter out.text '\n')
    metadata := out.metadata
    ename := if out.outputType = "error" then out.ename else ""
    evalue := if out.outputType = "error" then out.evalue else ""
    traceback := if out.outputType = "error" then out.traceback else none }

def cellToDisk (outCell : Cell) : CellDisk :=
  { source := some (splitAfter outCell.source '\n')
    cellType := outCell.cellType
    executionCount := outCell.executionCount
    attachments := some ((bundle outCell.attachments).map (fun _ v => wrapAttachment v))
    outputs := some ((items outCell.outputs).map outputToDisk)
    cellMetadata := some (bundle outCell.cellMetadata) }

/-- Splits the multi-line fields of a notebook into lists of strings. -/
def convertToNbDisk (nb : Notebook) : NotebookDisk :=
  { cells := some ((items nb.cells).map cellToDisk)
    metadata := nb.metadata
    nbformat := 4
    nbformatMinor := 5 }

end Zasper.Notebooks
