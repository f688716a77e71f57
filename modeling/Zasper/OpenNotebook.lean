import Mathlib.Data.List.Forall2
import Zasper.ContentManager
import Zasper.Nbformat

/-!
# Opening a notebook

What `getNotebookModel` makes of a notebook file. A multi-line field that is a list
of strings is opened with its text; one that is a string is opened as the empty
text, without an error; and so is a file that is no JSON. `opened_faithful_iff`
says for which files the text of the file is opened.
-/
namespace Zasper.OpenNotebook
open Zasper.Maps Zasper.JsonValues Zasper.JsonText Zasper.Strings Zasper.Structs Zasper.Paths Zasper.Programs
open Zasper.OperatingSystem Zasper.Notebooks Zasper.NotebookJson Zasper.ContentManager Zasper.Nbformat
set_option linter.unusedSimpArgs false

/-! ## The file on disk -/

/-- The answers of a system on which a path leads to the given file. -/
def onDisk (cwd : String) (info : FileInfo) (file : List UInt8) (_ : Unit) : (c : Call) → Unit × Reply c
  | .getwd => ((),.ok cwd)
  | .lstat _ => ((),.ok info)
  | .stat _ => ((),.ok info)
  | .readFile _ => ((),.ok file)
  | .readDir _ => ((),([],none))
  | .writeFile _ _ => ((),none)
  | .openFile _ => ((),none)
  | .openDir _ => ((),none)
  | .mkdirAll _ => ((),none)
  | .rename _ _ => ((),none)
  | .remove _ => ((),none)

/-- The path that `getSafePath` returns in the working directory `cwd`. -/
def safePath (cwd home path : String) : String :=
  let resolved := absPath cwd (join [home,clean path])
  if hasPrefix resolved home then resolved else ""

/-- `getSafePath` only asks for the working directory. -/
theorem run_getSafePath_of {World : Type} {answer : World → (c : Call) → World × Reply c} {cwd : String} {w : World}
    (getwd : answer w .getwd = (w,.ok cwd)) (home path : String) :
    (getSafePath home path).run answer w = (w,.ok (safePath cwd home path)) := by
  unfold getSafePath filepathAbs safePath absPath
  cases absolute : isAbs (join [home,clean path]) with
  | true => simp [absolute]
  | false => simp [absolute,getwd]

theorem run_getSafePath (cwd home path : String) (info : FileInfo) (file : List UInt8) :
    (getSafePath home path).run (onDisk cwd info file) () = ((),.ok (safePath cwd home path)) :=
  run_getSafePath_of rfl home path

/-- What `getNotebookModel` returns for the file. -/
def opened (cwd home path : String) (info : FileInfo) (file : List UInt8) :
    Except Stop (Except OsError ContentModel) :=
  ((getNotebookModel home path).run (onDisk cwd info file) ()).2

theorem opened_eq (cwd home path : String) (info : FileInfo) (file : List UInt8) :
    opened cwd home path info file =
      .ok (.ok
        { name := info.name
          contentType := ""
          path := path
          lastModified := info.modTime
          created := info.modTime
          size := info.size
          content := .notebook (nbformatReads (fileContent (safePath cwd home path) file)) }) := by
  simp only [opened,getNotebookModel,Program.run_bind,run_getSafePath]
  simp [onDisk,readFileContent]

/-! ## Text -/

/-- A multi-line field that is opened with its text: a list, or the empty string. -/
def Readable (j : Json) : Prop := isTextList j = true ∨ j = .str ""

/-- The text read from a multi-line field is its text, or else nothing. -/
theorem join_decoded {j : Json} (multiLine : isMultiLine j = true) :
    String.join (items ((list text).decode none j).value) = if isTextList j then multiLineText j else "" := by
  rcases Bool.or_eq_true_iff.mp multiLine with single | lines
  · obtain ⟨s,rfl⟩ := isText_iff.mp single
    rfl
  · obtain ⟨texts,rfl⟩ := isTextList_iff.mp lines
    have decoded : ((list text).decode none (.arr (texts.map .str))).value = some texts := by
      simp [list,text,List.map_map,Function.comp_def]
    have kept : multiLineText (.arr (texts.map .str)) = String.join texts := by
      simp [multiLineText,textOf,List.map_map,Function.comp_def]
    rw [decoded,kept]
    simp [isTextList,isText]

theorem join_decoded_iff {j : Json} (multiLine : isMultiLine j = true) :
    String.join (items ((list text).decode none j).value) = multiLineText j ↔ Readable j := by
  rw [join_decoded multiLine]
  cases lines : isTextList j with
  | true => simp [Readable,lines]
  | false =>
    have single : isText j = true := by simpa [isMultiLine,lines] using multiLine
    obtain ⟨s,rfl⟩ := isText_iff.mp single
    simp [Readable,lines,multiLineText,eq_comm]

/-! ## Cells and outputs -/

def decodeOutput (o : Json) : OutputDisk := (outputDisk.decode outputDisk.zero o).value
def decodeCell (c : Json) : CellDisk := (cellDisk.decode cellDisk.zero c).value

/-- What a cell of a document is opened as. -/
def openCell (c : Json) : Cell :=
  let disk := decodeCell c
  rejoinCell { disk with cellMetadata := disk.cellMetadata.map (fun m => m.erase "trusted") }

theorem decodeOutput_type {o : Json} {members : List (String × Json)} (shape : OutputShape o members) :
    (decodeOutput o).outputType = outputType o := by
  have read := read_member reads_outputType (by decide : Exact outputDiskFields "output_type" outputKeys) shape.keys
    outputDisk.zero
  rw [← shape.object,shape.type] at read
  exact read

theorem decodeOutput_text {o : Json} {members : List (String × Json)} (shape : OutputShape o members)
    (stream : outputType o = "stream") :
    (decodeOutput o).text = ((list text).decode none (member "text" o)).value := by
  have read := read_member reads_text (by decide : Exact outputDiskFields "text" outputKeys) shape.keys
    outputDisk.zero
  rw [← shape.object,(shape.text stream).1] at read
  exact read

theorem decodeCell_type {c : Json} {members : List (String × Json)} (shape : CellShape c members) :
    (decodeCell c).cellType = cellType c := by
  have read := read_member reads_cellType (by decide : Exact cellDiskFields "cell_type" cellKeys) shape.keys
    cellDisk.zero
  rw [← shape.object,shape.type] at read
  exact read

theorem decodeCell_source {c : Json} {members : List (String × Json)} (shape : CellShape c members) :
    (decodeCell c).source = ((list text).decode none (member "source" c)).value := by
  have read := read_member reads_source (by decide : Exact cellDiskFields "source" cellKeys) shape.keys
    cellDisk.zero
  rw [← shape.object,shape.source] at read
  exact read

theorem decodeCell_outputs {c : Json} {members : List (String × Json)} (shape : CellShape c members)
    (code : cellType c = "code") : (decodeCell c).outputs = some ((outputsOf c).map decodeOutput) := by
  have read := read_member reads_outputs (by decide : Exact cellDiskFields "outputs" cellKeys) shape.keys
    cellDisk.zero
  rw [← shape.object,(shape.outputs code).1] at read
  exact read

/-- The stream outputs of a cell. -/
def streamsOf (c : Json) : List Json := (outputsOf c).filter (fun o => outputType o = "stream")

/-- The texts of the stream outputs of an opened cell. -/
def streamTexts (c : Cell) : List String :=
  ((items c.outputs).filter (fun o => o.outputType = "stream")).map (·.text)

/-- The source of a cell, and the texts of its streams. -/
structure CellTextKept (c : Json) (cell : Cell) : Prop where
  source : cell.source = multiLineText (member "source" c)
  streams : cellType c = "code" →
    streamTexts cell = (streamsOf c).map (fun o => multiLineText (member "text" o))

/-- The cells whose text is opened. -/
def CellReadable (c : Json) : Prop :=
  Readable (member "source" c) ∧ (cellType c = "code" → ∀ o ∈ streamsOf c, Readable (member "text" o))

theorem openCell_streams {c : Json} (cell : isCell c = true) (code : cellType c = "code") :
    streamTexts (openCell c) =
      (streamsOf c).map (fun o => String.join (items ((list text).decode none (member "text" o)).value)) := by
  obtain ⟨members,shape⟩ := isCell_shape cell
  obtain ⟨-,format⟩ := shape.outputs code
  have outputs : items (openCell c).outputs = (outputsOf c).map (fun o => rejoinOutput (decodeOutput o)) := by
    simp [openCell,rejoinCell,decodeCell_type shape,code,decodeCell_outputs shape code,List.map_map,Function.comp_def]
  have type : ∀ o ∈ outputsOf c, (rejoinOutput (decodeOutput o)).outputType = outputType o := by
    intro o inside
    obtain ⟨_,outputShape⟩ := isOutput_shape (format o inside)
    exact decodeOutput_type outputShape
  rw [streamTexts,outputs,List.filter_map,List.map_map,streamsOf]
  have same : (outputsOf c).filter ((fun o : Output => decide (o.outputType = "stream")) ∘ fun o =>
      rejoinOutput (decodeOutput o)) = (outputsOf c).filter (fun o => outputType o = "stream") := by
    refine List.filter_congr ?_
    intro o inside
    simp only [Function.comp_apply,type o inside]
  rw [same]
  refine List.map_congr_left ?_
  intro o inside
  obtain ⟨inside,stream⟩ := List.mem_filter.mp inside
  obtain ⟨_,outputShape⟩ := isOutput_shape (format o inside)
  simp only [Function.comp_apply,rejoinOutput,decodeOutput_text outputShape (of_decide_eq_true stream)]

theorem stream_multiLine {c : Json} (cell : isCell c = true) (code : cellType c = "code") :
    ∀ o ∈ streamsOf c, isMultiLine (member "text" o) = true := by
  intro o inside
  obtain ⟨members,shape⟩ := isCell_shape cell
  obtain ⟨inside,stream⟩ := List.mem_filter.mp inside
  obtain ⟨_,outputShape⟩ := isOutput_shape ((shape.outputs code).2 o inside)
  exact (outputShape.text (of_decide_eq_true stream)).2

/-- A cell is opened with its text exactly where it is readable. -/
theorem openCell_kept_iff {c : Json} (cell : isCell c = true) : CellTextKept c (openCell c) ↔ CellReadable c := by
  obtain ⟨members,shape⟩ := isCell_shape cell
  have source : (openCell c).source = String.join (items ((list text).decode none (member "source" c)).value) := by
    simp only [openCell,rejoinCell,decodeCell_source shape]
  have sourceIff : (openCell c).source = multiLineText (member "source" c) ↔ Readable (member "source" c) := by
    rw [source,join_decoded_iff shape.multiLine]
  have streamsIff (code : cellType c = "code") :
      streamTexts (openCell c) = (streamsOf c).map (fun o => multiLineText (member "text" o)) ↔
        ∀ o ∈ streamsOf c, Readable (member "text" o) := by
    rw [openCell_streams cell code,List.map_inj_left]
    exact forall₂_congr (fun o inside => join_decoded_iff (stream_multiLine cell code o inside))
  constructor
  · rintro ⟨kept,streams⟩
    exact ⟨sourceIff.mp kept,fun code => (streamsIff code).mp (streams code)⟩
  · rintro ⟨readable,streams⟩
    exact ⟨sourceIff.mpr readable,fun code => (streamsIff code).mpr (streams code)⟩

/-! ## Files -/

/-- The notebook on disk that a file is read as. -/
def readDisk (file : List UInt8) : NotebookDisk := (notebookDisk.unmarshal file notebookDisk.zero).1

theorem readDisk_cells {file : List UInt8} {j : Json} (valid : JsonText.unmarshal file = some j)
    (notebook : isNotebook j = true) : (readDisk file).cells = some ((cellsOf j).map decodeCell) := by
  obtain ⟨members,shape⟩ := isNotebook_shape notebook
  have read := read_member reads_cells (by decide : Exact notebookDiskFields "cells" notebookKeys) shape.keys
    notebookDisk.zero
  rw [← shape.object,shape.cells] at read
  rw [readDisk,Codec.unmarshal,valid]
  exact read

theorem nbformatReads_eq (file : List UInt8) : nbformatReads file = parseNotebook (readDisk file) := rfl

theorem nbformatReads_cells {file : List UInt8} {j : Json} (valid : JsonText.unmarshal file = some j)
    (notebook : isNotebook j = true) : items (nbformatReads file).cells = (cellsOf j).map openCell := by
  simp only [nbformatReads_eq,parseNotebook,rejoinLines,stripTransient,readDisk_cells valid notebook,Option.map_some,
    items_some,items_appended,List.map_map]
  rfl

/-- A file that is no JSON is opened as a notebook without cells. -/
theorem nbformatReads_invalid {file : List UInt8} (invalid : JsonText.unmarshal file = none) :
    items (nbformatReads file).cells = [] := by
  rw [nbformatReads,Codec.unmarshal,invalid]
  rfl

theorem parse_dataUrl (cs : List Char) : parse ('d' :: cs) = none := by
  simp [parse,lex,isSpace,lexToken,lexNumber,lexUnsigned,lexWhole]

/-- A file with the ending of an image is read as a data URL, which is no JSON. -/
theorem fileContent_png {path : String} (png : ext (base path) = ".png") (file : List UInt8) :
    JsonText.unmarshal (fileContent path file) = none := by
  have text : pngPrefix.toList = 'd' :: "ata:image/png;base64,".toList := by decide
  rw [fileContent,if_pos png,JsonText.unmarshal,decodeUtf8_utf8,text,List.cons_append,parse_dataUrl]

/-- The text of a file is opened, or an error is returned. -/
structure OpenedFaithfully (file : List UInt8) (result : Except Stop (Except OsError ContentModel)) : Prop where
  invalid : JsonText.unmarshal file = none → ∃ e, result = .ok (.error e)
  valid : ∀ j, JsonText.unmarshal file = some j → isNotebook j = true →
    (∃ e, result = .ok (.error e)) ∨
      ∃ model nb, result = .ok (.ok model) ∧ model.content = .notebook nb ∧
        List.Forall₂ CellTextKept (cellsOf j) (items nb.cells)

theorem forall₂_openCell {cells : List Json} (format : ∀ c ∈ cells, isCell c = true) :
    List.Forall₂ CellTextKept cells (cells.map openCell) ↔ ∀ c ∈ cells, CellReadable c := by
  rw [List.forall₂_map_right_iff,List.forall₂_same]
  exact forall₂_congr (fun c inside => openCell_kept_iff (format c inside))

/-- The cells of a notebook that is opened. -/
theorem cells_kept_iff {path : String} {file : List UInt8} {j : Json} (valid : JsonText.unmarshal file = some j)
    (notebook : isNotebook j = true) :
    List.Forall₂ CellTextKept (cellsOf j) (items (nbformatReads (fileContent path file)).cells) ↔
      (∀ c ∈ cellsOf j, CellReadable c) ∧ (ext (base path) = ".png" → cellsOf j = []) := by
  obtain ⟨members,shape⟩ := isNotebook_shape notebook
  by_cases png : ext (base path) = ".png"
  · rw [nbformatReads_invalid (fileContent_png png file),List.forall₂_nil_right_iff]
    constructor
    · intro none
      rw [none]
      exact ⟨by simp,fun _ => rfl⟩
    · exact fun holds => holds.2 png
  · have same : fileContent path file = file := by simp [fileContent,png]
    rw [same,nbformatReads_cells valid notebook,forall₂_openCell shape.cellFormat]
    exact ⟨fun readable => ⟨readable,fun yes => absurd yes png⟩,fun holds => holds.1⟩

/-- A file is opened with its text exactly where it is JSON and, if it is a notebook,
    its sources and streams are lists of strings or empty; under the name of an image
    it must have no cell. -/
theorem opened_faithful_iff (cwd home path : String) (info : FileInfo) (file : List UInt8) :
    OpenedFaithfully file (opened cwd home path info file) ↔
      ∃ j, JsonText.unmarshal file = some j ∧
        (isNotebook j = true → (∀ c ∈ cellsOf j, CellReadable c) ∧
          (ext (base (safePath cwd home path)) = ".png" → cellsOf j = [])) := by
  have noError : ¬ ∃ e, opened cwd home path info file = .ok (.error e) := by
    rintro ⟨e,failed⟩
    rw [opened_eq] at failed
    cases failed
  constructor
  · intro faithful
    cases json : JsonText.unmarshal file with
    | none => exact absurd (faithful.invalid json) noError
    | some j =>
      refine ⟨j,rfl,fun notebook => (cells_kept_iff json notebook).mp ?_⟩
      rcases faithful.valid j json notebook with failed | ⟨model,nb,result,content,kept⟩
      · exact absurd failed noError
      · rw [opened_eq] at result
        rw [← Except.ok.inj (Except.ok.inj result)] at content
        rw [Content.notebook.inj content]
        exact kept
  · rintro ⟨j,json,readable⟩
    constructor
    · intro invalid
      rw [json] at invalid
      cases invalid
    · intro j' json' notebook
      obtain rfl := Option.some.inj (json.symm.trans json')
      exact .inr ⟨_,_,opened_eq ..,rfl,(cells_kept_iff json notebook).mpr (readable notebook)⟩

/-- A notebook with one cell whose source is one string. -/
def stringSource : Json := .obj
  [ ("cells",.arr [.obj
      [ ("cell_type",.str "code"), ("execution_count",.null), ("metadata",.obj []), ("outputs",.arr []),
        ("source",.str "print(1)") ]])
  , ("metadata",.obj []), ("nbformat",.num (.int 4)), ("nbformat_minor",.num (.int 4)) ]

/-- Its source is opened as the empty text, and no error is returned. -/
theorem stringSource_lost :
    ¬ OpenedFaithfully (marshal stringSource) (opened "/home" "/home" "a.ipynb" ⟨"a.ipynb",false,0,""⟩
      (marshal stringSource)) := by
  intro faithful
  obtain ⟨j,json,readable⟩ := (opened_faithful_iff ..).mp faithful
  rw [JsonText.unmarshal_marshal] at json
  obtain rfl := Option.some.inj json
  have notebook : isNotebook stringSource = true := by decide +kernel
  obtain ⟨list | empty,-⟩ := (readable notebook).1 _ List.mem_cons_self
  · exact absurd list (by decide +kernel)
  · exact absurd empty (by decide +kernel)

end Zasper.OpenNotebook
