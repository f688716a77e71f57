import Zasper.Notebooks
import Zasper.Structs

/-!
# Notebooks as JSON

The fields of the notebook structures under their JSON names, in the order they
are declared and written. A notebook on disk that is written and read back is the
notebook that was written, except that a traceback without lines is left out
(`notebookDisk_rereads`); the editor's notebook loses its empty fields, and its counts
are rounded where a program in between holds them as numbers of its own
(`notebook_rereadsBy`).
-/
namespace Zasper.NotebookJson
open Zasper.Maps Zasper.JsonValues Zasper.Structs Zasper.Notebooks
set_option linter.unusedSimpArgs false

/-- Nothing stands in a map. -/
def noEntries (m : Option Bundle) : Bool := (bundle m).entries.isEmpty

/-- Nothing stands in a list. -/
def noItems {α : Type} (list : Option (List α)) : Bool := (items list).isEmpty

def languageInfoFields : List (StructField NotebookLanguageInfo) :=
  [ field "codemirror_mode" text (·.codemirrorMode) (fun s v => { s with codemirrorMode := v })
  , field "file_extension" text (·.fileExtension) (fun s v => { s with fileExtension := v })
  , field "mimetype" text (·.mimetype) (fun s v => { s with mimetype := v })
  , field "name" text (·.name) (fun s v => { s with name := v })
  , field "version" text (·.version) (fun s v => { s with version := v })
  , field "nbconvert_exporter" text (·.nbConvertExport) (fun s v => { s with nbConvertExport := v })
  , field "pygments_lexer" text (·.pygmentsLexer) (fun s v => { s with pygmentsLexer := v }) ]

def languageInfo : Codec NotebookLanguageInfo := struct ⟨"","","","","","",""⟩ languageInfoFields

def metadataFields : List (StructField NotebookMetadata) :=
  [ field "kernelspec" text (·.kernelSpec) (fun s v => { s with kernelSpec := v })
  , field "display_name" text (·.displayName) (fun s v => { s with displayName := v })
  , field "language" text (·.language) (fun s v => { s with language := v })
  , field "name" text (·.name) (fun s v => { s with name := v })
  , field "language_info" languageInfo (·.languageInfo) (fun s v => { s with languageInfo := v }) ]

def metadata : Codec NotebookMetadata := struct ⟨"","","","",languageInfo.zero⟩ metadataFields

def outputDiskFields : List (StructField OutputDisk) :=
  [ field "output_type" text (·.outputType) (fun s v => { s with outputType := v })
  , field "execution_count" int (·.executionCount) (fun s v => { s with executionCount := v })
  , field "data" mapping (·.data) (fun s v => { s with data := v })
  , field "text" (list text) (·.text) (fun s v => { s with text := v })
  , field "metadata" mapping (·.metadata) (fun s v => { s with metadata := v })
  , fieldOmitEmpty "ename" text (· = "") (·.ename) (fun s v => { s with ename := v })
  , fieldOmitEmpty "evalue" text (· = "") (·.evalue) (fun s v => { s with evalue := v })
  , fieldOmitEmpty "traceback" (list text) noItems (·.traceback) (fun s v => { s with traceback := v }) ]

def outputDisk : Codec OutputDisk := struct ⟨"",0,none,none,none,"","",none⟩ outputDiskFields

def outputFields : List (StructField Output) :=
  [ fieldOmitEmpty "output_type" text (· = "") (·.outputType) (fun s v => { s with outputType := v })
  , fieldOmitEmpty "execution_count" int (· = 0) (·.executionCount) (fun s v => { s with executionCount := v })
  , fieldOmitEmpty "data" mapping noEntries (·.data) (fun s v => { s with data := v })
  , fieldOmitEmpty "text" text (· = "") (·.text) (fun s v => { s with text := v })
  , fieldOmitEmpty "metadata" mapping noEntries (·.metadata) (fun s v => { s with metadata := v })
  , fieldOmitEmpty "ename" text (· = "") (·.ename) (fun s v => { s with ename := v })
  , fieldOmitEmpty "evalue" text (· = "") (·.evalue) (fun s v => { s with evalue := v })
  , fieldOmitEmpty "traceback" (list text) noItems (·.traceback) (fun s v => { s with traceback := v }) ]

def output : Codec Output := struct ⟨"",0,none,"",none,"","",none⟩ outputFields

def cellDiskFields : List (StructField CellDisk) :=
  [ field "source" (list text) (·.source) (fun s v => { s with source := v })
  , field "execution_count" int (·.executionCount) (fun s v => { s with executionCount := v })
  , field "cell_type" text (·.cellType) (fun s v => { s with cellType := v })
  , field "attachments" mapping (·.attachments) (fun s v => { s with attachments := v })
  , field "outputs" (list outputDisk) (·.outputs) (fun s v => { s with outputs := v })
  , field "metadata" mapping (·.cellMetadata) (fun s v => { s with cellMetadata := v }) ]

def cellDisk : Codec CellDisk := struct ⟨none,0,"",none,none,none⟩ cellDiskFields

def cellFields : List (StructField Cell) :=
  [ field "source" text (·.source) (fun s v => { s with source := v })
  , field "execution_count" int (·.executionCount) (fun s v => { s with executionCount := v })
  , field "cell_type" text (·.cellType) (fun s v => { s with cellType := v })
  , field "attachments" mapping (·.attachments) (fun s v => { s with attachments := v })
  , field "outputs" (list output) (·.outputs) (fun s v => { s with outputs := v })
  , field "metadata" mapping (·.cellMetadata) (fun s v => { s with cellMetadata := v }) ]

def cell : Codec Cell := struct ⟨"",0,"",none,none,none⟩ cellFields

def notebookDiskFields : List (StructField NotebookDisk) :=
  [ field "cells" (list cellDisk) (·.cells) (fun s v => { s with cells := v })
  , field "nbformat" int (·.nbformat) (fun s v => { s with nbformat := v })
  , field "nbformat_minor" int (·.nbformatMinor) (fun s v => { s with nbformatMinor := v })
  , field "metadata" metadata (·.metadata) (fun s v => { s with metadata := v }) ]

def notebookDisk : Codec NotebookDisk := struct ⟨none,0,0,metadata.zero⟩ notebookDiskFields

def notebookFields : List (StructField Notebook) :=
  [ field "cells" (list cell) (·.cells) (fun s v => { s with cells := v })
  , field "nbformat" int (·.nbformat) (fun s v => { s with nbformat := v })
  , field "nbformat_minor" int (·.nbformatMinor) (fun s v => { s with nbformatMinor := v })
  , field "metadata" metadata (·.metadata) (fun s v => { s with metadata := v }) ]

def notebook : Codec Notebook := struct ⟨none,0,0,metadata.zero⟩ notebookFields

/-! ## What is written is read back -/

theorem languageInfoFields_good : Fields languageInfoFields := ⟨by decide,by simp [languageInfoFields]⟩
theorem metadataFields_good : Fields metadataFields := ⟨by decide,by simp [metadataFields]⟩
theorem outputDiskFields_good : Fields outputDiskFields := ⟨by decide,by simp [outputDiskFields]⟩
theorem outputFields_good : Fields outputFields := ⟨by decide,by simp [outputFields]⟩
theorem cellDiskFields_good : Fields cellDiskFields := ⟨by decide,by simp [cellDiskFields]⟩
theorem cellFields_good : Fields cellFields := ⟨by decide,by simp [cellFields]⟩
theorem notebookDiskFields_good : Fields notebookDiskFields := ⟨by decide,by simp [notebookDiskFields]⟩
theorem notebookFields_good : Fields notebookFields := ⟨by decide,by simp [notebookFields]⟩

theorem languageInfo_inverse : languageInfo.Inverse := by
  intro w rewriting info
  refine (decode_encode_fields languageInfoFields_good rewriting _ _).trans ?_
  rw [languageInfoFields]
  iterate 7 rw [foldl_field (text_inverse w rewriting)]
  all_goals rfl

theorem metadata_inverse : metadata.Inverse := by
  intro w rewriting m
  refine (decode_encode_fields metadataFields_good rewriting _ _).trans ?_
  rw [metadataFields]
  iterate 4 rw [foldl_field (text_inverse w rewriting)]
  rw [foldl_field (languageInfo_inverse w rewriting)]
  all_goals rfl

/-- A list without items is read back as nil. -/
def someItems {α : Type} (list : Option (List α)) : Option (List α) := if noItems list then none else list

/-- A map without entries is read back as nil. -/
def someEntries (m : Option Bundle) : Option Bundle := if noEntries m then none else m

@[simp] theorem items_someItems {α : Type} (list : Option (List α)) : items (someItems list) = items list := by
  unfold someItems
  split_ifs with empty
  · exact (List.isEmpty_iff.mp empty).symm
  · rfl

/-- What an output on disk is read back as. -/
def rereadOutputDisk (o : OutputDisk) : OutputDisk := { o with traceback := someItems o.traceback }

theorem outputDisk_rereads : outputDisk.Rereads rereadOutputDisk := by
  have rewriting : Rewriting id := .inl rfl
  intro o
  show decodeStruct outputDiskFields outputDisk.zero (id (encodeStruct outputDiskFields o)) = _
  rw [decode_encode_fields outputDiskFields_good rewriting,outputDiskFields,foldl_field (text_inverse _ rewriting),
    foldl_field int_rereads,foldl_field (mapping_inverse _ rewriting),
    foldl_field (list_inverse text_inverse _ rewriting),foldl_field (mapping_inverse _ rewriting),
    foldl_omitEmpty (text_inverse _ rewriting),foldl_omitEmpty (text_inverse _ rewriting),
    foldl_omitEmpty (list_inverse text_inverse _ rewriting),List.foldl_nil]
  · simp [rereadOutputDisk,someItems,text,list]
  all_goals rfl

/-- What a count is read as that `w` has written again. -/
def rereadCount (w : Json → Json) (i : Int64) : Decoded Int64 := int.decode int.zero (w (int.encode i))

theorem int_rereadsBy (w : Json → Json) : int.RereadsBy w (rereadCount w) := fun _ => rfl

@[simp] theorem rereadCount_id (i : Int64) : rereadCount id i = ⟨i,false⟩ := int_rereads i

theorem denoted_zero : denoted (.num (.int 0)) = .num (.int 0) := denoted_int (by decide)

@[simp] theorem rereadCount_zero {w : Json → Json} (rewriting : Rewriting w) : rereadCount w 0 = ⟨0,false⟩ := by
  rcases rewriting with rfl | rfl
  · exact rereadCount_id 0
  · show int.decode int.zero (denoted (.num (.int 0))) = _
    rw [denoted_zero]
    rfl

/-- What an output of the editor is read back as. -/
def rereadOutput (o : Output) : Output :=
  { o with data := someEntries o.data, metadata := someEntries o.metadata, traceback := someItems o.traceback }

theorem ite_zero {α : Type} [DecidableEq α] (a zero : α) : (if a = zero then zero else a) = a := by
  split_ifs with same
  · exact same.symm
  · rfl

/-- What an output of the editor is read as that `w` has written again. -/
def rereadOutputBy (w : Json → Json) (o : Output) : Decoded Output :=
  ⟨{ rereadOutput o with executionCount := (rereadCount w o.executionCount).value },(rereadCount w o.executionCount).mismatch⟩

@[simp] theorem rereadOutputBy_id (o : Output) : rereadOutputBy id o = ⟨rereadOutput o,false⟩ := by
  simp [rereadOutputBy,rereadOutput]

theorem output_rereadsBy {w : Json → Json} (rewriting : Rewriting w) : output.RereadsBy w (rereadOutputBy w) := by
  intro o
  have value : (if o.executionCount = 0 then 0 else (rereadCount w o.executionCount).value) =
      (rereadCount w o.executionCount).value := by
    split_ifs with zero
    · rw [zero,rereadCount_zero rewriting]
    · rfl
  have mismatch : (!decide (o.executionCount = 0) && (rereadCount w o.executionCount).mismatch) =
      (rereadCount w o.executionCount).mismatch := by
    by_cases zero : o.executionCount = 0
    · simp [zero,rereadCount_zero rewriting]
    · simp [zero]
  refine (decode_encode_fields outputFields_good rewriting _ _).trans ?_
  rw [outputFields,foldl_omitEmpty (text_inverse w rewriting),foldl_omitEmpty (int_rereadsBy w),
    foldl_omitEmpty (mapping_inverse w rewriting),foldl_omitEmpty (text_inverse w rewriting),
    foldl_omitEmpty (mapping_inverse w rewriting),foldl_omitEmpty (text_inverse w rewriting),
    foldl_omitEmpty (text_inverse w rewriting),foldl_omitEmpty (list_inverse text_inverse w rewriting),List.foldl_nil]
  · simp [rereadOutputBy,rereadOutput,someItems,someEntries,text,int,mapping,list,ite_zero,value,mismatch]
  all_goals rfl

theorem output_rereads : output.Rereads rereadOutput := by
  intro o
  exact (output_rereadsBy (.inl rfl) o).trans (rereadOutputBy_id o)

/-- What a cell on disk is read back as. -/
def rereadCellDisk (c : CellDisk) : CellDisk := { c with outputs := c.outputs.map (List.map rereadOutputDisk) }

theorem cellDisk_rereads : cellDisk.Rereads rereadCellDisk := by
  have rewriting : Rewriting id := .inl rfl
  intro c
  show decodeStruct cellDiskFields cellDisk.zero (id (encodeStruct cellDiskFields c)) = _
  rw [decode_encode_fields cellDiskFields_good rewriting,cellDiskFields,
    foldl_field (list_inverse text_inverse _ rewriting),foldl_field int_rereads,foldl_field (text_inverse _ rewriting),foldl_field (mapping_inverse _ rewriting),
    foldl_field (list_rereads outputDisk_rereads),foldl_field (mapping_inverse _ rewriting)]
  all_goals rfl

/-- What a cell of the editor is read as that `w` has written again. -/
def rereadCellBy (w : Json → Json) (c : Cell) : Decoded Cell :=
  ⟨{ c with
      executionCount := (rereadCount w c.executionCount).value
      outputs := c.outputs.map (List.map (fun o => (rereadOutputBy w o).value)) },
    (rereadCount w c.executionCount).mismatch || (items c.outputs).any (fun o => (rereadOutputBy w o).mismatch)⟩

theorem cell_rereadsBy {w : Json → Json} (rewriting : Rewriting w) : cell.RereadsBy w (rereadCellBy w) := by
  intro c
  refine (decode_encode_fields cellFields_good rewriting _ _).trans ?_
  rw [cellFields,foldl_field (text_inverse w rewriting),foldl_field (int_rereadsBy w),foldl_field (text_inverse w rewriting),
    foldl_field (mapping_inverse w rewriting),foldl_field (list_rereadsBy rewriting (output_rereadsBy rewriting)),
    foldl_field (mapping_inverse w rewriting),List.foldl_nil]
  · simp [rereadCellBy,items]
  all_goals rfl

theorem notebookDisk_rereads :
    notebookDisk.Rereads (fun nb => { nb with cells := nb.cells.map (List.map rereadCellDisk) }) := by
  have rewriting : Rewriting id := .inl rfl
  intro nb
  show decodeStruct notebookDiskFields notebookDisk.zero (id (encodeStruct notebookDiskFields nb)) = _
  rw [decode_encode_fields notebookDiskFields_good rewriting,notebookDiskFields,
    foldl_field (list_rereads cellDisk_rereads),foldl_field int_rereads,foldl_field int_rereads,
    foldl_field (metadata_inverse _ rewriting)]
  all_goals rfl

/-- What a notebook of the editor is read as that `w` has written again. -/
def rereadNotebookBy (w : Json → Json) (nb : Notebook) : Decoded Notebook :=
  ⟨{ nb with
      cells := nb.cells.map (List.map (fun c => (rereadCellBy w c).value))
      nbformat := (rereadCount w nb.nbformat).value
      nbformatMinor := (rereadCount w nb.nbformatMinor).value },
    (items nb.cells).any (fun c => (rereadCellBy w c).mismatch) || (rereadCount w nb.nbformat).mismatch ||
      (rereadCount w nb.nbformatMinor).mismatch⟩

section
variable (w : Json → Json) (c : Cell) (nb : Notebook)

@[simp] theorem rereadCellBy_attachments : (rereadCellBy w c).value.attachments = c.attachments := rfl
@[simp] theorem rereadCellBy_cellMetadata : (rereadCellBy w c).value.cellMetadata = c.cellMetadata := rfl
@[simp] theorem rereadNotebookBy_cells :
    (rereadNotebookBy w nb).value.cells = nb.cells.map (List.map (fun c => (rereadCellBy w c).value)) := rfl
@[simp] theorem rereadNotebookBy_metadata : (rereadNotebookBy w nb).value.metadata = nb.metadata := rfl

end

theorem notebook_rereadsBy {w : Json → Json} (rewriting : Rewriting w) : notebook.RereadsBy w (rereadNotebookBy w) := by
  intro nb
  refine (decode_encode_fields notebookFields_good rewriting _ _).trans ?_
  rw [notebookFields,foldl_field (list_rereadsBy rewriting (cell_rereadsBy rewriting)),foldl_field (int_rereadsBy w),
    foldl_field (int_rereadsBy w),foldl_field (metadata_inverse w rewriting),List.foldl_nil]
  · simp [rereadNotebookBy,items]
  all_goals rfl

end Zasper.NotebookJson
