import Zasper.OpenSave
import Zasper.SaveOpen

/-!
# Repeated saves

What happens to a notebook file that is opened and saved again and again without an
edit. The first round brings it into the form that a save writes, and everything but
the attachments stays in that form: a file without attachments is the same, byte for
byte, after the first round and after every later one, and a file with attachments
is another one after each round, unless its saves are refused (`settles_or_grows`).
-/
namespace Zasper.RepeatedSaves
open Zasper.Maps Zasper.JsonValues Zasper.JsonText Zasper.Strings Zasper.Notebooks Zasper.NotebookJson
open Zasper.ContentManager Zasper.SaveOpen Zasper.Nbformat Zasper.OpenNotebook Zasper.OpenSave
set_option linter.unusedSimpArgs false

/-! ## What a round makes of a bundle -/

theorem rejoinValue_str_of_some {key : String} {value out : Value} (rejoined : rejoinValue key value = some out) :
    ∃ s, out = .str s := by
  unfold rejoinValue at rejoined
  split at rejoined
  · split at rejoined
    · split_ifs at rejoined
      obtain ⟨lines,-,rfl⟩ := Option.map_eq_some_iff.mp rejoined
      exact ⟨_,rfl⟩
    · exact ⟨_,(Option.some.inj rejoined).symm⟩
  · exact ⟨_,(Option.some.inj rejoined).symm⟩

/-- What a round makes of a mime bundle. -/
def resaveBundle (data : Bundle) : Bundle := (data.filterMap rejoinValue).map splitValue

/-- Whatever is left of a value is a text, which a further round cuts and joins. -/
theorem resaveBundle_settled (data : Bundle) : resaveBundle (resaveBundle data) = resaveBundle data := by
  have kept : ((data.filterMap rejoinValue).map splitValue).filterMap rejoinValue = data.filterMap rejoinValue := by
    rw [Dict.filterMap_map,Dict.filterMap_eq_self_iff]
    intro e inside
    obtain ⟨source,-,same⟩ := List.mem_filterMap.mp (Dict.filterMap_entries data rejoinValue ▸ inside)
    obtain ⟨out,rejoined,rfl⟩ := Option.map_eq_some_iff.mp same
    obtain ⟨s,rfl⟩ := rejoinValue_str_of_some rejoined
    exact rejoinValue_splitValue_str _ _
  unfold resaveBundle
  rw [kept]

theorem bundle_someEntries (m : Option Bundle) : bundle (someEntries m) = bundle m := by
  unfold someEntries
  split_ifs with empty
  · exact (Dict.ext (List.isEmpty_iff.mp empty)).symm
  · rfl

theorem someEntries_idem (m : Option Bundle) : someEntries (someEntries m) = someEntries m := by
  unfold someEntries
  split_ifs <;> rfl

theorem someItems_idem {α : Type} (list : Option (List α)) : someItems (someItems list) = someItems list := by
  unfold someItems
  split_ifs <;> rfl

/-! ## What a round makes of a cell -/

/-- What a round makes of an output on disk. -/
def resaveOutput (o : OutputDisk) : OutputDisk := outputToDisk (rereadOutputBy denoted (rejoinOutput o)).value

theorem resaveOutput_eq (o : OutputDisk) : resaveOutput o =
    { outputType := o.outputType
      executionCount := (rereadCount denoted o.executionCount).value
      data := some (if o.outputType = "stream" then .empty else resaveBundle (bundle o.data))
      text := some (splitAfter (String.join (items o.text)) '\n')
      metadata := someEntries o.metadata
      ename := if o.outputType = "error" then o.ename else ""
      evalue := if o.outputType = "error" then o.evalue else ""
      traceback := if o.outputType = "error" then someItems o.traceback else none } := by
  have data : splitMimeBundle (someEntries (if o.outputType = "stream" then none else rejoinMimeBundle o.data)) =
      some (if o.outputType = "stream" then .empty else resaveBundle (bundle o.data)) := by
    rw [splitMimeBundle,bundle_someEntries]
    split_ifs <;> rfl
  simp only [resaveOutput,rejoinOutput,rereadOutputBy,rereadOutput,outputToDisk,data]
  split_ifs <;> rfl

theorem resaveOutput_settled (o : OutputDisk) : resaveOutput (rereadOutputDisk (resaveOutput o)) = resaveOutput o := by
  rw [resaveOutput_eq o,resaveOutput_eq]
  by_cases stream : o.outputType = "stream"
  · simp [rereadOutputDisk,stream,join_splitAfter,someEntries_idem,rereadCount_settled]
  · by_cases error : o.outputType = "error"
    · simp [rereadOutputDisk,error,join_splitAfter,someEntries_idem,someItems_idem,resaveBundle_settled,rereadCount_settled]
    · simp [rereadOutputDisk,stream,error,join_splitAfter,someEntries_idem,resaveBundle_settled,rereadCount_settled]

/-- What a round makes of a cell on disk. -/
def resaveCell (c : CellDisk) : CellDisk :=
  cellToDisk (rereadCellBy denoted
    (rejoinCell { c with cellMetadata := c.cellMetadata.map (fun m => m.erase "trusted") })).value

theorem resaveCell_eq (c : CellDisk) : resaveCell c =
    { source := some (splitAfter (String.join (items c.source)) '\n')
      executionCount := (rereadCount denoted c.executionCount).value
      cellType := c.cellType
      attachments := some (rewrap (bundle c.attachments))
      outputs := some (if c.cellType = "code" then (items c.outputs).map resaveOutput else [])
      cellMetadata := some ((bundle c.cellMetadata).erase "trusted") } := by
  have outputs : items ((if c.cellType = "code" then appended ((items c.outputs).map rejoinOutput) else none).map
      (List.map (fun o => (rereadOutputBy denoted o).value))) =
      if c.cellType = "code" then ((items c.outputs).map rejoinOutput).map (fun o => (rereadOutputBy denoted o).value)
      else [] := by
    split_ifs
    · rw [items_map,items_appended]
    · rfl
  have metadata : bundle (c.cellMetadata.map (fun m => m.erase "trusted")) = (bundle c.cellMetadata).erase "trusted" := by
    cases c.cellMetadata <;> rfl
  simp only [resaveCell,cellToDisk,rereadCellBy,rejoinCell,outputs,metadata,rejoinMimeBundle,bundle_some]
  split_ifs
  · rw [List.map_map,List.map_map]
    rfl
  · rfl

/-- All but the attachments of a cell stays as it is in a further round. -/
theorem resaveCell_settled (c : CellDisk) : resaveCell (rereadCellDisk (resaveCell c)) =
    { resaveCell c with attachments := some (rewrap (rewrap (bundle c.attachments))) } := by
  rw [resaveCell_eq c,resaveCell_eq]
  simp only [rereadCellDisk,bundle_some,items_some,Option.map_some,join_splitAfter,Dict.erase_erase,rereadCount_settled]
  congr 2
  split_ifs
  · rw [List.map_map,List.map_map]
    exact List.map_congr_left (fun o _ => resaveOutput_settled o)
  · rfl

theorem resave_eq (nb : NotebookDisk) :
    resave nb = { cells := some ((items nb.cells).map resaveCell), nbformat := 4, nbformatMinor := 5, metadata := nb.metadata } := by
  simp only [resave,parseNotebook,rejoinLines,stripTransient,convertToNbDisk,rereadNotebookBy_cells,items_map,items_some,items_appended,
    List.map_map]
  rfl

theorem resave_settled {nb : NotebookDisk} (none : ∀ a ∈ diskAttachments nb, a = .empty) :
    resave (rereadDisk (resave nb)) = resave nb := by
  rw [resave_eq nb,resave_eq]
  simp only [rereadDisk,items_map,items_some,List.map_map]
  congr 2
  refine List.map_congr_left (fun c inside => ?_)
  have empty : bundle c.attachments = .empty := none _ (List.mem_map_of_mem inside)
  have same := resaveCell_settled c
  rw [empty] at same
  refine same.trans ?_
  rw [resaveCell_eq,empty]
  rfl

/-! ## Rounds -/

/-- No cell of the file has an attachment. -/
def NoAttachments (file : NotebookFile) : Prop := ∀ c ∈ cellsOf file.doc, attachmentsOf c = .empty

/-- The first round writes the form that all later ones keep. -/
theorem rounds_settled {file : NotebookFile} (none : NoAttachments file) (n : Nat) :
    rounds (n+1) file.bytes = rounds 1 file.bytes := by
  by_cases refused : Refused (nbformatReads file.bytes)
  · rw [rounds_refused refused,rounds_refused refused]
  have given : ∀ a ∈ diskAttachments (readDisk file.bytes), a = .empty := by
    rw [← fileAttachments_file,fileAttachments,file.json]
    rintro a inside
    obtain ⟨c,cell,rfl⟩ := List.mem_map.mp inside
    exact none c cell
  have first : rounds 1 file.bytes = marshalIndent (notebookDisk.encode (resave (readDisk file.bytes))) := saved_eq refused
  induction n with
  | zero => rfl
  | succ n ih => rw [rounds,ih,first,saved_eq (accepted_saved _),readDisk_saved,resave_settled given]

theorem bundles_rewrap {attachments : Bundle} (bundles : Bundles attachments) (n : Nat) :
    Bundles (rewrap^[n] attachments) := by
  cases n with
  | zero => exact bundles
  | succ n =>
    rw [rewrap_iterate bundles]
    intro e inside
    obtain ⟨old,-,rfl⟩ := List.mem_map.mp inside
    exact ⟨_,rfl⟩

theorem rewrap_iterate_empty {attachments : Bundle} (bundles : Bundles attachments) {n : Nat}
    (empty : rewrap^[n] attachments = .empty) : attachments = .empty := by
  cases n with
  | zero => exact empty
  | succ n =>
    rw [rewrap_iterate bundles] at empty
    exact Dict.ext (List.map_eq_nil_iff.mp (congrArg Dict.entries empty))

/-- A bundle that is not empty is another one after more rounds. -/
theorem rewrap_iterate_add {attachments : Bundle} (bundles : Bundles attachments) (given : attachments ≠ .empty)
    {m k : Nat} (same : rewrap^[m+k] attachments = rewrap^[m] attachments) : k = 0 := by
  rw [Nat.add_comm,Function.iterate_add_apply,rewrap_iterate_eq_iff (bundles_rewrap bundles m)] at same
  exact same.resolve_right (fun empty => given (rewrap_iterate_empty bundles empty))

/-- More rounds of a file with attachments write other bytes. -/
theorem rounds_add {file : NotebookFile} (given : ¬ NoAttachments file) (accepted : ¬ Refused (nbformatReads file.bytes))
    {m k : Nat} (same : rounds (m+k) file.bytes = rounds m file.bytes) : k = 0 := by
  obtain ⟨c,cell,attached⟩ : ∃ c ∈ cellsOf file.doc, attachmentsOf c ≠ .empty := by
    by_contra none
    exact given (fun c cell => by_contra (fun attached => none ⟨c,cell,attached⟩))
  obtain ⟨members,shape⟩ := isNotebook_shape file.format
  obtain ⟨-,-,later⟩ := rounds_attachments accepted (m+k)
  obtain ⟨-,-,before⟩ := rounds_attachments accepted m
  have document : fileAttachments file.bytes = (cellsOf file.doc).map attachmentsOf := by
    rw [fileAttachments,file.json]
  rw [same,before,document,List.map_map,List.map_map,List.map_inj_left] at later
  exact rewrap_iterate_add (attachmentsOf_bundles (shape.cellFormat c cell)) attached (later c cell).symm

/-- Two rounds of a file with attachments never write the same bytes. -/
theorem rounds_differ {file : NotebookFile} (given : ¬ NoAttachments file)
    (accepted : ¬ Refused (nbformatReads file.bytes)) {m n : Nat}
    (same : rounds m file.bytes = rounds n file.bytes) : m = n := by
  rcases Nat.le_total m n with below | above
  · obtain ⟨k,rfl⟩ := Nat.exists_eq_add_of_le below
    rw [rounds_add given accepted same.symm,Nat.add_zero]
  · obtain ⟨k,rfl⟩ := Nat.exists_eq_add_of_le above
    rw [rounds_add given accepted same,Nat.add_zero]

end Zasper.RepeatedSaves
