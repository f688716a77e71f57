import Zasper.ShownOutputs

/-!
# Sent notebooks

The notebook of an editor as it is sent to be saved. The server reads every cell and every
output of it, whatever the order of the members, and nothing of it is of a wrong type
(`notebookBytes_sent`), as long as the outputs are those of messages and of notebooks that
were opened.
-/
namespace Zasper.SentNotebooks
open Zasper.Maps Zasper.JsonValues Zasper.JsonText Zasper.Structs Zasper.Notebooks Zasper.NotebookJson
open Zasper.Nbformat Zasper.JsonMembers Zasper.ContentManager Zasper.SaveOpen Zasper.ShownOutputs
open Zasper.NotebookCells (ICell NotebookEditor Content addedOutput)
open Zasper.CellOutputs (shown)
open Zasper.Editors (getNotebookMetaData)
set_option linter.unusedSimpArgs false

/-! ## Requests -/

/-- A cell as it is sent. The attachments are those that it came with. -/
def cellJson (attachments : String → Option (Option Bundle)) (arrays : List (List Json)) (cell : ICell) : Json :=
  .obj (
    [ ("execution_count",.num (.int cell.executionCount))
    , ("source",.str cell.source)
    , ("cell_type",.str cell.cellType)
    , ("id",.str cell.id)
    , ("reload",.bool cell.reload)
    , ("outputs",match cell.outputs with
        | none => .null
        | some array => .arr (arrays[array]?.getD [])) ] ++
    (cell.metadata.map (fun metadata => ("metadata",metadata))).toList ++
    ((attachments cell.id).map (fun attached => ("attachments",mapping.encode attached))).toList)

/-- The notebook as it is sent, with the name of its kernel; the format numbers are those of
    the answer. -/
def notebookJson (attachments : String → Option (Option Bundle)) (kernelName : String) (editor : NotebookEditor) : Json :=
  .obj
    [ ("cells",.arr (editor.cells.map (cellJson attachments editor.arrays)))
    , ("nbformat",.num (.int 0))
    , ("nbformat_minor",.num (.int 0))
    , ("metadata",getNotebookMetaData kernelName) ]

/-! ## Editors -/

/-- A cell that the server can read: its count fits, and its metadata are none or an object
    that the server passed on. -/
structure Sendable (cell : ICell) : Prop where
  count : Held cell.executionCount
  metadata : ∀ j ∈ cell.metadata, Normalized j ∧ (j = .null ∨ ∃ members, j = .obj members)

theorem Sendable.congr {cell other : ICell} (sendable : Sendable cell) (count : other.executionCount = cell.executionCount)
    (metadata : other.metadata = cell.metadata) : Sendable other :=
  ⟨count ▸ sendable.count,metadata ▸ sendable.metadata⟩

/-- Everything in the editor that is sent can be read. -/
structure Sends (editor : NotebookEditor) : Prop where
  cells : ∀ cell ∈ editor.cells, Sendable cell
  outputs : ∀ array ∈ editor.arrays, ∀ o ∈ array, Known o

/-! ## Sending -/

theorem denoted_lines (lines : List String) : denoted (.arr (lines.map Json.str)) = .arr (lines.map Json.str) := by
  simp [denoted,normItems_eq,List.map_map,Function.comp_def]

/-- The members of an output that was pushed, in any order. -/
theorem output_denoted {members : List (String × Json)} (distinct : (members.map Prod.fst).Nodup)
    (names : ∀ e ∈ members, e.1 ∈ outputFields.map StructField.name) (stable : ∀ e ∈ members, Stable outputFields e) :
    output.decode output.zero (denoted (.obj members)) = output.decode output.zero (.obj members) := by
  refine decodeStruct_denoted outputFields_good distinct ?_ stable _
  intro e inside _
  exact List.mem_map.mp (names e inside)

theorem dataOutput_denoted (type : String) {members : List (String × Json)} (normal : Normalized (.obj members)) :
    output.decode output.zero (denoted (dataOutput type members)) =
      output.decode output.zero (dataOutput type members) := by
  have data : Stable outputFields ("data",.obj members) := stable_of_normal (norm_of_normal _ normal)
  by_cases untyped : type = ""
  · rw [dataOutput,if_pos untyped]
    refine output_denoted (by simp) (by simp [outputFields,fieldOmitEmpty,field]) ?_
    rw [List.forall_mem_singleton]
    exact data
  · rw [dataOutput,if_neg untyped]
    refine output_denoted (by simp) (by simp [outputFields,fieldOmitEmpty,field]) ?_
    rw [List.forall_mem_cons,List.forall_mem_singleton]
    exact ⟨data,stable_of_normal rfl⟩

/-- Nothing of a known output is of a wrong type. -/
theorem known_decode {o : Json} (known : Known o) : (output.decode output.zero o).mismatch = false := by
  cases known with
  | opened disk held => exact congrArg Decoded.mismatch (output_rereads (rejoinOutput disk))
  | @added content o documented added =>
    cases content with
    | error ename evalue traceback =>
      obtain rfl := Option.some.inj added
      rw [decode_error]
    | stream name text =>
      simp only [addedOutput] at added
      split_ifs at added
      obtain rfl := Option.some.inj added
      rw [decode_stream]
    | executeResult data =>
      obtain rfl := Option.some.inj added
      obtain ⟨members,rfl⟩ := Sent.isObj documented
      have inRange : membersOutOfRange members = false := inRange_of_normal _ documented.normal
      exact (congrArg Decoded.mismatch (decode_dataOutput "execute_result" members)).trans inRange
    | displayData data =>
      obtain rfl := Option.some.inj added
      obtain ⟨members,rfl⟩ := Sent.isObj documented
      have inRange : membersOutOfRange members = false := inRange_of_normal _ documented.normal
      exact (congrArg Decoded.mismatch (decode_dataOutput "" members)).trans inRange
    | _ => cases added

/-- A known output is read alike in any order of its members. -/
theorem known_denoted {o : Json} (known : Known o) :
    output.decode output.zero (denoted o) = output.decode output.zero o := by
  cases known with
  | opened disk held =>
    have count : rereadCount denoted (rejoinOutput disk).executionCount = ⟨disk.executionCount,false⟩ :=
      rereadCount_held held
    have plain : output.decode output.zero (output.encode (rejoinOutput disk)) = ⟨rereadOutput (rejoinOutput disk),false⟩ :=
      output_rereads _
    rw [plain,output_rereadsBy (.inr rfl),rereadOutputBy,count]
    rfl
  | @added content o documented added =>
    cases content with
    | error ename evalue traceback =>
      obtain rfl := Option.some.inj added
      refine output_denoted (by simp) (by simp [outputFields,fieldOmitEmpty,field]) ?_
      simp only [List.forall_mem_cons,List.not_mem_nil,false_implies,implies_true,and_true]
      exact ⟨stable_of_normal rfl,stable_of_normal rfl,stable_of_normal rfl,stable_of_normal (denoted_lines traceback)⟩
    | stream name text =>
      simp only [addedOutput] at added
      split_ifs at added
      obtain rfl := Option.some.inj added
      refine output_denoted (by simp) (by simp [outputFields,fieldOmitEmpty,field]) ?_
      simp only [List.forall_mem_cons,List.not_mem_nil,false_implies,implies_true,and_true]
      exact ⟨stable_of_normal rfl,stable_of_normal rfl⟩
    | executeResult data =>
      obtain rfl := Option.some.inj added
      obtain ⟨members,rfl⟩ := Sent.isObj documented
      exact dataOutput_denoted "execute_result" documented.normal
    | displayData data =>
      obtain rfl := Option.some.inj added
      obtain ⟨members,rfl⟩ := Sent.isObj documented
      exact dataOutput_denoted "" documented.normal
    | _ => cases added

/-! ## Saving -/

/-- The cell as the server reads it. -/
def readCell (attachments : String → Option (Option Bundle)) (arrays : List (List Json)) (cell : ICell) : Cell where
  source := cell.source
  cellType := cell.cellType
  executionCount := Int64.ofInt cell.executionCount
  attachments := (attachments cell.id).getD none
  cellMetadata := (cell.metadata.map (fun j => (mapping.decode none j).value)).getD none
  outputs := cell.outputs.map (fun array => (arrays[array]?.getD []).map (fun o => (output.decode output.zero o).value))

section
variable {attachments : String → Option (Option Bundle)} {arrays : List (List Json)} {cell : ICell}

theorem outputs_decode {outputs : List Json} (known : ∀ o ∈ outputs, Known o) {w : Json → Json} (rewriting : Rewriting w)
    (old : Option (List Output)) : (list output).decode old (w (.arr outputs)) =
      ⟨some (outputs.map (fun o => (output.decode output.zero o).value)),false⟩ := by
  rw [rewriting.arr]
  apply list_decode
  intro o inside
  have here := known_decode (known o inside)
  rcases rewriting with rfl | rfl
  · exact Decoded.mk.injEq .. ▸ ⟨rfl,here⟩
  · rw [known_denoted (known o inside)]
    exact Decoded.mk.injEq .. ▸ ⟨rfl,here⟩

theorem stable_outputs {outputs : List Json} (known : ∀ o ∈ outputs, Known o) :
    Stable cellFields ("outputs",.arr outputs) := by
  intro f inside _ s
  simp only [cellFields,List.mem_cons,List.not_mem_nil,or_false] at inside
  rcases inside with rfl | rfl | rfl | rfl | rfl | rfl
  case inr.inr.inr.inr.inl =>
    have again := outputs_decode known (.inr rfl) s.outputs
    have plain := outputs_decode known (.inl rfl) s.outputs
    rw [id_eq] at plain
    simp only [field,decodeVia,again,plain]
  all_goals rfl

section
variable (c : Cell)

theorem decodeMember_source (s : String) :
    decodeMember cellFields ⟨c,false⟩ ("source",.str s) = ⟨{ c with source := s },false⟩ :=
  decodeMember_read cellFields_good
    (show field "source" text (·.source) (fun s v => { s with source := v }) ∈ cellFields by simp [cellFields]) rfl

theorem decodeMember_cellType (s : String) :
    decodeMember cellFields ⟨c,false⟩ ("cell_type",.str s) = ⟨{ c with cellType := s },false⟩ :=
  decodeMember_read cellFields_good
    (show field "cell_type" text (·.cellType) (fun s v => { s with cellType := v }) ∈ cellFields by simp [cellFields]) rfl

theorem decodeMember_count {n : Int} (fits : -2^63 ≤ n ∧ n < 2^63) :
    decodeMember cellFields ⟨c,false⟩ ("execution_count",.num (.int n)) =
      ⟨{ c with executionCount := Int64.ofInt n },false⟩ :=
  decodeMember_read cellFields_good
    (show field "execution_count" int (·.executionCount) (fun s v => { s with executionCount := v }) ∈ cellFields by
      simp [cellFields])
    (by simp only [int,Number.asInt?,if_pos fits])

theorem decodeMember_outputs {j : Json} {outputs : Option (List Output)}
    (read : (list output).decode c.outputs j = ⟨outputs,false⟩) :
    decodeMember cellFields ⟨c,false⟩ ("outputs",j) = ⟨{ c with outputs := outputs },false⟩ :=
  decodeMember_read cellFields_good
    (show field "outputs" (list output) (·.outputs) (fun s v => { s with outputs := v }) ∈ cellFields by simp [cellFields])
    read

theorem decodeMember_metadata {j : Json} {metadata : Option Bundle}
    (read : mapping.decode c.cellMetadata j = ⟨metadata,false⟩) :
    decodeMember cellFields ⟨c,false⟩ ("metadata",j) = ⟨{ c with cellMetadata := metadata },false⟩ :=
  decodeMember_read cellFields_good
    (show field "metadata" mapping (·.cellMetadata) (fun s v => { s with cellMetadata := v }) ∈ cellFields by
      simp [cellFields])
    read

theorem decodeMember_attachments {j : Json} {attached : Option Bundle}
    (read : mapping.decode c.attachments j = ⟨attached,false⟩) :
    decodeMember cellFields ⟨c,false⟩ ("attachments",j) = ⟨{ c with attachments := attached },false⟩ :=
  decodeMember_read cellFields_good
    (show field "attachments" mapping (·.attachments) (fun s v => { s with attachments := v }) ∈ cellFields by
      simp [cellFields])
    read

end

theorem decode_cellJson (sendable : Sendable cell) (known : ∀ o ∈ shown arrays cell, Known o) :
    NotebookJson.cell.decode NotebookJson.cell.zero (cellJson attachments arrays cell) =
      ⟨readCell attachments arrays cell,false⟩ := by
  have outputs : (list output).decode none (match cell.outputs with
        | none => .null
        | some array => .arr (arrays[array]?.getD [])) =
      ⟨cell.outputs.map (fun array => (arrays[array]?.getD []).map (fun o => (output.decode output.zero o).value)),
        false⟩ := by
    cases here : cell.outputs with
    | none => rfl
    | some array =>
      have inArray : ∀ o ∈ arrays[array]?.getD [], Known o := by simpa only [shown,here] using known
      exact outputs_decode inArray (.inl rfl) none
  have metadata : ∀ j, cell.metadata = some j → mapping.decode none j = ⟨(mapping.decode none j).value,false⟩ := by
    intro j here
    obtain ⟨normal,rfl | ⟨members,rfl⟩⟩ := sendable.metadata j here
    · rfl
    · have inRange : membersOutOfRange members = false := inRange_of_normal _ normal
      rw [mapping_decode,inRange]
  have attached : ∀ a, mapping.decode none (mapping.encode a) = ⟨a,false⟩ := fun a => mapping_inverse id (.inl rfl) a
  show List.foldl (decodeMember cellFields) ⟨⟨"",0,"",none,none,none⟩,false⟩ _ = _
  have noId : fieldFor cellFields "id" = none := Option.isNone_iff_eq_none.mp (by decide)
  have noReload : fieldFor cellFields "reload" = none := Option.isNone_iff_eq_none.mp (by decide)
  simp only [List.foldl_append,List.foldl_cons,List.foldl_nil,decodeMember_unknown noId,decodeMember_unknown noReload]
  rw [decodeMember_count _ sendable.count.fits,decodeMember_source,decodeMember_cellType,decodeMember_outputs _ outputs]
  unfold readCell
  cases given : cell.metadata with
  | none =>
    cases attachments cell.id with
    | none => rfl
    | some a => exact decodeMember_attachments _ (attached a)
  | some j =>
    cases attachments cell.id with
    | none => exact decodeMember_metadata _ (metadata j given)
    | some a =>
      simp only [Option.map_some,Option.toList_some,List.foldl_cons,List.foldl_nil]
      rw [decodeMember_metadata _ (metadata j given)]
      exact decodeMember_attachments _ (attached a)

theorem known_names : ∀ k ∈ ["execution_count","source","cell_type","id","reload","outputs","metadata","attachments"],
    (fieldFor cellFields k).isSome → ∃ f ∈ cellFields, f.name = k := by decide

theorem cellJson_denoted (sendable : Sendable cell) (known : ∀ o ∈ shown arrays cell, Known o) :
    NotebookJson.cell.decode NotebookJson.cell.zero (denoted (cellJson attachments arrays cell)) =
      NotebookJson.cell.decode NotebookJson.cell.zero (cellJson attachments arrays cell) := by
  have outputs : Stable cellFields ("outputs",match cell.outputs with
      | none => .null
      | some array => .arr (arrays[array]?.getD [])) := by
    cases here : cell.outputs with
    | none => exact stable_of_normal rfl
    | some array =>
      have inArray : ∀ o ∈ arrays[array]?.getD [], Known o := by simpa only [shown,here] using known
      exact stable_outputs inArray
  have metadata : ∀ j, cell.metadata = some j → Stable cellFields ("metadata",j) := by
    exact fun j here => stable_of_normal (norm_of_normal j (sendable.metadata j here).1)
  have attached : ∀ a, Stable cellFields ("attachments",mapping.encode a) := by
    intro a
    cases a with
    | none => exact stable_of_normal rfl
    | some m => exact stable_of_normal (norm_of_normal _ (Value.dict m).normal)
  unfold cellJson
  refine decodeStruct_denoted cellFields_good ?_ ?_ ?_ _
  · cases cell.metadata <;> cases attachments cell.id <;> simp
  · intro e inside
    refine known_names _ ?_
    revert e
    cases cell.metadata <;> cases attachments cell.id <;> simp
  · refine List.forall_mem_append.mpr ⟨List.forall_mem_append.mpr ⟨?_,?_⟩,?_⟩
    · simp only [List.forall_mem_cons,List.not_mem_nil,false_implies,implies_true,and_true]
      exact ⟨stable_of_normal sendable.count.exact,stable_of_normal rfl,stable_of_normal rfl,stable_of_normal rfl,
        stable_of_normal rfl,outputs⟩
    · intro e inside
      obtain ⟨j,here,rfl⟩ := Option.map_eq_some_iff.mp (Option.mem_toList.mp inside)
      exact metadata j here
    · intro e inside
      obtain ⟨a,-,rfl⟩ := Option.map_eq_some_iff.mp (Option.mem_toList.mp inside)
      exact attached a

end

/-! ## Notebooks -/

section
variable {attachments : String → Option (Option Bundle)} {editor : NotebookEditor}

theorem known_shown (sends : Sends editor) (cell : ICell) : ∀ o ∈ shown editor.arrays cell, Known o := by
  intro o inside
  unfold shown at inside
  split at inside
  · cases inside
  · next array here =>
    cases found : editor.arrays[array]? with
    | none =>
      rw [found] at inside
      cases inside
    | some outputs =>
      rw [found] at inside
      exact sends.outputs outputs (List.mem_of_getElem? found) o inside

/-- The notebook as the server reads it. -/
def readNotebook (attachments : String → Option (Option Bundle)) (kernelName : String) (editor : NotebookEditor) : Notebook :=
  ⟨some (editor.cells.map (readCell attachments editor.arrays)),0,0,
    ⟨kernelName,kernelName,"",kernelName,languageInfo.zero⟩⟩

theorem cells_decode (sends : Sends editor) (old : Option (List Cell)) (w : Json → Json) (rewriting : Rewriting w) :
    (list NotebookJson.cell).decode old (w (.arr (editor.cells.map (cellJson attachments editor.arrays)))) =
      ⟨some (editor.cells.map (readCell attachments editor.arrays)),false⟩ := by
  have read : ∀ cell ∈ editor.cells, NotebookJson.cell.decode NotebookJson.cell.zero
      (w (cellJson attachments editor.arrays cell)) = ⟨readCell attachments editor.arrays cell,false⟩ := by
    intro cell member
    have plain := @decode_cellJson attachments _ _ (sends.cells cell member) (known_shown sends cell)
    rcases rewriting with rfl | rfl
    · exact plain
    · rw [cellJson_denoted (sends.cells cell member) (known_shown sends cell),plain]
  rw [rewriting.arr,List.map_map]
  exact list_decode read old

theorem metadata_denoted (old : NotebookMetadata) (kernelName : String) :
    metadata.decode old (denoted (getNotebookMetaData kernelName)) = metadata.decode old (getNotebookMetaData kernelName) := by
  refine decodeStruct_denoted metadataFields_good (by simp) ?_ ?_ old
  · intro e inside _
    have names : ∀ k ∈ ["kernelspec","name","display_name"], ∃ f ∈ metadataFields, f.name = k := by decide
    apply names
    revert e
    simp
  · simp only [List.forall_mem_cons,List.not_mem_nil,false_implies,implies_true,and_true]
    exact ⟨stable_of_normal rfl,stable_of_normal rfl,stable_of_normal rfl⟩

theorem decode_metadata (kernelName : String) :
    metadata.decode metadata.zero (getNotebookMetaData kernelName) =
      ⟨⟨kernelName,kernelName,"",kernelName,languageInfo.zero⟩,false⟩ := by
  simp [metadata,struct,decodeStruct,getNotebookMetaData,decodeMember,fieldFor,metadataFields,field,decodeVia]
  simp [text]

theorem stable_metadata (kernelName : String) : Stable notebookFields ("metadata",getNotebookMetaData kernelName) := by
  intro f inside _ s
  simp only [notebookFields,List.mem_cons,List.not_mem_nil,or_false] at inside
  rcases inside with rfl | rfl | rfl | rfl
  case inr.inr.inr => simp only [field,decodeVia,metadata_denoted]
  all_goals rfl

theorem stable_cells (sends : Sends editor) :
    Stable notebookFields ("cells",.arr (editor.cells.map (cellJson attachments editor.arrays))) := by
  intro f inside _ s
  simp only [notebookFields,List.mem_cons,List.not_mem_nil,or_false] at inside
  rcases inside with rfl | rfl | rfl | rfl
  case inl =>
    have again := @cells_decode attachments editor sends s.cells denoted (.inr rfl)
    have plain := @cells_decode attachments editor sends s.cells id (.inl rfl)
    rw [id_eq] at plain
    simp only [field,decodeVia,again,plain]
  all_goals rfl

theorem decode_notebookJson (sends : Sends editor) (kernelName : String) :
    notebook.decode notebook.zero (notebookJson attachments kernelName editor) =
      ⟨readNotebook attachments kernelName editor,false⟩ := by
  have cells := @cells_decode attachments editor sends none id (.inl rfl)
  have read := decode_metadata kernelName
  rw [id_eq] at cells
  show List.foldl (decodeMember notebookFields) ⟨⟨none,0,0,metadata.zero⟩,false⟩ _ = _
  have cellsMember := @decodeMember_read _ notebookFields ⟨none,0,0,metadata.zero⟩ _ notebookFields_good
    _ _ _ _ (show field "cells" (list NotebookJson.cell) (·.cells) (fun s v => { s with cells := v }) ∈ notebookFields by
      simp [notebookFields]) _ _ cells
  simp only [List.foldl_cons,List.foldl_nil,cellsMember]
  have format : ∀ nb : Notebook, decodeMember notebookFields ⟨nb,false⟩ ("nbformat",.num (.int 0)) =
      ⟨{ nb with nbformat := 0 },false⟩ := fun nb => decodeMember_read notebookFields_good
    (show field "nbformat" int (·.nbformat) (fun s v => { s with nbformat := v }) ∈ notebookFields by
      simp [notebookFields]) rfl
  have minor : ∀ nb : Notebook, decodeMember notebookFields ⟨nb,false⟩ ("nbformat_minor",.num (.int 0)) =
      ⟨{ nb with nbformatMinor := 0 },false⟩ := fun nb => decodeMember_read notebookFields_good
    (show field "nbformat_minor" int (·.nbformatMinor) (fun s v => { s with nbformatMinor := v }) ∈ notebookFields by
      simp [notebookFields]) rfl
  rw [format,minor]
  exact decodeMember_read notebookFields_good
    (show field "metadata" metadata (·.metadata) (fun s v => { s with metadata := v }) ∈ notebookFields by
      simp [notebookFields]) read

theorem notebookJson_denoted (sends : Sends editor) (kernelName : String) :
    notebook.decode notebook.zero (denoted (notebookJson attachments kernelName editor)) =
      notebook.decode notebook.zero (notebookJson attachments kernelName editor) := by
  refine decodeStruct_denoted notebookFields_good (by simp) ?_ ?_ _
  · intro e inside _
    have names : ∀ k ∈ ["cells","nbformat","nbformat_minor","metadata"], ∃ f ∈ notebookFields, f.name = k := by decide
    apply names
    revert e
    simp
  · simp only [List.forall_mem_cons,List.not_mem_nil,false_implies,implies_true,and_true]
    exact ⟨stable_cells sends,stable_of_normal denoted_zero,stable_of_normal denoted_zero,stable_metadata kernelName⟩

/-- A notebook that is sent is saved as the server reads it. -/
theorem notebookBytes_sent (sends : Sends editor) (kernelName : String) :
    notebookBytes (.ofJson (notebookJson attachments kernelName editor)) =
      .ok (marshalIndent (notebookDisk.encode (convertToNbDisk (readNotebook attachments kernelName editor)))) := by
  have object : ∃ members, (Value.ofJson (notebookJson attachments kernelName editor)).json = .obj members := ⟨_,rfl⟩
  have read : notebook.unmarshal (marshal (Value.ofJson (notebookJson attachments kernelName editor)).json) notebook.zero =
      (readNotebook attachments kernelName editor,none) := by
    have decoded := (@notebookJson_denoted attachments editor sends kernelName).trans (decode_notebookJson sends kernelName)
    simp [Codec.unmarshal,Codec.decodeParsed,Value.ofJson,decoded]
  obtain ⟨members,same⟩ := object
  rw [same] at read
  simp only [notebookBytes,same,read]

end

end Zasper.SentNotebooks
