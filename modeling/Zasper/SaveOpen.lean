import Mathlib.Data.List.Forall2
import Zasper.NotebookJson

/-!
# Saving and opening

What a save followed by an open keeps. The lines that a save cuts are joined
again (`join_splitText`), so the text of a notebook stays as it was
(`reopened_kept`); of a mime bundle the strings stay, and lists of strings become
one string (`reopenBundle_kept`).
-/
namespace Zasper.SaveOpen
open Zasper.Maps Zasper.JsonValues Zasper.JsonText Zasper.Strings Zasper.Structs Zasper.Notebooks Zasper.NotebookJson
set_option linter.unusedSimpArgs false

/-! ## Lines -/

/-- The last line of a text ends with no line feed that could be trimmed. -/
theorem splitText_eq (text : String) : splitText text = splitAfter text '\n' := by
  have pieces := splitAfter_ne_nil text '\n'
  have last : (splitAfter text '\n').getLast? = some ((splitAfter text '\n').getLast pieces) :=
    List.getLast?_eq_getLast_of_ne_nil pieces
  have newline : String.singleton '\n' = "\n" := by decide
  have trimmed := trimSuffix_of_not_mem (splitAfter_last text '\n' _ last)
  rw [newline] at trimmed
  simp only [splitText,last,Option.toList_some,List.map_cons,List.map_nil,trimmed,List.dropLast_append_getLast]

theorem join_splitText (text : String) : String.join (splitText text) = text := by
  rw [splitText_eq,join_splitAfter]

theorem toStringSlice_str (lines : List String) : toStringSlice (lines.map Value.str) = some lines := by
  induction lines with
  | nil => rfl
  | cons line rest ih =>
    unfold toStringSlice at ih ⊢
    simp [ih]

/-! ## Mime bundles -/

theorem text_not_json {key : String} (text : hasPrefix key "text/" = true) : isJSONMime key = false := by
  obtain ⟨rest,same⟩ := hasPrefix_iff.mp text
  have notExact : key ≠ "application/json" := by
    rintro rfl
    revert text
    decide
  have notPrefix : hasPrefix key "application/" = false := by
    rw [Bool.eq_false_iff]
    intro starts
    obtain ⟨rest',same'⟩ := hasPrefix_iff.mp starts
    have heads := congrArg (fun cs => cs.head?) (same.trans same'.symm)
    revert heads
    simp
  simp [isJSONMime,notExact,notPrefix]

theorem nonTextSplitMimes_get (key : String) : (nonTextSplitMimes.get? key).getD false = false := by
  cases found : nonTextSplitMimes.get? key with
  | none => rfl
  | some b =>
    have all : ∀ e ∈ nonTextSplitMimes.entries, e.2 = false := by decide
    exact all _ (Dict.get?_eq_some.mp found)

theorem splitValue_of_text {key : String} (text : hasPrefix key "text/" = true) (s : String) :
    splitValue key (.str s) = .list ((splitText s).map Value.str) := by
  simp [splitValue,text]

theorem splitValue_of_other {key : String} (other : hasPrefix key "text/" = false) (value : Value) :
    splitValue key value = value := by
  simp [splitValue,other,nonTextSplitMimes_get]

theorem splitValue_of_not_str {key : String} {value : Value} (no : value.asString? = none) :
    splitValue key value = value := by
  unfold splitValue
  split_ifs
  · rw [no]
  · rfl

theorem rejoinValue_lines {key : String} (other : isJSONMime key = false) (lines : List String) :
    rejoinValue key (.list (lines.map Value.str)) = some (.str (String.join lines)) := by
  have all : (lines.map Value.str).all (fun v => v.asString?.isSome) = true := by simp
  simp [rejoinValue,other,all,toStringSlice_str]

theorem asList?_str (s : String) : (Value.str s).asList? = none := rfl

theorem rejoinValue_str (key s : String) : rejoinValue key (.str s) = some (.str s) := by
  cases json : isJSONMime key with
  | true => simp [rejoinValue,json,sprintV]
  | false => simp [rejoinValue,json,asList?_str,sprintV]

/-- A string is found again at its key. -/
theorem rejoinValue_splitValue_str (key s : String) : rejoinValue key (splitValue key (.str s)) = some (.str s) := by
  cases text : hasPrefix key "text/" with
  | true => rw [splitValue_of_text text,rejoinValue_lines (text_not_json text),join_splitText]
  | false => rw [splitValue_of_other text,rejoinValue_str]

/-- The bundle that is opened after `data` was saved. -/
def reopenBundle (data : Bundle) : Bundle :=
  bundle (rejoinMimeBundle (mapping.unmarshal (marshal (mapping.encode (splitMimeBundle (some data)))) none).1)

theorem reopenBundle_eq (data : Bundle) :
    reopenBundle data = data.filterMap (fun key value => rejoinValue key (splitValue key value)) := by
  have read := unmarshal_marshal mapping_inverse.rereads (splitMimeBundle (some data))
  rw [reopenBundle,show (none : Option Bundle) = mapping.zero from rfl,read]
  simp [rejoinMimeBundle,splitMimeBundle,Dict.filterMap_map]

theorem reopenBundle_get (data : Bundle) (key : String) :
    (reopenBundle data).get? key = (data.get? key).bind (fun value => rejoinValue key (splitValue key value)) := by
  rw [reopenBundle_eq,Dict.get?_filterMap]

/-- What a save followed by an open makes of a mime bundle. -/
structure BundleKept (before after : Bundle) : Prop where
  keys : ∀ key v, after.get? key = some v → ∃ w, before.get? key = some w
  strings : ∀ key s, before.get? key = some (.str s) → after.get? key = some (.str s)
  lines : ∀ key lines, isJSONMime key = false → before.get? key = some (.list (lines.map .str)) →
    after.get? key = some (.str (String.join lines))
  present : ∀ key v, before.get? key = some v → isJSONMime key = true ∨ v.asList? = none →
    ∃ w, after.get? key = some w

theorem rejoinValue_present {key : String} {value : Value} (no : isJSONMime key = true ∨ value.asList? = none) :
    ∃ w, rejoinValue key value = some w := by
  unfold rejoinValue
  rcases no with json | single
  · simp [json]
  · rw [single]
    split_ifs <;> exact ⟨_,rfl⟩

/-- Every string of a bundle stays at its key; a list of strings is opened as one
    string; and no key is added. -/
theorem reopenBundle_kept (data : Bundle) : BundleKept data (reopenBundle data) where
  keys key v found := by
    rw [reopenBundle_get] at found
    obtain ⟨w,here,-⟩ := Option.bind_eq_some_iff.mp found
    exact ⟨w,here⟩
  strings key s here := by
    rw [reopenBundle_get,here,Option.bind_some,rejoinValue_splitValue_str]
  lines key lines other here := by
    have same : splitValue key (.list (lines.map .str)) = .list (lines.map .str) := splitValue_of_not_str rfl
    rw [reopenBundle_get,here,Option.bind_some,same,rejoinValue_lines other]
  present key v here no := by
    rw [reopenBundle_get,here,Option.bind_some]
    cases string : v.asString? with
    | none =>
      rw [splitValue_of_not_str string]
      exact rejoinValue_present no
    | some s =>
      rw [Value.asString?_eq_some.mp string,rejoinValue_splitValue_str]
      exact ⟨_,rfl⟩

/-- An output with an object and with a text in two lines. -/
def richOutput : Bundle := .ofEntries
  [ ("application/json",.dict (.ofEntries [("key",.str "value")]))
  , ("text/plain",.list [.str "one\n",.str "two"]) ]

/-- The lines are joined, and the object is opened as the text `map[key:value]`. -/
theorem richOutput_changed : reopenBundle richOutput ≠ richOutput := by
  intro same
  have here : (reopenBundle richOutput).get? "text/plain" = some (.str "one\ntwo") :=
    (reopenBundle_kept richOutput).lines "text/plain" ["one\n","two"] (by decide) (by decide +kernel)
  rw [same] at here
  revert here
  decide +kernel

/-! ## Notebooks -/

/-- The notebook that is opened after `nb` was saved. -/
def reopened (nb : Notebook) : Notebook :=
  parseNotebook (notebookDisk.unmarshal (marshalIndent (notebookDisk.encode (convertToNbDisk nb))) notebookDisk.zero).1

/-- Nil lists and maps count as empty. -/
structure OutputKept (before after : Output) : Prop where
  outputType : after.outputType = before.outputType
  executionCount : after.executionCount = before.executionCount
  text : after.text = before.text
  metadata : bundle after.metadata = bundle before.metadata
  error : before.outputType = "error" →
    after.ename = before.ename ∧ after.evalue = before.evalue ∧ items after.traceback = items before.traceback
  data : before.outputType ≠ "stream" → (∀ e ∈ (bundle before.data).entries, ∃ s, e.2 = .str s) →
    bundle after.data = bundle before.data

structure CellKept (before after : Cell) : Prop where
  source : after.source = before.source
  cellType : after.cellType = before.cellType
  executionCount : after.executionCount = before.executionCount
  metadata : bundle after.cellMetadata = (bundle before.cellMetadata).erase "trusted"
  outputs : before.cellType = "code" → List.Forall₂ OutputKept (items before.outputs) (items after.outputs)

/-- As many cells in the same order, and as many outputs in each. -/
structure NotebookKept (before after : Notebook) : Prop where
  cells : List.Forall₂ CellKept (items before.cells) (items after.cells)
  metadata : after.metadata = before.metadata

theorem forall₂_map {α β : Type} {r : α → β → Prop} {f : α → β} (related : ∀ a, r a (f a)) (as : List α) :
    List.Forall₂ r as (as.map f) := by
  rw [List.forall₂_map_right_iff,List.forall₂_same]
  exact fun a _ => related a

/-- What is opened of an output that was saved. -/
def reopenOutput (o : Output) : Output := rejoinOutput (rereadOutputDisk (outputToDisk o))

theorem reopenOutput_data {o : Output} (other : o.outputType ≠ "stream") :
    bundle (reopenOutput o).data = (bundle o.data).filterMap (fun key value => rejoinValue key (splitValue key value)) := by
  simp [reopenOutput,rejoinOutput,rereadOutputDisk,outputToDisk,other,rejoinMimeBundle,splitMimeBundle,
    Dict.filterMap_map]

theorem reopenOutput_kept (o : Output) : OutputKept o (reopenOutput o) where
  outputType := rfl
  executionCount := rfl
  text := join_splitAfter o.text '\n'
  metadata := rfl
  error type := by
    have kept := items_someItems o.traceback
    simp [reopenOutput,rejoinOutput,rereadOutputDisk,outputToDisk,type,kept]
  data other strings := by
    rw [reopenOutput_data other,Dict.filterMap_eq_self_iff]
    intro e member
    obtain ⟨s,same⟩ := strings e member
    rw [same,rejoinValue_splitValue_str]

/-- What is opened of a cell that was saved. -/
def reopenCell (c : Cell) : Cell :=
  let disk := rereadCellDisk (cellToDisk c)
  rejoinCell { disk with cellMetadata := disk.cellMetadata.map (fun m => m.erase "trusted") }

theorem reopenCell_kept (c : Cell) : CellKept c (reopenCell c) where
  source := join_splitAfter c.source '\n'
  cellType := rfl
  executionCount := rfl
  metadata := rfl
  outputs code := by
    have same : items (reopenCell c).outputs = (items c.outputs).map reopenOutput := by
      simp [reopenCell,rejoinCell,rereadCellDisk,cellToDisk,code,reopenOutput,List.map_map,Function.comp_def]
    rw [same]
    exact forall₂_map reopenOutput_kept _

theorem reopened_eq (nb : Notebook) :
    reopened nb =
      { cells := appended ((items nb.cells).map reopenCell), metadata := nb.metadata, nbformat := 0, nbformatMinor := 0 } := by
  have read := unmarshal_marshalIndent notebookDisk_rereads (convertToNbDisk nb)
  rw [reopened,read]
  simp only [parseNotebook,rejoinLines,stripTransient,convertToNbDisk,Option.map_some,items_some,List.map_map]
  rfl

/-- Saving and opening a notebook keeps its text. -/
theorem reopened_kept (nb : Notebook) : NotebookKept nb (reopened nb) := by
  have cells : items (reopened nb).cells = (items nb.cells).map reopenCell := by rw [reopened_eq,items_appended]
  have metadata : (reopened nb).metadata = nb.metadata := by rw [reopened_eq]
  refine ⟨?_,metadata⟩
  rw [cells]
  exact forall₂_map reopenCell_kept _

end Zasper.SaveOpen
