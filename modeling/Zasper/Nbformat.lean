import Zasper.NotebookJson

/-!
# The notebook format

Notebook documents as the format describes them (version 4): which members the
notebook, its cells and its outputs have, and the text of a multi-line field in
either of its two encodings. What the structures of `NotebookJson` read from such a
document is the document's own members (`read_member`).
-/
namespace Zasper.Nbformat
open Zasper.Maps Zasper.JsonValues Zasper.Structs Zasper.Notebooks Zasper.NotebookJson
set_option linter.unusedSimpArgs false

/-! ## Documents -/

/-- The member of an object. -/
def member? (key : String) : Json → Option Json
  | .obj members => (members.find? (fun e => e.1 = key)).map (·.2)
  | _ => none

/-- The member of an object, null where there is none. -/
def member (key : String) (j : Json) : Json := (member? key j).getD .null

/-- An object that has each required member, and no other than these and the
    optional ones. -/
def isRecord (required optional : List String) : Json → Bool
  | .obj members =>
    let keys := members.map Prod.fst
    decide keys.Nodup && keys.all (· ∈ required ++ optional) && required.all (· ∈ keys)
  | _ => false

/-- An object, each key once. -/
def isObject : Json → Bool
  | .obj members => decide (members.map Prod.fst).Nodup
  | _ => false

def isText : Json → Bool
  | .str _ => true
  | _ => false

def isTextList : Json → Bool
  | .arr items => items.all isText
  | _ => false

/-- One string, or a list of strings. -/
def isMultiLine (j : Json) : Bool := isText j || isTextList j

def isInteger : Json → Bool
  | .num (.int _) => true
  | _ => false

/-- An execution count: null for a cell that has not run. -/
def isCount (j : Json) : Bool := j = .null || isInteger j

def membersOf : Json → List (String × Json)
  | .obj members => members
  | _ => []

def itemsOf : Json → List Json
  | .arr items => items
  | _ => []

/-- A bundle of values by mime type; only JSON types have other values than text. -/
def isBundle (j : Json) : Bool := isObject j && (membersOf j).all (fun e => isJSONMime e.1 || isMultiLine e.2)

/-- Attachments: a mime bundle for each file name. -/
def isAttachments (j : Json) : Bool := isObject j && (membersOf j).all (fun e => isBundle e.2)

/-- The string that a member is, empty where it is none. -/
def textOf : Json → String
  | .str s => s
  | _ => ""

/-- The text of a multi-line field in either encoding. -/
def multiLineText : Json → String
  | .str s => s
  | .arr items => String.join (items.map textOf)
  | _ => ""

/-! ## The format -/

def outputType (j : Json) : String := textOf (member "output_type" j)

def isOutput (j : Json) : Bool :=
  isText (member "output_type" j) &&
  if outputType j = "execute_result" then
    isRecord ["output_type","execution_count","data","metadata"] [] j && isCount (member "execution_count" j) &&
      isBundle (member "data" j) && isObject (member "metadata" j)
  else if outputType j = "display_data" then
    isRecord ["output_type","data","metadata"] [] j && isBundle (member "data" j) && isObject (member "metadata" j)
  else if outputType j = "stream" then
    isRecord ["output_type","name","text"] [] j && isText (member "name" j) && isMultiLine (member "text" j)
  else if outputType j = "error" then
    isRecord ["output_type","ename","evalue","traceback"] [] j && isText (member "ename" j) &&
      isText (member "evalue" j) && isTextList (member "traceback" j)
  else false

def cellType (j : Json) : String := textOf (member "cell_type" j)

def isCell (j : Json) : Bool :=
  isText (member "cell_type" j) && isObject (member "metadata" j) && isMultiLine (member "source" j) &&
  ((member? "id" j).all isText) &&
  if cellType j = "code" then
    isRecord ["cell_type","metadata","source","outputs","execution_count"] ["id"] j &&
      isCount (member "execution_count" j) &&
      (match member "outputs" j with
      | .arr outputs => outputs.all isOutput
      | _ => false)
  else if cellType j = "markdown" ∨ cellType j = "raw" then
    isRecord ["cell_type","metadata","source"] ["id","attachments"] j && ((member? "attachments" j).all isAttachments)
  else false

/-- An object, each key once, also in the objects that are its members. -/
def isMetadata (j : Json) : Bool :=
  isObject j && (membersOf j).all (fun e => isObject e.2 || (membersOf e.2).isEmpty)

/-- A notebook document of version 4. -/
def isNotebook (j : Json) : Bool :=
  isRecord ["cells","metadata","nbformat","nbformat_minor"] [] j && member "nbformat" j = .num (.int 4) &&
    isInteger (member "nbformat_minor" j) && isMetadata (member "metadata" j) &&
    (match member "cells" j with
    | .arr cells => cells.all isCell
    | _ => false)

/-- The cells of a notebook document. -/
def cellsOf (j : Json) : List Json := itemsOf (member "cells" j)

/-- The outputs of a cell. -/
def outputsOf (j : Json) : List Json := itemsOf (member "outputs" j)

/-! ## Records -/

/-- The keys of an object are distinct and among `allowed`. -/
structure Keys (allowed : List String) (members : List (String × Json)) : Prop where
  distinct : (members.map Prod.fst).Nodup
  known : ∀ e ∈ members, e.1 ∈ allowed

theorem isRecord_keys {required optional : List String} {j : Json} (record : isRecord required optional j = true) :
    ∃ members, j = .obj members ∧ Keys (required ++ optional) members := by
  cases j with
  | obj members =>
    refine ⟨members,rfl,?_⟩
    simp only [isRecord,Bool.and_eq_true,decide_eq_true_eq,List.all_eq_true] at record
    exact ⟨record.1.1,fun e inside => record.1.2 e.1 (List.mem_map_of_mem inside)⟩
  | _ => simp [isRecord] at record

theorem Keys.mono {allowed more : List String} {members : List (String × Json)} (keys : Keys allowed members)
    (subset : ∀ k ∈ allowed, k ∈ more) : Keys more members :=
  ⟨keys.distinct,fun e inside => subset _ (keys.known e inside)⟩

theorem isObject_iff {j : Json} : isObject j = true ↔ ∃ members, j = .obj members ∧ (members.map Prod.fst).Nodup := by
  cases j <;> simp [isObject]

theorem isText_iff {j : Json} : isText j = true ↔ ∃ s, j = .str s := by cases j <;> simp [isText]

theorem isTextList_iff {j : Json} : isTextList j = true ↔ ∃ lines : List String, j = .arr (lines.map .str) := by
  constructor
  · intro list
    cases j with
    | arr items =>
      refine ⟨items.map textOf,?_⟩
      simp only [isTextList,List.all_eq_true] at list
      have same : ∀ i ∈ items, (Json.str ∘ textOf) i = id i := by
        intro i inside
        obtain ⟨s,rfl⟩ := isText_iff.mp (list i inside)
        rfl
      rw [List.map_map,List.map_congr_left same,List.map_id]
    | _ => simp [isTextList] at list
  · rintro ⟨lines,rfl⟩
    simp [isTextList,isText]

/-- A key of a structure goes to the field with that name only. -/
def Exact {σ : Type} (fields : List (StructField σ)) (name : String) (allowed : List String) : Prop :=
  ∀ k ∈ allowed, (fieldFor fields k).map StructField.name = some name ↔ k = name

instance {σ : Type} (fields : List (StructField σ)) (name : String) (allowed : List String) :
    Decidable (Exact fields name allowed) := inferInstanceAs (Decidable (∀ k ∈ allowed, _))

theorem selected_eq {σ : Type} {fields : List (StructField σ)} {name : String} {allowed : List String}
    (exact_ : Exact fields name allowed) {members : List (String × Json)} (keys : Keys allowed members) :
    selected fields name members = (member? name (.obj members)).toList := by
  obtain ⟨distinct,known⟩ := keys
  induction members with
  | nil => rfl
  | cons e rest ih =>
    obtain ⟨fresh,others⟩ := List.nodup_cons.mp distinct
    have later := ih others (fun x inside => known x (by simp [inside]))
    have here := exact_ e.1 (known e (by simp))
    by_cases own : e.1 = name
    · have none : member? name (.obj rest) = none := by
        have missing : rest.find? (fun x => x.1 = name) = none := by
          refine List.find?_eq_none.mpr (fun x inside same => fresh ?_)
          rw [own,← of_decide_eq_true same]
          exact List.mem_map_of_mem inside
        simp [member?,missing]
      rw [none] at later
      have tail : selected fields name rest = [] := later
      simp only [selected,List.filterMap_cons,here.mpr own,↓reduceIte] at tail ⊢
      rw [tail]
      simp [member?,own]
    · have skip : selected fields name (e :: rest) = selected fields name rest := by
        have no : (fieldFor fields e.1).map StructField.name ≠ some name := fun same => own (here.mp same)
        simp only [selected,List.filterMap_cons,no,↓reduceIte]
      rw [skip,later]
      simp [member?,own]

/-- What a structure reads from an object is the object's member. -/
theorem read_member {σ α : Type} {fields : List (StructField σ)} {name : String} {c : Codec α} {get : σ → α}
    (reads : Reads fields name c get) {allowed : List String} (exact_ : Exact fields name allowed)
    {members : List (String × Json)} (keys : Keys allowed members) (old : σ) :
    get (decodeStruct fields old (.obj members)).value =
      match member? name (.obj members) with
      | some j => (c.decode (get old) j).value
      | none => get old := by
  rw [decode_reads reads,selected_eq exact_ keys]
  cases member? name (.obj members) <;> rfl

/-! ## The shape of a document -/

def notebookKeys : List String := ["cells","metadata","nbformat","nbformat_minor"]
def cellKeys : List String :=
  ["id","cell_type","metadata","source","outputs","execution_count","attachments"]
def outputKeys : List String :=
  ["output_type","execution_count","data","metadata","name","text","ename","evalue","traceback"]

theorem member_some {key : String} {j v : Json} (found : member key j = v) (given : v ≠ .null) :
    member? key j = some v := by
  unfold member at found
  cases inside : member? key j with
  | none =>
    rw [inside] at found
    exact absurd found.symm given
  | some w =>
    rw [inside] at found
    exact congrArg some found

structure OutputShape (o : Json) (members : List (String × Json)) : Prop where
  object : o = .obj members
  keys : Keys outputKeys members
  type : member? "output_type" o = some (.str (outputType o))
  text : outputType o = "stream" →
    member? "text" o = some (member "text" o) ∧ isMultiLine (member "text" o) = true

structure CellShape (c : Json) (members : List (String × Json)) : Prop where
  object : c = .obj members
  keys : Keys cellKeys members
  type : member? "cell_type" c = some (.str (cellType c))
  source : member? "source" c = some (member "source" c)
  multiLine : isMultiLine (member "source" c) = true
  metadata : ∃ m, member? "metadata" c = some (.obj m)
  outputs : cellType c = "code" →
    member? "outputs" c = some (.arr (outputsOf c)) ∧ ∀ o ∈ outputsOf c, isOutput o = true
  attachments : ∀ a, member? "attachments" c = some a → isAttachments a = true

structure NotebookShape (j : Json) (members : List (String × Json)) : Prop where
  object : j = .obj members
  keys : Keys notebookKeys members
  cells : member? "cells" j = some (.arr (cellsOf j))
  cellFormat : ∀ c ∈ cellsOf j, isCell c = true
  metadata : ∃ m, member? "metadata" j = some (.obj m) ∧ (m.map Prod.fst).Nodup ∧
    ∀ e ∈ m, ∀ l, e.2 = .obj l → (l.map Prod.fst).Nodup

theorem textMember {key : String} {j : Json} (text : isText (member key j) = true) :
    member? key j = some (.str (textOf (member key j))) := by
  obtain ⟨s,same⟩ := isText_iff.mp text
  rw [same]
  exact member_some same (by simp)

theorem multiLineMember {key : String} {j : Json} (text : isMultiLine (member key j) = true) :
    member? key j = some (member key j) := by
  refine member_some rfl ?_
  intro null
  rw [null] at text
  cases text

theorem arrayMember {key : String} {j : Json} {p : Json → Bool}
    (array : (match member key j with
      | .arr items => items.all p
      | _ => false) = true) :
    member? key j = some (.arr (itemsOf (member key j))) ∧ ∀ i ∈ itemsOf (member key j), p i = true := by
  cases found : member key j with
  | arr items =>
    rw [found] at array
    exact ⟨member_some found (by simp),by simpa [itemsOf] using array⟩
  | _ => simp [found] at array

theorem isOutput_shape {o : Json} (output : isOutput o = true) : ∃ members, OutputShape o members := by
  obtain ⟨type,format⟩ : isText (member "output_type" o) = true ∧ _ := by
    simpa only [isOutput,Bool.and_eq_true] using output
  have known : ∃ members, o = .obj members ∧ Keys outputKeys members := by
    split_ifs at format with result data stream error
    all_goals
      simp only [Bool.and_eq_true] at format
      obtain ⟨members,object,keys⟩ := isRecord_keys (by first
        | exact format.1.1.1
        | exact format.1.1)
      exact ⟨members,object,keys.mono (by decide)⟩
  obtain ⟨members,object,keys⟩ := known
  refine ⟨members,object,keys,textMember type,?_⟩
  intro stream
  have text : isMultiLine (member "text" o) = true := by
    simp only [stream,String.reduceEq,↓reduceIte,Bool.and_eq_true] at format
    exact format.2
  exact ⟨multiLineMember text,text⟩

theorem isCell_shape {c : Json} (cell : isCell c = true) : ∃ members, CellShape c members := by
  obtain ⟨⟨⟨⟨type,metadata⟩,source⟩,-⟩,format⟩ :
      (((isText (member "cell_type" c) = true ∧ isObject (member "metadata" c) = true) ∧
        isMultiLine (member "source" c) = true) ∧ _) ∧ _ := by
    simpa only [isCell,Bool.and_eq_true] using cell
  obtain ⟨m,object,-⟩ := isObject_iff.mp metadata
  have metadata : ∃ m, member? "metadata" c = some (.obj m) := ⟨m,member_some object (by simp)⟩
  by_cases code : cellType c = "code"
  · simp only [code,↓reduceIte,Bool.and_eq_true] at format
    obtain ⟨⟨record,-⟩,outputs⟩ := format
    obtain ⟨members,object,keys⟩ := isRecord_keys record
    refine ⟨members,object,keys.mono (by decide),textMember type,multiLineMember source,source,metadata,
      fun _ => arrayMember outputs,?_⟩
    intro a found
    obtain ⟨e,here,-⟩ := Option.map_eq_some_iff.mp (show (members.find? _).map _ = some a by rw [← found,object]; rfl)
    have key : e.1 = "attachments" := by simpa using List.find?_some here
    have known := keys.known e (List.mem_of_find?_eq_some here)
    rw [key] at known
    exact absurd known (by decide)
  · simp only [code,↓reduceIte] at format
    split_ifs at format with prose
    obtain ⟨record,attachments⟩ := Bool.and_eq_true_iff.mp format
    obtain ⟨members,object,keys⟩ := isRecord_keys record
    refine ⟨members,object,keys.mono (by decide),textMember type,multiLineMember source,source,metadata,
      fun other => absurd other code,?_⟩
    intro a found
    rw [found] at attachments
    exact attachments

theorem isNotebook_shape {j : Json} (notebook : isNotebook j = true) : ∃ members, NotebookShape j members := by
  simp only [isNotebook,Bool.and_eq_true] at notebook
  obtain ⟨⟨⟨⟨record,-⟩,-⟩,metadata⟩,cells⟩ := notebook
  obtain ⟨members,object,keys⟩ := isRecord_keys record
  obtain ⟨isObj,inner⟩ := Bool.and_eq_true_iff.mp metadata
  obtain ⟨m,same,distinct⟩ := isObject_iff.mp isObj
  obtain ⟨here,format⟩ := arrayMember cells
  refine ⟨members,object,keys,here,format,m,member_some same (by simp),distinct,?_⟩
  intro e inside l isObj'
  rw [same] at inner
  rcases Bool.or_eq_true_iff.mp (List.all_eq_true.mp inner e inside) with once | empty
  · obtain ⟨l',same',once⟩ := isObject_iff.mp once
    rw [isObj'] at same'
    rwa [Json.obj.inj same']
  · rw [isObj'] at empty
    have none : l = [] := List.isEmpty_iff.mp empty
    rw [none]
    exact List.nodup_nil

/-! ## What the structures read -/

theorem reads_cells : Reads notebookDiskFields "cells" (list cellDisk) (·.cells) := by
  simp [Reads,notebookDiskFields,field,decodeVia]
theorem reads_notebookMetadata : Reads notebookDiskFields "metadata" metadata (·.metadata) := by
  simp [Reads,notebookDiskFields,field,decodeVia]
theorem reads_source : Reads cellDiskFields "source" (list text) (·.source) := by
  simp [Reads,cellDiskFields,field,decodeVia]
theorem reads_cellType : Reads cellDiskFields "cell_type" text (·.cellType) := by
  simp [Reads,cellDiskFields,field,decodeVia]
theorem reads_attachments : Reads cellDiskFields "attachments" mapping (·.attachments) := by
  simp [Reads,cellDiskFields,field,decodeVia]
theorem reads_outputs : Reads cellDiskFields "outputs" (list outputDisk) (·.outputs) := by
  simp [Reads,cellDiskFields,field,decodeVia]
theorem reads_cellMetadata : Reads cellDiskFields "metadata" mapping (·.cellMetadata) := by
  simp [Reads,cellDiskFields,field,decodeVia]
theorem reads_outputType : Reads outputDiskFields "output_type" text (·.outputType) := by
  simp [Reads,outputDiskFields,field,fieldOmitEmpty,decodeVia]
theorem reads_text : Reads outputDiskFields "text" (list text) (·.text) := by
  simp [Reads,outputDiskFields,field,fieldOmitEmpty,decodeVia]


end Zasper.Nbformat
