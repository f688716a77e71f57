import Zasper.RepeatedSaves
import Zasper.CellOutputs
import Zasper.JsonMembers

/-!
# Shown outputs

What a cell shows of an output, and what it shows of it once the notebook was saved and
opened again. The texts stay; an object in a mime bundle is turned into text, so that
a widget is lost, and what is empty is left out (`known_shown_iff`).
-/
namespace Zasper.ShownOutputs
open Zasper.Maps Zasper.JsonValues Zasper.Strings Zasper.Structs Zasper.Notebooks Zasper.NotebookJson Zasper.Nbformat
open Zasper.JsonMembers Zasper.SaveOpen Zasper.RepeatedSaves Zasper.NotebookCells
set_option linter.unusedSimpArgs false

/-! ## What is shown -/

/-- What stands in a cell for an output. -/
inductive Shown where
  | error (ename evalue : Json) (traceback : List Json)
  /-- Preformatted, its codes for colours as colours. -/
  | text (text : Json)
  | widget (modelId : Option Json)
  | html (content : Json)
  | image (content : Json)
  /-- The whole output, written as JSON. -/
  | json (output : Json)

/-- Whether a value counts as true. -/
def truthy : Json → Bool
  | .null => false
  | .bool b => b
  | .num n => n.magnitude ≠ 0
  | .str s => s ≠ ""
  | .arr _ | .obj _ => true

/-- A member that is there and counts as true. -/
def present (key : String) (j : Json) : Option Json := (member? key j).filter truthy

/-- What is written of a value: nothing of null, of true and false, and of what is missing. -/
def written : Option Json → Json
  | none | some .null | some (.bool _) => .str ""
  | some j => j

def widgetView : String := "application/vnd.jupyter.widget-view+json"

/-- What stands for the data of an output; for what is of no known type the output does. -/
def shownData (output outputData : Json) : Shown :=
  match present widgetView outputData with
  | some widgetData => .widget (member? "model_id" widgetData)
  | none =>
    match present "text/html" outputData with
    | some htmlContent => .html htmlContent
    | none =>
      match present "image/png" outputData with
      | some imageContent => .image imageContent
      | none =>
        match present "text/plain" outputData with
        | some textPlainData => .text textPlainData
        | none => .json output

def CellOutput (output : Json) : Shown :=
  if member? "output_type" output = some (.str "error") then
    .error (written (member? "ename" output)) (written (member? "evalue" output))
      (itemsOf ((present "traceback" output).getD .null))
  else
    match present "text" output with
    | some text => .text text
    | none =>
      match present "text/plain" output with
      | some textPlain => .text textPlain
      | none =>
        match present "data" output with
        | some outputData => shownData output outputData
        | none => .json output

/-! ## What is saved and opened -/

/-- The output that the editor gets once the notebook was saved and opened. -/
def reopenedOutput (o : Json) : Json := output.encode (reopenOutput (output.decode output.zero o).value)

/-- A count of 64 bits that a client keeps. -/
structure Held (count : Int) : Prop where
  fits : -2^63 ≤ count ∧ count < 2^63
  exact : denoted (.num (.int count)) = .num (.int count)

theorem held_of_small {count : Int} (small : count.natAbs < 2^53) : Held count where
  fits := by omega
  exact := denoted_int small

theorem rereadCount_held {count : Int64} (held : Held count.toInt) : rereadCount denoted count = ⟨count,false⟩ := by
  show int.decode int.zero (denoted (.num (.int count.toInt))) = _
  rw [held.exact]
  exact int_rereads count

/-- The data of a message, as the server passes them on: an object, with texts for what is
    shown of it, or a widget with its model. -/
structure Sent (data : Json) : Prop where
  object : isObject data = true
  normal : Normalized data
  texts : ∀ key ∈ ["text/html","image/png","text/plain"], ∀ j, member? key data = some j → ∃ s, j = .str s
  widget : ∀ j, member? widgetView data = some j → ∃ members modelId, j = .obj members ∧ member? "model_id" j = some modelId

/-- What a kernel puts in its messages. -/
def Documented : Content → Prop
  | .executeInput executionCount => Held executionCount
  | .executeResult data | .displayData data => Sent data
  | _ => True

/-- An output of a message, or of a notebook that was opened. -/
inductive Known : Json → Prop
  | added {content : Content} {o : Json} (documented : Documented content) (added : addedOutput content = some o) : Known o
  | opened (disk : OutputDisk) (held : Held disk.executionCount.toInt) : Known (output.encode (rejoinOutput disk))

/-- The members stand in the order in which the server writes those of an output. -/
def Ordered (o : Json) : Prop := List.Sublist ((membersOf o).map Prod.fst) (outputFields.map StructField.name)

/-- An output that is shown as before once it was saved and opened: no widget, unless all
    that is left of it is a text; and what is shown as JSON has its members in the order
    of the server, and some data, all of them texts, where it has any. -/
def Lasting (o : Json) : Prop :=
  match CellOutput o with
  | .widget modelId => modelId = none
  | .json _ => Ordered o ∧
      ∀ data, member? "data" o = some data → membersOf data ≠ [] ∧ ∀ e ∈ membersOf data, ∃ s, e.2 = .str s
  | _ => True

/-! ## Members that are there -/

theorem present_str {key s : String} {j : Json} (here : member? key j = some (.str s)) :
    present key j = if s = "" then none else some (.str s) := by
  rw [present,here]
  by_cases empty : s = "" <;> simp [truthy,empty]

theorem present_none {key : String} {j : Json} (missing : member? key j = none) : present key j = none := by
  rw [present,missing]
  rfl

/-- Members with the same texts are present alike. -/
theorem present_congr {key : String} {j k : Json} (same : member? key j = member? key k) :
    present key j = present key k := by
  rw [present,present,same]

/-! ## Data -/

section
variable {members : List (String × Json)}

/-- A value is opened as it was saved if and only if it is a text. -/
theorem rejoined_iff (key : String) (v : Value) : rejoinValue key (splitValue key v) = some v ↔ ∃ s, v = .str s := by
  constructor
  · exact rejoinValue_str_of_some
  · rintro ⟨s,rfl⟩
    exact rejoinValue_splitValue_str key s

theorem reopenBundle_same_iff (distinct : (members.map Prod.fst).Nodup) :
    reopenBundle (bundleOf members) = bundleOf members ↔ ∀ e ∈ members, ∃ s, e.2 = .str s := by
  rw [reopenBundle_eq,Dict.filterMap_eq_self_iff]
  constructor
  · intro same e inside
    have there : (e.1,Value.ofJson e.2) ∈ (bundleOf members).entries := (mem_bundleOf distinct).mpr ⟨e.2,inside,rfl⟩
    obtain ⟨s,text⟩ := (rejoined_iff _ _).mp (same _ there)
    exact ⟨s,ofJson_eq_str text⟩
  · intro texts e inside
    obtain ⟨j,there,value⟩ := (mem_bundleOf distinct).mp inside
    obtain ⟨s,text⟩ := texts _ there
    refine (rejoined_iff _ _).mpr ⟨s,?_⟩
    rw [← value,show j = .str s from text]
    rfl

/-- A text of the data is found again. -/
theorem present_reopened (sent : Sent (.obj members)) {key : String}
    (shown : key ∈ ["text/html","image/png","text/plain"]) :
    present key (Value.dict (reopenBundle (bundleOf members))).json = present key (.obj members) := by
  have distinct : (members.map Prod.fst).Nodup := of_decide_eq_true sent.object
  apply present_congr
  rw [member?_dict,reopenBundle_get,bundleOf_get distinct]
  cases here : member? key (.obj members) with
  | none => rfl
  | some j =>
    obtain ⟨s,rfl⟩ := sent.texts key shown j here
    have text : Value.ofJson (.str s) = .str s := rfl
    rw [Option.map_some,Option.bind_some,text,rejoinValue_splitValue_str]
    rfl

theorem present_widget_missing (sent : Sent (.obj members)) (missing : member? widgetView (.obj members) = none) :
    present widgetView (Value.dict (reopenBundle (bundleOf members))).json = none := by
  have distinct : (members.map Prod.fst).Nodup := of_decide_eq_true sent.object
  apply present_none
  rw [member?_dict,reopenBundle_get,bundleOf_get distinct,missing]
  rfl

/-- A widget is opened as a text. -/
theorem present_widget (sent : Sent (.obj members)) {j : Json} (here : member? widgetView (.obj members) = some j) :
    ∃ s, present widgetView (Value.dict (reopenBundle (bundleOf members))).json = some (.str s) := by
  have distinct : (members.map Prod.fst).Nodup := of_decide_eq_true sent.object
  obtain ⟨parts,-,rfl,-⟩ := sent.widget j here
  have notText : (Value.ofJson (.obj parts)).asString? = none := rfl
  have json : isJSONMime widgetView = true := by decide +kernel
  have opened : rejoinValue widgetView (splitValue widgetView (.ofJson (.obj parts))) =
      some (.str (sprintV (denoted (.obj parts)))) := by
    rw [splitValue_of_not_str notText]
    simp only [rejoinValue,json,Bool.not_true,Bool.false_eq_true,↓reduceIte]
    rfl
  have found : member? widgetView (Value.dict (reopenBundle (bundleOf members))).json =
      some (.str (sprintV (denoted (.obj parts)))) := by
    rw [member?_dict,reopenBundle_get,bundleOf_get distinct,here,Option.map_some,Option.bind_some,opened]
    rfl
  refine ⟨sprintV (denoted (.obj parts)),?_⟩
  rw [present_str found,if_neg]
  simp [denoted,sprintV]

end

/-- Where the texts are the same and there is no widget, the same is shown, unless it is
    the outputs themselves. -/
theorem shownData_cases {o o' data data' : Json} (widget : present widgetView data = none)
    (widget' : present widgetView data' = none)
    (same : ∀ key ∈ ["text/html","image/png","text/plain"], present key data' = present key data) :
    (shownData o' data' = shownData o data ∧ (∀ modelId, shownData o data ≠ .widget modelId) ∧
      ∀ v, shownData o data ≠ .json v) ∨
    (shownData o data = .json o ∧ shownData o' data' = .json o') := by
  have html := same "text/html" (by simp)
  have image := same "image/png" (by simp)
  have plain := same "text/plain" (by simp)
  simp only [shownData,widget,widget',html,image,plain]
  cases present "text/html" data with
  | some _ => exact .inl ⟨rfl,by simp,by simp⟩
  | none =>
    cases present "image/png" data with
    | some _ => exact .inl ⟨rfl,by simp,by simp⟩
    | none =>
      cases present "text/plain" data with
      | some _ => exact .inl ⟨rfl,by simp,by simp⟩
      | none => exact .inr ⟨rfl,rfl⟩

/-! ## Outputs of messages -/

theorem decode_error (ename evalue : String) (traceback : List String) :
    output.decode output.zero (.obj [("output_type",.str "error"),("ename",.str ename),("evalue",.str evalue),
      ("traceback",.arr (traceback.map Json.str))]) = ⟨⟨"error",0,none,"",none,ename,evalue,some traceback⟩,false⟩ := by
  have lines : (list text).decode none (.arr (traceback.map Json.str)) = ⟨some traceback,false⟩ := by
    simp [list,text,List.map_map,Function.comp_def]
  simp [output,struct,decodeStruct,decodeMember,fieldFor,outputFields,fieldOmitEmpty,field,decodeVia,lines]
  simp [text]

theorem decode_stream (s : String) :
    output.decode output.zero (.obj [("text",.str s),("output_type",.str "stream")]) =
      ⟨⟨"stream",0,none,s,none,"","",none⟩,false⟩ := by
  simp [output,struct,decodeStruct,decodeMember,fieldFor,outputFields,fieldOmitEmpty,field,decodeVia]
  simp [text]

/-- The output of a message with data, of a type where one is given. -/
def dataOutput (type : String) (members : List (String × Json)) : Json :=
  .obj (("data",.obj members) :: if type = "" then [] else [("output_type",.str type)])

theorem decode_dataOutput (type : String) (members : List (String × Json)) :
    output.decode output.zero (dataOutput type members) =
      ⟨⟨type,0,some (bundleOf members),"",none,"","",none⟩,membersOutOfRange members⟩ := by
  by_cases untyped : type = ""
  · simp [dataOutput,untyped,output,struct,decodeStruct,decodeMember,fieldFor,outputFields,fieldOmitEmpty,field,
      decodeVia,mapping_decode]
  · simp [dataOutput,untyped,output,struct,decodeStruct,decodeMember,fieldFor,outputFields,fieldOmitEmpty,field,
      decodeVia,mapping_decode]
    simp [text]

/-! ## What is written of an output -/

section
variable {x : Output}

theorem member?_output {f : StructField Output} (inside : f ∈ outputFields) :
    member? f.name (output.encode x) = if f.omitted x then none else some (f.encode x) :=
  member?_encodeStruct outputFields_good.distinct inside x

theorem member?_outputType :
    member? "output_type" (output.encode x) = if x.outputType = "" then none else some (.str x.outputType) := by
  have inside : fieldOmitEmpty "output_type" text (· = "") (·.outputType) (fun s v => { s with outputType := v }) ∈
      outputFields := by simp [outputFields]
  simpa [fieldOmitEmpty,field,text] using @member?_output x _ inside

theorem member?_outputData :
    member? "data" (output.encode x) = if noEntries x.data then none else some (mapping.encode x.data) := by
  have inside : fieldOmitEmpty "data" mapping noEntries (·.data) (fun s v => { s with data := v }) ∈ outputFields := by
    simp [outputFields]
  exact member?_output inside

theorem member?_outputText :
    member? "text" (output.encode x) = if x.text = "" then none else some (.str x.text) := by
  have inside : fieldOmitEmpty "text" text (· = "") (·.text) (fun s v => { s with text := v }) ∈ outputFields := by
    simp [outputFields]
  simpa [fieldOmitEmpty,field,text] using @member?_output x _ inside

theorem written_ename : written (member? "ename" (output.encode x)) = .str x.ename := by
  have inside : fieldOmitEmpty "ename" text (· = "") (·.ename) (fun s v => { s with ename := v }) ∈ outputFields := by
    simp [outputFields]
  have here := @member?_output x _ inside
  by_cases empty : x.ename = ""
  · simp_all [fieldOmitEmpty,field,text,written]
  · simp_all [fieldOmitEmpty,field,text,written]

theorem written_evalue : written (member? "evalue" (output.encode x)) = .str x.evalue := by
  have inside : fieldOmitEmpty "evalue" text (· = "") (·.evalue) (fun s v => { s with evalue := v }) ∈ outputFields := by
    simp [outputFields]
  have here := @member?_output x _ inside
  by_cases empty : x.evalue = ""
  · simp_all [fieldOmitEmpty,field,text,written]
  · simp_all [fieldOmitEmpty,field,text,written]

theorem present_traceback :
    itemsOf ((present "traceback" (output.encode x)).getD .null) = (items x.traceback).map Json.str := by
  have inside : fieldOmitEmpty "traceback" (list text) noItems (·.traceback) (fun s v => { s with traceback := v }) ∈
      outputFields := by simp [outputFields]
  have here : member? "traceback" (output.encode x) =
      if noItems x.traceback then none else some ((list text).encode x.traceback) := member?_output inside
  cases given : x.traceback with
  | none => simp [present,here,given,noItems,itemsOf]
  | some lines =>
    cases lines with
    | nil => simp [present,here,given,noItems,itemsOf]
    | cons line lines => simp [present,here,given,noItems,itemsOf,list,text,truthy,Option.filter]

theorem shownData_empty (o : Json) : shownData o (.obj []) = .json o := rfl

/-- What is shown of an output, by its fields. -/
theorem cellOutput_encode :
    CellOutput (output.encode x) =
      if x.outputType = "error" then .error (.str x.ename) (.str x.evalue) ((items x.traceback).map Json.str)
      else if x.text ≠ "" then .text (.str x.text)
      else shownData (output.encode x) (Value.dict (bundle x.data)).json := by
  have plain : present "text/plain" (output.encode x) = none := present_none (member?_unknown (by decide) x)
  by_cases error : x.outputType = "error"
  · have type : member? "output_type" (output.encode x) = some (.str "error") := by
      rw [member?_outputType,error]
      rfl
    simp only [CellOutput,type,↓reduceIte,written_ename,written_evalue,present_traceback,error]
  · have type : member? "output_type" (output.encode x) ≠ some (.str "error") := by
      rw [member?_outputType]
      split_ifs
      · simp
      · simpa using error
    simp only [CellOutput,type,error,↓reduceIte,plain]
    by_cases text : x.text = ""
    · have missing : present "text" (output.encode x) = none := present_none (by rw [member?_outputText,if_pos text])
      rw [missing,if_neg (not_not.mpr text)]
      by_cases empty : noEntries x.data = true
      · have missing : present "data" (output.encode x) = none := present_none (by rw [member?_outputData,if_pos empty])
        have nothing : (Value.dict (bundle x.data)).json = .obj [] := by
          rw [Value.json_dict,List.isEmpty_iff.mp empty,List.map_nil]
        rw [missing,nothing,shownData_empty]
      · have same : mapping.encode x.data = (Value.dict (bundle x.data)).json := by
          cases given : x.data with
          | none => exact absurd rfl (given ▸ empty)
          | some m => rfl
        have here : present "data" (output.encode x) = some (Value.dict (bundle x.data)).json := by
          rw [present,member?_outputData,if_neg empty,same]
          rfl
        rw [here]
    · have here := present_str ((member?_outputText (x := x)).trans (if_neg text))
      rw [here,if_neg text,if_pos text]

end

/-! ## What is shown of the outputs of messages -/

/-- The data of an output that was sent. -/
theorem reopen_data {type : String} (notError : type ≠ "error") (notStream : type ≠ "stream") (m : Bundle) :
    reopenOutput ⟨type,0,some m,"",none,"","",none⟩ = ⟨type,0,some (reopenBundle m),"",none,"","",none⟩ := by
  have text := join_splitAfter "" '\n'
  simp [reopenOutput,rejoinOutput,rereadOutputDisk,outputToDisk,text,rejoinMimeBundle,splitMimeBundle,notError,notStream,
    reopenBundle_eq,Dict.filterMap_map]

theorem ordered_encode {x : Output} : Ordered (output.encode x) := by
  have names := (outputFields.filter_sublist (p := fun f => !f.omitted x)).map StructField.name
  simpa [Ordered,output,struct,encodeStruct,membersOf,List.map_map,Function.comp_def] using names

theorem error_shown (ename evalue : String) (traceback : List String) {o : Json}
    (added : addedOutput (.error ename evalue traceback) = some o) :
    CellOutput (reopenedOutput o) = CellOutput o ∧ Lasting o := by
  obtain rfl := Option.some.inj added
  have kept := reopenOutput_kept ⟨"error",0,none,"",none,ename,evalue,some traceback⟩
  obtain ⟨sameName,sameValue,sameLines⟩ := kept.error rfl
  have before : CellOutput (.obj [("output_type",.str "error"),("ename",.str ename),("evalue",.str evalue),
      ("traceback",.arr (traceback.map Json.str))]) = .error (.str ename) (.str evalue) (traceback.map Json.str) := by
    simp [CellOutput,member?_cons,written,present,truthy,itemsOf,Option.filter]
  constructor
  · rw [reopenedOutput,decode_error,cellOutput_encode,if_pos kept.outputType,sameName,sameValue,sameLines,before]
    rfl
  · rw [Lasting,before]
    trivial

theorem stream_shown_iff (s : String) :
    let o : Json := .obj [("text",.str s),("output_type",.str "stream")]
    CellOutput (reopenedOutput o) = CellOutput o ↔ Lasting o := by
  intro o
  have kept := reopenOutput_kept ⟨"stream",0,none,s,none,"","",none⟩
  have noData : (reopenOutput ⟨"stream",0,none,s,none,"","",none⟩).data = none := rfl
  rw [reopenedOutput,decode_stream]
  generalize reopenOutput ⟨"stream",0,none,s,none,"","",none⟩ = after at kept noData ⊢
  have type : after.outputType ≠ "error" := by simp [kept.outputType]
  rw [cellOutput_encode,if_neg type,kept.text,noData]
  by_cases empty : s = ""
  · subst empty
    have before : CellOutput o = .json o := by
      simp [o,CellOutput,member?_cons,member?_nil,present,truthy,Option.filter]
    refine iff_of_false ?_ ?_
    · rw [if_neg (by simp),before]
      intro same
      have alike : output.encode after = o := Shown.json.inj same
      have missing : member? "text" (output.encode after) = none := member?_outputText.trans (if_pos kept.text)
      rw [alike] at missing
      cases missing
    · rw [Lasting,before]
      rintro ⟨ordered,-⟩
      have keys : List.Sublist ["text","output_type"] (outputFields.map StructField.name) := ordered
      exact absurd keys (by decide)
  · have before : CellOutput o = .text (.str s) := by
      simp [o,CellOutput,member?_cons,present,truthy,empty,Option.filter]
    refine iff_of_true ?_ ?_
    · rw [if_pos empty,before]
    · rw [Lasting,before]
      trivial

section
variable {type : String} {members : List (String × Json)}

theorem cellOutput_dataOutput (notError : type ≠ "error") :
    CellOutput (dataOutput type members) = shownData (dataOutput type members) (.obj members) := by
  by_cases untyped : type = ""
  · simp [CellOutput,dataOutput,untyped,member?_cons,member?_nil,present,truthy,Option.filter]
  · simp [CellOutput,dataOutput,untyped,notError,member?_cons,member?_nil,present,truthy,Option.filter]

/-- An output with a type is written with the type first. -/
theorem written_typed (typed : type ≠ "") (x : Output) (same : x.outputType = type) :
    output.encode x ≠ dataOutput type members := by
  intro alike
  have first : ∃ rest, output.encode x = .obj (("output_type",.str x.outputType) :: rest) := by
    refine ⟨((outputFields.drop 1).filter (fun f => !f.omitted x)).map (fun f => (f.name,f.encode x)),?_⟩
    simp [output,struct,encodeStruct,outputFields,fieldOmitEmpty,field,text,same,typed]
  obtain ⟨rest,first⟩ := first
  rw [first] at alike
  simp [dataOutput] at alike

/-- Data that are read as they were are written as they were, where the output has no type. -/
theorem written_untyped_iff (normal : Normalized (.obj members)) (m : Bundle) :
    output.encode ⟨"",0,some m,"",none,"","",none⟩ = dataOutput "" members ↔
      members ≠ [] ∧ m = bundleOf members := by
  have whole : (Value.dict (bundleOf members)).json = .obj members :=
    (congrArg Value.json (ofJson_obj members)).symm.trans (norm_of_normal _ normal)
  by_cases none : noEntries (some m) = true
  · have fields : output.encode ⟨"",0,some m,"",Option.none,"","",Option.none⟩ = .obj [] := by
      simp [output,struct,encodeStruct,outputFields,fieldOmitEmpty,field,none,noItems]
      rfl
    refine iff_of_false (fun same => ?_) ?_
    · rw [fields] at same
      simp [dataOutput] at same
    · rintro ⟨some,rfl⟩
      have nothing : (bundleOf members).entries = [] := List.isEmpty_iff.mp none
      rw [Value.json_dict,nothing] at whole
      exact some (Json.obj.inj whole).symm
  · have fields : output.encode ⟨"",0,some m,"",Option.none,"","",Option.none⟩ = .obj [("data",(Value.dict m).json)] := by
      simp [output,struct,encodeStruct,outputFields,fieldOmitEmpty,field,none,noItems,mapping]
      rfl
    have data : output.encode ⟨"",0,some m,"",Option.none,"","",Option.none⟩ = dataOutput "" members ↔
        (Value.dict m).json = .obj members := by
      rw [fields,dataOutput,if_pos rfl]
      simp
    rw [data]
    constructor
    · intro same
      refine ⟨?_,?_⟩
      · rintro rfl
        exact none (List.isEmpty_iff.mpr (List.map_eq_nil_iff.mp (Json.obj.inj same)))
      · have dicts := congrArg Value.asDict? (Value.ext (same.trans whole.symm))
        rwa [Value.asDict?_dict,Value.asDict?_dict,Option.some.injEq] at dicts
    · rintro ⟨-,rfl⟩
      exact whole

theorem data_shown_iff (sent : Sent (.obj members)) (notError : type ≠ "error") (notStream : type ≠ "stream") :
    CellOutput (reopenedOutput (dataOutput type members)) = CellOutput (dataOutput type members) ↔
      Lasting (dataOutput type members) := by
  have distinct : (members.map Prod.fst).Nodup := of_decide_eq_true sent.object
  have after : CellOutput (reopenedOutput (dataOutput type members)) =
      shownData (reopenedOutput (dataOutput type members)) (Value.dict (reopenBundle (bundleOf members))).json := by
    rw [reopenedOutput,decode_dataOutput,reopen_data notError notStream,cellOutput_encode,if_neg notError,if_neg (by simp)]
    rfl
  have before := @cellOutput_dataOutput _ members notError
  rw [after,Lasting,before]
  cases widget : member? widgetView (.obj members) with
  | some j =>
    obtain ⟨s,opened⟩ := present_widget sent widget
    obtain ⟨parts,modelId,rfl,model⟩ := sent.widget j widget
    have given : present widgetView (.obj members) = some (.obj parts) := by rw [present,widget]; rfl
    simp only [shownData,opened,given,Shown.widget.injEq]
    exact eq_comm
  | none =>
    have cases := @shownData_cases (dataOutput type members) (reopenedOutput (dataOutput type members)) _ _
      (present_none widget) (present_widget_missing sent widget) (fun key shown => present_reopened sent shown)
    rcases cases with ⟨same,noWidget,noJson⟩ | ⟨whole,wholeAfter⟩
    · refine iff_of_true same ?_
      split
      · next modelId shown => exact absurd shown (noWidget modelId)
      · next v shown => exact absurd shown (noJson v)
      · trivial
    · have data : member? "data" (dataOutput type members) = some (.obj members) := by simp [dataOutput,member?_cons]
      simp only [whole,wholeAfter,Shown.json.injEq,data,Option.some.injEq,forall_eq']
      rw [reopenedOutput,decode_dataOutput,reopen_data notError notStream]
      by_cases untyped : type = ""
      · subst untyped
        have ordered : Ordered (dataOutput "" members) :=
          show List.Sublist ["data"] (outputFields.map StructField.name) by decide
        rw [written_untyped_iff sent.normal,reopenBundle_same_iff distinct]
        exact (and_iff_right ordered).symm
      · refine iff_of_false (written_typed untyped _ rfl) ?_
        rintro ⟨ordered,-⟩
        rw [dataOutput,if_neg untyped] at ordered
        have keys : List.Sublist ["data","output_type"] (outputFields.map StructField.name) := ordered
        exact absurd keys (by decide)

end

/-! ## Opened outputs -/

theorem mapping_encode_congr {a b : Option Bundle} (same : bundle a = bundle b) (given : noEntries a = false) :
    mapping.encode a = mapping.encode b := by
  cases a with
  | none => cases given
  | some m =>
    cases b with
    | none =>
      rw [noEntries,same] at given
      cases given
    | some n => rw [show m = n from same]

theorem lines_encode_congr {a b : Option (List String)} (same : items a = items b) (given : noItems a = false) :
    (list text).encode a = (list text).encode b := by
  cases a with
  | none => cases given
  | some lines =>
    cases b with
    | none =>
      rw [noItems,same] at given
      cases given
    | some others => rw [show lines = others from same]

/-- Nil maps and lists are written as empty ones are: not at all. -/
theorem encode_congr {a b : Output} (outputType : a.outputType = b.outputType)
    (executionCount : a.executionCount = b.executionCount) (data : bundle a.data = bundle b.data) (text : a.text = b.text)
    (metadata : bundle a.metadata = bundle b.metadata) (ename : a.ename = b.ename) (evalue : a.evalue = b.evalue)
    (traceback : items a.traceback = items b.traceback) : output.encode a = output.encode b := by
  apply encodeStruct_congr
  intro f inside
  simp only [outputFields,List.mem_cons,List.not_mem_nil,or_false] at inside
  rcases inside with rfl | rfl | rfl | rfl | rfl | rfl | rfl | rfl
  · exact ⟨by simp [fieldOmitEmpty,outputType],fun _ => by simp [fieldOmitEmpty,field,outputType]⟩
  · exact ⟨by simp [fieldOmitEmpty,executionCount],fun _ => by simp [fieldOmitEmpty,field,executionCount]⟩
  · exact ⟨by simp [fieldOmitEmpty,noEntries,data],fun given => mapping_encode_congr data given⟩
  · exact ⟨by simp [fieldOmitEmpty,text],fun _ => by simp [fieldOmitEmpty,field,text]⟩
  · exact ⟨by simp [fieldOmitEmpty,noEntries,metadata],fun given => mapping_encode_congr metadata given⟩
  · exact ⟨by simp [fieldOmitEmpty,ename],fun _ => by simp [fieldOmitEmpty,field,ename]⟩
  · exact ⟨by simp [fieldOmitEmpty,evalue],fun _ => by simp [fieldOmitEmpty,field,evalue]⟩
  · exact ⟨by simp [fieldOmitEmpty,noItems,traceback],fun given => lines_encode_congr traceback given⟩

theorem bundle_rejoined_texts (disk : OutputDisk) :
    ∀ e ∈ (bundle (rejoinOutput disk).data).entries, ∃ s, e.2 = .str s := by
  intro e inside
  by_cases stream : disk.outputType = "stream"
  · simp [rejoinOutput,stream] at inside
    cases inside
  · have there : e ∈ ((bundle disk.data).filterMap rejoinValue).entries := by
      simpa [rejoinOutput,stream,rejoinMimeBundle] using inside
    obtain ⟨old,-,kept⟩ := List.mem_filterMap.mp there
    exact rejoinValue_str_of_some (keepEntry_eq_some.mp kept).2

/-- What was opened before is opened alike. -/
theorem opened_same (disk : OutputDisk) :
    reopenedOutput (output.encode (rejoinOutput disk)) = output.encode (rejoinOutput disk) := by
  have read : output.decode output.zero (output.encode (rejoinOutput disk)) = ⟨rereadOutput (rejoinOutput disk),false⟩ :=
    output_rereads _
  have kept := reopenOutput_kept (rereadOutput (rejoinOutput disk))
  have reread : bundle (rereadOutput (rejoinOutput disk)).data = bundle (rejoinOutput disk).data := bundle_someEntries _
  have data : bundle (reopenOutput (rereadOutput (rejoinOutput disk))).data = bundle (rejoinOutput disk).data := by
    by_cases stream : disk.outputType = "stream"
    · have before : (rejoinOutput disk).data = none := if_pos stream
      have after : (reopenOutput (rereadOutput (rejoinOutput disk))).data = none := if_pos stream
      rw [before,after]
    · rw [kept.data stream (reread ▸ bundle_rejoined_texts disk),reread]
  rw [reopenedOutput,read]
  by_cases error : disk.outputType = "error"
  · obtain ⟨ename,evalue,traceback⟩ := kept.error error
    refine encode_congr kept.outputType kept.executionCount data kept.text ?_ ename evalue ?_
    · rw [kept.metadata]
      exact bundle_someEntries _
    · rw [traceback]
      exact items_someItems _
  · have before : (rejoinOutput disk).ename = "" ∧ (rejoinOutput disk).evalue = "" ∧
        (rejoinOutput disk).traceback = none :=
      ⟨if_neg error,if_neg error,if_neg error⟩
    have after : (reopenOutput (rereadOutput (rejoinOutput disk))).ename = "" ∧
        (reopenOutput (rereadOutput (rejoinOutput disk))).evalue = "" ∧
        (reopenOutput (rereadOutput (rejoinOutput disk))).traceback = none :=
      ⟨if_neg error,if_neg error,if_neg error⟩
    refine encode_congr kept.outputType kept.executionCount data kept.text ?_ (after.1.trans before.1.symm)
      (after.2.1.trans before.2.1.symm) ?_
    · rw [kept.metadata]
      exact bundle_someEntries _
    · rw [after.2.2,before.2.2]

theorem opened_lasting (disk : OutputDisk) : Lasting (output.encode (rejoinOutput disk)) := by
  have texts := bundle_rejoined_texts disk
  rw [Lasting,cellOutput_encode]
  generalize rejoinOutput disk = x at texts ⊢
  split_ifs with error text
  · trivial
  · trivial
  have json : Ordered (output.encode x) ∧ ∀ data, member? "data" (output.encode x) = some data →
      membersOf data ≠ [] ∧ ∀ e ∈ membersOf data, ∃ s, e.2 = .str s := by
    refine ⟨ordered_encode,?_⟩
    · intro data here
      rw [member?_outputData] at here
      split_ifs at here with empty
      obtain rfl := Option.some.inj here
      have whole : mapping.encode x.data = mapping.encode (some (bundle x.data)) :=
        mapping_encode_congr rfl (Bool.eq_false_iff.mpr empty)
      rw [whole]
      constructor
      · exact fun none => empty (List.isEmpty_iff.mpr (List.map_eq_nil_iff.mp none))
      · intro e inside
        obtain ⟨entry,there,rfl⟩ := List.mem_map.mp inside
        obtain ⟨s,same⟩ := texts entry there
        exact ⟨s,congrArg Value.json same⟩
  unfold shownData
  cases widget : present widgetView (Value.dict (bundle x.data)).json with
  | some w =>
    obtain ⟨here,-⟩ := Option.filter_eq_some_iff.mp widget
    rw [member?_dict] at here
    obtain ⟨v,there,rfl⟩ := Option.map_eq_some_iff.mp here
    obtain ⟨s,rfl⟩ := texts _ (Dict.get?_eq_some.mp there)
    rfl
  | none =>
    cases present "text/html" (Value.dict (bundle x.data)).json with
    | some _ => trivial
    | none =>
      cases present "image/png" (Value.dict (bundle x.data)).json with
      | some _ => trivial
      | none =>
        cases present "text/plain" (Value.dict (bundle x.data)).json with
        | some _ => trivial
        | none => exact json

theorem Sent.isObj {data : Json} (sent : Sent data) : ∃ members, data = .obj members := by
  have object := sent.object
  cases data with
  | obj members => exact ⟨members,rfl⟩
  | _ => cases object

/-- An output is shown alike once it was saved and opened if and only if it lasts. -/
theorem known_shown_iff {o : Json} (known : Known o) : CellOutput (reopenedOutput o) = CellOutput o ↔ Lasting o := by
  cases known with
  | opened disk held => exact iff_of_true (by rw [opened_same]) (opened_lasting disk)
  | @added content o documented added =>
    cases content with
    | error ename evalue traceback =>
      obtain ⟨same,lasting⟩ := error_shown ename evalue traceback added
      exact iff_of_true same lasting
    | stream name text =>
      simp only [addedOutput] at added
      split_ifs at added
      obtain rfl := Option.some.inj added
      exact stream_shown_iff _
    | executeResult data =>
      obtain rfl := Option.some.inj added
      obtain ⟨members,rfl⟩ := Sent.isObj documented
      exact @data_shown_iff "execute_result" members documented (by decide) (by decide)
    | displayData data =>
      obtain rfl := Option.some.inj added
      obtain ⟨members,rfl⟩ := Sent.isObj documented
      exact @data_shown_iff "" members documented (by decide) (by decide)
    | _ => cases added

end Zasper.ShownOutputs
