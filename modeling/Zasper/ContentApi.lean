import Zasper.ContentManager

/-!
# The content handlers

What the server does with the requests for the content of a project: the body is
decoded, paths with `..` in them are refused, and the content manager is called.
The format and the hash of a request are decoded and not used further. A body that
cannot be decoded is an error for some of the requests; the others go on with what
could be decoded.
-/
namespace Zasper.ContentApi
open Zasper.JsonValues Zasper.JsonText Zasper.Strings Zasper.Structs Zasper.Paths Zasper.Programs
open Zasper.OperatingSystem Zasper.ContentManager
set_option linter.unusedSimpArgs false

/-! ## Requests -/

structure ContentRequestBody where
  path : String
  type : String
  hash : String
  format : String
deriving DecidableEq

structure RenameContentPayload where
  parentDir : String
  oldName : String
  newName : String
deriving DecidableEq

structure ContentUpdateRequest where
  path : String
  content : Value
  format : String
  type : String

def contentRequestFields : List (StructField ContentRequestBody) :=
  [ field "path" text (·.path) (fun s v => { s with path := v })
  , field "type" text (·.type) (fun s v => { s with type := v })
  , field "hash" text (·.hash) (fun s v => { s with hash := v })
  , field "format" text (·.format) (fun s v => { s with format := v }) ]

def contentRequestBody : Codec ContentRequestBody := struct ⟨"","","",""⟩ contentRequestFields

def contentPayload : Codec ContentPayload := struct ⟨"",""⟩
  [ field "type" text (·.contentType) (fun s v => { s with contentType := v })
  , field "parent_dir" text (·.parentDir) (fun s v => { s with parentDir := v }) ]

def renameContentPayload : Codec RenameContentPayload := struct ⟨"","",""⟩
  [ field "parent_dir" text (·.parentDir) (fun s v => { s with parentDir := v })
  , field "old_name" text (·.oldName) (fun s v => { s with oldName := v })
  , field "new_name" text (·.newName) (fun s v => { s with newName := v }) ]

def contentUpdateFields : List (StructField ContentUpdateRequest) :=
  [ field "path" text (·.path) (fun s v => { s with path := v })
  , field "content" any (·.content) (fun s v => { s with content := v })
  , field "format" text (·.format) (fun s v => { s with format := v })
  , field "type" text (·.type) (fun s v => { s with type := v }) ]

def contentUpdateRequest : Codec ContentUpdateRequest := struct ⟨"",.null,"",""⟩ contentUpdateFields

theorem contentRequestFields_good : Fields contentRequestFields := ⟨by decide,by simp [contentRequestFields]⟩

theorem contentRequestBody_inverse : contentRequestBody.Inverse := by
  intro w rewriting request
  refine (decode_encode_fields contentRequestFields_good rewriting _ _).trans ?_
  rw [contentRequestFields,foldl_field (text_inverse w rewriting),foldl_field (text_inverse w rewriting),
    foldl_field (text_inverse w rewriting),foldl_field (text_inverse w rewriting)]
  all_goals rfl

theorem contentUpdateFields_good : Fields contentUpdateFields := ⟨by decide,by simp [contentUpdateFields]⟩

theorem contentUpdateRequest_inverse : contentUpdateRequest.Inverse := by
  intro w rewriting request
  refine (decode_encode_fields contentUpdateFields_good rewriting _ _).trans ?_
  rw [contentUpdateFields,foldl_field (text_inverse w rewriting),foldl_field (any_inverse w rewriting),
    foldl_field (text_inverse w rewriting),foldl_field (text_inverse w rewriting)]
  all_goals rfl

theorem renameContentPayload_inverse : renameContentPayload.Inverse := by
  intro w rewriting request
  refine (decode_encode_fields ⟨by decide,by simp⟩ rewriting _ _).trans ?_
  rw [foldl_field (text_inverse w rewriting),foldl_field (text_inverse w rewriting),foldl_field (text_inverse w rewriting)]
  all_goals rfl

/-! ## Responses -/

/-- What an error message ends with. -/
inductive Cause where
  | none
  | body (cause : UnmarshalError)
  | notebook (cause : SaveError)
  | file (cause : OsError)
deriving DecidableEq

inductive ResponseBody where
  | empty
  | message (text : String) (cause : Cause)
  | content (model : ContentModel)

structure Response where
  status : Nat
  body : ResponseBody

def errorResponse (status : Nat) (text : String) (cause : Cause) : Response := ⟨status,.message text cause⟩
def invalidPath : Response := errorResponse 400 "Invalid path" .none

/-! ## Handlers -/

def allowedTypes : List String := ["directory","file","notebook"]

def contentAPIHandler (home : String) (body : List UInt8) : Os Response :=
  match contentRequestBody.decodeStream body contentRequestBody.zero with
  | (_,some e) => pure (errorResponse 400 "" (.body e))
  | (body,none) =>
    let relativePath := if body.path = "" then "." else body.path
    let contentType := if body.type ∈ allowedTypes then body.type else "file"
    if contains relativePath ".." then pure invalidPath
    else do
      match ← getContent home relativePath contentType with
      | .error _ => pure (errorResponse 404 "Content not found" .none)
      | .ok model => pure ⟨200,.content model⟩

/-- What an update of a file does. -/
def updateFile (request : ContentUpdateRequest) : Os Response :=
  match request.content.json with
  | .str content => do
    match ← updateContent request.path content with
    | some e => pure (errorResponse 400 "Error saving content: " (.file e))
    | none => pure ⟨200,.empty⟩
  | _ => pure (errorResponse 400 "Invalid content type" .none)

/-- What an update of a notebook does. -/
def updateNotebook (request : ContentUpdateRequest) : Os Response := do
  match ← updateNbContent request.path request.content with
  | some e => pure (errorResponse 400 "Error saving notebook content: " (.notebook e))
  | none => pure ⟨200,.empty⟩

/-- The path is not resolved in the project: it is written to as it is. -/
def contentUpdateAPIHandler (body : List UInt8) : Os Response :=
  match contentUpdateRequest.decodeStream body contentUpdateRequest.zero with
  | (_,some e) => pure (errorResponse 400 "Error updating content: " (.body e))
  | (request,none) =>
    if contains request.path ".." then pure invalidPath
    else if request.type = "notebook" then updateNotebook request
    else if request.type = "file" then updateFile request
    else pure ⟨200,.empty⟩

/-- The error of the deletion is not looked at. -/
def contentDeleteAPIHandler (home : String) (body : List UInt8) : Os Response :=
  match contentRequestBody.decodeStream body contentRequestBody.zero with
  | (_,some e) => pure (errorResponse 400 "Error deleting content: " (.body e))
  | (body,none) =>
    if contains body.path ".." then pure invalidPath
    else do
      let _ ← deleteFile home body.path
      pure ⟨200,.empty⟩

def contentCreateAPIHandler (fuel : Nat) (home : String) (body : List UInt8) : Os Response :=
  let (payload,_) := contentPayload.decodeStream body contentPayload.zero
  if contains payload.parentDir ".." then pure invalidPath
  else do
    let data ← createContent fuel home payload
    pure ⟨201,.content data⟩

def contentRenameAPIHandler (home : String) (body : List UInt8) : Os Response :=
  let (payload,_) := renameContentPayload.decodeStream body renameContentPayload.zero
  if contains payload.parentDir ".." || contains payload.oldName ".." || contains payload.newName ".." then
    pure invalidPath
  else do
    let _ ← rename home payload.parentDir payload.oldName payload.newName
    pure ⟨200,.empty⟩

/-- A request for the content of the project, with its body. -/
inductive Request where
  | content (body : List UInt8)
  | update (body : List UInt8)
  | delete (body : List UInt8)
  | create (body : List UInt8)
  | rename (body : List UInt8)

def serve (fuel : Nat) (home : String) : Request → Os Response
  | .content body => contentAPIHandler home body
  | .update body => contentUpdateAPIHandler body
  | .delete body => contentDeleteAPIHandler home body
  | .create body => contentCreateAPIHandler fuel home body
  | .rename body => contentRenameAPIHandler home body

end Zasper.ContentApi
