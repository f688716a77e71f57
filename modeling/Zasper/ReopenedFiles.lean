import Zasper.Volumes

/-!
# Reopened files

Whether a file that is opened and saved again unchanged keeps its bytes. Its content
goes to the page as the text of a JSON document, and comes back as the text of one. A
file that cannot be read is opened without a content, which is refused when it comes
back. `reopened_iff` says which files keep their bytes: those that are valid UTF-8.
-/
namespace Zasper.ReopenedFiles
open Zasper.JsonValues Zasper.JsonText Zasper.Strings Zasper.Structs Zasper.Paths Zasper.Programs Zasper.OperatingSystem
open Zasper.NotebookJson Zasper.ContentManager Zasper.ContentApi Zasper.SavedFiles Zasper.Volumes
open Zasper.OpenNotebook (safePath)
set_option linter.unusedSimpArgs false

/-- The bytes are those of a text. -/
def IsUtf8 (bytes : List UInt8) : Prop := ∃ cs, utf8 cs = bytes

/-- An entry of a directory in the answer. -/
def entryJson (e : EntryModel) : Json := .obj
  [("name",.str e.name),("type",.str e.contentType),("path",.str e.path),("last_modified",.str e.lastModified),
   ("created",.str e.created),("content",.null),("format",.str ""),("mimetype",.str ""),("size",int.encode e.size),
   ("writable",.bool false),("hash",int.encode 0),("hash_algorithm",.str "")]

/-- The field `content` of an answer. Bytes of a text that are no UTF-8 are replaced. -/
def contentJson : Content → Json
  | .none => .null
  | .text bytes => .str (String.ofList (decodeUtf8 bytes))
  | .notebook nb => notebook.encode nb
  | .entries list => .arr (list.map entryJson)

section
variable {Files Entry : Type} (vol : Volume Files Entry) (home : String) (files : Files)

/-- A file that is opened, and whose content is sent back as it was received, and
    written to the file again. -/
structure Trip where
  path : String
  contentType : String
  bytes : List UInt8
  model : ContentModel
  body : List UInt8
  request : ContentUpdateRequest
  file : vol.bytesAt files (names (safePath vol.cwd home path)) = some bytes
  noImage : hasSuffix (base (safePath vol.cwd home path)) ".png" = false
  opened : ((getContent home path contentType).run vol.answer files).2 = .ok (.ok model)
  decoded : contentUpdateRequest.decodeStream body contentUpdateRequest.zero = (request,none)
  isFile : request.type = "file"
  sentBack : request.content = .ofJson (contentJson model.content)
  saved : ∃ response, ((contentUpdateAPIHandler body).run vol.answer files).2 = .ok response ∧ response.status = 200
  sameFile : vol.leads files (names (absPath vol.cwd request.path)) (names (safePath vol.cwd home path))

/-- The bytes of the file after it was saved. -/
def Trip.after (trip : Trip vol home files) : Option (List UInt8) :=
  vol.bytesAt ((contentUpdateAPIHandler trip.body).run vol.answer files).1 (names (safePath vol.cwd home trip.path))

end

section
variable {Files Entry : Type} {vol : Volume Files Entry} {home : String} {files : Files}

/-- A content that is sent as a text is a text. -/
theorem text_of_contentJson {content : Content} {v : String} (sent : (Value.ofJson (contentJson content)).json = .str v) :
    ∃ bytes, content = .text bytes ∧ v = String.ofList (decodeUtf8 bytes) := by
  cases content with
  | none => simp [contentJson,Value.ofJson,denoted] at sent
  | text bytes => exact ⟨bytes,rfl,by simpa [contentJson,Value.ofJson,denoted,eq_comm] using sent⟩
  | notebook nb => simp [contentJson,Value.ofJson,denoted,notebook,struct,encodeStruct] at sent
  | entries list => simp [contentJson,Value.ofJson,denoted] at sent

/-- Only a text is saved as a file: it is written to the path. -/
theorem written_of_saved {body : List UInt8} {request : ContentUpdateRequest}
    (decoded : contentUpdateRequest.decodeStream body contentUpdateRequest.zero = (request,none))
    (isFile : request.type = "file")
    (saved : ∃ response, ((contentUpdateAPIHandler body).run vol.answer files).2 = .ok response ∧ response.status = 200) :
    ∃ v, request.content.json = .str v ∧
      (vol.answer files (.writeFile request.path (utf8 v.toList))).2 = none ∧
      ((contentUpdateAPIHandler body).run vol.answer files).1 =
        (vol.answer files (.writeFile request.path (utf8 v.toList))).1 := by
  obtain ⟨response,answer,ok⟩ := saved
  unfold contentUpdateAPIHandler at answer ⊢
  rw [decoded] at answer ⊢
  dsimp only at answer ⊢
  split_ifs at answer ⊢ with up isNotebook
  · cases answer
    cases ok
  · rw [isFile] at isNotebook
    exact absurd isNotebook (by decide)
  · unfold updateFile at answer ⊢
    cases content : request.content.json with
    | str v =>
      rw [content] at answer
      refine ⟨v,rfl,?_⟩
      simp only [updateContent,Program.call_bind,Program.pure_bind,Program.run_call] at answer ⊢
      cases written : (vol.answer files (.writeFile request.path (utf8 v.toList))).2 with
      | none => exact ⟨rfl,rfl⟩
      | some e =>
        rw [written] at answer
        cases answer
        cases ok
    | _ =>
      rw [content] at answer
      cases answer
      cases ok

/-- The content that is opened is the file's. -/
theorem Trip.content (trip : Trip vol home files) {bytes : List UInt8} (text : trip.model.content = .text bytes) :
    bytes = trip.bytes := by
  obtain ⟨-,info,looked,-,file,read,content⟩ := (getContent_returns vol.toFileSystem (vol.getwd_eq files) home trip.path
    trip.contentType bytes).mp ⟨trip.model,trip.opened,text⟩
  have accepted : safePath vol.cwd home trip.path ≠ "" := by
    intro none
    obtain ⟨e,failed⟩ := vol.lstat_empty files
    rw [none,failed] at looked
    cases looked
  have other : ext (base (safePath vol.cwd home trip.path)) ≠ ".png" := by
    intro image
    have ends := ext_ends (base (safePath vol.cwd home trip.path))
    rw [image] at ends
    have := trip.noImage
    rw [hasSuffix_iff.mpr ends] at this
    cases this
  have same := vol.readFile_bytes files _ file (absolute_safePath vol.rooted accepted) read
  rw [trip.file] at same
  rw [← content,fileContent,if_neg other]
  exact (Option.some.inj same).symm

/-- What the file holds after it was saved: its bytes, those that are no UTF-8 replaced. -/
theorem Trip.after_eq (trip : Trip vol home files) : trip.after = some (utf8 (decodeUtf8 trip.bytes)) := by
  obtain ⟨v,content,written,files'⟩ := written_of_saved trip.decoded trip.isFile trip.saved
  rw [trip.sentBack] at content
  obtain ⟨bytes,text,rfl⟩ := text_of_contentJson content
  obtain rfl := trip.content text
  rw [Trip.after,files']
  simpa using vol.writeFile_written files _ _ _ written trip.sameFile

/-- A file that is opened and saved again keeps its bytes if and only if they are valid
    UTF-8. -/
theorem reopened_iff (trip : Trip vol home files) : trip.after = some trip.bytes ↔ IsUtf8 trip.bytes := by
  rw [trip.after_eq,Option.some.injEq]
  constructor
  · intro same
    exact ⟨_,same⟩
  · rintro ⟨cs,same⟩
    rw [← same,decodeUtf8_utf8]

end

/-! ## A byte that is no text -/

/-- A disk with one file of one byte. -/
def oneByte (place : Place) : Option (List UInt8) := if place = names "/home/u/a.bin" then some [0xFF] else none

def binaryVolume : Volume (Place → Option (List UInt8)) (List UInt8) := flatVolume "/home/u" absolute_user

def binaryUpdate (content : Content) : ContentUpdateRequest := ⟨"a.bin",.ofJson (contentJson content),"text","file"⟩

/-- A byte that is no UTF-8 is another one after the file was saved. -/
theorem byte_changed : ∃ trip : Trip binaryVolume "/home/u" oneByte, trip.after ≠ some trip.bytes := by
  have resolved : safePath binaryVolume.cwd "/home/u" "a.bin" = "/home/u/a.bin" := by decide
  have there : names (absPath "/home/u" "/home/u/a.bin") = names "/home/u/a.bin" := by decide
  have looked : (binaryVolume.answer oneByte (.lstat "/home/u/a.bin")).2 =
      .ok ⟨base "/home/u/a.bin",false,1,"2025-01-01T00:00:00Z"⟩ := by
    simp [binaryVolume,flatVolume,flatAnswer,there,oneByte]
  have read : (binaryVolume.answer oneByte (.readFile "/home/u/a.bin")).2 = .ok [0xFF] := by
    simp [binaryVolume,flatVolume,flatAnswer,there,oneByte]
  have content : fileContent "/home/u/a.bin" [0xFF] = [0xFF] := by decide
  obtain ⟨model,opened,text⟩ := (getContent_returns binaryVolume.toFileSystem (binaryVolume.getwd_eq oneByte) "/home/u"
    "a.bin" "file" [0xFF]).mpr ⟨by decide,_,resolved ▸ looked,rfl,_,resolved ▸ read,resolved ▸ content⟩
  have written : EndsInName "a.bin" := by decide
  let trip : Trip binaryVolume "/home/u" oneByte :=
    { path := "a.bin"
      contentType := "file"
      bytes := [0xFF]
      model := model
      body := marshal (contentUpdateRequest.encode (binaryUpdate model.content))
      request := binaryUpdate model.content
      file := by rw [resolved]; rfl
      noImage := by rw [resolved]; decide
      opened := opened
      decoded := decodeStream_marshal contentUpdateRequest_inverse.rereads _
      isFile := rfl
      sentBack := rfl
      saved := by
        refine ⟨⟨200,.empty⟩,?_,rfl⟩
        have allowed : contains "a.bin" ".." = false := by decide
        simp [contentUpdateAPIHandler,decodeStream_marshal contentUpdateRequest_inverse.rereads,binaryUpdate,allowed,updateFile,text,
          contentJson,Value.ofJson,denoted,updateContent,binaryVolume,flatVolume,flatAnswer,written]
      sameFile := by
        rw [resolved]
        change names "/home/u/a.bin" = names (absPath "/home/u" "a.bin")
        decide }
  refine ⟨trip,?_⟩
  have other : some (utf8 (decodeUtf8 [0xFF])) ≠ some [0xFF] := by decide
  rw [trip.after_eq]
  exact other

end Zasper.ReopenedFiles
