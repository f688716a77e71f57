import Zasper.Volumes

/-!
# Status codes

Whether a request for a change that is answered with success has made the change. The
errors of the calls that delete and rename are dropped, an update of an unknown type
does nothing, and an update writes to a path that is taken from the working directory.
`honest_iff` says, for each request and each outcome of the calls, whether its answer
tells what has happened.
-/
namespace Zasper.StatusCodes
open Zasper.JsonValues Zasper.JsonText Zasper.Strings Zasper.Structs Zasper.Paths Zasper.Programs Zasper.OperatingSystem
open Zasper.ContentManager Zasper.ContentApi Zasper.SavedFiles Zasper.Volumes
open Zasper.OpenNotebook (safePath)
set_option linter.unusedSimpArgs false

/-- A request for a change, with its body. -/
inductive Change where
  | update (body : List UInt8)
  | delete (body : List UInt8)
  | create (body : List UInt8)
  | rename (body : List UInt8)

def Change.request : Change → Request
  | .update body => .update body
  | .delete body => .delete body
  | .create body => .create body
  | .rename body => .rename body

/-- The bytes that a file holds when the content of the request is saved. -/
def sentBytes (request : ContentUpdateRequest) : Option (List UInt8) :=
  if request.type = "notebook" then (notebookBytes request.content).toOption
  else
    match request.content.json with
    | .str content => some (utf8 content.toList)
    | _ => none

def createPayload (body : List UInt8) : ContentPayload := (contentPayload.decodeStream body contentPayload.zero).1

section
variable {Files Entry : Type} (vol : Volume Files Entry) (home : String) (files : Files)

/-- The place that a path of the project names. -/
def named (path : String) : Place := names (below vol.cwd home path)

/-- The files after a request, and its answer. -/
def served (fuel : Nat) (change : Change) : Files × Except Stop Response :=
  (serve fuel home change.request).run vol.answer files

/-! ## What is asked -/

/-- There is an entry at the place, and there was none before. -/
def New (after : Files) (place : Place) : Prop :=
  vol.entryAt files place = none ∧ (vol.entryAt after place).isSome = true

/-- The entry that is returned for a creation is new. The path of a directory is
    returned as an absolute one. -/
def Created (after : Files) (payload : ContentPayload) (path : String) : Prop :=
  if payload.contentType = "directory" then path ≠ "" ∧ New vol files after (names (absPath vol.cwd path))
  else New vol files after (named vol home path)

/-- What the request asked for has happened. -/
def Done (after : Files) : Change → ResponseBody → Prop
  | .update body, _ => ∃ request bytes, contentUpdateRequest.decodeStream body contentUpdateRequest.zero = (request,none) ∧
      sentBytes request = some bytes ∧ vol.bytesAt after (named vol home request.path) = some bytes
  | .delete body, _ => ∃ request, contentRequestBody.decodeStream body contentRequestBody.zero = (request,none) ∧
      vol.entryAt after (named vol home request.path) = none
  | .create body, returned => ∃ model, returned = .content model ∧
      Created vol home files after (createPayload body) model.path
  | .rename body, _ => ∃ payload entry, renameContentPayload.decodeStream body renameContentPayload.zero = (payload,none) ∧
      vol.entryAt files (named vol home (join [payload.parentDir,payload.oldName])) = some entry ∧
      vol.entryAt after (named vol home (join [payload.parentDir,payload.newName])) = some entry

/-- The files are as they were, or as a failed call left them. -/
def Left (after : Files) : Prop :=
  after = files ∨ ∃ path bytes e, vol.answer files (.writeFile path bytes) = (after,some e)

/-- There is an answer. With a status of success the change has happened; else the answer
    is an error, and nothing has changed but by a failed call. -/
def Honest (change : Change) : Prop := ∃ fuel response, (served vol home files fuel change).2 = .ok response ∧
  ((response.status = 200 ∨ response.status = 201) ∧
      Done vol home files (served vol home files fuel change).1 change response.body ∨
    400 ≤ response.status ∧ Left vol files (served vol home files fuel change).1)

/-! ## When the answer is honest -/

/-- The file that is written is the one that is named, or it has the bytes already; a
    request of an unknown type asks for what is there. -/
def SoundUpdate (body : List UInt8) : Prop :=
  ∀ request, contentUpdateRequest.decodeStream body contentUpdateRequest.zero = (request,none) →
    contains request.path ".." = false →
      if request.type = "notebook" ∨ request.type = "file" then
        ∀ bytes, sentBytes request = some bytes → (vol.answer files (.writeFile request.path bytes)).2 = none →
          vol.leads files (names (absPath vol.cwd request.path)) (named vol home request.path) ∨
            vol.bytesAt files (named vol home request.path) = some bytes
      else ∃ bytes, sentBytes request = some bytes ∧ vol.bytesAt files (named vol home request.path) = some bytes

/-- The entry is removed, or there is none. -/
def SoundDelete (body : List UInt8) : Prop :=
  ∀ request, contentRequestBody.decodeStream body contentRequestBody.zero = (request,none) →
    contains request.path ".." = false →
      (vol.answer files (.remove (safePath vol.cwd home request.path))).2 = none ∨
        vol.entryAt files (named vol home request.path) = none

/-- The body can be decoded, and there is an entry that is renamed, or that has both
    names already. -/
def SoundRename (body : List UInt8) : Prop :=
  let (payload,err) := renameContentPayload.decodeStream body renameContentPayload.zero
  let old := join [payload.parentDir,payload.oldName]
  let new := join [payload.parentDir,payload.newName]
  (contains payload.parentDir ".." || contains payload.oldName ".." || contains payload.newName "..") = true ∨
    err = none ∧ ∃ entry, vol.entryAt files (named vol home old) = some entry ∧
      (vol.entryAt files (named vol home new) = some entry ∨
        (vol.answer files (.rename (safePath vol.cwd home old) (safePath vol.cwd home new))).2 = none ∧
          ¬ Above (named vol home old) (named vol home new))

/-- `k` is the first one whose path is not taken. -/
def First (taken : String → Prop) (candidate : Nat → String) (k : Nat) : Prop :=
  ¬ taken (candidate k) ∧ ∀ j < k, taken (candidate j)

/-- What a new file may be called, one name after the other. -/
def filePath (parentDir start ending : String) : Nat → String
  | 0 => join [parentDir,start ++ ending]
  | i+1 => join [parentDir,numbered start ending (i+1)]

def directoryPath (payload : ContentPayload) : Nat → String
  | 0 => safePath vol.cwd home (join [payload.parentDir,"untitled-directory"])
  | i+1 => safePath vol.cwd home (join [payload.parentDir,numbered ("untitled-directory" ++ "-") "" (i+1)])

/-- The file counts as being there. -/
def Taken (path : String) : Prop := ∀ e, (vol.answer files (.stat path)).2 = .error e → e.notExist = false

def IsDirectory (path : String) : Prop := ∃ info, (vol.answer files (.stat path)).2 = .ok info ∧ info.isDir = true

/-- The files after a file was opened to be created, and written if it is a notebook. -/
def opened (isNotebook : Bool) (path : String) : Files :=
  let after := (vol.answer files (.openFile path)).1
  if isNotebook then (vol.answer after (.writeFile path (utf8 defaultNotebook.toList))).1 else after

/-- There is a name that is free, the file is found after it was opened, and nothing was
    at its place; where the directory is not accepted, the file lies elsewhere, and its
    place must have got an entry all the same. -/
def SoundFile (isNotebook : Bool) (start ending : String) (payload : ContentPayload) : Prop :=
  let parentDir := safePath vol.cwd home payload.parentDir
  ∃ k, First (Taken vol files) (filePath parentDir start ending) k ∧
    let path := filePath parentDir start ending k
    let after := opened vol files isNotebook path
    let place := named vol home (join [payload.parentDir,base path])
    (∃ info, (vol.answer after (.lstat path)).2 = .ok info) ∧ vol.entryAt files place = none ∧
      (parentDir ≠ "" ∨ (vol.entryAt after place).isSome = true)

/-- There is a name that no directory has, nothing else has it, and the directory is made. -/
def SoundDirectory (payload : ContentPayload) : Prop :=
  ∃ k, First (IsDirectory vol files) (directoryPath vol home payload) k ∧
    vol.entryAt files (names (directoryPath vol home payload k)) = none ∧
    (vol.answer files (.mkdirAll (directoryPath vol home payload k))).2 = none

def SoundCreate (payload : ContentPayload) : Prop :=
  contains payload.parentDir ".." = true ∨
    if payload.contentType = "notebook" then SoundFile vol home files true "Untitled" ".ipynb" payload
    else if payload.contentType = "directory" then SoundDirectory vol home files payload
    else SoundFile vol home files false "untitled" ".txt" payload

def Sound : Change → Prop
  | .update body => SoundUpdate vol home files body
  | .delete body => SoundDelete vol home files body
  | .create body => SoundCreate vol home files (createPayload body)
  | .rename body => SoundRename vol home files body

end

section
variable {Files Entry : Type} {vol : Volume Files Entry} {home : String} {files : Files}

/-! ## Answers -/

/-- An answer of success is honest if the change has happened. -/
theorem honest_success {change : Change} {after : Files} {response : Response}
    (answer : ∀ fuel, served vol home files fuel change = (after,.ok response))
    (success : response.status = 200 ∨ response.status = 201) :
    Honest vol home files change ↔ Done vol home files after change response.body := by
  unfold Honest
  simp only [answer,Except.ok.injEq,exists_const,exists_eq_left']
  constructor
  · rintro (⟨-,done⟩ | ⟨failed,-⟩)
    · exact done
    · omega
  · exact fun done => .inl ⟨success,done⟩

theorem honest_failure {change : Change} {after : Files} {response : Response}
    (answer : served vol home files 0 change = (after,.ok response)) (failure : 400 ≤ response.status)
    (left : Left vol files after) : Honest vol home files change := by
  refine ⟨0,response,by rw [answer],.inr ⟨failure,?_⟩⟩
  rwa [answer]

/-! ## Updates -/

theorem done_update {body : List UInt8} {request : ContentUpdateRequest} {after : Files} {returned : ResponseBody}
    (decoded : contentUpdateRequest.decodeStream body contentUpdateRequest.zero = (request,none)) :
    Done vol home files after (.update body) returned ↔
      ∃ bytes, sentBytes request = some bytes ∧ vol.bytesAt after (named vol home request.path) = some bytes := by
  constructor
  · rintro ⟨other,bytes,again,sent,holds⟩
    obtain ⟨rfl,-⟩ := Prod.mk.inj (decoded.symm.trans again)
    exact ⟨bytes,sent,holds⟩
  · rintro ⟨bytes,sent,holds⟩
    exact ⟨request,bytes,decoded,sent,holds⟩

theorem soundUpdate_iff {body : List UInt8} {request : ContentUpdateRequest}
    (decoded : contentUpdateRequest.decodeStream body contentUpdateRequest.zero = (request,none))
    (allowed : contains request.path ".." = false) :
    SoundUpdate vol home files body ↔
      if request.type = "notebook" ∨ request.type = "file" then
        ∀ bytes, sentBytes request = some bytes → (vol.answer files (.writeFile request.path bytes)).2 = none →
          vol.leads files (names (absPath vol.cwd request.path)) (named vol home request.path) ∨
            vol.bytesAt files (named vol home request.path) = some bytes
      else ∃ bytes, sentBytes request = some bytes ∧ vol.bytesAt files (named vol home request.path) = some bytes := by
  constructor
  · exact fun sound => sound request decoded allowed
  · intro sound other again _
    obtain ⟨rfl,-⟩ := Prod.mk.inj (decoded.symm.trans again)
    exact sound

/-- The bytes of a place after a file was written. -/
theorem holds_written {path : String} {bytes : List UInt8} (written : (vol.answer files (.writeFile path bytes)).2 = none)
    (place : Place) : vol.bytesAt (vol.answer files (.writeFile path bytes)).1 place = some bytes ↔
      vol.leads files (names (absPath vol.cwd path)) place ∨ vol.bytesAt files place = some bytes := by
  by_cases leads : vol.leads files (names (absPath vol.cwd path)) place
  · simp [leads,vol.writeFile_written files path bytes place written leads]
  · simp [leads,vol.writeFile_others files path bytes place written leads]

/-- A content that cannot be saved is refused. -/
theorem served_unsent {body : List UInt8} {request : ContentUpdateRequest}
    (decoded : contentUpdateRequest.decodeStream body contentUpdateRequest.zero = (request,none))
    (allowed : contains request.path ".." = false) (known : request.type = "notebook" ∨ request.type = "file")
    (unsent : sentBytes request = none) (fuel : Nat) :
    ∃ response, served vol home files fuel (.update body) = (files,.ok response) ∧ response.status = 400 := by
  simp only [served,serve,Change.request,contentUpdateAPIHandler,decoded,allowed,Bool.false_eq_true,↓reduceIte]
  unfold sentBytes at unsent
  by_cases notebook : request.type = "notebook"
  · rw [if_pos notebook] at unsent ⊢
    unfold updateNotebook updateNbContent
    cases bytes : notebookBytes request.content with
    | error e => exact ⟨_,rfl,rfl⟩
    | ok bytes' =>
      rw [bytes] at unsent
      cases unsent
  · rw [if_neg notebook] at unsent ⊢
    rw [if_pos (known.resolve_left notebook)]
    unfold updateFile
    cases content : request.content.json with
    | str v =>
      rw [content] at unsent
      cases unsent
    | _ => exact ⟨_,rfl,rfl⟩

/-- A content that can be saved is written. -/
theorem served_sent {body : List UInt8} {request : ContentUpdateRequest} {bytes : List UInt8}
    (decoded : contentUpdateRequest.decodeStream body contentUpdateRequest.zero = (request,none))
    (allowed : contains request.path ".." = false) (known : request.type = "notebook" ∨ request.type = "file")
    (sent : sentBytes request = some bytes) (fuel : Nat) :
    ∃ response, served vol home files fuel (.update body) =
        ((vol.answer files (.writeFile request.path bytes)).1,.ok response) ∧
      ((vol.answer files (.writeFile request.path bytes)).2 = none → response = ⟨200,.empty⟩) ∧
      ((vol.answer files (.writeFile request.path bytes)).2 ≠ none → response.status = 400) := by
  simp only [served,serve,Change.request,contentUpdateAPIHandler,decoded,allowed,Bool.false_eq_true,↓reduceIte]
  unfold sentBytes at sent
  by_cases notebook : request.type = "notebook"
  · rw [if_pos notebook] at sent ⊢
    unfold updateNotebook updateNbContent
    cases saved : notebookBytes request.content with
    | error e =>
      rw [saved] at sent
      cases sent
    | ok bytes' =>
      rw [saved] at sent
      obtain rfl : bytes' = bytes := Option.some.inj sent
      simp only [Program.call_bind,Program.pure_bind,Program.run_call]
      cases (vol.answer files (.writeFile request.path bytes')).2 with
      | none => exact ⟨_,rfl,fun _ => rfl,fun failed => absurd rfl failed⟩
      | some e =>
        refine ⟨_,rfl,?_,fun _ => rfl⟩
        intro written
        cases written
  · rw [if_neg notebook] at sent ⊢
    rw [if_pos (known.resolve_left notebook)]
    unfold updateFile
    cases content : request.content.json with
    | str v =>
      rw [content] at sent
      obtain rfl : utf8 v.toList = bytes := Option.some.inj sent
      simp only [updateContent,Program.call_bind,Program.pure_bind,Program.run_call]
      cases (vol.answer files (.writeFile request.path (utf8 v.toList))).2 with
      | none => exact ⟨_,rfl,fun _ => rfl,fun failed => absurd rfl failed⟩
      | some e =>
        refine ⟨_,rfl,?_,fun _ => rfl⟩
        intro written
        cases written
    | _ =>
      rw [content] at sent
      cases sent

theorem honest_update (body : List UInt8) : Honest vol home files (.update body) ↔ SoundUpdate vol home files body := by
  rcases decoded : contentUpdateRequest.decodeStream body contentUpdateRequest.zero with ⟨request,_ | e⟩
  · by_cases up : contains request.path ".." = true
    · constructor
      · intro _ other again allowed
        obtain ⟨rfl,-⟩ := Prod.mk.inj (decoded.symm.trans again)
        rw [up] at allowed
        cases allowed
      · intro _
        apply @honest_failure _ _ vol home files _ files invalidPath _ (by decide) (.inl rfl)
        simp [served,serve,Change.request,contentUpdateAPIHandler,decoded,up]
    · have allowed : contains request.path ".." = false := Bool.eq_false_iff.mpr up
      rw [soundUpdate_iff decoded allowed]
      by_cases known : request.type = "notebook" ∨ request.type = "file"
      · rw [if_pos known]
        cases sent : sentBytes request with
        | none =>
          obtain ⟨response,answer,failed⟩ := @served_unsent _ _ vol home files _ _ decoded allowed known sent 0
          simp only [reduceCtorEq,false_implies,implies_true,iff_true]
          exact honest_failure answer (by omega) (.inl rfl)
        | some bytes =>
          obtain ⟨response,answer,ok,failed⟩ := @served_sent _ _ vol home files _ _ _ decoded allowed known sent 0
          simp only [Option.some.injEq,forall_eq']
          by_cases written : (vol.answer files (.writeFile request.path bytes)).2 = none
          · have all (fuel : Nat) : served vol home files fuel (.update body) =
                ((vol.answer files (.writeFile request.path bytes)).1,.ok ⟨200,.empty⟩) := by
              rw [← ok written,← answer]
              rfl
            rw [honest_success all (.inl rfl),done_update decoded,sent]
            simp only [Option.some.injEq,exists_eq_left',holds_written written,written,true_implies]
          · simp only [written,false_implies,iff_true]
            obtain ⟨e,why⟩ := Option.ne_none_iff_exists'.mp written
            exact honest_failure answer (by rw [failed written]) (.inr ⟨_,bytes,e,Prod.ext rfl why⟩)
      · rw [if_neg known]
        obtain ⟨notNotebook,notFile⟩ := not_or.mp known
        have answer (fuel : Nat) : served vol home files fuel (.update body) = (files,.ok ⟨200,.empty⟩) := by
          simp [served,serve,Change.request,contentUpdateAPIHandler,decoded,allowed,notNotebook,notFile]
        rw [honest_success answer (.inl rfl),done_update decoded]
  · constructor
    · intro _ other again
      exact absurd (congrArg Prod.snd (decoded.symm.trans again)) (by simp)
    · intro _
      apply @honest_failure _ _ vol home files _ files (errorResponse 400 "Error updating content: " (.body e)) _
        (by simp [errorResponse]) (.inl rfl)
      simp [served,serve,Change.request,contentUpdateAPIHandler,decoded]

/-! ## Deletions and renamings -/

/-- An accepted path leads to the place that the path names. -/
theorem names_safePath {path : String} (accepted : safePath vol.cwd home path ≠ "") :
    Absolute (safePath vol.cwd home path) ∧ names (safePath vol.cwd home path) = named vol home path :=
  ⟨absolute_safePath vol.rooted accepted,congrArg names (safePath_eq accepted).2⟩

/-- The entry at the place is gone if and only if it was removed or not there. -/
theorem gone_iff (path : String) :
    vol.entryAt (vol.answer files (.remove (safePath vol.cwd home path))).1 (named vol home path) = none ↔
      (vol.answer files (.remove (safePath vol.cwd home path))).2 = none ∨
        vol.entryAt files (named vol home path) = none := by
  by_cases removed : (vol.answer files (.remove (safePath vol.cwd home path))).2 = none
  · have accepted : safePath vol.cwd home path ≠ "" := by
      intro none
      rw [none] at removed
      exact vol.remove_empty files removed
    obtain ⟨absolute,placed⟩ := names_safePath accepted
    have gone := vol.remove_gone files _ absolute removed
    rw [placed] at gone
    simp [removed,gone]
  · rw [vol.remove_failed files _ removed]
    simp [removed]

theorem honest_delete (body : List UInt8) : Honest vol home files (.delete body) ↔ SoundDelete vol home files body := by
  rcases decoded : contentRequestBody.decodeStream body contentRequestBody.zero with ⟨request,_ | e⟩
  · have sound : SoundDelete vol home files body ↔ (contains request.path ".." = false →
        (vol.answer files (.remove (safePath vol.cwd home request.path))).2 = none ∨
          vol.entryAt files (named vol home request.path) = none) := by
      constructor
      · exact fun sound => sound request decoded
      · intro sound other again
        obtain ⟨rfl,-⟩ := Prod.mk.inj (decoded.symm.trans again)
        exact sound
    rw [sound]
    by_cases up : contains request.path ".." = true
    · simp only [up,Bool.true_eq_false,false_implies,iff_true]
      apply @honest_failure _ _ vol home files _ files invalidPath _ (by decide) (.inl rfl)
      simp [served,serve,Change.request,contentDeleteAPIHandler,decoded,up]
    · have allowed : contains request.path ".." = false := Bool.eq_false_iff.mpr up
      have answer (fuel : Nat) : served vol home files fuel (.delete body) =
          ((vol.answer files (.remove (safePath vol.cwd home request.path))).1,.ok ⟨200,.empty⟩) := by
        simp [served,serve,Change.request,contentDeleteAPIHandler,decoded,allowed,deleteFile,Program.run_bind,
          vol.run_getSafePath]
      rw [honest_success answer (.inl rfl),← gone_iff]
      simp only [allowed,true_implies]
      constructor
      · rintro ⟨other,again,gone⟩
        obtain ⟨rfl,-⟩ := Prod.mk.inj (decoded.symm.trans again)
        exact gone
      · exact fun gone => ⟨request,decoded,gone⟩
  · constructor
    · intro _ other again
      exact absurd (congrArg Prod.snd (decoded.symm.trans again)) (by simp)
    · intro _
      apply @honest_failure _ _ vol home files _ files (errorResponse 400 "Error deleting content: " (.body e)) _
        (by simp [errorResponse]) (.inl rfl)
      simp [served,serve,Change.request,contentDeleteAPIHandler,decoded]

/-- The entry at the old name is at the new one after the call if and only if it was
    renamed, or has both names. -/
theorem moved_iff (old new : String) (entry : Entry) (there : vol.entryAt files (named vol home old) = some entry) :
    vol.entryAt (vol.answer files (.rename (safePath vol.cwd home old) (safePath vol.cwd home new))).1
        (named vol home new) = some entry ↔
      vol.entryAt files (named vol home new) = some entry ∨
        (vol.answer files (.rename (safePath vol.cwd home old) (safePath vol.cwd home new))).2 = none ∧
          ¬ Above (named vol home old) (named vol home new) := by
  by_cases renamed : (vol.answer files (.rename (safePath vol.cwd home old) (safePath vol.cwd home new))).2 = none
  · obtain ⟨givenOld,givenNew⟩ := vol.rename_empty files _ _ renamed
    obtain ⟨oldAbsolute,oldPlaced⟩ := names_safePath givenOld
    obtain ⟨newAbsolute,newPlaced⟩ := names_safePath givenNew
    have same := vol.rename_same files _ _ oldAbsolute newAbsolute
    have moved := vol.rename_moved files _ _ oldAbsolute newAbsolute renamed
    have within := vol.rename_within files _ _ oldAbsolute newAbsolute renamed
    rw [oldPlaced,newPlaced] at same moved within
    by_cases already : vol.entryAt files (named vol home new) = some entry
    · rw [same (there.trans already.symm)]
      simp [already]
    · by_cases above : Above (named vol home old) (named vol home new)
      · have gone := within above (fun equal => already (equal.symm.trans there))
        simp [gone,already,above]
      · obtain ⟨-,here⟩ := moved above
        simp [here,there,renamed,above]
  · rw [vol.rename_failed files _ _ renamed]
    simp [renamed]

theorem honest_rename (body : List UInt8) : Honest vol home files (.rename body) ↔ SoundRename vol home files body := by
  rcases decoded : renameContentPayload.decodeStream body renameContentPayload.zero with ⟨payload,err⟩
  unfold SoundRename
  rw [decoded]
  dsimp only
  by_cases up : (contains payload.parentDir ".." || contains payload.oldName ".." || contains payload.newName "..") = true
  · simp only [up,true_or,iff_true]
    apply @honest_failure _ _ vol home files _ files invalidPath _ (by decide) (.inl rfl)
    simp only [served,serve,Change.request,contentRenameAPIHandler,decoded,up,↓reduceIte,Program.run_pure]
  · have answer (fuel : Nat) : served vol home files fuel (.rename body) =
        ((vol.answer files (.rename (safePath vol.cwd home (join [payload.parentDir,payload.oldName]))
          (safePath vol.cwd home (join [payload.parentDir,payload.newName])))).1,.ok ⟨200,.empty⟩) := by
      simp only [served,serve,Change.request,contentRenameAPIHandler,decoded,up,Bool.false_eq_true,↓reduceIte,rename,Program.run_bind,
        vol.run_getSafePath,Program.run_call,Program.run_pure]
    rw [honest_success answer (.inl rfl)]
    simp only [up,Bool.false_eq_true,false_or]
    constructor
    · rintro ⟨other,entry,again,there,here⟩
      obtain ⟨rfl,none⟩ := Prod.mk.inj (decoded.symm.trans again)
      exact ⟨none,entry,there,(moved_iff _ _ entry there).mp here⟩
    · rintro ⟨rfl,entry,there,moves⟩
      exact ⟨payload,entry,decoded,there,(moved_iff _ _ entry there).mpr moves⟩

/-! ## Free names -/

/-- A loop that goes through the candidates until one is not taken, on fuel. -/
structure Searches (files : Files) (loop : Nat → Nat → Files × Except Stop String) (taken : String → Prop)
    (candidate : Nat → String) : Prop where
  out : ∀ i, loop 0 i = (files,.error .fuel)
  next : ∀ fuel i, taken (candidate i) → loop (fuel+1) i = loop fuel (i+1)
  found : ∀ fuel i, ¬ taken (candidate i) → loop (fuel+1) i = (files,.ok (candidate i))

section
variable {loop : Nat → Nat → Files × Except Stop String} {taken : String → Prop} {candidate : Nat → String}

/-- By induction on the fuel: the loop finds the first candidate that is not taken, or
    it runs out of fuel. -/
theorem Searches.first (searches : Searches files loop taken candidate) (fuel i : Nat)
    (before : ∀ j < i, taken (candidate j)) :
    loop fuel i = (files,.error .fuel) ∨ ∃ k, First taken candidate k ∧ loop fuel i = (files,.ok (candidate k)) := by
  induction fuel generalizing i with
  | zero => exact .inl (searches.out i)
  | succ fuel ih =>
    by_cases here : taken (candidate i)
    · rw [searches.next fuel i here]
      apply ih
      intro j below
      by_cases same : j = i
      · exact same ▸ here
      · exact before j (by omega)
    · exact .inr ⟨i,⟨here,before⟩,searches.found fuel i here⟩

/-- With enough fuel the loop finds it. -/
theorem Searches.finds (searches : Searches files loop taken candidate) {k : Nat} (first : First taken candidate k) :
    ∃ fuel, loop fuel 0 = (files,.ok (candidate k)) := by
  have run (left i : Nat) (there : i + left = k) : loop (left+1) i = (files,.ok (candidate k)) := by
    induction left generalizing i with
    | zero =>
      obtain rfl : i = k := there
      exact searches.found 0 i first.1
    | succ left ih =>
      rw [searches.next (left+1) i (first.2 i (by omega))]
      exact ih (i+1) (by omega)
  exact ⟨k+1,run k 0 (by omega)⟩

end

theorem run_fileExists (path : String) : ∃ b, (fileExists path).run vol.answer files = (files,.ok b) ∧
    (b = true ↔ Taken vol files path) := by
  have kept : (vol.answer files (.stat path)).1 = files := vol.kept files _ rfl
  unfold fileExists Taken
  rw [Program.run_call,kept]
  cases (vol.answer files (.stat path)).2 with
  | ok info => exact ⟨true,rfl,by simp⟩
  | error e => exact ⟨!e.notExist,rfl,by simp⟩

theorem run_directoryExists (path : String) : ∃ b, (directoryExists path).run vol.answer files = (files,.ok b) ∧
    (b = true ↔ IsDirectory vol files path) := by
  have kept : (vol.answer files (.stat path)).1 = files := vol.kept files _ rfl
  unfold directoryExists IsDirectory
  rw [Program.run_call,kept]
  cases (vol.answer files (.stat path)).2 with
  | ok info => exact ⟨info.isDir,rfl,by simp⟩
  | error e => exact ⟨false,rfl,by simp⟩

theorem searches_freePath (vol : Volume Files Entry) (files : Files) (parentDir start ending : String) :
    Searches files (fun fuel i => (freePath parentDir start ending fuel i (filePath parentDir start ending i)).run
      vol.answer files) (Taken vol files) (filePath parentDir start ending) := by
  constructor
  · intro i
    rfl
  · intro fuel i here
    obtain ⟨b,run,exists_iff⟩ := @run_fileExists _ _ vol files (filePath parentDir start ending i)
    obtain rfl : b = true := exists_iff.mpr here
    simp only [freePath,Program.run_bind,run]
    rfl
  · intro fuel i free
    obtain ⟨b,run,exists_iff⟩ := @run_fileExists _ _ vol files (filePath parentDir start ending i)
    obtain rfl : b = false := Bool.eq_false_iff.mpr (mt exists_iff.mp free)
    simp only [freePath,Program.run_bind,run]
    rfl

theorem searches_freeDirectory (vol : Volume Files Entry) (home : String) (files : Files) (payload : ContentPayload) :
    Searches files (fun fuel i => (freeDirectory home payload.parentDir "untitled-directory" fuel i
      (directoryPath vol home payload i)).run vol.answer files) (IsDirectory vol files) (directoryPath vol home payload) := by
  constructor
  · intro i
    rfl
  · intro fuel i here
    obtain ⟨b,run,exists_iff⟩ := @run_directoryExists _ _ vol files (directoryPath vol home payload i)
    obtain rfl : b = true := exists_iff.mpr here
    simp only [freeDirectory,Program.run_bind,run,↓reduceIte,vol.run_getSafePath]
    rfl
  · intro fuel i free
    obtain ⟨b,run,exists_iff⟩ := @run_directoryExists _ _ vol files (directoryPath vol home payload i)
    obtain rfl : b = false := Bool.eq_false_iff.mpr (mt exists_iff.mp free)
    simp only [freeDirectory,Program.run_bind,run]
    rfl

/-! ## Creations -/

/-- The names that a new file may get. -/
theorem filePath_entry {start ending : String} {c : Char} {cs : List Char} (text : start.toList = c :: cs)
    (first : c ≠ '.') (single : '/' ∉ start.toList) (singleEnding : '/' ∉ ending.toList) (parentDir : String) (k : Nat) :
    ∃ e : EntryName, filePath parentDir start ending k = join [parentDir,e.name] ∧
      (k ≠ 0 → e.name = numbered start ending k) := by
  have entry (rest : List Char) (noSlash : '/' ∉ rest) : ∃ e : EntryName, e.name = String.ofList (c :: (cs ++ rest)) := by
    have whole : '/' ∉ c :: (cs ++ rest) := by
      rw [text] at single
      rw [← List.cons_append,List.mem_append,not_or]
      exact ⟨single,noSlash⟩
    refine ⟨⟨String.ofList (c :: (cs ++ rest)),?_⟩,rfl⟩
    rw [String.toList_ofList]
    simpa [Name,dot,dotdot,first] using whole
  cases k with
  | zero =>
    obtain ⟨e,name⟩ := entry ending.toList singleEnding
    have same : start ++ ending = e.name := by
      rw [name,← String.toList_inj]
      simp [text]
    exact ⟨e,by rw [filePath,same],fun given => absurd rfl given⟩
  | succ k =>
    have digits : '/' ∉ Nat.toDigits 10 (k+1) := fun member => absurd (toDigits_digits (k+1) _ member) (by decide)
    obtain ⟨e,name⟩ := entry (Nat.toDigits 10 (k+1) ++ ending.toList) (by simpa using ⟨digits,singleEnding⟩)
    have same : numbered start ending (k+1) = e.name := by
      rw [name,← String.toList_inj]
      simp [numbered,text]
    exact ⟨e,by rw [filePath,same],fun _ => same.symm⟩

/-- The path that is returned for a new file names the file that was opened, where its
    directory is accepted. -/
theorem named_created {parentDir : String} (accepted : safePath vol.cwd home parentDir ≠ "")
    (allowed : contains parentDir ".." = false) (e : EntryName) :
    Absolute (join [safePath vol.cwd home parentDir,e.name]) ∧
      named vol home (join [parentDir,base (join [safePath vol.cwd home parentDir,e.name])]) =
        names (join [safePath vol.cwd home parentDir,e.name]) := by
  obtain ⟨absolute,placed⟩ := names_safePath accepted
  have noUp : ∀ part ∈ [e.name], dotdot ∉ names part := by simpa using e.noUp
  have opened : Absolute (join [safePath vol.cwd home parentDir,e.name]) := absolute_join absolute _
  have place : names (join [safePath vol.cwd home parentDir,e.name]) = named vol home parentDir ++ [e.name.toList] := by
    rw [names_join_home absolute noUp,placed]
    simp [e.names_eq]
  have based : base (join [safePath vol.cwd home parentDir,e.name]) = e.name := by
    rw [base_of_last opened (by rw [place,List.getLast?_concat]),String.ofList_toList]
  refine ⟨opened,?_⟩
  rw [based,place]
  exact names_below_entry vol.rooted (safePath_eq accepted).1 (noUp_of_contains allowed) e

theorem run_statCreated (payload : ContentPayload) (path : String) (files : Files) :
    (∃ info, (vol.answer files (.lstat path)).2 = .ok info ∧
      (statCreated payload path).run vol.answer files = (files,.ok (createdModel payload path info))) ∨
    (¬ ∃ info, (vol.answer files (.lstat path)).2 = .ok info) ∧
      (statCreated payload path).run vol.answer files = (files,.error .nilResult) := by
  have kept : (vol.answer files (.lstat path)).1 = files := vol.kept files _ rfl
  unfold statCreated
  rw [Program.run_call,kept]
  cases (vol.answer files (.lstat path)).2 with
  | ok info => exact .inl ⟨info,rfl,rfl⟩
  | error e => exact .inr ⟨by simp,rfl⟩

/-- A program that looks for a free name, opens the file and returns its model. -/
structure Creates (vol : Volume Files Entry) (home : String) (files : Files) (payload : ContentPayload) (isNotebook : Bool)
    (start ending : String) (create : Nat → Os ContentModel) : Prop where
  found : ∀ fuel path, (freePath (safePath vol.cwd home payload.parentDir) start ending fuel 0
      (filePath (safePath vol.cwd home payload.parentDir) start ending 0)).run vol.answer files = (files,.ok path) →
    (create fuel).run vol.answer files = (statCreated payload path).run vol.answer (opened vol files isNotebook path)
  lost : ∀ fuel, (freePath (safePath vol.cwd home payload.parentDir) start ending fuel 0
      (filePath (safePath vol.cwd home payload.parentDir) start ending 0)).run vol.answer files = (files,.error .fuel) →
    (create fuel).run vol.answer files = (files,.error .fuel)

theorem creates_untitledFile (payload : ContentPayload) :
    Creates vol home files payload false "untitled" ".txt" (fun fuel => newUntitledFile fuel home payload) := by
  have name : "untitled" ++ ".txt" = "untitled.txt" := by decide
  constructor
  · intro fuel path found
    rw [filePath,name] at found
    simp only [newUntitledFile,Program.run_bind,vol.run_getSafePath,found,Program.run_call,opened,Bool.false_eq_true,
      ↓reduceIte]
  · intro fuel lost
    rw [filePath,name] at lost
    simp only [newUntitledFile,Program.run_bind,vol.run_getSafePath,lost]

theorem creates_untitledNotebook (payload : ContentPayload) :
    Creates vol home files payload true "Untitled" ".ipynb" (fun fuel => newUntitledNotebook fuel home payload) := by
  have name : "Untitled" ++ ".ipynb" = "Untitled.ipynb" := by decide
  constructor
  · intro fuel path found
    rw [filePath,name] at found
    simp only [newUntitledNotebook,Program.run_bind,vol.run_getSafePath,found,Program.run_call,opened,↓reduceIte]
  · intro fuel lost
    rw [filePath,name] at lost
    simp only [newUntitledNotebook,Program.run_bind,vol.run_getSafePath,lost]

/-- A new entry is returned for a file if and only if its creation is sound. -/
theorem created_file_iff {payload : ContentPayload} {isNotebook : Bool} {start ending : String}
    {create : Nat → Os ContentModel} (creates : Creates vol home files payload isNotebook start ending create) {c : Char}
    {cs : List Char} (text : start.toList = c :: cs) (first : c ≠ '.') (single : '/' ∉ start.toList)
    (singleEnding : '/' ∉ ending.toList) (allowed : contains payload.parentDir ".." = false) :
    (∃ fuel model, ((create fuel).run vol.answer files).2 = .ok model ∧
        New vol files ((create fuel).run vol.answer files).1 (named vol home model.path)) ↔
      SoundFile vol home files isNotebook start ending payload := by
  have searches := searches_freePath vol files (safePath vol.cwd home payload.parentDir) start ending
  constructor
  · rintro ⟨fuel,model,ended,new⟩
    rcases searches.first fuel 0 (by simp) with lost | ⟨k,free,found⟩
    · rw [creates.lost fuel lost] at ended
      cases ended
    · rw [creates.found fuel _ found] at ended new
      rcases @run_statCreated _ _ vol payload (filePath (safePath vol.cwd home payload.parentDir) start ending k)
        (opened vol files isNotebook _) with ⟨info,looked,run⟩ | ⟨-,run⟩
      · rw [run] at ended new
        obtain rfl := Except.ok.inj ended
        exact ⟨k,free,⟨info,looked⟩,new.1,.inr new.2⟩
      · rw [run] at ended
        cases ended
  · rintro ⟨k,free,present,fresh,there⟩
    obtain ⟨fuel,found⟩ := searches.finds free
    rcases @run_statCreated _ _ vol payload (filePath (safePath vol.cwd home payload.parentDir) start ending k)
      (opened vol files isNotebook (filePath (safePath vol.cwd home payload.parentDir) start ending k)) with
      ⟨info,looked,run⟩ | ⟨missing,-⟩
    · refine ⟨fuel,createdModel payload (filePath (safePath vol.cwd home payload.parentDir) start ending k) info,?_,?_⟩
      · rw [creates.found fuel _ found,run]
      · rw [creates.found fuel _ found,run]
        refine ⟨fresh,?_⟩
        rcases there with accepted | there
        · obtain ⟨e,path,-⟩ := filePath_entry text first single singleEnding (safePath vol.cwd home payload.parentDir) k
          obtain ⟨absolute,placed⟩ := named_created accepted allowed e
          rw [path] at looked ⊢
          rw [createdModel,placed]
          exact vol.lstat_entry _ _ info absolute looked
        · exact there
    · exact absurd present missing

/-- A directory that is returned is the first one that was free, and was asked for. -/
theorem run_createDirectory {payload : ContentPayload} {fuel : Nat} {path : String}
    (found : (freeDirectory home payload.parentDir "untitled-directory" fuel 0 (directoryPath vol home payload 0)).run
      vol.answer files = (files,.ok path)) :
    (createDirectory fuel home payload).run vol.answer files = ((vol.answer files (.mkdirAll path)).1,
      .ok { ContentModel.zero with contentType := payload.contentType, path := path, name := base "untitled-directory" }) := by
  rw [directoryPath] at found
  simp only [createDirectory,Program.run_bind,vol.run_getSafePath,found,Program.run_call,Program.run_pure]

theorem run_createDirectory_lost {payload : ContentPayload} {fuel : Nat}
    (lost : (freeDirectory home payload.parentDir "untitled-directory" fuel 0 (directoryPath vol home payload 0)).run
      vol.answer files = (files,.error .fuel)) :
    (createDirectory fuel home payload).run vol.answer files = (files,.error .fuel) := by
  rw [directoryPath] at lost
  simp only [createDirectory,Program.run_bind,vol.run_getSafePath,lost]

theorem absolute_directoryPath {payload : ContentPayload} {k : Nat} (given : directoryPath vol home payload k ≠ "") :
    Absolute (directoryPath vol home payload k) := by
  cases k with
  | zero => exact (names_safePath given).1
  | succ k => exact (names_safePath given).1

/-- A new entry is returned for a directory if and only if its creation is sound. -/
theorem created_directory_iff (payload : ContentPayload) :
    (∃ fuel model, ((createDirectory fuel home payload).run vol.answer files).2 = .ok model ∧ model.path ≠ "" ∧
        New vol files ((createDirectory fuel home payload).run vol.answer files).1 (names (absPath vol.cwd model.path))) ↔
      SoundDirectory vol home files payload := by
  have searches := searches_freeDirectory vol home files payload
  constructor
  · rintro ⟨fuel,model,ended,given,new⟩
    rcases searches.first fuel 0 (by simp) with lost | ⟨k,free,found⟩
    · rw [run_createDirectory_lost lost] at ended
      cases ended
    · rw [run_createDirectory found] at ended new
      obtain rfl := Except.ok.inj ended
      have absolute := absolute_directoryPath given
      dsimp only at new
      rw [absPath_of_absolute absolute] at new
      refine ⟨k,free,new.1,?_⟩
      by_contra failed
      obtain ⟨fresh,there⟩ := new
      rw [vol.mkdirAll_failed files _ absolute failed,fresh] at there
      cases there
  · rintro ⟨k,free,fresh,ok⟩
    have given : directoryPath vol home payload k ≠ "" := by
      intro none
      rw [none] at ok
      exact vol.mkdirAll_empty files ok
    have absolute := absolute_directoryPath given
    obtain ⟨fuel,found⟩ := searches.finds free
    refine ⟨fuel,_,by rw [run_createDirectory found],given,?_⟩
    rw [run_createDirectory found]
    dsimp only
    rw [absPath_of_absolute absolute]
    exact ⟨fresh,vol.mkdirAll_made files _ absolute ok⟩

theorem honest_created {body : List UInt8} (allowed : contains (createPayload body).parentDir ".." = false) :
    Honest vol home files (.create body) ↔
      ∃ fuel model, ((createContent fuel home (createPayload body)).run vol.answer files).2 = .ok model ∧
        Created vol home files ((createContent fuel home (createPayload body)).run vol.answer files).1 (createPayload body)
          model.path := by
  have answer (fuel : Nat) : served vol home files fuel (.create body) =
      (createContent fuel home (createPayload body) >>= fun data => pure ⟨201,.content data⟩ : Os Response).run
        vol.answer files := by
    have decoded : (contentPayload.decodeStream body contentPayload.zero).1 = createPayload body := rfl
    simp only [served,serve,Change.request,contentCreateAPIHandler,decoded,allowed,Bool.false_eq_true,↓reduceIte]
  unfold Honest
  refine exists_congr ?_
  intro fuel
  rw [answer,Program.run_bind]
  rcases (createContent fuel home (createPayload body)).run vol.answer files with ⟨after,why | model⟩
  · simp
  · simp [Done]

theorem honest_create (body : List UInt8) :
    Honest vol home files (.create body) ↔ SoundCreate vol home files (createPayload body) := by
  unfold SoundCreate
  by_cases up : contains (createPayload body).parentDir ".." = true
  · simp only [up,true_or,iff_true]
    apply @honest_failure _ _ vol home files _ files invalidPath _ (by decide) (.inl rfl)
    have decoded : (contentPayload.decodeStream body contentPayload.zero).1 = createPayload body := rfl
    simp only [served,serve,Change.request,contentCreateAPIHandler,decoded,up,↓reduceIte,Program.run_pure]
  · have allowed : contains (createPayload body).parentDir ".." = false := Bool.eq_false_iff.mpr up
    rw [honest_created allowed]
    simp only [allowed,Bool.false_eq_true,false_or]
    by_cases notebook : (createPayload body).contentType = "notebook"
    · have other : (createPayload body).contentType ≠ "directory" := by rw [notebook]; decide
      simp only [createContent,Created,if_pos notebook,if_neg other]
      exact created_file_iff (creates_untitledNotebook _) rfl (by decide) (by decide) (by decide) allowed
    · by_cases directory : (createPayload body).contentType = "directory"
      · simp only [createContent,Created,if_neg notebook,if_pos directory]
        exact created_directory_iff _
      · simp only [createContent,Created,if_neg notebook,if_neg directory]
        exact created_file_iff (creates_untitledFile _) rfl (by decide) (by decide) (by decide) allowed

end

/-! ## A deletion that fails -/

/-- A disk with one file, which cannot be removed. -/
def oneFile (place : Place) : Option (List UInt8) := if place = names "/home/u/a.txt" then some [] else none

def lockedVolume : Volume (Place → Option (List UInt8)) (List UInt8) := flatVolume "/home/u" absolute_user

def deletion : ContentRequestBody := ⟨"a.txt","file","",""⟩

end Zasper.StatusCodes
