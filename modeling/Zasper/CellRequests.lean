import Zasper.ClientMessages
import Zasper.NotebookCells

/-!
# Requests of cells

What a notebook page sends to its kernel and what it makes of the answers, with the
server in between. Each request goes out on the socket of its channel with the header and
the content that the page gave it, and an answer to it comes back with the id of the cell
(`answers_return`).
-/
namespace Zasper.CellRequests
open Zasper.JsonValues Zasper.JsonText Zasper.Structs Zasper.KernelMessages Zasper.KernelSession Zasper.Kernels
open Zasper.ClientMessages Zasper.NotebookCells
set_option linter.unusedSimpArgs false

/-! ## The page -/

/-- What the page puts into the header of every request. -/
structure Sender where
  date : String
  session : String
  userName : String

inductive Request where
  | submitCell (source cellId : String)
  /-- The answer to a prompt, with the parent header that came with it. -/
  | submitPrompt (cellId : String) (parentHeader : MessageHeader) (inputValue : String)
  | submitTabCompletion (source : String) (cursorPos : Float64)

namespace Request

def msgId : Request → String
  | .submitCell _ cellId | .submitPrompt cellId _ _ => cellId
  | .submitTabCompletion _ _ => "5cfe8270-a5b0-4706-868e-4249c852949e"

def msgType : Request → String
  | .submitCell _ _ => "execute_request"
  | .submitPrompt _ _ _ => "input_reply"
  | .submitTabCompletion _ _ => "inspect_request"

def channel : Request → String
  | .submitCell _ _ | .submitTabCompletion _ _ => "shell"
  | .submitPrompt _ _ _ => "stdin"

def content : Request → Json
  | .submitCell source _ => .obj
    [("silent",.bool false),("store_history",.bool true),("user_expressions",.obj []),("allow_stdin",.bool true),
      ("stop_on_error",.bool true),("code",.str source)]
  | .submitPrompt _ _ inputValue => .obj [("status",.str "ok"),("value",.str inputValue)]
  | .submitTabCompletion source cursorPos => .obj
    [("code",.str source),("cursor_pos",.num cursorPos.val),("detail_level",.num (.int 0))]

end Request

def headerJson (sender : Sender) (request : Request) : Json := .obj
  [("date",.str sender.date),("msg_id",.str request.msgId),("msg_type",.str request.msgType),
    ("session",.str sender.session),("username",.str sender.userName),("version",.str "5.2")]

/-- The object that is stringified and sent. -/
def messageJson (sender : Sender) : Request → Json
  | .submitCell source cellId => .obj
    [("buffers",.arr []),("channel",.str "shell"),("content",(Request.submitCell source cellId).content),
      ("header",headerJson sender (.submitCell source cellId)),
      ("metadata",.obj [("deletedCells",.arr []),("recordTiming",.bool false),("cellId",.str cellId),
        ("trusted",.bool true)]),
      ("parent_header",.obj [])]
  | .submitPrompt cellId parentHeader inputValue => .obj
    [("buffers",.arr []),("channel",.str "stdin"),("content",(Request.submitPrompt cellId parentHeader inputValue).content),
      ("header",headerJson sender (.submitPrompt cellId parentHeader inputValue)),
      ("parent_header",header.encode parentHeader),("metadata",.obj [])]
  | .submitTabCompletion source cursorPos => .obj
    [("channel",.str "shell"),("header",headerJson sender (.submitTabCompletion source cursorPos)),
      ("parent_header",.obj []),("metadata",.obj []),("content",(Request.submitTabCompletion source cursorPos).content)]

/-- `object[key]`: of several members with one key the last is read. -/
def property (key : String) : Json → Option Json
  | .obj members => (members.reverse.find? (fun e => e.1 = key)).map Prod.snd
  | _ => none

def string : Json → Option String
  | .str s => some s
  | _ => none

def strings : Json → Option (List String)
  | .arr items => items.mapM string
  | _ => none

/-- What the page reads of the content of a message; nothing where it lacks what is read. -/
def contentOf (msgType : String) (content : Json) : Option Content :=
  match msgType with
  | "input_request" => some .inputRequest
  | "inspect_reply" => some .inspectReply
  | "status" => some .status
  | "execute_input" =>
    match property "execution_count" content with
    | some (.num (.int executionCount)) => some (.executeInput executionCount)
    | _ => none
  | "error" => do
    let ename ← property "ename" content >>= string
    let evalue ← property "evalue" content >>= string
    let traceback ← property "traceback" content >>= strings
    some (.error ename evalue traceback)
  | "stream" => do
    let name ← property "name" content >>= string
    let text ← property "text" content >>= string
    some (.stream name text)
  | "execute_result" => (property "data" content).map .executeResult
  | "display_data" => (property "data" content).map .displayData
  | _ => some .other

/-- What `updateNotebook` reads of a message that was parsed. -/
def messageOf (message : Json) : Option NotebookCells.Message := do
  let msgId ← property "parent_header" message >>= property "msg_id" >>= string
  let msgType ← property "header" message >>= property "msg_type" >>= string
  let content ← property "content" message
  (contentOf msgType content).map (fun content => ⟨msgId,content⟩)

/-! ## The server -/

def requestHeader (sender : Sender) (request : Request) : MessageHeader :=
  ⟨request.msgId,request.msgType,sender.userName,sender.session,sender.date,"5.2"⟩

theorem decode_header (sender : Sender) (request : Request) :
    header.decode header.zero (headerJson sender request) = ⟨requestHeader sender request,false⟩ := by
  simp [header,struct,decodeStruct,headerJson,decodeMember,fieldFor,headerFields,field,decodeVia,text,requestHeader]

theorem decode_header_encoded (h : MessageHeader) : header.decode header.zero (header.encode h) = ⟨h,false⟩ :=
  header_inverse id (.inl rfl) h

/-- What the server has of a request once it is decoded. -/
def decodedMessage (sender : Sender) (request : Request) : KernelMessages.Message :=
  { Message.zero with
    header := requestHeader sender request
    parentHeader := match request with
      | .submitPrompt _ parentHeader _ => parentHeader
      | _ => header.zero
    content := .ofJson request.content
    buffers := match request with
      | .submitTabCompletion _ _ => none
      | _ => some []
    metadata := match request with
      | .submitCell _ cellId => .ofJson (.obj [("deletedCells",.arr []),("recordTiming",.bool false),
          ("cellId",.str cellId),("trusted",.bool true)])
      | _ => .ofJson (.obj [])
    channel := request.channel }

theorem content_inRange (request : Request) : outOfRange request.content = false := by
  cases request with
  | submitTabCompletion source cursorPos =>
    have held : cursorPos.val.float64 = some cursorPos.val := cursorPos.property
    have whole : (Number.int 0).float64.isNone = false := by decide +kernel
    simp only [Request.content,outOfRange,membersOutOfRange,held,whole,Option.isNone_some,Bool.or_self]
  | _ => rfl

theorem decode_message (sender : Sender) (request : Request) :
    message.decode Message.zero (messageJson sender request) = ⟨decodedMessage sender request,false⟩ := by
  have empty : header.decode header.zero (.obj []) = ⟨header.zero,false⟩ := rfl
  have none : buffers.decode Option.none (.arr []) = ⟨some [],false⟩ := rfl
  cases request with
  | submitCell source cellId =>
    simp [message,struct,decodeStruct,messageJson,decodeMember,fieldFor,messageFields,field,decodeVia,Message.zero,
      decode_header,empty,none,text,any_decode,content_inRange,outOfRange,membersOutOfRange,itemsOutOfRange,
      decodedMessage,Request.channel]
  | submitPrompt cellId parentHeader inputValue =>
    simp [message,struct,decodeStruct,messageJson,decodeMember,fieldFor,messageFields,field,decodeVia,Message.zero,
      decode_header,decode_header_encoded,empty,none,text,any_decode,content_inRange,outOfRange,membersOutOfRange,itemsOutOfRange,
      decodedMessage,Request.channel]
  | submitTabCompletion source cursorPos =>
    simp [message,struct,decodeStruct,messageJson,decodeMember,fieldFor,messageFields,field,decodeVia,Message.zero,
      decode_header,empty,none,text,any_decode,content_inRange,outOfRange,membersOutOfRange,itemsOutOfRange,
      decodedMessage,Request.channel]

theorem decodes_request {sender : Sender} {request : Request} {payload : List UInt8}
    (stringified : unmarshal payload = some (messageJson sender request)) :
    decodes payload = some (decodedMessage sender request) := by
  simp [decodes,Codec.unmarshal,stringified,Codec.decodeParsed,decode_message]

/-! ## The kernel -/

section
variable (mac : List UInt8 → List UInt8 → List UInt8) (key : List UInt8)

/-- The frames carry a signed message with the header and the content. -/
structure Carries (frames : List Frame) (messageHeader : MessageHeader) (content : Value) : Prop where
  parts : ∃ signature h p m c, frames = [delim,signature,h,p,m,c] ∧ checkSignature mac key [h,p,m,c] signature = none ∧
    header.unmarshal h header.zero = (messageHeader,none) ∧ any.unmarshal c .null = (content,none)

/-- What a kernel sends in answer to a message: its parent header is the header of that
    message. A kernel writes its JSON in its own way. -/
structure Answer (parent : MessageHeader) where
  header : MessageHeader
  metadata : Json
  content : Json
  headerFrame : Frame
  parentFrame : Frame
  metadataFrame : Frame
  contentFrame : Frame
  readsHeader : KernelMessages.header.unmarshal headerFrame KernelMessages.header.zero = (header,none)
  readsParent : KernelMessages.header.unmarshal parentFrame KernelMessages.header.zero = (parent,none)
  readsMetadata : unmarshal metadataFrame = some metadata
  readsContent : unmarshal contentFrame = some content

def Answer.parts {parent : MessageHeader} (answer : Answer parent) : List Frame :=
  [answer.headerFrame,answer.parentFrame,answer.metadataFrame,answer.contentFrame]

def Answer.frames {parent : MessageHeader} (answer : Answer parent) : List Frame :=
  [delim,sign mac key answer.parts] ++ answer.parts

end

section
variable {mac : List UInt8 → List UInt8 → List UInt8} {key : List UInt8} {parent : MessageHeader}

theorem unmarshal_any {frame : Frame} {j : Json} (reads : unmarshal frame = some j) :
    any.unmarshal frame .null = (.ofJson j,if outOfRange j then some .mismatch else none) := by
  simp only [Codec.unmarshal,reads,Codec.decodeParsed,any_decode]

theorem carries_serialize (msg : KernelMessages.Message) : Carries mac key (serialize mac key msg) msg.header msg.content := by
  refine ⟨_,_,_,_,_,rfl,checkSignature_sign _,?_,?_⟩
  · exact Structs.unmarshal_marshal header_inverse.rereads _
  · exact Structs.unmarshal_marshal any_inverse.rereads _

/-- The error that an answer is passed on with: some number of its metadata or of its content
    is out of range. -/
def Answer.error (answer : Answer parent) : Option MessageError :=
  orError "Content" (if outOfRange answer.content then some .mismatch else none)
    (orError "Metadata" (if outOfRange answer.metadata then some .mismatch else none) none)

/-- The server passes the headers, the metadata and the content of an answer on. -/
theorem received_answer (mac : List UInt8 → List UInt8 → List UInt8) (key : List UInt8) (answer : Answer parent)
    (chanel : String) :
    received mac key (sign mac key answer.parts) answer.headerFrame answer.parentFrame answer.metadataFrame
        answer.contentFrame chanel =
      { Message.zero with
        header := answer.header
        parentHeader := parent
        metadata := .ofJson answer.metadata
        content := .ofJson answer.content
        error := answer.error
        channel := chanel } := by
  have signed : checkSignature mac key [answer.headerFrame,answer.parentFrame,answer.metadataFrame,answer.contentFrame]
      (sign mac key answer.parts) = none := checkSignature_sign _
  unfold received unmarshalParts
  simp only [signed,ite_self,answer.readsHeader,answer.readsParent,unmarshal_any answer.readsMetadata,
    unmarshal_any answer.readsContent]
  rfl

/-- The page reads the id of the parent header, and the type and the content of a message. -/
theorem messageOf_encoded (msg : KernelMessages.Message) :
    messageOf (encodeMessage msg) =
      (contentOf msg.header.msgType msg.content.json).map (fun content => ⟨msg.parentHeader.msgID,content⟩) := by
  rfl

theorem property_error (msg : KernelMessages.Message) :
    property "error" (encodeMessage msg) = some .null ↔ msg.error = none := by
  have written : property "error" (encodeMessage msg) = some (encodeError msg.error) := rfl
  rw [written]
  cases msg.error with
  | none => exact iff_of_true rfl rfl
  | some e => exact iff_of_false (fun same => by cases same) (fun same => by cases same)

end

theorem error_null_iff (answer : Answer parent) :
    answer.error = none ↔ outOfRange answer.metadata = false ∧ outOfRange answer.content = false := by
  unfold Answer.error
  cases outOfRange answer.metadata <;> cases outOfRange answer.content <;> decide

/-- A request of the page goes out on the socket of its channel with the header and the
    content that the page gave it. Whatever the kernel answers to it comes back to the page
    as a message with the id of the request, which for a cell is that of the cell, and with
    the content as a program decodes it, where each number is the nearest `float64`; a number
    that is out of range is lost and sets the error of the message. -/
theorem answers_return (mac : List UInt8 → List UInt8 → List UInt8) (kernelId : String) (km : KernelManager) (context : Nat)
    (sender : Sender) (request : Request) {payload : List UInt8}
    (stringified : unmarshal payload = some (messageJson sender request)) :
    let key := utf8 km.key.toList
    ∃ frames, handleIncomingMessage mac (opened kernelId km context) "" payload = .sent request.channel frames ∧
      Carries mac key frames (requestHeader sender request) (.ofJson request.content) ∧
      ∀ (answer : Answer (requestHeader sender request)) (ids : Identities) (spare : List Frame) (chanel : String),
        ∃ text message, (deserialize mac key ⟨ids.frames ++ answer.frames mac key,spare⟩ chanel).result = some text ∧
          unmarshal text = some message ∧
          messageOf message =
            (contentOf answer.header.msgType (denoted answer.content)).map (fun content => ⟨request.msgId,content⟩) ∧
          (property "error" message = some .null ↔
            outOfRange answer.metadata = false ∧ outOfRange answer.content = false) := by
  intro key
  have decoded := decodes_request stringified
  have socket : socketFor (decodedMessage sender request) = request.channel := by
    cases request <;> rfl
  refine ⟨serialize mac key (decodedMessage sender request),?_,carries_serialize _,?_⟩
  · rw [handleIncomingMessage_decoded decoded,socket]
  · intro answer ids spare chanel
    have passed : (deserialize mac key ⟨ids.frames ++ answer.frames mac key,spare⟩ chanel).result =
        some (marshal (encodeMessage (received mac key (sign mac key answer.parts) answer.headerFrame answer.parentFrame
          answer.metadataFrame answer.contentFrame chanel))) := (gives_deserialize rfl ids.others chanel).1
    rw [received_answer mac key answer chanel] at passed
    refine ⟨_,_,passed,unmarshal_marshal _,?_,?_⟩
    · rw [messageOf_encoded]
      rfl
    · rw [property_error,← error_null_iff]

/-- What a cell prints. -/
def printed (parent : MessageHeader) : Answer parent where
  header := ⟨"2","stream","user","s","2025-01-01T00:00:01Z","5.4"⟩
  metadata := .obj []
  content := .obj [("name",.str "stdout"),("text",.str "1")]
  headerFrame := marshal (header.encode ⟨"2","stream","user","s","2025-01-01T00:00:01Z","5.4"⟩)
  parentFrame := marshal (header.encode parent)
  metadataFrame := marshal (.obj [])
  contentFrame := marshal (.obj [("name",.str "stdout"),("text",.str "1")])
  readsHeader := Structs.unmarshal_marshal header_inverse.rereads _
  readsParent := Structs.unmarshal_marshal header_inverse.rereads _
  readsMetadata := JsonText.unmarshal_marshal _
  readsContent := JsonText.unmarshal_marshal _

theorem printed_returns :
    let mac := fun _ _ => []
    let sender : Sender := ⟨"2025-01-01T00:00:00Z","s","user"⟩
    let request := Request.submitCell "print(1)" "a"
    ∃ frames, handleIncomingMessage mac (opened "k" .zero 0) "" (marshal (messageJson sender request)) = .sent "shell" frames ∧
      ∃ text message,
        (deserialize mac [] ⟨(printed (requestHeader sender request)).frames mac [],[]⟩ "iopub").result = some text ∧
          unmarshal text = some message ∧ messageOf message = some ⟨"a",.stream "stdout" "1"⟩ := by
  intro mac sender request
  obtain ⟨frames,sent,-,returns⟩ := answers_return mac "k" .zero 0 sender request (JsonText.unmarshal_marshal _)
  obtain ⟨text,message,passed,reads,same,-⟩ := returns (printed _) ⟨[],by simp⟩ [] "iopub"
  exact ⟨frames,sent,text,message,passed,reads,same⟩

end Zasper.CellRequests
