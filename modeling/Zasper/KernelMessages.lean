import Zasper.Encodings
import Zasper.Structs

/-!
# Kernel messages

The messages between the server and a kernel, and their JSON. An error is written
as an empty object, because the types of errors have no exported fields; buffers
are written in base 64.
-/
namespace Zasper.KernelMessages
open Zasper.JsonValues Zasper.JsonText Zasper.Structs Zasper.Encodings
set_option linter.unusedSimpArgs false

structure MessageHeader where
  msgID : String
  msgType : String
  username : String
  session : String
  date : String
  protocolVersion : String
deriving DecidableEq

/-- The errors that a message is given when it is read. -/
inductive MessageError where
  | decodingSignature
  | comparingSignature
  | unmarshalling (part : String) (cause : UnmarshalError)
deriving DecidableEq

/-- The text of an error, without the text of its cause. -/
def MessageError.text : MessageError → String
  | .decodingSignature => "invalid signature: while decoding message"
  | .comparingSignature => "invalid signature: while comparing message"
  | .unmarshalling part _ => "error unmarshalling " ++ part ++ ": "

structure Message where
  header : MessageHeader
  parentHeader : MessageHeader
  msgId : String
  msgType : String
  content : Value
  buffers : Option (List UInt8)
  metadata : Value
  tracker : Int64
  error : Option MessageError
  channel : String
deriving DecidableEq

def headerFields : List (StructField MessageHeader) :=
  [ field "msg_id" text (·.msgID) (fun s v => { s with msgID := v })
  , field "msg_type" text (·.msgType) (fun s v => { s with msgType := v })
  , field "username" text (·.username) (fun s v => { s with username := v })
  , field "session" text (·.session) (fun s v => { s with session := v })
  , field "date" text (·.date) (fun s v => { s with date := v })
  , field "version" text (·.protocolVersion) (fun s v => { s with protocolVersion := v }) ]

def header : Codec MessageHeader := struct ⟨"","","","","",""⟩ headerFields

theorem headerFields_good : Fields headerFields := ⟨by decide,by simp [headerFields]⟩

theorem header_inverse : header.Inverse := by
  intro w rewriting h
  refine (decode_encode_fields headerFields_good rewriting _ _).trans ?_
  rw [headerFields]
  iterate 6 rw [foldl_field (text_inverse w rewriting)]
  all_goals rfl

def Message.zero : Message := ⟨KernelMessages.header.zero,KernelMessages.header.zero,"","",.null,none,.null,0,none,""⟩

def encodeBuffers : Option (List UInt8) → Json
  | none => .null
  | some bytes => .str (String.ofList (base64 bytes))

def encodeError : Option MessageError → Json
  | none => .null
  | some _ => .obj []

def encodeMessage (msg : Message) : Json := .obj
  [ ("header",header.encode msg.header)
  , ("parent_header",header.encode msg.parentHeader)
  , ("msg_id",.str msg.msgId)
  , ("msg_type",.str msg.msgType)
  , ("content",msg.content.json)
  , ("buffers",encodeBuffers msg.buffers)
  , ("metadata",msg.metadata.json)
  , ("tracker",int.encode msg.tracker)
  , ("error",encodeError msg.error)
  , ("channel",.str msg.channel) ]

end Zasper.KernelMessages
