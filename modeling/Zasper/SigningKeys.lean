import Zasper.Kernels

/-!
# The signing key on the wire

Two runs of a session that send the same messages and draw the same ids and dates, under
two keys. What the frames say besides the signature is the same in both as long as no
message goes out under a header that the server made itself (`hidden_iff`): such a header
names the key as its session.
-/
namespace Zasper.SigningKeys
open Zasper.JsonValues Zasper.JsonText Zasper.Structs Zasper.KernelMessages Zasper.KernelSession Zasper.Kernels
set_option linter.unusedSimpArgs false

/-! ## Making messages -/

/-- What of a session goes into its messages. -/
structure Session where
  key : String
  signatureScheme : String
deriving DecidableEq

/-- A session under the key that was drawn. -/
def getSession (newIDBytes : String) : Session := ⟨newIDBytes,"hmac-sha256"⟩

def Session.newMsgHeader (ks : Session) (outside : Outside) (msgType userName : String) : MessageHeader :=
  ⟨outside.id,msgType,userName,ks.key,outside.date,protocolVersion⟩

/-- The message id is taken before the header is set. -/
def createMsg (content : Value) (parent header : MessageHeader) (metadata : Value) : Message :=
  { Message.zero with
    msgId := KernelMessages.header.zero.msgID
    parentHeader := parent
    header := header
    content := content
    metadata := metadata }

/-! ## Runs -/

/-- Where a header comes from. -/
inductive HeaderSource where
  | given (header : MessageHeader)
  | newMsgHeader (outside : Outside) (msgType userName : String)

/-- Where a message comes from. -/
inductive MessageSource where
  | given (msg : Message)
  | messageFromString (outside : Outside) (value : String)
  | createMsg (content : Value) (parent header : HeaderSource) (metadata : Value)

/-- What a session sends. -/
inductive Op where
  | send (source : MessageSource)
  | nudge (outside : Outside) (km : KernelManager)

def HeaderSource.header (ks : Session) : HeaderSource → MessageHeader
  | .given header => header
  | .newMsgHeader outside msgType userName => ks.newMsgHeader outside msgType userName

def MessageSource.message (ks : Session) : MessageSource → Message
  | .given msg => msg
  | .messageFromString outside value => Kernels.messageFromString outside ks.key value
  | .createMsg content parent header metadata =>
    SigningKeys.createMsg content (parent.header ks) (header.header ks) metadata

/-- The message that goes out. -/
def Op.message (ks : Session) : Op → Message
  | .send source => source.message ks
  | .nudge outside _ => Kernels.messageFromString outside ks.key "kernel_info_request"

/-- The frames that go out. -/
def Op.frames (mac : List UInt8 → List UInt8 → List UInt8) (ks : Session) : Op → List Frame
  | .send source => serialize mac (utf8 ks.key.toList) (source.message ks)
  | .nudge outside km => (Kernels.nudge mac outside { km with key := ks.key }).2

/-- The header, parent header, metadata and content frames. -/
def parts (frames : List Frame) : List Frame := frames.drop 2

/-- The parts of everything that a run under the key sends. -/
def partsSent (mac : List UInt8 → List UInt8 → List UInt8) (newIDBytes : String) (ops : List Op) : List (List Frame) :=
  ops.map (fun op => parts (op.frames mac (getSession newIDBytes)))

def HeaderSource.Made : HeaderSource → Prop
  | .given _ => False
  | .newMsgHeader _ _ _ => True

def MessageSource.Made : MessageSource → Prop
  | .given _ => False
  | .messageFromString _ _ => True
  | .createMsg _ _ header _ => header.Made

/-- The message goes out under a header that the session made. -/
def Op.Made : Op → Prop
  | .send source => source.Made
  | .nudge _ _ => True

section
variable {mac : List UInt8 → List UInt8 → List UInt8}

theorem frames_eq (ks : Session) (op : Op) :
    op.frames mac ks = serialize mac (utf8 ks.key.toList) (op.message ks) := by
  cases op <;> rfl

/-- The parts of two messages are the same where header, metadata and content are. -/
theorem parts_eq_iff (key key' : List UInt8) (msg msg' : Message) :
    parts (serialize mac key msg) = parts (serialize mac key' msg') ↔
      msg.header = msg'.header ∧ msg.metadata = msg'.metadata ∧ msg.content = msg'.content := by
  constructor
  · intro same
    simp only [parts,serialize,List.cons_append,List.nil_append,List.drop_succ_cons,List.drop_zero,List.cons.injEq,
      and_true] at same
    obtain ⟨headers,_,metadata,contents⟩ := same
    exact ⟨header_inverse.inj (marshal_inj headers),any_inverse.inj (marshal_inj metadata),
      any_inverse.inj (marshal_inj contents)⟩
  · rintro ⟨headers,metadata,contents⟩
    simp only [parts,serialize,List.cons_append,List.nil_append,List.drop_succ_cons,List.drop_zero,headers,metadata,
      contents]

/-- Only the header of a message depends on the session, and only through its key. -/
theorem message_parts (ks ks' : Session) (op : Op) :
    (op.message ks).metadata = (op.message ks').metadata ∧ (op.message ks).content = (op.message ks').content ∧
      (¬ op.Made → (op.message ks).header = (op.message ks').header) ∧
      (op.Made → (op.message ks).header.session = ks.key) := by
  cases op with
  | nudge outside km => exact ⟨rfl,rfl,fun own => absurd trivial own,fun _ => rfl⟩
  | send source =>
    cases source with
    | given msg => exact ⟨rfl,rfl,fun _ => rfl,False.elim⟩
    | messageFromString outside value => exact ⟨rfl,rfl,fun own => absurd trivial own,fun _ => rfl⟩
    | createMsg content parent header metadata =>
      cases header with
      | given header => exact ⟨rfl,rfl,fun _ => rfl,False.elim⟩
      | newMsgHeader outside msgType userName => exact ⟨rfl,rfl,fun own => absurd trivial own,fun _ => rfl⟩

/-- What one step tells of the key. -/
theorem op_hidden_iff (key key' : String) (op : Op) :
    parts (op.frames mac (getSession key)) = parts (op.frames mac (getSession key')) ↔ key = key' ∨ ¬ op.Made := by
  obtain ⟨metadata,contents,given,own⟩ := message_parts (getSession key) (getSession key') op
  have own' := (message_parts (getSession key') (getSession key) op).2.2.2
  rw [frames_eq,frames_eq,parts_eq_iff]
  constructor
  · rintro ⟨headers,_⟩
    by_cases made : op.Made
    · left
      calc key = (op.message (getSession key)).header.session := (own made).symm
        _ = (op.message (getSession key')).header.session := by rw [headers]
        _ = key' := own' made
    · exact .inr made
  · rintro (rfl | free)
    · exact ⟨rfl,rfl,rfl⟩
    · exact ⟨given free,metadata,contents⟩

end

/-- Nothing but the signatures tells the two keys apart. -/
def Hidden (mac : List UInt8 → List UInt8 → List UInt8) (key key' : String) (ops : List Op) : Prop :=
  partsSent mac key ops = partsSent mac key' ops

theorem hidden_iff (mac : List UInt8 → List UInt8 → List UInt8) (key key' : String) (ops : List Op) :
    Hidden mac key key' ops ↔ key = key' ∨ ∀ op ∈ ops, ¬ op.Made := by
  rw [Hidden,partsSent,partsSent,List.map_inj_left]
  constructor
  · intro same
    by_cases one : key = key'
    · exact .inl one
    · exact .inr (fun op member => ((op_hidden_iff key key' op).mp (same op member)).resolve_left one)
  · rintro (one | free) op member
    · exact (op_hidden_iff key key' op).mpr (.inl one)
    · exact (op_hidden_iff key key' op).mpr (.inr (free op member))

/-- A kernel is nudged when it is connected to. -/
def nudged : Op := .nudge ⟨true,0,"1","2024-01-01T00:00:00Z","user",fun _ => true⟩ KernelManager.zero

theorem nudged_lost : ¬ ∀ ops, Hidden (fun _ _ => []) "a" "b" ops := by
  intro all
  have same := all [nudged]
  rw [Hidden,partsSent,partsSent,List.map_inj_left] at same
  rcases (op_hidden_iff "a" "b" nudged).mp (same nudged List.mem_cons_self) with one | free
  · exact absurd one (by decide)
  · exact free trivial

end Zasper.SigningKeys
