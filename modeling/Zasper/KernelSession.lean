import Zasper.KernelMessages
import Zasper.Slices

/-!
# The kernel session

How a message is cut into signed frames (`serialize`) and read from the frames that
a kernel socket received (`deserialize`). The message authentication code is a
parameter: any function of the key and of the bytes written to it.

A message comes back whole when it has no buffers and its parent header is its own
header (`carried_iff`). Received frames are read without a panic when the delimiter
and five more frames are among them, and only then (`survives_iff`).
-/
namespace Zasper.KernelSession
open Zasper.JsonValues Zasper.JsonText Zasper.Structs Zasper.Encodings Zasper.Slices Zasper.Slices.Reading
open Zasper.KernelMessages
set_option linter.unusedSimpArgs false

abbrev Frame := List UInt8

/-- `<IDS|MSG>`. -/
def delim : Frame := utf8 "<IDS|MSG>".toList

section
variable (mac : List UInt8 → List UInt8 → List UInt8) (key : List UInt8)

/-- The signature of a list of frames, in hexadecimal digits. -/
def sign (frames : List Frame) : Frame := hexEncode (mac key frames.flatten)

/-- The delimiter, the signature and the four parts of a message. The header also
    stands in the parent header's place, and the buffers are not sent. -/
def serialize (msg : Message) : List Frame :=
  let realMessage :=
    [ marshal (header.encode msg.header)
    , marshal (header.encode msg.header)
    , marshal msg.metadata.json
    , marshal msg.content.json ]
  [delim,sign mac key realMessage] ++ realMessage

/-- What is wrong with the signature of the frames. -/
def checkSignature (signed : List Frame) (signature : Frame) : Option MessageError :=
  match hexDecode signature with
  | none => some .decodingSignature
  | some signature => if mac key signed.flatten = signature then none else some .comparingSignature

/-- An error that was met, or else the one met before. -/
def orError (part : String) (cause : Option UnmarshalError) (before : Option MessageError) : Option MessageError :=
  match cause with
  | some cause => some (.unmarshalling part cause)
  | none => before

/-- The message in four frames; of several errors the last one is kept. -/
def unmarshalParts (headerFrame parentFrame metadataFrame contentFrame : Frame) : Message :=
  let (h,headerError) := header.unmarshal headerFrame header.zero
  let (p,parentError) := header.unmarshal parentFrame header.zero
  let (m,metadataError) := any.unmarshal metadataFrame .null
  let (c,contentError) := any.unmarshal contentFrame .null
  { Message.zero with
    header := h
    parentHeader := p
    metadata := m
    content := c
    error := orError "Content" contentError (orError "Metadata" metadataError
      (orError "ParentHeader" parentError (orError "Header" headerError none))) }

/-- A session without a key does not check signatures. -/
def verify (frames : Slice Frame) (i : Nat) : Reading (Option MessageError) :=
  if key = [] then pure none
  else do
    let signed ← frames.range (i+2) (i+6)
    let signature ← frames.index (i+1)
    pure (checkSignature mac key signed signature)

/-- The JSON of the message in the frames of a socket. -/
def deserialize (frames : Slice Frame) (chanel : String) : Reading (List UInt8) := do
  let _ ← frames.all
  let i ← frames.find (· = delim)
  match ← verify mac key frames i with
  | some invalid => pure (marshal (encodeMessage { Message.zero with error := some invalid }))
  | none => do
    let headerFrame ← frames.index (i+2)
    let parentFrame ← frames.index (i+3)
    let metadataFrame ← frames.index (i+4)
    let contentFrame ← frames.index (i+5)
    let msg := unmarshalParts headerFrame parentFrame metadataFrame contentFrame
    pure (marshal (encodeMessage { msg with channel := chanel }))

/-- What `pollChannel` does with a received message: its first two frames are logged. -/
def pollMessage (frames : Slice Frame) (socketName : String) : Reading (List UInt8) := do
  let _ ← frames.index 0
  let _ ← frames.index 1
  deserialize mac key frames socketName

/-- The message in the signature and the four frames behind it. -/
def received (signature headerFrame parentFrame metadataFrame contentFrame : Frame) (chanel : String) : Message :=
  match if key = [] then none
    else checkSignature mac key [headerFrame,parentFrame,metadataFrame,contentFrame] signature with
  | some invalid => { Message.zero with error := some invalid }
  | none => { unmarshalParts headerFrame parentFrame metadataFrame contentFrame with channel := chanel }

end

/-- The frames behind the first delimiter. -/
def afterDelim (frames : List Frame) : List Frame := (frames.dropWhile (· ≠ delim)).tail

/-- The delimiter is missing, or fewer than five frames follow it. -/
def Short (frames : List Frame) : Prop := (afterDelim frames).length < 5

/-! ## Frames with a whole message -/

section
variable {mac : List UInt8 → List UInt8 → List UInt8} {key : List UInt8} {frames : Slice Frame} {ids more : List Frame}
  {signature h p m c : Frame}

theorem gives_delim {rest : List Frame} (elems : frames.elems = ids ++ delim :: rest) (others : delim ∉ ids) :
    Gives frames.length (frames.find (· = delim)) ids.length := by
  refine Slice.gives_find elems (fun frame inside => ?_) (by simp)
  have other : frame ≠ delim := fun same => others (same ▸ inside)
  simpa using other

theorem gives_verify (elems : frames.elems = ids ++ delim :: signature :: h :: p :: m :: c :: more) :
    Gives frames.length (verify mac key frames ids.length)
      (if key = [] then none else checkSignature mac key [h,p,m,c] signature) := by
  unfold verify
  split_ifs with unsigned
  · exact gives_pure _ _
  · have signed : (frames.elems.drop (ids.length+2)).take (ids.length+6 - (ids.length+2)) = [h,p,m,c] := by
      rw [elems,List.drop_append,List.drop_eq_nil_of_le (by omega)]
      simp [Nat.add_sub_cancel_left,show ids.length+6 - (ids.length+2) = 4 by omega]
    have inside : ids.length+6 ≤ frames.length := by simp [Slice.length,elems]
    have part := Slice.gives_range (Nat.add_le_add_left (by decide : 2 ≤ 6) ids.length) inside
    rw [signed] at part
    exact gives_bind part (gives_bind (Slice.gives_index (by simp [elems])) (gives_pure _ _))

/-- A message is read from the frames behind the first delimiter; further frames are
    not looked at. -/
theorem gives_deserialize (elems : frames.elems = ids ++ delim :: signature :: h :: p :: m :: c :: more)
    (others : delim ∉ ids) (chanel : String) :
    Gives frames.length (deserialize mac key frames chanel)
      (marshal (encodeMessage (received mac key signature h p m c chanel))) := by
  refine gives_bind (Slice.gives_all frames) (gives_bind (gives_delim elems others)
    (gives_bind (gives_verify elems) ?_))
  unfold received
  split
  · exact gives_pure _ _
  · refine gives_bind (Slice.gives_index (a := h) ?_) (gives_bind (Slice.gives_index (a := p) ?_)
      (gives_bind (Slice.gives_index (a := m) ?_) (gives_bind (Slice.gives_index (a := c) ?_) (gives_pure _ _))))
    all_goals simp [elems]

theorem gives_pollMessage (elems : frames.elems = ids ++ delim :: signature :: h :: p :: m :: c :: more)
    (others : delim ∉ ids) (socketName : String) :
    Gives frames.length (pollMessage mac key frames socketName)
      (marshal (encodeMessage (received mac key signature h p m c socketName))) := by
  have logged : ∀ i < 2, ∃ frame, frames.elems[i]? = some frame := by
    intro i small
    exact ⟨_,List.getElem?_eq_getElem (by simp [elems]; omega)⟩
  obtain ⟨first,atFirst⟩ := logged 0 (by omega)
  obtain ⟨second,atSecond⟩ := logged 1 (by omega)
  exact gives_bind (Slice.gives_index atFirst) (gives_bind (Slice.gives_index atSecond)
    (gives_deserialize elems others socketName))

/-! ## Frames without one -/

theorem dropWhile_others (others : delim ∉ ids) (rest : List Frame) :
    (ids ++ rest).dropWhile (· ≠ delim) = rest.dropWhile (· ≠ delim) := by
  refine List.dropWhile_append_of_pos ?_
  intro frame inside
  simpa using fun same : frame = delim => others (same ▸ inside)

theorem afterDelim_missing (missing : delim ∉ ids) : afterDelim ids = [] := by
  have dropped := dropWhile_others missing []
  rw [List.append_nil] at dropped
  rw [afterDelim,dropped]
  rfl

theorem afterDelim_found (others : delim ∉ ids) (rest : List Frame) : afterDelim (ids ++ delim :: rest) = rest := by
  rw [afterDelim,dropWhile_others others]
  simp

/-- Where the delimiter and five more frames are. -/
theorem whole_of_not_short {frames : List Frame} (whole : ¬ Short frames) :
    ∃ ids signature h p m c more, frames = ids ++ delim :: signature :: h :: p :: m :: c :: more ∧ delim ∉ ids := by
  rw [Short,Nat.not_lt] at whole
  by_cases present : delim ∈ frames
  · obtain ⟨ids,rest,rfl,others⟩ := List.eq_append_cons_of_mem present
    rw [afterDelim_found others] at whole
    match rest,whole with
    | signature :: h :: p :: m :: c :: more,_ => exact ⟨ids,signature,h,p,m,c,more,rfl,others⟩
  · rw [afterDelim_missing present] at whole
    exact absurd whole (by decide)

/-- Of a short list a frame that is not there is read, or none at all. -/
theorem not_safe_of_short (short : Short frames.elems) (socketName : String) :
    ¬ Safe frames.length (pollMessage mac key frames socketName) := by
  intro safe
  have safe : Safe frames.length (deserialize mac key frames socketName) := by
    obtain ⟨first,safe⟩ := safe_bind.mp safe
    obtain ⟨second,safe⟩ := safe_bind.mp (safe _ (Option.some_get first.1).symm)
    exact safe _ (Option.some_get second.1).symm
  obtain ⟨search,safe⟩ := safe_bind.mp ((safe_bind.mp safe).2 _ rfl)
  rcases Slice.split_first (· = delim) frames.elems with missing | ⟨ids,found,rest,elems,others,here⟩
  · rw [Slice.find,Safe,Slice.seek_missing missing] at search
    exact absurd search.1 (by simp)
  · obtain rfl : found = delim := by simpa using here
    have others : delim ∉ ids := fun inside => by simpa using others _ inside
    rw [elems,Short,afterDelim_found others] at short
    have length : frames.length = ids.length + 1 + rest.length := by simp [Slice.length,elems]; omega
    obtain ⟨verified,safe⟩ := safe_bind.mp (safe _ (gives_delim elems others).1)
    by_cases unsigned : key = []
    · -- without a key the frames are looked at one by one
      have result : (verify mac key frames ids.length).result = some none := by simp [verify,unsigned]
      have safe := safe none result
      obtain ⟨first,safe⟩ := safe_bind.mp safe
      obtain ⟨second,safe⟩ := safe_bind.mp (safe _ (Option.some_get first.1).symm)
      obtain ⟨third,safe⟩ := safe_bind.mp (safe _ (Option.some_get second.1).symm)
      obtain ⟨fourth,_⟩ := safe_bind.mp (safe _ (Option.some_get third.1).symm)
      have := ((Slice.safe_index ..).mp fourth).1
      omega
    · rw [verify,if_neg unsigned] at verified
      have := Slice.safe_range (by omega) (safe_bind.mp verified).1
      omega

/-- What is polled is what is read, where logging it does not fail. -/
theorem deserialize_of_polled {socketName : String} {message : List UInt8}
    (polled : (pollMessage mac key frames socketName).result = some message) :
    (deserialize mac key frames socketName).result = some message := by
  unfold pollMessage at polled
  simp only [bind_result] at polled
  obtain ⟨first,_,polled⟩ := Option.bind_eq_some_iff.mp polled
  obtain ⟨second,_,polled⟩ := Option.bind_eq_some_iff.mp polled
  exact polled

/-- Only frames that exist are read, and a short list gives a message with an error. -/
def Survives (mac : List UInt8 → List UInt8 → List UInt8) (key : List UInt8) (frames : Slice Frame)
    (socketName : String) : Prop :=
  Safe frames.length (pollMessage mac key frames socketName) ∧
    (Short frames.elems → ∃ msg, (pollMessage mac key frames socketName).result = some (marshal (encodeMessage msg)) ∧
      msg.error ≠ none)

theorem survives_iff (mac : List UInt8 → List UInt8 → List UInt8) (key : List UInt8) (frames : Slice Frame)
    (socketName : String) : Survives mac key frames socketName ↔ 5 ≤ (afterDelim frames.elems).length := by
  constructor
  · rintro ⟨safe,_⟩
    by_contra short
    exact not_safe_of_short (Nat.lt_of_not_le short) socketName safe
  · intro whole
    have notShort : ¬ Short frames.elems := Nat.not_lt.mpr whole
    obtain ⟨ids,signature,h,p,m,c,more,elems,others⟩ := whole_of_not_short notShort
    exact ⟨(gives_pollMessage elems others socketName).safe,fun short => absurd short notShort⟩

/-- A message without frames. -/
theorem noFrames_lost : ¬ Survives (fun _ _ => []) [] ⟨[],[]⟩ "iopub" := by
  rintro ⟨⟨result,_⟩,_⟩
  revert result
  decide

end

/-! ## Messages that are sent and received -/

section
variable {mac : List UInt8 → List UInt8 → List UInt8} {key : List UInt8}

/-- The frames that a socket puts before a message. -/
structure Identities where
  frames : List Frame
  others : delim ∉ frames

/-- The message that comes back: its parent header is its header, its buffers are gone. -/
def carried (msg : Message) (chanel : String) : Message :=
  { Message.zero with
    header := msg.header
    parentHeader := msg.header
    metadata := msg.metadata
    content := msg.content
    channel := chanel }

theorem checkSignature_sign (signed : List Frame) : checkSignature mac key signed (sign mac key signed) = none := by
  rw [checkSignature,sign,hexDecode_hexEncode]
  exact if_pos rfl

theorem received_sent (mac : List UInt8 → List UInt8 → List UInt8) (key : List UInt8) (msg : Message) (chanel : String) :
    let h := marshal (header.encode msg.header)
    let m := marshal msg.metadata.json
    let c := marshal msg.content.json
    received mac key (sign mac key [h,h,m,c]) h h m c chanel = carried msg chanel := by
  intro h m c
  have headers : header.unmarshal h header.zero = (msg.header,none) := Structs.unmarshal_marshal header_inverse.rereads _
  have metadata : any.unmarshal m .null = (msg.metadata,none) := Structs.unmarshal_marshal any_inverse.rereads _
  have content : any.unmarshal c .null = (msg.content,none) := Structs.unmarshal_marshal any_inverse.rereads _
  unfold received unmarshalParts
  simp only [checkSignature_sign,ite_self,headers,metadata,content]
  rfl

theorem deserialize_serialize (ids : Identities) (spare : List Frame) (msg : Message) (chanel : String) :
    (deserialize mac key ⟨ids.frames ++ serialize mac key msg,spare⟩ chanel).result =
      some (marshal (encodeMessage (carried msg chanel))) := by
  rw [← received_sent mac key msg chanel]
  exact (gives_deserialize rfl ids.others chanel).1

/-- The JSON of a message tells everything but which error the message has. -/
theorem encodeMessage_inj {a b : Message} (same : encodeMessage a = encodeMessage b) :
    a.header = b.header ∧ a.parentHeader = b.parentHeader ∧ a.metadata = b.metadata ∧ a.content = b.content ∧
      encodeBuffers a.buffers = encodeBuffers b.buffers ∧ a.channel = b.channel ∧
      encodeError a.error = encodeError b.error := by
  simp only [encodeMessage,Json.obj.injEq,List.cons.injEq,Prod.mk.injEq,true_and,and_true,Json.str.injEq] at same
  obtain ⟨headers,parents,_,_,contents,buffers,metadata,_,errors,chanels⟩ := same
  exact ⟨header_inverse.inj headers,header_inverse.inj parents,any_inverse.inj metadata,any_inverse.inj contents,
    buffers,chanels,errors⟩

/-- Nil and empty buffers are the same buffers. -/
def bufferBytes (buffers : Option (List UInt8)) : List UInt8 := buffers.getD []

/-- The message comes back whole, without an error. -/
def Carried (mac : List UInt8 → List UInt8 → List UInt8) (key : List UInt8) (ids : Identities) (spare : List Frame)
    (msg : Message) (chanel : String) : Prop :=
  ∃ back, (deserialize mac key ⟨ids.frames ++ serialize mac key msg,spare⟩ chanel).result =
      some (marshal (encodeMessage back)) ∧
    back.error = none ∧ back.channel = chanel ∧ back.header = msg.header ∧ back.parentHeader = msg.parentHeader ∧
    back.metadata = msg.metadata ∧ back.content = msg.content ∧ bufferBytes back.buffers = bufferBytes msg.buffers

/-- What a message must be like to come back whole. -/
theorem Carried.parts {ids : Identities} {spare : List Frame} {msg : Message} {chanel : String}
    (whole : Carried mac key ids spare msg chanel) : msg.parentHeader = msg.header ∧ bufferBytes msg.buffers = [] := by
  obtain ⟨back,sent,_,_,_,parent,_,_,buffers⟩ := whole
  rw [deserialize_serialize] at sent
  have same : encodeMessage (carried msg chanel) = encodeMessage back := marshal_inj (Option.some.inj sent)
  obtain ⟨_,parents,_,_,wrote,_⟩ := encodeMessage_inj same
  refine ⟨parent.symm.trans parents.symm,?_⟩
  rw [← buffers]
  cases kept : back.buffers with
  | none => rfl
  | some bytes => simp [carried,kept,encodeBuffers,Message.zero] at wrote

theorem carried_iff (mac : List UInt8 → List UInt8 → List UInt8) (key : List UInt8) (ids : Identities)
    (spare : List Frame) (msg : Message) (chanel : String) :
    Carried mac key ids spare msg chanel ↔ msg.parentHeader = msg.header ∧ bufferBytes msg.buffers = [] := by
  constructor
  · exact Carried.parts
  · rintro ⟨parent,buffers⟩
    exact ⟨carried msg chanel,deserialize_serialize ids spare msg chanel,rfl,rfl,rfl,parent.symm,rfl,rfl,buffers.symm⟩

/-- A request that answers no other message. -/
def request : Message := { Message.zero with header := ⟨"1","execute_request","user","s","2024-01-01T00:00:00Z","5.4"⟩ }

theorem request_lost : ¬ Carried (fun _ _ => []) [] ⟨[],by simp⟩ [] request "shell" := by
  intro whole
  exact absurd whole.parts.1 (by decide)

end
end Zasper.KernelSession
