import Zasper.Kernels

/-!
# Messages from the browser

How the server decodes what the browser sends over a WebSocket, and on which socket it
passes a message on. Only `stdin` has its own case, so that the messages for the control
channel go out on the shell socket: each message goes to the socket that it names where
all of them name `shell` or `stdin` (`delivered_iff`).
-/
namespace Zasper.ClientMessages
open Zasper.JsonValues Zasper.JsonText Zasper.Structs Zasper.Encodings Zasper.KernelMessages Zasper.KernelSession
open Zasper.Kernels
set_option linter.unusedSimpArgs false

/-! ## Decoding -/

/-- A byte in a list; a number that is no byte is a mismatch. -/
def byte : Codec UInt8 where
  zero := 0
  encode b := .num (.int b.toNat)
  decode old
    | .num (.int n) => if 0 ≤ n ∧ n < 256 then ⟨UInt8.ofNat n.toNat,false⟩ else ⟨old,true⟩
    | .null => ⟨old,false⟩
    | _ => ⟨old,true⟩

/-- Bytes are read from base 64, or from a list of numbers. -/
def buffers : Codec (Option (List UInt8)) where
  zero := none
  encode := encodeBuffers
  decode old
    | .str s =>
      match base64Decode s.toList with
      | some bytes => ⟨some bytes,false⟩
      | none => ⟨old,true⟩
    | j => (list byte).decode old j

/-- An error cannot be read: its type is not known. -/
def error : Codec (Option MessageError) where
  zero := none
  encode := encodeError
  decode old
    | .null => ⟨none,false⟩
    | _ => ⟨old,true⟩

def messageFields : List (StructField Message) :=
  [ field "header" header (·.header) (fun s v => { s with header := v })
  , field "parent_header" header (·.parentHeader) (fun s v => { s with parentHeader := v })
  , field "msg_id" text (·.msgId) (fun s v => { s with msgId := v })
  , field "msg_type" text (·.msgType) (fun s v => { s with msgType := v })
  , field "content" any (·.content) (fun s v => { s with content := v })
  , field "buffers" buffers (·.buffers) (fun s v => { s with buffers := v })
  , field "metadata" any (·.metadata) (fun s v => { s with metadata := v })
  , field "tracker" int (·.tracker) (fun s v => { s with tracker := v })
  , field "error" error (·.error) (fun s v => { s with error := v })
  , field "channel" text (·.channel) (fun s v => { s with channel := v }) ]

def message : Codec Message := struct Message.zero messageFields

/-- The message in a payload; what cannot be decoded whole is none. -/
def decodes (wsMsg : List UInt8) : Option Message :=
  match message.unmarshal wsMsg Message.zero with
  | (msg,none) => some msg
  | (_,some _) => none

/-! ## Passing on -/

/-- What a payload leads to. -/
inductive Handled where
  | nothing
  | sent (channel : String) (frames : List Frame)
  /-- There is no socket for the channel. -/
  | panicked
deriving DecidableEq

section
variable (mac : List UInt8 → List UInt8 → List UInt8)

/-- Sends a message on the socket of a channel. -/
def sendStreamMsg (kwsConn : KernelWebSocketConnection) (channel : String) (msg : Message) : Handled :=
  if channel ∈ kwsConn.channels.map Prod.fst then .sent channel (serialize mac (utf8 kwsConn.key.toList) msg)
  else .panicked

def handleIncomingMessage (kwsConn : KernelWebSocketConnection) (subprotocol : String) (wsMsg : List UInt8) : Handled :=
  if kwsConn.channels.length = 0 then .nothing
  else if subprotocol = "v1.kernel.websocket.jupyter.org" then .nothing
  else
    match message.unmarshal wsMsg Message.zero with
    | (_,some _) => .nothing
    | (msg,none) =>
      if msg.channel = "stdin" then sendStreamMsg mac kwsConn "stdin" msg
      else sendStreamMsg mac kwsConn "shell" msg

/-- What is sent on the socket of a channel. -/
def Handled.on (channel : String) : Handled → Option (List Frame)
  | .sent socket frames => if socket = channel then some frames else none
  | _ => none

@[simp] theorem on_sent (socket channel : String) (frames : List Frame) :
    (Handled.sent socket frames).on channel = if socket = channel then some frames else none := rfl

/-- What the payloads lead to on the socket of a channel, in order. -/
def sentOn (kwsConn : KernelWebSocketConnection) (channel : String) (payloads : List (List UInt8)) : List (List Frame) :=
  payloads.filterMap (fun wsMsg => (handleIncomingMessage mac kwsConn "" wsMsg).on channel)

/-- A connection that the server has opened. -/
def opened (kernelId : String) (km : KernelManager) (context : Nat) : KernelWebSocketConnection :=
  ⟨kernelId,km,createStream km,km.key,context⟩

/-- Every socket gets the messages that name its channel, and no other. -/
def Delivered (kwsConn : KernelWebSocketConnection) (payloads : List (List UInt8)) : Prop :=
  (∀ channel ∈ ["shell","control","stdin"], sentOn mac kwsConn channel payloads =
    ((payloads.filterMap decodes).filter (fun msg => msg.channel = channel)).map
      (serialize mac (utf8 kwsConn.key.toList))) ∧
  ∀ wsMsg ∈ payloads, decodes wsMsg = none → handleIncomingMessage mac kwsConn "" wsMsg = .nothing

end

section
variable {mac : List UInt8 → List UInt8 → List UInt8} {kernelId : String} {km : KernelManager} {context : Nat}

/-- The socket that a message goes out on. -/
def socketFor (msg : Message) : String := if msg.channel = "stdin" then "stdin" else "shell"

theorem handleIncomingMessage_decoded {wsMsg : List UInt8} {msg : Message} (decoded : decodes wsMsg = some msg) :
    handleIncomingMessage mac (opened kernelId km context) "" wsMsg =
      .sent (socketFor msg) (serialize mac (utf8 km.key.toList) msg) := by
  unfold decodes at decoded
  split at decoded
  · rename_i read unmarshalled
    obtain rfl := Option.some.inj decoded
    rw [handleIncomingMessage,if_neg (by simp [opened,createStream]),if_neg (by decide),unmarshalled,socketFor]
    dsimp only
    split_ifs
    · exact if_pos (by simp [opened,createStream])
    · exact if_pos (by simp [opened,createStream])
  · cases decoded

theorem handleIncomingMessage_undecoded {wsMsg : List UInt8} (undecoded : decodes wsMsg = none) :
    handleIncomingMessage mac (opened kernelId km context) "" wsMsg = .nothing := by
  unfold decodes at undecoded
  split at undecoded
  · cases undecoded
  · rename_i read cause unmarshalled
    rw [handleIncomingMessage,if_neg (by simp [opened,createStream]),if_neg (by decide),unmarshalled]

/-- What goes out on a socket are the messages whose socket it is. -/
theorem sentOn_eq (channel : String) (payloads : List (List UInt8)) :
    sentOn mac (opened kernelId km context) channel payloads =
      ((payloads.filterMap decodes).filter (fun msg => socketFor msg = channel)).map
        (serialize mac (utf8 km.key.toList)) := by
  induction payloads with
  | nil => rfl
  | cons wsMsg payloads ih =>
    rw [sentOn] at ih ⊢
    cases decoded : decodes wsMsg with
    | none =>
      rw [List.filterMap_cons_none (by rw [handleIncomingMessage_undecoded decoded]; rfl),
        List.filterMap_cons_none decoded,ih]
    | some msg =>
      rw [List.filterMap_cons_some decoded,List.filterMap_cons,handleIncomingMessage_decoded decoded]
      by_cases here : socketFor msg = channel
      · simp [here,ih]
      · simp [here,ih]

/-- A message that names a channel with a case of its own. -/
def Served (msg : Message) : Prop := msg.channel = "shell" ∨ msg.channel = "stdin"

instance (msg : Message) : Decidable (Served msg) := inferInstanceAs (Decidable (_ ∨ _))

theorem socketFor_served {msg : Message} (served : Served msg) : socketFor msg = msg.channel := by
  rcases served with shell | stdin
  · rw [socketFor,if_neg (by rw [shell]; decide),shell]
  · rw [socketFor,if_pos stdin,stdin]

/-- Where the shell socket gets no more than its own messages, all messages are served. -/
theorem served_of_shell {messages : List Message} {f : Message → List Frame}
    (own : (messages.filter (fun msg => socketFor msg = "shell")).map f =
      (messages.filter (fun msg => msg.channel = "shell")).map f) : ∀ msg ∈ messages, Served msg := by
  intro msg member
  by_cases stdin : msg.channel = "stdin"
  · exact .inr stdin
  · left
    have part : (messages.filter (fun msg => msg.channel = "shell")).Sublist
        (messages.filter (fun msg => socketFor msg = "shell")) := by
      refine List.monotone_filter_right messages ?_
      intro m named
      have named : m.channel = "shell" := by simpa using named
      simpa using (socketFor_served (.inl named)).trans named
    have lengths := congrArg List.length own
    rw [List.length_map,List.length_map] at lengths
    have whole := part.eq_of_length lengths.symm
    have inShell : msg ∈ messages.filter (fun msg => socketFor msg = "shell") :=
      List.mem_filter.mpr ⟨member,by simp [socketFor,stdin]⟩
    rw [← whole] at inShell
    simpa using (List.mem_filter.mp inShell).2

end

theorem Delivered.served {mac : List UInt8 → List UInt8 → List UInt8} {kernelId : String} {km : KernelManager}
    {context : Nat} {payloads : List (List UInt8)} (delivered : Delivered mac (opened kernelId km context) payloads)
    {wsMsg : List UInt8} (member : wsMsg ∈ payloads) {msg : Message} (decoded : decodes wsMsg = some msg) : Served msg := by
  have shell := delivered.1 "shell" (by simp)
  rw [sentOn_eq] at shell
  exact served_of_shell shell msg (List.mem_filterMap.mpr ⟨wsMsg,member,decoded⟩)

theorem delivered_iff (mac : List UInt8 → List UInt8 → List UInt8) (kernelId : String) (km : KernelManager) (context : Nat)
    (payloads : List (List UInt8)) :
    Delivered mac (opened kernelId km context) payloads ↔
      ∀ wsMsg ∈ payloads, ∀ msg, decodes wsMsg = some msg → msg.channel = "shell" ∨ msg.channel = "stdin" := by
  constructor
  · exact fun delivered wsMsg member msg decoded => delivered.served member decoded
  · intro served
    refine ⟨fun channel _ => ?_,fun wsMsg _ undecoded => handleIncomingMessage_undecoded undecoded⟩
    rw [sentOn_eq]
    refine congrArg (List.map _) (List.filter_congr (fun msg member => ?_))
    obtain ⟨wsMsg,payload,decoded⟩ := List.mem_filterMap.mp member
    rw [socketFor_served (served wsMsg payload msg decoded)]

/-- A request on the control channel. -/
def interrupt : List UInt8 := marshal (.obj [("channel",.str "control")])

theorem interrupt_lost :
    ¬ Delivered (fun _ _ => []) (opened "k" KernelManager.zero 0) [interrupt] := by
  intro delivered
  have decoded : decodes interrupt = some { Message.zero with channel := "control" } := by
    simp only [decodes,interrupt,Codec.unmarshal,JsonText.unmarshal_marshal]
    decide
  exact absurd (delivered.served List.mem_cons_self decoded) (by decide)

end Zasper.ClientMessages
