import Mathlib.Data.List.TakeWhile
import Zasper.Slices
import Zasper.TerminalMessages

/-!
# The payloads of a terminal's socket

Any message may come over the socket of a terminal: text, binary or neither, with any
bytes. `withstood_iff` says which of them the server takes without reading a byte that is
not there, and without a new size from a message that names none: a binary message must
have a byte other than zero, and a size must have its columns and rows.
-/
namespace Zasper.TerminalPayloads
open Zasper.JsonValues Zasper.JsonText Zasper.Structs Zasper.Runs Zasper.Slices Zasper.Slices.Reading Zasper.TerminalMessages
set_option linter.unusedSimpArgs false

/-! ## The server -/

/-- A message as ReadMessage returns it. -/
structure Received where
  messageType : Int
  data : Slice UInt8

def textMessage : Int := 1

def binaryMessage : Int := 2

/-- `bytes.Trim`: the slice between its ends, nil where nothing is left. -/
def trimmed (cutset : List UInt8) (data : Slice UInt8) : Slice UInt8 :=
  match trim cutset data.elems with
  | [] => ⟨[],[]⟩
  | kept => ⟨kept,(data.elems.reverse.takeWhile (· ∈ cutset)).reverse ++ data.spare⟩

def Received.dataBuffer (m : Received) : Slice UInt8 := trimmed [0] m.data

/-- The terminal after a message, and which bytes of the trimmed buffer were read. -/
def readMessage (tty : TTY) (m : Received) : Reading TTY :=
  if m.messageType = binaryMessage then do
    let first ← m.dataBuffer.index 0
    if first = 1 then do
      let rest ← m.dataBuffer.range 1 m.dataBuffer.length
      pure (handleResizeMessage (first :: rest) tty)
    else do
      let data ← m.dataBuffer.all
      pure (writeDataToTTY data tty)
  else do
    let data ← m.dataBuffer.all
    pure (writeDataToTTY data tty)

/-- One message after the other; there is no terminal once the server has ended. -/
def step (tty : Option TTY) (m : Received) : Option TTY × Unit := (tty.bind (fun tty => (readMessage tty m).result),())

/-! ## Sizes -/

def isField (name : String) (e : String × Json) : Bool := foldName e.1 = foldName name

/-- The number in two bytes, if it is one. -/
def number : Json → Option UInt16
  | .num (.int n) => if 0 ≤ n ∧ n < 2^16 then some (UInt16.ofNat n.toNat) else none
  | _ => none

/-- The last number that an object has for a field. -/
def numberFor (name : String) (members : List (String × Json)) : Option UInt16 :=
  (members.filterMap (fun e => if isField name e then number e.2 else none)).getLast?

/-- A member of a size is a number or null. -/
def fits (e : String × Json) : Bool :=
  ["cols","rows","x","y"].all (fun name => !isField name e || e.2 = .null || (number e.2).isSome)

/-- What a JSON value says about a size: its columns and rows, as far as they are given. -/
def sizeIn : Json → Option (Option UInt16 × Option UInt16)
  | .null => some (none,none)
  | .obj members => if members.all fits then some (numberFor "cols" members,numberFor "rows" members) else none
  | _ => none

def sizeOf (resizeMessage : List UInt8) : Option (Option UInt16 × Option UInt16) :=
  (JsonText.unmarshal resizeMessage).bind sizeIn

/-- The bytes are a JSON object with `cols` and `rows` within 16 bits. -/
def SizeObject (resizeMessage : List UInt8) : Prop :=
  ∃ members, JsonText.unmarshal resizeMessage = some (.obj members) ∧ (numberFor "cols" members).isSome ∧
    (numberFor "rows" members).isSome

/-! ## What is to be withstood -/

def Received.IsResize (m : Received) : Prop := m.messageType = binaryMessage ∧ m.dataBuffer.elems.head? = some 1

/-- What is left of a resize message behind its first byte. -/
def Received.remainder (m : Received) : List UInt8 := trim [0x20,0x0A,0x0D,0x09,0,1] (m.dataBuffer.elems.drop 1)

/-- Only bytes that exist are read, and only a size object changes the size. -/
def Withstood (s : Option TTY) (m : Received) : Prop := ∀ tty, s = some tty →
  Safe m.dataBuffer.length (readMessage tty m) ∧
    (m.IsResize → ¬ SizeObject m.remainder → ∀ after, (readMessage tty m).result = some after →
      after.cols = tty.cols ∧ after.rows = tty.rows)

/-- A binary message has a byte that is not zero; and where a size is taken that lacks
    columns or rows, the terminal has it already, with 0 for what is lacking. -/
def Harmless (s : Option TTY) (m : Received) : Prop := ∀ tty, s = some tty →
  (m.messageType = binaryMessage → ∃ b ∈ m.data.elems, b ≠ 0) ∧
    (m.IsResize → ∀ cols rows, sizeOf m.remainder = some (cols,rows) → cols = none ∨ rows = none →
      tty.cols = cols.getD 0 ∧ tty.rows = rows.getD 0)

/-! ## Decoding a size -/

def ttySizeFields : List (StructField TTYSize) :=
  [ field "cols" uint16 (·.cols) (fun s v => { s with cols := v })
  , field "rows" uint16 (·.rows) (fun s v => { s with rows := v })
  , field "x" uint16 (·.x) (fun s v => { s with x := v })
  , field "y" uint16 (·.y) (fun s v => { s with y := v }) ]

/-- The names of the fields differ, so that a member goes to the one it has the name of. -/
theorem fieldFor_eq (key : String) :
    fieldFor ttySizeFields key = ttySizeFields.find? (fun f => foldName f.name = foldName key) := by
  unfold fieldFor
  cases exact : ttySizeFields.find? (fun f => f.name = key) with
  | none => rfl
  | some f =>
    have same : f.name = key := by simpa using List.find?_some exact
    subst same
    have member := List.mem_of_find?_eq_some exact
    simp only [ttySizeFields,List.mem_cons,List.not_mem_nil,or_false] at member
    rcases member with rfl | rfl | rfl | rfl <;> rfl

theorem decode_uint16 (old : UInt16) (j : Json) :
    uint16.decode old j = ⟨(number j).getD old,!(j = .null || (number j).isSome)⟩ := by
  cases j with
  | num n =>
    cases n with
    | int n =>
      simp only [uint16,number]
      split_ifs <;> simp
    | decimal d => simp [uint16,number]
  | _ => simp [uint16,number]

/-- A member goes to a field that it has the name of, up to case. -/
theorem fieldFor_fold {f : StructField TTYSize} (member : f ∈ ttySizeFields) {key : String}
    (same : foldName key = foldName f.name) : fieldFor ttySizeFields key = some f := by
  have distinct : (ttySizeFields.map StructField.name).Nodup := by decide
  rw [fieldFor_eq,same,← fieldFor_eq,fieldFor_name distinct member]

/-- What one member does to the columns, to the rows, and to whether all members fit. -/
theorem decodeMember_eq (before : Decoded TTYSize) (e : String × Json) :
    (decodeMember ttySizeFields before e).mismatch = (before.mismatch || !fits e) ∧
      (decodeMember ttySizeFields before e).value.cols =
        (if isField "cols" e then number e.2 else none).getD before.value.cols ∧
      (decodeMember ttySizeFields before e).value.rows =
        (if isField "rows" e then number e.2 else none).getD before.value.rows := by
  have apart : ∀ name ∈ ["cols","rows","x","y"], ∀ other ∈ ["cols","rows","x","y"],
      foldName name = foldName other → name = other := by decide
  by_cases known : ∃ f ∈ ttySizeFields, foldName e.1 = foldName f.name
  · obtain ⟨f,member,same⟩ := known
    have named : f.name ∈ ["cols","rows","x","y"] := List.mem_map_of_mem (f := StructField.name) member
    have only (other : String) (inside : other ∈ ["cols","rows","x","y"]) : isField other e = decide (other = f.name) := by
      rw [isField,same,decide_eq_decide]
      exact ⟨fun fold => (apart _ named _ inside fold).symm,fun here => by rw [here]⟩
    have fitting : fits e = (e.2 = .null || (number e.2).isSome) := by
      simp only [fits,List.all_cons,List.all_nil]
      rw [only "cols" (by simp),only "rows" (by simp),only "x" (by simp),only "y" (by simp)]
      simp only [List.mem_cons,List.not_mem_nil,or_false] at named
      rcases named with name | name | name | name <;> simp [name]
    rw [decodeMember,fieldFor_fold member same,fitting,only "cols" (by simp),only "rows" (by simp)]
    simp only [ttySizeFields,List.mem_cons,List.not_mem_nil,or_false] at member
    rcases member with rfl | rfl | rfl | rfl <;> simp [field,decodeVia,decode_uint16]
  · have other (name : String) (inside : name ∈ ["cols","rows","x","y"]) : isField name e = false := by
      obtain ⟨f,member,rfl⟩ := List.mem_map.mp (show name ∈ ttySizeFields.map StructField.name from inside)
      simpa [isField] using fun same => known ⟨f,member,same⟩
    have unknown : fieldFor ttySizeFields e.1 = none := by
      rw [fieldFor_eq,List.find?_eq_none]
      intro f member same
      exact known ⟨f,member,(of_decide_eq_true same).symm⟩
    have fitting : fits e = true := by
      simp only [fits,List.all_cons,List.all_nil]
      rw [other "cols" (by simp),other "rows" (by simp),other "x" (by simp),other "y" (by simp)]
      rfl
    rw [decodeMember,unknown,fitting,other "cols" (by simp),other "rows" (by simp)]
    simp

theorem numberFor_cons (name : String) (e : String × Json) (members : List (String × Json)) (old : UInt16) :
    (numberFor name (e :: members)).getD old =
      (numberFor name members).getD ((if isField name e then number e.2 else none).getD old) := by
  unfold numberFor
  rw [List.filterMap_cons]
  cases (if isField name e then number e.2 else none) with
  | none => rfl
  | some n =>
    rw [List.getLast?_cons]
    cases (members.filterMap (fun e => if isField name e then number e.2 else none)).getLast? <;> rfl

/-- By induction on the members: the size so far has the last number of each field. -/
theorem foldl_decodeMember (members : List (String × Json)) (before : Decoded TTYSize) :
    (members.foldl (decodeMember ttySizeFields) before).mismatch = (before.mismatch || !members.all fits) ∧
      (members.foldl (decodeMember ttySizeFields) before).value.cols =
        (numberFor "cols" members).getD before.value.cols ∧
      (members.foldl (decodeMember ttySizeFields) before).value.rows =
        (numberFor "rows" members).getD before.value.rows := by
  induction members generalizing before with
  | nil => simp [numberFor]
  | cons e members ih =>
    obtain ⟨mismatch,cols,rows⟩ := decodeMember_eq before e
    obtain ⟨laterMismatch,laterCols,laterRows⟩ := ih (decodeMember ttySizeFields before e)
    rw [List.foldl_cons,laterMismatch,laterCols,laterRows,mismatch,cols,rows,numberFor_cons,numberFor_cons,List.all_cons]
    refine ⟨?_,rfl,rfl⟩
    cases fits e <;> simp

/-- A resize sets the size that its remainder names, with 0 for what it lacks; another
    remainder leaves the terminal as it is. -/
theorem handleResizeMessage_eq (dataBuffer : List UInt8) (tty : TTY) :
    handleResizeMessage dataBuffer tty =
      match sizeOf (trim [0x20,0x0A,0x0D,0x09,0,1] (dataBuffer.drop 1)) with
      | some (cols,rows) => { tty with cols := cols.getD 0, rows := rows.getD 0 }
      | none => tty := by
  unfold handleResizeMessage sizeOf
  generalize trim [0x20,0x0A,0x0D,0x09,0,1] (dataBuffer.drop 1) = resizeMessage
  simp only [Codec.unmarshal,Codec.decodeParsed]
  cases JsonText.unmarshal resizeMessage with
  | none => rfl
  | some j =>
    cases j with
    | obj members =>
      obtain ⟨mismatch,cols,rows⟩ := foldl_decodeMember members ⟨⟨0,0,0,0⟩,false⟩
      have decoded : ttySize.decode ttySize.zero (.obj members) =
          members.foldl (decodeMember ttySizeFields) ⟨⟨0,0,0,0⟩,false⟩ := rfl
      simp only [decoded,mismatch,Option.bind_some,sizeIn]
      cases all : members.all fits with
      | true => simp [cols,rows]
      | false => simp
    | null => rfl
    | bool b => rfl
    | num n => rfl
    | str s => rfl
    | arr items => rfl

example : sizeOf (marshal (.obj [("x",.null)])) = some (none,none) := by
  rw [sizeOf,JsonText.unmarshal_marshal]
  decide

/-! ## One message -/

theorem elems_trimmed (cutset : List UInt8) (data : Slice UInt8) : (trimmed cutset data).elems = trim cutset data.elems := by
  unfold trimmed
  cases trim cutset data.elems <;> rfl

/-- Nothing is left where there is nothing but what is cut off. -/
theorem trim_eq_nil {cutset data : List UInt8} : trim cutset data = [] ↔ ∀ b ∈ data, b ∈ cutset := by
  unfold trim
  rw [List.reverse_eq_nil_iff,List.dropWhile_eq_nil_iff]
  constructor
  · intro cut b member
    rw [← List.takeWhile_append_dropWhile (p := (· ∈ cutset)) (l := data)] at member
    rcases List.mem_append.mp member with front | back
    · simpa using List.mem_takeWhile_imp front
    · simpa using cut b (by simpa using back)
  · intro all b member
    have inside := (List.dropWhile_suffix _).subset (List.mem_reverse.mp member)
    simpa using all b inside

/-- A message of another type is written to the terminal. -/
theorem readMessage_other {tty : TTY} {m : Received} (other : m.messageType ≠ binaryMessage) :
    Gives m.dataBuffer.length (readMessage tty m) (writeDataToTTY m.dataBuffer.elems tty) := by
  rw [readMessage,if_neg other]
  exact gives_bind (Slice.gives_all _) (gives_pure _ _)

/-- A binary message with bytes is a resize, or written to the terminal. -/
theorem readMessage_binary {tty : TTY} {m : Received} (binary : m.messageType = binaryMessage) {first : UInt8}
    {rest : List UInt8} (bytes : m.dataBuffer.elems = first :: rest) :
    Gives m.dataBuffer.length (readMessage tty m)
      (if first = 1 then handleResizeMessage (first :: rest) tty else writeDataToTTY (first :: rest) tty) := by
  rw [readMessage,if_pos binary]
  refine gives_bind (Slice.gives_index (a := first) (by rw [bytes]; rfl)) ?_
  split_ifs with resize
  · have inside : 1 ≤ m.dataBuffer.length := by simp [Slice.length,bytes]
    have tail := Slice.gives_range inside (le_refl m.dataBuffer.length)
    have tailBytes : (m.dataBuffer.elems.drop 1).take (m.dataBuffer.length - 1) = rest := by
      simp [Slice.length,bytes]
    rw [tailBytes] at tail
    exact gives_bind tail (gives_pure _ _)
  · rw [← bytes]
    exact gives_bind (Slice.gives_all _) (gives_pure _ _)

/-- Of a binary message without bytes a byte is read that is not there. -/
theorem readMessage_blank {tty : TTY} {m : Received} (binary : m.messageType = binaryMessage)
    (blank : m.dataBuffer.elems = []) : ¬ Safe m.dataBuffer.length (readMessage tty m) := by
  intro safe
  rw [readMessage,if_pos binary] at safe
  have read := ((Slice.safe_index ..).mp (safe_bind.mp safe).1).1
  simp [Slice.length,blank] at read

/-- The messages of the page are taken as before. -/
theorem readMessage_eq (tty : TTY) (message : WebsocketMessage) (spare : List UInt8) :
    (readMessage tty (match message with
      | .text data => ⟨textMessage,⟨data,spare⟩⟩
      | .binary data => ⟨binaryMessage,⟨data,spare⟩⟩)).result = writeToTTY message tty := by
  cases message with
  | text data =>
    have other : textMessage ≠ binaryMessage := by decide
    rw [(@readMessage_other tty ⟨textMessage,⟨data,spare⟩⟩ other).1,Received.dataBuffer,elems_trimmed]
    rfl
  | binary data =>
    have elems := elems_trimmed [0] ⟨data,spare⟩
    dsimp only at elems
    cases bytes : trim [0] data with
    | nil =>
      rw [bytes] at elems
      simp [readMessage,writeToTTY,bytes,Received.dataBuffer,Slice.index,elems]
    | cons first rest =>
      rw [bytes] at elems
      rw [(@readMessage_binary tty ⟨binaryMessage,⟨data,spare⟩⟩ rfl _ _ elems).1]
      simp only [writeToTTY,bytes]
      split_ifs <;> rfl

/-- What is not a size object, but is taken as a size, lacks columns or rows. -/
theorem not_sizeObject_iff {resizeMessage : List UInt8} {cols rows : Option UInt16}
    (taken : sizeOf resizeMessage = some (cols,rows)) : ¬ SizeObject resizeMessage ↔ cols = none ∨ rows = none := by
  unfold sizeOf at taken
  unfold SizeObject
  cases parsed : JsonText.unmarshal resizeMessage with
  | none =>
    rw [parsed] at taken
    cases taken
  | some j =>
    rw [parsed,Option.bind_some] at taken
    cases j with
    | null =>
      cases taken
      simp
    | obj members =>
      simp only [sizeIn] at taken
      split_ifs at taken with all
      cases taken
      simp only [Option.some.injEq,Json.obj.injEq,exists_eq_left',Option.isSome_iff_ne_none]
      tauto
    | bool b => cases taken
    | num n => cases taken
    | str s => cases taken
    | arr items => cases taken

theorem withstood_iff_harmless (s : Option TTY) (m : Received) : Withstood s m ↔ Harmless s m := by
  refine forall₂_congr (fun tty _ => ?_)
  have bytes : m.dataBuffer.elems = trim [0] m.data.elems := elems_trimmed ..
  have given : m.dataBuffer.elems = [] ↔ ¬ ∃ b ∈ m.data.elems, b ≠ 0 := by
    rw [bytes,trim_eq_nil]
    simp
  by_cases binary : m.messageType = binaryMessage
  · cases elems : m.dataBuffer.elems with
    | nil =>
      constructor
      · rintro ⟨safe,-⟩
        exact absurd safe (readMessage_blank binary elems)
      · rintro ⟨nonzero,-⟩
        exact absurd (nonzero binary) (given.mp elems)
    | cons first rest =>
      have gives := @readMessage_binary tty m binary first rest elems
      have nonzero : ∃ b ∈ m.data.elems, b ≠ 0 := by
        by_contra none
        rw [given.mpr none] at elems
        cases elems
      have resize : m.IsResize ↔ first = 1 := by simp [Received.IsResize,binary,elems]
      by_cases one : first = 1
      · have behind : trim [0x20,0x0A,0x0D,0x09,0,1] (m.dataBuffer.elems.drop 1) = m.remainder := rfl
        rw [if_pos one,← elems,handleResizeMessage_eq,behind] at gives
        simp only [gives.safe,gives.1,resize.mpr one,nonzero,true_and,true_implies,implies_true]
        cases taken : sizeOf m.remainder with
        | none => simp
        | some size =>
          obtain ⟨cols,rows⟩ := size
          simp only [not_sizeObject_iff taken,Option.some.injEq,forall_eq']
          constructor
          · rintro kept c r same lacking
            cases same
            obtain ⟨sameCols,sameRows⟩ := kept lacking
            exact ⟨sameCols.symm,sameRows.symm⟩
          · intro kept lacking
            obtain ⟨sameCols,sameRows⟩ := kept cols rows rfl lacking
            exact ⟨sameCols.symm,sameRows.symm⟩
      · have other : ¬ m.IsResize := fun isResize => one (resize.mp isResize)
        exact iff_of_true ⟨gives.safe,fun isResize => absurd isResize other⟩
          ⟨fun _ => nonzero,fun isResize => absurd isResize other⟩
  · have other : ¬ m.IsResize := fun isResize => binary isResize.1
    exact iff_of_true ⟨(readMessage_other binary).safe,fun isResize => absurd isResize other⟩
      ⟨fun isBinary => absurd isBinary binary,fun isResize => absurd isResize other⟩

/-- Every message of a sequence is withstood if and only if every one is harmless. -/
theorem withstood_iff (tty : TTY) (messages : List Received) :
    Meets step Withstood (some tty) messages ↔ Meets step Harmless (some tty) messages :=
  @meets_iff_meets _ _ _ _ _ (fun _ => True) _ (fun s m _ => withstood_iff_harmless s m) (fun _ _ _ _ => trivial) _ trivial
    messages

/-- The server goes on after messages that it withstands. -/
theorem alive_of_withstood (tty : TTY) {messages : List Received} (withstood : Meets step Withstood (some tty) messages) :
    ∃ after, (run step (some tty) messages).1 = some after := by
  induction messages generalizing tty with
  | nil => exact ⟨tty,rfl⟩
  | cons m messages ih =>
    obtain ⟨here,later⟩ := withstood
    obtain ⟨next,result⟩ := Option.isSome_iff_exists.mp (here tty rfl).1.1
    have stepped : (step (some tty) m).1 = some next := result
    rw [stepped] at later
    rw [run,stepped]
    exact ih next later

/-- A binary message without bytes ends the server. -/
theorem blank_crashes : ¬ Meets step Withstood (some ⟨[],80,24⟩) [⟨binaryMessage,⟨[],[]⟩⟩] := by
  rintro ⟨withstood,-⟩
  exact readMessage_blank rfl rfl (withstood _ rfl).1

end Zasper.TerminalPayloads
