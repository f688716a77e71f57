import Zasper.Runs
import Zasper.Structs

/-!
# The messages of a terminal

What a terminal in the browser sends over its socket and what the server does with it.
Input comes as text and a new size as a binary message that begins with the byte 1. The
server cuts zero bytes off both ends of a message, and the page asks for one row more
than the terminal has: `faithful_iff` says which inputs and sizes arrive.
-/
namespace Zasper.TerminalMessages
open Zasper.JsonValues Zasper.JsonText Zasper.Structs Zasper.Runs
set_option linter.unusedSimpArgs false

/-! ## The server -/

structure TTYSize where
  cols : UInt16
  rows : UInt16
  x : UInt16
  y : UInt16
deriving DecidableEq

def ttySize : Codec TTYSize := struct ⟨0,0,0,0⟩
  [ field "cols" uint16 (·.cols) (fun s v => { s with cols := v })
  , field "rows" uint16 (·.rows) (fun s v => { s with rows := v })
  , field "x" uint16 (·.x) (fun s v => { s with x := v })
  , field "y" uint16 (·.y) (fun s v => { s with y := v }) ]

/-- The terminal of the shell: what was written to it, and its size. -/
structure TTY where
  written : List UInt8
  cols : UInt16
  rows : UInt16
deriving DecidableEq

inductive WebsocketMessage where
  | text (data : List UInt8)
  | binary (data : List UInt8)
deriving DecidableEq

/-- The bytes without those of the set at either end. -/
def trim (cutset data : List UInt8) : List UInt8 :=
  ((data.dropWhile (· ∈ cutset)).reverse.dropWhile (· ∈ cutset)).reverse

/-- A size that cannot be decoded is only logged. -/
def handleResizeMessage (dataBuffer : List UInt8) (tty : TTY) : TTY :=
  let resizeMessage := trim [0x20,0x0A,0x0D,0x09,0,1] (dataBuffer.drop 1)
  match ttySize.unmarshal resizeMessage ttySize.zero with
  | (size,none) => { tty with cols := size.cols, rows := size.rows }
  | (_,some _) => tty

def writeDataToTTY (data : List UInt8) (tty : TTY) : TTY := { tty with written := tty.written ++ data }

/-- The terminal after a message. A binary message without bytes ends the server: its first
    byte is looked at. -/
def writeToTTY (message : WebsocketMessage) (tty : TTY) : Option TTY :=
  match message with
  | .text data => some (writeDataToTTY (trim [0] data) tty)
  | .binary data =>
    match trim [0] data with
    | [] => none
    | first :: rest =>
      if first = 1 then some (handleResizeMessage (first :: rest) tty) else some (writeDataToTTY (first :: rest) tty)

/-! ## The page -/

def sendSizeToBackend (cols rows : Nat) : WebsocketMessage :=
  .binary (1 :: marshal (.obj [("cols",.num (.int cols)),("rows",.num (.int (rows + 1)))]))

inductive Event where
  | input (data : List UInt8)
  | resize (cols rows : Fin 65535)
deriving DecidableEq

/-- The message that is sent. -/
def Event.message : Event → WebsocketMessage
  | .input data => .text data
  | .resize cols rows => sendSizeToBackend cols rows

/-- One message after the other; there is no terminal once the server has ended. -/
def step (tty : Option TTY) (e : Event) : Option TTY × Unit := (tty.bind (writeToTTY e.message),())

/-! ## What is to arrive -/

def Event.typed : Event → List UInt8
  | .input data => data
  | .resize _ _ => []

/-- The inputs were written one after the other, and nothing else; and after each resize
    the terminal had the size that was sent. -/
structure Faithful (tty : TTY) (events : List Event) : Prop where
  written : ∃ after, (run step (some tty) events).1 = some after ∧ after.written = tty.written ++ events.flatMap Event.typed
  sized : ∀ before cols rows after, events = before ++ .resize cols rows :: after →
    ∃ resized, (run step (some tty) (before ++ [.resize cols rows])).1 = some resized ∧
      resized.cols.toNat = cols.val ∧ resized.rows.toNat = rows.val

/-- The event is an input that neither begins nor ends with a zero byte. -/
def Sound : Event → Prop
  | .input data => data.head? ≠ some 0 ∧ data.getLast? ≠ some 0
  | .resize _ _ => False

instance : (e : Event) → Decidable (Sound e)
  | .input _ => inferInstanceAs (Decidable (_ ∧ _))
  | .resize _ _ => inferInstanceAs (Decidable False)

/-! ## Trimming -/

theorem length_trim_le (cutset data : List UInt8) : (trim cutset data).length ≤ data.length := by
  have front := (List.dropWhile_suffix (fun b => decide (b ∈ cutset)) (l := data)).length_le
  have back := (List.dropWhile_suffix (fun b => decide (b ∈ cutset))
    (l := (data.dropWhile (· ∈ cutset)).reverse)).length_le
  rw [List.length_reverse] at back
  rw [trim,List.length_reverse]
  exact back.trans front

/-- Nothing is cut off where no end is in the set. -/
theorem trim_of_ends {cutset data : List UInt8} (front : ∀ b ∈ data.head?, b ∉ cutset)
    (back : ∀ b ∈ data.getLast?, b ∉ cutset) : trim cutset data = data := by
  have kept : ∀ l : List UInt8, (∀ b ∈ l.head?, b ∉ cutset) → l.dropWhile (· ∈ cutset) = l := by
    intro l first
    cases l with
    | nil => rfl
    | cons b l => exact List.dropWhile_cons_of_neg (by simpa using first b rfl)
  rw [trim,kept data front,kept data.reverse (by simpa using back),List.reverse_reverse]

/-- What is cut off is missing. -/
theorem ends_of_trim {cutset data : List UInt8} (same : trim cutset data = data) :
    (∀ b ∈ data.head?, b ∉ cutset) ∧ ∀ b ∈ data.getLast?, b ∉ cutset := by
  have clear : ∀ l : List UInt8, ∀ b ∈ (l.dropWhile (· ∈ cutset)).head?, b ∉ cutset := by
    intro l b first
    have := List.head?_dropWhile_not (fun b => decide (b ∈ cutset)) l
    rw [first] at this
    simpa using this
  have last := clear (data.dropWhile (· ∈ cutset)).reverse
  rw [← List.reverse_reverse (List.dropWhile _ _),List.head?_reverse] at last
  have whole : data.dropWhile (· ∈ cutset) = data := by
    apply (List.dropWhile_suffix _).eq_of_length_le
    calc data.length = (trim cutset data).length := by rw [same]
      _ ≤ (data.dropWhile (· ∈ cutset)).length := by
        rw [trim,List.length_reverse]
        simpa using (List.dropWhile_suffix (fun b => decide (b ∈ cutset))
          (l := (data.dropWhile (· ∈ cutset)).reverse)).length_le
  refine ⟨?_,?_⟩
  · have first := clear data
    rwa [whole] at first
  · have ends : ((data.dropWhile (· ∈ cutset)).reverse.dropWhile (· ∈ cutset)).reverse = data := same
    rwa [ends] at last

theorem sound_iff (data : List UInt8) : Sound (.input data) ↔ trim [0] data = data := by
  constructor
  · rintro ⟨front,back⟩
    apply trim_of_ends
    · rintro b first zero
      exact front (List.mem_singleton.mp zero ▸ first)
    · rintro b last zero
      exact back (List.mem_singleton.mp zero ▸ last)
  · intro same
    obtain ⟨front,back⟩ := ends_of_trim same
    exact ⟨fun first => front 0 first (List.mem_singleton_self _),fun last => back 0 last (List.mem_singleton_self _)⟩

/-! ## Messages -/

/-- A size keeps its bytes through both trims, and is decoded with one row more. -/
theorem resize_eq (cols rows : Fin 65535) (tty : TTY) :
    writeToTTY (sendSizeToBackend cols rows) tty =
      some { tty with cols := UInt16.ofNat cols.val, rows := UInt16.ofNat (rows.val + 1) } := by
  obtain ⟨cs,text⟩ := print_obj false [("cols",.num (.int cols)),("rows",.num (.int (rows + 1)))]
  have braces : marshal (.obj [("cols",.num (.int cols)),("rows",.num (.int (rows + 1)))]) = 0x7B :: (utf8 cs ++ [0x7D]) := by
    have opening : utf8 ['{'] = [0x7B] := by decide
    have closing : utf8 ['}'] = [0x7D] := by decide
    rw [marshal,text,utf8,List.flatMap_cons,List.flatMap_append]
    exact congrArg₂ (fun front back => front ++ (utf8 cs ++ back)) opening closing
  have last : (0x7B :: (utf8 cs ++ [0x7D])).getLast? = some 0x7D := by
    rw [← List.cons_append]
    exact List.getLast?_concat
  have whole : trim [0] (1 :: 0x7B :: (utf8 cs ++ [0x7D])) = 1 :: 0x7B :: (utf8 cs ++ [0x7D]) :=
    trim_of_ends (by simp) (by simp [last])
  have inner : trim [0x20,0x0A,0x0D,0x09,0,1] (0x7B :: (utf8 cs ++ [0x7D])) = 0x7B :: (utf8 cs ++ [0x7D]) :=
    trim_of_ends (by simp) (by simp [last])
  have fits : (cols.val : Int) < 65536 := by have := cols.isLt; omega
  have fitsRows : (rows.val : Int) + 1 < 65536 := by have := rows.isLt; omega
  have decoded : ttySize.unmarshal (0x7B :: (utf8 cs ++ [0x7D])) ttySize.zero =
      (⟨UInt16.ofNat cols.val,UInt16.ofNat (rows.val + 1),0,0⟩,none) := by
    rw [← braces]
    have number : ((rows.val : Int) + 1).toNat = rows.val + 1 := by omega
    have positive : (0 : Int) ≤ rows.val + 1 := by omega
    simp [Codec.unmarshal,Codec.decodeParsed,ttySize,struct,decodeStruct,decodeMember,fieldFor,field,decodeVia,uint16,
      fits,fitsRows,number,positive]
  simp only [sendSizeToBackend,writeToTTY,braces,whole,↓reduceIte,handleResizeMessage,List.drop_succ_cons,List.drop_zero,
    inner,decoded]

/-- What the server writes for an event. -/
def arrived : Event → List UInt8
  | .input data => trim [0] data
  | .resize _ _ => []

theorem step_written (tty : TTY) (e : Event) :
    ∃ after, (step (some tty) e).1 = some after ∧ after.written = tty.written ++ arrived e := by
  cases e with
  | input data => exact ⟨_,rfl,rfl⟩
  | resize cols rows => exact ⟨_,resize_eq cols rows tty,(List.append_nil _).symm⟩

theorem run_written (tty : TTY) (events : List Event) :
    ∃ after, (run step (some tty) events).1 = some after ∧ after.written = tty.written ++ events.flatMap arrived := by
  induction events generalizing tty with
  | nil => exact ⟨tty,rfl,(List.append_nil _).symm⟩
  | cons e events ih =>
    obtain ⟨next,stepped,written⟩ := step_written tty e
    obtain ⟨after,ran,rest⟩ := ih next
    refine ⟨after,?_,?_⟩
    · rw [run,stepped]
      exact ran
    · rw [rest,written,List.flatMap_cons,List.append_assoc]

/-- The terminal has one row too many after each resize. -/
theorem run_resized (tty : TTY) (before : List Event) (cols rows : Fin 65535) :
    ∃ resized, (run step (some tty) (before ++ [.resize cols rows])).1 = some resized ∧
      resized.cols.toNat = cols.val ∧ resized.rows.toNat = rows.val + 1 := by
  obtain ⟨last,ran,-⟩ := run_written tty before
  refine ⟨{ last with cols := UInt16.ofNat cols.val, rows := UInt16.ofNat (rows.val + 1) },?_,?_,?_⟩
  · rw [run_append,ran]
    exact resize_eq cols rows last
  · have := cols.isLt
    simp only [UInt16.toNat_ofNat']
    omega
  · have := rows.isLt
    simp only [UInt16.toNat_ofNat']
    omega

theorem length_arrived_le (e : Event) : (arrived e).length ≤ e.typed.length := by
  cases e with
  | input data => exact length_trim_le [0] data
  | resize cols rows => exact le_refl 0

/-- Inputs that may only get shorter are all unchanged where they are unchanged together. -/
theorem arrived_eq {events : List Event} (same : events.flatMap arrived = events.flatMap Event.typed) :
    ∀ e ∈ events, arrived e = e.typed := by
  have shorter : ∀ events : List Event, (events.flatMap arrived).length ≤ (events.flatMap Event.typed).length := by
    intro events
    induction events with
    | nil => exact le_refl 0
    | cons e events ih =>
      have := length_arrived_le e
      simp only [List.flatMap_cons,List.length_append]
      omega
  induction events with
  | nil => simp
  | cons e events ih =>
    rw [List.flatMap_cons,List.flatMap_cons] at same
    have lengths := congrArg List.length same
    simp only [List.length_append] at lengths
    have first : (arrived e).length = e.typed.length := by
      have here := length_arrived_le e
      have later := shorter events
      omega
    obtain ⟨here,later⟩ := List.append_inj same first
    exact List.forall_mem_cons.mpr ⟨here,ih later⟩

/-- Inputs and sizes arrive as they were sent if and only if no input begins or ends with
    a zero byte and there is no resize. -/
theorem faithful_iff (tty : TTY) (events : List Event) : Faithful tty events ↔ ∀ e ∈ events, Sound e := by
  constructor
  · intro faithful e member
    cases e with
    | input data =>
      obtain ⟨after,ran,written⟩ := faithful.written
      obtain ⟨other,ranOther,arrives⟩ := run_written tty events
      obtain rfl := Option.some.inj (ran.symm.trans ranOther)
      exact (sound_iff data).mpr (arrived_eq (List.append_cancel_left (arrives.symm.trans written)) _ member)
    | resize cols rows =>
      obtain ⟨before,after,split⟩ := List.append_of_mem member
      obtain ⟨resized,ran,-,right⟩ := faithful.sized before cols rows after split
      obtain ⟨other,ranOther,-,wrong⟩ := run_resized tty before cols rows
      obtain rfl := Option.some.inj (ran.symm.trans ranOther)
      omega
  · intro sound
    refine ⟨?_,?_⟩
    · obtain ⟨after,ran,arrives⟩ := run_written tty events
      refine ⟨after,ran,?_⟩
      rw [arrives,List.flatMap_congr]
      intro e member
      cases e with
      | input data => exact (sound_iff data).mp (sound _ member)
      | resize cols rows => rfl
    · rintro before cols rows after rfl
      exact (sound (.resize cols rows) (by simp)).elim

/-- A zero byte is typed. -/
theorem zero_lost : ¬ Faithful ⟨[],80,24⟩ [.input [0]] := by
  intro faithful
  obtain ⟨after,ran,written⟩ := faithful.written
  have lost : (run step (some ⟨[],80,24⟩) [.input [0]]).1 = some ⟨[],80,24⟩ := by decide
  obtain rfl := Option.some.inj (lost.symm.trans ran)
  cases written

end Zasper.TerminalMessages
