import Zasper.Handover
import Zasper.KernelSession
import Zasper.Runs

/-!
# The relay from a kernel to the browser

Four goroutines poll the sockets of a kernel and one writes to the WebSocket; they meet
on a channel without a buffer. An event is one atomic step of one of the five, or the
cancellation of the context, in any order. The relay hands messages over as its abstract
model does (`view_step`), so that the messages of a channel arrive as they were received
(`relayed`). A message that cannot be read ends the server.
-/
namespace Zasper.Relay
open Zasper.Handover Zasper.Slices Zasper.KernelSession Zasper.Runs
set_option linter.unusedSimpArgs false

/-- The channels that are polled. -/
inductive Channel where
  | iopub
  | control
  | stdin
  | shell
deriving DecidableEq

def Channel.socketName : Channel → String
  | .iopub => "iopub"
  | .control => "control"
  | .stdin => "stdin"
  | .shell => "shell"

/-- Where the goroutine that polls a channel stands. -/
inductive Poller where
  /-- At the top of its loop. -/
  | looping
  | receiving
  | received (zmsg : Slice Frame)
  /-- Its message is read and waits to be taken. -/
  | sending (message : List UInt8)
  | finished

/-- Where the goroutine that writes to the WebSocket stands. -/
inductive Writer where
  /-- At the top of its loop. -/
  | looping
  | receiving
  /-- It took a message, which came from the channel. -/
  | writing (channel : Channel) (message : List UInt8)
  | finished

structure State where
  pollers : Channel → Poller
  writer : Writer
  cancelled : Bool
  /-- A write to the WebSocket failed. -/
  failed : Bool
  /-- A goroutine panicked. -/
  crashed : Bool
  /-- What was received on each channel so far. -/
  messages : Channel → List (Slice Frame)
  /-- What was written to the WebSocket so far, with the channels that it came from. -/
  written : List (Channel × List UInt8)

def start : State := ⟨fun _ => .looping,.looping,false,false,false,fun _ => [],[]⟩

inductive Event where
  /-- A poller looks whether the context is cancelled. -/
  | poll (channel : Channel)
  | recv (channel : Channel) (zmsg : Slice Frame)
  | recvFailed (channel : Channel)
  /-- A poller logs its message and reads it. -/
  | deserialize (channel : Channel)
  /-- The writer looks whether the context is cancelled. -/
  | look
  /-- A poller and the writer meet. -/
  | send (channel : Channel)
  | write
  | writeFailed
  | cancel

def State.poller (s : State) (channel : Channel) (next : Poller) : State :=
  { s with pollers := Function.update s.pollers channel next }

section
variable (mac : List UInt8 → List UInt8 → List UInt8) (key : List UInt8)

/-- What an event does; an event whose party stands elsewhere does nothing. -/
def handle (s : State) : Event → State
  | .poll channel =>
    match s.pollers channel with
    | .looping => s.poller channel (if s.cancelled then .finished else .receiving)
    | _ => s
  | .recv channel zmsg =>
    match s.pollers channel with
    | .receiving =>
      { s.poller channel (.received zmsg) with
        messages := Function.update s.messages channel (s.messages channel ++ [zmsg]) }
    | _ => s
  | .recvFailed channel =>
    match s.pollers channel with
    | .receiving => s.poller channel .looping
    | _ => s
  | .deserialize channel =>
    match s.pollers channel with
    | .received zmsg =>
      match (pollMessage mac key zmsg channel.socketName).result with
      | some message => s.poller channel (.sending message)
      | none => { s with crashed := true }
    | _ => s
  | .look =>
    match s.writer with
    | .looping => { s with writer := if s.cancelled then .finished else .receiving }
    | _ => s
  | .send channel =>
    match s.pollers channel,s.writer with
    | .sending message,.receiving => { s.poller channel .looping with writer := .writing channel message }
    | _,_ => s
  | .write =>
    match s.writer with
    | .writing channel message => { s with writer := .looping, written := s.written ++ [(channel,message)] }
    | _ => s
  | .writeFailed =>
    match s.writer with
    | .writing _ _ => { s with writer := .finished, failed := true }
    | _ => s
  | .cancel => { s with cancelled := true }

def step (s : State) (e : Event) : State × Unit := (if s.crashed then s else handle mac key s e,())

/-- What a message from a channel is read as. -/
def readAs (channel : Channel) (zmsg : Slice Frame) : Option (List UInt8) :=
  (deserialize mac key zmsg channel.socketName).result

/-- What the poller of a channel holds. -/
def holds (channel : Channel) : Poller → Option (List UInt8)
  | .received zmsg => readAs mac key channel zmsg
  | .sending message => some message
  | _ => none

def Writer.holds : Writer → Option (Channel × List UInt8)
  | .writing channel message => some (channel,message)
  | _ => none

/-- The relay as it hands messages over. -/
def view (s : State) : Handover.State Channel (List UInt8) where
  supplied channel := (s.messages channel).filterMap (readAs mac key channel)
  offered channel := holds mac key channel (s.pollers channel)
  taken := s.writer.holds
  delivered := s.written

variable {mac key}

theorem view_poller (s : State) (channel : Channel) (next : Poller) : view mac key (s.poller channel next) =
    { view mac key s with
      offered := Function.update (view mac key s).offered channel (holds mac key channel next) } := by
  ext1
  · rfl
  · funext other
    by_cases same : other = channel
    · subst same
      simp only [view,State.poller,Function.update_self]
    · simp only [view,State.poller,Function.update_of_ne same]
  · rfl
  · rfl

/-- A poller that goes on with what it holds. -/
theorem view_poller_same {s : State} {channel : Channel} {next : Poller}
    (same : holds mac key channel next = holds mac key channel (s.pollers channel)) :
    view mac key (s.poller channel next) = view mac key s := by
  rw [view_poller,same]
  exact congrArg (fun offered => { view mac key s with offered := offered }) (Function.update_eq_self ..)

theorem view_recv (s : State) (channel : Channel) (zmsg : Slice Frame) :
    view mac key
        { s.poller channel (.received zmsg) with
          messages := Function.update s.messages channel (s.messages channel ++ [zmsg]) } =
      { view mac key s with
        supplied := Function.update (view mac key s).supplied channel
          ((view mac key s).supplied channel ++ (readAs mac key channel zmsg).toList)
        offered := Function.update (view mac key s).offered channel (readAs mac key channel zmsg) } := by
  ext1
  · funext other
    by_cases same : other = channel
    · subst same
      cases result : readAs mac key other zmsg <;> simp [view,result]
    · simp [view,same]
  · have offers := congrArg Handover.State.offered (@view_poller mac key s channel (.received zmsg))
    exact offers
  · rfl
  · rfl

/-- Every event hands a message over, or leaves the messages where they are. -/
theorem view_step (s : State) (e : Event) (alive : (handle mac key s e).failed = false) :
    view mac key (handle mac key s e) = view mac key s ∨
      Handover.Step (view mac key s) (view mac key (handle mac key s e)) := by
  cases e with
  | poll channel =>
    left
    cases stands : s.pollers channel <;> simp only [handle,stands]
    refine view_poller_same ?_
    rw [stands]
    split_ifs <;> rfl
  | recv channel zmsg =>
    cases stands : s.pollers channel <;> simp only [handle,stands,true_or]
    have free : (view mac key s).offered channel = none := by simp only [view,stands,holds]
    rw [view_recv]
    cases result : readAs mac key channel zmsg with
    | none =>
      left
      rw [Option.toList_none,List.append_nil,Function.update_eq_self,← free,Function.update_eq_self]
    | some message => exact .inr (.supply message free)
  | recvFailed channel =>
    left
    cases stands : s.pollers channel <;> simp only [handle,stands]
    exact view_poller_same (by rw [stands]; rfl)
  | deserialize channel =>
    left
    cases stands : s.pollers channel <;> simp only [handle,stands]
    rename_i zmsg
    cases polled : (pollMessage mac key zmsg channel.socketName).result with
    | none => rfl
    | some message =>
      refine view_poller_same ?_
      rw [stands]
      exact (deserialize_of_polled polled).symm
  | look =>
    left
    cases stands : s.writer <;> simp only [handle,stands]
    ext1
    · rfl
    · rfl
    · simp only [view,stands]
      split_ifs <;> rfl
    · rfl
  | send channel =>
    cases stands : s.pollers channel <;> simp only [handle,stands,true_or]
    rename_i message
    cases waits : s.writer <;> simp only [true_or]
    right
    have offers : (view mac key s).offered channel = some message := by simp only [view,stands,holds]
    have free : (view mac key s).taken = none := by simp only [view,waits,Writer.holds]
    have next : view mac key { s.poller channel .looping with writer := .writing channel message } =
        { view mac key (s.poller channel .looping) with taken := some (channel,message) } := rfl
    rw [next,view_poller]
    exact .hand offers free
  | write =>
    cases stands : s.writer <;> simp only [handle,stands,true_or]
    exact .inr (.deliver (by simp only [view,stands,Writer.holds]))
  | writeFailed =>
    left
    cases stands : s.writer <;> simp only [handle,stands]
    simp only [handle,stands] at alive
    cases alive
  | cancel => exact .inl rfl

/-- A failed write is not undone. -/
theorem handle_failed {s : State} (failed : s.failed = true) (e : Event) : (handle mac key s e).failed = true := by
  cases e
  all_goals
    simp only [handle]
    repeat' split
    all_goals first | exact failed | rfl

/-- The abstract relay comes as far as the relay does. -/
def Hands (mac : List UInt8 → List UInt8 → List UInt8) (key : List UInt8) (s : State) : Prop :=
  s.failed = false → Relation.ReflTransGen Handover.Step Handover.State.empty (view mac key s)

theorem step_hands (s : State) (e : Event) (hands : Hands mac key s) : Hands mac key (step mac key s e).1 := by
  simp only [step]
  split_ifs with crashed
  · exact hands
  · intro alive
    have before : s.failed = false := by
      cases failed : s.failed with
      | false => rfl
      | true => rw [handle_failed failed] at alive; cases alive
    rcases view_step s e alive with same | one
    · rw [same]
      exact hands before
    · exact (hands before).tail one

theorem run_hands (events : List Event) : Hands mac key (run (step mac key) start events).1 :=
  run_invariant step_hands (fun _ => .refl) events

end

/-- What was written of a channel, then what the writer holds of it, then what its poller
    holds, is what was received on it. Nothing of this depends on the context. -/
theorem relayed (mac : List UInt8 → List UInt8 → List UInt8) (key : List UInt8) (events : List Event)
    (alive : (run (step mac key) start events).1.failed = false) (channel : Channel) :
    let s := (run (step mac key) start events).1
    ofSource channel s.written ++ ofSource channel s.writer.holds.toList ++
        (holds mac key channel (s.pollers channel)).toList =
      (s.messages channel).filterMap (readAs mac key channel) :=
  conserved_of_steps (run_hands events alive) channel

/-- Frames whose signature is no number. -/
def unsigned : Slice Frame := ⟨[delim,[0],[],[],[],[]],[]⟩

/-- Two messages of one channel, the first of which is written. -/
def twoMessages : List Event :=
  [.poll .shell,.recv .shell unsigned,.look,.deserialize .shell,.send .shell,.poll .shell,.recv .shell unsigned,.write]

theorem twoMessages_relayed :
    let s := (run (step (fun _ _ => []) [1]) start twoMessages).1
    s.written.length = 1 ∧ ofSource .shell s.written ++ ofSource .shell s.writer.holds.toList ++
        (holds (fun _ _ => []) [1] .shell (s.pollers .shell)).toList =
      (s.messages .shell).filterMap (readAs (fun _ _ => []) [1] .shell) :=
  ⟨by decide,relayed (fun _ _ => []) [1] twoMessages (by decide) .shell⟩

end Zasper.Relay
