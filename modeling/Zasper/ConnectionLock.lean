import Mathlib.Logic.Function.Basic
import Zasper.Relay

/-!
# The lock of a kernel connection

WriteMessages takes the lock of the connection around each message that it writes; the
start of polling, the clean-up of each poller and stopPolling take it too. An event is one
atomic step of one of them, in any order. The lock is given back in every run where no
message fails to be written (`givenBack_iff`); after a message that fails WriteMessages
has returned with the lock, and nobody else ever gets it (`stuck`).
-/
namespace Zasper.ConnectionLock
open Zasper.Runs
open Zasper.Relay (Channel)
set_option linter.unusedSimpArgs false

/-! ## The goroutines -/

/-- The other places where the lock is taken. -/
inductive Client where
  /-- Before a channel is polled. -/
  | pollChannel (channel : Channel)
  /-- The deferred function of the goroutine that polled it. -/
  | cleanUp (channel : Channel)
  | stopPolling (call : Nat)
deriving DecidableEq

inductive Phase where
  | away
  | waiting
  | holding
  | finished
deriving DecidableEq

/-- Where WriteMessages stands. -/
inductive Writer where
  /-- At the top of its loop. -/
  | looping
  | receiving
  | locking (message : List UInt8)
  | writing (message : List UInt8)
  | unlocking
  /-- `Send` was closed, and the close message is written, without the lock. -/
  | closing
  | returned
deriving DecidableEq

inductive Holder where
  | writer
  | client (c : Client)
deriving DecidableEq

structure Connection where
  writer : Writer
  client : Client → Phase
  mu : Option Holder
  cancelled : Bool
  sendClosed : Bool
  pollingWait : Int
  /-- What was written to the WebSocket so far. -/
  written : List (List UInt8)

def start : Connection := ⟨.looping,fun _ => .away,none,false,false,0,[]⟩

inductive Event where
  /-- WriteMessages looks whether the context is cancelled. -/
  | look
  | receive (message : List UInt8)
  /-- It finds that `Send` is closed. -/
  | receiveClosed
  | lock
  | write (failed : Bool)
  | unlock
  | cancel
  | closeSend
  | arrives (c : Client)
  | enters (c : Client)
  | leaves (c : Client)
deriving DecidableEq

def Connection.set (s : Connection) (c : Client) (phase : Phase) : Connection :=
  { s with client := Function.update s.client c phase }

/-- A poller cleans up when the context is cancelled. -/
def arrivable (s : Connection) : Client → Bool
  | .cleanUp channel => s.client (.pollChannel channel) = .finished && s.cancelled
  | _ => true

/-- What is done under the lock. -/
def underLock (s : Connection) : Client → Connection
  | .pollChannel _ => { s with pollingWait := s.pollingWait + 1 }
  | .cleanUp _ => { s with pollingWait := s.pollingWait - 1 }
  | .stopPolling _ => { s with cancelled := true }

/-- What an event does; one that is not possible where its goroutine stands does nothing. -/
def next (s : Connection) : Event → Connection
  | .look =>
    match s.writer with
    | .looping => { s with writer := if s.cancelled then .returned else .receiving }
    | _ => s
  | .receive message =>
    match s.writer,s.sendClosed with
    | .receiving,false => { s with writer := .locking message }
    | _,_ => s
  | .receiveClosed =>
    match s.writer,s.sendClosed with
    | .receiving,true => { s with writer := .closing }
    | _,_ => s
  | .lock =>
    match s.writer,s.mu with
    | .locking message,none => { s with writer := .writing message, mu := some .writer }
    | _,_ => s
  | .write failed =>
    match s.writer with
    | .writing message =>
      -- the loop is left inside the locked region
      if failed then { s with writer := .returned }
      else { s with writer := .unlocking, written := s.written ++ [message] }
    | .closing => { s with writer := .returned }
    | _ => s
  | .unlock =>
    match s.writer with
    | .unlocking => { s with writer := .looping, mu := none }
    | _ => s
  | .cancel => { s with cancelled := true }
  | .closeSend => { s with sendClosed := true }
  | .arrives c =>
    match s.client c with
    | .away => if arrivable s c then s.set c .waiting else s
    | _ => s
  | .enters c =>
    match s.client c,s.mu with
    | .waiting,none => { s.set c .holding with mu := some (.client c) }
    | _,_ => s
  | .leaves c =>
    match s.client c with
    | .holding => { underLock (s.set c .finished) c with mu := none }
    | _ => s

def step (s : Connection) (e : Event) : Connection × Unit := (next s e,())

/-! ## Giving the lock back -/

/-- WriteMessages does not return with the lock, and whoever waits for it can get it. -/
structure GivenBack (s : Connection) : Prop where
  released : s.writer = .returned → s.mu ≠ some .writer
  free : ∀ c, s.client c = .waiting → ∃ later, (run step s later).1.client c = .holding

/-- No message fails to be written. -/
def Written (s : Connection) (e : Event) : Prop := e = .write true → ∀ message, s.writer ≠ .writing message

def Writer.holds : Writer → Bool
  | .writing _ => true
  | .unlocking => true
  | _ => false

/-- The lock is held by whoever stands between taking it and giving it back. -/
structure Held (writer : Writer) (client : Client → Phase) (mu : Option Holder) : Prop where
  writer : mu = some .writer ↔ writer.holds = true
  client : ∀ c, mu = some (.client c) ↔ client c = .holding

def Inv (s : Connection) : Prop := Held s.writer s.client s.mu

theorem inv_start : Inv start := ⟨by simp [start,Writer.holds],by simp [start]⟩

section
variable {writer next : Writer} {client : Client → Phase} {mu : Option Holder}

theorem Held.writer_same (held : Held writer client mu) (same : next.holds = writer.holds) : Held next client mu :=
  ⟨by rw [same]; exact held.writer,held.client⟩

/-- A free lock is held by nobody. -/
theorem Held.idle (held : Held writer client none) : writer.holds = false ∧ ∀ c, client c ≠ .holding := by
  refine ⟨?_,fun c holding => ?_⟩
  · cases holds : writer.holds with
    | false => rfl
    | true => exact absurd (held.writer.mpr holds) (by simp)
  · exact absurd ((held.client c).mpr holding) (by simp)

theorem Held.writer_takes (held : Held writer client none) (takes : next.holds = true) :
    Held next client (some .writer) := by
  refine ⟨by simp [takes],fun c => ?_⟩
  simpa using held.idle.2 c

theorem Held.writer_leaves (held : Held writer client mu) (holding : writer.holds = true) (leaves : next.holds = false) :
    Held next client none := by
  refine ⟨by simp [leaves],fun c => ?_⟩
  have other := held.client c
  rw [held.writer.mpr holding] at other
  simpa using other

/-- A client that does not hold the lock moves on without it. -/
theorem Held.client_same (held : Held writer client mu) {c : Client} {phase : Phase} (before : client c ≠ .holding)
    (after : phase ≠ .holding) : Held writer (Function.update client c phase) mu := by
  refine ⟨held.writer,fun d => ?_⟩
  by_cases same : d = c
  · subst same
    rw [Function.update_self,held.client d]
    exact iff_of_false before after
  · rw [Function.update_of_ne same]
    exact held.client d

theorem Held.client_takes (held : Held writer client none) (c : Client) :
    Held writer (Function.update client c .holding) (some (.client c)) := by
  refine ⟨by simp [held.idle.1],fun d => ?_⟩
  by_cases same : d = c
  · subst same
    simp
  · rw [Function.update_of_ne same]
    simpa [Ne.symm same] using held.idle.2 d

theorem Held.client_leaves (held : Held writer client mu) {c : Client} (holding : client c = .holding) :
    Held writer (Function.update client c .finished) none := by
  have mine := (held.client c).mpr holding
  refine ⟨?_,fun d => ?_⟩
  · rw [← held.writer,mine]
    simp
  · by_cases same : d = c
    · subst same
      simp
    · rw [Function.update_of_ne same,← held.client d,mine]
      simpa using Ne.symm same

end

theorem underLock_held (s : Connection) (c : Client) : (underLock s c).writer = s.writer ∧ (underLock s c).client = s.client := by
  cases c <;> exact ⟨rfl,rfl⟩

/-- One case for each event: what is not possible changes nothing. -/
theorem step_inv (s : Connection) (e : Event) (inv : Inv s) (written : Written s e) : Inv (step s e).1 := by
  have held : Held s.writer s.client s.mu := inv
  unfold step
  cases e with
  | look =>
    simp only [next]
    split
    · next looping => exact held.writer_same (by rw [looping]; split_ifs <;> rfl)
    · exact inv
  | receive message =>
    simp only [next]
    split
    · next receiving _ => exact held.writer_same (by rw [receiving]; rfl)
    · exact inv
  | receiveClosed =>
    simp only [next]
    split
    · next receiving _ => exact held.writer_same (by rw [receiving]; rfl)
    · exact inv
  | lock =>
    simp only [next]
    split
    · next free =>
      rw [free] at held
      exact held.writer_takes rfl
    · exact inv
  | write failed =>
    simp only [next]
    split
    · next message writing =>
      cases failed with
      | true => exact absurd writing (written rfl message)
      | false => exact held.writer_same (by rw [writing]; rfl)
    · next closing => exact held.writer_same (by rw [closing]; rfl)
    · exact inv
  | unlock =>
    simp only [next]
    split
    · next unlocking => exact held.writer_leaves (by rw [unlocking]; rfl) rfl
    · exact inv
  | cancel => exact inv
  | closeSend => exact inv
  | arrives c =>
    simp only [next]
    split
    · next away =>
      split_ifs
      · exact held.client_same (by simp [away]) (by simp)
      · exact inv
    · exact inv
  | enters c =>
    simp only [next]
    split
    · next free =>
      rw [free] at held
      exact held.client_takes c
    · exact inv
  | leaves c =>
    simp only [next]
    split
    · next holding =>
      obtain ⟨writer,client⟩ := underLock_held (s.set c .finished) c
      have left := held.client_leaves holding
      unfold Inv
      rw [writer,client]
      exact left
    · exact inv

/-! ## Getting the lock -/

theorem enters_free {s : Connection} {c : Client} (waits : s.client c = .waiting) (free : s.mu = none) :
    (next s (.enters c)).client c = .holding := by
  simp only [next,waits,free]
  exact Function.update_self ..

/-- Whoever holds the lock can go on and give it back. -/
theorem free_of_inv {s : Connection} (inv : Inv s) {c : Client} (waits : s.client c = .waiting) :
    ∃ later, (run step s later).1.client c = .holding := by
  have held : Held s.writer s.client s.mu := inv
  cases holder : s.mu with
  | none => exact ⟨[.enters c],enters_free waits holder⟩
  | some holder' =>
    cases holder' with
    | client d =>
      have holding := (held.client d).mp holder
      have other : c ≠ d := by
        rintro rfl
        rw [holding] at waits
        cases waits
      have after : next s (.leaves d) = { underLock (s.set d .finished) d with mu := none } := by
        simp only [next,holding]
      refine ⟨[.leaves d,.enters c],enters_free ?_ ?_⟩
      · have client : (next s (.leaves d)).client = (s.set d .finished).client := by
          rw [after]
          exact (underLock_held _ d).2
        simp only [step,client]
        exact (Function.update_of_ne other ..).trans waits
      · simp only [step,after]
    | writer =>
      have unlocked : ∀ s : Connection, s.writer = .unlocking → s.client c = .waiting →
          (run step s [.unlock,.enters c]).1.client c = .holding := by
        intro s unlocking waits
        have after : next s .unlock = { s with writer := .looping, mu := none } := by simp only [next,unlocking]
        refine enters_free ?_ ?_
        · simp only [step,after,waits]
        · simp only [step,after]
      have holds := held.writer.mp holder
      cases stands : s.writer with
      | unlocking => exact ⟨_,unlocked s stands waits⟩
      | writing message =>
        have after : next s (.write false) = { s with writer := .unlocking, written := s.written ++ [message] } := by
          simp only [next,stands,Bool.false_eq_true,↓reduceIte]
        refine ⟨[.write false,.unlock,.enters c],?_⟩
        have done := unlocked { s with writer := .unlocking, written := s.written ++ [message] } rfl waits
        rw [← after] at done
        exact done
      | looping | receiving | locking message | closing | returned =>
        rw [stands] at holds
        cases holds

theorem givenBack_of_inv {s : Connection} (inv : Inv s) : GivenBack s where
  released returned holder := by
    have holds := inv.writer.mp holder
    rw [returned] at holds
    cases holds
  free _ waits := free_of_inv inv waits

/-- A message that fails to be written takes the lock with it. -/
theorem written_of_givenBack (s : Connection) (e : Event) (inv : Inv s) (givenBack : GivenBack (step s e).1) :
    Written s e := by
  rintro rfl message writing
  have after : next s (.write true) = { s with writer := .returned } := by simp only [next,writing,↓reduceIte]
  have held : s.mu = some .writer := inv.writer.mpr (by rw [writing]; rfl)
  apply givenBack.released
  · simp only [step,after]
  · simp only [step,after,held]

/-- The lock is given back, and can be got, in every state of a run if and only if no
    message of the run fails to be written. -/
theorem givenBack_iff (events : List Event) : Always step GivenBack start events ↔ Meets step Written start events :=
  always_iff_meets (fun _ => givenBack_of_inv) step_inv written_of_givenBack inv_start events

/-- WriteMessages has returned with the lock, so that nobody else has it. -/
structure Kept (s : Connection) : Prop where
  writer : s.writer = .returned
  mu : s.mu = some .writer
  client : ∀ c, s.client c ≠ .holding

/-- Once WriteMessages has returned with the lock, whatever happens nobody else gets it. -/
theorem stuck {s : Connection} (kept : Kept s) (events : List Event) : Kept (run step s events).1 := by
  apply run_invariant _ kept
  intro s e kept
  unfold step
  cases e with
  | cancel => exact ⟨kept.writer,kept.mu,kept.client⟩
  | closeSend => exact ⟨kept.writer,kept.mu,kept.client⟩
  | arrives c =>
    simp only [next]
    split
    · split_ifs
      · refine ⟨kept.writer,kept.mu,fun d => ?_⟩
        by_cases same : d = c
        · subst same
          simp [Connection.set]
        · simpa [Connection.set,same] using kept.client d
      · exact kept
    · exact kept
  | leaves c =>
    simp only [next]
    split
    · next holding => exact absurd holding (kept.client c)
    · exact kept
  | enters c =>
    simp only [next,kept.mu]
    cases s.client c <;> exact kept
  | look | receive message | receiveClosed | lock | write failed | unlock =>
    simp only [next,kept.writer]
    exact kept

/-- The browser vanishes while a message is written. -/
theorem vanished_kept : ¬ Always step GivenBack start [.look,.receive [0x7B,0x7D],.lock,.write true] := by
  rintro ⟨-,-,-,-,last⟩
  exact last.released rfl rfl

end Zasper.ConnectionLock
