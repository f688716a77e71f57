import Mathlib.Logic.Function.Basic
import Zasper.Runs
import Zasper.JsonText

/-!
# Writers on a terminal's socket

The handler, the keep-alive goroutine and readFromTTY write to one connection, each
where its own loop stands; nothing keeps one out while another is in WriteMessage.
No two writes overlap in a run where each of the loops is only woken while the other
one has nothing to write (`alone_of_quiet`).
-/
namespace Zasper.TerminalWriters
open Zasper.JsonText Zasper.Runs
set_option linter.unusedSimpArgs false

/-! ## The goroutines -/

inductive Goroutine where
  | handler
  | keepAlive
  | readFromTTY
deriving DecidableEq

inductive MessageType where
  | text
  | binary
  | ping
deriving DecidableEq

structure Message where
  messageType : MessageType
  data : List UInt8
deriving DecidableEq

/-- Where a goroutine is: not started yet, in a call that does not write, before
    WriteMessage, in it, or past its last write. -/
inductive Phase where
  | unborn
  | away
  | ready (message : Message)
  | writing (message : Message)
  | ended
deriving DecidableEq

structure Connection where
  phase : Goroutine → Phase
  errorCounter : Nat

def Connection.set (s : Connection) (g : Goroutine) (phase : Phase) : Connection :=
  { s with phase := Function.update s.phase g phase }

def defaultConnectionErrorLimit : Nat := 10

def maxBufferSizeBytes : Nat := 512

def sendErrorMessage (message : String) : Phase := .ready ⟨.text,utf8 message.toList⟩

def ping : Phase := .ready ⟨.ping,utf8 "keepalive".toList⟩

/-- The head of the loop of readFromTTY. -/
def readLoop (errorCounter : Nat) : Phase := if errorCounter > defaultConnectionErrorLimit then .ended else .away

inductive Event where
  /-- startTTY has returned, with the text of its error if there was one. -/
  | startTTY (err : Option String)
  /-- The sleep after a ping is over, and the last pong is too long ago or not. -/
  | slept (expired : Bool)
  /-- tty.Read has returned with what was there to read, or with an error. -/
  | read (output : Option (List UInt8))
  | starts (g : Goroutine)
  | ends (g : Goroutine) (failed : Bool)
deriving DecidableEq

/-- What a goroutine does after WriteMessage. -/
def written (s : Connection) (g : Goroutine) (message : Message) (failed : Bool) : Connection :=
  match g with
  | .handler => s.set .handler .ended
  | .keepAlive => s.set .keepAlive (if failed then .ended else .away)
  | .readFromTTY =>
    -- The only text that it sends is the last one, "Bye!".
    if message.messageType = .text then s.set .readFromTTY .ended
    else
      let errorCounter := if failed then s.errorCounter + 1 else 0
      { s.set .readFromTTY (readLoop errorCounter) with errorCounter := errorCounter }

/-- An event that cannot happen where its goroutine stands changes nothing. -/
def next (s : Connection) : Event → Connection
  | .startTTY err =>
    match s.phase .handler,err with
    | .away,some e => s.set .handler (sendErrorMessage ("failed to start tty: " ++ e))
    | .away,none =>
      -- From here on the handler only waits for the other two.
      ((s.set .handler .ended).set .keepAlive ping).set .readFromTTY (readLoop s.errorCounter)
    | _,_ => s
  | .slept expired =>
    match s.phase .keepAlive with
    | .away => s.set .keepAlive (if expired then .ended else ping)
    | _ => s
  | .read output =>
    match s.phase .readFromTTY,output with
    | .away,none => s.set .readFromTTY (sendErrorMessage "Bye!")
    | .away,some data => s.set .readFromTTY (.ready ⟨.binary,data.take maxBufferSizeBytes⟩)
    | _,_ => s
  | .starts g =>
    match s.phase g with
    | .ready message => s.set g (.writing message)
    | _ => s
  | .ends g failed =>
    match s.phase g with
    | .writing message => written s g message failed
    | _ => s

def step (s : Connection) (e : Event) : Connection × Unit := (next s e,())

def start : Connection where
  phase
    | .handler => .away
    | _ => .unborn
  errorCounter := 0

/-! ## One writer at a time -/

/-- A goroutine that starts a write does so while no write is under way. -/
def Alone (s : Connection) : Event → Prop
  | .starts g => ∀ message, s.phase g = .ready message → ∀ h other, s.phase h ≠ .writing other
  | _ => True

/-- The goroutine is about to write, or is writing. -/
def Awake : Phase → Prop
  | .ready _ => True
  | .writing _ => True
  | _ => False

/-- The terminal has output, or the sleep after a ping is over, only while the other
    goroutine is not awake. -/
def Quiet (s : Connection) : Event → Prop
  | .slept expired => s.phase .keepAlive = .away → expired = false → ¬ Awake (s.phase .readFromTTY)
  | .read _ => s.phase .readFromTTY = .away → ¬ Awake (s.phase .keepAlive)
  | _ => True

/-- At most one goroutine is awake, and until the handler has done its part there is
    no other. -/
structure Inv (s : Connection) : Prop where
  single : ∀ g h, Awake (s.phase g) → Awake (s.phase h) → g = h
  first : s.phase .handler ≠ .ended → ∀ g, g ≠ .handler → s.phase g = .unborn

theorem inv_start : Inv start where
  single g h awake _ := by cases g <;> exact awake.elim
  first _ g other := by
    cases g with
    | handler => exact absurd rfl other
    | keepAlive => rfl
    | readFromTTY => rfl

/-! ## Steps -/

@[simp] theorem set_phase_self (s : Connection) (g : Goroutine) (p : Phase) : (s.set g p).phase g = p :=
  Function.update_self ..

@[simp] theorem set_phase_other (s : Connection) {g h : Goroutine} (other : h ≠ g) (p : Phase) :
    (s.set g p).phase h = s.phase h := Function.update_of_ne other ..

theorem readLoop_asleep (errorCounter : Nat) : ¬ Awake (readLoop errorCounter) := by
  unfold readLoop
  split_ifs <;> exact id

theorem Inv.others {s : Connection} (inv : Inv s) {g : Goroutine} (awake : Awake (s.phase g)) :
    ∀ h, h ≠ g → ¬ Awake (s.phase h) := by
  intro h other awakeToo
  exact other (inv.single h g awakeToo awake)

/-- A goroutine may be awake while no other one is. -/
theorem Inv.set {s : Connection} (inv : Inv s) {g : Goroutine} {p : Phase}
    (alone : Awake p → ∀ h, h ≠ g → ¬ Awake (s.phase h)) (ended : g = .handler → s.phase g = .ended → p = .ended)
    (born : g ≠ .handler → s.phase g ≠ .unborn) : Inv (s.set g p) where
  single a b awakeA awakeB := by
    by_cases awake : Awake p
    · have only : ∀ h, Awake ((s.set g p).phase h) → h = g := by
        intro h awakeH
        by_contra other
        rw [set_phase_other s other] at awakeH
        exact alone awake h other awakeH
      exact (only a awakeA).trans (only b awakeB).symm
    · have before : ∀ h, Awake ((s.set g p).phase h) → Awake (s.phase h) := by
        intro h awakeH
        have other : h ≠ g := by
          rintro rfl
          rw [set_phase_self] at awakeH
          exact awake awakeH
        rwa [set_phase_other s other] at awakeH
      exact inv.single a b (before a awakeA) (before b awakeB)
  first waits h other := by
    have waited : s.phase .handler ≠ .ended := by
      intro done
      apply waits
      by_cases same : Goroutine.handler = g
      · subst same
        rw [set_phase_self]
        exact ended rfl done
      · rwa [set_phase_other s same]
    by_cases same : h = g
    · subst same
      exact absurd (inv.first waited h other) (born other)
    · rw [set_phase_other s same]
      exact inv.first waited h other

/-- The goroutine that was in WriteMessage sleeps or has ended. -/
theorem Inv.written {s : Connection} (inv : Inv s) {g : Goroutine} {message : Message} (writing : s.phase g = .writing message)
    (failed : Bool) : Inv (written s g message failed) := by
  have asleep : ∀ p, ¬ Awake p → (g = .handler → p = .ended) → Inv (s.set g p) := by
    intro p asleep done
    apply inv.set (fun awake => absurd awake asleep)
    · intro same _
      exact done same
    · simp [writing]
  cases g with
  | handler => exact asleep .ended id (fun _ => rfl)
  | keepAlive =>
    apply asleep
    · split_ifs <;> exact id
    · rintro ⟨⟩
  | readFromTTY =>
    by_cases bye : message.messageType = .text
    · have last : TerminalWriters.written s .readFromTTY message failed = s.set .readFromTTY .ended := if_pos bye
      rw [last]
      exact asleep .ended id (fun _ => rfl)
    · have looped : (TerminalWriters.written s .readFromTTY message failed).phase =
          (s.set .readFromTTY (readLoop (if failed then s.errorCounter + 1 else 0))).phase := by
        simp only [TerminalWriters.written,bye,↓reduceIte]
      have sleeps := asleep (readLoop (if failed then s.errorCounter + 1 else 0)) (readLoop_asleep _) (by rintro ⟨⟩)
      exact ⟨looped ▸ sleeps.single,looped ▸ sleeps.first⟩

/-- The handler's part ends with an error to send, or with both loops started. -/
theorem Inv.startTTY {s : Connection} (inv : Inv s) (err : Option String) : Inv (next s (.startTTY err)) := by
  simp only [next]
  split
  · rename_i away
    have unborn := inv.first (by rw [away]; simp)
    apply inv.set
    · intro _ h other
      rw [unborn h other]
      exact id
    · simp [away]
    · simp
  · rename_i away
    have unborn := inv.first (by rw [away]; simp)
    refine ⟨?_,fun waits => ?_⟩
    · have only : ∀ h, Awake ((((s.set .handler .ended).set .keepAlive ping).set .readFromTTY (readLoop s.errorCounter)).phase h) →
          h = .keepAlive := by
        intro h awake
        cases h with
        | handler =>
          rw [set_phase_other _ (by decide),set_phase_other _ (by decide),set_phase_self] at awake
          exact awake.elim
        | keepAlive => rfl
        | readFromTTY =>
          rw [set_phase_self] at awake
          exact absurd awake (readLoop_asleep _)
      intro g h awakeG awakeH
      exact (only g awakeG).trans (only h awakeH).symm
    · rw [set_phase_other _ (by decide),set_phase_other _ (by decide),set_phase_self] at waits
      exact absurd rfl waits
  · exact inv

theorem keeps (s : Connection) (e : Event) (inv : Inv s) (quiet : Quiet s e) : Inv (step s e).1 := by
  show Inv (next s e)
  cases e with
  | startTTY err => exact inv.startTTY err
  | slept expired =>
    simp only [next]
    split
    · rename_i away
      have started : s.phase .handler = .ended := by
        by_contra waits
        rw [inv.first waits .keepAlive (by decide)] at away
        cases away
      apply inv.set
      · intro awake h other
        cases h with
        | handler =>
          rw [started]
          exact id
        | keepAlive => exact absurd rfl other
        | readFromTTY =>
          apply quiet away
          by_contra still
          rw [if_pos (by simpa using still)] at awake
          exact awake
      · rintro ⟨⟩
      · simp [away]
    · exact inv
  | read output =>
    have woken : ∀ p, s.phase .readFromTTY = .away → Inv (s.set .readFromTTY p) := by
      intro p away
      have started : s.phase .handler = .ended := by
        by_contra waits
        rw [inv.first waits .readFromTTY (by decide)] at away
        cases away
      apply inv.set
      · intro _ h other
        cases h with
        | handler =>
          rw [started]
          exact id
        | keepAlive => exact quiet away
        | readFromTTY => exact absurd rfl other
      · rintro ⟨⟩
      · simp [away]
    simp only [next]
    split
    · exact woken _ ‹_›
    · exact woken _ ‹_›
    · exact inv
  | starts g =>
    simp only [next]
    split
    · rename_i message ready
      apply inv.set
      · intro _
        apply inv.others
        rw [ready]
        trivial
      · simp [ready]
      · simp [ready]
    · exact inv
  | ends g failed =>
    simp only [next]
    split
    · exact inv.written ‹_› failed
    · exact inv

/-! ## Runs -/

theorem alone_of_inv (s : Connection) (e : Event) (inv : Inv s) : Alone s e := by
  cases e with
  | starts g =>
    intro message ready h other writing
    have same : h = g := by
      apply inv.single
      · rw [writing]
        trivial
      · rw [ready]
        trivial
    subst same
    rw [ready] at writing
    cases writing
  | _ => trivial

/-- No write starts before an earlier one has ended, where each loop wakes up only while
    the other is not awake. -/
theorem alone_of_quiet (events : List Event) (quiet : Meets step Quiet start events) : Meets step Alone start events :=
  meets_of_meets (fun s e inv _ => alone_of_inv s e inv) keeps inv_start quiet

/-- A ping, output of the shell, and the next ping. -/
theorem alone_pingOutputPing :
    Meets step Alone start
      [.startTTY none,.starts .keepAlive,.ends .keepAlive false,.read (some [0x24]),.starts .readFromTTY
      ,.ends .readFromTTY false,.slept false,.starts .keepAlive,.ends .keepAlive false] :=
  alone_of_quiet _ ⟨trivial,trivial,trivial,fun _ => id,trivial,trivial,fun _ _ => id,trivial,trivial,trivial⟩

/-- The shell has output while the first ping is sent. -/
theorem pinged_overlaps : ¬ ∀ events, Meets step Alone start events := by
  intro always
  obtain ⟨-,-,-,alone,-⟩ := always [.startTTY none,.starts .keepAlive,.read (some [0x24]),.starts .readFromTTY]
  exact alone _ rfl .keepAlive _ rfl

/-- Where both are awake, nothing but the order of the next two steps keeps their writes
    apart. -/
theorem overlaps_of_awake (s : Connection) {g h : Goroutine} (other : g ≠ h) (ready : ∃ message, s.phase g = .ready message)
    (awake : Awake (s.phase h)) : ¬ Meets step Alone s [.starts h,.starts g] := by
  rintro ⟨-,alone,-⟩
  obtain ⟨message,ready⟩ := ready
  cases phase : s.phase h with
  | ready pending =>
    have started : next s (.starts h) = s.set h (.writing pending) := by simp only [next,phase]
    apply alone message _ h pending
    · show (next s (.starts h)).phase h = _
      rw [started,set_phase_self]
    · show (next s (.starts h)).phase g = _
      rw [started,set_phase_other s other,ready]
  | writing pending =>
    have already : next s (.starts h) = s := by simp only [next,phase]
    apply alone message _ h pending
    · show (next s (.starts h)).phase h = _
      rw [already,phase]
    · show (next s (.starts h)).phase g = _
      rw [already,ready]
  | _ =>
    rw [phase] at awake
    exact awake

/-- A wake-up while the other goroutine is awake can be followed by an overlap. -/
theorem overlaps_of_loud (s : Connection) (e : Event) (loud : ¬ Quiet s e) :
    ∃ g h, ¬ Meets step Alone s [e,.starts h,.starts g] := by
  cases e with
  | slept expired =>
    obtain ⟨away,fresh,awake⟩ : s.phase .keepAlive = .away ∧ expired = false ∧ Awake (s.phase .readFromTTY) := by
      simpa [Quiet] using loud
    have woken : next s (.slept expired) = s.set .keepAlive ping := by simp [next,away,fresh]
    refine ⟨.keepAlive,.readFromTTY,fun meets => overlaps_of_awake (next s (.slept expired)) (by decide) ?_ ?_ meets.2⟩
    · exact ⟨_,by rw [woken,set_phase_self]; rfl⟩
    · rwa [woken,set_phase_other s (by decide)]
  | read output =>
    obtain ⟨away,awake⟩ : s.phase .readFromTTY = .away ∧ Awake (s.phase .keepAlive) := by simpa [Quiet] using loud
    obtain ⟨message,woken⟩ : ∃ message, next s (.read output) = s.set .readFromTTY (.ready message) := by
      cases output with
      | none => exact ⟨_,by simp only [next,away]; rfl⟩
      | some data => exact ⟨_,by simp only [next,away]; rfl⟩
    refine ⟨.readFromTTY,.keepAlive,fun meets => overlaps_of_awake (next s (.read output)) (by decide) ?_ ?_ meets.2⟩
    · exact ⟨message,by rw [woken,set_phase_self]⟩
    · rwa [woken,set_phase_other s (by decide)]
  | _ => exact absurd trivial loud

end Zasper.TerminalWriters
