import Zasper.TerminalWriters

/-!
# Terminal output

What the shell prints waits in the terminal; readFromTTY takes it piece by piece and
sends each piece as one binary message, between the pings of the keep-alive goroutine.
What the browser was sent, what is on its way and what waits is in this order all that
was printed, as long as no write of a piece fails: readFromTTY goes on with the next one
(`always_conserved_iff`).
-/
namespace Zasper.TerminalOutput
open Zasper.Runs Zasper.TerminalWriters
set_option linter.unusedSimpArgs false

structure Terminal where
  connection : Connection
  /-- All that the shell has printed. -/
  printed : List UInt8
  /-- What of it was not read yet. -/
  waiting : List UInt8
  /-- The messages that the browser was sent, the oldest first. -/
  sent : List Message

inductive Event where
  | prints (data : List UInt8)
  /-- tty.Read has returned with at most `n` + 1 bytes, a buffer at most. -/
  | reads (n : Fin maxBufferSizeBytes)
  | readFails
  | startTTY (err : Option String)
  | slept (expired : Bool)
  | starts (g : Goroutine)
  | ends (g : Goroutine) (failed : Bool)
deriving DecidableEq

/-- What the browser has after a WriteMessage that has ended. -/
def delivered (s : Terminal) (g : Goroutine) (failed : Bool) : List Message :=
  match s.connection.phase g with
  | .writing message => if failed then s.sent else s.sent ++ [message]
  | _ => s.sent

def after (s : Terminal) : Event → Terminal
  | .prints data => { s with printed := s.printed ++ data, waiting := s.waiting ++ data }
  | .reads n =>
    -- The call only returns once there is something to read.
    if s.connection.phase .readFromTTY = .away ∧ s.waiting ≠ [] then
      { s with
        connection := next s.connection (.read (some (s.waiting.take (n+1))))
        waiting := s.waiting.drop (n+1) }
    else s
  | .readFails => { s with connection := next s.connection (.read none) }
  | .startTTY err => { s with connection := next s.connection (.startTTY err) }
  | .slept expired => { s with connection := next s.connection (.slept expired) }
  | .starts g => { s with connection := next s.connection (.starts g) }
  | .ends g failed => { s with connection := next s.connection (.ends g failed), sent := delivered s g failed }

def step (s : Terminal) (e : Event) : Terminal × Unit := (after s e,())

def opened : Terminal := ⟨TerminalWriters.start,[],[],[]⟩

/-! ## What is where -/

/-- The output in a message; pings and texts have none. -/
def outputOf (message : Message) : List UInt8 := if message.messageType = .binary then message.data else []

/-- What a goroutine is about to send, or sends. -/
def onItsWay : Phase → List UInt8
  | .ready message => outputOf message
  | .writing message => outputOf message
  | _ => []

/-- The output in all that the browser was sent. -/
def shown (sent : List Message) : List UInt8 := sent.flatMap outputOf

def Conserved (s : Terminal) : Prop :=
  shown s.sent ++ onItsWay (s.connection.phase .readFromTTY) ++ s.waiting = s.printed

/-- No write of a piece of output fails. -/
def Delivers (s : Terminal) : Event → Prop
  | .ends .readFromTTY failed => ∀ message, s.connection.phase .readFromTTY = .writing message →
      message.messageType = .binary → failed = false
  | _ => True

/-! ## The goroutines -/

def Carries (phase : Phase) (message : Message) : Prop := phase = .ready message ∨ phase = .writing message

/-- A piece of output is never empty; only readFromTTY sends one, once it was started. -/
structure Fine (c : Connection) : Prop where
  piece : ∀ message, Carries (c.phase .readFromTTY) message → message.messageType = .binary → message.data ≠ []
  others : ∀ g, g ≠ .readFromTTY → onItsWay (c.phase g) = []
  first : c.phase .handler = .away → c.phase .readFromTTY = .unborn

theorem fine_start : Fine TerminalWriters.start where
  piece := by rintro message (ready | writing) <;> contradiction
  others g other := by
    cases g with
    | handler => rfl
    | keepAlive => rfl
    | readFromTTY => exact absurd rfl other
  first _ := rfl

theorem readLoop_carries (errorCounter : Nat) (message : Message) : ¬ Carries (readLoop errorCounter) message := by
  unfold readLoop Carries
  split_ifs <;> simp

theorem onItsWay_readLoop (errorCounter : Nat) : onItsWay (readLoop errorCounter) = [] := by
  unfold readLoop
  split_ifs <;> rfl

/-- One of the other two goes on. -/
theorem Fine.setOther {c : Connection} (fine : Fine c) {g : Goroutine} {p : Phase} (other : g ≠ .readFromTTY)
    (empty : onItsWay p = []) (gone : p ≠ .away ∨ g ≠ .handler) : Fine (c.set g p) := by
  have reader : (c.set g p).phase .readFromTTY = c.phase .readFromTTY := set_phase_other c (Ne.symm other) p
  refine ⟨?_,fun h another => ?_,fun away => ?_⟩
  · rw [reader]
    exact fine.piece
  · by_cases same : h = g
    · subst same
      rwa [set_phase_self]
    · rw [set_phase_other c same]
      exact fine.others h another
  · rw [reader]
    apply fine.first
    by_cases same : Goroutine.handler = g
    · subst same
      rw [set_phase_self] at away
      exact absurd away (gone.resolve_right (fun no => no rfl))
    · rwa [set_phase_other c same] at away

/-- readFromTTY goes on, which was started. -/
theorem Fine.setReader {c : Connection} (fine : Fine c) {p : Phase} (born : c.phase .readFromTTY ≠ .unborn)
    (piece : ∀ message, Carries p message → message.messageType = .binary → message.data ≠ []) :
    Fine (c.set .readFromTTY p) := by
  refine ⟨?_,fun h another => ?_,fun away => ?_⟩
  · rwa [set_phase_self]
  · rw [set_phase_other c another]
    exact fine.others h another
  · rw [set_phase_other c (by decide)] at away
    exact absurd (fine.first away) born

theorem Fine.frame {c d : Connection} (fine : Fine c) (same : d.phase = c.phase) : Fine d := by
  obtain ⟨piece,others,first⟩ := fine
  exact ⟨same ▸ piece,same ▸ others,same ▸ first⟩

theorem Fine.written {c : Connection} (fine : Fine c) {g : Goroutine} {message : Message}
    (writing : c.phase g = .writing message) (failed : Bool) : Fine (written c g message failed) := by
  cases g with
  | handler => exact fine.setOther (by decide) rfl (.inl (by simp))
  | keepAlive =>
    apply fine.setOther (by decide)
    · split_ifs <;> rfl
    · exact .inr (by decide)
  | readFromTTY =>
    have born : c.phase .readFromTTY ≠ .unborn := by simp [writing]
    by_cases bye : message.messageType = .text
    · have last : TerminalWriters.written c .readFromTTY message failed = c.set .readFromTTY .ended := if_pos bye
      rw [last]
      exact fine.setReader born (by rintro message (ready | writing) <;> contradiction)
    · have looped : (TerminalWriters.written c .readFromTTY message failed).phase =
          (c.set .readFromTTY (readLoop (if failed then c.errorCounter + 1 else 0))).phase := by
        simp only [TerminalWriters.written,bye,↓reduceIte]
      exact (fine.setReader born (fun message carries => absurd carries (readLoop_carries _ message))).frame looped

theorem Fine.next {c : Connection} (fine : Fine c) {e : TerminalWriters.Event} (some : e ≠ .read (some [])) :
    Fine (next c e) := by
  cases e with
  | startTTY err =>
    simp only [TerminalWriters.next]
    split
    · exact fine.setOther (by decide) rfl (.inl (by simp [sendErrorMessage]))
    · refine ⟨?_,?_,?_⟩
      · rw [set_phase_self]
        exact fun message carries => absurd carries (readLoop_carries _ message)
      · intro g other
        rw [set_phase_other _ other]
        exact ((fine.setOther (by decide) rfl (.inl (by simp))).setOther (by decide) rfl (.inr (by decide))).others g other
      · intro away
        rw [set_phase_other _ (by decide),set_phase_other _ (by decide),set_phase_self] at away
        cases away
    · exact fine
  | slept expired =>
    simp only [TerminalWriters.next]
    split
    · apply fine.setOther (by decide)
      · split_ifs <;> rfl
      · exact .inr (by decide)
    · exact fine
  | read output =>
    simp only [TerminalWriters.next]
    split
    · rename_i away
      apply fine.setReader (by simp [away])
      rintro message (ready | writing)
      · cases ready
        rintro ⟨⟩
      · cases writing
    · rename_i data away
      apply fine.setReader (by simp [away])
      rintro message (ready | writing)
      · cases ready
        intro _ empty
        obtain none | nothing := List.take_eq_nil_iff.mp empty
        · cases none
        · exact some (by rw [nothing])
      · cases writing
    · exact fine
  | starts g =>
    simp only [TerminalWriters.next]
    split
    · rename_i message ready
      by_cases reader : g = .readFromTTY
      · subst reader
        apply fine.setReader (by simp [ready])
        rintro other (no | writing)
        · cases no
        · cases writing
          exact fine.piece message (.inl ready)
      · apply fine.setOther reader
        · have empty := fine.others g reader
          rwa [ready] at empty
        · exact .inl (by simp)
    · exact fine
  | ends g failed =>
    simp only [TerminalWriters.next]
    split
    · exact fine.written ‹_› failed
    · exact fine

/-- Only a read and the end of its own write change what readFromTTY sends. -/
theorem onItsWay_next {c : Connection} (fine : Fine c) {e : TerminalWriters.Event} (read : ∀ output, e ≠ .read output)
    (ends : ∀ failed, e ≠ .ends .readFromTTY failed) :
    onItsWay ((next c e).phase .readFromTTY) = onItsWay (c.phase .readFromTTY) := by
  cases e with
  | startTTY err =>
    simp only [next]
    split
    · rw [set_phase_other _ (by decide)]
    · rename_i away
      rw [set_phase_self,onItsWay_readLoop,fine.first away]
      rfl
    · rfl
  | slept expired =>
    simp only [next]
    split
    · rw [set_phase_other _ (by decide)]
    · rfl
  | read output => exact absurd rfl (read output)
  | starts g =>
    simp only [next]
    split
    · rename_i message ready
      by_cases reader : Goroutine.readFromTTY = g
      · subst reader
        rw [set_phase_self,ready]
        rfl
      · rw [set_phase_other _ reader]
    · rfl
  | ends g failed =>
    have other : Goroutine.readFromTTY ≠ g := by
      rintro rfl
      exact ends failed rfl
    simp only [next]
    split
    · cases g with
      | handler => exact congrArg onItsWay (set_phase_other _ (by decide) _)
      | keepAlive => exact congrArg onItsWay (set_phase_other _ (by decide) _)
      | readFromTTY => exact absurd rfl other
    · rfl

/-- After its write readFromTTY has nothing to send. -/
theorem onItsWay_written (c : Connection) (message : Message) (failed : Bool) :
    onItsWay ((written c .readFromTTY message failed).phase .readFromTTY) = [] := by
  by_cases bye : message.messageType = .text
  · simp only [written,bye,↓reduceIte,set_phase_self]
    rfl
  · simp only [written,bye,↓reduceIte]
    exact (congrArg onItsWay (set_phase_self c .readFromTTY _)).trans (onItsWay_readLoop _)

/-! ## Steps -/

structure Inv (s : Terminal) : Prop where
  fine : Fine s.connection
  conserved : Conserved s

theorem inv_opened : Inv opened := ⟨fine_start,rfl⟩

theorem shown_append (sent : List Message) (message : Message) : shown (sent ++ [message]) = shown sent ++ outputOf message := by
  simp [shown]

/-- The end of a write by readFromTTY keeps everything if and only if it has succeeded, or
    there was no output in the message. -/
theorem conserved_written {s : Terminal} (inv : Inv s) {message : Message} (failed : Bool)
    (writing : s.connection.phase .readFromTTY = .writing message) :
    Conserved (after s (.ends .readFromTTY failed)) ↔ (message.messageType = .binary → failed = false) := by
  have before : shown s.sent ++ outputOf message ++ s.waiting = s.printed := by
    have conserved := inv.conserved
    unfold Conserved at conserved
    rwa [writing] at conserved
  have ended : onItsWay ((next s.connection (.ends .readFromTTY failed)).phase .readFromTTY) = [] := by
    simp only [next,writing]
    exact onItsWay_written s.connection message failed
  have now : Conserved (after s (.ends .readFromTTY failed)) ↔ shown (delivered s .readFromTTY failed) ++ s.waiting = s.printed := by
    show shown (delivered s .readFromTTY failed) ++
        onItsWay ((next s.connection (.ends .readFromTTY failed)).phase .readFromTTY) ++ s.waiting = s.printed ↔ _
    rw [ended,List.append_nil]
  rw [now,← before]
  cases failed with
  | false =>
    have sent : delivered s .readFromTTY false = s.sent ++ [message] := by simp [delivered,writing]
    rw [sent,shown_append]
    simp
  | true =>
    have sent : delivered s .readFromTTY true = s.sent := by simp [delivered,writing]
    rw [sent]
    by_cases binary : message.messageType = .binary
    · have piece := inv.fine.piece message (.inr writing) binary
      have output : outputOf message = message.data := if_pos binary
      simpa [output,binary] using piece
    · have output : outputOf message = [] := if_neg binary
      simp [output,binary]

theorem Inv.reads {s : Terminal} (inv : Inv s) (n : Fin maxBufferSizeBytes) : Inv (after s (.reads n)) := by
  by_cases returns : s.connection.phase .readFromTTY = .away ∧ s.waiting ≠ []
  · have read : after s (.reads n) =
        { s with
          connection := next s.connection (.read (some (s.waiting.take (n+1))))
          waiting := s.waiting.drop (n+1) } := if_pos returns
    obtain ⟨away,something⟩ := returns
    have conserved := inv.conserved
    unfold Conserved at conserved
    rw [away] at conserved
    have taken : (s.waiting.take (n+1)).take maxBufferSizeBytes = s.waiting.take (n+1) := by
      rw [List.take_take]
      congr 1
      omega
    have sends : (next s.connection (.read (some (s.waiting.take (n+1))))).phase .readFromTTY =
        .ready ⟨.binary,s.waiting.take (n+1)⟩ := by
      simp only [next,away,set_phase_self,taken]
    rw [read]
    have fine : Fine (next s.connection (.read (some (s.waiting.take (n+1))))) := inv.fine.next (by simpa using something)
    refine ⟨fine,?_⟩
    show shown s.sent ++ onItsWay _ ++ s.waiting.drop (n+1) = s.printed
    rw [sends,← conserved]
    simp [onItsWay,outputOf]
  · have blocked : after s (.reads n) = s := if_neg returns
    rwa [blocked]

/-- The steps that neither read nor print nor end a write by readFromTTY. -/
theorem Inv.goes {s : Terminal} (inv : Inv s) {e : TerminalWriters.Event} (read : ∀ output, e ≠ .read output)
    (ends : ∀ failed, e ≠ .ends .readFromTTY failed) : Inv { s with connection := next s.connection e } := by
  refine ⟨inv.fine.next (read _),?_⟩
  show shown s.sent ++ onItsWay _ ++ s.waiting = s.printed
  rw [onItsWay_next inv.fine read ends]
  exact inv.conserved

theorem Inv.readFails {s : Terminal} (inv : Inv s) : Inv (after s .readFails) := by
  have fine : Fine (next s.connection (.read none)) := inv.fine.next (by simp)
  refine ⟨fine,?_⟩
  show shown s.sent ++ onItsWay ((next s.connection (.read none)).phase .readFromTTY) ++ s.waiting = s.printed
  have same : onItsWay ((next s.connection (.read none)).phase .readFromTTY) = onItsWay (s.connection.phase .readFromTTY) := by
    simp only [next]
    split
    · rename_i away _
      rw [set_phase_self,away]
      rfl
    · contradiction
    · rfl
  rw [same]
  exact inv.conserved

/-- The other two send no output. -/
theorem shown_delivered {s : Terminal} (inv : Inv s) {g : Goroutine} (other : g ≠ .readFromTTY) (failed : Bool) :
    shown (delivered s g failed) = shown s.sent := by
  unfold delivered
  split
  · rename_i message writing
    have empty := inv.fine.others g other
    rw [writing] at empty
    have none : outputOf message = [] := empty
    split_ifs
    · rfl
    · rw [shown_append,none,List.append_nil]
  · rfl

theorem inv_after {s : Terminal} (inv : Inv s) {e : Event} (delivers : Delivers s e) : Inv (after s e) := by
  cases e with
  | prints data =>
    refine ⟨inv.fine,?_⟩
    show shown s.sent ++ onItsWay _ ++ (s.waiting ++ data) = s.printed ++ data
    rw [← inv.conserved,List.append_assoc _ s.waiting]
    rfl
  | reads n => exact inv.reads n
  | readFails => exact inv.readFails
  | startTTY err => exact inv.goes (by simp) (by simp)
  | slept expired => exact inv.goes (by simp) (by simp)
  | starts g => exact inv.goes (by simp) (by simp)
  | ends g failed =>
    by_cases reader : g = .readFromTTY
    · subst reader
      have fine : Fine (next s.connection (.ends .readFromTTY failed)) := inv.fine.next (by simp)
      refine ⟨fine,?_⟩
      by_cases writes : ∃ message, s.connection.phase .readFromTTY = .writing message
      · obtain ⟨message,writing⟩ := writes
        exact (conserved_written inv failed writing).mpr (delivers message writing)
      · have idle : after s (.ends .readFromTTY failed) = s := by
          have none : next s.connection (.ends .readFromTTY failed) = s.connection := by
            simp only [next]
            split
            · exact absurd ⟨_,‹_›⟩ writes
            · rfl
          have nothing : delivered s .readFromTTY failed = s.sent := by
            unfold delivered
            split
            · exact absurd ⟨_,‹_›⟩ writes
            · rfl
          simp only [after,none,nothing]
        rw [idle]
        exact inv.conserved
    · have fine : Fine (next s.connection (.ends g failed)) := inv.fine.next (by simp)
      refine ⟨fine,?_⟩
      show shown (delivered s g failed) ++ onItsWay ((next s.connection (.ends g failed)).phase .readFromTTY) ++ s.waiting = s.printed
      rw [shown_delivered inv reader,onItsWay_next inv.fine (by simp) (by simp [reader])]
      exact inv.conserved

theorem delivers_of_conserved {s : Terminal} (inv : Inv s) {e : Event} (conserved : Conserved (after s e)) : Delivers s e := by
  cases e with
  | ends g failed =>
    cases g with
    | readFromTTY =>
      intro message writing
      exact (conserved_written inv failed writing).mp conserved
    | _ => trivial
  | _ => trivial

/-- However pings, reads and writes follow each other: what the browser was sent, what is
    on its way and what waits is all that the shell has printed, each byte once and in
    order, in every state of a run, if and only if no write of a piece of output fails. -/
theorem always_conserved_iff (events : List Event) : Always step Conserved opened events ↔ Meets step Delivers opened events := by
  apply always_iff_meets (fun s (inv : Inv s) => inv.conserved)
  · exact fun _ _ inv delivers => inv_after inv delivers
  · exact fun _ _ inv conserved => delivers_of_conserved inv conserved
  · exact inv_opened

end Zasper.TerminalOutput
