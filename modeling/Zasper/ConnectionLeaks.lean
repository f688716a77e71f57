import Zasper.ConnectionEnds

/-!
# The end of a connection

The goroutines of a kernel connection: those of the relay, with the lock `mu` that they
share. The writer holds it while it writes, and keeps it after a write that fails; each
poller takes it once more in the call that it deferred. `allEnd_iff` says from where all
of them can come to their end once the context is cancelled. But for the lock they go on
as the relay does (`run_relay`).
-/
namespace Zasper.ConnectionLeaks
open Zasper.Runs Zasper.ConnectionEnds
open Zasper.Relay (Channel Poller Writer State)
set_option linter.unusedSimpArgs false

/-! ## Goroutines and their lock -/

structure Connection where
  relay : State
  /-- The lock is held. -/
  mu : Bool
  /-- The pollers whose deferred call has returned. -/
  done : Channel → Bool

def start : Connection := ⟨Relay.start,false,fun _ => false⟩

inductive Event where
  | relay (e : Relay.Event)
  /-- The writer takes the lock for its message. -/
  | lock
  /-- The deferred call of a poller: it takes the lock and gives it back. -/
  | done (channel : Channel)

def isWriting : Writer → Bool
  | .writing _ _ => true
  | _ => false

def isFinished : Poller → Bool
  | .finished => true
  | _ => false

section
variable (mac : List UInt8 → List UInt8 → List UInt8) (key : List UInt8)

/-- What an event does; a write that fails returns without the lock being given back. -/
def handle (c : Connection) : Event → Connection
  | .relay .write =>
    if c.mu ∧ isWriting c.relay.writer then { c with relay := Relay.handle mac key c.relay .write, mu := false } else c
  | .relay .writeFailed =>
    if c.mu ∧ isWriting c.relay.writer then { c with relay := Relay.handle mac key c.relay .writeFailed } else c
  | .relay e => { c with relay := Relay.handle mac key c.relay e }
  | .lock => if ¬ c.mu ∧ isWriting c.relay.writer then { c with mu := true } else c
  | .done channel =>
    if ¬ c.mu ∧ isFinished (c.relay.pollers channel) then { c with done := Function.update c.done channel true } else c

def step (c : Connection) (e : Event) : Connection × Unit := (if c.relay.crashed then c else handle mac key c e,())

/-- All goroutines have come to their end, and the server runs on. -/
structure AllEnded (c : Connection) : Prop where
  done : ∀ channel, c.done channel = true
  writer : c.relay.writer = .finished
  crashed : c.relay.crashed = false

/-- The loops can end, and after a failed write no poller still needs the lock. -/
structure CanAllEnd (c : Connection) : Prop where
  loops : CanEnd mac key c.relay
  lock : c.relay.failed = true → ∀ channel, c.done channel = true

end

/-! ## The relay without its lock -/

section
variable {mac : List UInt8 → List UInt8 → List UInt8} {key : List UInt8}

theorem handle_quiet (c : Connection) {e : Relay.Event} (quiet : Quiet e) :
    handle mac key c (.relay e) = { c with relay := Relay.handle mac key c.relay e } := by
  cases e with
  | write => exact absurd quiet id
  | writeFailed => exact absurd quiet id
  | _ => rfl

/-- A step is one of the relay, or none. -/
theorem step_relay (c : Connection) (e : Event) :
    (step mac key c e).1.relay = c.relay ∨ ∃ r, (step mac key c e).1.relay = (Relay.step mac key c.relay r).1 := by
  by_cases crashed : c.relay.crashed = true
  · exact .inl (by simp only [step,if_pos crashed])
  · simp only [step,Relay.step,if_neg crashed]
    cases e with
    | relay e =>
      by_cases quiet : Quiet e
      · exact .inr ⟨e,by rw [handle_quiet c quiet]⟩
      · cases e with
        | write =>
          simp only [handle]
          split_ifs
          · exact .inr ⟨.write,rfl⟩
          · exact .inl rfl
        | writeFailed =>
          simp only [handle]
          split_ifs
          · exact .inr ⟨.writeFailed,rfl⟩
          · exact .inl rfl
        | _ => exact absurd trivial quiet
    | lock | done channel =>
      simp only [handle]
      split_ifs <;> exact .inl rfl

theorem run_relay (c : Connection) (events : List Event) :
    ∃ more, (run (step mac key) c events).1.relay = (run (Relay.step mac key) c.relay more).1 := by
  induction events generalizing c with
  | nil => exact ⟨[],rfl⟩
  | cons e events ih =>
    obtain ⟨more,later⟩ := ih (step mac key c e).1
    rcases step_relay c e with same | ⟨r,one⟩
    · rw [same] at later
      exact ⟨more,later⟩
    · rw [one] at later
      exact ⟨r :: more,later⟩

/-- A run of the relay without a write leaves the lock and the deferred calls alone. -/
theorem run_quiet (c : Connection) {quiet : List Relay.Event} (all : ∀ e ∈ quiet, Quiet e) :
    (run (step mac key) c (quiet.map .relay)).1 = { c with relay := (run (Relay.step mac key) c.relay quiet).1 } := by
  induction quiet generalizing c with
  | nil => rfl
  | cons e quiet ih =>
    obtain ⟨here,later⟩ := List.forall_mem_cons.mp all
    have one : (step mac key c (.relay e)).1 = { c with relay := (Relay.step mac key c.relay e).1 } := by
      simp only [step,Relay.step]
      split_ifs
      · rfl
      · exact handle_quiet c here
    rw [List.map_cons,run,one]
    exact ih _ later

/-! ## Who holds the lock -/

/-- The lock is held by the writer, or lost with a write that failed. -/
structure Inv (c : Connection) : Prop where
  held : c.mu = true → isWriting c.relay.writer = true ∨ c.relay.failed = true
  lost : c.relay.failed = true → c.mu = true ∧ c.relay.writer = .finished
  done : ∀ channel, c.done channel = true → c.relay.pollers channel = .finished

/-- What a step of the relay keeps that writes nothing. -/
theorem relay_quiet (s : State) {e : Relay.Event} (quiet : Quiet e) :
    (Relay.handle mac key s e).failed = s.failed ∧
      (isWriting s.writer = true → isWriting (Relay.handle mac key s e).writer = true) ∧
      (s.writer = .finished → (Relay.handle mac key s e).writer = .finished) := by
  cases e with
  | write | writeFailed => exact absurd quiet id
  | poll channel | recv channel zmsg | recvFailed channel =>
    cases stands : s.pollers channel <;> simp [Relay.handle,stands,State.poller]
  | deserialize channel =>
    cases stands : s.pollers channel with
    | received zmsg =>
      simp only [Relay.handle,stands]
      split <;> exact ⟨rfl,id,id⟩
    | _ => simp [Relay.handle,stands]
  | look => cases stands : s.writer <;> simp [Relay.handle,stands,isWriting]
  | send channel =>
    cases stands : s.pollers channel <;> cases waits : s.writer <;>
      simp [Relay.handle,stands,waits,isWriting,State.poller]
  | cancel => exact ⟨rfl,id,id⟩

/-- A poller that has ended stays so. -/
theorem relay_finished {s : State} {channel : Channel} (finished : s.pollers channel = .finished) (e : Relay.Event) :
    (Relay.handle mac key s e).pollers channel = .finished := by
  have moves (other : Channel) (next : Poller) (stands : s.pollers other ≠ .finished) :
      (s.poller other next).pollers channel = .finished := by
    rw [poller_other s (fun same : channel = other => stands (same ▸ finished)) next]
    exact finished
  cases e with
  | poll other | recv other zmsg | recvFailed other =>
    cases stands : s.pollers other <;> simp only [Relay.handle,stands] <;> try exact finished
    exact moves other _ (by simp [stands])
  | deserialize other =>
    cases stands : s.pollers other <;> simp only [Relay.handle,stands] <;> try exact finished
    split
    · exact moves other _ (by simp [stands])
    · exact finished
  | send other =>
    cases stands : s.pollers other <;> simp only [Relay.handle,stands] <;> try exact finished
    cases s.writer <;> try exact finished
    exact moves other _ (by simp [stands])
  | look | write | writeFailed => cases stands : s.writer <;> simp only [Relay.handle,stands] <;> exact finished
  | cancel => exact finished

theorem handle_inv {c : Connection} (inv : Inv c) (e : Event) : Inv (handle mac key c e) := by
  cases e with
  | relay e =>
    by_cases quiet : Quiet e
    · obtain ⟨failed,writing,finished⟩ := @relay_quiet mac key c.relay e quiet
      rw [handle_quiet c quiet]
      refine ⟨fun held => ?_,fun lost => ?_,fun channel done => relay_finished (inv.done channel done) e⟩
      · rw [failed]
        exact (inv.held held).imp_left writing
      · rw [failed] at lost
        exact ⟨(inv.lost lost).1,finished (inv.lost lost).2⟩
    · cases e with
      | write =>
        simp only [handle]
        split_ifs with writes
        · obtain ⟨channel,message,stands⟩ : ∃ channel message, c.relay.writer = .writing channel message := by
            cases stands : c.relay.writer <;> simp_all [isWriting]
          refine ⟨fun held => (nomatch held),fun lost => ?_,
            fun channel done => @relay_finished mac key _ _ (inv.done channel done) .write⟩
          have before : c.relay.failed = true := by simpa [Relay.handle,stands] using lost
          have finished := (inv.lost before).2
          rw [stands] at finished
          cases finished
        · exact inv
      | writeFailed =>
        simp only [handle]
        split_ifs with writes
        · obtain ⟨channel,message,stands⟩ : ∃ channel message, c.relay.writer = .writing channel message := by
            cases stands : c.relay.writer <;> simp_all [isWriting]
          refine ⟨fun _ => .inr (by simp [Relay.handle,stands]),fun _ => ⟨writes.1,by simp [Relay.handle,stands]⟩,
            fun channel done => @relay_finished mac key _ _ (inv.done channel done) .writeFailed⟩
        · exact inv
      | _ => exact absurd trivial quiet
  | lock =>
    simp only [handle]
    split_ifs with writes
    · exact ⟨fun _ => .inl writes.2,fun lost => ⟨rfl,(inv.lost lost).2⟩,inv.done⟩
    · exact inv
  | done channel =>
    simp only [handle]
    split_ifs with ends
    · refine ⟨inv.held,inv.lost,fun other done => ?_⟩
      by_cases same : other = channel
      · subst same
        cases stands : c.relay.pollers other <;> simp_all [isFinished]
      · exact inv.done other (by simpa [Function.update_of_ne same] using done)
    · exact inv

theorem run_inv {c : Connection} (inv : Inv c) (events : List Event) : Inv (run (step mac key) c events).1 := by
  refine run_invariant (fun c e inv => ?_) inv events
  simp only [step]
  split_ifs
  · exact inv
  · exact handle_inv inv e

theorem start_inv : Inv start := ⟨fun held => (nomatch held),fun lost => (nomatch lost),fun _ done => (nomatch done)⟩

/-! ## Connections that cannot end -/

/-- After a failed write no deferred call returns any more. -/
theorem lost_done {c : Connection} (inv : Inv c) (lost : c.relay.failed = true) (events : List Event) :
    (run (step mac key) c events).1.done = c.done := by
  have kept := @run_invariant _ _ _ (step mac key) (fun d => Inv d ∧ d.relay.failed = true ∧ d.done = c.done) ?_ c
    ⟨inv,lost,rfl⟩ events
  · exact kept.2.2
  rintro d e ⟨inv,lost,same⟩
  have locked := (inv.lost lost).1
  simp only [step]
  split_ifs
  · exact ⟨inv,lost,same⟩
  refine ⟨handle_inv inv e,?_,?_⟩
  · cases e with
    | relay e =>
      by_cases quiet : Quiet e
      · rw [handle_quiet d quiet]
        exact Relay.handle_failed lost e
      · cases e with
        | write | writeFailed =>
          simp only [handle]
          split_ifs
          · exact Relay.handle_failed lost _
          · exact lost
        | _ => exact absurd trivial quiet
    | lock | done channel =>
      simp only [handle]
      split_ifs <;> exact lost
  · cases e with
    | relay e =>
      by_cases quiet : Quiet e
      · rw [handle_quiet d quiet]
        exact same
      · cases e with
        | write | writeFailed =>
          simp only [handle]
          split_ifs <;> exact same
        | _ => exact absurd trivial quiet
    | lock | done channel =>
      simp only [handle,locked,not_true_eq_false,false_and,if_false]
      exact same

theorem canAllEnd_of_ended {c : Connection} (inv : Inv c) (cancelled : c.relay.cancelled = true) {more : List Event}
    (ended : AllEnded (run (step mac key) c more).1) : CanAllEnd mac key c := by
  have after := @run_inv mac key c inv more
  constructor
  · obtain ⟨relay,same⟩ := @run_relay mac key c more
    have loops : Ended (run (Relay.step mac key) c.relay relay).1 := by
      rw [← same]
      exact ⟨fun channel => after.done channel (ended.done channel),ended.writer,ended.crashed⟩
    exact canEnd_of_ended cancelled loops
  · intro lost channel
    rw [← lost_done inv lost more]
    exact ended.done channel

/-! ## How the others end -/

theorem step_alive {c : Connection} (alive : c.relay.crashed = false) (e : Event) :
    (step mac key c e).1 = handle mac key c e := by
  simp only [step,alive,Bool.false_eq_true,if_false]

/-- The writer writes its message, if it has one, and gives the lock back. -/
theorem run_write {c : Connection} (inv : Inv c) (failed : c.relay.failed = false) (alive : c.relay.crashed = false) :
    (run (step mac key) c [.lock,.relay .write,.relay .look]).1 =
      { c with relay := (run (Relay.step mac key) c.relay [.write,.look]).1, mu := false } := by
  obtain ⟨relay,mu,done⟩ := c
  let wrote := Relay.handle mac key relay .write
  have goes : wrote.crashed = false := by
    cases stands : relay.writer <;> simpa [wrote,Relay.handle,stands] using alive
  have both : (run (Relay.step mac key) relay [.write,.look]).1 = Relay.handle mac key wrote .look := by
    have first : (Relay.step mac key relay .write).1 = wrote := by
      simp only [Relay.step,show relay.crashed = false from alive,Bool.false_eq_true,if_false,wrote]
    have second : (Relay.step mac key wrote .look).1 = Relay.handle mac key wrote .look := by
      simp only [Relay.step,goes,Bool.false_eq_true,if_false]
    simp only [run,first,second]
  have looks : (step mac key ⟨wrote,false,done⟩ (.relay .look)).1 = ⟨Relay.handle mac key wrote .look,false,done⟩ :=
    step_alive goes _
  by_cases writes : isWriting relay.writer = true
  · have locks : (step mac key ⟨relay,mu,done⟩ .lock).1 = ⟨relay,true,done⟩ := by
      rw [step_alive alive]
      cases mu
      · exact if_pos ⟨Bool.false_ne_true,writes⟩
      · simp [handle]
    have unlocks : (step mac key ⟨relay,true,done⟩ (.relay .write)).1 = ⟨wrote,false,done⟩ := by
      rw [@step_alive mac key ⟨relay,true,done⟩ alive]
      simp only [handle,writes,and_self,if_true,wrote]
    simp only [run,locks,unlocks,looks]
    rw [← both]
    rfl
  · have free : mu = false := by
      by_contra held
      rcases inv.held (Bool.not_eq_false _ ▸ held) with writing | lost
      · exact writes writing
      · rw [failed] at lost
        cases lost
    subst free
    have same : wrote = relay := by
      cases stands : relay.writer <;> simp_all [wrote,Relay.handle,isWriting]
    have idle : (step mac key ⟨relay,false,done⟩ .lock).1 = ⟨relay,false,done⟩ :=
      (step_alive alive _).trans (if_neg (fun both => writes both.2))
    have idleAgain : (step mac key ⟨relay,false,done⟩ (.relay .write)).1 = ⟨relay,false,done⟩ :=
      (step_alive alive _).trans (by simp [handle])
    rw [same] at looks both
    simp only [run,idle,idleAgain,looks]
    rw [← both]
    rfl

/-- The deferred calls return one after the other, while the lock is free. -/
theorem run_done {c : Connection} (free : c.mu = false) (alive : c.relay.crashed = false)
    (finished : ∀ channel, c.relay.pollers channel = .finished) (among : List Channel) :
    let d := (run (step mac key) c (among.map .done)).1
    d.relay = c.relay ∧ ∀ channel, channel ∈ among ∨ c.done channel = true → d.done channel = true := by
  induction among generalizing c with
  | nil => exact ⟨rfl,fun channel done => done.resolve_left List.not_mem_nil⟩
  | cons channel among ih =>
    have one : (step mac key c (.done channel)).1 = { c with done := Function.update c.done channel true } := by
      simp [step,handle,alive,free,finished channel,isFinished]
    have later := @ih { c with done := Function.update c.done channel true } free alive finished
    rw [List.map_cons,run,one]
    refine ⟨later.1,fun other done => later.2 other ?_⟩
    by_cases same : other = channel
    · subst same
      exact .inr (Function.update_self ..)
    · rw [List.mem_cons] at done
      refine done.imp (fun inside => inside.resolve_left same) (fun before => ?_)
      simpa [Function.update_of_ne same] using before

theorem ended_of_canAllEnd {c : Connection} (inv : Inv c) (cancelled : c.relay.cancelled = true)
    (can : CanAllEnd mac key c) : ∃ more, AllEnded (run (step mac key) c more).1 := by
  by_cases lost : c.relay.failed = true
  · exact ⟨[],can.lock lost,(inv.lost lost).2,can.loops.crashed⟩
  rw [Bool.not_eq_true] at lost
  obtain ⟨quiet,silent,ended,failed⟩ := ended_of_canEnd cancelled lost can.loops
  have wound := @run_quiet mac key c quiet silent
  have kept := @run_inv mac key c inv (quiet.map .relay)
  rw [run_append] at ended failed
  generalize (run (Relay.step mac key) c.relay quiet).1 = s at wound ended failed
  rw [wound] at kept
  have going : s.failed = false := by
    by_contra before
    rw [Bool.not_eq_false] at before
    have after := @run_handles mac key (fun t => t.failed = true) (fun _ e lost => Relay.handle_failed lost e) s before
      [.write,.look]
    rw [failed] at after
    cases after
  have alive : s.crashed = false := by
    by_contra before
    rw [Bool.not_eq_false] at before
    have after := ended.crashed
    rw [run_crashed before,before] at after
    cases after
  have wrote := @run_write mac key _ kept going alive
  have returned := @run_done mac key { c with relay := (run (Relay.step mac key) s [.write,.look]).1, mu := false } rfl
    ended.crashed ended.pollers channels
  refine ⟨quiet.map .relay ++ ([.lock,.relay .write,.relay .look] ++ channels.map .done),?_⟩
  rw [run_append,wound,run_append,wrote]
  refine ⟨fun channel => returned.2 channel (.inl (mem_channels channel)),?_,?_⟩
  · rw [returned.1]
    exact ended.writer
  · rw [returned.1]
    exact ended.crashed

theorem run_cancelled (events : List Event) :
    (run (step mac key) start (events ++ [.relay .cancel])).1.relay.crashed = true ∨
      (run (step mac key) start (events ++ [.relay .cancel])).1.relay.cancelled = true := by
  rw [run_append]
  generalize (run (step mac key) start events).1 = c
  simp only [run,step]
  split_ifs with halted
  · exact .inl halted
  · exact .inr rfl

theorem run_halted {c : Connection} (crashed : c.relay.crashed = true) (events : List Event) :
    (run (step mac key) c events).1 = c := by
  refine @run_invariant _ _ _ (step mac key) (fun d => d = c) ?_ c rfl events
  rintro d e rfl
  simp only [step,crashed,if_true]

end

/-- After a cancellation all goroutines of a connection can come to their end exactly
    where their loops can and where the lock was not lost before the pollers ended. -/
theorem allEnd_iff (mac : List UInt8 → List UInt8 → List UInt8) (key : List UInt8) (events : List Event) :
    let c := (run (step mac key) start (events ++ [.relay .cancel])).1
    (∃ more, AllEnded (run (step mac key) c more).1) ↔ CanAllEnd mac key c := by
  intro c
  have inv : Inv c := run_inv start_inv _
  rcases run_cancelled events with halted | cancelled
  · constructor
    · rintro ⟨more,ended⟩
      rw [run_halted halted] at ended
      exact absurd (halted.symm.trans ended.crashed) (by decide)
    · intro can
      exact absurd (halted.symm.trans can.loops.crashed) (by decide)
  · exact ⟨fun ⟨more,ended⟩ => canAllEnd_of_ended inv cancelled ended,ended_of_canAllEnd inv cancelled⟩

end Zasper.ConnectionLeaks
