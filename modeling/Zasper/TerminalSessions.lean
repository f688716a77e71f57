import Mathlib.Data.List.InsertIdx
import Mathlib.Data.List.Perm.Basic
import Zasper.KernelManagers
import Zasper.Leases
import Zasper.Terminals
import Zasper.TerminalWriters

/-!
# Terminal sessions

All handlers of terminals together, from the start of a shell to the clean-up. A handler
that has stored its session waits for the keep-alive goroutine and for readFromTTY; then
it takes the session out of the table, under the id that it was stored with, and kills
its shell. The ids are times, and two of them may be one. Whatever ids there are, a
shell runs only while its handler waits, and no handler kills anything but its own shell
(`shells_held`). The table lists the handlers that wait as long as their ids differ
(`always_listed_iff`). What a handler waits for does not come about by the browser: a
terminal without output keeps its handler (`idle_stays`).
-/
namespace Zasper.TerminalSessions
open Zasper.Maps Zasper.Runs Zasper.Leases Zasper.KernelManagers Zasper.Terminals
open Zasper.TerminalWriters (Connection Goroutine next start)
set_option linter.unusedSimpArgs false

/-! ## The handlers -/

/-- A handler that has stored its session. -/
structure Handler where
  sessionID : String
  session : TerminalSession
  connection : Connection

/-- What the handler waits for: both goroutines are done. -/
def Handler.waited (h : Handler) : Prop :=
  h.connection.phase .keepAlive = .ended ∧ h.connection.phase .readFromTTY = .ended

instance (h : Handler) : Decidable h.waited := inferInstanceAs (Decidable (_ ∧ _))

/-- What the handler has put into the table. -/
def Handler.lease (h : Handler) : String × TerminalSession := (h.sessionID,h.session)

structure Server where
  terminals : TerminalState
  handlers : List Handler
  /-- The processes of the system that no terminal has started. -/
  others : List Nat

/-- The numbers in use. The system keeps that of a shell that has exited until the
    handler has waited for it. -/
def Server.taken (s : Server) : List Nat := s.handlers.map (·.session.pid) ++ s.others

inductive Event where
  /-- A request, with the outcome of the handshake, the time, and the process of the
      shell or the text of an error. -/
  | connects (upgrades : Bool) (sessionID : String) (started : Except String (Fresh Nat))
  /-- A step of the goroutines of the n-th handler. -/
  | goes (n : Nat) (event : TerminalWriters.Event)
  /-- The shell of the n-th handler exits by itself. -/
  | exits (n : Nat)
  /-- The n-th handler, which has waited for both goroutines, cleans up. -/
  | returns (n : Nat)
  /-- A process that no terminal starts, and the end of one. -/
  | otherStarts (pid : Fresh Nat)
  | otherEnds (pid : Nat)

def connect (osName : String) (upgrades : Bool) (sessionID : String) (started : Except String (Fresh Nat)) (s : Server) :
    Server :=
  let started := started.map (fun pid => pid.next s.taken)
  let terminals := (handleTerminalWebSocket osName ⟨upgrades,sessionID,started⟩ s.terminals).1
  match upgrades,started with
  | true,.ok pid =>
    let handler := ⟨sessionID,⟨[shellFor osName,"-l"],pid⟩,next start (.startTTY none)⟩
    { s with terminals := terminals, handlers := s.handlers ++ [handler] }
  | _,_ => { s with terminals := terminals }

/-- The kill hits whatever process has the number. -/
def kill (pid : Nat) (s : Server) : Server :=
  { s with
    terminals := { s.terminals with processes := s.terminals.processes.filter (· ≠ pid) }
    others := s.others.filter (· ≠ pid) }

def cleanupTTY (sessionID : String) (pid : Nat) (s : Server) : Server :=
  kill pid { s with terminals := { s.terminals with sessions := s.terminals.sessions.erase sessionID } }

/-- An event that cannot happen changes nothing. -/
def after (osName : String) (s : Server) : Event → Server
  | .connects upgrades sessionID started => connect osName upgrades sessionID started s
  | .goes n event =>
    { s with handlers := s.handlers.modify n (fun h => { h with connection := next h.connection event }) }
  | .exits n =>
    match s.handlers[n]? with
    | some h => { s with terminals := { s.terminals with processes := s.terminals.processes.erase h.session.pid } }
    | none => s
  | .returns n =>
    match s.handlers[n]? with
    | some h =>
      if h.waited then { cleanupTTY h.sessionID h.session.pid s with handlers := s.handlers.eraseIdx n }
      else s
    | none => s
  | .otherStarts pid => { s with others := pid.next s.taken :: s.others }
  | .otherEnds pid => { s with others := s.others.erase pid }

def step (osName : String) (s : Server) (e : Event) : Server × Unit := (after osName s e,())

def booted : Server := ⟨⟨.empty,[]⟩,[],[]⟩

/-! ## Shells and their handlers -/

/-- Every number belongs to one process, every shell and every entry of the table to a
    handler. -/
structure Inv (s : Server) : Prop where
  taken : s.taken.Nodup
  shells : ∀ pid ∈ s.terminals.processes, pid ∈ s.handlers.map (·.session.pid)
  once : s.terminals.processes.Nodup
  sessions : Within s.terminals.sessions (s.handlers.map Handler.lease)

theorem inv_booted : Inv booted where
  taken := List.nodup_nil
  shells _ inside := absurd inside List.not_mem_nil
  once := List.nodup_nil
  sessions := within_empty

/-- What stands in the handlers' variables stays where only their goroutines go on. -/
theorem goes_map {β : Type} (f : Handler → β) (frame : ∀ h c, f { h with connection := c } = f h) (event : TerminalWriters.Event)
    (handlers : List Handler) (n : Nat) :
    (handlers.modify n (fun h => { h with connection := next h.connection event })).map f = handlers.map f := by
  induction handlers generalizing n with
  | nil => simp
  | cons h handlers ih =>
    cases n with
    | zero => simpa using frame h (next h.connection event)
    | succ n => simp [ih]

/-- A handshake that is refused or a shell that does not start leaves no trace. -/
theorem connect_refused (osName : String) {upgrades : Bool} (sessionID : String) {started : Except String (Fresh Nat)}
    (refused : upgrades = false ∨ ∃ e, started = .error e) (s : Server) : connect osName upgrades sessionID started s = s := by
  rcases refused with rfl | ⟨e,rfl⟩
  · simp [connect,handleTerminalWebSocket]
  · cases upgrades <;> simp [connect,handleTerminalWebSocket,Except.map]

/-- A shell with a new number, and its handler. -/
theorem connect_opened (osName sessionID : String) (pid : Fresh Nat) (s : Server) :
    ∃ session : TerminalSession, session.pid ∉ s.taken ∧
      connect osName true sessionID (.ok pid) s =
        { s with
          terminals := ⟨s.terminals.sessions.insert sessionID session,session.pid :: s.terminals.processes⟩
          handlers := s.handlers ++ [⟨sessionID,session,next start (.startTTY none)⟩] } := by
  refine ⟨⟨[shellFor osName,"-l"],pid.next s.taken⟩,pid.fresh _,?_⟩
  simp [connect,handleTerminalWebSocket,Except.map]

theorem Inv.opened {s : Server} (inv : Inv s) (sessionID : String) {session : TerminalSession} (new : session.pid ∉ s.taken)
    (connection : Connection) :
    Inv { s with
          terminals := ⟨s.terminals.sessions.insert sessionID session,session.pid :: s.terminals.processes⟩
          handlers := s.handlers ++ [⟨sessionID,session,connection⟩] } := by
  obtain ⟨apart,-⟩ : session.pid ∉ s.handlers.map (·.session.pid) ∧ session.pid ∉ s.others :=
    not_or.mp (fun inside => new (List.mem_append.mpr inside))
  constructor
  · have distinct : (session.pid :: s.taken).Nodup := List.nodup_cons.mpr ⟨new,inv.taken⟩
    refine (List.Perm.nodup_iff ?_).mp distinct
    simp only [Server.taken,List.map_append,List.map_cons,List.map_nil,List.append_assoc,List.singleton_append]
    exact List.perm_middle.symm
  · intro pid inside
    rw [List.map_append]
    rcases List.mem_cons.mp inside with rfl | old
    · exact List.mem_append_right _ (by simp)
    · exact List.mem_append_left _ (inv.shells pid old)
  · exact List.nodup_cons.mpr ⟨fun runs => apart (inv.shells _ runs),inv.once⟩
  · simp only [List.map_append,List.map_cons,List.map_nil]
    exact inv.sessions.take sessionID session

/-- The handlers but one, and their processes. -/
theorem taken_eraseIdx {s : Server} {n : Nat} {h : Handler} (there : s.handlers[n]? = some h) :
    s.taken.Perm (h.session.pid :: ((s.handlers.eraseIdx n).map (·.session.pid) ++ s.others)) := by
  obtain ⟨bound,rfl⟩ := List.getElem?_eq_some_iff.mp there
  have split : s.handlers.Perm (s.handlers[n] :: s.handlers.eraseIdx n) := (List.getElem_cons_eraseIdx_perm bound).symm
  exact (split.map _).append_right _

/-- The handler's own shell is no other process and no other handler's. -/
theorem Inv.own {s : Server} (inv : Inv s) {n : Nat} {h : Handler} (there : s.handlers[n]? = some h) :
    h.session.pid ∉ (s.handlers.eraseIdx n).map (·.session.pid) ∧ h.session.pid ∉ s.others := by
  have distinct := (taken_eraseIdx there).nodup_iff.mp inv.taken
  simpa using (List.nodup_cons.mp distinct).1

theorem Inv.cleanup {s : Server} (inv : Inv s) {n : Nat} {h : Handler} (there : s.handlers[n]? = some h) :
    Inv { cleanupTTY h.sessionID h.session.pid s with handlers := s.handlers.eraseIdx n } := by
  obtain ⟨-,notOther⟩ := inv.own there
  have kept : s.others.filter (· ≠ h.session.pid) = s.others := by
    rw [List.filter_eq_self]
    intro pid inside
    have apart : pid ≠ h.session.pid := fun same => notOther (same ▸ inside)
    simpa using apart
  constructor
  · have distinct := (taken_eraseIdx there).nodup_iff.mp inv.taken
    simp only [Server.taken,cleanupTTY,kill,kept]
    exact (List.nodup_cons.mp distinct).2
  · intro pid inside
    obtain ⟨runs,other⟩ : pid ∈ s.terminals.processes ∧ pid ≠ h.session.pid := by
      simpa [cleanupTTY,kill] using inside
    obtain ⟨h',inside',rfl⟩ := List.mem_map.mp (inv.shells pid runs)
    obtain ⟨i,there'⟩ := List.mem_iff_getElem?.mp inside'
    apply List.mem_map_of_mem
    rw [List.mem_eraseIdx_iff_getElem?]
    refine ⟨i,?_,there'⟩
    rintro rfl
    rw [there] at there'
    exact other (congrArg (·.session.pid) (Option.some.inj there')).symm
  · exact inv.once.filter _
  · have listed : (s.handlers.map Handler.lease)[n]? = some (h.sessionID,h.session) := by
      rw [List.getElem?_map,there]
      rfl
    show Within (s.terminals.sessions.erase h.sessionID) ((s.handlers.eraseIdx n).map Handler.lease)
    rw [← List.eraseIdx_map]
    exact inv.sessions.giveBack listed

theorem Inv.after {s : Server} (inv : Inv s) (osName : String) (e : Event) : Inv (after osName s e) := by
  cases e with
  | connects upgrades sessionID started =>
    simp only [TerminalSessions.after]
    cases upgrades with
    | false => rwa [connect_refused osName sessionID (.inl rfl)]
    | true =>
      cases started with
      | error e => rwa [connect_refused osName sessionID (.inr ⟨e,rfl⟩)]
      | ok pid =>
        obtain ⟨session,new,opened⟩ := connect_opened osName sessionID pid s
        rw [opened]
        exact inv.opened sessionID new _
  | goes n event =>
    obtain ⟨taken,shells,once,sessions⟩ := inv
    refine ⟨?_,?_,once,?_⟩
    · simp only [TerminalSessions.after,Server.taken]
      rwa [goes_map (·.session.pid) (fun _ _ => rfl)]
    · simp only [TerminalSessions.after]
      rwa [goes_map (·.session.pid) (fun _ _ => rfl)]
    · simp only [TerminalSessions.after]
      rwa [goes_map Handler.lease (fun _ _ => rfl)]
  | exits n =>
    simp only [TerminalSessions.after]
    split
    · exact ⟨inv.taken,fun pid inside => inv.shells pid (List.mem_of_mem_erase inside),inv.once.erase _,inv.sessions⟩
    · exact inv
  | returns n =>
    simp only [TerminalSessions.after]
    split
    · split
      · exact inv.cleanup ‹_›
      · exact inv
    · exact inv
  | otherStarts pid =>
    refine ⟨?_,inv.shells,inv.once,inv.sessions⟩
    have distinct : (pid.next s.taken :: s.taken).Nodup := List.nodup_cons.mpr ⟨pid.fresh _,inv.taken⟩
    exact (List.perm_middle.symm.nodup_iff).mp distinct
  | otherEnds pid =>
    exact ⟨inv.taken.sublist (List.erase_sublist.append_left _),inv.shells,inv.once,inv.sessions⟩

theorem inv_run (osName : String) (events : List Event) : Inv (run (step osName) booted events).1 :=
  run_invariant (fun _ e inv => inv.after osName e) inv_booted events

theorem after_returns (osName : String) {s : Server} {n : Nat} {h : Handler} (there : s.handlers[n]? = some h)
    (waited : h.waited) :
    after osName s (.returns n) = { cleanupTTY h.sessionID h.session.pid s with handlers := s.handlers.eraseIdx n } := by
  simp only [after,there,waited,↓reduceIte]

/-- Whatever ids the sessions have, every shell that runs and every session in the table
    is that of a handler that waits, so that none is left when all have returned; and a
    handler that returns kills its shell, no other terminal's and no other process. -/
theorem shells_held (osName : String) (events : List Event) :
    let s := (run (step osName) booted events).1
    (∀ pid ∈ s.terminals.processes, ∃ h ∈ s.handlers, h.session.pid = pid) ∧
      (∀ e ∈ s.terminals.sessions.entries, ∃ h ∈ s.handlers, h.lease = e) ∧
      ∀ n h, s.handlers[n]? = some h → h.waited →
        let later := after osName s (.returns n)
        h.session.pid ∉ later.terminals.processes ∧ later.others = s.others ∧
          ∀ m g, m ≠ n → s.handlers[m]? = some g →
            (g.session.pid ∈ later.terminals.processes ↔ g.session.pid ∈ s.terminals.processes) := by
  intro s
  have inv : Inv s := inv_run osName events
  refine ⟨fun pid runs => List.mem_map.mp (inv.shells pid runs),fun e listed => List.mem_map.mp (inv.sessions e listed),?_⟩
  intro n h there waited later
  have cleaned : later = _ := after_returns osName there waited
  obtain ⟨ownShell,ownProcess⟩ := inv.own there
  rw [cleaned]
  refine ⟨by simp [cleanupTTY,kill],?_,?_⟩
  · show s.others.filter (· ≠ h.session.pid) = s.others
    rw [List.filter_eq_self]
    intro pid inside
    have apart : pid ≠ h.session.pid := fun same => ownProcess (same ▸ inside)
    simpa using apart
  · intro m g other there'
    have apart : g.session.pid ≠ h.session.pid := by
      intro same
      apply ownShell
      rw [← same]
      exact List.mem_map_of_mem (List.mem_eraseIdx_iff_getElem?.mpr ⟨m,other,there'⟩)
    simp [cleanupTTY,kill,apart]

/-! ## The table of sessions -/

/-- The table lists the handlers that wait, each under its own id. -/
def Listed (s : Server) : Prop := Agrees s.terminals.sessions (s.handlers.map Handler.lease)

/-- A session that is stored has another id than the handlers that wait. -/
def NewID (s : Server) : Event → Prop
  | .connects true sessionID (.ok _) => ∀ h ∈ s.handlers, h.sessionID ≠ sessionID
  | _ => True

theorem listed_after {osName : String} {s : Server} (listed : Listed s) {e : Event} (newID : NewID s e) :
    Listed (after osName s e) := by
  unfold Listed at listed ⊢
  cases e with
  | connects upgrades sessionID started =>
    simp only [after]
    cases upgrades with
    | false => rwa [connect_refused osName sessionID (.inl rfl)]
    | true =>
      cases started with
      | error e => rwa [connect_refused osName sessionID (.inr ⟨e,rfl⟩)]
      | ok pid =>
        obtain ⟨session,-,opened⟩ := connect_opened osName sessionID pid s
        rw [opened]
        simp only [List.map_append,List.map_cons,List.map_nil]
        apply listed.take
        intro e inside
        obtain ⟨h,waits,rfl⟩ := List.mem_map.mp inside
        exact newID h waits
  | goes n event =>
    simp only [after]
    rwa [goes_map Handler.lease (fun _ _ => rfl)]
  | exits n =>
    simp only [after]
    split <;> exact listed
  | returns n =>
    simp only [after]
    split
    · rename_i h there
      split
      · have holder : (s.handlers.map Handler.lease)[n]? = some (h.sessionID,h.session) := by
          rw [List.getElem?_map,there]
          rfl
        show Agrees (s.terminals.sessions.erase h.sessionID) ((s.handlers.eraseIdx n).map Handler.lease)
        rw [← List.eraseIdx_map]
        exact listed.giveBack holder
      · exact listed
    · exact listed
  | otherStarts pid => exact listed
  | otherEnds pid => exact listed

/-- With the id of a handler that waits, the session is stored in the place of that
    handler's. -/
theorem newID_of_listed {osName : String} {s : Server} {e : Event} (listed : Listed (after osName s e)) : NewID s e := by
  cases e with
  | connects upgrades sessionID started =>
    cases upgrades with
    | false => trivial
    | true =>
      cases started with
      | error e => trivial
      | ok pid =>
        obtain ⟨session,-,opened⟩ := connect_opened osName sessionID pid s
        simp only [Listed,after,opened,List.map_append,List.map_cons,List.map_nil] at listed
        intro h waits
        exact listed.fresh h.lease (List.mem_map_of_mem waits)
  | _ => trivial

/-- The table lists the handlers that wait, in every state of a run, if and only if every
    session is stored under an id that no other handler has. -/
theorem always_listed_iff (osName : String) (events : List Event) :
    Always (step osName) Listed booted events ↔ Meets (step osName) NewID booted events := by
  apply always_iff_meets (fun s listed => listed)
  · exact fun _ _ listed newID => listed_after listed newID
  · exact fun _ _ _ listed => newID_of_listed listed
  · exact agrees_empty

/-! ## What ends a handler -/

def isOutput : TerminalWriters.Event → Bool
  | .read (some _) => true
  | _ => false

/-- Where readFromTTY is after `reads` pieces of output, if no read has failed: the piece
    that it writes is not among those whose writes have failed. -/
def Reading (reads : Nat) (c : Connection) : Prop :=
  c.errorCounter ≤ reads ∧
    match c.phase .readFromTTY with
    | .ready message => message.messageType = .binary ∧ c.errorCounter < reads
    | .writing message => message.messageType = .binary ∧ c.errorCounter < reads
    | .ended => TerminalWriters.defaultConnectionErrorLimit < reads
    | _ => True

theorem reading_start : Reading 0 start := ⟨Nat.le_refl 0,trivial⟩

/-- At the head of its loop readFromTTY ends only after eleven writes that failed. -/
theorem reading_loop {reads : Nat} {c : Connection} (counted : c.errorCounter ≤ reads)
    (loops : c.phase .readFromTTY = TerminalWriters.readLoop c.errorCounter) : Reading reads c := by
  refine ⟨counted,?_⟩
  rw [loops]
  unfold TerminalWriters.readLoop
  split_ifs with failing
  · exact lt_of_lt_of_le failing counted
  · trivial

/-- What the other goroutines do does not change where readFromTTY is. -/
theorem Reading.frame {reads : Nat} {c d : Connection} (reading : Reading reads c) (counter : d.errorCounter = c.errorCounter)
    (phase : d.phase .readFromTTY = c.phase .readFromTTY) : Reading reads d := by
  unfold Reading
  rw [counter,phase]
  exact reading

theorem Reading.more {reads : Nat} {c : Connection} (reading : Reading reads c) : Reading (reads+1) c := by
  obtain ⟨counted,stands⟩ := reading
  refine ⟨Nat.le_succ_of_le counted,?_⟩
  cases phase : c.phase .readFromTTY with
  | ready message =>
    rw [phase] at stands
    exact ⟨stands.1,Nat.lt_succ_of_lt stands.2⟩
  | writing message =>
    rw [phase] at stands
    exact ⟨stands.1,Nat.lt_succ_of_lt stands.2⟩
  | ended =>
    rw [phase] at stands
    exact Nat.lt_succ_of_lt stands
  | _ => trivial

/-- After WriteMessage. A write of a piece of output that failed counts it. -/
theorem Reading.written {reads : Nat} {c : Connection} (reading : Reading reads c) {g : Goroutine}
    {message : TerminalWriters.Message} (writing : c.phase g = .writing message) (failed : Bool) :
    Reading reads (TerminalWriters.written c g message failed) := by
  cases g with
  | handler => exact reading.frame rfl (TerminalWriters.set_phase_other _ (by decide) _)
  | keepAlive => exact reading.frame rfl (TerminalWriters.set_phase_other _ (by decide) _)
  | readFromTTY =>
    obtain ⟨counted,stands⟩ := reading
    rw [writing] at stands
    obtain ⟨binary,counts⟩ := stands
    have loops : TerminalWriters.written c .readFromTTY message failed =
        { c.set .readFromTTY (TerminalWriters.readLoop (if failed then c.errorCounter + 1 else 0)) with
          errorCounter := if failed then c.errorCounter + 1 else 0 } := by
      simp [TerminalWriters.written,binary]
    rw [loops]
    apply reading_loop
    · show (if failed then c.errorCounter + 1 else 0) ≤ reads
      split_ifs <;> omega
    · exact TerminalWriters.set_phase_self c .readFromTTY _

theorem Reading.next {reads : Nat} {c : Connection} (reading : Reading reads c) {e : TerminalWriters.Event}
    (silent : e ≠ .read none) : Reading (reads + if isOutput e then 1 else 0) (next c e) := by
  cases e with
  | startTTY err =>
    show Reading reads _
    simp only [TerminalWriters.next]
    split
    · exact reading.frame rfl (TerminalWriters.set_phase_other _ (by decide) _)
    · exact reading_loop reading.1 (TerminalWriters.set_phase_self ..)
    · exact reading
  | slept expired =>
    show Reading reads _
    simp only [TerminalWriters.next]
    split
    · exact reading.frame rfl (TerminalWriters.set_phase_other _ (by decide) _)
    · exact reading
  | read output =>
    cases output with
    | none => exact absurd rfl silent
    | some data =>
      show Reading (reads+1) _
      simp only [TerminalWriters.next]
      split
      · rename_i read
        cases read
      · refine ⟨Nat.le_succ_of_le reading.1,?_⟩
        rw [TerminalWriters.set_phase_self]
        exact ⟨rfl,Nat.lt_succ_of_le reading.1⟩
      · exact reading.more
  | starts g =>
    show Reading reads _
    simp only [TerminalWriters.next]
    split
    · rename_i message ready
      by_cases same : g = .readFromTTY
      · subst same
        obtain ⟨counted,stands⟩ := reading
        rw [ready] at stands
        refine ⟨counted,?_⟩
        rw [TerminalWriters.set_phase_self]
        exact stands
      · exact reading.frame rfl (TerminalWriters.set_phase_other _ (Ne.symm same) _)
    · exact reading
  | ends g failed =>
    show Reading reads _
    simp only [TerminalWriters.next]
    split
    · exact reading.written ‹_› failed
    · exact reading

theorem reading_run {events : List TerminalWriters.Event} (silent : .read none ∉ events) {reads : Nat} {c : Connection}
    (reading : Reading reads c) : Reading (reads + events.countP isOutput) (run TerminalWriters.step c events).1 := by
  induction events generalizing reads c with
  | nil => exact reading
  | cons e events ih =>
    obtain ⟨here,later⟩ := not_or.mp (List.mem_cons.not.mp silent)
    have rest := ih later (reading.next (Ne.symm here))
    rw [List.countP_cons,Nat.add_comm (events.countP _),← Nat.add_assoc]
    exact rest

/-- Whatever becomes of the browser, the handler of a terminal waits until a read from the
    terminal fails or there has been output for the eleventh time. -/
theorem idle_stays (sessionID : String) (session : TerminalSession) (events : List TerminalWriters.Event)
    (silent : .read none ∉ events) (few : events.countP isOutput ≤ TerminalWriters.defaultConnectionErrorLimit) :
    ¬ (Handler.mk sessionID session (run TerminalWriters.step start events).1).waited := by
  rintro ⟨-,ended⟩
  obtain ⟨-,stands⟩ := reading_run silent reading_start
  rw [ended] at stands
  have many : TerminalWriters.defaultConnectionErrorLimit < 0 + events.countP isOutput := stands
  omega

/-- The browser does not answer the ping. -/
theorem idle_expired :
    ¬ (Handler.mk "1" ⟨["bash","-l"],7⟩
        (run TerminalWriters.step start [.startTTY none,.starts .keepAlive,.ends .keepAlive false,.slept true]).1).waited :=
  idle_stays "1" ⟨["bash","-l"],7⟩ _ (by decide) (by decide)

end Zasper.TerminalSessions
