import Zasper.Relay

/-!
# The end of a connection

What becomes of the goroutines of a kernel connection once its context is cancelled, as
it is when its kernel is deleted. A poller ends when it comes back to the top of its
loop, which it does only once its message is taken; the writer takes one message at
most, and only where it waits for one already (`cancelled_quiet`). So their loops can all
end only if just as many messages are there to be taken as the writer still takes
(`canEnd_of_ended`), and as long as no write has failed they then do (`ended_of_canEnd`).
-/
namespace Zasper.ConnectionEnds
open Zasper.Slices Zasper.KernelSession Zasper.Runs Zasper.Relay
set_option linter.unusedSimpArgs false

/-! ## What is pending -/

/-- The channels in the order in which their polling is started. -/
def channels : List Channel := [.iopub,.control,.stdin,.shell]

theorem mem_channels (channel : Channel) : channel ∈ channels := by cases channel <;> decide

/-- Whether a poller has a message that is not taken. -/
def isPending : Poller → Bool
  | .received _ | .sending _ => true
  | _ => false

/-- How many of the channels have a message that is not taken. -/
def pendingIn (s : State) (among : List Channel) : Nat := among.countP (fun channel => isPending (s.pollers channel))

def pending (s : State) : Nat := pendingIn s channels

/-- How many messages the writer takes after the context was cancelled. -/
def room (s : State) : Nat :=
  match s.writer with
  | .receiving => 1
  | _ => 0

/-- All loops have come to their end, and the server runs on. -/
structure Ended (s : State) : Prop where
  pollers : ∀ channel, s.pollers channel = .finished
  writer : s.writer = .finished
  crashed : s.crashed = false

/-- No write of the writer. -/
def Quiet : Event → Prop
  | .write | .writeFailed => False
  | _ => True

section
variable (mac : List UInt8 → List UInt8 → List UInt8) (key : List UInt8)

/-- The poller holds a message whose reading panics. -/
def Unreadable (s : State) (channel : Channel) : Prop :=
  ∃ zmsg, s.pollers channel = .received zmsg ∧ (pollMessage mac key zmsg channel.socketName).result = none

/-- The loops can end: the messages that wait are as many as are taken, or one can still
    come for a writer that waits. -/
structure CanEnd (s : State) : Prop where
  crashed : s.crashed = false
  readable : ∀ channel, ¬ Unreadable mac key s channel
  taken : pending s = room s ∨ pending s < room s ∧ ∃ channel, s.pollers channel = .receiving

/-- What a state is like on the way to the end. -/
structure Winding (s : State) : Prop where
  cancelled : s.cancelled = true
  crashed : s.crashed = false
  failed : s.failed = false
  readable : ∀ channel, ¬ Unreadable mac key s channel

end

theorem poller_other (s : State) {channel other : Channel} (different : other ≠ channel) (next : Poller) :
    (s.poller channel next).pollers other = s.pollers other := Function.update_of_ne different ..

@[simp] theorem poller_self (s : State) (channel : Channel) (next : Poller) :
    (s.poller channel next).pollers channel = next := Function.update_self ..

theorem pendingIn_cons (s : State) (channel : Channel) (rest : List Channel) :
    pendingIn s (channel :: rest) = pendingIn s rest + (isPending (s.pollers channel)).toNat := by
  rw [pendingIn,List.countP_cons]
  cases isPending (s.pollers channel) <;> rfl

theorem pendingIn_congr {s t : State} {among : List Channel} (same : ∀ c ∈ among, t.pollers c = s.pollers c) :
    pendingIn t among = pendingIn s among :=
  List.countP_congr (fun c inside => by rw [same c inside])

/-- One channel counts for itself. -/
theorem pending_poller (s : State) (channel : Channel) (next : Poller) :
    pending (s.poller channel next) + (isPending (s.pollers channel)).toNat = pending s + (isPending next).toNat := by
  have first (t : State) : pending t = pendingIn t (channels.erase channel) + (isPending (t.pollers channel)).toNat := by
    rw [← pendingIn_cons]
    exact List.Perm.countP_eq _ (List.perm_cons_erase (mem_channels channel))
  have others : pendingIn (s.poller channel next) (channels.erase channel) = pendingIn s (channels.erase channel) := by
    refine pendingIn_congr (fun c inside => poller_other s ?_ next)
    rintro rfl
    exact absurd inside (List.Nodup.not_mem_erase (by decide))
  rw [first,first s,others,poller_self]
  omega

/-! ## The last messages -/

/-- How many messages the writer may still write once the context is cancelled. -/
def inHand : Writer → Nat
  | .receiving | .writing _ _ => 1
  | _ => 0

/-- How many messages a poller may still receive once the context is cancelled. -/
def awaited : Poller → Nat
  | .receiving => 1
  | _ => 0

theorem inHand_le (w : Writer) : inHand w ≤ 1 := by cases w <;> simp [inHand]
theorem awaited_le (p : Poller) : awaited p ≤ 1 := by cases p <;> simp [awaited]

section
variable {mac : List UInt8 → List UInt8 → List UInt8} {key : List UInt8}

/-- One event writes what the writer has in hand, if anything. -/
theorem handle_written {s : State} (cancelled : s.cancelled = true) (e : Event) :
    ∃ last, (handle mac key s e).written = s.written ++ last ∧
      last.length + inHand (handle mac key s e).writer ≤ inHand s.writer := by
  have none {t : State} (written : t.written = s.written) (fewer : inHand t.writer ≤ inHand s.writer) :
      ∃ last, t.written = s.written ++ last ∧ last.length + inHand t.writer ≤ inHand s.writer :=
    ⟨[],by rw [written,List.append_nil],by simpa using fewer⟩
  obtain ⟨writer,stands⟩ : ∃ writer, s.writer = writer := ⟨_,rfl⟩
  cases e with
  | poll channel | recv channel zmsg | recvFailed channel =>
    cases there : s.pollers channel <;> simp only [handle,there] <;> exact none rfl (le_refl _)
  | deserialize channel =>
    cases there : s.pollers channel <;> simp only [handle,there] <;> try exact none rfl (le_refl _)
    split <;> exact none rfl (le_refl _)
  | look => cases writer <;> exact none (by simp [handle,stands]) (by simp [handle,stands,cancelled,inHand])
  | send channel =>
    cases there : s.pollers channel <;> simp only [handle,there] <;> try exact none rfl (le_refl _)
    cases writer <;> exact none (by simp [stands,State.poller]) (by simp [stands,inHand])
  | write =>
    cases writer with
    | writing channel message => exact ⟨[(channel,message)],by simp [handle,stands],by simp [handle,stands,inHand]⟩
    | looping | receiving | finished => exact none (by simp [handle,stands]) (by simp [handle,stands])
  | writeFailed => cases writer <;> exact none (by simp [handle,stands]) (by simp [handle,stands,inHand])
  | cancel => exact none rfl (le_refl _)

/-- One event receives on a channel what its poller waits for, if it does. -/
theorem handle_messages {s : State} (cancelled : s.cancelled = true) (e : Event) (channel : Channel) :
    ∃ new, (handle mac key s e).messages channel = s.messages channel ++ new ∧
      new.length + awaited ((handle mac key s e).pollers channel) ≤ awaited (s.pollers channel) := by
  have none {t : State} (messages : t.messages = s.messages)
      (fewer : awaited (t.pollers channel) ≤ awaited (s.pollers channel)) :
      ∃ new, t.messages channel = s.messages channel ++ new ∧
        new.length + awaited (t.pollers channel) ≤ awaited (s.pollers channel) :=
    ⟨[],by rw [messages,List.append_nil],by simpa using fewer⟩
  have moves (other : Channel) {next : Poller} (stops : awaited next = 0) :
      awaited ((s.poller other next).pollers channel) ≤ awaited (s.pollers channel) := by
    by_cases same : channel = other
    · subst same
      rw [poller_self,stops]
      exact Nat.zero_le _
    · rw [poller_other s same]
  cases e with
  | poll other =>
    cases stands : s.pollers other <;> simp only [handle,stands] <;> try exact none rfl (le_refl _)
    rw [if_pos cancelled]
    exact none rfl (moves other rfl)
  | recv other zmsg =>
    cases stands : s.pollers other <;> simp only [handle,stands] <;> try exact none rfl (le_refl _)
    have stops := @moves other (.received zmsg) rfl
    by_cases same : channel = other
    · subst same
      exact ⟨[zmsg],Function.update_self ..,by simp [poller_self,stands,awaited]⟩
    · exact ⟨[],by rw [List.append_nil]; exact Function.update_of_ne same ..,by simpa using stops⟩
  | recvFailed other =>
    cases stands : s.pollers other <;> simp only [handle,stands] <;> try exact none rfl (le_refl _)
    exact none rfl (moves other rfl)
  | deserialize other =>
    cases stands : s.pollers other <;> simp only [handle,stands] <;> try exact none rfl (le_refl _)
    split
    · exact none rfl (moves other rfl)
    · exact none rfl (le_refl _)
  | send other =>
    cases stands : s.pollers other <;> simp only [handle,stands] <;> try exact none rfl (le_refl _)
    cases s.writer <;> try exact none rfl (le_refl _)
    exact none rfl (moves other rfl)
  | look | write | writeFailed =>
    cases stands : s.writer <;> simp only [handle,stands] <;> exact none rfl (le_refl _)
  | cancel => exact none rfl (le_refl _)

end

/-! ## What no event undoes -/

section
variable {mac : List UInt8 → List UInt8 → List UInt8} {key : List UInt8}

theorem handle_cancelled {s : State} (cancelled : s.cancelled = true) (e : Event) :
    (handle mac key s e).cancelled = true := by
  cases e
  all_goals
    simp only [handle]
    repeat' split
    all_goals exact cancelled

/-- After the cancellation the messages that wait become no fewer than the writer takes. -/
theorem handle_pending {s : State} (cancelled : s.cancelled = true) (e : Event) :
    pending s + room (handle mac key s e) ≤ pending (handle mac key s e) + room s := by
  have moves (channel : Channel) (next : Poller) := pending_poller s channel next
  cases e with
  | poll channel =>
    cases stands : s.pollers channel <;> simp only [handle,stands,le_refl]
    have counted := moves channel .finished
    simp only [stands,isPending,Bool.toNat_false] at counted
    simp only [cancelled,if_true]
    have same : room (s.poller channel .finished) = room s := rfl
    omega
  | recv channel zmsg =>
    cases stands : s.pollers channel <;> simp only [handle,stands,le_refl]
    have counted := moves channel (.received zmsg)
    simp only [stands,isPending,Bool.toNat_false,Bool.toNat_true] at counted
    change pending s + room s ≤ pending (s.poller channel (.received zmsg)) + room s
    omega
  | recvFailed channel =>
    cases stands : s.pollers channel <;> simp only [handle,stands,le_refl]
    have counted := moves channel .looping
    simp only [stands,isPending,Bool.toNat_false] at counted
    have same : room (s.poller channel .looping) = room s := rfl
    omega
  | deserialize channel =>
    cases stands : s.pollers channel <;> simp only [handle,stands,le_refl]
    split
    · next message read =>
      have counted := moves channel (.sending message)
      simp only [stands,isPending,Bool.toNat_true] at counted
      have same : room (s.poller channel (.sending message)) = room s := rfl
      omega
    · exact le_refl _
  | look =>
    cases stands : s.writer <;> simp only [handle,stands,le_refl]
    rw [if_pos cancelled]
    simp only [room,stands]
    exact le_refl _
  | send channel =>
    cases stands : s.pollers channel <;> simp only [handle,stands,le_refl]
    cases waits : s.writer <;> simp only [le_refl]
    next message =>
      have counted := moves channel .looping
      simp only [stands,isPending,Bool.toNat_false,Bool.toNat_true] at counted
      have same : pending { s.poller channel .looping with writer := .writing channel message } =
        pending (s.poller channel .looping) := rfl
      simp only [same,room,waits]
      omega
  | write =>
    cases stands : s.writer <;> simp only [handle,stands,le_refl]
    simp only [room,stands]
    exact le_refl _
  | writeFailed =>
    cases stands : s.writer <;> simp only [handle,stands,le_refl]
    simp only [room,stands]
    exact le_refl _
  | cancel => exact le_refl _

/-- The writer waits for a message, and no poller has one or waits for one. -/
structure Starved (s : State) : Prop where
  cancelled : s.cancelled = true
  writer : s.writer = .receiving
  pollers : ∀ channel, s.pollers channel = .looping ∨ s.pollers channel = .finished

theorem starved_handle {s : State} (starved : Starved s) (e : Event) : Starved (handle mac key s e) := by
  obtain ⟨cancelled,writer,pollers⟩ := starved
  cases e with
  | poll channel =>
    rcases pollers channel with stands | stands <;> simp only [handle,stands]
    · refine ⟨cancelled,writer,fun other => ?_⟩
      rw [if_pos cancelled]
      by_cases same : other = channel
      · subst same
        exact .inr (poller_self ..)
      · rw [poller_other s same]
        exact pollers other
    · exact ⟨cancelled,writer,pollers⟩
  | recv channel zmsg =>
    rcases pollers channel with stands | stands <;> simp only [handle,stands] <;> exact ⟨cancelled,writer,pollers⟩
  | recvFailed channel =>
    rcases pollers channel with stands | stands <;> simp only [handle,stands] <;> exact ⟨cancelled,writer,pollers⟩
  | deserialize channel =>
    rcases pollers channel with stands | stands <;> simp only [handle,stands] <;> exact ⟨cancelled,writer,pollers⟩
  | send channel =>
    rcases pollers channel with stands | stands <;> simp only [handle,stands] <;> exact ⟨cancelled,writer,pollers⟩
  | look | write | writeFailed =>
    simp only [handle,writer]
    exact ⟨cancelled,writer,pollers⟩
  | cancel => exact ⟨rfl,writer,pollers⟩

/-- A message that cannot be read is read, and the server ends, or it stays. -/
theorem unreadable_handle {s : State} {channel : Channel} (unreadable : Unreadable mac key s channel) (e : Event) :
    (handle mac key s e).crashed = true ∨ Unreadable mac key (handle mac key s e) channel := by
  obtain ⟨zmsg,stands,panics⟩ := unreadable
  have stays (other : Channel) (next : Poller) (different : other ≠ channel) :
      (s.poller other next).pollers channel = .received zmsg := by
    rw [poller_other s (Ne.symm different),stands]
  have apart {other : Channel} (elsewhere : s.pollers other ≠ .received zmsg) : other ≠ channel := by
    rintro rfl
    exact elsewhere stands
  cases e with
  | poll other =>
    cases there : s.pollers other <;> simp only [handle,there] <;> try exact .inr ⟨zmsg,stands,panics⟩
    exact .inr ⟨zmsg,stays _ _ (apart (by simp [there])),panics⟩
  | recv other new =>
    cases there : s.pollers other <;> simp only [handle,there] <;> try exact .inr ⟨zmsg,stands,panics⟩
    exact .inr ⟨zmsg,stays _ _ (apart (by simp [there])),panics⟩
  | recvFailed other =>
    cases there : s.pollers other <;> simp only [handle,there] <;> try exact .inr ⟨zmsg,stands,panics⟩
    exact .inr ⟨zmsg,stays _ _ (apart (by simp [there])),panics⟩
  | deserialize other =>
    cases there : s.pollers other <;> simp only [handle,there] <;> try exact .inr ⟨zmsg,stands,panics⟩
    split
    · next message read =>
      refine .inr ⟨zmsg,stays _ _ ?_,panics⟩
      rintro rfl
      rw [there] at stands
      obtain rfl := Poller.received.inj stands
      rw [panics] at read
      cases read
    · exact .inl rfl
  | send other =>
    cases there : s.pollers other <;> simp only [handle,there] <;> try exact .inr ⟨zmsg,stands,panics⟩
    cases s.writer <;> try exact .inr ⟨zmsg,stands,panics⟩
    exact .inr ⟨zmsg,stays _ _ (apart (by simp [there])),panics⟩
  | look | write | writeFailed =>
    right
    cases there : s.writer <;> simp only [handle,there] <;> exact ⟨zmsg,stands,panics⟩
  | cancel => exact .inr ⟨zmsg,stands,panics⟩

/-! ## Which connections cannot end -/

/-- What every event keeps while the server runs, every run keeps. -/
theorem run_handles {Inv : State → Prop} (keeps : ∀ s e, Inv s → Inv (handle mac key s e)) {s : State} (start : Inv s)
    (events : List Event) : Inv (run (step mac key) s events).1 := by
  refine run_invariant ?_ start events
  intro s e inv
  simp only [step]
  split_ifs
  · exact inv
  · exact keeps s e inv

theorem run_crashed {s : State} (crashed : s.crashed = true) (events : List Event) :
    (run (step mac key) s events).1 = s := by
  refine @run_invariant _ _ _ (step mac key) (fun t => t = s) ?_ s rfl events
  rintro t e rfl
  simp only [step,crashed,if_true]

theorem pending_zero {s : State} (none : pending s = 0) (channel : Channel) : isPending (s.pollers channel) = false := by
  have all := List.countP_eq_zero.mp none channel (mem_channels channel)
  simpa using all

theorem pending_of_finished {s : State} (finished : ∀ channel, s.pollers channel = .finished) : pending s = 0 := by
  refine List.countP_eq_zero.mpr (fun channel _ => ?_)
  simp [finished channel,isPending]

theorem room_le (s : State) : room s ≤ 1 := by
  unfold room
  split <;> omega

theorem receiving_of_room {s : State} (some : 0 < room s) : s.writer = .receiving := by
  unfold room at some
  split at some
  · assumption
  · omega

/-- A connection that comes to its end could do so. -/
theorem canEnd_of_ended {s : State} (cancelled : s.cancelled = true) {more : List Event}
    (ended : Ended (run (step mac key) s more).1) : CanEnd mac key s := by
  have crashed : s.crashed = false := by
    by_contra crashed
    rw [Bool.not_eq_false] at crashed
    have still := ended.crashed
    rw [run_crashed crashed,crashed] at still
    cases still
  refine ⟨crashed,?_,?_⟩
  · intro channel unreadable
    have still := @run_invariant _ _ _ (step mac key) (fun t => t.crashed = true ∨ Unreadable mac key t channel) (by
      intro t e inv
      simp only [step]
      split_ifs with halted
      · exact .inl halted
      · exact unreadable_handle (inv.resolve_left halted) e) s (.inr unreadable) more
    rcases still with halted | ⟨zmsg,stands,-⟩
    · rw [ended.crashed] at halted
      cases halted
    · rw [ended.pollers channel] at stands
      cases stands
  · have balance := @run_handles mac key (fun t => t.cancelled = true ∧ pending s + room t ≤ pending t + room s) (by
      rintro t e ⟨cancelled,balance⟩
      have one := @handle_pending mac key t cancelled e
      exact ⟨handle_cancelled cancelled e,by omega⟩) s ⟨cancelled,le_refl _⟩ more
    have none := pending_of_finished ended.pollers
    rcases Nat.lt_or_ge (pending s) (room s) with fewer | enough
    · refine .inr ⟨fewer,?_⟩
      by_contra nobody
      have limit := room_le s
      have silent := pending_zero (by omega : pending s = 0)
      have starved : Starved s := by
        refine ⟨cancelled,receiving_of_room (by omega),fun channel => ?_⟩
        have quiet := silent channel
        cases stands : s.pollers channel with
        | looping => exact .inl rfl
        | finished => exact .inr rfl
        | receiving => exact absurd ⟨channel,stands⟩ nobody
        | received zmsg => simp [stands,isPending] at quiet
        | sending message => simp [stands,isPending] at quiet
      have still := @run_handles mac key Starved (fun _ e starved => starved_handle starved e) s starved more
      have waits := still.writer
      rw [ended.writer] at waits
      cases waits
    · exact .inl (by omega)

/-! ## How the others end -/

/-- A channel is brought to its end: its message is read and taken, and its poller looks
    at the context. -/
def wind (channel : Channel) : List Event := [.deserialize channel,.send channel,.recvFailed channel,.poll channel]

/-- What winding up a channel leaves behind. -/
structure Wound (s t : State) (channel : Channel) : Prop where
  cancelled : t.cancelled = true
  crashed : t.crashed = false
  failed : t.failed = false
  finished : t.pollers channel = .finished
  others : ∀ other, other ≠ channel → t.pollers other = s.pollers other
  writer : room t + (isPending (s.pollers channel)).toNat = room s

theorem wind_sending {s : State} {channel : Channel} {message : List UInt8} (cancelled : s.cancelled = true)
    (crashed : s.crashed = false) (failed : s.failed = false) (stands : s.pollers channel = .sending message)
    (waits : s.writer = .receiving) :
    Wound s (run (step mac key) s [.send channel,.recvFailed channel,.poll channel]).1 channel := by
  have sent : (step mac key s (.send channel)).1 =
      { s.poller channel .looping with writer := .writing channel message } := by
    simp only [step,crashed,Bool.false_eq_true,if_false,handle,stands,waits]
  have again : (step mac key { s.poller channel .looping with writer := .writing channel message }
      (.recvFailed channel)).1 = { s.poller channel .looping with writer := .writing channel message } := by
    simp [step,handle,State.poller]
  have ended : (step mac key { s.poller channel .looping with writer := .writing channel message }
      (.poll channel)).1 = { s.poller channel .finished with writer := .writing channel message } := by
    simp [step,handle,State.poller,crashed,cancelled]
  simp only [run,sent,again,ended]
  refine ⟨cancelled,crashed,failed,poller_self ..,fun other different => poller_other s different _,?_⟩
  simp [room,waits,stands,isPending]

theorem wind_looping {s : State} {channel : Channel} (cancelled : s.cancelled = true) (crashed : s.crashed = false)
    (failed : s.failed = false) (stands : s.pollers channel = .looping) :
    Wound s (run (step mac key) s [.poll channel]).1 channel := by
  have ended : (step mac key s (.poll channel)).1 = s.poller channel .finished := by
    simp only [step,crashed,Bool.false_eq_true,if_false,handle,stands,cancelled,if_true]
  simp only [run,ended]
  refine ⟨cancelled,crashed,failed,poller_self ..,fun other different => poller_other s different _,?_⟩
  simp only [stands,isPending,Bool.toNat_false,Nat.add_zero]
  rfl

theorem Wound.congr {s t u : State} {channel : Channel} (wound : Wound s t channel)
    (others : ∀ other, other ≠ channel → s.pollers other = u.pollers other) (writer : room s = room u)
    (same : isPending (s.pollers channel) = isPending (u.pollers channel)) : Wound u t channel :=
  ⟨wound.cancelled,wound.crashed,wound.failed,wound.finished,
    fun other different => (wound.others other different).trans (others other different),by rw [← same,wound.writer,writer]⟩

/-- Where the writer takes its message, a channel is wound up. -/
theorem wind_wound {s : State} (winding : Winding mac key s) (channel : Channel)
    (takes : isPending (s.pollers channel) = true → s.writer = .receiving) :
    Wound s (run (step mac key) s (wind channel)).1 channel := by
  obtain ⟨cancelled,crashed,failed,readable⟩ := winding
  have idle {e : Event} (kept : handle mac key s e = s) : (step mac key s e).1 = s := by
    simp only [step,crashed,Bool.false_eq_true,if_false,kept]
  cases stands : s.pollers channel with
  | finished =>
    have all : (run (step mac key) s (wind channel)).1 = s := by
      simp only [wind,run,idle (by simp only [handle,stands] : handle mac key s (.deserialize channel) = s),
        idle (by simp only [handle,stands] : handle mac key s (.send channel) = s),
        idle (by simp only [handle,stands] : handle mac key s (.recvFailed channel) = s),
        idle (by simp only [handle,stands] : handle mac key s (.poll channel) = s)]
    rw [all]
    exact ⟨cancelled,crashed,failed,stands,fun _ _ => rfl,by simp [stands,isPending]⟩
  | looping =>
    have first : (run (step mac key) s (wind channel)).1 = (run (step mac key) s [.poll channel]).1 := by
      simp only [wind,run,idle (by simp only [handle,stands] : handle mac key s (.deserialize channel) = s),
        idle (by simp only [handle,stands] : handle mac key s (.send channel) = s),
        idle (by simp only [handle,stands] : handle mac key s (.recvFailed channel) = s)]
    rw [first]
    exact wind_looping cancelled crashed failed stands
  | receiving =>
    have back : (step mac key s (.recvFailed channel)).1 = s.poller channel .looping := by
      simp only [step,crashed,Bool.false_eq_true,if_false,handle,stands]
    have first : (run (step mac key) s (wind channel)).1 =
        (run (step mac key) (s.poller channel .looping) [.poll channel]).1 := by
      simp only [wind,run,idle (by simp only [handle,stands] : handle mac key s (.deserialize channel) = s),
        idle (by simp only [handle,stands] : handle mac key s (.send channel) = s),back]
    have wound := @wind_looping mac key (s.poller channel .looping) channel cancelled crashed failed (poller_self ..)
    rw [first]
    refine wound.congr (fun other different => poller_other s different _) rfl ?_
    simp [stands,isPending]
  | sending message =>
    have waits := takes (by simp [stands,isPending])
    have first : (run (step mac key) s (wind channel)).1 =
        (run (step mac key) s [.send channel,.recvFailed channel,.poll channel]).1 := by
      simp only [wind,run,idle (by simp only [handle,stands] : handle mac key s (.deserialize channel) = s)]
    rw [first]
    exact wind_sending cancelled crashed failed stands waits
  | received zmsg =>
    have waits := takes (by simp [stands,isPending])
    obtain ⟨message,read⟩ : ∃ message, (pollMessage mac key zmsg channel.socketName).result = some message :=
      Option.ne_none_iff_exists'.mp (fun panics => readable channel ⟨zmsg,stands,panics⟩)
    have reading : (step mac key s (.deserialize channel)).1 = s.poller channel (.sending message) := by
      simp only [step,crashed,Bool.false_eq_true,if_false,handle,stands,read]
    have first : (run (step mac key) s (wind channel)).1 =
        (run (step mac key) (s.poller channel (.sending message)) [.send channel,.recvFailed channel,.poll channel]).1 := by
      simp only [wind,run,reading]
    have wound := @wind_sending mac key (s.poller channel (.sending message)) channel message cancelled crashed failed
      (poller_self ..) waits
    rw [first]
    refine wound.congr (fun other different => poller_other s different _) rfl ?_
    simp [stands,isPending]

/-- Channels that have as many messages as the writer takes are wound up one after the other. -/
theorem wind_all {s : State} (winding : Winding mac key s) {among : List Channel} (distinct : among.Nodup)
    (balance : pendingIn s among = room s) :
    let t := (run (step mac key) s (among.flatMap wind)).1
    t.cancelled = true ∧ t.crashed = false ∧ t.failed = false ∧ room t = 0 ∧
      (∀ channel ∈ among, t.pollers channel = .finished) ∧
      ∀ channel, channel ∉ among → t.pollers channel = s.pollers channel := by
  induction among generalizing s with
  | nil => exact ⟨winding.cancelled,winding.crashed,winding.failed,balance.symm,by simp,fun _ _ => rfl⟩
  | cons channel among ih =>
    obtain ⟨fresh,distinct⟩ := List.nodup_cons.mp distinct
    rw [pendingIn_cons] at balance
    have wound := wind_wound winding channel (fun waiting => by
      rw [waiting,Bool.toNat_true] at balance
      exact receiving_of_room (by omega))
    have writer := wound.writer
    simp only [List.flatMap_cons,run_append]
    generalize (run (step mac key) s (wind channel)).1 = u at wound writer
    have kept : pendingIn u among = pendingIn s among := by
      refine pendingIn_congr (fun c inside => wound.others c ?_)
      rintro rfl
      exact fresh inside
    have next : Winding mac key u := by
      refine ⟨wound.cancelled,wound.crashed,wound.failed,fun c unreadable => ?_⟩
      obtain ⟨zmsg,stands,panics⟩ := unreadable
      by_cases same : c = channel
      · subst same
        rw [wound.finished] at stands
        cases stands
      · exact winding.readable c ⟨zmsg,(wound.others c same).symm.trans stands,panics⟩
    obtain ⟨cancelled,crashed,failed,none,finished,others⟩ := ih next distinct (by omega)
    refine ⟨cancelled,crashed,failed,none,?_,?_⟩
    · refine List.forall_mem_cons.mpr ⟨?_,finished⟩
      rw [others channel fresh,wound.finished]
    · intro c outside
      rw [List.mem_cons,not_or] at outside
      rw [others c outside.2,wound.others c outside.1]

/-- A writer that waits for no message comes to its end. -/
theorem writer_ends {s : State} (cancelled : s.cancelled = true) (crashed : s.crashed = false) (failed : s.failed = false)
    (finished : ∀ channel, s.pollers channel = .finished) (none : room s = 0) :
    Ended (run (step mac key) s [.write,.look]).1 ∧ (run (step mac key) s [.write,.look]).1.failed = false := by
  cases stands : s.writer with
  | receiving => simp [room,stands] at none
  | looping | writing channel message | finished =>
    refine ⟨⟨fun channel => ?_,?_,?_⟩,?_⟩ <;> simp [run,step,handle,crashed,cancelled,stands,failed,finished]

theorem quiet_wind : ∀ e ∈ channels.flatMap wind, Quiet e := by
  intro e inside
  obtain ⟨channel,-,inside⟩ := List.mem_flatMap.mp inside
  simp only [wind,List.mem_cons,List.not_mem_nil,or_false] at inside
  rcases inside with rfl | rfl | rfl | rfl <;> trivial

/-- A way to the end on which no write fails: the writer writes once, at last. -/
def Ends (mac : List UInt8 → List UInt8 → List UInt8) (key : List UInt8) (s : State) (quiet : List Event) : Prop :=
  (∀ e ∈ quiet, Quiet e) ∧ Ended (run (step mac key) s (quiet ++ [.write,.look])).1 ∧
    (run (step mac key) s (quiet ++ [.write,.look])).1.failed = false

theorem ends_of_balance {s : State} (winding : Winding mac key s) (balance : pending s = room s) :
    Ends mac key s (channels.flatMap wind) := by
  obtain ⟨cancelled,crashed,failed,none,finished,-⟩ := wind_all winding (by decide) balance
  refine ⟨quiet_wind,?_⟩
  rw [run_append]
  exact writer_ends cancelled crashed failed (fun channel => finished channel (mem_channels channel)) none

/-- Frames whose signature is no number can be read with every key. -/
theorem unsigned_read (channel : Channel) :
    ∃ message, (pollMessage mac key unsigned channel.socketName).result = some message := by
  have elems : unsigned.elems = [] ++ delim :: [0] :: [] :: [] :: [] :: [] :: [] := rfl
  exact ⟨_,(gives_pollMessage elems List.not_mem_nil channel.socketName).1⟩

/-- A connection that could come to its end has a way to it. -/
theorem ended_of_canEnd {s : State} (cancelled : s.cancelled = true) (failed : s.failed = false)
    (can : CanEnd mac key s) : ∃ quiet, Ends mac key s quiet := by
  have winding : Winding mac key s := ⟨cancelled,can.crashed,failed,can.readable⟩
  rcases can.taken with balance | ⟨fewer,channel,stands⟩
  · exact ⟨_,ends_of_balance winding balance⟩
  · have limit := room_le s
    have come : (step mac key s (.recv channel unsigned)).1 =
        { s.poller channel (.received unsigned) with
          messages := Function.update s.messages channel (s.messages channel ++ [unsigned]) } := by
      simp only [step,can.crashed,Bool.false_eq_true,if_false,handle,stands]
    have counted := pending_poller s channel (.received unsigned)
    simp only [stands,isPending,Bool.toNat_false,Bool.toNat_true] at counted
    have next : Winding mac key (step mac key s (.recv channel unsigned)).1 := by
      rw [come]
      refine ⟨cancelled,can.crashed,failed,fun c unreadable => ?_⟩
      obtain ⟨zmsg,there,panics⟩ := unreadable
      change (s.poller channel (.received unsigned)).pollers c = .received zmsg at there
      by_cases same : c = channel
      · subst same
        rw [poller_self] at there
        obtain ⟨message,read⟩ := @unsigned_read mac key c
        rw [Poller.received.inj there,panics] at read
        cases read
      · rw [poller_other s same] at there
        exact can.readable c ⟨zmsg,there,panics⟩
    have balance : pending (step mac key s (.recv channel unsigned)).1 = room (step mac key s (.recv channel unsigned)).1 := by
      rw [come]
      change pending (s.poller channel (.received unsigned)) = room s
      omega
    obtain ⟨quiet,ended⟩ := ends_of_balance next balance
    refine ⟨.recv channel unsigned :: channels.flatMap wind,List.forall_mem_cons.mpr ⟨trivial,quiet⟩,?_⟩
    rw [List.cons_append,run]
    exact ended

end

theorem run_cancelled {mac : List UInt8 → List UInt8 → List UInt8} {key : List UInt8} (events : List Event) :
    (run (step mac key) start (events ++ [.cancel])).1.crashed = true ∨
      (run (step mac key) start (events ++ [.cancel])).1.cancelled = true := by
  rw [run_append]
  generalize (run (step mac key) start events).1 = s
  simp only [run,step]
  split_ifs with halted
  · exact .inl halted
  · exact .inr rfl

/-- Once the context is cancelled, at most one more message is written, and at most one
    more is received on each channel. -/
theorem cancelled_quiet (mac : List UInt8 → List UInt8 → List UInt8) (key : List UInt8) (events more : List Event) :
    let s := (run (step mac key) start (events ++ [.cancel])).1
    let t := (run (step mac key) s more).1
    (∃ last, t.written = s.written ++ last ∧ last.length ≤ 1) ∧
      ∀ channel, ∃ new, t.messages channel = s.messages channel ++ new ∧ new.length ≤ 1 := by
  intro s t
  rcases run_cancelled events with halted | cancelled
  · have same : t = s := run_crashed halted more
    rw [same]
    exact ⟨⟨[],by simp⟩,fun channel => ⟨[],by simp⟩⟩
  · have kept := @run_handles mac key (fun u => u.cancelled = true ∧
        (∃ last, u.written = s.written ++ last ∧ last.length + inHand u.writer ≤ 1) ∧
        ∀ channel, ∃ new, u.messages channel = s.messages channel ++ new ∧ new.length + awaited (u.pollers channel) ≤ 1) (by
      rintro u e ⟨cancelled,⟨last,written,fewer⟩,received⟩
      obtain ⟨one,writes,less⟩ := @handle_written mac key u cancelled e
      refine ⟨handle_cancelled cancelled e,⟨last ++ one,by rw [writes,written,List.append_assoc],?_⟩,fun channel => ?_⟩
      · rw [List.length_append]
        omega
      · obtain ⟨new,messages,few⟩ := received channel
        obtain ⟨next,receives,fewer⟩ := @handle_messages mac key u cancelled e channel
        refine ⟨new ++ next,by rw [receives,messages,List.append_assoc],?_⟩
        rw [List.length_append]
        omega) s ⟨cancelled,⟨[],by simp [inHand_le]⟩,fun channel => ⟨[],by simp [awaited_le]⟩⟩ more
    obtain ⟨-,⟨last,written,fewer⟩,received⟩ := kept
    refine ⟨⟨last,written,by omega⟩,fun channel => ?_⟩
    obtain ⟨new,messages,few⟩ := received channel
    exact ⟨new,messages,by omega⟩

end Zasper.ConnectionEnds
