import Zasper.Programs
import Zasper.Runs

/-!
# Pools of programs

Programs that run at the same time in one world, call by call. A request starts a
program, and a step lets one of the programs make its next call. `Among P Q` says of
a program that every call it can make satisfies `P`, and every result `Q`, whatever
the other programs do to the world in between. What such calls keep, every run of
the pool keeps (`run_calls`).
-/
namespace Zasper.Pools
open Zasper.Programs Zasper.Runs
set_option linter.unusedSimpArgs false
universe u v w

section
variable {Call : Type} {Reply : Call → Type} {World : Type} (answer : World → (c : Call) → World × Reply c)

/-! ## Programs among others -/

/-- Every call satisfies `P` and every result `Q`, where the calls are answered by worlds
    that answer so, each by another one. -/
def Among {α : Type u} (P : Call → Prop) (Q : α → Prop) : Program Call Reply α → Prop
  | .done a => Q a
  | .stop _ => True
  | .call c next => P c ∧ ∀ world, Among P Q (next (answer world c).2)

end

section
variable {Call : Type} {Reply : Call → Type} {World : Type} {answer : World → (c : Call) → World × Reply c}
variable {α β : Type u} {P : Call → Prop} {Q : α → Prop} {R : β → Prop}

@[simp] theorem among_pure (a : α) : Among answer P Q (pure a) ↔ Q a := Iff.rfl
@[simp] theorem among_stop (why : Stop) : Among answer P Q (.stop why) := trivial
theorem among_call (c : Call) (next : Reply c → Program Call Reply α) :
    Among answer P Q (.call c next) ↔ P c ∧ ∀ world, Among answer P Q (next (answer world c).2) := Iff.rfl

/-- What one program gives the next may rely on. -/
theorem among_bind {p : Program Call Reply α} {f : α → Program Call Reply β} (first : Among answer P Q p)
    (later : ∀ a, Q a → Among answer P R (f a)) : Among answer P R (p >>= f) := by
  induction p with
  | done a => exact later a first
  | stop why => trivial
  | call c next ih => exact ⟨first.1,fun world => ih _ (first.2 world)⟩

theorem among_follow {value : Option α} (given : ∀ a, value = some a → Q a) :
    Among answer P Q (Program.follow value) := by
  cases value with
  | none => trivial
  | some a => exact given a rfl

end

/-! ## Pools -/

structure Pool (World : Type v) (Thread : Type w) where
  world : World
  threads : List Thread

inductive Event (Request : Type u) where
  | start (request : Request)
  /-- The program makes its next call. -/
  | call (thread : Nat)

section
variable {Call : Type} {Reply : Call → Type} {World : Type} {Request : Type u} {α : Type v}
variable (answer : World → (c : Call) → World × Reply c) (program : Request → Program Call Reply α)

/-- The call that a program of the pool makes next. -/
def Pool.nextCall (pool : Pool World (Program Call Reply α)) (thread : Nat) : Option Call :=
  match pool.threads[thread]? with
  | some (.call c _) => some c
  | _ => none

/-- One step; a program that has ended is left alone. -/
def step (pool : Pool World (Program Call Reply α)) : Event Request → Pool World (Program Call Reply α) × Unit
  | .start request => ({ pool with threads := pool.threads ++ [program request] },())
  | .call thread =>
    match pool.threads[thread]? with
    | some (.call c next) => (⟨(answer pool.world c).1,pool.threads.set thread (next (answer pool.world c).2)⟩,())
    | _ => (pool,())

/-- The call of the event, if it is one, is good in the world that it meets. -/
def Good (Fine : World → Call → Prop) (pool : Pool World (Program Call Reply α)) : Event Request → Prop
  | .start _ => True
  | .call thread => ∀ c ∈ pool.nextCall thread, Fine pool.world c

/-- Every program of the pool makes calls that satisfy `P`. -/
def Lawful (P : Call → Prop) (pool : Pool World (Program Call Reply α)) : Prop :=
  ∀ p ∈ pool.threads, Among answer P (fun _ => True) p

end

section
variable {Call : Type} {Reply : Call → Type} {World : Type} {Request : Type u} {α : Type v}
variable {answer : World → (c : Call) → World × Reply c} {program : Request → Program Call Reply α}
variable {P : Call → Prop} {Fine : World → Call → Prop} {Inv : World → Prop}

/-- What a step does: it starts a program, makes one call of one, or nothing. -/
theorem step_lawful (programs : ∀ request, Among answer P (fun _ => True) (program request))
    {pool : Pool World (Program Call Reply α)} (lawful : Lawful answer P pool) (event : Event Request) :
    Lawful answer P (step answer program pool event).1 := by
  cases event with
  | start request =>
    intro p inside
    rcases List.mem_append.mp inside with old | new
    · exact lawful p old
    · exact List.mem_singleton.mp new ▸ programs request
  | call thread =>
    rcases there : pool.threads[thread]? with _ | (a | why | ⟨c,next⟩)
    · simpa [step,there] using lawful
    · simpa [step,there] using lawful
    · simpa [step,there] using lawful
    · intro p inside
      simp only [step,there] at inside
      rcases List.mem_or_eq_of_mem_set inside with old | rfl
      · exact lawful p old
      · exact (lawful _ (List.mem_of_getElem? there)).2 pool.world

/-- A step keeps what the good calls keep. -/
theorem step_calls (keeps : ∀ world c, Inv world → P c → Fine world c → Inv (answer world c).1)
    {pool : Pool World (Program Call Reply α)} (lawful : Lawful answer P pool) (inv : Inv pool.world)
    {event : Event Request} (good : Good Fine pool event) : Inv (step answer program pool event).1.world := by
  cases event with
  | start request => exact inv
  | call thread =>
    rcases there : pool.threads[thread]? with _ | (a | why | ⟨c,next⟩)
    · simpa [step,there] using inv
    · simpa [step,there] using inv
    · simpa [step,there] using inv
    · have fine : Fine pool.world c := good c (by simp [Pool.nextCall,there])
      have allowed : P c := (lawful _ (List.mem_of_getElem? there)).1
      simpa [step,there] using keeps pool.world c inv allowed fine

/-- What the good calls of the programs keep, every run of the pool keeps. -/
theorem run_calls (programs : ∀ request, Among answer P (fun _ => True) (program request))
    (keeps : ∀ world c, Inv world → P c → Fine world c → Inv (answer world c).1) {world : World} (start : Inv world)
    {events : List (Event Request)} (good : Meets (step answer program) (Good Fine) ⟨world,[]⟩ events) :
    Inv (run (step answer program) ⟨world,[]⟩ events).1.world := by
  have both := @run_keeps _ _ _ (step answer program) (Good Fine)
    (fun pool => Lawful answer P pool ∧ Inv pool.world) (fun _ => True)
  refine (both ?_ ?_ good).1.2
  · rintro pool event ⟨lawful,inv⟩ fine
    exact ⟨⟨step_lawful programs lawful event,step_calls keeps lawful inv fine⟩,trivial⟩
  · exact ⟨by simp [Lawful],start⟩

/-! ## The first call -/

variable {request : Request} {c : Call} {next : Reply c → Program Call Reply α}

theorem nextCall_first (calls : program request = .call c next) (world : World) :
    (step answer program ⟨world,[]⟩ (.start request)).1.nextCall 0 = some c := by
  simp [step,Pool.nextCall,calls]

theorem run_first (calls : program request = .call c next) (world : World) :
    (run (step answer program) ⟨world,[]⟩ [.start request,.call 0]).1.world = (answer world c).1 := by
  simp [run,step,calls]

end
end Zasper.Pools
